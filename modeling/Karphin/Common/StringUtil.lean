import Karphin.Lib.FinNumerals
import Karphin.Lib.Text

/-!
# Strings

The functions on strings that the files of settings and codes are read with.
-/

namespace Karphin.Common

open Lib

/-- A `std::string`; a character stands for the byte of its value. -/
abbrev Str := List Char

def isWhitespace (c : Char) : Bool := c = ' ' || c = '\t' || c = '\r' || c = '\n'

def stripWhitespace (str : Str) : Str := trim isWhitespace str

def stripQuotes (s : Str) : Str :=
  if s.head? = some '"' ∧ s.getLast? = some '"' then (s.drop 1).take (s.length - 2) else s

def splitString (str : Str) (delim : Char) : List Str := pieces delim str

def caseInsensitiveEquals (a b : Str) : Bool := a.map Char.toLower = b.map Char.toLower

/-! ## Numbers -/

def isSpace (c : Char) : Bool := c = ' ' || '\t' ≤ c && c ≤ '\r'

def hexDigit? (c : Char) : Option Nat :=
  if '0' ≤ c ∧ c ≤ '9' then some (c.toNat - 48)
  else if 'a' ≤ c ∧ c ≤ 'f' then some (c.toNat - 87)
  else if 'A' ≤ c ∧ c ≤ 'F' then some (c.toNat - 55)
  else none

/-- What `strtoull` gives: the number, the characters from `end_ptr` on, and whether `errno` is `ERANGE`. -/
structure StrtoullResult where
  value : Nat
  rest : Str
  range : Bool

def skipHexPrefix : Str → Str
  | '0' :: x :: d :: rest => if (x = 'x' ∨ x = 'X') ∧ (hexDigit? d).isSome then d :: rest else '0' :: x :: d :: rest
  | digits => digits

/-- `strtoull` of base 16; a number after a minus sign is negated in 64 bits. -/
def strtoull16 (str : Str) : StrtoullResult :=
  let (negative, unsigned) :=
    match str.dropWhile isSpace with
    | '-' :: rest => (true, rest)
    | '+' :: rest => (false, rest)
    | rest => (false, rest)
  let digits := skipHexPrefix unsigned
  let number := digits.takeWhile fun c => (hexDigit? c).isSome
  let magnitude := number.foldl (fun n c => 16 * n + (hexDigit? c).getD 0) 0
  if number = [] then ⟨0, str, false⟩
  else if magnitude ≥ 2 ^ 64 then ⟨2 ^ 64 - 1, digits.drop number.length, true⟩
  else ⟨if negative then (2 ^ 64 - magnitude) % 2 ^ 64 else magnitude, digits.drop number.length, false⟩

/-- `TryParse` of a `u32` in base 16. The string ends at its first zero. -/
def tryParseHex (str : Str) : Option UInt32 :=
  let result := strtoull16 (str.takeWhile (· ≠ '\x00'))
  if result.rest ≠ [] ∨ result.range ∨ result.value > 0xffffffff then none else some (UInt32.ofNat result.value)

theorem stripWhitespace_idem (s : Str) : stripWhitespace (stripWhitespace s) = stripWhitespace s := trim_trim

theorem mem_of_mem_stripWhitespace {c : Char} {s : Str} (h : c ∈ stripWhitespace s) : c ∈ s := mem_of_mem_trim h

theorem mem_of_mem_stripQuotes {c : Char} {s : Str} (h : c ∈ stripQuotes s) : c ∈ s := by
  rw [stripQuotes] at h
  split at h
  · exact List.mem_of_mem_drop (List.mem_of_mem_take h)
  · exact h

theorem caseInsensitiveEquals_iff {a b : Str} :
    caseInsensitiveEquals a b = true ↔ a.map Char.toLower = b.map Char.toLower := decide_eq_true_iff

theorem caseInsensitiveEquals_refl (a : Str) : caseInsensitiveEquals a a = true := caseInsensitiveEquals_iff.mpr rfl

example : ["80001234", "0x1f", "-1", "", "12 "].map (fun str => tryParseHex str.toList) =
    [some 0x80001234, some 0x1f, none, some 0, none] := by decide

example : stripQuotes (stripWhitespace " \"two words\"\r".toList) = "two words".toList := by decide

end Karphin.Common
