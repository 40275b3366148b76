import Karphin.IOS.FS.HostBackend.Lemmas.Paths

/-!
# File names on the host

A file name of the NAND is escaped for the host and unescaped again. An escape sequence begins and ends with two underscores,
so two underscores of the name itself are escaped before.
-/

namespace Karphin.IOS.FS

/-! ## Unescaping -/

def findDoubleUnderscore : Bytes → Option Nat
  | [] => none
  | c :: cs => if c = underscore ∧ cs.head? = some underscore then some 0 else (findDoubleUnderscore cs).map (· + 1)

def hexValue (c : UInt8) : Option UInt8 :=
  if 0x30 ≤ c ∧ c ≤ 0x39 then some (c - 0x30)
  else if 0x61 ≤ c ∧ c ≤ 0x66 then some (c - 0x61 + 10)
  else if 0x41 ≤ c ∧ c ≤ 0x46 then some (c - 0x41 + 10)
  else none

/-- `FromChars` of two characters to base 16, which reads as many digits as there are. -/
def fromChars (high low : UInt8) : Option UInt8 :=
  (hexValue high).map fun h => ((hexValue low).map fun l => 16 * h + l).getD h

def replaceSequence (result : Bytes) (pos : Nat) : Bytes :=
  match result.drop pos with
  | _ :: _ :: high :: low :: c :: c' :: rest =>
      if c = underscore ∧ c' = underscore then
        match fromChars high low with
        | some character => result.take pos ++ character :: rest
        | none => result
      else result
  | _ => result

def unescapeLoop : Nat → Bytes → Nat → Option Bytes
  | 0, _, _ => none
  | fuel + 1, result, pos =>
      match findDoubleUnderscore (result.drop pos) with
      | none => some result
      | some i => unescapeLoop fuel (replaceSequence result (pos + i)) (pos + i + 1)

def unescapeFileName (filename : Bytes) : Option Bytes := unescapeLoop (filename.length + 1) filename 0

def isFileNameSafe (filename : Bytes) : Bool :=
  !filename.isEmpty && !filename.all (· = dot) && !filename.any isIllegalCharacter

def joinStrings (strings : List Bytes) (delimiter : Bytes) : Bytes :=
  let joined := strings.flatMap (· ++ delimiter)
  -- the delimiter behind the last string is dropped
  joined.take (joined.length - delimiter.length)

def escapePathString (path : Bytes) : Bytes := joinStrings ((splitString slash path).map escapeFileName) [slash]

/-! ## What the loop computes -/

def unescaped : Bytes → Bytes
  | c :: c' :: high :: low :: d :: d' :: rest =>
      if c = underscore ∧ c' = underscore ∧ d = underscore ∧ d' = underscore then
        match fromChars high low with
        | some character => character :: unescaped rest
        | none => c :: unescaped (c' :: high :: low :: d :: d' :: rest)
      else c :: unescaped (c' :: high :: low :: d :: d' :: rest)
  | c :: rest => c :: unescaped rest
  | [] => []
termination_by rest => rest.length

theorem unescaped_cons {c : UInt8} {cs : Bytes} (h : ¬ (c = underscore ∧ cs.head? = some underscore)) :
    unescaped (c :: cs) = c :: unescaped cs := by
  rw [unescaped.eq_def]
  split
  next heq =>
    obtain ⟨rfl, rfl⟩ := List.cons.inj heq
    rw [if_neg fun hsequence => h ⟨hsequence.1, by rw [hsequence.2.1]; rfl⟩]
  next heq =>
    obtain ⟨rfl, rfl⟩ := List.cons.inj heq
    rfl
  next heq => cases heq

theorem unescaped_of_find_none : ∀ {rest : Bytes}, findDoubleUnderscore rest = none → unescaped rest = rest
  | [], _ => by rw [unescaped]
  | c :: cs, h => by
      rw [findDoubleUnderscore] at h
      split at h
      · cases h
      next hc => rw [unescaped_cons hc, unescaped_of_find_none (Option.map_eq_none_iff.mp h)]

theorem unescaped_of_find_some : ∀ {rest : Bytes} {i : Nat}, findDoubleUnderscore rest = some i →
    ∃ skip tail, rest = skip ++ underscore :: underscore :: tail ∧ skip.length = i ∧
      unescaped rest = skip ++ unescaped (underscore :: underscore :: tail)
  | [], _, h => by cases h
  | c :: cs, i, h => by
      rw [findDoubleUnderscore] at h
      split at h
      next hc =>
        obtain ⟨rfl, hhead⟩ := hc
        cases h
        cases cs with
        | nil => cases hhead
        | cons c' tail =>
            cases hhead
            exact ⟨[], tail, rfl, rfl, rfl⟩
      next hc =>
        obtain ⟨j, hj, rfl⟩ := Option.map_eq_some_iff.mp h
        obtain ⟨skip, tail, rfl, rfl, hunescaped⟩ := unescaped_of_find_some hj
        refine ⟨c :: skip, tail, rfl, rfl, ?_⟩
        rw [unescaped_cons hc, hunescaped, List.cons_append]

theorem replaceSequence_append (front : Bytes) (tail : Bytes) :
    ∃ c rest, replaceSequence (front ++ underscore :: underscore :: tail) front.length = front ++ c :: rest ∧
      rest.length ≤ tail.length + 1 ∧ unescaped (underscore :: underscore :: tail) = c :: unescaped rest := by
  have hkept : replaceSequence (front ++ underscore :: underscore :: tail) front.length =
      front ++ underscore :: underscore :: tail →
      unescaped (underscore :: underscore :: tail) = underscore :: unescaped (underscore :: tail) →
      ∃ c rest, replaceSequence (front ++ underscore :: underscore :: tail) front.length = front ++ c :: rest ∧
        rest.length ≤ tail.length + 1 ∧ unescaped (underscore :: underscore :: tail) = c :: unescaped rest :=
    fun hsame hcons => ⟨underscore, underscore :: tail, hsame, Nat.le_refl _, hcons⟩
  rcases tail with _ | ⟨high, _ | ⟨low, _ | ⟨d, _ | ⟨d', rest⟩⟩⟩⟩
  · exact hkept (by rw [replaceSequence, List.drop_left]) (by rw [unescaped]; nofun)
  · exact hkept (by rw [replaceSequence, List.drop_left]) (by rw [unescaped]; nofun)
  · exact hkept (by rw [replaceSequence, List.drop_left]) (by rw [unescaped]; nofun)
  · exact hkept (by rw [replaceSequence, List.drop_left]) (by rw [unescaped]; nofun)
  · by_cases hclosed : d = underscore ∧ d' = underscore
    · cases hchars : fromChars high low with
      | none =>
          apply hkept
          · simp only [replaceSequence, List.drop_left, if_pos hclosed, hchars]
          · rw [unescaped, if_pos ⟨rfl, rfl, hclosed.1, hclosed.2⟩, hchars]
      | some character =>
          refine ⟨character, rest, ?_, ?_, ?_⟩
          · simp only [replaceSequence, List.drop_left, if_pos hclosed, hchars, List.take_left]
          · simp only [List.length_cons]
            omega
          · rw [unescaped, if_pos ⟨rfl, rfl, hclosed.1, hclosed.2⟩, hchars]
    · apply hkept
      · simp only [replaceSequence, List.drop_left, if_neg hclosed]
      · rw [unescaped, if_neg fun hall => hclosed ⟨hall.2.2.1, hall.2.2.2⟩]

theorem unescapeLoop_eq : ∀ (fuel : Nat) (front rest : Bytes), rest.length < fuel →
    unescapeLoop fuel (front ++ rest) front.length = some (front ++ unescaped rest)
  | 0, _, _, h => absurd h (Nat.not_lt_zero _)
  | fuel + 1, front, rest, h => by
      rw [unescapeLoop, List.drop_left]
      cases hfind : findDoubleUnderscore rest with
      | none => rw [unescaped_of_find_none hfind]
      | some i =>
          obtain ⟨skip, tail, rfl, rfl, hunescaped⟩ := unescaped_of_find_some hfind
          obtain ⟨c, rest', hreplaced, hlength, hc⟩ := replaceSequence_append (front ++ skip) tail
          have hfront : front.length + skip.length + 1 = (front ++ skip ++ [c]).length := by simp [Nat.add_assoc]
          have hshort : rest'.length < fuel := by
            simp only [List.length_append, List.length_cons] at h
            omega
          rw [List.length_append, List.append_assoc] at hreplaced
          simp only [hreplaced, hunescaped, hc, hfront]
          have ih := unescapeLoop_eq fuel (front ++ skip ++ [c]) rest' hshort
          simpa using ih

/-! ## Escaping and unescaping -/

theorem hexDigit_cases {n : UInt8} (h : n < 16) : hexValue (hexDigit n) = some n ∧ hexDigit n ≠ underscore := by
  have hall : ∀ k < 16, hexValue (hexDigit (UInt8.ofNat k)) = some (UInt8.ofNat k) ∧
      hexDigit (UInt8.ofNat k) ≠ underscore := by decide
  have hn := hall n.toNat (UInt8.lt_iff_toNat_lt.mp h)
  rwa [UInt8.ofNat_toNat] at hn

theorem digits_lt (c : UInt8) : c / 16 < 16 ∧ c % 16 < 16 := by
  have hc := c.toNat_lt
  constructor
  · rw [UInt8.lt_iff_toNat_lt, UInt8.toNat_div]
    exact Nat.div_lt_of_lt_mul hc
  · rw [UInt8.lt_iff_toNat_lt, UInt8.toNat_mod]
    exact Nat.mod_lt _ (by decide)

theorem fromChars_hexDigits (c : UInt8) : fromChars (hexDigit (c / 16)) (hexDigit (c % 16)) = some c := by
  obtain ⟨hhigh, hlow⟩ := digits_lt c
  have hsum : 16 * (c / 16) + c % 16 = c := by
    have hc := c.toNat_lt
    rw [← UInt8.toNat_inj]
    simp
    omega
  rw [fromChars, (hexDigit_cases hhigh).1, (hexDigit_cases hlow).1]
  simp [hsum]

theorem unescaped_escapeSequence (c : UInt8) (rest : Bytes) :
    unescaped (escapeSequence c ++ rest) = c :: unescaped rest := by
  simp only [escapeSequence, List.cons_append, List.nil_append]
  rw [unescaped, if_pos ⟨rfl, rfl, rfl, rfl⟩, fromChars_hexDigits]

theorem unescaped_underscore_escapeSequence (c : UInt8) (rest : Bytes) :
    unescaped (underscore :: (escapeSequence c ++ rest)) = underscore :: unescaped (escapeSequence c ++ rest) := by
  have hlow := (hexDigit_cases (digits_lt c).2).2
  simp only [escapeSequence, List.cons_append, List.nil_append]
  rw [unescaped, if_neg fun h => hlow h.2.2.1]

theorem unescaped_flatMap_dot : ∀ {filename : Bytes}, filename.all (· = dot) = true →
    unescaped (filename.flatMap fun _ => escapeSequence dot) = filename
  | [], _ => by
      rw [List.flatMap_nil, unescaped]
  | c :: cs, h => by
      rw [List.all_cons, Bool.and_eq_true, decide_eq_true_eq] at h
      rw [List.flatMap_cons, unescaped_escapeSequence, unescaped_flatMap_dot h.2, h.1]

def escapeCharacter (c : UInt8) : Bytes := if isIllegalCharacter c then escapeSequence c else [c]

theorem escapeFileName_eq (filename : Bytes) (h : ¬ filename.all (· = dot) = true) :
    escapeFileName filename = (escapeDoubleUnderscores filename).flatMap escapeCharacter := by
  rw [escapeFileName, if_neg h]
  rfl

theorem flatMap_escapeUnderscore : (escapeSequence underscore).flatMap escapeCharacter = escapeSequence underscore := by
  decide

theorem escapeDoubleUnderscores_cons {c : UInt8} (hc : c ≠ underscore) (cs : Bytes) :
    escapeDoubleUnderscores (c :: cs) = c :: escapeDoubleUnderscores cs := by
  cases cs with
  | nil => rfl
  | cons c' cs => rw [escapeDoubleUnderscores, if_neg fun hboth => hc hboth.1]

theorem unescaped_flatMap_escape : ∀ (filename : Bytes),
    unescaped ((escapeDoubleUnderscores filename).flatMap escapeCharacter) = filename
  | [] => by
      rw [escapeDoubleUnderscores, List.flatMap_nil, unescaped]
  | [c] => by
      rw [escapeDoubleUnderscores, List.flatMap_cons, List.flatMap_nil, escapeCharacter]
      split
      · rw [unescaped_escapeSequence, unescaped]
      · rw [List.append_nil, unescaped_cons (by simp), unescaped]
  | c :: c' :: cs => by
      rw [escapeDoubleUnderscores]
      split
      next hboth =>
        obtain ⟨rfl, rfl⟩ := hboth
        rw [List.flatMap_append, List.flatMap_append, flatMap_escapeUnderscore, List.append_assoc,
          unescaped_escapeSequence, unescaped_escapeSequence, unescaped_flatMap_escape cs]
      next hnot =>
        have ih := unescaped_flatMap_escape (c' :: cs)
        rw [List.flatMap_cons, escapeCharacter]
        split
        · rw [unescaped_escapeSequence, ih]
        next hlegal =>
          rw [List.cons_append, List.nil_append]
          have hcons : unescaped (c :: (escapeDoubleUnderscores (c' :: cs)).flatMap escapeCharacter) =
              c :: unescaped ((escapeDoubleUnderscores (c' :: cs)).flatMap escapeCharacter) := by
            by_cases hc : c = underscore
            · have hc' : c' ≠ underscore := fun heq => hnot ⟨hc, heq⟩
              rw [hc, escapeDoubleUnderscores_cons hc', List.flatMap_cons, escapeCharacter]
              split
              · exact unescaped_underscore_escapeSequence c' _
              · exact unescaped_cons fun h => hc' (Option.some.inj h.2)
            · exact unescaped_cons fun h => hc h.1
          rw [hcons, ih]

theorem unescaped_escapeFileName (filename : Bytes) : unescaped (escapeFileName filename) = filename := by
  by_cases h : filename.all (· = dot) = true
  · rw [escapeFileName, if_pos h, unescaped_flatMap_dot h]
  · rw [escapeFileName_eq filename h, unescaped_flatMap_escape]

theorem unescapeFileName_eq (filename : Bytes) : unescapeFileName filename = some (unescaped filename) :=
  unescapeLoop_eq (filename.length + 1) [] filename (Nat.lt_succ_self _)

/-! ## Safe names -/

theorem escapeSequence_legal (c : UInt8) : ∀ d ∈ escapeSequence c, isIllegalCharacter d = false := by
  have hall : ∀ k < 16, isIllegalCharacter (hexDigit (UInt8.ofNat k)) = false := by decide
  have hdigit : ∀ n : UInt8, n < 16 → isIllegalCharacter (hexDigit n) = false := by
    intro n hn
    have h := hall n.toNat (UInt8.lt_iff_toNat_lt.mp hn)
    rwa [UInt8.ofNat_toNat] at h
  have hunderscore : isIllegalCharacter underscore = false := by decide
  simp [escapeSequence, hunderscore, hdigit _ (digits_lt c).1, hdigit _ (digits_lt c).2]

theorem escapeFileName_legal (filename : Bytes) : ∀ d ∈ escapeFileName filename, isIllegalCharacter d = false := by
  intro d hd
  by_cases h : filename.all (· = dot) = true
  · rw [escapeFileName, if_pos h] at hd
    obtain ⟨-, -, hmem⟩ := List.mem_flatMap.mp hd
    exact escapeSequence_legal dot d hmem
  · rw [escapeFileName_eq filename h] at hd
    obtain ⟨c, -, hmem⟩ := List.mem_flatMap.mp hd
    rw [escapeCharacter] at hmem
    split at hmem
    · exact escapeSequence_legal c d hmem
    next hlegal =>
      rw [List.mem_singleton.mp hmem]
      exact Bool.eq_false_iff.mpr hlegal

theorem unescaped_dots : ∀ {name : Bytes}, name.all (· = dot) = true → unescaped name = name
  | [], _ => by rw [unescaped]
  | c :: cs, h => by
      rw [List.all_cons, Bool.and_eq_true, decide_eq_true_eq] at h
      have hc : ¬ (c = underscore ∧ cs.head? = some underscore) := by
        rw [h.1]
        exact fun hunderscore => absurd hunderscore.1 (by decide)
      rw [unescaped_cons hc, unescaped_dots h.2]

theorem escapeFileName_not_dots {filename : Bytes} (hne : filename ≠ []) :
    (escapeFileName filename).all (· = dot) = false := by
  rw [Bool.eq_false_iff]
  intro hdots
  have hsame : escapeFileName filename = filename := by
    rw [← unescaped_dots hdots]
    exact unescaped_escapeFileName filename
  have hsequence : escapeFileName filename = filename.flatMap fun _ => escapeSequence dot := by
    rw [hsame] at hdots
    rw [escapeFileName, if_pos hdots]
  cases filename with
  | nil => exact hne rfl
  | cons c cs =>
      rw [hsequence, List.flatMap_cons] at hdots
      cases hdots

theorem isFileNameSafe_escapeFileName {filename : Bytes} (hne : filename ≠ []) :
    isFileNameSafe (escapeFileName filename) = true := by
  have hnonempty : escapeFileName filename ≠ [] := fun h => hne (escapeFileName_eq_nil.mp h)
  have hlegal : (escapeFileName filename).any isIllegalCharacter = false := by
    rw [List.any_eq_false]
    exact fun d hd => by simp [escapeFileName_legal filename d hd]
  rw [isFileNameSafe, escapeFileName_not_dots hne, hlegal]
  simpa using hnonempty

/-! ## Paths -/

theorem splitString_terminated : ∀ {pieces : List Bytes}, (∀ piece ∈ pieces, slash ∉ piece) →
    splitString slash (pieces.flatMap (· ++ [slash])) = pieces
  | [], _ => rfl
  | piece :: pieces, h => by
      have ih := splitString_terminated fun p hp => h p (List.mem_cons_of_mem _ hp)
      have hpiece := h piece List.mem_cons_self
      rw [List.flatMap_cons, List.append_assoc, List.singleton_append]
      by_cases hne : piece = []
      · rw [hne, List.nil_append, splitString_cons_slash, ih]
      · have hlast : piece.getLast? ≠ some slash := fun hlast => hpiece (List.mem_of_getLast? hlast)
        rw [splitString_append _ _ hne hlast, splitString_of_not_mem hne hpiece, ih]
        rfl

theorem splitString_append_slash {w : Bytes} (hne : w ≠ []) (hlast : w.getLast? ≠ some slash) :
    splitString slash (w ++ [slash]) = splitString slash w := by
  rw [splitString_append [] w hne hlast, splitString, List.append_nil]

theorem joinStrings_append (init : List Bytes) (last : Bytes) :
    joinStrings (init ++ [last]) [slash] = init.flatMap (· ++ [slash]) ++ last := by
  have hjoined : (init ++ [last]).flatMap (· ++ [slash]) = (init.flatMap (· ++ [slash]) ++ last) ++ [slash] := by
    simp
  rw [joinStrings, hjoined, List.length_append, Nat.add_sub_cancel, List.take_left]

theorem splitString_joinStrings {init : List Bytes} {last : Bytes} (h : ∀ piece ∈ init ++ [last], slash ∉ piece) :
    splitString slash (joinStrings (init ++ [last]) [slash]) = if last = [] then init else init ++ [last] := by
  rw [joinStrings_append]
  split
  next hempty =>
    rw [hempty, List.append_nil]
    exact splitString_terminated fun piece hpiece => h piece (List.mem_append_left _ hpiece)
  next hne =>
    have hslash : slash ∉ last := h last (List.mem_append_right _ List.mem_cons_self)
    have hlast : (init.flatMap (· ++ [slash]) ++ last).getLast? ≠ some slash := by
      rw [List.getLast?_append_of_ne_nil _ hne]
      exact fun hlast => hslash (List.mem_of_getLast? hlast)
    rw [← splitString_append_slash (by simp [hne]) hlast]
    have hterminated := splitString_terminated h
    simpa using hterminated

theorem splitString_init_last : ∀ {w : Bytes}, w ≠ [] →
    ∃ init last, splitString slash w = init ++ [last] ∧ (last = [] → w.getLast? = some slash)
  | [], h => absurd rfl h
  | [c], _ => by
      by_cases hc : c = slash
      · exact ⟨[], [], by rw [hc, splitString_cons_slash]; rfl, fun _ => by rw [hc]; rfl⟩
      · exact ⟨[], [c], by rw [splitString_cons hc]; rfl, nofun⟩
  | c :: c' :: w, _ => by
      obtain ⟨init, last, hsplit, hlast⟩ := splitString_init_last (List.cons_ne_nil c' w)
      have hend : last = [] → (c :: c' :: w).getLast? = some slash := by simpa using hlast
      by_cases hc : c = slash
      · exact ⟨[] :: init, last, by rw [hc, splitString_cons_slash, hsplit]; rfl, hend⟩
      · rw [splitString_cons hc, hsplit]
        cases init with
        | nil => exact ⟨[], c :: last, rfl, nofun⟩
        | cons piece init => exact ⟨(c :: piece) :: init, last, rfl, hend⟩

theorem slash_not_mem_escapeFileName (filename : Bytes) : slash ∉ escapeFileName filename :=
  fun h => absurd (escapeFileName_legal filename slash h) (by decide)

theorem splitString_escapePathString (path : Bytes) :
    (path.getLast? ≠ some slash → splitString slash (escapePathString path) =
      (splitString slash path).map escapeFileName) ∧
    (splitString slash (escapePathString path)).filter (· ≠ []) =
      ((splitString slash path).filter (· ≠ [])).map escapeFileName := by
  by_cases hne : path = []
  · rw [hne]
    exact ⟨fun _ => rfl, rfl⟩
  · obtain ⟨init, last, hsplit, hlast⟩ := splitString_init_last hne
    have hslash : ∀ piece ∈ init.map escapeFileName ++ [escapeFileName last], slash ∉ piece := by
      intro piece hpiece
      have hmem : piece ∈ (init ++ [last]).map escapeFileName := by simpa using hpiece
      obtain ⟨filename, -, rfl⟩ := List.mem_map.mp hmem
      exact slash_not_mem_escapeFileName filename
    have hjoined := splitString_joinStrings hslash
    have hpath : splitString slash (escapePathString path) =
        if last = [] then init.map escapeFileName else init.map escapeFileName ++ [escapeFileName last] := by
      rw [escapePathString, hsplit, List.map_append, List.map_singleton, hjoined]
      simp only [escapeFileName_eq_nil]
    have hnonempty : ∀ names : List Bytes, (names.map escapeFileName).filter (· ≠ []) =
        (names.filter (· ≠ [])).map escapeFileName := by
      intro names
      rw [List.filter_map]
      congr 2
      funext name
      simp [escapeFileName_eq_nil]
    rw [hpath, hsplit]
    constructor
    · intro hend
      rw [if_neg fun hempty => hend (hlast hempty), List.map_append, List.map_singleton]
    · split
      next hempty =>
        rw [hempty, hnonempty]
        simp
      next hne =>
        rw [← List.map_singleton, ← List.map_append, hnonempty]

/-! ## The round trip -/

/-- What is escaped is unescaped again and is a safe name, and a path is escaped name by name. An empty name at its end is
lost, as the one of the root directory is. -/
theorem nandPaths_escape :
    (∀ filename, ∃ result, ∀ fuel > filename.length, unescapeLoop fuel filename 0 = some result) ∧
    (∀ filename, unescapeFileName (escapeFileName filename) = some filename) ∧
    Function.Injective escapeFileName ∧
    (∀ filename ≠ [], isFileNameSafe (escapeFileName filename) = true) ∧
    (∀ path : Bytes, path.getLast? ≠ some slash →
      splitString slash (escapePathString path) = (splitString slash path).map escapeFileName) ∧
    ∀ path, (splitString slash (escapePathString path)).filter (· ≠ []) =
      ((splitString slash path).filter (· ≠ [])).map escapeFileName := by
  have hround : ∀ filename, unescapeFileName (escapeFileName filename) = some filename := by
    intro filename
    rw [unescapeFileName_eq, unescaped_escapeFileName]
  refine ⟨fun filename => ⟨unescaped filename, fun fuel hfuel => unescapeLoop_eq fuel [] filename hfuel⟩, hround, ?_,
    fun _ => isFileNameSafe_escapeFileName, fun path => (splitString_escapePathString path).1,
    fun path => (splitString_escapePathString path).2⟩
  intro filename filename' heq
  rw [← unescaped_escapeFileName filename, heq, unescaped_escapeFileName]

/-- The root directory has an empty name behind its separator, and the escaped path has none. -/
theorem escapePathString_root : isValidPath [slash] = true ∧ (splitString slash [slash]).map escapeFileName = [[]] ∧
    splitString slash (escapePathString [slash]) = [] := by
  decide

end Karphin.IOS.FS
