import Karphin.Common.StringUtil

/-!
# Ini files

Sections of keys with values and of raw lines, how they are read from a file and how they are written to one.
-/

namespace Karphin.Common

open Lib

def parseLine (line : Str) : Str × Str :=
  if line.head? = some '#' then ([], [])
  else
    match line.dropWhile (· ≠ '=') with
    | [] => ([], [])
    | _ :: rest => (stripWhitespace (line.takeWhile (· ≠ '=')), stripQuotes (stripWhitespace rest))

/-- `IniFile::Section`. The map of values is the list of its pairs, in the order of `keys_order`. -/
structure Section where
  name : Str
  values : List (Str × Str)
  lines : List Str
  deriving DecidableEq

namespace Section

def set (s : Section) (key newValue : Str) : Section :=
  if s.values.any fun kv => caseInsensitiveEquals kv.1 key then
    { s with values := s.values.map fun kv => if caseInsensitiveEquals kv.1 key then (kv.1, newValue) else kv }
  else { s with values := s.values ++ [(key, newValue)] }

def setLines (s : Section) (lines : List Str) : Section := { s with lines := lines }

def stripComment (strippedLine : Str) : Option Str :=
  if strippedLine.head? = some '#' then none
  else if '#' ∈ strippedLine then some (stripWhitespace (strippedLine.takeWhile (· ≠ '#')))
  else some strippedLine

def getLines (s : Section) (removeComments : Bool) : List Str :=
  if removeComments then s.lines.filterMap fun line => stripComment (stripWhitespace line)
  else s.lines.map stripWhitespace

end Section

abbrev IniFile := List Section

namespace IniFile

def getSection (ini : IniFile) (sectionName : Str) : Option Section :=
  ini.find? fun sect => caseInsensitiveEquals sect.name sectionName

def getOrCreateSection (ini : IniFile) (sectionName : Str) : IniFile × Nat :=
  match ini.findIdx? fun sect => caseInsensitiveEquals sect.name sectionName with
  | some i => (ini, i)
  | none => (ini ++ [⟨sectionName, [], []⟩], ini.length)

def setLines (ini : IniFile) (sectionName : Str) (lines : List Str) : IniFile :=
  let (ini, i) := ini.getOrCreateSection sectionName
  ini.modify i (·.setLines lines)

def getLines (ini : IniFile) (sectionName : Str) (removeComments : Bool) : List Str :=
  match ini.getSection sectionName with
  | none => []
  | some sect => sect.getLines removeComments

end IniFile

/-! ## Loading -/

def bom : Str := ['\xEF', '\xBB', '\xBF']

def removeBom : List Str → List Str
  | [] => []
  | first :: rest => (if first.take 3 = bom then first.drop 3 else first) :: rest

def removeCR (line : Str) : Str := if line.getLast? = some '\r' then line.dropLast else line

def isRaw (line : Str) : Bool :=
  (parseLine line).1 = [] && (parseLine line).2 = [] || line.head? ∈ [some '$', some '+', some '*']

def Section.addLine (s : Section) (line : Str) : Section :=
  if isRaw line then { s with lines := s.lines ++ [line] } else s.set (parseLine line).1 (parseLine line).2

structure Loader where
  ini : IniFile
  currentSection : Option Nat

def Loader.readLine (st : Loader) (line : Str) : Loader :=
  match line with
  | [] => st
  | c :: rest =>
      if c = '[' then
        if ']' ∈ rest then
          let (ini, i) := st.ini.getOrCreateSection (rest.takeWhile (· ≠ ']'))
          ⟨ini, some i⟩
        else st
      else
        match st.currentSection with
        | none => st
        | some i => ⟨st.ini.modify i (·.addLine (c :: rest)), some i⟩

def Loader.readLines (st : Loader) (lines : List Str) : Loader :=
  lines.foldl (fun st line => st.readLine (removeCR line)) st

/-- The file is one that could be opened; `ini` is empty unless the current data is kept. -/
def IniFile.load (ini : IniFile) (file : Str) : IniFile :=
  (Loader.readLines ⟨ini, none⟩ (removeBom (pieces '\n' file))).ini

/-! ## Saving -/

namespace Section

def header (s : Section) : Str := '[' :: s.name ++ [']']

def writeValue (kv : Str × Str) : Str := kv.1 ++ " = ".toList ++ kv.2

def body (s : Section) : List Str := if s.values = [] then s.lines else s.values.map writeValue

def written (s : Section) : List Str := (if s.values ≠ [] ∨ s.lines ≠ [] then [s.header] else []) ++ s.body

end Section

def IniFile.save (ini : IniFile) : Str := (ini.flatMap Section.written).flatMap (· ++ ['\n'])

end Karphin.Common
