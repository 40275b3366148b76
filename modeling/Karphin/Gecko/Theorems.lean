import Karphin.Common.IniFile.Lemmas.Reading
import Karphin.Gecko.Lemmas.Saving

/-!
# Saving and loading the codes again

Codes are found in the lists of enabled and disabled codes by their names alone, so a code that was enabled in its own line
shares that with the codes of its name when it was saved.
-/

namespace Karphin.Gecko

open Common Lib

/-! ## The lists of names -/

def Enables (ini : IniFile) (name : Str) : Prop := '$' :: name ∈ ini.getLines "Gecko_Enabled".toList false

def Disables (ini : IniFile) (name : Str) : Prop := '$' :: name ∈ ini.getLines "Gecko_Disabled".toList false

instance (ini : IniFile) (name : Str) : Decidable (Enables ini name) := inferInstanceAs (Decidable (_ ∈ _))

instance (ini : IniFile) (name : Str) : Decidable (Disables ini name) := inferInstanceAs (Decidable (_ ∈ _))

def status (ini : IniFile) (name : Str) (enabled : Bool) : Bool :=
  if Disables ini name then false else if Enables ini name then true else enabled

def GeckoCode.withStatus (ini : IniFile) (code : GeckoCode) : GeckoCode :=
  { code with enabled := status ini code.name code.enabled }

theorem setEnabled_lines (enabled : Bool) (lines : List Str) (codes : List GeckoCode) :
    lines.foldl (setEnabled enabled) codes = codes.map fun code =>
      if '$' :: code.name ∈ lines then { code with enabled := enabled } else code := by
  induction lines generalizing codes with
  | nil => simp
  | cons line lines ih =>
      rw [List.foldl_cons, ih, setEnabled]
      split
      next hhead =>
        apply List.map_congr_left
        intro code _
        have hne : '$' :: code.name ≠ line := by
          rintro rfl
          exact hhead rfl
        simp [hne]
      next hhead =>
        obtain ⟨name, rfl⟩ := List.head?_eq_some_iff.mp (not_not.mp hhead)
        rw [List.map_map]
        apply List.map_congr_left
        intro code _
        by_cases hname : name = code.name
        · simp [hname]
        · simp [hname, Ne.symm hname]

theorem readEnabledAndDisabled_eq (ini : IniFile) (codes : List GeckoCode) :
    readEnabledAndDisabled ini gecko codes = codes.map (GeckoCode.withStatus ini) := by
  have henabled : gecko ++ "_Enabled".toList = "Gecko_Enabled".toList := by decide
  have hdisabled : gecko ++ "_Disabled".toList = "Gecko_Disabled".toList := by decide
  rw [readEnabledAndDisabled, readEnabledOrDisabled, readEnabledOrDisabled, setEnabled_lines, setEnabled_lines,
    henabled, hdisabled, List.map_map]
  apply List.map_congr_left
  intro code _
  simp only [Function.comp_apply, GeckoCode.withStatus, status, Enables, Disables]
  by_cases henables : '$' :: code.name ∈ ini.getLines "Gecko_Enabled".toList false
  · by_cases hdisables : '$' :: code.name ∈ ini.getLines "Gecko_Disabled".toList false <;>
      simp only [henables, hdisables, ↓reduceIte]
  · by_cases hdisables : '$' :: code.name ∈ ini.getLines "Gecko_Disabled".toList false <;>
      simp only [henables, hdisables, ↓reduceIte]

/-! ## What is saved -/

variable (globalIni localIni : IniFile)

def readBoth : List GeckoCode := loadGlobal globalIni ++ readCodes true [] (localIni.getLines gecko false)

theorem loadCodes_eq : loadCodes globalIni localIni =
    (readBoth globalIni localIni).map (GeckoCode.withStatus localIni) := by
  rw [loadCodes, readEnabledAndDisabled_eq, readCodes_append, readBoth]

theorem readCodes_local_saved : ∀ code ∈ readCodes true [] (localIni.getLines gecko false), code.Saved := by
  intro code hcode
  obtain ⟨hread, hname, huser, hdefault⟩ := readCodes_good true localIni gecko code hcode
  exact ⟨hread, hname, huser, hdefault⟩

theorem loadGlobal_good : ∀ code ∈ loadGlobal globalIni,
    Stripped code.name ∧ code.userDefined = false ∧ code.defaultEnabled = code.enabled := by
  intro code hcode
  rw [loadGlobal, readEnabledAndDisabled_eq, List.map_map] at hcode
  obtain ⟨first, hfirst, rfl⟩ := List.mem_map.mp hcode
  obtain ⟨hread, -, huser, -⟩ := readCodes_good false globalIni gecko first hfirst
  exact ⟨hread.name, huser, rfl⟩

theorem readBoth_good : ∀ code ∈ readBoth globalIni localIni,
    Stripped code.name ∧ (code.defaultEnabled = true → code.enabled = true) := by
  intro code hcode
  rcases List.mem_append.mp hcode with hglobal | hlocal
  · obtain ⟨hname, -, hdefault⟩ := loadGlobal_good globalIni code hglobal
    exact ⟨hname, fun h => hdefault ▸ h⟩
  · have hsaved := readCodes_local_saved localIni code hlocal
    exact ⟨hsaved.read.name, fun h => absurd (hsaved.default ▸ h) Bool.false_ne_true⟩

theorem saveGeckoCode_withStatus (code : GeckoCode) :
    saveGeckoCode (code.withStatus localIni) = saveGeckoCode code := rfl

theorem flatMap_saveGeckoCode_loadCodes : (loadCodes globalIni localIni).flatMap saveGeckoCode =
    (readCodes true [] (localIni.getLines gecko false)).flatMap saveGeckoCode := by
  have hglobal : (loadGlobal globalIni).flatMap saveGeckoCode = [] := by
    rw [List.flatMap_eq_nil_iff]
    intro code hcode
    exact if_neg (by rw [(loadGlobal_good globalIni code hcode).2.1]; exact Bool.false_ne_true)
  rw [loadCodes_eq, List.flatMap_map]
  simp only [saveGeckoCode_withStatus]
  rw [readBoth, List.flatMap_append, hglobal, List.nil_append]

def savedIni : IniFile := saveCodes localIni (loadCodes globalIni localIni)

theorem getLines_savedIni : (savedIni globalIni localIni).getLines gecko false =
    ((loadCodes globalIni localIni).flatMap saveGeckoCode).map stripWhitespace := by
  rw [savedIni, saveCodes, IniFile.getLines_setLines_of_ne (by decide), IniFile.getLines_setLines_of_ne (by decide),
    IniFile.getLines_setLines_self]

theorem mem_changedLines {enabled : Bool} {name : Str} :
    '$' :: name ∈ (changedLines enabled (loadCodes globalIni localIni)).map stripWhitespace ↔
      ∃ code ∈ readBoth globalIni localIni, code.name = name ∧ status localIni name code.enabled = enabled ∧
        code.defaultEnabled = !enabled := by
  have hself : ∀ code ∈ readBoth globalIni localIni, stripWhitespace ('$' :: code.name) = '$' :: code.name :=
    fun code hcode => stripped_dollar (readBoth_good globalIni localIni code hcode).1
  rw [changedLines, loadCodes_eq, List.map_map]
  constructor
  · intro hmem
    obtain ⟨code, hcode, heq⟩ := List.mem_map.mp hmem
    obtain ⟨hcode, hstatus⟩ := List.mem_filter.mp hcode
    obtain ⟨first, hfirst, rfl⟩ := List.mem_map.mp hcode
    have hname : first.name = name := List.cons_injective ((hself first hfirst).symm.trans heq)
    subst hname
    rw [Bool.and_eq_true, decide_eq_true_iff, decide_eq_true_iff] at hstatus
    refine ⟨first, hfirst, rfl, hstatus.2, ?_⟩
    rw [← hstatus.2]
    exact Bool.eq_not.mpr fun h => hstatus.1 h.symm
  · rintro ⟨code, hcode, rfl, hstatus, hdefault⟩
    refine List.mem_map.mpr ⟨code.withStatus localIni, List.mem_filter.mpr ⟨List.mem_map_of_mem hcode, ?_⟩, hself code hcode⟩
    rw [Bool.and_eq_true, decide_eq_true_iff, decide_eq_true_iff]
    refine ⟨?_, hstatus⟩
    have hfield : (code.withStatus localIni).enabled = enabled := hstatus
    have hother : (code.withStatus localIni).defaultEnabled = !enabled := hdefault
    rw [hfield, hother]
    cases enabled <;> exact Bool.noConfusion

theorem enables_savedIni {name : Str} : Enables (savedIni globalIni localIni) name ↔
    ∃ code ∈ readBoth globalIni localIni, code.name = name ∧ status localIni name code.enabled = true ∧
      code.defaultEnabled = false := by
  rw [Enables, savedIni, saveCodes, IniFile.getLines_setLines_of_ne (by decide), IniFile.getLines_setLines_self]
  exact mem_changedLines globalIni localIni

theorem disables_savedIni {name : Str} : Disables (savedIni globalIni localIni) name ↔
    ∃ code ∈ readBoth globalIni localIni, code.name = name ∧ status localIni name code.enabled = false ∧
      code.defaultEnabled = true := by
  rw [Disables, savedIni, saveCodes, IniFile.getLines_setLines_self]
  exact mem_changedLines globalIni localIni

theorem loadCodes_savedIni : loadCodes globalIni (savedIni globalIni localIni) =
    (readBoth globalIni localIni).map fun code =>
      { code with enabled := status (savedIni globalIni localIni) code.name code.defaultEnabled } := by
  have hglobal : (loadGlobal globalIni).map (GeckoCode.withStatus (savedIni globalIni localIni)) =
      (loadGlobal globalIni).map fun code =>
        { code with enabled := status (savedIni globalIni localIni) code.name code.defaultEnabled } := by
    apply List.map_congr_left
    intro code hcode
    rw [GeckoCode.withStatus, (loadGlobal_good globalIni code hcode).2.2]
  have hlocal : ((readCodes true [] (localIni.getLines gecko false)).map GeckoCode.disable).map
      (GeckoCode.withStatus (savedIni globalIni localIni)) =
      (readCodes true [] (localIni.getLines gecko false)).map fun code =>
        { code with enabled := status (savedIni globalIni localIni) code.name code.defaultEnabled } := by
    rw [List.map_map]
    apply List.map_congr_left
    intro code hcode
    have hdefault := (readCodes_local_saved localIni code hcode).default
    simp only [Function.comp_apply, GeckoCode.withStatus, GeckoCode.disable, hdefault]
  rw [loadCodes_eq, readBoth, getLines_savedIni, flatMap_saveGeckoCode_loadCodes,
    readCodes_saved (readCodes_local_saved localIni), List.map_append, hglobal, hlocal, readBoth, List.map_append]

/-! ## Names that codes share -/

/-- A code is enabled, though not by default and not by the lists of the local file, and a code of its name is not. -/
def SharesName : Prop :=
  ∃ code ∈ readBoth globalIni localIni, code.enabled = true ∧ code.defaultEnabled = false ∧
    ¬Enables localIni code.name ∧ ¬Disables localIni code.name ∧
    ∃ other ∈ readBoth globalIni localIni, other.name = code.name ∧ other.enabled = false

variable {globalIni localIni}

theorem status_of_unlisted {name : Str} (henables : ¬Enables localIni name) (hdisables : ¬Disables localIni name)
    (enabled : Bool) : status localIni name enabled = enabled := by
  rw [status, if_neg hdisables, if_neg henables]

theorem status_savedIni (h : ¬SharesName globalIni localIni) {code : GeckoCode}
    (hcode : code ∈ readBoth globalIni localIni) :
    status (savedIni globalIni localIni) code.name code.defaultEnabled = status localIni code.name code.enabled := by
  have hdefault := (readBoth_good globalIni localIni code hcode).2
  by_cases hdisables : Disables localIni code.name
  · have hoff : ∀ enabled, status localIni code.name enabled = false := fun _ => if_pos hdisables
    have hno : ¬Enables (savedIni globalIni localIni) code.name := by
      rw [enables_savedIni]
      rintro ⟨other, -, -, hother, -⟩
      rw [hoff] at hother
      cases hother
    rw [hoff, status, if_neg hno]
    cases hdef : code.defaultEnabled with
    | false => rw [ite_self]
    | true => exact if_pos ((disables_savedIni globalIni localIni).mpr ⟨code, hcode, rfl, hoff _, hdef⟩)
  by_cases henables : Enables localIni code.name
  · have hon : ∀ enabled, status localIni code.name enabled = true := by
      intro enabled
      rw [status, if_neg hdisables, if_pos henables]
    have hno : ¬Disables (savedIni globalIni localIni) code.name := by
      rw [disables_savedIni]
      rintro ⟨other, -, -, hother, -⟩
      rw [hon] at hother
      cases hother
    rw [hon, status, if_neg hno]
    cases hdef : code.defaultEnabled with
    | true => rw [ite_self]
    | false => exact if_pos ((enables_savedIni globalIni localIni).mpr ⟨code, hcode, rfl, hon _, hdef⟩)
  · have hself := status_of_unlisted henables hdisables
    have hno : ¬Disables (savedIni globalIni localIni) code.name := by
      rw [disables_savedIni]
      rintro ⟨other, hmem, -, hother, hdef⟩
      rw [hself, (readBoth_good globalIni localIni other hmem).2 hdef] at hother
      cases hother
    rw [hself, status, if_neg hno]
    by_cases hyes : Enables (savedIni globalIni localIni) code.name
    · obtain ⟨other, hmem, hname, hother, hdef⟩ := (enables_savedIni globalIni localIni).mp hyes
      rw [hself] at hother
      rw [if_pos hyes]
      by_contra hne
      have hoff : code.enabled = false := Bool.eq_false_iff.mpr fun heq => hne heq.symm
      refine h ⟨other, hmem, hother, hdef, ?_, ?_, code, hcode, hname.symm, hoff⟩
      · rwa [hname]
      · rwa [hname]
    · rw [if_neg hyes]
      cases hdef : code.defaultEnabled with
      | true => exact (hdefault hdef).symm
      | false =>
          cases hon : code.enabled with
          | false => rfl
          | true =>
              exact absurd ((enables_savedIni globalIni localIni).mpr ⟨code, hcode, rfl, (hself _).trans hon, hdef⟩) hyes

/-- The codes are the same again exactly when no code that was enabled in its own line shares its name with one that was
not. -/
theorem loadCodes_saveCodes (globalIni localIni : IniFile) :
    loadCodes globalIni (saveCodes localIni (loadCodes globalIni localIni)) = loadCodes globalIni localIni ↔
      ¬SharesName globalIni localIni := by
  rw [← savedIni, loadCodes_savedIni, loadCodes_eq, List.map_inj_left]
  constructor
  · rintro hsame ⟨code, hcode, hon, hdef, henables, hdisables, other, hother, hname, hoff⟩
    have hself := status_of_unlisted henables hdisables
    have hyes : Enables (savedIni globalIni localIni) code.name :=
      (enables_savedIni globalIni localIni).mpr ⟨code, hcode, rfl, (hself _).trans hon, hdef⟩
    have hno : ¬Disables (savedIni globalIni localIni) code.name := by
      rw [disables_savedIni]
      rintro ⟨third, hmem, -, hthird, hdefault⟩
      rw [hself, (readBoth_good globalIni localIni third hmem).2 hdefault] at hthird
      cases hthird
    have hstatus := congrArg GeckoCode.enabled (hsame other hother)
    rw [GeckoCode.withStatus] at hstatus
    simp only [hname, hself, hoff] at hstatus
    rw [status, if_neg hno, if_pos hyes] at hstatus
    cases hstatus
  · intro h code hcode
    rw [status_savedIni h hcode, GeckoCode.withStatus]

/-- Two codes of one name, of which the first is enabled: both are when they are read again. -/
theorem loadCodes_saveCodes_shared : let localIni : IniFile :=
      [⟨gecko, [], ["+$A", "04000000 00000001", "$A", "04000000 00000002"].map String.toList⟩]
    loadCodes [] (saveCodes localIni (loadCodes [] localIni)) ≠ loadCodes [] localIni := by
  decide

end Karphin.Gecko
