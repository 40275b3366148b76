import Karphin.IOS.FS.HostBackend.Lemmas.Lookup

/-!
# The file of the tree

A tree whose names, depth and numbers of children fit is read back as it was written.
-/

namespace Karphin.IOS.FS.FstEntry

open Karphin.Lib

variable {e : FstEntry} {es : List FstEntry} {file rest : Bytes}

def nameFits (name : Bytes) : Bool := name.length ≤ maxFilenameLength && 0 ∉ name

/-- Names and numbers of children that records can hold, with some room, down to a depth that the reader follows. -/
def fits (room : Nat) : (depths : Nat) → FstEntry → Bool
  | 0, _ => false
  | depths + 1, e => nameFits e.name && e.children.length + room < 2 ^ 32 && e.children.all (fits room depths)

theorem fits_succ {room depths : Nat} : e.fits room (depths + 1) = true ↔
    nameFits e.name = true ∧ e.children.length + room < 2 ^ 32 ∧ ∀ c ∈ e.children, c.fits room depths = true := by
  simp [fits, and_assoc]

/-! ## Fields -/

theorem bigEndian_length (w v : Nat) : (bigEndian w v).length = w := by simp [bigEndian]

theorem ofBigEndian_bigEndian {w v : Nat} (h : v < 256 ^ w) : ofBigEndian (bigEndian w v) = v := by
  rw [ofBigEndian, bigEndian, List.reverse_reverse, ofLeBytes_leBytes, Nat.mod_eq_of_lt h]

theorem setName_length (name : Bytes) : (setName name).length = maxFilenameLength := by
  simp only [setName, List.length_append, List.length_take, List.length_replicate]
  omega

theorem getName_setName {name : Bytes} (h : nameFits name = true) : getName (setName name) = name := by
  simp only [nameFits, Bool.and_eq_true, decide_eq_true_eq] at h
  obtain ⟨hlength, hzero⟩ := h
  have hkept : ∀ c ∈ name, (c ≠ 0 : Bool) = true := by
    intro c hc
    simp only [ne_eq, decide_eq_true_eq]
    rintro rfl
    exact hzero hc
  rw [getName, setName, List.take_of_length_le hlength, List.takeWhile_append_of_pos hkept]
  cases maxFilenameLength - name.length with
  | zero => simp
  | succ n => simp [List.replicate_succ]

theorem serialize_length (e : FstEntry) : (serialize e).length = serializedSize := by
  simp [serialize, setName_length, bigEndian_length, maxFilenameLength, serializedSize]

theorem numChildren_serialize (h : e.children.length < 2 ^ 32) : numChildren (serialize e) = e.children.length := by
  have hdrop : (serialize e).drop 28 = bigEndian 4 e.children.length := by
    rw [serialize]
    apply List.drop_left'
    simp [setName_length, bigEndian_length, maxFilenameLength]
  rw [numChildren, hdrop, List.take_of_length_le (by rw [bigEndian_length]), ofBigEndian_bigEndian (by simpa using h)]

theorem slice_append {a b c : Bytes} {i n : Nat} (ha : a.length = i) (hb : b.length = n) :
    ((a ++ b ++ c).drop i).take n = b := by
  rw [List.append_assoc, List.drop_left' ha, List.take_left' hb]

theorem deserialize_serialize (h : nameFits e.name = true) : deserialize (serialize e) = { e with children := [] } := by
  have hname : getName ((serialize e).take 12) = e.name := by
    simp only [serialize, List.append_assoc]
    rw [List.take_left' (by rw [setName_length]; rfl), getName_setName h]
  have huid : ofBigEndian (((serialize e).drop 12).take 4) = e.data.uid.toNat := by
    simp only [serialize, List.append_assoc]
    rw [← List.append_assoc, slice_append (by rw [setName_length]; rfl) (bigEndian_length 4 _),
      ofBigEndian_bigEndian e.data.uid.toNat_lt]
  have hgid : ofBigEndian (((serialize e).drop 16).take 2) = e.data.gid.toNat := by
    simp only [serialize, List.append_assoc]
    rw [← List.append_assoc, ← List.append_assoc, slice_append
      (by rw [List.length_append, setName_length, bigEndian_length]; rfl) (bigEndian_length 2 _),
      ofBigEndian_bigEndian e.data.gid.toNat_lt]
  have hbyte : ∀ i < 5, (serialize e).getD (18 + i) 0 = [if e.data.isFile then 1 else 0, e.data.modes.owner,
      e.data.modes.group, e.data.modes.other, e.data.attr].getD i 0 := by
    intro i hi
    have hdrop : (serialize e).drop 18 = [if e.data.isFile then 1 else 0, e.data.modes.owner, e.data.modes.group,
        e.data.modes.other, e.data.attr] ++ (0 :: (bigEndian 4 0 ++ bigEndian 4 e.children.length)) := by
      have hassoc : serialize e = (setName e.name ++ bigEndian 4 e.data.uid.toNat ++ bigEndian 2 e.data.gid.toNat) ++
          ([if e.data.isFile then 1 else 0, e.data.modes.owner, e.data.modes.group, e.data.modes.other, e.data.attr] ++
            (0 :: (bigEndian 4 0 ++ bigEndian 4 e.children.length))) := by
        simp [serialize]
      rw [hassoc]
      apply List.drop_left'
      simp [setName_length, bigEndian_length, maxFilenameLength]
    rw [List.getD_eq_getElem?_getD, ← List.getElem?_drop, hdrop, List.getElem?_append_left (by simpa using hi),
      ← List.getD_eq_getElem?_getD]
  have hfile := hbyte 0 (by decide)
  have howner := hbyte 1 (by decide)
  have hgroup := hbyte 2 (by decide)
  have hother := hbyte 3 (by decide)
  have hattr := hbyte 4 (by decide)
  obtain ⟨name, ⟨uid, gid, attr, ⟨owner, group, other⟩, isFile⟩, children⟩ := e
  simp only [deserialize, hname, huid, hgid]
  simp only [Nat.add_zero, Nat.reduceAdd, List.getD_cons_zero, List.getD_cons_succ] at hfile howner hgroup hother hattr
  simp only [hfile, howner, hgroup, hother, hattr, UInt32.ofNat_toNat, UInt16.ofNat_toNat]
  cases isFile <;> rfl

/-! ## Trees -/

theorem collectEntries_eq (e : FstEntry) : collectEntries e = serialize e ++ collectChildren e.children := by
  cases e
  rfl

theorem parseChildren_collect {parse : Bytes → Option (FstEntry × Bytes)} : ∀ {es : List FstEntry},
    (∀ e ∈ es, ∀ rest, parse (collectEntries e ++ rest) = some (e, rest)) → ∀ rest,
    parseChildren parse es.length (collectChildren es ++ rest) = some (es, rest)
  | [], _, _ => rfl
  | e :: es, h, rest => by
      have hfirst := h e List.mem_cons_self (collectChildren es ++ rest)
      have hrest := parseChildren_collect (fun e' he' => h e' (List.mem_cons_of_mem e he')) rest
      rw [List.length_cons, parseChildren, collectChildren, List.append_assoc, hfirst]
      simp only [hrest]

theorem parseEntry_collect : ∀ {depths : Nat} {e : FstEntry}, e.fits 0 depths = true → ∀ rest,
    parseEntry depths (collectEntries e ++ rest) = some (e, rest)
  | 0, _, h, _ => by cases h
  | depths + 1, e, h, rest => by
      obtain ⟨hname, hcount, hchildren⟩ := fits_succ.mp h
      have htake : (collectEntries e ++ rest).take serializedSize = serialize e := by
        rw [collectEntries_eq, List.append_assoc]
        exact List.take_left' (serialize_length e)
      have hdrop : (collectEntries e ++ rest).drop serializedSize = collectChildren e.children ++ rest := by
        rw [collectEntries_eq, List.append_assoc]
        exact List.drop_left' (serialize_length e)
      have hlength : ¬(collectEntries e ++ rest).length < serializedSize := by
        rw [collectEntries_eq, List.length_append, List.length_append, serialize_length]
        omega
      have hparsed := parseChildren_collect (fun c hc rest => parseEntry_collect (hchildren c hc) rest) rest
      rw [parseEntry, if_neg hlength, htake, hdrop, numChildren_serialize (by simpa using hcount), hparsed]
      simp only [deserialize_serialize hname]
      cases e
      rfl

theorem ofLeBytes_lt : ∀ (bytes : Bytes), ofLeBytes bytes < 256 ^ bytes.length
  | [] => by simp [ofLeBytes]
  | b :: bytes => by
      have hrest := ofLeBytes_lt bytes
      have hbyte := b.toNat_lt
      rw [ofLeBytes, List.length_cons, Nat.pow_succ]
      omega

theorem numChildren_lt (bytes : Bytes) : numChildren bytes < 2 ^ 32 := by
  have hlt := ofLeBytes_lt (((bytes.drop 28).take 4).reverse)
  have hlength : (((bytes.drop 28).take 4).reverse).length ≤ 4 := by
    rw [List.length_reverse, List.length_take]
    exact Nat.min_le_left _ _
  exact Nat.lt_of_lt_of_le hlt (Nat.pow_le_pow_right (by decide) hlength)

theorem nameFits_getName {bytes : Bytes} (h : bytes.length ≤ maxFilenameLength) : nameFits (getName bytes) = true := by
  rw [nameFits, Bool.and_eq_true, decide_eq_true_eq, decide_eq_true_eq]
  constructor
  · exact Nat.le_trans (List.takeWhile_prefix _).length_le h
  · intro hzero
    have hne := List.mem_takeWhile_imp hzero
    simp at hne

theorem parseChildren_some {parse : Bytes → Option (FstEntry × Bytes)} {P : FstEntry → Prop}
    (hparse : ∀ file e rest, parse file = some (e, rest) → P e) : ∀ {n : Nat} {file rest : Bytes} {es : List FstEntry},
    parseChildren parse n file = some (es, rest) → es.length = n ∧ ∀ e ∈ es, P e
  | 0, file, rest, es, h => by
      cases h
      exact ⟨rfl, nofun⟩
  | n + 1, file, rest, es, h => by
      rw [parseChildren] at h
      split at h
      · cases h
      next child file' hchild =>
      split at h
      · cases h
      next children file'' hchildren =>
      cases h
      obtain ⟨hlength, hall⟩ := parseChildren_some hparse hchildren
      refine ⟨congrArg (· + 1) hlength, ?_⟩
      intro e he
      rcases List.mem_cons.mp he with rfl | he
      · exact hparse file e file' hchild
      · exact hall e he

theorem parseEntry_fits : ∀ {depths : Nat} {file rest : Bytes} {e : FstEntry}, parseEntry depths file = some (e, rest) →
    e.fits 0 depths = true
  | 0, _, _, _, h => by cases h
  | depths + 1, file, rest, e, h => by
      rw [parseEntry] at h
      split at h
      · cases h
      split at h
      · cases h
      next children rest' hchildren =>
      cases h
      obtain ⟨hlength, hall⟩ := parseChildren_some (fun _ _ _ hparsed => parseEntry_fits hparsed) hchildren
      apply fits_succ.mpr
      refine ⟨?_, ?_, hall⟩
      · apply nameFits_getName
        rw [List.length_take, maxFilenameLength]
        exact Nat.min_le_left _ _
      · rw [hlength]
        exact numChildren_lt _

theorem parseEntry_collect_iff {depths : Nat} :
    parseEntry depths (collectEntries e) = some (e, []) ↔ e.fits 0 depths = true := by
  constructor
  · exact parseEntry_fits
  · intro h
    have hparsed := parseEntry_collect h []
    rwa [List.append_nil] at hparsed

end Karphin.IOS.FS.FstEntry

/-!
# Trees that fit

What the calls do to a tree keeps it fit for its file, as long as the paths fit and there is room.
-/

namespace Karphin.IOS.FS

namespace FstEntry

variable {f g : FstEntry → FstEntry} {name : Bytes} {e : FstEntry} {es : List FstEntry} {path q : List Bytes}
  {room depths : Nat}

theorem fits_of_le {room' : Nat} (hle : room' ≤ room) : ∀ {depths : Nat} {e : FstEntry},
    e.fits room depths = true → e.fits room' depths = true
  | 0, _, h => by cases h
  | depths + 1, e, h => by
      obtain ⟨hname, hcount, hchildren⟩ := fits_succ.mp h
      exact fits_succ.mpr ⟨hname, by omega, fun c hc => fits_of_le hle (hchildren c hc)⟩

theorem fits_mono (h : e.fits (room + 1) depths = true) : e.fits room depths = true := fits_of_le (Nat.le_succ room) h

theorem fits_fallback (hname : nameFits name = true) (hroom : room < 2 ^ 32) :
    (fallback name).fits room (depths + 1) = true := by
  apply fits_succ.mpr
  refine ⟨hname, by simpa [fallback] using hroom, ?_⟩
  intro c hc
  cases hc

def hasRoom (room : Nat) : (depths : Nat) → FstEntry → Bool
  | 0, _ => true
  | depths + 1, e => e.children.length + room < 2 ^ 32 && e.children.all (hasRoom room depths)

theorem fits_of_room : ∀ {depths : Nat} {e : FstEntry}, e.fits 0 depths = true → e.hasRoom room depths = true →
    e.fits room depths = true
  | 0, _, h, _ => by cases h
  | depths + 1, e, h, hroom => by
      obtain ⟨hname, -, hchildren⟩ := fits_succ.mp h
      simp only [hasRoom, Bool.and_eq_true, decide_eq_true_eq, List.all_eq_true] at hroom
      exact fits_succ.mpr ⟨hname, hroom.1, fun c hc => fits_of_room (hchildren c hc) (hroom.2 c hc)⟩

def childrenFit (room depths : Nat) (e : FstEntry) : Bool :=
  e.children.length + room < 2 ^ 32 && e.children.all (fits room depths)

theorem childrenFit_iff : e.childrenFit room depths = true ↔
    e.children.length + room < 2 ^ 32 ∧ ∀ c ∈ e.children, c.fits room depths = true := by
  simp [childrenFit]

theorem childrenFit_leaf (h : e.children = []) (hroom : room < 2 ^ 32) : e.childrenFit room depths = true := by
  rw [childrenFit_iff, h]
  exact ⟨by simpa using hroom, nofun⟩

theorem childrenFit_refresh (isFile : Bool) (h : e.childrenFit room depths = true) :
    (HostFileSystem.refresh isFile e).childrenFit room depths = true := by
  cases isFile with
  | true =>
      apply childrenFit_leaf rfl
      have hcount := (childrenFit_iff.mp h).1
      omega
  | false => exact h

/-! ## Changes of an entry -/

theorem length_alterChild (name : Bytes) (f : FstEntry → FstEntry) : ∀ (es : List FstEntry),
    (alterChild name f es).length ≤ es.length + 1
  | [] => Nat.le_refl 1
  | e :: es => by
      rw [alterChild_cons]
      split
      · simp
      · simpa using length_alterChild name f es

theorem mem_alterChild {c : FstEntry} : ∀ {es : List FstEntry}, c ∈ alterChild name f es →
    c ∈ es ∨ (∃ e ∈ es, c = f e) ∨ c = f (fallback name)
  | [], h => .inr (.inr (List.mem_singleton.mp h))
  | e :: es, h => by
      rw [alterChild_cons] at h
      split at h
      · rcases List.mem_cons.mp h with rfl | h
        · exact .inr (.inl ⟨e, List.mem_cons_self, rfl⟩)
        · exact .inl (List.mem_cons_of_mem e h)
      · rcases List.mem_cons.mp h with rfl | h
        · exact .inl List.mem_cons_self
        · rcases mem_alterChild h with hc | ⟨e', he', rfl⟩ | hc
          · exact .inl (List.mem_cons_of_mem e hc)
          · exact .inr (.inl ⟨e', List.mem_cons_of_mem e he', rfl⟩)
          · exact .inr (.inr hc)

theorem fits_alter (hroom : room + 1 < 2 ^ 32)
    (hf : ∀ e : FstEntry, e.fits (room + 1) (depths + 1) = true → (f e).fits room (depths + 1) = true) :
    ∀ {path : List Bytes} {e : FstEntry}, (∀ name ∈ path, nameFits name = true) →
    e.fits (room + 1) (path.length + (depths + 1)) = true → (alter f path e).fits room (path.length + (depths + 1)) = true
  | [], e, _, he => by
      rw [List.length_nil, Nat.zero_add] at he ⊢
      exact hf e he
  | name :: path, e, hpath, he => by
      have hlength : (name :: path).length + (depths + 1) = path.length + (depths + 1) + 1 := by
        rw [List.length_cons]
        omega
      rw [hlength] at he ⊢
      obtain ⟨hname, hcount, hchildren⟩ := fits_succ.mp he
      have htail : ∀ e : FstEntry, e.fits (room + 1) (path.length + (depths + 1)) = true →
          (alter f path e).fits room (path.length + (depths + 1)) = true :=
        fun e => fits_alter hroom hf fun n hn => hpath n (List.mem_cons_of_mem name hn)
      apply fits_succ.mpr
      refine ⟨hname, ?_, ?_⟩
      · have hlonger := length_alterChild name (alter f path) e.children
        simp only [alter]
        omega
      · intro c hc
        rcases mem_alterChild hc with hc | ⟨e', he', rfl⟩ | rfl
        · exact fits_mono (hchildren c hc)
        · exact htail e' (hchildren e' he')
        · apply htail
          rw [← Nat.add_assoc]
          exact fits_fallback (hpath name List.mem_cons_self) hroom

theorem fits_refresh (isFile : Bool) (h : e.fits room (depths + 1) = true) :
    (HostFileSystem.refresh isFile e).fits room (depths + 1) = true := by
  obtain ⟨hname, hcount, hchildren⟩ := fits_succ.mp h
  apply fits_succ.mpr
  cases isFile with
  | true =>
      refine ⟨hname, ?_, nofun⟩
      simp only [HostFileSystem.refresh, if_true, List.length_nil]
      omega
  | false => exact ⟨hname, hcount, hchildren⟩

theorem fits_eraseChild (h : e.fits room (depths + 1) = true) : (eraseChild name e).fits room (depths + 1) = true := by
  obtain ⟨hname, hcount, hchildren⟩ := fits_succ.mp h
  apply fits_succ.mpr
  refine ⟨hname, ?_, ?_⟩
  · have hshorter : (eraseChild name e).children.length ≤ e.children.length := List.length_eraseP_le
    omega
  · intro c hc
    exact hchildren c (List.mem_of_mem_eraseP hc)

theorem alterChild_eq_self {e : FstEntry} (hg : g e = e) : ∀ {es : List FstEntry},
    es.find? (·.name = name) = some e → alterChild name g es = es
  | [], h => by cases h
  | e' :: es, h => by
      rw [alterChild_cons]
      rw [List.find?_cons] at h
      by_cases hname : e'.name = name
      · simp only [hname, decide_true] at h
        cases h
        rw [if_pos hname, hg]
      · simp only [hname, decide_false] at h
        rw [if_neg hname, alterChild_eq_self hg h]

theorem alter_eq_self : ∀ {path : List Bytes} {e e' : FstEntry}, e.entryAt? path = some e' → f e' = e' →
    alter f path e = e
  | [], e, e', h, hf => by
      cases h
      exact hf
  | name :: path, e, e', h, hf => by
      obtain ⟨c, hc, hrest⟩ := Option.bind_eq_some_iff.mp h
      have hchild := alterChild_eq_self (alter_eq_self hrest hf) hc
      rw [alter, hchild]
      cases e
      rfl

/-! ## Entries that a change does not reach -/

def Shrinks (f : FstEntry → FstEntry) : Prop := ∀ e, (f e).children = e.children ∨ (f e).children = []

theorem entryAt?_of_shrinks (hf : Shrinks f) {e' : FstEntry} (hq : q ≠ []) (h : (f e).entryAt? q = some e') :
    e.entryAt? q = some e' := by
  cases q with
  | nil => exact absurd rfl hq
  | cons name q =>
      rw [entryAt?, child?] at h ⊢
      rcases hf e with hsame | hnone
      · rwa [hsame] at h
      · rw [hnone] at h
        cases h

theorem entryAt?_fallback {e' : FstEntry} (hq : q ≠ []) : (fallback name).entryAt? q ≠ some e' := by
  cases q with
  | nil => exact absurd rfl hq
  | cons n q => nofun

theorem entryAt?_alter (hname : KeepsName f) (hf : Shrinks f) : ∀ {path q : List Bytes} {e e' : FstEntry}, ¬q <+: path →
    (alter f path e).entryAt? q = some e' → e.entryAt? q = some e'
  | path, [], e, e', hq, _ => absurd List.nil_prefix hq
  | [], name :: q, e, e', _, h => entryAt?_of_shrinks hf (by simp) h
  | name :: path, m :: q, e, e', hq, h => by
      rw [entryAt?] at h ⊢
      by_cases hm : m = name
      · subst hm
        have hrest : ¬q <+: path := fun hpre => hq (List.cons_prefix_cons.mpr ⟨rfl, hpre⟩)
        have hne : q ≠ [] := by
          rintro rfl
          exact hrest List.nil_prefix
        rw [child?_alter_self hname, Option.bind_some] at h
        have hfound := entryAt?_alter hname hf hrest h
        cases hchild : e.child? m with
        | none =>
            rw [hchild] at hfound
            exact absurd hfound (entryAt?_fallback hne)
        | some c =>
            rw [hchild] at hfound
            exact hfound
      · rw [child?_alter_ne hname hm] at h
        exact h

theorem entryAt?_alter_end (hf : KeepsName f) : ∀ (path : List Bytes) (e : FstEntry), path ≠ [] →
    ∃ e', (alter f path e).entryAt? path = some (f e') ∧
      (e.entryAt? path = some e' ∨ ∃ name ∈ path, e' = fallback name)
  | [], _, h => absurd rfl h
  | [name], e, _ => by
      refine ⟨(e.child? name).getD (fallback name), ?_, ?_⟩
      · rw [entryAt?, child?_alter_self hf]
        rfl
      · cases hchild : e.child? name with
        | none => exact .inr ⟨name, List.mem_singleton_self name, rfl⟩
        | some c =>
            left
            rw [entryAt?, hchild]
            rfl
  | name :: n :: path, e, _ => by
      obtain ⟨e', hfound, horigin⟩ := entryAt?_alter_end hf (n :: path) ((e.child? name).getD (fallback name)) (by simp)
      refine ⟨e', ?_, ?_⟩
      · rw [entryAt?, child?_alter_self hf]
        exact hfound
      · rcases horigin with hbefore | ⟨m, hm, rfl⟩
        · cases hchild : e.child? name with
          | none =>
              rw [hchild] at hbefore
              exact absurd hbefore (entryAt?_fallback (by simp))
          | some c =>
              rw [hchild] at hbefore
              left
              rw [entryAt?, hchild]
              exact hbefore
        · exact .inr ⟨m, List.mem_cons_of_mem name hm, rfl⟩

theorem alterChild_congr (h : ∀ e : FstEntry, e.name = name → f e = g e) : ∀ (es : List FstEntry),
    alterChild name f es = alterChild name g es
  | [] => by rw [alterChild_nil, alterChild_nil, h _ (fallback_name name)]
  | e :: es => by
      rw [alterChild_cons, alterChild_cons]
      by_cases hname : e.name = name
      · rw [if_pos hname, if_pos hname, h e hname]
      · rw [if_neg hname, if_neg hname, alterChild_congr h es]

theorem alter_congr (h : ∀ e : FstEntry, e.name = name → f e = g e) : ∀ (path : List Bytes) (e : FstEntry),
    alter f (path ++ [name]) e = alter g (path ++ [name]) e
  | [], e => by
      rw [List.nil_append, alter, alter]
      exact congrArg (fun es => { e with children := es }) (alterChild_congr h e.children)
  | n :: path, e => by
      have hrest : alter f (path ++ [name]) = alter g (path ++ [name]) := funext (alter_congr h path)
      rw [List.cons_append, alter, alter, hrest]

theorem entryAt?_concat (name : Bytes) : ∀ (path : List Bytes) (e : FstEntry),
    e.entryAt? (path ++ [name]) = (e.entryAt? path).bind (child? · name)
  | [], e => by
      simp only [List.nil_append, entryAt?, Option.bind_some]
      cases e.child? name <;> rfl
  | n :: path, e => by
      rw [List.cons_append, entryAt?, entryAt?, Option.bind_assoc]
      congr 1
      funext c
      exact entryAt?_concat name path c

end FstEntry

end Karphin.IOS.FS

/-!
## The tree on the host

A tree that fits is found again by a new file system, where it can be saved.
-/

namespace Karphin.IOS.FS.HostFileSystem

open Karphin.Lib FstEntry

variable {s : HostFileSystem}

/-! ## Saving and loading -/

def storedRoot (rootPath : HostPath) (host : Host) : FstEntry :=
  ({ rootPath, host } : HostFileSystem).resetFst.loadFst.rootEntry

theorem storedRoot_of_file {rootPath : HostPath} {host : Host} {object : Nat} {root : FstEntry} {rest : Bytes}
    (hnode : host.node (rootPath ++ [fstName]) = some (.file object))
    (hparse : parseEntry (maxPathDepth + 1) (host.contents object) = some (root, rest)) :
    storedRoot rootPath host = root := by
  rw [storedRoot, resetFst, loadFst, getFstFilePath]
  simp only [hnode, hparse]

/-- The directory is there, and no directory stands in place of the file of the tree or of the one it is written to. -/
structure CanStore (s : HostFileSystem) : Prop where
  root : s.host.node s.rootPath = some .dir
  fst : s.host.node s.getFstFilePath ≠ some .dir
  temp : s.host.node s.getTempFilename ≠ some .dir

theorem resolve_fst (s : HostFileSystem) : s.getFstFilePath.resolve = s.rootPath.resolve ++ [fstName] := by
  rw [getFstFilePath, resolve_append]
  rfl

theorem resolve_temp (s : HostFileSystem) : s.getTempFilename.resolve = s.rootPath.resolve ++ [fstName ++ tempSuffix] := by
  rw [getTempFilename, resolve_append]
  rfl

theorem CanStore.free (h : s.CanStore) {name : Bytes} (hnone : s.host.tree.node (s.rootPath.resolve ++ [name]) = none) :
    s.host.tree.Free (s.rootPath.resolve ++ [name]) := by
  refine ⟨hnone, by simp, ?_⟩
  rw [List.dropLast_concat]
  exact h.root

theorem fst_ne_temp (s : HostFileSystem) : s.getFstFilePath.resolve ≠ s.getTempFilename.resolve := by
  rw [resolve_fst, resolve_temp]
  intro heq
  have hname := List.append_cancel_left heq
  revert hname
  decide

theorem writeTemp (h : s.CanStore) (bytes : Bytes) : ∃ host object, s.host.writeFile s.getTempFilename bytes = (true, host) ∧
    host.node s.getTempFilename = some (.file object) ∧ host.contents object = bytes ∧
    ∀ k : HostPath, k.resolve ≠ s.getTempFilename.resolve → host.node k = s.host.node k := by
  rw [Host.writeFile]
  cases hnode : s.host.node s.getTempFilename with
  | some n =>
      cases n with
      | dir => exact absurd hnode h.temp
      | file object =>
          exact ⟨s.host.setContents object bytes, object, rfl, hnode, Function.update_self _ _ _, fun k _ => rfl⟩
  | none =>
      have hfree : s.host.tree.Free s.getTempFilename.resolve := by
        rw [Host.node, resolve_temp] at hnode
        rw [resolve_temp]
        exact h.free hnode
      cases hcreated : s.host.tree.createFile s.getTempFilename.resolve with
      | none =>
          rw [FileTree.createFile, dif_pos hfree] at hcreated
          cases hcreated
      | some tree =>
          have hnodes := (FileTree.createFile_some hcreated).2.2
          refine ⟨_, s.host.tree.next, rfl, (hnodes _).trans (if_pos rfl), Function.update_self _ _ _, ?_⟩
          intro k hk
          exact (hnodes _).trans (if_neg hk)

theorem storedRoot_saveFst (h : s.CanStore) (hfits : s.rootEntry.fits 0 (maxPathDepth + 1) = true) :
    storedRoot s.rootPath s.saveFst.host = s.rootEntry := by
  obtain ⟨host, object, hwrite, htemp, hcontents, hother⟩ := writeTemp h s.rootEntry.collectEntries
  have hroot : host.node s.rootPath = some .dir := by
    rw [hother, h.root]
    intro heq
    have hlength := congrArg List.length heq
    rw [resolve_temp, List.length_append, List.length_singleton] at hlength
    omega
  have hfst : host.node s.getFstFilePath ≠ some .dir := by
    rw [hother _ (fst_ne_temp s)]
    exact h.fst
  have hbelow : ¬s.getTempFilename.resolve <+: s.getFstFilePath.resolve := by
    intro hpre
    apply fst_ne_temp s
    symm
    apply hpre.eq_of_length
    rw [resolve_fst, resolve_temp, List.length_append, List.length_append]
    rfl
  have hmovable : host.tree.Movable s.getTempFilename.resolve s.getFstFilePath.resolve := by
    refine ⟨by rw [← Host.node, htemp]; simp, hbelow, by rw [resolve_fst]; simp, ?_, ?_⟩
    · rw [resolve_fst, List.dropLast_concat]
      exact hroot
    · rw [← Host.node, ← Host.node]
      cases hnode : host.node s.getFstFilePath with
      | none => exact .inl rfl
      | some n =>
          cases n with
          | dir => exact absurd hnode hfst
          | file o =>
              right
              rw [htemp]
              exact ⟨rfl, rfl⟩
  obtain ⟨tree, hrename, hmoved⟩ := FileTree.rename_of_movable hmovable
  have hsaved : s.saveFst.host = { host with tree } := by
    rw [saveFst, hwrite]
    simp only [Bool.not_true, Bool.false_eq_true, if_false, Host.rename, hrename]
  have hnode : ({ host with tree } : Host).node (s.rootPath ++ [fstName]) = some (.file object) := by
    rw [← getFstFilePath, Host.node, hmoved, FileTree.moved_self]
    exact htemp
  have hparse : parseEntry (maxPathDepth + 1) (({ host with tree } : Host).contents object) = some (s.rootEntry, []) := by
    rw [hcontents]
    exact parseEntry_collect_iff.mpr hfits
  rw [hsaved]
  exact storedRoot_of_file hnode hparse

theorem fits_storedRoot (rootPath : HostPath) (host : Host) :
    (storedRoot rootPath host).fits 0 (maxPathDepth + 1) = true := by
  have hreset : resetRoot.fits 0 (maxPathDepth + 1) = true := by decide
  rw [storedRoot, resetFst, loadFst]
  split
  · split
    · next hparse => exact parseEntry_fits hparse
    · exact hreset
  · exact hreset

/-! ## A new file system -/

theorem storedRoot_congr {rootPath : HostPath} {host host' : Host}
    (hnode : host'.node (rootPath ++ [fstName]) = host.node (rootPath ++ [fstName]))
    (hcontents : host'.contents = host.contents) : storedRoot rootPath host' = storedRoot rootPath host := by
  rw [storedRoot, storedRoot, resetFst, resetFst, loadFst, loadFst, getFstFilePath, getFstFilePath]
  simp only [hnode, hcontents]
  split
  · split <;> rfl
  · rfl

theorem node_createDirs {k : HostPath} : ∀ {dirs : List HostPath} {h : Host}, (∀ dir ∈ dirs, k.resolve ≠ dir.resolve) →
    (dirs.foldl (fun h dir => (h.createDir dir).2) h).node k = h.node k ∧
      (dirs.foldl (fun h dir => (h.createDir dir).2) h).contents = h.contents
  | [], h, _ => ⟨rfl, rfl⟩
  | dir :: dirs, h, hne => by
      obtain ⟨hnode, hcontents⟩ := @node_createDirs k dirs (h.createDir dir).2 fun d hd =>
        hne d (List.mem_cons_of_mem dir hd)
      have hfirst : (h.createDir dir).2.node k = h.node k ∧ (h.createDir dir).2.contents = h.contents := by
        rw [Host.createDir]
        cases hcreated : h.tree.createDir dir.resolve with
        | none => exact ⟨rfl, rfl⟩
        | some tree =>
            have hother := (FileTree.createDir_some hcreated).2 k.resolve
            rw [if_neg (hne dir List.mem_cons_self)] at hother
            exact ⟨hother, rfl⟩
      exact ⟨hnode.trans hfirst.1, hcontents.trans hfirst.2⟩

theorem storedRoot_createFullPath (rootPath : HostPath) (host : Host) :
    storedRoot rootPath (host.createFullPath rootPath) = storedRoot rootPath host := by
  have hdirs : ∀ dir ∈ rootPath.resolve.inits, (rootPath ++ [fstName]).resolve ≠ HostPath.resolve dir := by
    intro dir hdir heq
    have hlength := congrArg List.length heq
    have hshort : (HostPath.resolve dir).length ≤ dir.length := List.length_filter_le _ _
    have hpre := ((List.mem_inits _ _).mp hdir).length_le
    rw [resolve_append, List.length_append] at hlength
    have hone : (HostPath.resolve [fstName]).length = 1 := rfl
    omega
  obtain ⟨hnode, hcontents⟩ := @node_createDirs _ _ host hdirs
  exact storedRoot_congr hnode hcontents

theorem sameFiles_loadFst (s : HostFileSystem) : SameFiles s s.loadFst := by
  rw [loadFst]
  split
  · split
    · exact ⟨rfl, rfl, rfl, rfl, rfl⟩
    · exact .rfl' s
  · exact .rfl' s

theorem construct_rootEntry (rootPath : HostPath) (nandRedirects : List NandRedirect) (host : Host) :
    (construct rootPath nandRedirects host).rootEntry = storedRoot rootPath host := by
  have hloaded : (construct rootPath nandRedirects host).rootEntry =
      storedRoot rootPath (host.createFullPath rootPath) := by
    rw [construct, storedRoot, resetFst, resetFst, loadFst, loadFst, getFstFilePath, getFstFilePath]
    simp only
    split
    · split <;> rfl
    · rfl
  rw [hloaded]
  exact storedRoot_createFullPath rootPath host

/-- A new file system on the root would have the same tree, and the tree fits. -/
structure Persisted (s : HostFileSystem) (rootPath : HostPath) : Prop where
  root : s.rootPath = rootPath
  stored : storedRoot rootPath s.host = s.rootEntry
  fits : s.rootEntry.fits 0 (maxPathDepth + 1) = true

theorem persisted_construct (rootPath : HostPath) (nandRedirects : List NandRedirect) (host : Host) :
    (construct rootPath nandRedirects host).Persisted rootPath := by
  have hfiles := sameFiles_loadFst
    ({ rootPath, nandRedirects, host := host.createFullPath rootPath } : HostFileSystem).resetFst
  have hhost : (construct rootPath nandRedirects host).host = host.createFullPath rootPath := hfiles.host
  constructor
  · exact hfiles.rootPath
  · rw [hhost, storedRoot_createFullPath, construct_rootEntry]
  · rw [construct_rootEntry]
    exact fits_storedRoot rootPath host

end Karphin.IOS.FS.HostFileSystem
