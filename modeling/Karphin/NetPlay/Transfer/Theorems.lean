import Karphin.NetPlay.Transfer.Lemmas.Codes

/-!
# Folders are created again

The receiver creates the children of a folder in the order in which the sender wrote them. A child only touches paths
below its own name, so that the children before it stay as they are.
-/

namespace Karphin.NetPlay.Transfer

open Lib

variable {lzo : Lzo}

def created : Option Node → Option Node
  | some (.file []) => none
  | node => node

namespace Entries

theorem lookup_of_not_mem : ∀ {e : Entries} {n : Name} {r : Path}, n ∉ e.names → e.lookup (n :: r) = none
  | .nil, _, _, _ => rfl
  | .file name bytes rest, n, r, h => by
      simp only [names, List.mem_cons, not_or] at h
      rw [lookup, if_neg h.1]
      exact lookup_of_not_mem h.2
  | .folder name children rest, n, r, h => by
      simp only [names, List.mem_cons, not_or] at h
      rw [lookup, if_neg h.1]
      exact lookup_of_not_mem h.2

def steps : Entries → Nat
  | .nil => 1
  | .file _ _ rest => rest.steps + 1
  | .folder _ children rest => children.steps + rest.steps + 2

end Entries

/-- The children were created below a path, and nothing else has changed. -/
structure Installed (e : Entries) (path : Path) (fs fs' : FileSystem) : Prop where
  inside : ∀ n ∈ e.names, ∀ r, fs' (path ++ n :: r) = created (e.lookup (n :: r))
  outside : ∀ q, (∀ n ∈ e.names, ∀ r, q ≠ path ++ n :: r) → fs' q = fs q

structure Ready (names : List Name) (path : Path) (fs : FileSystem) : Prop where
  folders : ∀ q, q <+: path → fs q = some .folder
  fresh : ∀ n ∈ names, ∀ r, fs (path ++ n :: r) = none

theorem append_cons_inj {path : Path} {n n' : Name} {r r' : Path} : path ++ n :: r = path ++ n' :: r' ↔ n = n' ∧ r = r' := by
  simp

theorem Ready.next {names : List Name} {name : Name} {path : Path} {fs fs' : FileSystem}
    (h : Ready (name :: names) path fs) (hname : name ∉ names) (hfs : ∀ q, (∀ r, q ≠ path ++ name :: r) → fs' q = fs q) :
    Ready names path fs' where
  folders := by
    intro q hq
    rw [hfs q]
    · exact h.folders q hq
    · rintro r rfl
      have := hq.length_le
      simp at this
  fresh := by
    intro n hn r
    rw [hfs]
    · exact h.fresh n (List.mem_cons_of_mem _ hn) r
    · intro r' heq
      rw [append_cons_inj] at heq
      exact hname (heq.1 ▸ hn)

/-! ## One child -/

theorem openForWriting_ready {names : List Name} {name : Name} {path : Path} {fs : FileSystem}
    (h : Ready (name :: names) path fs) :
    openForWriting fs (path ++ [name]) = some (Function.update fs (path ++ [name]) (some (.file []))) := by
  have hfresh := h.fresh name (List.mem_cons_self ..) []
  rw [openForWriting, if_pos]
  rw [List.dropLast_concat, h.folders path (List.prefix_refl _), hfresh]
  exact ⟨rfl, by simp⟩

theorem createFullPath_ready {names : List Name} {name : Name} {path : Path} {fs : FileSystem}
    (h : Ready (name :: names) path fs) :
    createFullPath fs (path ++ [name]) = some (Function.update fs (path ++ [name]) (some .folder)) := by
  have hfresh := h.fresh name (List.mem_cons_self ..) []
  have hcases : ∀ q, q <+: path ++ [name] ↔ q = path ++ [name] ∨ q <+: path := by
    intro q
    rw [List.prefix_concat_iff]
  rw [createFullPath, if_neg]
  · congr 1
    funext q
    by_cases hq : q = path ++ [name]
    · subst hq
      rw [Function.update_self, if_pos (List.isPrefixOf_iff_prefix.2 (List.prefix_refl _))]
    · rw [Function.update_of_ne hq]
      by_cases hp : q <+: path
      · rw [if_pos (List.isPrefixOf_iff_prefix.2 ((hcases q).2 (.inr hp))), h.folders q hp]
      · rw [if_neg]
        intro hpre
        obtain heq | hp' := (hcases q).1 (List.isPrefixOf_iff_prefix.1 hpre)
        · exact hq heq
        · exact hp hp'
  · simp only [List.any_eq_true, List.mem_inits, not_exists, not_and]
    intro q hq
    obtain rfl | hp := (hcases q).1 hq
    · rw [hfresh]
      simp [isFile]
    · rw [h.folders q hp]
      simp [isFile]

/-! ## All children -/

theorem read_child {name : Name} (hlen : name.length < 2 ^ 32) (b : Bool) (rest : List UInt8) (old : Bool) :
    Packet.readString ⟨Packet.putString name ++ (Packet.putBool b ++ rest), true⟩ =
        (name, ⟨Packet.putBool b ++ rest, true⟩) ∧
      Packet.readBool ⟨Packet.putBool b ++ rest, true⟩ old = (b, ⟨rest, true⟩) :=
  ⟨Packet.readString_putString (by omega) _, Packet.readBool_putBool b old rest⟩

theorem Installed.file {e : Entries} {name : Name} {bytes : List UInt8} {path : Path} {fs fs₁ fs' : FileSystem}
    (hready : Ready (name :: e.names) path fs) (hname : name ∉ e.names)
    (hself : fs₁ (path ++ [name]) = created (some (.file bytes)))
    (hother : ∀ q, q ≠ path ++ [name] → fs₁ q = fs q) (h : Installed e path fs₁ fs') :
    Installed (.file name bytes e) path fs fs' := by
  constructor
  · intro n hn r
    by_cases hnn : n = name
    · subst hnn
      rw [h.outside]
      · cases r with
        | nil => simpa [Entries.lookup] using hself
        | cons m r =>
            rw [hother _ (by simp), hready.fresh n (List.mem_cons_self ..)]
            simp [Entries.lookup, created]
      · intro n' hn' r' heq
        rw [append_cons_inj] at heq
        exact hname (heq.1 ▸ hn')
    · have hn' : n ∈ e.names := by simpa [Entries.names, hnn] using hn
      rw [h.inside n hn' r, Entries.lookup, if_neg hnn]
  · intro q hq
    have hne : q ≠ path ++ [name] := hq name (List.mem_cons_self ..) []
    rw [h.outside q (fun n hn r => hq n (List.mem_cons_of_mem _ hn) r), hother q hne]

theorem Installed.below {children : Entries} {name : Name} {path : Path} {fs fs₁ : FileSystem}
    (h : Installed children (path ++ [name]) (Function.update fs (path ++ [name]) (some .folder)) fs₁) (q : Path)
    (hq : ∀ r, q ≠ path ++ name :: r) : fs₁ q = fs q := by
  rw [h.outside q, Function.update_of_ne]
  · exact hq []
  · intro n _ r heq
    exact hq (n :: r) (by simpa using heq)

theorem Installed.folder {e children : Entries} {name : Name} {path : Path} {fs fs₁ fs' : FileSystem}
    (hready : Ready (name :: e.names) path fs) (hname : name ∉ e.names)
    (hchildren : Installed children (path ++ [name]) (Function.update fs (path ++ [name]) (some .folder)) fs₁)
    (h : Installed e path fs₁ fs') : Installed (.folder name children e) path fs fs' := by
  constructor
  · intro n hn r
    by_cases hnn : n = name
    · subst hnn
      rw [h.outside, Entries.lookup, if_pos rfl]
      · cases r with
        | nil =>
            rw [hchildren.outside]
            · simp [Entries.lookup, created]
            · intro m _ r' heq
              have := congrArg List.length heq
              simp at this
        | cons m r =>
            have hpath : path ++ n :: m :: r = (path ++ [n]) ++ m :: r := by simp
            rw [hpath]
            by_cases hm : m ∈ children.names
            · exact hchildren.inside m hm r
            · rw [hchildren.outside, Function.update_of_ne, ← hpath, hready.fresh n (List.mem_cons_self ..),
                Entries.lookup_of_not_mem hm]
              · rfl
              · simp
              · intro m' hm' r' heq
                rw [append_cons_inj] at heq
                exact hm (heq.1 ▸ hm')
      · intro n' hn' r' heq
        rw [append_cons_inj] at heq
        exact hname (heq.1 ▸ hn')
    · have hn' : n ∈ e.names := by simpa [Entries.names, hnn] using hn
      rw [h.inside n hn' r, Entries.lookup, if_neg hnn]
  · intro q hq
    rw [h.outside q (fun n hn r => hq n (List.mem_cons_of_mem _ hn) r)]
    exact hchildren.below q (fun r => hq name (List.mem_cons_self ..) r)

theorem refusedName_eq_false {name : Name} (hslash : 0x2F ∉ name) (hdots : ∃ c ∈ name, c ≠ 0x2E) :
    refusedName name = false := by
  simpa [refusedName, hslash] using hdots

theorem decompressChildren_compressChildren (hlzo : lzo.Lawful) (junk : Nat) :
    ∀ (e : Entries) (fuel : Nat) (rest : List UInt8) (fs : FileSystem) (path : Path), e.WellFormed →
    (∀ name ∈ e.allNames, refusedName name = false) → e.steps ≤ fuel → Ready e.names path fs →
    ∃ fs', decompressChildren lzo junk fuel e.count ⟨compressChildren lzo e ++ rest, true⟩ fs path =
      some (⟨rest, true⟩, fs') ∧ Installed e path fs fs'
  | .nil, fuel, rest, fs, path, _, _, hfuel, _ => by
      obtain ⟨fuel, rfl⟩ : ∃ k, fuel = k + 1 := Nat.exists_eq_add_of_le' hfuel
      exact ⟨fs, rfl, fun _ hn => by simp [Entries.names] at hn, fun _ _ => rfl⟩
  | .file name bytes e, fuel, rest, fs, path, ⟨_, _, hlen, hnot, hsize, hwf⟩, hnames, hfuel, hready => by
      obtain ⟨fuel, rfl⟩ : ∃ k, fuel = k + 1 := Nat.exists_eq_add_of_le' (Nat.le_trans (Nat.le_add_left ..) hfuel)
      have hrefused := hnames name (List.mem_cons_self ..)
      -- the file system after this child
      obtain ⟨fs₁, hfile, hself, hother⟩ : ∃ fs₁, decompressPacketIntoFile lzo junk
          ⟨compressFileIntoPacket lzo bytes ++ (compressChildren lzo e ++ rest), true⟩ fs (path ++ [name]) =
            some (⟨compressChildren lzo e ++ rest, true⟩, fs₁) ∧
          fs₁ (path ++ [name]) = created (some (.file bytes)) ∧ ∀ q, q ≠ path ++ [name] → fs₁ q = fs q := by
        rw [decompress_compress_file hlzo junk hsize, openForWriting_ready hready]
        by_cases hnil : bytes = []
        · subst hnil
          exact ⟨fs, rfl, hready.fresh name (List.mem_cons_self ..) [], fun _ _ => rfl⟩
        · rw [if_neg hnil]
          refine ⟨_, rfl, ?_, ?_⟩
          · rw [Function.update_self]
            cases bytes with
            | nil => exact absurd rfl hnil
            | cons b bs => rfl
          · intro q hq
            rw [Function.update_of_ne hq, Function.update_of_ne hq]
      have hready' : Ready e.names path fs₁ := hready.next hnot (fun q hq => hother q (hq []))
      obtain ⟨fs', heq, hinstalled⟩ := decompressChildren_compressChildren hlzo junk e fuel rest fs₁ path hwf
        (fun n hn => hnames n (List.mem_cons_of_mem _ hn)) (Nat.le_of_succ_le_succ hfuel) hready'
      obtain ⟨hstring, hbool⟩ := read_child hlen false (compressFileIntoPacket lzo bytes ++ (compressChildren lzo e ++ rest))
        (decide (junk ≠ 0))
      refine ⟨fs', ?_, .file hready hnot hself hother hinstalled⟩
      simp only [Entries.count, compressChildren, List.append_assoc]
      rw [decompressChildren, hstring]
      simp only [hrefused, Bool.false_eq_true, if_false, hbool, hfile]
      exact heq
  | .folder name children e, fuel, rest, fs, path, ⟨_, _, hlen, hnot, hcount, hwfc, hwf⟩, hnames, hfuel, hready => by
      obtain ⟨fuel, rfl⟩ : ∃ k, fuel = k + 2 := Nat.exists_eq_add_of_le' (Nat.le_trans (Nat.le_add_left ..) hfuel)
      simp only [Entries.steps] at hfuel
      have hrefused := hnames name (List.mem_cons_self ..)
      have hready₀ : Ready children.names (path ++ [name]) (Function.update fs (path ++ [name]) (some .folder)) := by
        constructor
        · intro q hq
          obtain rfl | hp := List.prefix_concat_iff.1 hq
          · exact Function.update_self ..
          · rw [Function.update_of_ne, hready.folders q hp]
            rintro rfl
            have := hp.length_le
            simp at this
        · intro n _ r
          rw [Function.update_of_ne (by simp), List.append_assoc]
          exact hready.fresh name (List.mem_cons_self ..) (n :: r)
      obtain ⟨fs₁, hchildren, hinst₁⟩ := decompressChildren_compressChildren hlzo junk children fuel
        (compressChildren lzo e ++ rest) _ _ hwfc
        (fun n hn => hnames n (List.mem_cons_of_mem _ (List.mem_append_left _ hn))) (by omega) hready₀
      obtain ⟨fs', heq, hinst⟩ := decompressChildren_compressChildren hlzo junk e (fuel + 1) rest fs₁ path hwf
        (fun n hn => hnames n (List.mem_cons_of_mem _ (List.mem_append_right _ hn))) (by omega) (hready.next hnot hinst₁.below)
      obtain ⟨hstring, hbool⟩ := read_child hlen true
        (beBytes 8 children.count ++ (compressChildren lzo children ++ (compressChildren lzo e ++ rest)))
        (decide (junk ≠ 0))
      have hfolder : decompressFolder lzo junk (fuel + 1)
          ⟨beBytes 8 children.count ++ (compressChildren lzo children ++ (compressChildren lzo e ++ rest)), true⟩ fs
          (path ++ [name]) = some (⟨compressChildren lzo e ++ rest, true⟩, fs₁) := by
        have hread := Packet.readNat_beBytes (w := 8) (v := children.count) (by omega) junk
          (compressChildren lzo children ++ (compressChildren lzo e ++ rest))
        rw [decompressFolder, createFullPath_ready hready]
        simp only [Option.bind_some, hread]
        exact hchildren
      refine ⟨fs', ?_, .folder hready hnot hinst₁ hinst⟩
      simp only [Entries.count, compressChildren, List.append_assoc]
      rw [decompressChildren, hstring]
      simp only [hrefused, Bool.false_eq_true, if_false, hbool, if_true, hfolder]
      exact heq

/-! ## The whole folder -/

theorem Fresh.ready {fs : FileSystem} {path : Path} (h : Fresh fs path) (names : List Name) :
    ∃ fs₀, createFullPath fs path = some fs₀ ∧ Ready names path fs₀ ∧ ∀ q, ¬ q <+: path → fs₀ q = fs q := by
  refine ⟨fun q => if q.isPrefixOf path then some .folder else fs q, ?_, ⟨?_, ?_⟩, ?_⟩
  · rw [createFullPath, if_neg]
    simp only [List.any_eq_true, List.mem_inits, not_exists, not_and, Bool.not_eq_true]
    exact h.creatable
  · intro q hq
    rw [if_pos (List.isPrefixOf_iff_prefix.2 hq)]
  · intro n _ r
    rw [if_neg, h.absent]
    intro hpre
    have := (List.isPrefixOf_iff_prefix.1 hpre).length_le
    simp at this
  · intro q hq
    exact if_neg fun hpre => hq (List.isPrefixOf_iff_prefix.1 hpre)

theorem decompress_compress_folder (hlzo : lzo.Lawful) (junk : Nat) {e : Entries} (hwf : e.WellFormed)
    (hcount : e.count < 2 ^ 64) (hnames : ∀ name ∈ e.allNames, refusedName name = false) {fs : FileSystem} {path : Path}
    (hfresh : Fresh fs path) (rest : List UInt8) {fuel : Nat} (hfuel : e.steps < fuel) :
    ∃ fs', decompressPacketIntoFolder lzo junk fuel ⟨compressFolderIntoPacket lzo (some e) ++ rest, true⟩ fs path =
        some (⟨rest, true⟩, fs') ∧ (∀ q, fs' (path ++ q) = created (e.lookup q)) ∧
      ∀ q, ¬ q <+: path → ¬ path <+: q → fs' q = fs q := by
  obtain ⟨fuel, rfl⟩ : ∃ k, fuel = k + 1 := Nat.exists_eq_add_of_le' (Nat.one_le_of_lt hfuel)
  obtain ⟨fs₀, hcreate, hready, hother⟩ := hfresh.ready e.names
  obtain ⟨fs', hchildren, hinst⟩ := decompressChildren_compressChildren hlzo junk e fuel rest fs₀ path hwf hnames
    (Nat.le_of_lt_succ hfuel) hready
  have hread := Packet.readNat_beBytes (w := 8) (v := e.count) (by omega) junk (compressChildren lzo e ++ rest)
  refine ⟨fs', ?_, ?_, ?_⟩
  · simp only [decompressPacketIntoFolder, compressFolderIntoPacket, List.append_assoc, Packet.readBool_putBool,
      Bool.not_true, Bool.false_eq_true, if_false]
    rw [decompressFolder, hcreate]
    simp only [Option.bind_some, hread]
    exact hchildren
  · intro q
    cases q with
    | nil =>
        rw [List.append_nil, hinst.outside, hready.folders path (List.prefix_refl _)]
        · cases e <;> rfl
        · intro n _ r heq
          have := congrArg List.length heq
          simp at this
    | cons n q =>
        by_cases hn : n ∈ e.names
        · exact hinst.inside n hn q
        · rw [hinst.outside, hother, hfresh.absent, Entries.lookup_of_not_mem hn]
          · rfl
          · intro hpre
            have := hpre.length_le
            simp at this
          · intro n' hn' r' heq
            rw [append_cons_inj] at heq
            exact hn (heq.1 ▸ hn')
  · intro q hq hq'
    rw [hinst.outside q, hother q hq]
    rintro n _ r rfl
    exact hq' (List.prefix_append ..)

end Karphin.NetPlay.Transfer

/-!
# Transfers lose nothing

Buffers, files that are not empty, folders and codes arrive as they were sent. The receiver refuses names of dots only.
-/

namespace Karphin.NetPlay.Transfer

open Lib

variable {lzo : Lzo}

theorem lookup_of_created {node : Option Node} (h : node ≠ some (.file [])) : created node = node := by
  unfold created
  split
  · exact absurd rfl h
  · rfl

theorem accepted_of_wellFormed : ∀ {e : Entries}, e.WellFormed → (∀ name ∈ e.allNames, ∃ c ∈ name, c ≠ 0x2E) →
    ∀ name ∈ e.allNames, refusedName name = false
  | .nil, _, _, _, hname => by cases hname
  | .file name bytes rest, ⟨_, hslash, _, _, _, hwf⟩, hdots, name', hname => by
      obtain rfl | hname := List.mem_cons.1 hname
      · exact refusedName_eq_false hslash (hdots name' (List.mem_cons_self ..))
      · exact accepted_of_wellFormed hwf (fun n hn => hdots n (List.mem_cons_of_mem _ hn)) name' hname
  | .folder name children rest, ⟨_, hslash, _, _, _, hwfc, hwf⟩, hdots, name', hname => by
      obtain rfl | hname := List.mem_cons.1 hname
      · exact refusedName_eq_false hslash (hdots name' (List.mem_cons_self ..))
      · obtain hname | hname := List.mem_append.1 hname
        · exact accepted_of_wellFormed hwfc
            (fun n hn => hdots n (List.mem_cons_of_mem _ (List.mem_append_left _ hn))) name' hname
        · exact accepted_of_wellFormed hwf
            (fun n hn => hdots n (List.mem_cons_of_mem _ (List.mem_append_right _ hn))) name' hname

structure Arrives (lzo : Lzo) (junk : Nat) : Prop where
  buffer : ∀ buffer rest, buffer.length < 2 ^ 64 →
    decompressPacketIntoBuffer lzo junk ⟨compressBufferIntoPacket lzo buffer ++ rest, true⟩ =
      some (buffer, ⟨rest, true⟩)
  file : ∀ file rest (fs : FileSystem) (path : Path), file.length < 2 ^ 64 → fs path.dropLast = some .folder →
    fs path ≠ some .folder → ∃ fs',
      decompressPacketIntoFile lzo junk ⟨compressFileIntoPacket lzo file ++ rest, true⟩ fs path =
        some (⟨rest, true⟩, fs') ∧ (file ≠ [] → fs' path = some (.file file)) ∧ ∀ q, q ≠ path → fs' q = fs q
  folder : ∀ (folder : Entries) rest fs path, folder.WellFormed → folder.count < 2 ^ 64 →
    (∀ name ∈ folder.allNames, ∃ c ∈ name, c ≠ 0x2E) → Fresh fs path → ∃ steps, ∀ fuel ≥ steps, ∃ fs',
      decompressPacketIntoFolder lzo junk fuel ⟨compressFolderIntoPacket lzo (some folder) ++ rest, true⟩ fs path =
        some (⟨rest, true⟩, fs') ∧
      (∀ q, folder.lookup q ≠ some (.file []) → fs' (path ++ q) = folder.lookup q) ∧
      ∀ q, ¬ q <+: path → ¬ path <+: q → fs' q = fs q
  noFolder : ∀ rest fs path fuel,
    decompressPacketIntoFolder lzo junk fuel ⟨compressFolderIntoPacket lzo none ++ rest, true⟩ fs path =
      some (⟨rest, true⟩, fs)
  codes : ∀ (gecko ar : Codes) (client : Client), gecko.flatten.length < 65536 → ar.flatten.length < 65536 →
    ((syncCodes gecko ar).foldl (Client.onSyncCodes (UInt32.ofNat junk)) client).gecko.synced.flatten = gecko.flatten ∧
    ((syncCodes gecko ar).foldl (Client.onSyncCodes (UInt32.ofNat junk)) client).ar.synced.flatten = ar.flatten

/-- The length of a run of literals at the start of a stream, as `lzo1x_1_compress` writes it. -/
def literalLength (t : Nat) : List UInt8 :=
  if t = 0 then []
  else if t ≤ 238 then [UInt8.ofNat (17 + t)]
  else 0 :: (List.replicate ((t - 19) / 255) 0 ++ [UInt8.ofNat ((t - 19) % 255 + 1)])

def literalBody : List UInt8 → List UInt8
  | [] => []
  | b :: rest => if b = 0 then (rest.dropWhile (· = 0)).tail else if b = 17 then b :: rest else rest

def literalLzo : Lzo where
  compress block := literalLength block.length ++ (block ++ [17, 0, 0])
  decompress stream := some ((literalBody stream).take ((literalBody stream).length - 3))

theorem dropWhile_zeros {last : UInt8} (hlast : last ≠ 0) (rest : List UInt8) : ∀ (k : Nat),
    (List.replicate k 0 ++ last :: rest).dropWhile (fun b => decide (b = 0)) = last :: rest
  | 0 => by simp [hlast]
  | k + 1 => by
      rw [List.replicate_succ, List.cons_append, List.dropWhile_cons_of_pos (by simp)]
      exact dropWhile_zeros hlast rest k

theorem ofNat_ne {n m : Nat} (hn : n < 256) (hm : m < 256) (h : n ≠ m) : UInt8.ofNat n ≠ UInt8.ofNat m := by
  intro heq
  have := congrArg UInt8.toNat heq
  simp only [UInt8.toNat_ofNat', Nat.reducePow] at this
  omega

theorem literalBody_literalLength (block : List UInt8) :
    literalBody (literalLength block.length ++ (block ++ [17, 0, 0])) = block ++ [17, 0, 0] := by
  by_cases h0 : block.length = 0
  · have hnil := List.length_eq_zero_iff.1 h0
    subst hnil
    rfl
  · by_cases hle : block.length ≤ 238
    · have h1 : UInt8.ofNat (17 + block.length) ≠ 0 := @ofNat_ne _ 0 (by omega) (by omega) (by omega)
      have h2 : UInt8.ofNat (17 + block.length) ≠ 17 := @ofNat_ne _ 17 (by omega) (by omega) (by omega)
      rw [literalLength, if_neg h0, if_pos hle, List.cons_append, literalBody, if_neg h1, if_neg h2, List.nil_append]
    · have hlast : UInt8.ofNat ((block.length - 19) % 255 + 1) ≠ 0 := @ofNat_ne _ 0 (by omega) (by omega) (by omega)
      rw [literalLength, if_neg h0, if_neg hle, List.cons_append, literalBody, if_pos rfl, List.append_assoc,
        List.cons_append, dropWhile_zeros hlast, List.tail_cons, List.nil_append]

theorem literalLzo_lawful : literalLzo.Lawful := by
  constructor
  · intro block
    simp only [literalLzo, literalBody_literalLength]
    simp
  · intro block
    simp [literalLzo]
  · intro block hblock
    simp only [literalLzo, literalLength, lzoOutLen, lzoInLen] at hblock ⊢
    split
    · simp only [List.length_append, List.length_nil, List.length_cons]
      omega
    · split
      · simp only [List.length_append, List.length_nil, List.length_cons]
        omega
      · simp only [List.length_append, List.length_cons, List.length_replicate, List.length_nil]
        omega

def rootOnly : FileSystem := fun q => if q = [] then some .folder else none

theorem fresh_rootOnly (name : Name) : Fresh rootOnly [name] := by
  constructor
  · intro q _
    unfold rootOnly
    split
    · rfl
    · rfl
  · exact fun _ => rfl

theorem refused_folder {name : Name} {bytes : List UInt8} (hlen : name.length < 2 ^ 32) (h : refusedName name = true)
    (folder : Name) (fuel : Nat) : decompressPacketIntoFolder lzo 0 fuel
      ⟨compressFolderIntoPacket lzo (some (.file name bytes .nil)), true⟩ rootOnly [folder] = none := by
  obtain ⟨fs₀, hcreate, -, -⟩ := (fresh_rootOnly folder).ready []
  have hread := Packet.readNat_beBytes (w := 8) (v := 1) (by decide) 0 (compressChildren lzo (.file name bytes .nil))
  have hstring := Packet.readString_putString (s := name) (by omega)
    (Packet.putBool false ++ compressFileIntoPacket lzo bytes ++ [])
  rw [compressChildren, compressChildren, List.append_assoc, List.append_assoc, ← List.append_assoc _ _ []] at hread
  simp only [decompressPacketIntoFolder, compressFolderIntoPacket, Packet.readBool_putBool, Bool.not_true,
    Bool.false_eq_true, if_false, compressChildren, Entries.count, Nat.zero_add, List.append_assoc]
  rw [← List.append_assoc _ _ []]
  cases fuel with
  | zero => rfl
  | succ fuel =>
      rw [decompressFolder, hcreate]
      simp only [Option.bind_some, hread]
      cases fuel with
      | zero => rfl
      | succ fuel =>
          rw [decompressChildren, hstring]
          simp only [h, if_true]

end Karphin.NetPlay.Transfer
