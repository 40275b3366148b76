import Karphin.State.Defs

/-!
# What is loaded of a saved state
-/

namespace Karphin.State

open Lib FileReader

/-! ## The headers -/

theorem exact_readNat {w v : Nat} (h : v < 256 ^ w) : Exact (readNat w) (leBytes w v) v := by
  have hread : Exact (readNat w) (leBytes w v) (ofLeBytes (leBytes w v)) := (Exact.readBytes (leBytes_length w v)).map _
  rwa [ofLeBytes_leBytes, Nat.mod_eq_of_lt h] at hread

theorem exact_legacyHeader {h : StateHeaderLegacy} (hid : h.gameId.length = 6) (hlzo : h.lzoSize < 2 ^ 32)
    (htime : h.time.length = 8) : Exact readLegacyHeader h.bytes h :=
  (Exact.readBytes hid).bind ((Exact.readBytes List.length_replicate).bind ((exact_readNat hlzo).bind
    ((Exact.readBytes List.length_replicate).bind ((Exact.readBytes htime).map _))))

theorem exact_versionHeader {h : StateHeaderVersion} (hcookie : h.versionCookie < 2 ^ 32)
    (hlen : h.versionStringLength < 2 ^ 32) : Exact readVersionHeader h.bytes h :=
  (exact_readNat hcookie).bind ((exact_readNat hlen).map _)

theorem exact_extendedBaseHeader {h : StateExtendedBaseHeader} (hversion : h.headerVersion < 2 ^ 16)
    (htype : h.compressionType < 2 ^ 16) (hoffset : h.payloadOffset < 2 ^ 32) (hsize : h.uncompressedSize < 2 ^ 64) :
    Exact readExtendedBaseHeader h.bytes h :=
  (exact_readNat hversion).bind ((exact_readNat htype).bind ((exact_readNat hoffset).bind ((exact_readNat hsize).map _)))

variable {lz4 : Lz4} {lzo : List UInt8 → (size : Nat) → Option (List UInt8)} {s : Session} {buffer : List UInt8}

theorem gameId_length (s : Session) : s.header.legacyHeader.gameId.length = 6 := by
  simp only [Session.header, List.length_append, List.length_take, List.length_replicate]
  omega

theorem sameGame_header (s : Session) : sameGame s.gameId s.header.legacyHeader.gameId = true := by
  rw [sameGame, decide_eq_true_iff, List.take_of_length_le (gameId_length s).le]
  show _ = (s.gameId.take 6 ++ List.replicate (6 - s.gameId.length) 0).takeWhile _
  rw [List.takeWhile_append]
  split
  next h =>
    rw [(List.takeWhile_prefix _).eq_of_length h]
    simp
  next => rfl

theorem validateHeaders_header (s : Session) : validateHeaders s.gameId s.header = true := by
  have hversion : (s.header.versionHeader.versionCookie + 2 ^ 32 - cookieBase) % 2 ^ 32 = stateVersion :=
    (by decide : (cookieBase + stateVersion + 2 ^ 32 - cookieBase) % 2 ^ 32 = stateVersion)
  rw [validateHeaders, sameGame_header, hversion]
  rfl

theorem exact_stateHeader (s : Session) : Exact (readStateHeaderFromFile lzo)
    (s.header.legacyHeader.bytes ++ (s.header.versionHeader.bytes ++ s.scmRevStr)) s.header :=
  (exact_legacyHeader (gameId_length s) (Nat.two_pow_pos 32) s.time_size).bind
    ((exact_versionHeader (by decide : cookieBase + stateVersion < 2 ^ 32) s.scmRevStr_size).bind ((Exact.readBytes rfl).map _))

def headerBytes (s : Session) (size : Nat) : List UInt8 := (writeHeadersToFile s size).flatten

theorem headerBytes_length (s : Session) (size : Nat) : (headerBytes s size).length = 24 + 8 + s.scmRevStr.length + 16 := by
  have hid := gameId_length s
  have htime := s.time_size
  simp [headerBytes, writeHeadersToFile, StateHeaderLegacy.bytes, StateHeaderVersion.bytes, StateExtendedBaseHeader.bytes,
    hid]
  simp [Session.header, htime]
  omega

theorem exact_headers (s : Session) {size : Nat} (hsize : size < 2 ^ 64) :
    Exact (readHeaders lzo s.gameId) (headerBytes s size) (s.header, createExtendedHeader s size) := by
  have htype : compressionType s.useCompression < 2 ^ 16 := by
    cases s.useCompression <;> decide
  have hextended : Exact readExtendedBaseHeader (createExtendedHeader s size).bytes (createExtendedHeader s size) :=
    exact_extendedBaseHeader (by decide : 1 < 2 ^ 16) htype (Nat.two_pow_pos 32) hsize
  have h : Exact (readHeaders lzo s.gameId) _ (s.header, createExtendedHeader s size) :=
    (exact_stateHeader s).bind ((Exact.check (validateHeaders_header s)).bind (hextended.bind
      ((Exact.check rfl).map fun _ => (s.header, createExtendedHeader s size))))
  have hbytes : headerBytes s size = s.header.legacyHeader.bytes ++ (s.header.versionHeader.bytes ++ s.scmRevStr) ++
      ([] ++ ((createExtendedHeader s size).bytes ++ [])) := by
    simp [headerBytes, writeHeadersToFile, Session.header]
  rwa [hbytes]

/-! ## The payload -/

structure Lz4.Lawful (lz4 : Lz4) : Prop where
  ne_nil : ∀ chunk, chunk ≠ [] → chunk.length ≤ lz4MaxInputSize → lz4.compress chunk ≠ []
  length_lt : ∀ chunk, chunk.length ≤ lz4MaxInputSize → (lz4.compress chunk).length < 2 ^ 31
  decompress : ∀ chunk capacity, chunk ≠ [] → chunk.length ≤ lz4MaxInputSize → chunk.length ≤ capacity →
    lz4.decompressSafe (lz4.compress chunk) capacity = some chunk

def payload (lz4 : Lz4) (buffer : List UInt8) : List UInt8 := (compressBufferToFile lz4 buffer).flatten

def payloadRest (lz4 : Lz4) (buffer : List UInt8) : List UInt8 :=
  if buffer.length ≤ lz4MaxInputSize then [] else payload lz4 (buffer.drop lz4MaxInputSize)

theorem payload_eq {compressed : List UInt8} (h : lz4.compress (buffer.take lz4MaxInputSize) = compressed)
    (hne : compressed ≠ []) :
    payload lz4 buffer = leBytes 4 compressed.length ++ (compressed ++ payloadRest lz4 buffer) := by
  rw [payload, compressBufferToFile, h, payloadRest]
  simp only [List.isEmpty_iff, if_neg hne]
  split <;> simp [payload]

theorem decompressLoop_spec (hlz4 : lz4.Lawful) {size : Nat} : ∀ (fuel : Nat) {buffer done : List UInt8}, buffer ≠ [] →
    done.length + buffer.length = size → Cut (decompressLoop lz4 size fuel done) (payload lz4 buffer) ∧
      ((payload lz4 buffer).length ≤ fuel →
        Exact (decompressLoop lz4 size fuel done) (payload lz4 buffer) (done ++ buffer)) := by
  intro fuel
  induction fuel with
  | zero =>
      intro buffer done hne _
      have hchunk : buffer.take lz4MaxInputSize ≠ [] := by simp [hne, lz4MaxInputSize]
      refine ⟨fun _ _ => rfl, ?_⟩
      rw [payload_eq rfl (hlz4.ne_nil _ hchunk (List.length_take_le ..)), List.length_append, leBytes_length]
      omega
  | succ fuel ih =>
      intro buffer done hne hsize
      have hchunk : buffer.take lz4MaxInputSize ≠ [] := by simp [hne, lz4MaxInputSize]
      have hle : (buffer.take lz4MaxInputSize).length ≤ lz4MaxInputSize := List.length_take_le ..
      obtain ⟨compressed, hcompressed⟩ : ∃ c, lz4.compress (buffer.take lz4MaxInputSize) = c := ⟨_, rfl⟩
      have hnil := hlz4.ne_nil _ hchunk hle
      have hlt := hlz4.length_lt _ hle
      have hdecompress : lz4.decompressSafe compressed (min lz4MaxInputSize (size - done.length)) =
          some (buffer.take lz4MaxInputSize) := by
        rw [← hcompressed]
        apply hlz4.decompress _ _ hchunk hle
        rw [List.length_take]
        omega
      rw [hcompressed] at hnil hlt
      have hpos : 0 < compressed.length ∧ compressed.length < 2 ^ 31 := ⟨List.length_pos_iff.mpr hnil, hlt⟩
      have hlength : Exact (readNat 4) (leBytes 4 compressed.length) compressed.length := exact_readNat (by omega)
      have hread : Exact (readBytes compressed.length) compressed compressed := Exact.readBytes rfl
      -- what is left to read once a chunk has arrived
      obtain ⟨afterChunk, hloop, hafter⟩ : ∃ afterChunk : List UInt8 → FileReader UInt8 (List UInt8),
          decompressLoop lz4 size (fuel + 1) done = (do
            let compressedDataLen ← readNat 4
            check (0 < compressedDataLen ∧ compressedDataLen < 2 ^ 31)
            let compressedData ← readBytes compressedDataLen
            afterChunk compressedData) ∧
          ∀ data read, lz4.decompressSafe data (min lz4MaxInputSize (size - done.length)) = some read →
            afterChunk data = if (done ++ read).length = size then pure (done ++ read)
              else (do
                check ((done ++ read).length < size)
                decompressLoop lz4 size fuel (done ++ read)) :=
        ⟨_, rfl, fun data read hread => by rw [hread]⟩
      have hrest : Cut (afterChunk compressed) (payloadRest lz4 buffer) ∧ ((payloadRest lz4 buffer).length ≤ fuel →
            Exact (afterChunk compressed) (payloadRest lz4 buffer) (done ++ buffer)) →
          Cut (decompressLoop lz4 size (fuel + 1) done) (payload lz4 buffer) ∧
            ((payload lz4 buffer).length ≤ fuel + 1 →
              Exact (decompressLoop lz4 size (fuel + 1) done) (payload lz4 buffer) (done ++ buffer)) := by
        rintro ⟨hcut, hexact⟩
        rw [hloop, payload_eq hcompressed hnil]
        refine ⟨hlength.bind_cut ((Exact.check hpos).bind_cut (hread.bind_cut hcut)), fun hfuel => ?_⟩
        have hrounds : (payloadRest lz4 buffer).length ≤ fuel := by
          rw [List.length_append, List.length_append, leBytes_length] at hfuel
          omega
        exact hlength.bind ((Exact.check hpos).bind (hread.bind (hexact hrounds)))
      apply hrest
      rw [hafter _ _ hdecompress]
      by_cases hlast : buffer.length ≤ lz4MaxInputSize
      · rw [payloadRest, if_pos hlast, List.take_of_length_le hlast]
        simp only [List.length_append, if_pos hsize]
        exact ⟨(Exact.pure _).cut, fun _ => Exact.pure _⟩
      · have hdrop : buffer.drop lz4MaxInputSize ≠ [] := by
          rw [ne_eq, List.drop_eq_nil_iff]
          exact hlast
        have hshort : (done ++ buffer.take lz4MaxInputSize).length < size := by
          rw [List.length_append, List.length_take]
          omega
        obtain ⟨hcut, hexact⟩ := @ih (buffer.drop lz4MaxInputSize) (done ++ buffer.take lz4MaxInputSize) hdrop (by
          rw [List.length_append, List.length_take, List.length_drop]
          omega)
        rw [List.append_assoc, List.take_append_drop] at hexact
        rw [payloadRest, if_neg hlast]
        simp only [if_neg hshort.ne]
        exact ⟨(Exact.check hshort).bind_cut hcut, fun hfuel => (Exact.check hshort).bind (hexact hfuel)⟩

theorem exact_decompressLZ4 (hlz4 : lz4.Lawful) (hne : buffer ≠ []) :
    Exact (decompressLZ4 lz4 buffer.length) (payload lz4 buffer) buffer where
  whole rest := by
    obtain ⟨-, hexact⟩ := @decompressLoop_spec _ hlz4 buffer.length (payload lz4 buffer ++ rest).length buffer [] hne
      (Nat.zero_add _)
    exact (hexact (by simp)).whole rest
  cut n hn := (@decompressLoop_spec _ hlz4 buffer.length _ buffer [] hne (Nat.zero_add _)).1 n hn

/-! ## The whole file -/

theorem stateFile_eq (lz4 : Lz4) (s : Session) (buffer : List UInt8) : stateFile lz4 s buffer =
    headerBytes s buffer.length ++ if s.useCompression then payload lz4 buffer else buffer := by
  rw [stateFile, stateWrites, List.flatten_append, headerBytes]
  cases s.useCompression
  next => simp
  next => rfl

theorem load_eq (hsize : buffer.length < 2 ^ 64) (rest : List UInt8) :
    loadFileStateData lz4 lzo s.gameId (headerBytes s buffer.length ++ rest) =
      (readPayload lz4 (headerBytes s buffer.length ++ rest).length (s.header, createExtendedHeader s buffer.length)
        rest).map Prod.fst := by
  rw [loadFileStateData, bind_some ((exact_headers s hsize).whole rest)]

theorem load_cut (hsize : buffer.length < 2 ^ 64) {n : Nat} (hn : n < (headerBytes s buffer.length).length) :
    loadFileStateData lz4 lzo s.gameId ((headerBytes s buffer.length).take n) = none := by
  rw [loadFileStateData, bind_none ((exact_headers s hsize).cut n hn)]
  rfl

theorem readPayload_uncompressed (huncompressed : s.useCompression = false) (size : Nat) (rest : List UInt8) :
    readPayload lz4 (headerBytes s size ++ rest).length (s.header, createExtendedHeader s size) rest = some (rest, []) := by
  have hlength := headerBytes_length s size
  have hle : 24 + 8 + s.scmRevStr.length + 16 + 0 ≤ (headerBytes s size ++ rest).length := by
    rw [List.length_append]
    omega
  have hrest : (headerBytes s size ++ rest).length - (24 + 8 + s.scmRevStr.length + 16 + 0) = rest.length := by
    rw [List.length_append]
    omega
  have hread : readPayload lz4 (headerBytes s size ++ rest).length (s.header, createExtendedHeader s size) =
      readUncompressed (headerBytes s size ++ rest).length s.header (createExtendedHeader s size) := by
    rw [readPayload, createExtendedHeader, huncompressed]
    rfl
  have hbytes : Exact (readUncompressed (headerBytes s size ++ rest).length s.header (createExtendedHeader s size)) rest rest :=
    (Exact.check hle).bind (Exact.readBytes hrest.symm)
  have h := hbytes.whole []
  rwa [List.append_nil, ← hread] at h

theorem readPayload_compressed (hlz4 : lz4.Lawful) (hne : buffer ≠ []) (hcompressed : s.useCompression = true)
    (fileSize : Nat) : Exact (readPayload lz4 fileSize (s.header, createExtendedHeader s buffer.length))
      (payload lz4 buffer) buffer := by
  have hread : readPayload lz4 fileSize (s.header, createExtendedHeader s buffer.length) =
      decompressLZ4 lz4 buffer.length := by
    rw [readPayload, createExtendedHeader, hcompressed]
    rfl
  rw [hread]
  exact exact_decompressLZ4 hlz4 hne

/-- A state is loaded as it was saved. A file that ends early is refused when it ends in the headers or is compressed. -/
theorem load_saved_iff (hlz4 : lz4.Lawful) (lzo : List UInt8 → (size : Nat) → Option (List UInt8)) (s : Session)
    (hne : buffer ≠ []) (hsize : buffer.length < 2 ^ 64) :
    loadFileStateData lz4 lzo s.gameId (stateFile lz4 s buffer) = some buffer ∧
      ∀ n < (stateFile lz4 s buffer).length, loadFileStateData lz4 lzo s.gameId ((stateFile lz4 s buffer).take n) = none ↔
        s.useCompression = true ∨ n < 24 + 8 + s.scmRevStr.length + 16 := by
  rw [← headerBytes_length s buffer.length, stateFile_eq]
  cases hcompressed : s.useCompression with
  | true =>
      have hexact := readPayload_compressed hlz4 hne hcompressed
      refine ⟨?_, fun n hn => ⟨fun _ => .inl rfl, fun _ => ?_⟩⟩
      · rw [load_eq hsize, if_pos rfl, ← List.append_nil (payload lz4 buffer), (hexact _).whole]
        rfl
      · rw [if_pos rfl, List.length_append] at hn
        rcases Nat.lt_or_ge n (headerBytes s buffer.length).length with hlt | hge
        · rw [List.take_append_of_le_length hlt.le, load_cut hsize hlt]
        · rw [List.take_append, List.take_of_length_le hge, load_eq hsize, if_pos rfl, (hexact _).cut]
          · rfl
          · omega
  | false =>
      refine ⟨?_, fun n hn => ?_⟩
      · rw [load_eq hsize, if_neg (by decide), readPayload_uncompressed hcompressed]
        rfl
      · rcases Nat.lt_or_ge n (headerBytes s buffer.length).length with hlt | hge
        · rw [List.take_append_of_le_length hlt.le, load_cut hsize hlt]
          exact iff_of_true rfl (.inr hlt)
        · rw [List.take_append, List.take_of_length_le hge, load_eq hsize, readPayload_uncompressed hcompressed]
          exact iff_of_false nofun (by simpa using hge)

def literals : Lz4 where
  compress chunk := UInt8.ofNat (16 * min chunk.length 15) :: chunk
  decompressSafe compressed capacity := if compressed.tail.length ≤ capacity then some compressed.tail else none

theorem literals_lawful : literals.Lawful where
  ne_nil _ _ _ := List.cons_ne_nil _ _
  length_lt chunk hle := by
    simp only [literals, List.length_cons, lz4MaxInputSize] at hle ⊢
    omega
  decompress _ _ _ _ hle := if_pos hle

def session (useCompression : Bool) : Session where
  gameId := [0x47, 0x41, 0x4c, 0x45, 0x30, 0x31]
  time := List.replicate 8 0
  scmRevStr := [0x35]
  useCompression
  time_size := rfl
  scmRevStr_size := by decide

theorem load_saved_literals : loadFileStateData literals (fun _ _ => none) (session true).gameId
    (stateFile literals (session true) [1, 2]) = some [1, 2] :=
  (load_saved_iff literals_lawful (fun _ _ => none) (session true) (by decide) (by decide)).1

/-- The last byte of the file is missing. -/
theorem load_truncated : loadFileStateData literals (fun _ _ => none) (session false).gameId
    (stateFile literals (session false) [1, 2]).dropLast = some [1] := by
  decide

end Karphin.State
