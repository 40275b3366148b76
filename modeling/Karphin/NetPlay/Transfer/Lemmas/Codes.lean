import Karphin.NetPlay.Transfer.Defs

/-!
# Blocks are read back

Both loops go block by block, so the induction is on the data that is left, and the packet that is read is what the
sender has still to write.
-/

namespace Karphin.NetPlay.Transfer

open Lib

variable {lzo : Lzo}

def putBlock (lzo : Lzo) (block : List UInt8) : List UInt8 :=
  beBytes 4 (lzo.compress block).length ++ lzo.compress block

theorem compressBlocks_nil : compressBlocks lzo [] = [] := by
  rw [compressBlocks]
  simp

theorem compressBlocks_cons {data : List UInt8} (h : data ≠ []) : compressBlocks lzo data =
    putBlock lzo (data.take lzoInLen) ++ compressBlocks lzo (data.drop lzoInLen) := by
  have hlen : data.length ≠ 0 := fun h0 => h (List.length_eq_zero_iff.1 h0)
  rw [compressBlocks]
  by_cases hle : lzoInLen ≥ data.length
  · have htake : data.take lzoInLen = data.take data.length := by
      rw [List.take_length, List.take_of_length_le hle]
    have hdrop : data.drop lzoInLen = [] := List.drop_eq_nil_iff.2 hle
    simp only [if_pos hle, dif_neg hlen, putBlock, htake, hdrop, compressBlocks_nil]
    split
    · rfl
    · simp [compressBlocks_nil]
  · have hpos : ¬ lzoInLen = 0 := by
      simp only [lzoInLen]
      omega
    simp only [if_neg hle, dif_neg hpos, putBlock, ne_eq, not_true_eq_false, if_false]

theorem decompressBlocks_end (room : Nat → Nat) (buffer written rest : List UInt8) :
    decompressBlocks lzo room buffer written ⟨beBytes 4 0 ++ rest, true⟩ = some (written, ⟨rest, true⟩) := by
  rw [decompressBlocks]
  simp only [Packet.readNat_beBytes (w := 4) (v := 0) (by decide) 0 rest, dite_true]

theorem decompressBlocks_block (hlzo : lzo.Lawful) {room : Nat → Nat} {block written : List UInt8}
    (hblock : block.length ≤ lzoInLen) (hroom : block.length ≤ room written.length) (buffer rest : List UInt8) :
    ∃ buffer', decompressBlocks lzo room buffer written ⟨putBlock lzo block ++ rest, true⟩ =
      decompressBlocks lzo room buffer' (written ++ block) ⟨rest, true⟩ := by
  have hpos := hlzo.pos block
  have hbound := hlzo.bound block hblock
  have hlt : (lzo.compress block).length < 256 ^ 4 := by
    simp only [lzoOutLen, lzoInLen] at hbound
    omega
  have hread := Packet.readNat_beBytes hlt 0 (lzo.compress block ++ rest)
  refine ⟨lzo.compress block ++ buffer.drop (lzo.compress block).length, ?_⟩
  conv_lhs => rw [decompressBlocks]
  simp only [putBlock, List.append_assoc, hread, Packet.readBytes_append, hlzo.undo]
  rw [dif_neg (by omega), if_neg (by omega), if_neg (by omega)]

theorem decompressBlocks_compressBlocks (hlzo : lzo.Lawful) {room : Nat → Nat} {total : Nat}
    (hroom : ∀ w b, w + b ≤ total → b ≤ lzoInLen → b ≤ room w) (rest : List UInt8) :
    ∀ (data written buffer : List UInt8), written.length + data.length ≤ total →
      decompressBlocks lzo room buffer written ⟨compressBlocks lzo data ++ (beBytes 4 0 ++ rest), true⟩ =
        some (written ++ data, ⟨rest, true⟩)
  | data, written, buffer, htotal => by
      by_cases hdata : data = []
      · subst hdata
        rw [compressBlocks_nil, List.nil_append, List.append_nil]
        exact decompressBlocks_end room buffer written rest
      · have hlen : data.length ≠ 0 := fun h0 => hdata (List.length_eq_zero_iff.1 h0)
        have htake : (data.take lzoInLen).length ≤ lzoInLen := List.length_take_le ..
        have hsum : (data.take lzoInLen).length + (data.drop lzoInLen).length = data.length := by
          rw [← List.length_append, List.take_append_drop]
        obtain ⟨buffer', heq⟩ := decompressBlocks_block hlzo htake (hroom written.length _ (by omega) htake) buffer
          (compressBlocks lzo (data.drop lzoInLen) ++ (beBytes 4 0 ++ rest))
        rw [compressBlocks_cons hdata, List.append_assoc, heq]
        rw [decompressBlocks_compressBlocks hlzo hroom rest (data.drop lzoInLen) (written ++ data.take lzoInLen) buffer'
          (by rw [List.length_append]; omega)]
        rw [List.append_assoc, List.take_append_drop]
termination_by data => data.length
decreasing_by
  simp only [List.length_drop, lzoInLen]
  omega

/-! ## Buffers and files -/

theorem decompress_compress_buffer (hlzo : lzo.Lawful) (junk : Nat) {buffer : List UInt8} (hsize : buffer.length < 2 ^ 64)
    (rest : List UInt8) :
    decompressPacketIntoBuffer lzo junk ⟨compressBufferIntoPacket lzo buffer ++ rest, true⟩ =
      some (buffer, ⟨rest, true⟩) := by
  have hlt : buffer.length < 256 ^ 8 := by omega
  rw [decompressPacketIntoBuffer, compressBufferIntoPacket, compressIntoPacket, List.append_assoc,
    Packet.readNat_beBytes hlt]
  by_cases hlen : buffer.length = 0
  · have hnil := List.length_eq_zero_iff.1 hlen
    simp [hnil]
  · have hroom : ∀ w b, w + b ≤ buffer.length → b ≤ lzoInLen → b ≤ buffer.length - w := fun w b h _ => by omega
    have hblocks := decompressBlocks_compressBlocks hlzo hroom rest buffer [] (List.replicate lzoOutLen 0) (by simp)
    simp only [if_neg hlen, List.append_assoc, hblocks]
    simp

theorem decompress_compress_file (hlzo : lzo.Lawful) (junk : Nat) {file : List UInt8} (hsize : file.length < 2 ^ 64)
    (rest : List UInt8) (fs : FileSystem) (path : Path) :
    decompressPacketIntoFile lzo junk ⟨compressFileIntoPacket lzo file ++ rest, true⟩ fs path =
      if file = [] then some (⟨rest, true⟩, fs)
      else (openForWriting fs path).map fun fs => (⟨rest, true⟩, Function.update fs path (some (.file file))) := by
  have hlt : file.length < 256 ^ 8 := by omega
  rw [decompressPacketIntoFile, compressFileIntoPacket, compressIntoPacket, List.append_assoc,
    Packet.readNat_beBytes hlt]
  by_cases hnil : file = []
  · simp [hnil]
  · have hlen : ¬ file.length = 0 := fun h0 => hnil (List.length_eq_zero_iff.1 h0)
    have hroom : ∀ w b, w + b ≤ file.length → b ≤ lzoInLen → b ≤ lzoInLen := fun _ _ _ h => h
    have hblocks := decompressBlocks_compressBlocks hlzo hroom rest file [] (List.replicate lzoOutLen 0) (by simp)
    simp only [if_neg hlen, if_neg hnil, List.append_assoc, hblocks]
    cases openForWriting fs path with
    | none => rfl
    | some fs => rfl

end Karphin.NetPlay.Transfer

/-!
## Codes arrive

The number of lines is sent in 16 bits, the lines are sent all together. The client reads as many lines as it was told.
-/

namespace Karphin.NetPlay.Transfer

open Lib

/-! ## The host -/

theorem foldl_count (code : List CodeLine) : ∀ (n : Nat), n < 65536 →
    code.foldl (fun n _ => (n + 1) % 65536) n = (n + code.length) % 65536 := by
  induction code with
  | nil => exact fun n hn => (Nat.mod_eq_of_lt hn).symm
  | cons line code ih =>
      intro n _
      rw [List.foldl_cons, ih _ (Nat.mod_lt _ (by decide)), List.length_cons]
      omega

theorem countLines_eq (codes : Codes) : countLines codes = codes.flatten.length % 65536 := by
  have h : ∀ n < 65536, codes.foldl (fun n code => code.foldl (fun n _ => (n + 1) % 65536) n) n =
      (n + codes.flatten.length) % 65536 := by
    induction codes with
    | nil => exact fun n hn => (Nat.mod_eq_of_lt hn).symm
    | cons code codes ih =>
        intro n hn
        rw [List.foldl_cons, foldl_count code n hn, ih _ (Nat.mod_lt _ (by decide)), List.flatten_cons,
          List.length_append]
        omega
  rw [countLines, h 0 (by decide), Nat.zero_add]

/-! ## The client -/

namespace Client

variable {c : Client} {kind other : CodeKind} {junk : UInt32}

@[simp]
theorem get_set (sync : CodeSync) : (c.set kind sync).get kind = sync := by
  cases kind <;> rfl

theorem get_set_ne (sync : CodeSync) (h : other ≠ kind) : (c.set kind sync).get other = c.get other := by
  cases kind <;> cases other <;> first | rfl | exact absurd rfl h

@[simp]
theorem get_syncCodeResponse : c.syncCodeResponse.get kind = c.get kind := by
  unfold syncCodeResponse
  split
  · cases kind <;> rfl
  · rfl

theorem readLine_putLine (line : CodeLine) (rest : List UInt8) :
    readLine junk ⟨putLine line ++ rest, true⟩ = (line, ⟨rest, true⟩) := by
  have ha : line.address.toNat < 256 ^ 4 := line.address.toNat_lt
  have hd : line.data.toNat < 256 ^ 4 := line.data.toNat_lt
  rw [readLine, putLine, List.append_assoc, Packet.readNat_beBytes ha]
  simp only [Packet.readNat_beBytes hd, UInt32.ofNat_toNat]

structure Receiving (kind : CodeKind) (c c' : Client) : Prop where
  count : (c'.get kind).count = (c.get kind).count
  synced : (c'.get kind).synced = (c.get kind).synced
  other : ∀ other, other ≠ kind → c'.get other = c.get other

theorem receiveLines_spec : ∀ (lines : List CodeLine) (rest : List UInt8) (c : Client) (acc : List CodeLine),
    (c.get kind).successCount + lines.length = (c.get kind).count → (c.get kind).count < 65536 →
    ∃ c', receiveLines kind junk lines.length ⟨lines.flatMap putLine ++ rest, true⟩ c acc = (acc ++ lines, c') ∧
      Receiving kind c c' ∧ (lines ≠ [] → (c'.get kind).complete = true)
  | [], rest, c, acc, _, _ => ⟨c, by simp [receiveLines], ⟨rfl, rfl, fun _ _ => rfl⟩, fun h => absurd rfl h⟩
  | line :: lines, rest, c, acc, hsum, hlt => by
      rw [List.length_cons] at hsum
      rw [List.length_cons, receiveLines, List.flatMap_cons, List.append_assoc, readLine_putLine]
      simp only []
      have hmod : ((c.get kind).successCount + 1) % 65536 = (c.get kind).successCount + 1 := Nat.mod_eq_of_lt (by omega)
      -- the client after this line
      generalize hc : (if ((c.get kind).successCount + 1) % 65536 ≥ (c.get kind).count then _ else _ : Client) = c₁
      have hstep : Receiving kind c c₁ ∧ (c₁.get kind).successCount = (c.get kind).successCount + 1 ∧
          (lines = [] → (c₁.get kind).complete = true) := by
        rw [hmod] at hc
        split at hc
        · subst hc
          refine ⟨⟨by simp, by simp, ?_⟩, by simp, fun _ => by simp⟩
          intro other hother
          rw [get_syncCodeResponse, get_set_ne _ hother]
        · next hlast =>
            subst hc
            refine ⟨⟨by simp, by simp, fun other hother => get_set_ne _ hother⟩, by simp, ?_⟩
            rintro rfl
            simp only [List.length_nil] at hsum
            omega
      obtain ⟨hrecv, hsucc, hdone⟩ := hstep
      obtain ⟨c', heq, hrecv', hdone'⟩ := receiveLines_spec lines rest c₁ (acc ++ [line])
        (by rw [hsucc, hrecv.count]; omega) (by rw [hrecv.count]; exact hlt)
      refine ⟨c', ?_, ⟨?_, ?_, ?_⟩, ?_⟩
      · rw [heq]
        simp
      · rw [hrecv'.count, hrecv.count]
      · rw [hrecv'.synced, hrecv.synced]
      · intro other hother
        rw [hrecv'.other other hother, hrecv.other other hother]
      · intro _
        cases lines with
        | nil =>
            simp only [List.length_nil, receiveLines, Prod.mk.injEq] at heq
            rw [← heq.2]
            exact hdone rfl
        | cons line' lines => exact hdone' (by simp)

theorem sync_kind (codes : Codes) (c : Client) :
    ((((syncKind kind codes).foldl (onSyncCodes junk) c).get kind).synced.flatten =
        codes.flatten.take (codes.flatten.length % 65536)) ∧
      (((syncKind kind codes).foldl (onSyncCodes junk) c).get kind).complete = true ∧
      ∀ other, other ≠ kind → ((syncKind kind codes).foldl (onSyncCodes junk) c).get other = c.get other := by
  have hcount := countLines_eq codes
  have hlt : countLines codes < 256 ^ 2 := by omega
  have hread := Packet.readNat_beBytes hlt (c.get kind).count []
  rw [List.append_nil] at hread
  simp only [syncKind, List.foldl_cons, List.foldl_nil, onSyncCodes, onSyncCodesNotifyCount, hread]
  rw [hcount]
  generalize hn : codes.flatten.length % 65536 = n
  -- the client after the number of lines
  generalize hc : (if n = 0 then _ else _ : Client) = c₁
  have hnotify : (c₁.get kind).count = n ∧ (c₁.get kind).successCount = 0 ∧ (n = 0 → (c₁.get kind).complete = true) ∧
      ∀ other, other ≠ kind → c₁.get other = c.get other := by
    split at hc
    · subst hc
      refine ⟨by simp, by simp, fun _ => by simp, ?_⟩
      intro other hother
      rw [get_syncCodeResponse, get_set_ne _ hother]
    · next hne =>
        subst hc
        exact ⟨by simp, by simp, fun h0 => absurd h0 hne, fun other hother => get_set_ne _ hother⟩
  obtain ⟨hcount₁, hsucc, hzero, hother₁⟩ := hnotify
  have hbytes : codes.flatMap (fun code => code.flatMap putLine) =
      (codes.flatten.take n).flatMap putLine ++ (codes.flatten.drop n).flatMap putLine := by
    rw [← List.flatMap_append, List.take_append_drop, ← List.flatMap_id, List.flatMap_assoc]
    rfl
  have hlen : (codes.flatten.take n).length = n := by
    rw [List.length_take]
    exact Nat.min_eq_left (hn ▸ Nat.mod_le ..)
  obtain ⟨c', heq, hrecv, hdone⟩ := @receiveLines_spec kind junk (codes.flatten.take n)
    ((codes.flatten.drop n).flatMap putLine) c₁ [] (by rw [hsucc, hlen, hcount₁, Nat.zero_add]) (by rw [hcount₁]; omega)
  rw [hlen] at heq
  simp only [onSyncCodesData, hcount₁, hbytes, heq, hrecv.count, List.nil_append, get_set]
  refine ⟨?_, ?_, ?_⟩
  · split
    · next h0 => simp [h0]
    · simp
  · by_cases h0 : n = 0
    · subst h0
      simp only [receiveLines, Prod.mk.injEq] at heq
      rw [← heq.2]
      exact hzero rfl
    · apply hdone
      intro hnil
      rw [hnil] at hlen
      exact h0 hlen.symm
  · intro other hother
    rw [get_set_ne _ hother, hrecv.other other hother, hother₁ other hother]

theorem sync_codes (gecko ar : Codes) (c : Client) :
    ((syncCodes gecko ar).foldl (onSyncCodes junk) c).gecko.synced.flatten =
        gecko.flatten.take (gecko.flatten.length % 65536) ∧
      ((syncCodes gecko ar).foldl (onSyncCodes junk) c).ar.synced.flatten =
        ar.flatten.take (ar.flatten.length % 65536) ∧
      ((syncCodes gecko ar).foldl (onSyncCodes junk) c).gecko.complete = true ∧
      ((syncCodes gecko ar).foldl (onSyncCodes junk) c).ar.complete = true := by
  rw [syncCodes, List.foldl_cons, List.foldl_append]
  generalize onSyncCodes junk c .notify = c₀
  obtain ⟨hgecko, hgeckoDone, -⟩ := @sync_kind .gecko junk gecko c₀
  obtain ⟨har, harDone, hother⟩ := @sync_kind .ar junk ar ((syncKind .gecko gecko).foldl (onSyncCodes junk) c₀)
  have hkeep := hother .gecko (by decide)
  rw [← hkeep] at hgecko hgeckoDone
  exact ⟨hgecko, har, hgeckoDone, harDone⟩

end Client

end Karphin.NetPlay.Transfer
