import Cpe464.RemoteCopy.ServerSteps

/-!
What one host packs another host unpacks, and what the checksum test lets through: the
blocks whose word sum is a multiple of 65535, so no packet with a single changed byte.
-/

namespace RemoteCopy

open Bytes OnesComplement

def Packet.holding (stale : Packet) (datagram : List UInt8) : Packet :=
  { stale with raw := stale.raw.store 0 (datagram.take (maxPacketLength + headerLength)) }

theorem deconstruct_construct (sender receiver : ByteOrder) (packet incoming : Packet)
    (lower : headerLength ≤ packet.size.toNat)
    (upper : packet.size.toNat ≤ maxPacketLength + headerLength)
    (received : incoming.raw.bytes.take packet.size.toNat =
      (construct sender packet).raw.bytes.take packet.size.toNat) :
    ∃ decoded, deconstruct receiver incoming = some (0, decoded) ∧
      decoded.seqNum = packet.seqNum ∧ decoded.flag = packet.flag ∧ decoded.size = packet.size ∧
      decoded.payload.bytes = packet.payload.bytes.take (packet.size.toNat - headerLength) ++
        List.replicate (maxPacketLength - (packet.size.toNat - headerLength)) 0 := by
  obtain ⟨count, size⟩ := Nat.exists_eq_add_of_le lower
  have short : count ≤ maxPacketLength := by omega
  have data : (packet.payload.bytes.take count).length = count := by simp [short]
  have stored : incoming.raw.bytes =
      frame sender packet.seqNum packet.flag (packet.payload.bytes.take count) ++
        incoming.raw.bytes.drop packet.size.toNat := by
    rw [← construct_take sender packet count size short, ← received, List.take_append_drop]
  obtain ⟨decoded, decodes, number, flag, decodedSize, payload⟩ := deconstruct_frame sender
    receiver incoming packet.seqNum packet.flag _ _ (by omega) stored
  refine ⟨decoded, decodes, number, flag, ?_, ?_⟩
  · apply UInt32.toNat_inj.mp
    rw [decodedSize, data, size]
  · rw [payload, data, size, Nat.add_sub_cancel_left]

theorem deconstruct_construct_odd : ∃ decoded,
    deconstruct .big ((Packet.zero.holding (frame .little 7 Flag.data.code [104, 105]))) =
      some (0, decoded) ∧ decoded.seqNum = 7 ∧ decoded.flag = 1 ∧ decoded.size = 13 ∧
      decoded.payload.bytes = [104, 105] ++ List.replicate 1398 0 := by
  exact deconstruct_construct .little .big
    { Packet.zero with
      seqNum := 7
      flag := 1
      size := 13
      payload := (Buffer.zero _).store 0 [104, 105, 106] }
    (Packet.zero.holding (frame .little 7 Flag.data.code [104, 105]))
    (by decide) (by decide) (by decide +kernel)

theorem fetch_mem_take {size : Nat} (buffer : Buffer size) (index count : Nat)
    (before : index < count) (inside : index < size) :
    buffer.fetch index ∈ buffer.bytes.take count := by
  have bound : index < buffer.bytes.length := by
    rw [buffer.length_bytes]
    exact inside
  have bounded : index < (buffer.bytes.take count).length := by
    rw [List.length_take]
    omega
  have read : buffer.fetch index = (buffer.bytes.take count)[index] := by
    rw [List.getElem_take, Buffer.fetch, List.getD_eq_getElem?_getD, List.getElem?_eq_getElem bound,
      Option.getD_some]
  rw [read]
  exact List.getElem_mem bounded

theorem sizeField_wordSum_pos (host : ByteOrder) (raw : Buffer (maxPacketLength + headerLength))
    (lower : headerLength ≤ (sizeField raw).toNat) :
    0 < wordSum host (raw.bytes.take (sizeField raw).toNat) := by
  have counted (index : Nat) (inside : index < headerLength) (nonzero : 0 < (raw.fetch index).toNat) :
      0 < wordSum host (raw.bytes.take (sizeField raw).toNat) :=
    wordSum_pos_of_mem host _ (fetch_mem_take raw index _ (by omega) (by
      simp only [headerLength] at inside ⊢
      omega)) nonzero
  by_contra zero
  have empty (index : Nat) (inside : index < headerLength) : (raw.fetch index).toNat = 0 := by
    by_contra nonzero
    exact zero (counted index inside (Nat.pos_of_ne_zero nonzero))
  simp only [sizeField, ntohl, empty 7 (by decide), empty 8 (by decide), empty 9 (by decide),
    empty 10 (by decide)] at lower
  simp [headerLength] at lower

theorem deconstruct_accepts (host : ByteOrder) (packet : Packet)
    (lower : headerLength ≤ (sizeField packet.raw).toNat)
    (upper : (sizeField packet.raw).toNat ≤ maxPacketLength + headerLength) :
    ∃ code decoded, deconstruct host packet = some (code, decoded) ∧
      (code = 0 ↔ wordSum host (packet.raw.bytes.take (sizeField packet.raw).toNat) % 65535 = 0) := by
  rcases deconstruct_cases host packet with
    ⟨large, _⟩ | ⟨small, _⟩ | ⟨_, _, decoded, decodes, _⟩
  · omega
  · omega
  · refine ⟨_, decoded, decodes, ?_⟩
    have positive := sizeField_wordSum_pos host packet.raw lower
    have accepted := inCksum_eq_zero host packet.raw.bytes (sizeField packet.raw).toNat (by
      simp only [maxPacketLength, headerLength] at upper
      omega)
    omega

theorem holding_bytes (stale : Packet) (datagram : List UInt8)
    (fits : datagram.length ≤ maxPacketLength + headerLength) :
    (stale.holding datagram).raw.bytes = datagram ++ stale.raw.bytes.drop datagram.length := by
  rw [Packet.holding, List.take_of_length_le fits]
  exact Buffer.store_start stale.raw datagram fits

theorem holding_take (stale : Packet) (datagram : List UInt8) (count : Nat)
    (present : count ≤ datagram.length) (upper : count ≤ maxPacketLength + headerLength) :
    (stale.holding datagram).raw.bytes.take count = datagram.take count := by
  have cut : (datagram.take (maxPacketLength + headerLength)).length ≤
      maxPacketLength + headerLength := List.length_take_le _ _
  rw [Packet.holding, Buffer.store_start _ _ cut, List.take_append_of_le_length, List.take_take,
    Nat.min_eq_left upper]
  rw [List.length_take]
  omega

theorem holding_fetch (stale : Packet) (datagram : List UInt8) (index : Nat)
    (present : index < datagram.length) (inside : index < maxPacketLength + headerLength) :
    (stale.holding datagram).raw.fetch index = datagram.getD index 0 := by
  have same := holding_take stale datagram (index + 1) (by omega) (by omega)
  have read := congrArg (fun bytes => bytes.getD index 0) same
  simpa [Buffer.fetch, List.getD_eq_getElem?_getD, List.getElem?_take] using read

theorem holding_sizeField (stale : Packet) (datagram : List UInt8)
    (present : headerLength ≤ datagram.length) :
    sizeField (stale.holding datagram).raw = ntohl (datagram.getD 7 0) (datagram.getD 8 0)
      (datagram.getD 9 0) (datagram.getD 10 0) := by
  simp only [headerLength] at present
  simp only [sizeField]
  rw [holding_fetch _ _ 7 (by omega) (by decide), holding_fetch _ _ 8 (by omega) (by decide),
    holding_fetch _ _ 9 (by omega) (by decide), holding_fetch _ _ 10 (by omega) (by decide)]

theorem frame_sizeField (stale : Packet) (host : ByteOrder) (seqNum : UInt32) (flag : UInt8)
    (data : List UInt8) (short : data.length ≤ maxPacketLength) :
    (sizeField (stale.holding (frame host seqNum flag data)).raw).toNat =
      headerLength + data.length := by
  have length := frame_length host seqNum flag data
  have bytes := Buffer.store_start stale.raw
    ((frame host seqNum flag data).take (maxPacketLength + headerLength)) (List.length_take_le _ _)
  rw [List.take_of_length_le (by omega)] at bytes
  obtain ⟨_, _, size, _⟩ := encoding_header seqNum _ (host.split_length _) flag data _ _ bytes
  rw [Packet.holding, List.take_of_length_le (by omega), sizeField, size, ofNat_header _ short]

theorem recvPacket_changed (host receiver : ByteOrder) (stale : Packet) (seqNum : UInt32)
    (flag : UInt8) (data : List UInt8) (short : data.length ≤ maxPacketLength) (offset : Nat)
    (byte : UInt8) (inside : offset < headerLength + data.length)
    (outside : offset < 7 ∨ 10 < offset)
    (different : (frame host seqNum flag data)[offset]? ≠ some byte) :
    ∃ decoded, recvPacket receiver stale ((frame host seqNum flag data).set offset byte) =
      some (crcError, decoded) := by
  have length := frame_length host seqNum flag data
  have size := frame_sizeField stale host seqNum flag data short
  have divides := (wordSum_dvd_iff host receiver _).mp (frame_wordSum host seqNum flag data short)
  generalize frame host seqNum flag data = sent at *
  have unchanged : sizeField (stale.holding (sent.set offset byte)).raw =
      sizeField (stale.holding sent).raw := by
    have kept (index : Nat) (apart : offset ≠ index) :
        (sent.set offset byte).getD index 0 = sent.getD index 0 := by
      rw [List.getD_eq_getElem?_getD, List.getElem?_set_ne apart, List.getD_eq_getElem?_getD]
    rw [holding_sizeField _ _ (by rw [List.length_set]; omega), holding_sizeField _ _ (by omega),
      kept 7 (by omega), kept 8 (by omega), kept 9 (by omega), kept 10 (by omega)]
  have total : (sizeField (stale.holding (sent.set offset byte)).raw).toNat =
      (sent.set offset byte).length := by
    rw [unchanged, size, List.length_set, length]
  obtain ⟨code, decoded, decodes, accepted⟩ := deconstruct_accepts receiver
    (stale.holding (sent.set offset byte)) (by rw [unchanged, size]; omega)
    (by rw [unchanged, size]; omega)
  rw [total, holding_take _ _ _ (Nat.le_refl _) (by rw [List.length_set]; omega),
    List.take_length] at accepted
  have noticed := wordSum_set_mod receiver sent offset byte (by omega) (by
    intro same
    rw [List.getElem?_eq_getElem (by omega), same] at different
    exact different rfl) divides
  refine ⟨decoded, ?_⟩
  have failed : code ≠ 0 := fun zero => noticed (accepted.mp zero)
  rw [recvPacket, ← Packet.holding, decodes]
  simp [failed]

/-- `deconstruct` accepts exactly the multiples of 65535, and no packet with one changed byte,
be it the byte that the error library flips. -/
theorem deconstruct_accepts_iff (host : ByteOrder) (stale : Packet) :
    (∀ datagram size, size = (sizeField (stale.holding datagram).raw).toNat →
      headerLength ≤ size → size ≤ maxPacketLength + headerLength → size ≤ datagram.length →
      ∃ code decoded, deconstruct host (stale.holding datagram) = some (code, decoded) ∧
        (code = 0 ↔ wordSum host (datagram.take size) % 65535 = 0)) ∧
    (∀ sender packet sent, headerLength ≤ packet.size.toNat →
      packet.size.toNat ≤ maxPacketLength + headerLength →
      sendPacket2 (construct sender packet) = some sent →
      ∀ offset, offset < packet.size.toNat → offset < 7 ∨ 10 < offset →
        (∀ byte, sent[offset]? ≠ some byte →
          ∃ decoded, recvPacket host stale (sent.set offset byte) = some (crcError, decoded)) ∧
        ∃ decoded, recvPacket host stale (errorFlipBits sent offset) =
          some (crcError, decoded)) := by
  constructor
  · intro datagram size sizeEq lower upper present
    rw [sizeEq] at lower upper present
    obtain ⟨code, decoded, decodes, accepted⟩ := deconstruct_accepts host _ lower upper
    rw [holding_take _ _ _ present upper, ← sizeEq] at accepted
    exact ⟨code, decoded, decodes, accepted⟩
  · intro sender packet sent lower upper sends offset inside outside
    obtain ⟨count, size⟩ := Nat.exists_eq_add_of_le lower
    have short : count ≤ maxPacketLength := by omega
    have data : (packet.payload.bytes.take count).length = count := by simp [short]
    have sizeEq : packet.size = UInt32.ofNat (headerLength + count) := by
      rw [← size, UInt32.ofNat_toNat]
    rw [sendPacket2_construct sender packet count sizeEq short, Option.some.injEq] at sends
    subst sends
    have changed (byte : UInt8) := recvPacket_changed sender host stale packet.seqNum packet.flag
      (packet.payload.bytes.take count) (by omega) offset byte (by omega) outside
    refine ⟨changed, ?_⟩
    have length := frame_length sender packet.seqNum packet.flag (packet.payload.bytes.take count)
    have flipped (byte : UInt8) : byte ^^^ 255 ≠ byte := by
      intro same
      have zero : byte ^^^ (byte ^^^ 255) = byte ^^^ byte := by rw [same]
      rw [← UInt8.xor_assoc, UInt8.xor_self, UInt8.zero_xor] at zero
      exact absurd zero (by decide)
    rw [errorFlipBits, List.modify_eq_set, List.getElem?_eq_getElem (by omega), Option.getD_some]
    apply changed
    rw [List.getElem?_eq_getElem (by omega)]
    intro same
    exact flipped _ (Option.some.inj same).symm

theorem deconstruct_accepts_iff_rr :
    (∃ code decoded, deconstruct .little (Packet.zero.holding (frame .big 1 Flag.rr.code [])) =
        some (code, decoded) ∧
      (code = 0 ↔ wordSum .little ((frame .big 1 Flag.rr.code []).take 11) % 65535 = 0)) ∧
    ∃ decoded, recvPacket .little Packet.zero
      ((frame .big 1 Flag.rr.code []).set 6 Flag.srej.code) = some (crcError, decoded) := by
  obtain ⟨accepts, rejects⟩ := deconstruct_accepts_iff .little Packet.zero
  constructor
  · exact accepts _ 11 (by decide +kernel) (by decide) (by decide) (by decide +kernel)
  · have sends := sendPacket2_construct .big
      { Packet.zero with seqNum := 1, flag := Flag.rr.code, size := 11 } 0 rfl (Nat.zero_le _)
    exact (rejects .big _ _ (by decide) (by decide) sends 6 (by decide) (by decide)).1 _
      (by decide +kernel)

end RemoteCopy
