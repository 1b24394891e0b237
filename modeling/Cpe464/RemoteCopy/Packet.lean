import Mathlib.Data.List.Basic
import Cpe464.RemoteCopy.PacketCore

/-!
What travels on the wire. Every packet is sent as a `frame`, whatever stale bytes
its arrays hold, and a frame is received as the fields it was built from on a host
of either byte order. The last section states what `recv_packet` accepts.
-/

namespace RemoteCopy

open Bytes OnesComplement

/-! Checksums. -/

theorem inCksum_toNat (host : ByteOrder) (addr : List UInt8) (len : Nat) :
    (inCksum host addr len).toNat = 65535 - fold (wordSum host (addr.take len)) := by
  simp only [inCksum, UInt16.toNat_ofNat']
  omega

theorem inCksum_eq_zero (host : ByteOrder) (addr : List UInt8) (len : Nat) (short : len ≤ 65536) :
    (inCksum host addr len).toNat = 0 ↔
      wordSum host (addr.take len) % 65535 = 0 ∧ 0 < wordSum host (addr.take len) := by
  have bound : wordSum host (addr.take len) < 2 ^ 32 :=
    wordSum_lt host _ (by rw [List.length_take]; omega)
  rw [inCksum_toNat, ← fold_full_iff _ bound]
  have below := fold_lt (wordSum host (addr.take len))
  omega

theorem frame_length (host : ByteOrder) (seqNum : UInt32) (flag : UInt8) (data : List UInt8) :
    (frame host seqNum flag data).length = headerLength + data.length := by
  simp [frame, headerLength]
  omega

theorem frame_wordSum (host : ByteOrder) (seqNum : UInt32) (flag : UInt8) (data : List UInt8)
    (short : data.length ≤ maxPacketLength) :
    wordSum host (frame host seqNum flag data) % 65535 = 0 := by
  simp only [maxPacketLength] at short
  simp only [frame]
  generalize restEq : flag :: htonl (UInt32.ofNat (headerLength + data.length)) ++ data = rest
  have restLength : rest.length ≤ 1405 := by
    rw [← restEq]
    simp only [List.cons_append, List.length_cons, List.length_append, htonl_length]
    omega
  have blankSum : wordSum host (htonl seqNum ++ [0, 0] ++ rest) =
      wordSum host (htonl seqNum) + wordSum host rest := by
    rw [wordSum_append host _ _ (by simp), wordSum_append host _ _ (by simp)]
    cases host <;> simp [wordSum, ByteOrder.word]
  have bound : wordSum host (htonl seqNum ++ [0, 0] ++ rest) < 2 ^ 32 :=
    wordSum_lt host _ (by simp; omega)
  have cancels := complement_cancels _ bound
  rw [wordSum_append host _ _ (by simp), wordSum_append host _ _ (by simp), word_split,
    inCksum_toNat, List.take_length]
  rw [blankSum] at cancels ⊢
  rw [← cancels]
  congr 1
  omega

def encoding (seqNum : UInt32) (checksum : List UInt8) (flag : UInt8) (data : List UInt8) :
    List UInt8 :=
  htonl seqNum ++ checksum ++ (flag :: htonl (UInt32.ofNat (headerLength + data.length)) ++ data)

theorem encoding_wordSum_pos (receiver : ByteOrder) (seqNum : UInt32) (checksum : List UInt8)
    (flag : UInt8) (data : List UInt8) (short : data.length ≤ maxPacketLength) :
    0 < wordSum receiver (encoding seqNum checksum flag data) := by
  have contained (byte : UInt8)
      (member : byte ∈ htonl (UInt32.ofNat (headerLength + data.length))) :
      byte ∈ encoding seqNum checksum flag data :=
    List.mem_append_right _ (List.mem_append_left _ (List.mem_cons_of_mem _ member))
  have size : (UInt32.ofNat (headerLength + data.length)).toNat = 11 + data.length := by
    rw [UInt32.toNat_ofNat']
    simp only [headerLength, maxPacketLength] at short ⊢
    omega
  generalize UInt32.ofNat (headerLength + data.length) = value at contained size
  simp only [maxPacketLength] at short
  by_cases low : value.toNat % 256 = 0
  · apply wordSum_pos_of_mem receiver _ (contained (UInt8.ofNat (value.toNat / 2 ^ 8)) ?_)
    · rw [UInt8.toNat_ofNat']
      omega
    · simp [htonl]
  · apply wordSum_pos_of_mem receiver _ (contained (UInt8.ofNat value.toNat) ?_)
    · rw [UInt8.toNat_ofNat']
      omega
    · simp [htonl]

/-! Encoding. -/

theorem unsummed_bytes (packet : Packet) :
    (unsummed packet).bytes = htonl packet.seqNum ++ [0, 0] ++
      (packet.flag :: htonl packet.size ++ packet.payload.bytes) := by
  have zeros : (Buffer.zero (maxPacketLength + headerLength)).bytes =
      [] ++ List.replicate 4 0 ++ ([0, 0] ++ ([0] ++ (List.replicate 4 0 ++
        List.replicate maxPacketLength 0))) := by
    simp only [Buffer.zero_bytes, maxPacketLength, headerLength]
    rfl
  refine (Buffer.store_bytes _ 11 packet.payload.bytes
    (htonl packet.seqNum ++ [0, 0] ++ [packet.flag] ++ htonl packet.size)
    (List.replicate maxPacketLength 0) [] ?_ rfl (by simp)).trans (by simp)
  refine (Buffer.store_bytes _ 7 (htonl packet.size)
    (htonl packet.seqNum ++ [0, 0] ++ [packet.flag]) (List.replicate 4 0)
    (List.replicate maxPacketLength 0) ?_ rfl rfl).trans (List.append_nil _).symm
  refine (Buffer.store_bytes _ 6 [packet.flag] (htonl packet.seqNum ++ [0, 0]) [0]
    (List.replicate 4 0 ++ List.replicate maxPacketLength 0) ?_ rfl rfl).trans
    (List.append_assoc _ _ _).symm
  exact (Buffer.store_bytes _ 0 (htonl packet.seqNum) [] (List.replicate 4 0) _
    zeros rfl rfl).trans (by simp)

theorem construct_take (host : ByteOrder) (packet : Packet) (count : Nat)
    (size : packet.size.toNat = headerLength + count) (short : count ≤ maxPacketLength) :
    (construct host packet).raw.bytes.take packet.size.toNat =
      frame host packet.seqNum packet.flag (packet.payload.bytes.take count) := by
  have dataLength : (packet.payload.bytes.take count).length = count := by
    simp [short]
  have sizeField : UInt32.ofNat (headerLength + count) = packet.size := by
    rw [← size, UInt32.ofNat_toNat]
  have cut (middle : List UInt8) (length : middle.length = 2) :
      (htonl packet.seqNum ++ middle ++ (packet.flag :: htonl packet.size ++
        packet.payload.bytes)).take (headerLength + count) =
      htonl packet.seqNum ++ middle ++ (packet.flag :: htonl packet.size ++
        packet.payload.bytes.take count) := by
    have header : (htonl packet.seqNum ++ middle ++ packet.flag :: htonl packet.size).length =
        headerLength := by
      simp [length, headerLength]
    rw [← List.append_assoc, List.take_append, header, List.take_of_length_le (by omega),
      Nat.add_sub_cancel_left, List.append_assoc]
  have stored : (construct host packet).raw.bytes = htonl packet.seqNum ++
      host.split (inCksum host (unsummed packet).bytes packet.size.toNat) ++
        (packet.flag :: htonl packet.size ++ packet.payload.bytes) :=
    Buffer.store_bytes _ 4 _ (htonl packet.seqNum) [0, 0] _ (unsummed_bytes packet) rfl (by simp)
  have checksum : inCksum host (unsummed packet).bytes packet.size.toNat =
      inCksum host (htonl packet.seqNum ++ [0, 0] ++ (packet.flag :: htonl packet.size ++
        packet.payload.bytes.take count)) (headerLength + count) := by
    rw [unsummed_bytes, size, ← cut [0, 0] rfl]
    simp only [inCksum, List.take_take, Nat.min_self]
  rw [stored, checksum, size, cut _ (by simp)]
  have total : (htonl packet.seqNum ++ [0, 0] ++ (packet.flag :: htonl packet.size ++
      packet.payload.bytes.take count)).length = headerLength + count := by
    simp [dataLength, headerLength]
    omega
  simp only [frame, dataLength, sizeField, total]

/-! Decoding. -/

theorem encoding_header (seqNum : UInt32) (checksum : List UInt8) (even : checksum.length = 2)
    (flag : UInt8) (data rest : List UInt8) (raw : Buffer (maxPacketLength + headerLength))
    (stored : raw.bytes = encoding seqNum checksum flag data ++ rest) :
    ntohl (raw.fetch 0) (raw.fetch 1) (raw.fetch 2) (raw.fetch 3) = seqNum ∧
      raw.fetch 6 = flag ∧
      ntohl (raw.fetch 7) (raw.fetch 8) (raw.fetch 9) (raw.fetch 10) =
        UInt32.ofNat (headerLength + data.length) ∧
      raw.bytes.drop headerLength = data ++ rest := by
  obtain ⟨first, second, rfl⟩ := List.length_eq_two.mp even
  simp only [encoding] at stored
  have sequence := ntohl_htonl seqNum
  have size := ntohl_htonl (UInt32.ofNat (headerLength + data.length))
  simp only [Buffer.fetch, stored]
  exact ⟨sequence, rfl, size, rfl⟩

theorem copied_length (size : UInt32) :
    (size - UInt32.ofNat headerLength).toNat =
      if size.toNat < 11 then 2 ^ 32 + size.toNat - 11 else size.toNat - 11 := by
  have bound := size.toNat_lt
  rw [UInt32.toNat_sub, UInt32.toNat_ofNat']
  split <;> simp only [headerLength] <;> omega

/-- The three ways through `deconstruct`, told apart by the size field. -/
theorem deconstruct_cases (host : ByteOrder) (packet : Packet) :
    (maxPacketLength + headerLength < (sizeField packet.raw).toNat ∧
      ∃ decoded, deconstruct host packet = some (crcError, decoded)) ∨
    ((sizeField packet.raw).toNat < headerLength ∧ deconstruct host packet = none) ∨
    (headerLength ≤ (sizeField packet.raw).toNat ∧
      (sizeField packet.raw).toNat ≤ maxPacketLength + headerLength ∧
      ∃ decoded, deconstruct host packet = some
          (((inCksum host packet.raw.bytes (sizeField packet.raw).toNat).toNat : Int), decoded) ∧
        decoded.seqNum = ntohl (packet.raw.fetch 0) (packet.raw.fetch 1) (packet.raw.fetch 2)
          (packet.raw.fetch 3) ∧
        decoded.flag = packet.raw.fetch 6 ∧ decoded.size = sizeField packet.raw ∧
        decoded.payload.bytes = (packet.raw.bytes.drop headerLength).take
            ((sizeField packet.raw).toNat - headerLength) ++
          List.replicate (maxPacketLength - ((sizeField packet.raw).toNat - headerLength)) 0) := by
  have length := copied_length (sizeField packet.raw)
  have bound := (sizeField packet.raw).toNat_lt
  have total := packet.raw.length_eq
  by_cases large : (sizeField packet.raw).toNat > maxPacketLength + headerLength
  · left
    simp only [deconstruct, large, if_true]
    exact ⟨trivial, _, rfl⟩
  by_cases small : (sizeField packet.raw).toNat < headerLength
  · right; left
    have outside : (sizeField packet.raw - UInt32.ofNat headerLength).toNat > maxPacketLength := by
      simp only [headerLength, maxPacketLength] at small length ⊢
      rw [length, if_pos small]
      omega
    simp only [deconstruct, large, if_false, outside, if_true]
    exact ⟨small, trivial⟩
  · right; right
    simp only [headerLength] at small
    rw [if_neg small] at length
    have inside : ¬ (sizeField packet.raw - UInt32.ofNat headerLength).toNat > maxPacketLength := by
      simp only [headerLength, maxPacketLength] at large length ⊢
      omega
    refine ⟨by simp only [headerLength]; omega, by omega, ?_⟩
    simp only [deconstruct, large, if_false, inside]
    refine ⟨_, rfl, rfl, rfl, rfl, ?_⟩
    have block : ((packet.raw.bytes.drop headerLength).take
        (sizeField packet.raw - UInt32.ofNat headerLength).toNat).length =
          (sizeField packet.raw).toNat - 11 := by
      rw [List.length_take, List.length_drop, total, length]
      simp only [headerLength, maxPacketLength] at large ⊢
      omega
    rw [Buffer.zero_store _ (by rw [block, ← length]; omega), block, length]

theorem recvPacket_eq (host : ByteOrder) (packet : Packet) (datagram : List UInt8)
    (fits : datagram.length ≤ maxPacketLength + headerLength) :
    recvPacket host packet datagram =
      (deconstruct host { packet with raw := packet.raw.store 0 datagram }).map fun decoded =>
        (if decoded.1 ≠ 0 then crcError else (datagram.length : Int) - headerLength, decoded.2) := by
  simp only [recvPacket, List.take_of_length_le fits]
  cases deconstruct host _ with
  | none => rfl
  | some decoded => by_cases bad : decoded.1 ≠ 0 <;> simp [bad]

theorem deconstruct_encoding (receiver : ByteOrder) (packet : Packet) (seqNum : UInt32)
    (checksum : List UInt8) (even : checksum.length = 2) (flag : UInt8) (data rest : List UInt8)
    (short : data.length ≤ maxPacketLength)
    (accepted : wordSum receiver (encoding seqNum checksum flag data) % 65535 = 0)
    (stored : packet.raw.bytes = encoding seqNum checksum flag data ++ rest) :
    ∃ decoded, deconstruct receiver packet = some (0, decoded) ∧
      decoded.seqNum = seqNum ∧ decoded.flag = flag ∧
      decoded.size.toNat = headerLength + data.length ∧
      decoded.payload.bytes = data ++ List.replicate (maxPacketLength - data.length) 0 := by
  have length : (encoding seqNum checksum flag data).length = headerLength + data.length := by
    simp [encoding, headerLength, even]
    omega
  have sum : (inCksum receiver (encoding seqNum checksum flag data)
      (headerLength + data.length)).toNat = 0 := by
    rw [inCksum_eq_zero _ _ _ (by simp only [headerLength, maxPacketLength] at short ⊢; omega),
      ← length, List.take_length]
    exact ⟨accepted, encoding_wordSum_pos receiver seqNum checksum flag data short⟩
  obtain ⟨sequence, kind, size, behind⟩ := encoding_header seqNum checksum even flag data rest _ stored
  have sizeValue : (UInt32.ofNat (headerLength + data.length)).toNat =
      headerLength + data.length := by
    rw [UInt32.toNat_ofNat']
    simp only [headerLength, maxPacketLength] at short ⊢
    omega
  rcases deconstruct_cases receiver packet with
    ⟨large, _⟩ | ⟨small, _⟩ | ⟨_, _, decoded, decodes, decodedSeq, decodedFlag, decodedSize, payload⟩
  · simp only [sizeField, size, sizeValue] at large
    omega
  · simp only [sizeField, size, sizeValue] at small
    omega
  · simp only [sizeField, size, sizeValue, stored] at decodes payload decodedSize
    rw [decodes]
    refine ⟨decoded, ?_, decodedSeq.trans sequence, decodedFlag.trans kind, ?_, ?_⟩
    · rw [inCksum, List.take_append_of_le_length (by omega), ← inCksum, sum]
      rfl
    · rw [decodedSize, sizeValue]
    · rw [payload, ← stored, behind, Nat.add_sub_cancel_left, List.take_left]

theorem deconstruct_frame (host receiver : ByteOrder) (packet : Packet) (seqNum : UInt32)
    (flag : UInt8) (data rest : List UInt8) (short : data.length ≤ maxPacketLength)
    (stored : packet.raw.bytes = frame host seqNum flag data ++ rest) :
    ∃ decoded, deconstruct receiver packet = some (0, decoded) ∧
      decoded.seqNum = seqNum ∧ decoded.flag = flag ∧
      decoded.size.toNat = headerLength + data.length ∧
      decoded.payload.bytes = data ++ List.replicate (maxPacketLength - data.length) 0 := by
  exact deconstruct_encoding receiver packet seqNum _ (host.split_length _) flag data rest short
    ((wordSum_dvd_iff host receiver _).mp (frame_wordSum host seqNum flag data short)) stored

theorem recvPacket_frame (host receiver : ByteOrder) (stale : Packet) (seqNum : UInt32)
    (flag : UInt8) (data : List UInt8) (short : data.length ≤ maxPacketLength) :
    ∃ packet, recvPacket receiver stale (frame host seqNum flag data) =
        some ((data.length : Int), packet) ∧
      packet.seqNum = seqNum ∧ packet.flag = flag ∧
      packet.size.toNat = headerLength + data.length ∧
      packet.payload.bytes = data ++ List.replicate (maxPacketLength - data.length) 0 := by
  have length := frame_length host seqNum flag data
  have fits : (frame host seqNum flag data).length ≤ maxPacketLength + headerLength := by omega
  obtain ⟨decoded, decodes, fields⟩ := deconstruct_frame host receiver
    { stale with raw := stale.raw.store 0 (frame host seqNum flag data) } seqNum flag data _ short
    (Buffer.store_start stale.raw _ (by omega))
  refine ⟨decoded, ?_, fields⟩
  rw [recvPacket_eq _ _ _ fits, decodes]
  simp [length]

/-! What `recv_packet` accepts. -/

/-- A datagram is handled consistently when it is rejected, or when its size field,
the bytes that were summed, the bytes that were copied and the returned length all
belong to the bytes that were received. -/
def ConsistentLength (host : ByteOrder) (packet : Packet) (datagram : List UInt8) : Prop :=
  ∃ result decoded, recvPacket host packet datagram = some (result, decoded) ∧
    (result = crcError ∨
      (decoded.size.toNat = datagram.length ∧ headerLength ≤ decoded.size.toNat ∧
        decoded.size.toNat ≤ maxPacketLength + headerLength ∧
        (inCksum host datagram datagram.length).toNat = 0 ∧
        decoded.payload.bytes = datagram.drop headerLength ++
          List.replicate (maxPacketLength - (decoded.size.toNat - headerLength)) 0 ∧
        result = (decoded.size.toNat : Int) - headerLength))

/-- The inputs that `recv_packet` handles consistently: the size field is too large, or it is
at least a header and is the received length, or the checksum over it fails. A datagram of ten
bytes is rejected in any case, since its length minus the header is `CRC_ERROR` itself. -/
def LengthSafe (host : ByteOrder) (packet : Packet) (datagram : List UInt8) : Prop :=
  let raw := packet.raw.store 0 datagram
  let size := (sizeField raw).toNat
  maxPacketLength + headerLength < size ∨
    (headerLength ≤ size ∧ (size = datagram.length ∨ datagram.length = 10 ∨
      (inCksum host raw.bytes size).toNat ≠ 0))

instance (host : ByteOrder) (packet : Packet) (datagram : List UInt8) :
    Decidable (LengthSafe host packet datagram) :=
  inferInstanceAs (Decidable (_ ∨ (_ ∧ (_ ∨ _ ∨ _))))

theorem consistentLength_iff (host : ByteOrder) (packet : Packet) (datagram : List UInt8)
    (fits : datagram.length ≤ maxPacketLength + headerLength) :
    ConsistentLength host packet datagram ↔ LengthSafe host packet datagram := by
  have bytes := Buffer.store_start packet.raw datagram (by omega)
  simp only [ConsistentLength, LengthSafe, recvPacket_eq host packet datagram fits]
  generalize rawEq : packet.raw.store 0 datagram = raw at bytes
  have received : (raw.bytes.take datagram.length) = datagram := by rw [bytes, List.take_left]
  rcases deconstruct_cases host { packet with raw } with
    ⟨large, decoded, decodes⟩ | ⟨small, decodes⟩ |
    ⟨header, short, decoded, decodes, _, _, decodedSize, payload⟩
  · exact ⟨fun _ => Or.inl large, fun _ => ⟨crcError, decoded, by simp [decodes, crcError], Or.inl rfl⟩⟩
  · constructor
    · rintro ⟨result, decoded, received, _⟩
      simp [decodes] at received
    · rintro (large | ⟨header, _⟩)
      · simp only [headerLength] at small large
        omega
      · simp only at small
        omega
  · simp only at header short decodes decodedSize payload
    simp only [decodes, Option.map_some, Option.some.injEq, Prod.mk.injEq, ne_eq, Int.natCast_eq_zero]
    by_cases failed : (inCksum host raw.bytes (sizeField raw).toNat).toNat = 0
    · simp only [failed, not_true_eq_false, if_false, or_false]
      constructor
      · rintro ⟨result, decoded', ⟨returned, same⟩, rejected | ⟨sizeEq, _⟩⟩
        · right
          refine ⟨header, Or.inr ?_⟩
          rw [← returned] at rejected
          simp only [crcError, headerLength] at rejected
          omega
        · right
          rw [← same, decodedSize] at sizeEq
          exact ⟨header, Or.inl sizeEq⟩
      · rintro (large | ⟨_, sizeEq | ten⟩)
        · omega
        · rw [sizeEq] at failed payload
          refine ⟨_, decoded, ⟨rfl, rfl⟩, Or.inr ⟨?_, ?_, ?_, ?_, ?_, ?_⟩⟩
          · rw [decodedSize, sizeEq]
          · rw [decodedSize]
            exact header
          · rw [decodedSize]
            exact short
          · rw [inCksum, List.take_length, ← received, ← inCksum]
            exact failed
          · rw [payload, decodedSize, sizeEq, ← List.drop_take, received]
          · rw [decodedSize, sizeEq]
        · refine ⟨_, decoded, ⟨rfl, rfl⟩, Or.inl ?_⟩
          rw [ten]
          rfl
    · simp only [failed, not_false_eq_true, if_true, or_true, and_true]
      exact ⟨fun _ => Or.inr header, fun _ => ⟨crcError, decoded, ⟨rfl, rfl⟩, Or.inl rfl⟩⟩

theorem consistentLength_rr :
    ConsistentLength .little Packet.zero (frame .big 1 Flag.rr.code []) :=
  (consistentLength_iff .little Packet.zero (frame .big 1 Flag.rr.code []) (by decide)).mpr
    (by decide +kernel)

/-- A data packet of 244 bytes whose lowest size byte was flipped has size zero, and the
copy of `size - HEADER_LENGTH` bytes leaves both arrays. -/
theorem flippedSize_inconsistent : ¬ConsistentLength .little Packet.zero
    (errorFlipBits (frame .little 1 Flag.data.code (List.replicate 244 65)) 10) := by
  rintro ⟨result, decoded, received, _⟩
  have faults : recvPacket .little Packet.zero
      (errorFlipBits (frame .little 1 Flag.data.code (List.replicate 244 65)) 10) = none := by
    decide +kernel
  rw [faults] at received
  cases received

end RemoteCopy
