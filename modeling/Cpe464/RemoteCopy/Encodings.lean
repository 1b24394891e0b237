import Cpe464.RemoteCopy.RoundTrip

/-!
The encodings that a packet has: `construct` undoes `deconstruct` up to the two
representations of zero in the checksum field.
-/

namespace RemoteCopy

open Bytes OnesComplement

def fieldSum (host : ByteOrder) (seqNum : UInt32) (flag : UInt8) (data : List UInt8) : UInt16 :=
  inCksum host (encoding seqNum [0, 0] flag data) (encoding seqNum [0, 0] flag data).length

theorem frame_eq (host : ByteOrder) (seqNum : UInt32) (flag : UInt8) (data : List UInt8) :
    frame host seqNum flag data =
      encoding seqNum (host.split (fieldSum host seqNum flag data)) flag data := rfl

theorem encoding_length (seqNum : UInt32) (first second : UInt8) (flag : UInt8)
    (data : List UInt8) :
    (encoding seqNum [first, second] flag data).length = headerLength + data.length := by
  simp [encoding, headerLength]
  omega

theorem encoding_wordSum (host : ByteOrder) (seqNum : UInt32) (first second : UInt8)
    (flag : UInt8) (data : List UInt8) :
    wordSum host (encoding seqNum [first, second] flag data) =
      wordSum host (encoding seqNum [0, 0] flag data) + host.word first second := by
  have parts (checksum : List UInt8) (even : checksum.length = 2) :
      wordSum host (encoding seqNum checksum flag data) =
        wordSum host (htonl seqNum) + wordSum host checksum + wordSum host
          (flag :: htonl (UInt32.ofNat (headerLength + data.length)) ++ data) := by
    rw [encoding, wordSum_append host _ _ (by simp [even]), wordSum_append host _ _ (by simp)]
  rw [parts [first, second] rfl, parts [0, 0] rfl]
  cases host <;> simp [wordSum, ByteOrder.word] <;> omega

theorem word_full_iff (host : ByteOrder) (first second : UInt8) :
    host.word first second = 65535 ↔ [first, second] = [255, 255] := by
  have firstBound := first.toNat_lt
  have secondBound := second.toNat_lt
  have full (byte : UInt8) : byte = 255 ↔ byte.toNat = 255 := by
    rw [← UInt8.toNat_inj]
    rfl
  simp only [List.cons.injEq, and_true, full]
  cases host <;> simp only [ByteOrder.word] <;> omega

theorem encoding_accepted_iff (host sender : ByteOrder) (seqNum : UInt32) (first second : UInt8)
    (flag : UInt8) (data : List UInt8) (short : data.length ≤ maxPacketLength) :
    wordSum host (encoding seqNum [first, second] flag data) % 65535 = 0 ↔
      [first, second] = sender.split (fieldSum sender seqNum flag data) ∨
        (fieldSum sender seqNum flag data = 0 ∧ [first, second] = [255, 255]) := by
  have positive := encoding_wordSum_pos sender seqNum [0, 0] flag data short
  have bound : wordSum sender (encoding seqNum [0, 0] flag data) < 2 ^ 32 :=
    wordSum_lt sender _ (by
      rw [encoding_length]
      simp only [headerLength, maxPacketLength] at short ⊢
      omega)
  have checksum : (fieldSum sender seqNum flag data).toNat =
      65535 - fold (wordSum sender (encoding seqNum [0, 0] flag data)) := by
    rw [fieldSum, inCksum_toNat, List.take_length]
  have word := sender.word_lt first second
  have below := fold_lt (wordSum sender (encoding seqNum [0, 0] flag data))
  have same : sender.word first second = (fieldSum sender seqNum flag data).toNat ↔
      [first, second] = sender.split (fieldSum sender seqNum flag data) := by
    rw [← sender.split_word first second]
    constructor
    · intro equal
      rw [equal, UInt16.ofNat_toNat]
    · intro equal
      have value := congrArg UInt16.toNat (sender.split_inj equal)
      rw [UInt16.toNat_ofNat'] at value
      omega
  have zero : fieldSum sender seqNum flag data = 0 ↔
      fold (wordSum sender (encoding seqNum [0, 0] flag data)) = 65535 := by
    rw [← UInt16.toNat_inj, checksum, UInt16.toNat_zero]
    omega
  rw [wordSum_dvd_iff host sender, encoding_wordSum, complement_iff _ _ bound positive word,
    ← checksum, same, ← zero, word_full_iff]

/-! What `deconstruct` reads of the bytes that were received. -/

theorem raw_layout (raw : Buffer (maxPacketLength + headerLength)) :
    raw.bytes = htonl (ntohl (raw.fetch 0) (raw.fetch 1) (raw.fetch 2) (raw.fetch 3)) ++
      [raw.fetch 4, raw.fetch 5] ++
        (raw.fetch 6 :: htonl (sizeField raw) ++ raw.bytes.drop headerLength) := by
  have next (index : Nat) (inside : index < headerLength) :
      raw.bytes.drop index = raw.fetch index :: raw.bytes.drop (index + 1) := by
    have bound : index < raw.bytes.length := by
      rw [raw.length_bytes]
      simp only [headerLength] at inside ⊢
      omega
    rw [List.drop_eq_getElem_cons bound, Buffer.fetch, List.getD_eq_getElem?_getD,
      List.getElem?_eq_getElem bound, Option.getD_some]
  have start : raw.bytes = raw.bytes.drop 0 := rfl
  rw [sizeField, htonl_ntohl, htonl_ntohl]
  conv_lhs =>
    rw [start, next 0 (by decide), next 1 (by decide), next 2 (by decide), next 3 (by decide),
      next 4 (by decide), next 5 (by decide), next 6 (by decide), next 7 (by decide),
      next 8 (by decide), next 9 (by decide), next 10 (by decide)]
  rfl

theorem raw_encoding (raw : Buffer (maxPacketLength + headerLength)) (count : Nat)
    (size : (sizeField raw).toNat = headerLength + count) (short : count ≤ maxPacketLength) :
    raw.bytes.take (headerLength + count) =
      encoding (ntohl (raw.fetch 0) (raw.fetch 1) (raw.fetch 2) (raw.fetch 3))
        [raw.fetch 4, raw.fetch 5] (raw.fetch 6) ((raw.bytes.drop headerLength).take count) := by
  have total := raw.length_bytes
  have data : ((raw.bytes.drop headerLength).take count).length = count := by
    rw [List.length_take, List.length_drop]
    omega
  have field : UInt32.ofNat (headerLength + count) = sizeField raw := by
    rw [← size, UInt32.ofNat_toNat]
  have header : (htonl (ntohl (raw.fetch 0) (raw.fetch 1) (raw.fetch 2) (raw.fetch 3)) ++
      [raw.fetch 4, raw.fetch 5] ++ raw.fetch 6 :: htonl (sizeField raw)).length =
        headerLength := by
    simp [headerLength]
  conv_lhs => rw [raw_layout raw]
  rw [encoding, data, field, ← List.append_assoc, List.take_append, header,
    List.take_of_length_le (by omega), Nat.add_sub_cancel_left, List.append_assoc]

def Encodes (host : ByteOrder) (seqNum : UInt32) (flag : UInt8) (data datagram : List UInt8) :
    Prop :=
  datagram.length = headerLength + data.length ∧
    ∀ stale : Packet, ∃ decoded, deconstruct host (stale.holding datagram) = some (0, decoded) ∧
      decoded.seqNum = seqNum ∧ decoded.flag = flag ∧
      decoded.size.toNat = headerLength + data.length ∧
      decoded.payload.bytes = data ++ List.replicate (maxPacketLength - data.length) 0

def canonical (datagram : List UInt8) : List UInt8 :=
  if (datagram.drop 4).take 2 = [255, 255] then datagram.take 4 ++ [0, 0] ++ datagram.drop 6
  else datagram

theorem canonical_encoding (seqNum : UInt32) (first second flag : UInt8) (data : List UInt8) :
    canonical (encoding seqNum [first, second] flag data) =
      if [first, second] = [255, 255] then encoding seqNum [0, 0] flag data
      else encoding seqNum [first, second] flag data := rfl

theorem fieldSum_ne_full (host : ByteOrder) (seqNum : UInt32) (flag : UInt8) (data : List UInt8)
    (short : data.length ≤ maxPacketLength) :
    host.split (fieldSum host seqNum flag data) ≠ [255, 255] := by
  intro full
  have positive := encoding_wordSum_pos host seqNum [0, 0] flag data short
  have bound : wordSum host (encoding seqNum [0, 0] flag data) < 2 ^ 32 :=
    wordSum_lt host _ (by
      rw [encoding_length]
      simp only [headerLength, maxPacketLength] at short ⊢
      omega)
  have nonzero := mt (fold_eq_zero _ bound).mp (Nat.ne_of_gt positive)
  have split : host.split 65535 = [255, 255] := by cases host <;> rfl
  have value := congrArg UInt16.toNat (host.split_inj (full.trans split.symm))
  have top : (65535 : UInt16).toNat = 65535 := rfl
  rw [fieldSum, inCksum_toNat, List.take_length, top] at value
  omega

theorem frame_eq_canonical {host : ByteOrder} (sender : ByteOrder) {seqNum : UInt32}
    {first second flag : UInt8} {data : List UInt8} (short : data.length ≤ maxPacketLength)
    (accepted : wordSum host (encoding seqNum [first, second] flag data) % 65535 = 0) :
    frame sender seqNum flag data = canonical (encoding seqNum [first, second] flag data) := by
  rw [canonical_encoding, frame_eq]
  rcases (encoding_accepted_iff host sender seqNum first second flag data short).mp accepted with
    same | ⟨zero, full⟩
  · rw [same, if_neg (fieldSum_ne_full sender seqNum flag data short)]
  · rw [if_pos full, zero]
    cases sender <;> rfl

theorem holding_decodes (host : ByteOrder) (stale : Packet) (datagram : List UInt8) (count : Nat)
    (size : (sizeField (stale.holding datagram).raw).toNat = headerLength + count)
    (short : count ≤ maxPacketLength) (present : headerLength + count ≤ datagram.length) :
    ∃ code decoded first second, deconstruct host (stale.holding datagram) = some (code, decoded) ∧
      (code = 0 ↔ wordSum host (datagram.take (headerLength + count)) % 65535 = 0) ∧
      decoded.size.toNat = headerLength + count ∧
      (decoded.payload.bytes.take count).length = count ∧
      datagram.take (headerLength + count) = encoding decoded.seqNum [first, second] decoded.flag
        (decoded.payload.bytes.take count) := by
  have bytes := raw_encoding (stale.holding datagram).raw count size short
  have taken := holding_take stale datagram (headerLength + count) present (by omega)
  have length := (stale.holding datagram).raw.length_bytes
  obtain ⟨code, decoded, decodes, accepted⟩ := deconstruct_accepts host (stale.holding datagram)
    (by omega) (by omega)
  rw [size, taken] at accepted
  rcases deconstruct_cases host (stale.holding datagram) with
    ⟨large, _⟩ | ⟨small, _⟩ | ⟨_, _, other, same, number, flag, decodedSize, payload⟩
  · omega
  · omega
  rw [decodes, Option.some.injEq, Prod.mk.injEq] at same
  obtain ⟨_, rfl⟩ := same
  have block : (((stale.holding datagram).raw.bytes.drop headerLength).take count).length =
      count := by
    rw [List.length_take, List.length_drop]
    omega
  have data : decoded.payload.bytes.take count =
      ((stale.holding datagram).raw.bytes.drop headerLength).take count := by
    rw [payload, size, Nat.add_sub_cancel_left, List.take_left' block]
  refine ⟨code, decoded, (stale.holding datagram).raw.fetch 4, (stale.holding datagram).raw.fetch 5,
    decodes, accepted, by rw [decodedSize, size], by rw [data, block], ?_⟩
  rw [number, flag, data, ← bytes, taken]

theorem deconstruct_size {host : ByteOrder} {packet decoded : Packet}
    (decodes : deconstruct host packet = some (0, decoded)) :
    decoded.size = sizeField packet.raw := by
  rcases deconstruct_cases host packet with
    ⟨_, other, rejects⟩ | ⟨_, faults⟩ | ⟨_, _, other, accepts, _, _, size, _⟩
  · rw [decodes, Option.some.injEq, Prod.mk.injEq] at rejects
    exact absurd rejects.1 (by decide)
  · rw [decodes] at faults
    cases faults
  · rw [decodes, Option.some.injEq, Prod.mk.injEq] at accepts
    rw [accepts.2, size]

theorem construct_canonical (host sender : ByteOrder) (stale : Packet) (datagram : List UInt8)
    (count : Nat) (size : (sizeField (stale.holding datagram).raw).toNat = headerLength + count)
    (short : count ≤ maxPacketLength) (present : headerLength + count ≤ datagram.length)
    (accepted : (inCksum host datagram (headerLength + count)).toNat = 0) :
    ∃ decoded, deconstruct host (stale.holding datagram) = some (0, decoded) ∧
      (construct sender decoded).raw.bytes.take (headerLength + count) =
        canonical (datagram.take (headerLength + count)) := by
  obtain ⟨code, decoded, first, second, decodes, zero, decodedSize, data, bytes⟩ :=
    holding_decodes host stale datagram count size short present
  have sum := ((inCksum_eq_zero host datagram (headerLength + count) (by
    simp only [headerLength, maxPacketLength] at short ⊢
    omega)).mp accepted).1
  refine ⟨decoded, by rw [decodes, zero.mpr sum], ?_⟩
  rw [bytes] at sum ⊢
  rw [← decodedSize, construct_take sender decoded count decodedSize short]
  exact frame_eq_canonical sender (by omega) sum

theorem encodes_iff (host sender : ByteOrder) (seqNum : UInt32) (flag : UInt8)
    (data datagram : List UInt8) (short : data.length ≤ maxPacketLength) :
    Encodes host seqNum flag data datagram ↔ datagram = frame sender seqNum flag data ∨
      (fieldSum sender seqNum flag data = 0 ∧
        datagram = encoding seqNum [255, 255] flag data) := by
  have decoded (first second : UInt8)
      (accepted : wordSum host (encoding seqNum [first, second] flag data) % 65535 = 0) :
      Encodes host seqNum flag data (encoding seqNum [first, second] flag data) := by
    have length := encoding_length seqNum first second flag data
    refine ⟨length, fun stale => ?_⟩
    exact deconstruct_encoding host _ seqNum [first, second] rfl flag data _ short accepted
      (holding_bytes stale _ (by omega))
  constructor
  · rintro ⟨length, every⟩
    obtain ⟨packet, decodes, rfl, rfl, size, payload⟩ := every Packet.zero
    have field : (sizeField (Packet.zero.holding datagram).raw).toNat =
        headerLength + data.length := by
      rw [← deconstruct_size decodes, size]
    obtain ⟨code, other, first, second, again, zero, _, _, bytes⟩ :=
      holding_decodes host Packet.zero datagram data.length field short (by omega)
    rw [decodes, Option.some.injEq, Prod.mk.injEq] at again
    obtain ⟨rfl, rfl⟩ := again
    have sum := zero.mp rfl
    rw [payload, List.take_left, List.take_of_length_le (by omega)] at bytes
    rw [List.take_of_length_le (by omega), bytes] at sum
    rw [bytes]
    rcases (encoding_accepted_iff host sender _ first second _ data short).mp sum with
      same | ⟨zero, full⟩
    · left
      rw [frame_eq, same]
    · right
      rw [full]
      exact ⟨zero, rfl⟩
  · rintro (rfl | ⟨zero, rfl⟩)
    · obtain ⟨first, second, split⟩ := List.length_eq_two.mp
        (sender.split_length (fieldSum sender seqNum flag data))
      rw [frame_eq, split]
      exact decoded first second
        ((encoding_accepted_iff host sender _ _ _ _ data short).mpr (.inl split.symm))
    · exact decoded 255 255
        ((encoding_accepted_iff host sender _ _ _ _ data short).mpr (.inr ⟨zero, rfl⟩))

/-- `construct` rebuilds an accepted datagram up to a checksum field of 0xFFFF, and a packet has
one accepted encoding, or two when its checksum is zero. -/
theorem construct_deconstruct (host sender : ByteOrder) :
    (∀ (stale : Packet) (datagram : List UInt8) (size : Nat),
      size = (sizeField (stale.holding datagram).raw).toNat → headerLength ≤ size →
      size ≤ maxPacketLength + headerLength → size ≤ datagram.length →
      (inCksum host datagram size).toNat = 0 →
      ∃ decoded, deconstruct host (stale.holding datagram) = some (0, decoded) ∧
        (construct sender decoded).raw.bytes.take size = canonical (datagram.take size)) ∧
    ∀ (seqNum : UInt32) (flag : UInt8) (data datagram : List UInt8),
      data.length ≤ maxPacketLength →
      (Encodes host seqNum flag data datagram ↔ datagram = frame sender seqNum flag data ∨
        (fieldSum sender seqNum flag data = 0 ∧
          datagram = encoding seqNum [255, 255] flag data)) := by
  constructor
  · intro stale datagram size sizeEq lower upper present accepted
    obtain ⟨count, rfl⟩ := Nat.exists_eq_add_of_le lower
    exact construct_canonical host sender stale datagram count sizeEq.symm (by omega) present
      accepted
  · intro seqNum flag data datagram short
    exact encodes_iff host sender seqNum flag data datagram short

/-- An RR packet whose words sum up to zero, in the encoding that `construct` does not use. -/
theorem construct_deconstruct_full : ∃ decoded,
    deconstruct .little (Packet.zero.holding [0, 0, 241, 255, 255, 255, 3, 0, 0, 0, 11]) =
      some (0, decoded) ∧
    (construct .big decoded).raw.bytes.take 11 = [0, 0, 241, 255, 0, 0, 3, 0, 0, 0, 11] := by
  exact (construct_deconstruct .little .big).1 Packet.zero
    [0, 0, 241, 255, 255, 255, 3, 0, 0, 0, 11] 11 (by decide +kernel) (by decide) (by decide)
    (by decide) (by decide +kernel)

end RemoteCopy
