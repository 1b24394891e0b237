import Cpe464.Original.NetworksCore
import Cpe464.RemoteCopy.Packet

/-!
What `send_buf` puts on the wire and what `recv_buf` makes of it, also when a byte is changed or
the datagram is longer than the receiver allows.
-/

namespace Original

open Bytes OnesComplement
open RemoteCopy (inCksum inCksum_eq_zero)

theorem datagram_length (host : ByteOrder) (seqNum : UInt32) (flag : UInt8) (data : List UInt8)
    (behind : UInt8) : (datagram host seqNum flag data behind).length = data.length + 8 := by
  simp [datagram]
  omega

theorem datagram_summed (host : ByteOrder) (seqNum : UInt32) (flag : UInt8) (data : List UInt8)
    (behind : UInt8) (short : data.length + 8 ≤ maxLen) :
    wordSum host (datagram host seqNum flag data behind) % 65535 = 0 ∧
      0 < wordSum host (datagram host seqNum flag data behind) := by
  simp only [maxLen] at short
  have summed := wordSum_summed host (htonl seqNum) (flag :: data ++ [behind]) (by simp)
    (by simp; omega)
  simp only [datagram, inCksum, List.take_length]
  exact summed

/-! Sending. -/

theorem packet_layout (packet : Buffer maxLen) (count : Nat) :
    packet.bytes = packet.bytes.take 4 ++ (packet.bytes.drop 4).take 2 ++
      (packet.bytes.drop 6).take 1 ++ (packet.bytes.drop 7).take count ++
        packet.bytes.drop (7 + count) := by
  have six : packet.bytes.take 6 = packet.bytes.take 4 ++ (packet.bytes.drop 4).take 2 :=
    @List.take_add _ packet.bytes 4 2
  have seven : packet.bytes.take 7 = packet.bytes.take 6 ++ (packet.bytes.drop 6).take 1 :=
    @List.take_add _ packet.bytes 6 1
  rw [← six, ← seven, ← List.take_add, List.take_append_drop]

theorem unsummed_bytes (packet : Buffer maxLen) (buf : List UInt8) (flag : UInt8)
    (seqNum : UInt32) (fits : buf.length + 7 ≤ maxLen) :
    (unsummed packet buf flag seqNum).bytes =
      htonl seqNum ++ [0, 0] ++ (flag :: buf ++ packet.bytes.drop (7 + buf.length)) := by
  have length := packet.length_eq
  have layout := packet_layout packet buf.length
  generalize frontEq : packet.bytes.take 4 = front at layout
  generalize middleEq : (packet.bytes.drop 4).take 2 = middle at layout
  generalize sixthEq : (packet.bytes.drop 6).take 1 = sixth at layout
  generalize oldEq : (packet.bytes.drop 7).take buf.length = old at layout
  generalize packet.bytes.drop (7 + buf.length) = after at *
  have frontLength : front.length = 4 := by
    rw [← frontEq, List.length_take]
    omega
  have middleLength : middle.length = 2 := by
    rw [← middleEq, List.length_take, List.length_drop]
    omega
  have sixthLength : sixth.length = 1 := by
    rw [← sixthEq, List.length_take, List.length_drop]
    omega
  have oldLength : old.length = buf.length := by
    rw [← oldEq, List.length_take, List.length_drop]
    omega
  have first := Buffer.store_bytes packet 7 buf (front ++ middle ++ sixth) old after layout
    (by simp only [List.length_append]; omega) oldLength
  have second := Buffer.store_bytes (packet.store 7 buf) 0 (htonl seqNum) [] front
    (middle ++ sixth ++ buf ++ after) (by rw [first]; simp) rfl frontLength
  have third := Buffer.store_bytes ((packet.store 7 buf).store 0 (htonl seqNum)) 6 [flag]
    (htonl seqNum ++ middle) sixth (buf ++ after) (by rw [second]; simp)
    (by simp only [List.length_append, htonl_length]; omega) sixthLength
  refine (Buffer.store_bytes _ 4 [0, 0] (htonl seqNum) middle (flag :: buf ++ after) ?_ rfl
    middleLength)
  rw [third]
  simp

theorem sendBuf_eq (host : ByteOrder) (packet : Buffer maxLen) (buf : List UInt8) (flag : UInt8)
    (seqNum : UInt32) (fits : buf.length + 8 ≤ maxLen) :
    ∃ next behind, sendBuf host packet buf flag seqNum =
      some (next, datagram host seqNum flag buf behind) ∧
        next.bytes.take (buf.length + 8) = datagram host seqNum flag buf behind := by
  have length := packet.length_eq
  have bytes := unsummed_bytes packet buf flag seqNum (by omega)
  obtain ⟨behind, after, rest⟩ := List.exists_cons_of_ne_nil
    (l := packet.bytes.drop (7 + buf.length)) (by
      intro empty
      have := congrArg List.length empty
      simp only [List.length_drop, List.length_nil] at this
      omega)
  have cut (middle : List UInt8) (two : middle.length = 2) :
      (htonl seqNum ++ middle ++ (flag :: buf ++ packet.bytes.drop (7 + buf.length))).take
        (buf.length + 8) = htonl seqNum ++ middle ++ (flag :: buf ++ [behind]) := by
    have count : buf.length + 8 = (htonl seqNum ++ middle ++ (flag :: buf ++ [behind])).length := by
      simp only [List.length_append, List.length_cons, htonl_length, List.length_nil, two]
      omega
    rw [rest, count, show htonl seqNum ++ middle ++ (flag :: buf ++ behind :: after) =
      (htonl seqNum ++ middle ++ (flag :: buf ++ [behind])) ++ after by simp, List.take_left]
  have checksum : inCksum host (unsummed packet buf flag seqNum).bytes (buf.length + 8) =
      inCksum host (htonl seqNum ++ [0, 0] ++ (flag :: buf ++ [behind]))
        (htonl seqNum ++ [0, 0] ++ (flag :: buf ++ [behind])).length := by
    rw [inCksum, bytes, cut [0, 0] rfl, inCksum, List.take_length]
  have stored := Buffer.store_bytes (unsummed packet buf flag seqNum) 4
    (host.split (inCksum host (unsummed packet buf flag seqNum).bytes (buf.length + 8)))
    (htonl seqNum) [0, 0] _ bytes rfl (by simp)
  have sent : ((unsummed packet buf flag seqNum).store 4 (host.split (inCksum host
      (unsummed packet buf flag seqNum).bytes (buf.length + 8)))).bytes.take (buf.length + 8) =
        datagram host seqNum flag buf behind := by
    rw [stored, cut _ (host.split_length _), checksum, datagram]
  refine ⟨_, behind, ?_, sent⟩
  simp only [sendBuf, if_pos fits, sent]

/-! Receiving. -/

section

variable (host : ByteOrder) (stale : Buffer maxLen) {len : Nat} (limit : len ≤ maxLen)
  (arrived : List UInt8)

include limit

theorem stored_take : ((stale.store 0 (arrived.take len)).bytes).take (arrived.take len).length =
    arrived.take len := by
  rw [Buffer.store_start _ _ (by rw [List.length_take]; omega), List.take_left]

/-- What arrives is accepted exactly when its words sum up to a positive multiple of 65535. -/
theorem recvBuf_isSome_iff : (recvBuf host stale len arrived).isSome ↔
    wordSum host (arrived.take len) % 65535 = 0 ∧ 0 < wordSum host (arrived.take len) := by
  have short : (arrived.take len).length ≤ 65536 := by
    simp only [maxLen] at limit
    rw [List.length_take]
    omega
  have accepted := inCksum_eq_zero host (stale.store 0 (arrived.take len)).bytes
    (arrived.take len).length short
  rw [stored_take stale limit] at accepted
  rw [← accepted, recvBuf]
  split
  · rename_i failed
    exact iff_of_false (by simp) failed
  · rename_i zero
    exact iff_of_true rfl (not_not.mp zero)

theorem recvBuf_none (damaged : wordSum host (arrived.take len) % 65535 ≠ 0) :
    recvBuf host stale len arrived = none := by
  rw [← Option.not_isSome_iff_eq_none, recvBuf_isSome_iff host stale limit]
  exact fun accepted => damaged accepted.1

end

theorem recvBuf_fields (host sender : ByteOrder) (stale : Buffer maxLen) {len : Nat}
    (limit : len ≤ maxLen) (seqNum : UInt32) (checksum : List UInt8) (even : checksum.length = 2)
    (flag : UInt8) (data : List UInt8) (behind : UInt8) (arrived : List UInt8)
    (cut : arrived.take len = htonl seqNum ++ checksum ++ (flag :: data ++ [behind]))
    (summed : wordSum sender (arrived.take len) % 65535 = 0 ∧
      0 < wordSum sender (arrived.take len)) :
    recvBuf host stale len arrived = some ⟨data.length, flag, seqNum, data⟩ := by
  have accepted : (recvBuf host stale len arrived).isSome := by
    rw [recvBuf_isSome_iff host stale limit, wordSum_dvd_iff host sender, Nat.pos_iff_ne_zero, ne_eq,
      wordSum_eq_zero_iff host sender, ← ne_eq, ← Nat.pos_iff_ne_zero]
    exact summed
  have short : (arrived.take len).length ≤ maxLen := by
    rw [List.length_take]
    omega
  have bytes := Buffer.store_start stale _ short
  simp only [recvBuf] at accepted ⊢
  split at accepted
  · cases accepted
  · rename_i zero
    rw [if_neg zero]
    generalize stale.store 0 (arrived.take len) = dataBuf at *
    rw [cut] at bytes ⊢
    obtain ⟨first, second, rfl⟩ := List.length_eq_two.mp even
    have number := ntohl_htonl seqNum
    have count : (htonl seqNum ++ [first, second] ++ (flag :: data ++ [behind])).length =
        data.length + 8 := by
      simp
      omega
    have read : (dataBuf.bytes.drop 7).take data.length = data := by
      rw [bytes]
      simp [htonl]
    simp only [count, Nat.add_sub_cancel, read, Option.some.injEq, Received.mk.injEq, and_true]
    refine ⟨by omega, ?_, ?_⟩
    · rw [Buffer.fetch, bytes]
      rfl
    · rw [Buffer.fetch, Buffer.fetch, Buffer.fetch, Buffer.fetch, bytes]
      exact number

theorem recvBuf_datagram (sender receiver : ByteOrder) (stale : Buffer maxLen) (len : Nat)
    (limit : len ≤ maxLen) (seqNum : UInt32) (flag : UInt8) (data : List UInt8) (behind : UInt8)
    (fits : data.length + 8 ≤ len) :
    recvBuf receiver stale len (datagram sender seqNum flag data behind) =
        some ⟨data.length, flag, seqNum, data⟩ ∧
      ∀ index byte, (datagram sender seqNum flag data behind)[index]? ≠ none →
        (datagram sender seqNum flag data behind)[index]? ≠ some byte →
        recvBuf receiver stale len ((datagram sender seqNum flag data behind).set index byte) =
          none := by
  have length := datagram_length sender seqNum flag data behind
  have summed := datagram_summed sender seqNum flag data behind (by omega)
  have whole : (datagram sender seqNum flag data behind).take len =
      datagram sender seqNum flag data behind := List.take_of_length_le (by omega)
  constructor
  · exact recvBuf_fields receiver sender stale limit seqNum _ (sender.split_length _) flag data
      behind _ whole (whole.symm ▸ summed)
  · intro index byte inside different
    have below : index < (datagram sender seqNum flag data behind).length := by
      rw [← List.getElem?_eq_none_iff.not.trans Nat.not_le]
      exact inside
    apply recvBuf_none receiver stale limit
    rw [List.take_of_length_le (by rw [List.length_set]; omega)]
    apply wordSum_set_mod receiver _ index byte below
    · intro same
      rw [List.getElem?_eq_getElem below, same] at different
      exact different rfl
    · exact (wordSum_dvd_iff sender receiver _).mp summed.1

/-- A datagram within the limit arrives as it was sent, on a host of either byte order and whatever
the arrays held, and does not arrive at all when one of its bytes was changed. -/
theorem recvBuf_sendBuf (sender receiver : ByteOrder) (packet stale : Buffer maxLen)
    (buf : List UInt8) (flag : UInt8) (seqNum : UInt32) (len : Nat) (limit : len ≤ maxLen)
    (fits : buf.length + 8 ≤ len) :
    ∃ next sent, sendBuf sender packet buf flag seqNum = some (next, sent) ∧
      recvBuf receiver stale len sent = some ⟨buf.length, flag, seqNum, buf⟩ ∧
      ∀ index byte, sent[index]? ≠ none → sent[index]? ≠ some byte →
        recvBuf receiver stale len (sent.set index byte) = none := by
  obtain ⟨next, behind, sends, _⟩ := sendBuf_eq sender packet buf flag seqNum (by omega)
  exact ⟨next, _, sends,
    recvBuf_datagram sender receiver stale len limit seqNum flag buf behind fits⟩

theorem recvBuf_sendBuf_hello : ∃ next sent,
    sendBuf .big (Buffer.zero maxLen) [104, 101, 108, 108, 111] Flag.data.code 7 =
      some (next, sent) ∧
    recvBuf .little (Buffer.zero maxLen) 1400 sent =
      some ⟨5, Flag.data.code, 7, [104, 101, 108, 108, 111]⟩ ∧
    ∀ index byte, sent[index]? ≠ none → sent[index]? ≠ some byte →
      recvBuf .little (Buffer.zero maxLen) 1400 (sent.set index byte) = none :=
  recvBuf_sendBuf .big .little _ _ [104, 101, 108, 108, 111] Flag.data.code 7 1400 (by decide)
    (by decide)

end Original
