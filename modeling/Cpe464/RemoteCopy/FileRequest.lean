import Cpe464.RemoteCopy.ChildCore
import Cpe464.RemoteCopy.RcopyCore
import Cpe464.RemoteCopy.ServerSteps

/-!
The request for a file, written by `filename` of `rcopy.c` and read by `filename` of
`server.c`. Its two numbers travel in the byte order of the host that wrote them.
-/

namespace RemoteCopy

open Bytes

/-- `send_packet`; what else is in the packet is what the stack holds. There is no result when the
data leaves the payload. -/
def sendPacket (host : ByteOrder) (stack : Packet) (data : List UInt8) (flag : UInt8)
    (seqNum : UInt32) : Option (List UInt8) :=
  if data.length ≤ maxPacketLength then
    sendPacket2 (construct host { stack with
      seqNum
      flag
      size := UInt32.ofNat (headerLength + data.length)
      payload := stack.payload.store 0 data })
  else none

/-- What `filename` copies into `buf`. -/
def requestData (host : ByteOrder) (fname : List UInt8) (bufSize windowSize : Int) : List UInt8 :=
  host.split32 (UInt32.ofInt bufSize) ++ host.split32 (UInt32.ofInt windowSize) ++ (fname ++ [0])

def answerState (received : Option (Int × Packet)) : ClientState :=
  match received with
  | none => .filename
  | some (recvCheck, packet) =>
      if recvCheck = crcError then .filename
      else if packet.flag = Flag.fnameBad.code then .done
      else .fileOk

def requestFile (host : ByteOrder) (stack : Packet) (fname : List UInt8)
    (bufSize windowSize : Int) (received : Option (Int × Packet)) :
    Option (ClientState × List UInt8) := do
  let datagram ← sendPacket host stack (requestData host fname bufSize windowSize)
    Flag.fname.code 0
  some (answerState received, datagram)

def requestOutcome (host : ByteOrder) (opens : List UInt8 → Option (List UInt8)) (eofIndex : Int)
    (packet : Packet) (fname : List UInt8) (bufSize windowSize : Int) : Outcome :=
  match opens fname with
  | none => .refused
  | some file =>
      let job := ⟨host, file, bufSize, windowSize⟩
      .started job (job.start packet eofIndex)

/-- The server works with the values that rcopy was given: `filename` finds them in the packet, the
name with its terminating NUL, and the transfer is started with them. -/
def RoundTrips (client server : ByteOrder) (fname : List UInt8) (bufSize windowSize : Int) : Prop :=
  ∀ (stack stale : Packet) (received : Option (Int × Packet)), ∃ state datagram recvLen packet,
    requestFile client stack fname bufSize windowSize received = some (state, datagram) ∧
    recvPacket server stale datagram = some (recvLen, packet) ∧
    packet.int32 server 0 = bufSize ∧ packet.int32 server 4 = windowSize ∧
    packet.copiedName recvLen = fname ++ [0] ∧
    ∀ opens eofIndex, mainLoop server opens eofIndex stale datagram =
      some (requestOutcome server opens eofIndex packet fname bufSize windowSize)

/-! What arrives. -/

theorem sendPacket_eq (host : ByteOrder) (stack : Packet) (data : List UInt8) (flag : UInt8)
    (seqNum : UInt32) (short : data.length ≤ maxPacketLength) :
    sendPacket host stack data flag seqNum = some (frame host seqNum flag data) := by
  rw [sendPacket, if_pos short, sendPacket2_construct host _ data.length rfl short]
  have stored : (stack.payload.store 0 data).bytes.take data.length = data := by
    rw [Buffer.store_start _ _ short, List.take_left]
  simp only [stored]

def transfer (client server : ByteOrder) (value : Int) : Int :=
  let stored := client.split32 (UInt32.ofInt value)
  asInt32 (server.word32 (stored.getD 0 0) (stored.getD 1 0) (stored.getD 2 0) (stored.getD 3 0))

theorem transfer_same (host : ByteOrder) (value : Int) (lower : -2 ^ 31 ≤ value)
    (upper : value < 2 ^ 31) : transfer host host value = value := by
  have number : (UInt32.ofInt value).toNat = value % 2 ^ 32 := by
    simp only [UInt32.ofInt, UInt32.toNat_ofNat']
    omega
  rw [transfer, host.word32_split32, number, asInt32]
  omega

theorem transfer_other {client server : ByteOrder} (different : client ≠ server) (bufSize : Int)
    (lower : 400 ≤ bufSize) (upper : bufSize ≤ 1400) :
    transfer client server bufSize ≠ bufSize := by
  have number : (UInt32.ofInt bufSize).toNat = bufSize := ofInt_toNat _ (by omega) (by omega)
  simp only [transfer]
  generalize UInt32.ofInt bufSize = stored at number
  have high : stored.toNat / 2 ^ 24 = 0 := by omega
  have upperHalf : stored.toNat / 2 ^ 16 = 0 := by omega
  have middle : stored.toNat / 2 ^ 8 % 2 ^ 8 = stored.toNat / 2 ^ 8 := by omega
  have positive : 1 ≤ stored.toNat / 2 ^ 8 := by omega
  have small : stored.toNat / 2 ^ 8 < 6 := by omega
  have lowest : stored.toNat % 2 ^ 8 < 256 := Nat.mod_lt _ (by decide)
  cases client with
  | little =>
      cases server with
      | little => exact absurd rfl different
      | big =>
          simp only [ByteOrder.split32, ByteOrder.word32, htonl, List.reverse_cons,
            List.reverse_nil, List.nil_append, List.cons_append, List.getD_cons_zero,
            List.getD_cons_succ, UInt8.toNat_ofNat', asInt32, high, upperHalf, middle]
          omega
  | big =>
      cases server with
      | little =>
          simp only [ByteOrder.split32, ByteOrder.word32, htonl, List.getD_cons_zero,
            List.getD_cons_succ, UInt8.toNat_ofNat', asInt32, high, upperHalf, middle]
          omega
      | big => exact absurd rfl different

theorem int32_transfer (client server : ByteOrder) (packet : Packet) (first second : Int)
    (rest : List UInt8) (stored : packet.payload.bytes = client.split32 (UInt32.ofInt first) ++
      client.split32 (UInt32.ofInt second) ++ rest) :
    packet.int32 server 0 = transfer client server first ∧
      packet.int32 server 4 = transfer client server second := by
  simp only [Packet.int32, Buffer.fetch, stored]
  cases client <;> exact ⟨rfl, rfl⟩

theorem requestData_length (host : ByteOrder) (fname : List UInt8) (bufSize windowSize : Int) :
    (requestData host fname bufSize windowSize).length = 8 + (fname.length + 1) := by
  simp [requestData]
  omega

theorem cString_copied (fname : List UInt8) (named : 0 ∉ fname) :
    (fname ++ [0]).takeWhile (· ≠ 0) = fname := by
  rw [List.takeWhile_append_of_pos (by
    intro byte member
    simp only [decide_eq_true_eq]
    rintro rfl
    exact named member)]
  simp

theorem request_arrives (client server : ByteOrder) (stack stale : Packet) (fname : List UInt8)
    (bufSize windowSize : Int) (received : Option (Int × Packet)) (short : fname.length ≤ 1000) :
    ∃ (state : ClientState) (datagram : List UInt8) (packet : Packet),
      requestFile client stack fname bufSize windowSize received = some (state, datagram) ∧
      recvPacket server stale datagram = some (((fname.length + 9 : Nat) : Int), packet) ∧
      packet.int32 server 0 = transfer client server bufSize ∧
      packet.int32 server 4 = transfer client server windowSize ∧
      packet.copiedName (fname.length + 9 : Nat) = fname ++ [0] := by
  have length := requestData_length client fname bufSize windowSize
  have fits : (requestData client fname bufSize windowSize).length ≤ maxPacketLength := by
    simp only [maxPacketLength]
    omega
  obtain ⟨packet, receives, _, _, _, payload⟩ := recvPacket_frame client server stale 0
    Flag.fname.code _ fits
  have total : (requestData client fname bufSize windowSize).length = fname.length + 9 := by omega
  rw [total] at receives
  have numbers := int32_transfer client server packet bufSize windowSize
    (fname ++ [0] ++ List.replicate (maxPacketLength -
      (requestData client fname bufSize windowSize).length) 0) (by
        rw [payload]
        simp only [requestData, List.append_assoc])
  refine ⟨answerState received,
    frame client 0 Flag.fname.code (requestData client fname bufSize windowSize), packet,
    ?_, receives, numbers.1, numbers.2, ?_⟩
  · simp only [requestFile, sendPacket_eq client stack _ _ _ fits, Option.bind_eq_bind,
      Option.bind_some]
  · rw [Packet.copiedName, payload, requestData, List.append_assoc _ (fname ++ [0])]
    rw [List.drop_left' (by simp), List.take_left' (by simp; omega)]

theorem RoundTrips.bufSize {client server : ByteOrder} {fname : List UInt8}
    {bufSize windowSize : Int} (roundTrips : RoundTrips client server fname bufSize windowSize)
    (short : fname.length ≤ 1000) : transfer client server bufSize = bufSize := by
  obtain ⟨_, _, _, packet, requests, receives, read, _⟩ := roundTrips Packet.zero Packet.zero none
  obtain ⟨_, _, _, again, arrives, stored, _⟩ := request_arrives client server Packet.zero
    Packet.zero fname bufSize windowSize none short
  rw [requests, Option.some.injEq, Prod.mk.injEq] at again
  rw [← again.2, receives, Option.some.injEq, Prod.mk.injEq] at arrives
  rw [← stored, ← arrives.2, read]

theorem filename_outcome (host : ByteOrder) (opens : List UInt8 → Option (List UInt8))
    (eofIndex : Int) (packet : Packet) (fname : List UInt8) (recvLen : Int) (long : 8 ≤ recvLen)
    (named : 0 ∉ fname) (copied : packet.copiedName recvLen = fname ++ [0]) :
    filename host opens eofIndex recvLen packet = some (requestOutcome host opens eofIndex packet
      fname (packet.int32 host 0) (packet.int32 host 4)) := by
  simp only [filename, if_neg (by omega : ¬recvLen < 8), copied, cString_copied fname named,
    requestOutcome]
  rw [if_pos (by simp)]
  cases opens fname <;> rfl

/-- A request round-trips exactly between hosts of the same byte order. -/
theorem request_roundTrips_iff (client server : ByteOrder) (fname : List UInt8)
    (bufSize windowSize : Int) (named : 0 ∉ fname) (short : fname.length ≤ 1000)
    (lower : 400 ≤ bufSize) (upper : bufSize ≤ 1400) (windowLower : -2 ^ 31 ≤ windowSize)
    (windowUpper : windowSize < 2 ^ 31) :
    RoundTrips client server fname bufSize windowSize ↔ client = server := by
  constructor
  · intro roundTrips
    by_contra different
    exact transfer_other different bufSize lower upper (roundTrips.bufSize short)
  · rintro rfl stack stale received
    obtain ⟨state, datagram, packet, requests, receives, first, second, copied⟩ :=
      request_arrives client client stack stale fname bufSize windowSize received short
    rw [transfer_same client bufSize (by omega) (by omega)] at first
    rw [transfer_same client windowSize windowLower windowUpper] at second
    refine ⟨state, datagram, _, packet, requests, receives, first, second, copied, ?_⟩
    intro opens eofIndex
    have accepted : ((fname.length + 9 : Nat) : Int) ≠ crcError := by
      simp only [crcError]
      omega
    simp only [mainLoop, receives, Option.bind_eq_bind, Option.bind_some, if_neg accepted]
    rw [filename_outcome client opens eofIndex packet fname _ (by omega) named copied, first, second]

theorem request_roundTrips_little : RoundTrips .little .little [97] 400 4 := by
  exact (request_roundTrips_iff .little .little [97] 400 4 (by decide) (by decide) (by decide)
    (by decide) (by decide) (by decide)).mpr rfl

/-- A server on SunOS reads the buffer size of a client on Linux backwards. -/
theorem request_swapped : ¬RoundTrips .little .big [97] 400 4 := by
  intro roundTrips
  exact absurd (roundTrips.bufSize (by decide)) (by decide)

end RemoteCopy
