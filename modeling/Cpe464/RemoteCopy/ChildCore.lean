import Cpe464.Library.Transition
import Cpe464.RemoteCopy.ServerCore

/-!
A server child with whatever arrives on its socket: the request that `main` hands to
`process_client`, and then any datagram at any time.
-/

namespace RemoteCopy

open Bytes

structure Job where
  host : ByteOrder
  file : List UInt8
  bufSize : Int
  windowSize : Int

/-- `read` of `buf_size` bytes, a `size_t`, into the payload. There is no result when the length
was negative, or when more bytes are read than the payload holds. -/
def Job.read (job : Job) (fails : Bool) (offset : Nat) : Option (Option (List UInt8)) :=
  if job.bufSize < 0 then none
  else if fails then some none
  else
    let data := (job.file.drop offset).take job.bufSize.toNat
    if data.length ≤ maxPacketLength then some (some data) else none

structure Child where
  server : Server
  sent : List (List UInt8)

/-- Where a function leaves a local packet uninitialised, `stack` is what it holds. -/
inductive ChildEvent
  | send (readFails arrived : Bool)
  | process (stack : Packet) (datagram : List UInt8)
  | wait (arrived : Bool)
  | bye (packet : Packet) (received : Option (Packet × List UInt8))

/-- What `send_data` reads, which it does only while the window is open. -/
def Child.read (job : Job) (readFails : Bool) (child : Child) : Option (Option (List UInt8)) :=
  if isClosed child.server.window then some none else job.read readFails child.server.offset

def childSend (job : Job) (readFails arrived : Bool) (child : Child) : Option Child := do
  let chunk ← child.read job readFails
  let step ← sendData job.host chunk arrived child.server
  some ⟨step.1, child.sent ++ step.2⟩

def childProcess (job : Job) (stack : Packet) (datagram : List UInt8) (child : Child) :
    Option Child := do
  let received ← recvPacket job.host stack datagram
  let step ← process received child.server
  some { child with server := step.1 }

def childWait (arrived : Bool) (child : Child) : Option Child := do
  let step ← waitOnAck arrived child.server
  some { child with server := step.1 }

def Job.receive (job : Job) : Option (Packet × List UInt8) → Option (Option (Int × Packet))
  | none => some none
  | some (stack, datagram) => (recvPacket job.host stack datagram).map some

def childBye (job : Job) (packet : Packet) (received : Option (Packet × List UInt8))
    (child : Child) : Option Child := do
  let received ← job.receive received
  let step ← bye job.host packet received child.server
  some { child with server := step.1 }

def childStep (job : Job) (event : ChildEvent) (child : Child) : Option Child :=
  match event with
  | .send readFails arrived =>
      if child.server.state = .sendData then childSend job readFails arrived child else none
  | .process stack datagram =>
      if child.server.state = .process then childProcess job stack datagram child else none
  | .wait arrived => if child.server.state = .waitOnAck then childWait arrived child else none
  | .bye packet received =>
      if child.server.state = .bye then childBye job packet received child else none

/-- The child after FNAME_OK. `process_client` does not set `eof_index`. -/
def Job.start (job : Job) (packet : Packet) (eofIndex : Int) : Child where
  server := {
    state := .sendData
    window := initWindow job.windowSize
    packet
    offset := 0
    eofIndex
    waitCount := 0
    byeCount := 0 }
  sent := []

/-! The request. -/

inductive Outcome
  | ignored
  | refused
  | started (job : Job) (child : Child)

/-- `memcpy` of four bytes of the payload into an `int32_t`. -/
def Packet.int32 (host : ByteOrder) (packet : Packet) (offset : Nat) : Int :=
  asInt32 (host.word32 (packet.payload.fetch offset) (packet.payload.fetch (offset + 1))
    (packet.payload.fetch (offset + 2)) (packet.payload.fetch (offset + 3)))

/-- What `filename` copies into `fname`. -/
def Packet.copiedName (packet : Packet) (recvLen : Int) : List UInt8 :=
  (packet.payload.bytes.drop 8).take (recvLen - 8).toNat

/-- `filename`, where `opens` is the file system. There is no result when the length of the copy
is negative, and when the name does not end within the copied bytes. -/
def filename (host : ByteOrder) (opens : List UInt8 → Option (List UInt8)) (eofIndex : Int)
    (recvLen : Int) (packet : Packet) : Option Outcome :=
  if recvLen < 8 then none
  else
    let fname := packet.copiedName recvLen
    if 0 ∈ fname then
      match opens (fname.takeWhile (· ≠ 0)) with
      | none => some .refused
      | some file =>
          let job := ⟨host, file, packet.int32 host 0, packet.int32 host 4⟩
          some (.started job (job.start packet eofIndex))
    else none

/-- A round of `main` with a datagram: every packet without a CRC error is handed to a child. -/
def mainLoop (host : ByteOrder) (opens : List UInt8 → Option (List UInt8)) (eofIndex : Int)
    (packet : Packet) (datagram : List UInt8) : Option Outcome := do
  let (recvLen, packet) ← recvPacket host packet datagram
  if recvLen = crcError then some .ignored
  else filename host opens eofIndex recvLen packet

end RemoteCopy
