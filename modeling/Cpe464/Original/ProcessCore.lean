import Cpe464.Original.CopyCore
import Cpe464.RemoteCopy.FileRequest

/-!
The server of `original/server.c` with anything that arrives on its sockets: the request that
`main` gives to a child, and the loop of `process_client`. The request is written by `filename` of
`original/rcopy.c`.
-/

namespace Original

open Bytes Transition
open RemoteCopy (Setup crcError asInt32)

/-! The request. -/

def requestData (host : ByteOrder) (fname : List UInt8) (bufSize : Int) : List UInt8 :=
  host.split32 (UInt32.ofInt bufSize) ++ (fname ++ [0])

def requestFile (host : ByteOrder) (packet : Buffer maxLen) (fname : List UInt8) (bufSize : Int) :
    Option (List UInt8) :=
  (sendBuf host packet (requestData host fname bufSize) Flag.fname.code 0).map Prod.snd

inductive Outcome
  | ignored
  | refused
  | started (file : List UInt8) (bufSize : Int)
deriving DecidableEq

/-- `filename` of the server, where `opens` is the file system. There is no result when the length
of the copy is negative, and when the name does not end within the copied bytes. -/
def filename (host : ByteOrder) (opens : List UInt8 → Option (List UInt8)) (buf : Buffer maxLen)
    (recvLen : Int) : Option Outcome :=
  let bufSize := asInt32 (host.word32 (buf.fetch 0) (buf.fetch 1) (buf.fetch 2) (buf.fetch 3))
  if recvLen < 4 then none
  else
    let fname := (buf.bytes.drop 4).take (recvLen - 4).toNat
    if 0 ∈ fname then
      match opens (fname.takeWhile (· ≠ 0)) with
      | none => some .refused
      | some file => some (.started file bufSize)
    else none

def mainLoop (host : ByteOrder) (opens : List UInt8 → Option (List UInt8))
    (buf stale : Buffer maxLen) (datagram : List UInt8) : Option Outcome :=
  match recvBuf host stale 1000 datagram with
  | none => some .ignored
  | some received =>
      if received.length = crcError then some .ignored
      else filename host opens (buf.store 0 received.data) received.length

/-! The child. -/

def waitOnAck (host : ByteOrder) (arrived : Option (Buffer maxLen × List UInt8))
    (server : Server) : Server :=
  let server := { server with sendCount := server.sendCount + 1 }
  if server.sendCount > 5 then { server with state := .done } else receiveAck host arrived server

/-- What a round of the loop gets from outside: the result of `read`, the byte that is sent with
END_OF_FILE, and what `select_call` finds. -/
structure Outside where
  readFails : Bool
  unset : UInt8
  arrived : Option (Buffer maxLen × List UInt8)

/-- The body of the loop behind FILENAME. -/
def processClient (setup : Setup) (outside : Outside) (server : Server) : Option ServerStep :=
  match server.state with
  | .sendData =>
      let chunk := RemoteCopy.readFile setup outside.readFails server.offset
      sendData setup.serverHost chunk outside.unset server
  | .waitOnAck => some (waitOnAck setup.serverHost outside.arrived server, [])
  | .timeoutOnAck => some (timeoutOnAck server)
  | .done => none
  | .exited => none

def Server.Over (server : Server) : Prop := server.state = .done ∨ server.state = .exited

instance : DecidablePred Server.Over :=
  fun server => inferInstanceAs (Decidable (server.state = .done ∨ server.state = .exited))

def child (setup : Setup) : Nat → (Nat → Outside) → Server → Option ServerStep :=
  loop Server.Over (processClient setup)

def Server.start (packet : Buffer maxLen) : Server where
  state := .sendData
  packet
  packetLen := 0
  offset := 0
  seqNum := 1
  sendCount := 0

end Original
