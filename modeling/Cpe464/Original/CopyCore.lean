import Cpe464.Library.Channel
import Cpe464.Library.Transition
import Cpe464.RemoteCopy.TransferCore
import Cpe464.Original.NetworksCore

/-!
The stop-and-wait copy of `original/rcopy.c` and `original/server.c`: a server child from its
answer to the file name on, the socket of rcopy that asked for the file, and the network. A
datagram is changed in at most one byte. There is no step where the behaviour of the program is
undefined, as on the overflow of a number.
-/

namespace Original

open Bytes Channel
open RemoteCopy (Setup crcError asInt32 Direction)

inductive ServerState
  | sendData
  | waitOnAck
  | timeoutOnAck
  | done
  | exited
deriving DecidableEq

structure Server where
  state : ServerState
  packet : Buffer maxLen
  packetLen : Nat
  offset : Nat
  seqNum : Int
  sendCount : Nat

abbrev ServerStep := Server × List (List UInt8)

/-- `send_data`, with the result of `read` (`none` is -1). `unset` is the byte of the local array
that is sent with END_OF_FILE. -/
def sendData (host : ByteOrder) (chunk : Option (List UInt8)) (unset : UInt8) (server : Server) :
    Option ServerStep :=
  match chunk with
  | none => some ({ server with state := .done }, [])
  | some [] => do
      let (packet, sent) ← sendBuf host server.packet [unset] Flag.endOfFile.code
        (UInt32.ofInt server.seqNum)
      some ({ server with state := .done, packet, packetLen := sent.length }, [sent])
  | some data => do
      let (packet, sent) ← sendBuf host server.packet data Flag.data.code
        (UInt32.ofInt server.seqNum)
      if server.seqNum + 1 < 2 ^ 31 then
        some ({ server with
          state := .waitOnAck
          packet
          packetLen := sent.length
          offset := server.offset + data.length
          seqNum := server.seqNum + 1 }, [sent])
      else none

/-- `wait_on_ack` from `select_call` on: `none` when it has timed out, or else the datagram and
what the local array holds. -/
def receiveAck (host : ByteOrder) (arrived : Option (Buffer maxLen × List UInt8))
    (server : Server) : Server :=
  match arrived with
  | none => { server with state := .timeoutOnAck }
  | some (stale, datagram) =>
      match recvBuf host stale 1000 datagram with
      | none => { server with state := .waitOnAck }
      | some received =>
          if received.length = crcError then { server with state := .waitOnAck }
          else if received.flag ≠ Flag.ack.code then { server with state := .exited }
          else { server with state := .sendData, sendCount := 0 }

def timeoutOnAck (server : Server) : ServerStep :=
  ({ server with state := .waitOnAck }, [server.packet.bytes.take server.packetLen])

/-- The states of rcopy with one socket. In `again` it has closed the socket and asks for the
file with a new one. -/
inductive ClientState
  | filename
  | again
  | recvData
  | done
deriving DecidableEq

structure Client where
  state : ClientState
  expected : Int

abbrev ClientStep := Client × List (List UInt8) × List (List UInt8)

/-- `filename` of rcopy from `recv_buf` on, and the opening of the output file. -/
def receiveAnswer (host : ByteOrder) (stale : Buffer maxLen) (datagram : List UInt8) :
    ClientState :=
  match recvBuf host stale 1000 datagram with
  | none => .again
  | some received =>
      if received.length = crcError then .again
      else if received.flag = Flag.fnameBad.code then .done
      else .recvData

/-- `recv_data` of rcopy from `recv_buf` on. The acknowledgement is sent with the first byte of
the uninitialised `packet`. -/
def recvData (host : ByteOrder) (stale packet : Buffer maxLen) (datagram : List UInt8)
    (client : Client) : Option ClientStep :=
  match recvBuf host stale 1400 datagram with
  | none => some (client, [], [])
  | some received =>
      if received.length = crcError then some (client, [], [])
      else do
        let (_, ack) ← sendBuf host packet (packet.bytes.take 1) Flag.ack.code 0
        if received.flag = Flag.endOfFile.code then some ({ client with state := .done }, [], [ack])
        else if asInt32 received.seqNum.toNat = client.expected then
          if client.expected + 1 < 2 ^ 31 then
            some ({ client with expected := client.expected + 1 }, [received.data], [ack])
          else none
        else some (client, [], [ack])

/-! The network. -/

inductive Flight
  | intact (datagram : List UInt8)
  | changed (datagram : List UInt8)
deriving DecidableEq

def Flight.datagram : Flight → List UInt8
  | intact datagram => datagram
  | changed datagram => datagram

structure Damage where
  index : Nat
  byte : UInt8

def Damage.spoiled (damage : Damage) : Flight → Option Flight
  | .intact datagram => do
      let old ← datagram[damage.index]?
      if old = damage.byte then none
      else some (.changed (datagram.set damage.index damage.byte))
  | .changed _ => none

/-! The two programs together. -/

/-- The two parties, what is in flight, and what has happened: what rcopy has written, whether it
has got END_OF_FILE, and whether the server has sent it. -/
structure Copy where
  server : Server
  client : Client
  toServer : List Flight
  toClient : List Flight
  output : List (List UInt8)
  ended : Bool
  finished : Bool

inductive Event
  | serverSend (readFails : Bool) (unset : UInt8)
  | serverWait (arrived : Option (Buffer maxLen))
  | serverTimeout
  | clientReceive (stale packet : Buffer maxLen)
  | clientTimeout
  | disturb (direction : Direction) (fault : Fault Damage)

def serverSend (setup : Setup) (readFails : Bool) (unset : UInt8) (copy : Copy) : Option Copy := do
  let chunk := RemoteCopy.readFile setup readFails copy.server.offset
  let (server, sent) ← sendData setup.serverHost chunk unset copy.server
  some { copy with
    server
    toClient := copy.toClient ++ sent.map .intact
    finished := copy.finished || chunk == some [] }

/-- `wait_on_ack`. After five times nothing is received any more. -/
def serverWait (setup : Setup) (arrived : Option (Buffer maxLen)) (copy : Copy) : Option Copy :=
  let server := { copy.server with sendCount := copy.server.sendCount + 1 }
  if server.sendCount > 5 then some { copy with server := { server with state := .done } }
  else
    match arrived with
    | none => some { copy with server := receiveAck setup.serverHost none server }
    | some stale =>
        match copy.toServer with
        | [] => none
        | flight :: rest => some { copy with
            server := receiveAck setup.serverHost (some (stale, flight.datagram)) server
            toServer := rest }

def serverTimeout (copy : Copy) : Copy :=
  let (server, sent) := timeoutOnAck copy.server
  { copy with server, toClient := copy.toClient ++ sent.map .intact }

def clientReceive (setup : Setup) (stale packet : Buffer maxLen) (copy : Copy) : Option Copy :=
  match copy.toClient with
  | [] => none
  | flight :: rest =>
      match copy.client.state with
      | .filename => some { copy with
          client := { copy.client with
            state := receiveAnswer setup.clientHost stale flight.datagram }
          toClient := rest }
      | .again => none
      | .recvData => do
          let (client, written, sent) ←
            recvData setup.clientHost stale packet flight.datagram copy.client
          some { copy with
            client
            toClient := rest
            toServer := copy.toServer ++ sent.map .intact
            output := copy.output ++ written
            ended := copy.ended || client.state == .done }
      | .done => none

def clientTimeout (copy : Copy) : Option Copy :=
  match copy.client.state with
  | .filename => some { copy with client := { copy.client with state := .again } }
  | .again => none
  | .recvData => some { copy with client := { copy.client with state := .done } }
  | .done => none

def disturbed (direction : Direction) (fault : Fault Damage) (copy : Copy) : Option Copy :=
  match direction with
  | .toServer => (disturb Damage.spoiled copy.toServer fault).map ({ copy with toServer := · })
  | .toClient => (disturb Damage.spoiled copy.toClient fault).map ({ copy with toClient := · })

def Copy.step (setup : Setup) (event : Event) (copy : Copy) : Option Copy :=
  match event with
  | .serverSend readFails unset =>
      if copy.server.state = .sendData then serverSend setup readFails unset copy else none
  | .serverWait arrived =>
      if copy.server.state = .waitOnAck then serverWait setup arrived copy else none
  | .serverTimeout =>
      if copy.server.state = .timeoutOnAck then some (serverTimeout copy) else none
  | .clientReceive stale packet => clientReceive setup stale packet copy
  | .clientTimeout => clientTimeout copy
  | .disturb direction fault => disturbed direction fault copy

def Copy.start (setup : Setup) (packet : Buffer maxLen) (behind : UInt8) : Copy where
  server := {
    state := .sendData
    packet
    packetLen := 0
    offset := 0
    seqNum := 1
    sendCount := 0 }
  client := ⟨.filename, 1⟩
  toServer := []
  toClient := [.intact (datagram setup.serverHost 0 Flag.fnameOk.code [] behind)]
  output := []
  ended := false
  finished := false

def Initial (setup : Setup) (copy : Copy) : Prop :=
  ∃ packet behind, copy = Copy.start setup packet behind

abbrev Reachable (setup : Setup) : Copy → Prop :=
  Transition.Reach (Initial setup) (Copy.step setup) fun _ _ _ => True

def twoChunks : Setup where
  file := List.replicate 513 65
  bufSize := 512
  windowSize := 1
  serverHost := .little
  clientHost := .big
  bufSize_pos := by decide
  bufSize_le := by decide
  windowSize_pos := by decide

end Original
