import Cpe464.RemoteCopy.ChildCore
import Cpe464.RemoteCopy.FileRequest

/-!
`recv_packet` with the connection it fills in, and the loops of `rcopy.c` and of
`process_client` with the address that their datagrams go to.
-/

namespace RemoteCopy

open Bytes

structure Address where
  ip : UInt32
  port : UInt16
deriving DecidableEq

def addressLength : Nat := 16

structure Connection where
  remote : Address
  len : Nat
deriving DecidableEq

/-- A datagram with its sender, and the packet on the stack that it is received into. -/
structure Arrival where
  stack : Packet
  source : Address
  datagram : List UInt8

/-- `recv_packet`. The sender is stored by `recvfrom`, before the packet is judged, and the length
of its address behind that. -/
def recvPacketFrom (host : ByteOrder) (connection : Connection) (arrival : Arrival) :
    Option ((Int × Packet) × Connection) :=
  let received := arrival.datagram.take (maxPacketLength + headerLength)
  let connection := { connection with remote := arrival.source }
  match deconstruct host { arrival.stack with raw := arrival.stack.raw.store 0 received } with
  | none => none
  | some (code, packet) =>
      if code ≠ 0 then some ((crcError, packet), connection)
      else some (((received.length : Int) - headerLength, packet),
        { connection with len := addressLength })

def receiveFrom (host : ByteOrder) (connection : Connection) :
    Option Arrival → Option (Option (Int × Packet) × Connection)
  | none => some (none, connection)
  | some arrival => (recvPacketFrom host connection arrival).map fun (received, connection) =>
      (some received, connection)

/-! rcopy, with the loop of `main`. -/

/-- The variables of `main`, the calls that the states have made, and whether the socket of
`server` is open. -/
structure RcopyMain where
  state : ClientState
  selectCount : Int
  window : Window
  server : Connection
  connected : Bool
  actions : List ClientAction

def RcopyMain.start (size : Int) (server : Connection) : RcopyMain where
  state := .filename
  selectCount := 0
  window := initWindow size
  server
  connected := false
  actions := []

inductive RcopyEvent
  | setup (target : Address)
  | receive (received : Option Arrival)
  | openOutput (opened : Bool)

def RcopyMain.Listening (rcopy : RcopyMain) : Prop :=
  (rcopy.state = .filename ∧ rcopy.connected = true) ∨ rcopy.state = .recvData ∨
    rcopy.state = .missing

instance (rcopy : RcopyMain) : Decidable rcopy.Listening :=
  inferInstanceAs (Decidable ((_ ∧ _) ∨ _ ∨ _))

/-- What a state does with what it receives. FILENAME closes its socket when it stays. -/
def RcopyMain.receive (host : ByteOrder) (received : Option Arrival) (rcopy : RcopyMain) :
    Option RcopyMain := do
  let (outcome, server) ← receiveFrom host rcopy.server received
  if rcopy.state = .filename then
    let answer := answerState outcome
    let selectCount := rcopy.selectCount + 1
    let state := if selectCount > 9 then .done else answer
    some { rcopy with server, selectCount, state, connected := answer ≠ .filename }
  else do
    let (state, window, actions) ← clientStep rcopy.window outcome rcopy.state
    some { rcopy with server, state, window, actions := rcopy.actions ++ actions }

def RcopyMain.step (host : ByteOrder) (event : RcopyEvent) (rcopy : RcopyMain) :
    Option RcopyMain :=
  match event with
  | .setup target =>
      if rcopy.state = .filename ∧ rcopy.connected = false then
        some { rcopy with server := ⟨target, addressLength⟩, connected := true }
      else none
  | .receive received => if rcopy.Listening then rcopy.receive host received else none
  | .openOutput opened =>
      if rcopy.state = .fileOk then
        some { rcopy with selectCount := 0, state := if opened then .recvData else .done }
      else none

/-! The child of the server. -/

structure ServerChild where
  child : Child
  client : Connection

def ServerChild.start (job : Job) (packet : Packet) (eofIndex : Int) (remote : Address) :
    ServerChild :=
  ⟨job.start packet eofIndex, remote, addressLength⟩

inductive ServerChildEvent
  | send (readFails arrived : Bool)
  | process (arrival : Arrival)
  | wait (arrived : Bool)
  | bye (packet : Packet) (received : Option Arrival)

def ServerChildEvent.childEvent : ServerChildEvent → ChildEvent
  | send readFails arrived => .send readFails arrived
  | process arrival => .process arrival.stack arrival.datagram
  | wait arrived => .wait arrived
  | bye packet received =>
      .bye packet (received.map fun arrival => (arrival.stack, arrival.datagram))

/-- What `recv_packet` gets; BYE does not call it any more after ten times. -/
def ServerChildEvent.received (server : Server) : ServerChildEvent → Option Arrival
  | send _ _ => none
  | process arrival => some arrival
  | wait _ => none
  | bye _ received => if server.byeCount + 1 > 10 then none else received

def ServerChild.step (job : Job) (event : ServerChildEvent) (server : ServerChild) :
    Option ServerChild := do
  let child ← childStep job event.childEvent server.child
  let (_, client) ← receiveFrom job.host server.client (event.received server.child.server)
  some ⟨child, client⟩

end RemoteCopy
