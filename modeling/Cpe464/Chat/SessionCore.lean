import Mathlib.Logic.Function.Basic
import Cpe464.Library.Mailbox
import Cpe464.Chat.ClientCore
import Cpe464.Chat.Table

/-!
The server and its registered clients, over connections that deliver whole messages in
order. Every `recv` and every command of a user is one step.
-/

namespace Chat

open Effects Mailbox

/-- A connection: the client at its far end, the messages in flight, and what has happened on it.
`received` are the messages that `recv` has returned to the client, `asked` the requests that it
has sent, `obtained` the messages that it has taken for replies; `answered` are the requests that
the server has handled, with the calls of `send` that each one led to. -/
structure Peer where
  client : Client
  toServer : List (List UInt8)
  fromServer : List (List UInt8)
  received : List Message
  shown : List Output
  asked : List Message
  obtained : List Message
  answered : List (Message × List (Int × List UInt8))

structure Session where
  service : Service
  peers : Int → Peer

def Peer.turn (peer : Peer) (turn : Turn) : Peer :=
  { peer with
    client := turn.client
    toServer := peer.toServer ++ turn.sends
    shown := peer.shown ++ turn.shown
    asked := peer.asked ++ (turn.sends.filterMap unpack).filter isRequest }

def Peer.take (peer : Peer) (message : Message) (rest : List (List UInt8)) : Peer :=
  { peer with
    fromServer := rest
    received := peer.received ++ [message]
    obtained := if peer.client.mode = .communicate then peer.obtained
      else peer.obtained ++ [message] }

def Peer.serve (peer : Peer) (message : Message) (rest : List (List UInt8))
    (sends : List (Int × List UInt8)) : Peer :=
  { peer with
    toServer := rest
    answered := if isRequest message then peer.answered ++ [(message, sends)]
      else peer.answered }

def Peer.deliver (peer : Peer) (messages : List (List UInt8)) : Peer :=
  { peer with fromServer := peer.fromServer ++ messages }

inductive SessionEvent
  | command (fd : Int) (command : Command)
  | clientReceives (fd : Int)
  | serverReceives (fd : Int)

def Session.command (session : Session) (fd : Int) (command : Command) : Option Session :=
  let peer := session.peers fd
  if peer.client.mode = .communicate then
    let peer := peer.turn (peer.client.processUserInput false command)
    some { session with peers := Function.update session.peers fd peer }
  else none

def Session.clientReceives (session : Session) (fd : Int) : Option Session :=
  let peer := session.peers fd
  match peer.fromServer with
  | [] => none
  | bytes :: rest => do
      let message ← unpack bytes
      let turn ← peer.client.receive false (some bytes)
      let peer := (peer.take message rest).turn turn
      some { session with peers := Function.update session.peers fd peer }

def Session.serverReceives [Allocator] (session : Session) (fd : Int) : Option Session :=
  let server := session.service.server
  let peer := session.peers fd
  match peer.toServer with
  | [] => none
  | bytes :: rest => do
      let message ← unpack bytes
      if fd ∈ server.openSockets.take server.numOpen then
        match processPacket reliable fd (some bytes) ⟨server, []⟩ with
        | some (.ok _, machine) =>
            let peers := Function.update session.peers fd
              (peer.serve message rest machine.sends)
            some {
              service := ⟨machine.server, afterMessage session.service.connections fd message⟩
              peers := fun other => (peers other).deliver (addressed machine.sends other) }
        | _ => none
      else none

def Session.step [Allocator] (event : SessionEvent) (session : Session) : Option Session :=
  match event with
  | .command fd command => session.command fd command
  | .clientReceives fd => session.clientReceives fd
  | .serverReceives fd => session.serverReceives fd

structure Started (session : Session) : Prop where
  consistent : Consistent session.service
  registered : ∀ connection ∈ session.service.connections, connection.2 ≠ []
  client : ∀ connection ∈ session.service.connections,
    (session.peers connection.1).client.mode = .communicate ∧
      cString (session.peers connection.1).client.handle.bytes = connection.2
  absent : ∀ fd, (∀ connection ∈ session.service.connections, connection.1 ≠ fd) →
    (session.peers fd).client.mode = .closed
  quiet : ∀ fd, ∃ client, session.peers fd = ⟨client, [], [], [], [], [], [], []⟩

/-! When nothing comes between a request and its reply. -/

def Mode.awaits : Mode → Bool
  | .requestListLength => true
  | .requestHandle _ _ => true
  | .janitor => true
  | _ => false

def Mode.continues : Mode → Bool
  | .requestListLength => true
  | .requestHandle index length => index + 1 < length
  | _ => false

def Recipient (connections : List Entry) (fd : Int) (message : Message) (recipient : Int) : Prop :=
  if message.toHandle.bytes.length = 0 then
    ∃ connection ∈ connections, connection.1 = recipient ∧
      connection.2 ≠ cString message.fromHandle.bytes
  else if ∃ connection ∈ connections, connection.2 = cString message.toHandle.bytes then
    (recipient, cString message.toHandle.bytes) ∈ connections
  else recipient = fd

instance (connections : List Entry) (fd : Int) (message : Message) (recipient : Int) :
    Decidable (Recipient connections fd message recipient) := by
  unfold Recipient
  infer_instance

/-- Requests are only sent while no message is on its way to the client; the server forwards no
message to a client whose reply it has not sent yet, gets no request for the handle at `num_open`,
and moves no handle into a block that is too small when a client exits. -/
def Undisturbed [Allocator] (session : Session) (event : SessionEvent) : Prop :=
  match event with
  | .command fd command =>
      command = .list ∨ command = .exit → (session.peers fd).fromServer = []
  | .clientReceives fd =>
      (session.peers fd).client.mode.continues → (session.peers fd).fromServer.tail = []
  | .serverReceives fd => ∀ message ∈ (session.peers fd).toServer.head?.bind unpack,
      (message.flag = 6 → ∀ connection ∈ session.service.connections,
        Recipient session.service.connections fd message connection.1 →
          (session.peers connection.1).client.mode.awaits →
            (session.peers connection.1).fromServer ≠ []) ∧
      (message.flag = 12 → ∀ value ∈ loadInt message.text,
        asInt value ≠ session.service.server.numOpen) ∧
      (message.flag = 8 → session.service.server.Closable fd)

instance [Allocator] (session : Session) (event : SessionEvent) :
    Decidable (Undisturbed session event) := by
  unfold Undisturbed
  split <;> infer_instance

end Chat
