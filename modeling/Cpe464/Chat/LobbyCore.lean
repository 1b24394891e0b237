import Mathlib.Logic.Function.Basic
import Cpe464.Library.Mailbox
import Cpe464.Chat.ClientCore
import Cpe464.Chat.Table

/-!
Clients that connect, register and broadcast. A descriptor is used again when its connection
is closed, but the client of the earlier connection may still have messages to receive.
-/

namespace Chat

open Effects Mailbox

structure Call where
  client : Client
  toServer : List (List UInt8)
  fromServer : List (List UInt8)
  received : List Message

/-- The server, and for every descriptor the connections that had it, the latest one first. -/
structure Lobby where
  service : Service
  calls : Int → List Call

def Lobby.start (answeringMachine : Int) : Lobby := ⟨Service.start answeringMachine, fun _ => []⟩

def Call.turn (call : Call) (turn : Turn) : Call :=
  { call with client := turn.client, toServer := call.toServer ++ turn.sends }

def Call.take (call : Call) (message : Message) (rest : List (List UInt8)) : Call :=
  { call with fromServer := rest, received := call.received ++ [message] }

def Call.deliver (call : Call) (messages : List (List UInt8)) : Call :=
  { call with fromServer := call.fromServer ++ messages }

def deliverLatest (messages : List (List UInt8)) : List Call → List Call
  | [] => []
  | call :: earlier => call.deliver messages :: earlier

inductive LobbyEvent
  | accept (fd : Int) (handle : Handle)
  | broadcast (fd : Int) (text : List UInt8)
  | clientReceives (fd : Int) (age : Nat)
  | serverReceives (fd : Int)

section

variable [Allocator]

def Lobby.accept (lobby : Lobby) (fd : Int) (handle : Handle) : Option Lobby :=
  if handle.bytes.length ≤ maxHandleSize ∧ fd ≠ -1 ∧
      ∀ connection ∈ lobby.service.connections, connection.1 ≠ fd then do
    let service ← lobby.service.step reliable (.accept fd)
    let client : Client := ⟨handle, 0, .confirmHandle⟩
    let call := Call.turn ⟨client, [], [], []⟩ (client.init false)
    some ⟨service, Function.update lobby.calls fd (call :: lobby.calls fd)⟩
  else none

def Lobby.broadcast (lobby : Lobby) (fd : Int) (text : List UInt8) : Option Lobby :=
  match lobby.calls fd with
  | [] => none
  | call :: earlier =>
      if call.client.mode = .communicate then
        let call := call.turn (call.client.processUserInput false (.broadcast text))
        some { lobby with calls := Function.update lobby.calls fd (call :: earlier) }
      else none

def Lobby.clientReceives (lobby : Lobby) (fd : Int) (age : Nat) : Option Lobby := do
  let call ← (lobby.calls fd)[age]?
  match call.fromServer with
  | [] => none
  | bytes :: rest => do
      let message ← unpack bytes
      let turn ← call.client.receive false (some bytes)
      let calls := (lobby.calls fd).set age ((call.take message rest).turn turn)
      some { lobby with calls := Function.update lobby.calls fd calls }

def Lobby.serverReceives (lobby : Lobby) (fd : Int) : Option Lobby :=
  let server := lobby.service.server
  match lobby.calls fd with
  | [] => none
  | call :: earlier =>
      match call.toServer with
      | [] => none
      | bytes :: rest => do
          let message ← unpack bytes
          if fd ∈ server.openSockets.take server.numOpen then
            match processPacket reliable fd (some bytes) ⟨server, []⟩ with
            | some (.ok _, machine) =>
                let calls := Function.update lobby.calls fd ({ call with toServer := rest } :: earlier)
                some {
                  service := ⟨machine.server, afterMessage lobby.service.connections fd message⟩
                  calls := fun other => deliverLatest (addressed machine.sends other) (calls other) }
            | _ => none
          else none

def Lobby.step (event : LobbyEvent) (lobby : Lobby) : Option Lobby :=
  match event with
  | .accept fd handle => lobby.accept fd handle
  | .broadcast fd text => lobby.broadcast fd text
  | .clientReceives fd age => lobby.clientReceives fd age
  | .serverReceives fd => lobby.serverReceives fd

end

def Lobby.nextMessage (lobby : Lobby) (fd : Int) : Option Message :=
  (lobby.calls fd).head?.bind fun call => call.toServer.head?.bind unpack

/-- The table has room for every connection; when the server handles a broadcast every connection
is registered, and when it closes one no handle moves into a block that is too small. -/
def Settled [Allocator] (lobby : Lobby) (event : LobbyEvent) (_ : Lobby) : Prop :=
  match event with
  | .accept _ _ => lobby.service.server.numOpen + 2 ≠ lobby.service.server.capacity
  | .serverReceives fd => ∀ message ∈ lobby.nextMessage fd,
      (message.flag = 6 → ∀ connection ∈ lobby.service.connections, connection.2 ≠ []) ∧
      (Departs lobby.service.connections message → lobby.service.server.Closable fd)
  | _ => True

instance [Allocator] (lobby : Lobby) (event : LobbyEvent) (next : Lobby) :
    Decidable (Settled lobby event next) := by
  unfold Settled
  split <;> infer_instance

end Chat
