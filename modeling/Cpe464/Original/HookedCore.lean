import Cpe464.Errors.SettingsCore
import Cpe464.Original.CopyCore

/-!
The stop-and-wait copy as it is built: both programs send through `libcpe464`, each with events and
numbers of its own. The server child goes on with the library of the server.
-/

namespace Original

open Bytes Transition
open Errors (Draw Draws PacketManager sendAll Used)
open RemoteCopy (Setup)

structure Hooked (Rate : Type) where
  copy : Copy
  serverLibrary : PacketManager Rate
  clientLibrary : PacketManager Rate

def passed (datagram : List UInt8) : Option (List UInt8) → List Flight
  | none => []
  | some sent => [if sent = datagram then .intact datagram else .changed sent]

section

variable {Rate : Type} (atMost : Draw → Rate → Bool)

/-- The channel `after` a program has sent, when what it adds to the one `before` goes through its
library. There are draws for each call. -/
def hook (library : PacketManager Rate) (draws : List Draws) (before after : List Flight) :
    Option (PacketManager Rate × List Flight) :=
  let added := (after.drop before.length).map Flight.datagram
  if draws.length = added.length then do
    let (library, sent) ← sendAll atMost library (draws.zip added)
    some (library, before ++ (List.zipWith passed added sent).flatten)
  else none

def hookServer (draws : List Draws) (hooked : Hooked Rate) (next : Copy) :
    Option (Hooked Rate) := do
  let (serverLibrary, toClient) ←
    hook atMost hooked.serverLibrary draws hooked.copy.toClient next.toClient
  some { hooked with copy := { next with toClient }, serverLibrary }

def hookClient (draws : List Draws) (hooked : Hooked Rate) (next : Copy) :
    Option (Hooked Rate) := do
  let (clientLibrary, toServer) ←
    hook atMost hooked.clientLibrary draws hooked.copy.toServer next.toServer
  some { hooked with copy := { next with toServer }, clientLibrary }

def Hooked.step (setup : Setup) (event : Event × List Draws) (hooked : Hooked Rate) :
    Option (Hooked Rate) := do
  let next ← Copy.step setup event.1 hooked.copy
  match event.1 with
  | .serverSend _ _ => hookServer atMost event.2 hooked next
  | .serverWait _ => some { hooked with copy := next }
  | .serverTimeout => hookServer atMost event.2 hooked next
  | .clientReceive _ _ => hookClient atMost event.2 hooked next
  | .clientTimeout => some { hooked with copy := next }
  | .disturb _ _ => some { hooked with copy := next }

def Hooked.Initial (strtof : List Char → Option Rate) (zero : Rate) (setup : Setup)
    (hooked : Hooked Rate) : Prop :=
  ∃ packet behind library draws toClient,
    Used strtof atMost zero library ∧ Used strtof atMost zero hooked.clientLibrary ∧
    hook atMost library draws [] (Copy.start setup packet behind).toClient =
      some (hooked.serverLibrary, toClient) ∧
    hooked.copy = { Copy.start setup packet behind with toClient }

end

end Original
