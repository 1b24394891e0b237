import Cpe464.Chat.SessionCore

/-!
What the users write to each other in a session: everything that the clients have sent is kept, for
comparison with what arrives.
-/

namespace Chat

structure Correspondence where
  session : Session
  posted : Int → List (List UInt8)

def Correspondence.post (correspondence : Correspondence) (fd : Int) (next : Session) :
    Correspondence where
  session := next
  posted := Function.update correspondence.posted fd (correspondence.posted fd ++
    (next.peers fd).toServer.drop (correspondence.session.peers fd).toServer.length)

def Correspondence.step [Allocator] (event : SessionEvent) (correspondence : Correspondence) :
    Option Correspondence := do
  let next ← Session.step event correspondence.session
  match event with
  | .command fd _ => some (correspondence.post fd next)
  | .clientReceives fd => some (correspondence.post fd next)
  | .serverReceives _ => some { correspondence with session := next }

/-- When the server lets a client go, no handle moves into a block that is too small for it. -/
def Spares [Allocator] (correspondence : Correspondence) (event : SessionEvent)
    (_ : Correspondence) : Prop :=
  match event with
  | .serverReceives fd => ∀ message ∈ (correspondence.session.peers fd).toServer.head?.bind unpack,
      message.flag = 8 → correspondence.session.service.server.Closable fd
  | _ => True

instance [Allocator] (correspondence : Correspondence) :
    (event : SessionEvent) → (next : Correspondence) → Decidable (Spares correspondence event next)
  | .serverReceives _, _ => inferInstanceAs (Decidable (∀ message ∈ _, _ → _))
  | .clientReceives _, _ => instDecidableTrue
  | .command _ _, _ => instDecidableTrue

def For (handle : List UInt8) (message : Message) : Bool :=
  message.flag = 6 &&
    if message.toHandle.bytes.length = 0 then cString message.fromHandle.bytes ≠ handle
    else cString message.toHandle.bytes = handle

def From (handle : List UInt8) (message : Message) : Bool :=
  message.flag = 6 && cString message.fromHandle.bytes = handle

def mailFor (handle : List UInt8) (sent : List (List UInt8)) : List Message :=
  (sent.filterMap unpack).filter (For handle)

def Peer.inbox (peer : Peer) : List Message := peer.received ++ peer.fromServer.filterMap unpack

def mailFrom (handle : List UInt8) (inbox : List Message) : List Message :=
  inbox.filter (From handle)

end Chat
