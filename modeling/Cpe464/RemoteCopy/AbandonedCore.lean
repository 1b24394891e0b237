import Cpe464.RemoteCopy.ChildCore

/-!
The loop of `process_client` behind FILENAME, with anything that `read` and the socket can give
it, and the same loop when no datagram arrives any more.
-/

namespace RemoteCopy

open Bytes Transition

inductive Outside
  | send (chunk : Option (List UInt8)) (arrived : Bool)
  | process (received : Int × Packet)
  | wait (arrived : Bool)
  | bye (stack : Packet) (received : Option (Int × Packet))

def InPayload (chunk : Option (List UInt8)) : Prop := (chunk.getD []).length ≤ maxPacketLength

instance (chunk : Option (List UInt8)) : Decidable (InPayload chunk) :=
  inferInstanceAs (Decidable (_ ≤ _))

/-- The body of the loop. There is no result where `read` leaves the payload. -/
def processClient (host : ByteOrder) (outside : Outside) (server : Server) : Option ServerStep :=
  match outside with
  | .send chunk arrived =>
      if server.state = .sendData ∧ InPayload chunk then sendData host chunk arrived server
      else none
  | .process received => if server.state = .process then process received server else none
  | .wait arrived => if server.state = .waitOnAck then waitOnAck arrived server else none
  | .bye stack received => if server.state = .bye then bye host stack received server else none

def serverRound (host : ByteOrder) (outside : Outside) (server : Server) : Option Server :=
  (processClient host outside server).map Prod.fst

def Begun (size : Int) (server : Server) : Prop :=
  ∃ (job : Job) (packet : Packet) (eofIndex : Int), job.windowSize = size ∧
    server = (job.start packet eofIndex).server

abbrev Reached (host : ByteOrder) (size : Int) : Server → Prop :=
  Reach (Begun size) (serverRound host) (fun _ _ _ => True)

/-! The child alone. -/

/-- What a state function gets when nothing arrives; PROCESS is entered with a datagram only. -/
def quiet (chunk : Option (List UInt8)) (stack : Packet) : ServerState → Option Outside
  | .sendData => some (.send chunk false)
  | .waitOnAck => some (.wait false)
  | .bye => some (.bye stack none)
  | .start => none
  | .filename => none
  | .process => none
  | .done => none
  | .exited => none

abbrev Lonely := Option (List UInt8) × Packet

def quietRound (host : ByteOrder) (input : Lonely) (server : Server) : Option ServerStep := do
  let outside ← quiet input.1 input.2 server.state
  processClient host outside server

def Server.Over (server : Server) : Prop := server.state = .done ∨ server.state = .exited

instance : DecidablePred Server.Over :=
  fun server => inferInstanceAs (Decidable (server.state = .done ∨ server.state = .exited))

def abandoned (host : ByteOrder) : Nat → (Nat → Lonely) → Server → Option ServerStep :=
  loop Server.Over (quietRound host)

/-- A regular file gives what fits the payload, an error now and then, and nothing behind its
end. -/
structure RegularReads (inputs : Nat → Lonely) : Prop where
  fits : ∀ round, InPayload (inputs round).1
  ends : ∃ last, ∀ round, last ≤ round → (inputs round).1.getD [] = []

def Window.room (window : Window) : Nat := (window.top - window.middle + 1).toNat

/-- Packets that still fit in the window, and at most 10 nudges behind them; or at most 11 times
END_OF_FILE. -/
def Modest (host : ByteOrder) (server : Server) (sent : List (List UInt8)) : Prop :=
  if server.state = .bye then
    sent.length ≤ 11 ∧
      ∀ datagram ∈ sent, datagram = frame host (UInt32.ofInt server.eofIndex) Flag.endOfFile.code []
  else ∃ packets nudges, sent = packets ++ nudges ∧ packets.length ≤ server.window.room ∧
    nudges.length ≤ 10 ∧ (server.state ≠ .sendData → packets = []) ∧
    ∀ datagram ∈ packets, ∃ number data, server.window.middle ≤ number ∧
      number ≤ server.window.top ∧
      datagram = frame host (UInt32.ofInt number) Flag.data.code data

def Stops (host : ByteOrder) (server : Server) : Prop :=
  ∀ inputs, RegularReads inputs → ∃ rounds last sent,
    abandoned host rounds inputs server = some (last, sent) ∧ last.Over ∧ Modest host server sent

end RemoteCopy
