import Mathlib.Logic.Function.Basic
import Cpe464.Library.Transition
import Cpe464.Chat.HandlerSteps

/-!
An iteration of `serve`. `unread` holds the results that `recv` can return on a descriptor
without waiting, and `select` reports connections that have one.
-/

namespace Chat

open Transition

/-- `FD_SETSIZE`. Outside of it `FD_SET` and `FD_ISSET` are not defined. -/
abbrev fdSetSize : Int := 1024

def InFdSet (fd : Int) : Prop := 0 ≤ fd ∧ fd < fdSetSize

instance (fd : Int) : Decidable (InFdSet fd) := inferInstanceAs (Decidable (_ ∧ _))

/-- Whether the loop goes on: `recv` may wait for data that is not there, and a handler may throw
or have no defined result. -/
inductive Progress
  | running
  | stalled
  | left
deriving DecidableEq

structure Round where
  server : Server
  descriptors : List Int
  unread : Int → List (Option (List UInt8))
  i : Nat
  progress : Progress

structure PacketCall where
  fd : Int
  descriptors : List Int
deriving DecidableEq

def readSet (answeringMachine : Int) (accepted : Option Int) (readable : List Int) : List Int :=
  if accepted.isSome then answeringMachine :: readable else readable

def Server.beginRound (answeringMachine : Int) (accepted : Option Int)
    (unread : Int → List (Option (List UInt8))) (server : Server) : Option Round :=
  if ∀ fd ∈ answeringMachine :: server.listed, InFdSet fd then
    match accepted with
    | none => some ⟨server, server.listed, unread, 0, .running⟩
    | some fd =>
        match answer fd ⟨server, []⟩ with
        | some (.ok _, machine) =>
            some ⟨machine.server, server.listed ++ [fd], unread, 0, .running⟩
        | _ => none
  else none

/-- `process_packet`. Only `close_connection` lowers `num_open`, and it closes the descriptor. -/
def Round.process [Allocator] (fails : Int → Bool) (fd : Int) (round : Round) : Round :=
  match round.unread fd with
  | [] => { round with progress := .stalled }
  | received :: rest =>
      let round := { round with unread := Function.update round.unread fd rest }
      match processPacket fails fd received ⟨round.server, []⟩ with
      | some (.ok _, machine) => { round with
          server := machine.server
          descriptors := if machine.server.numOpen < round.server.numOpen then
            round.descriptors.erase fd else round.descriptors }
      | _ => { round with progress := .left }

def Round.visit [Allocator] (readSet : List Int) (fails : Int → Bool) (round : Round) :
    Option (Round × List PacketCall) := do
  let current ← round.server.openSockets[round.i]?
  if InFdSet current then
    if current ∈ readSet then
      some ({ round.process fails current with i := round.i + 1 }, [⟨current, round.descriptors⟩])
    else some ({ round with i := round.i + 1 }, [])
  else none

def Round.Ended (round : Round) : Prop :=
  round.progress ≠ .running ∨ round.server.numOpen ≤ round.i

instance : DecidablePred Round.Ended := fun _ => inferInstanceAs (Decidable (_ ∨ _))

def Reported (server : Server) (readable : List Int)
    (unread : Int → List (Option (List UInt8))) : Prop :=
  ∀ fd ∈ readable, fd ∈ server.listed ∧ unread fd ≠ []

/-- No connection is handled twice, unless it was reported, or when it has been closed, and no
`recv` waits. Where no handler throws, what was not handled stays in the table with its data
unread, for the `select` of the next iteration. -/
structure SoundRound (readable : List Int) (begun last : Round) (calls : List PacketCall) :
    Prop where
  once : (calls.map PacketCall.fd).Nodup
  reported : ∀ call ∈ calls, call.fd ∈ readable
  opened : ∀ call ∈ calls, call.fd ∈ call.descriptors
  proceeds : last.progress ≠ .stalled
  remains : last.progress = .running → ∀ fd ∈ begun.descriptors,
    fd ∉ calls.map PacketCall.fd → fd ∈ last.server.listed ∧ fd ≤ last.server.highestFd ∧
      last.unread fd = begun.unread fd

def ServesSoundly [Allocator] (answeringMachine : Int) (accepted : Option Int)
    (server : Server) : Prop :=
  ∀ readable unread fails, Reported server readable unread →
    ∃ begun count last calls, server.beginRound answeringMachine accepted unread = some begun ∧
      loop Round.Ended (Round.visit (readSet answeringMachine accepted readable)) count fails
        begun = some (last, calls) ∧ last.Ended ∧ SoundRound readable begun last calls

structure Tabled (answeringMachine : Int) (server : Server) : Prop where
  length : server.openSockets.length = server.capacity
  room : server.numOpen + 2 ≤ server.capacity
  large : bufferSize ≤ server.capacity
  nodup : server.listed.Nodup
  listens : answeringMachine ∉ server.listed
  watched : ∀ fd ∈ server.listed, fd ≤ server.highestFd

def Fresh (answeringMachine : Int) (accepted : Option Int) (server : Server) : Prop :=
  ∀ fd ∈ accepted, fd ≠ -1 ∧ fd ≠ answeringMachine ∧ fd ∉ server.listed

def Servable (answeringMachine : Int) (accepted : Option Int) (server : Server) : Prop :=
  (∀ fd ∈ answeringMachine :: server.listed ++ accepted.toList, InFdSet fd) ∧
    (accepted ≠ none → server.numOpen + 2 ≠ server.capacity)

/-! Runs of the server. -/

structure Iteration where
  accepted : Option Int
  readable : List Int
  unread : Int → List (Option (List UInt8))
  fails : Nat → Int → Bool
  count : Nat

def Server.iterate [Allocator] (answeringMachine : Int) (iteration : Iteration)
    (server : Server) : Option Server := do
  let begun ← server.beginRound answeringMachine iteration.accepted iteration.unread
  let (last, _) ← loop Round.Ended
    (Round.visit (readSet answeringMachine iteration.accepted iteration.readable))
    iteration.count iteration.fails begun
  if last.progress = .running ∧ last.server.numOpen ≤ last.i then some last.server else none

def Served (answeringMachine : Int) (server : Server) (iteration : Iteration) (_ : Server) : Prop :=
  Reported server iteration.readable iteration.unread ∧
    Fresh answeringMachine iteration.accepted server ∧
    Servable answeringMachine iteration.accepted server

end Chat
