import Cpe464.Chat.Malformed

/-!
The server while calls of `send` fail. An exception that `process_packet` does not catch leaves
the loop of `serve`, and `main` ends the process.
-/

namespace Chat

open Bytes Effects

structure Incident where
  event : Event
  fails : Int → Bool

def Service.endure [Allocator] (incident : Incident) : Service → Option Service :=
  Service.step incident.fails incident.event

def Admitted (service : Service) (incident : Incident) (_ : Service) : Prop :=
  match incident.event with
  | .accept fd => (∀ connection ∈ service.connections, connection.1 ≠ fd) ∧
      service.server.numOpen + 2 ≠ service.server.capacity
  | .recv _ _ => True

instance (service : Service) (incident : Incident) (next : Service) :
    Decidable (Admitted service incident next) := by
  unfold Admitted
  split <;> infer_instance

structure Paired (service : Service) : Prop where
  registered : Registered service.connections
  table : ∃ entries, Represents service.server entries ∧ entries.Perm service.connections

/-- `process_packet` returns, the tables hold what they should, and what is sent while no `send`
fails is also sent to everyone whose `send` does not fail. -/
def Survives [Allocator] (service : Service) (fd : Int) (received : List UInt8)
    (fails : Int → Bool) : Prop :=
  ∃ next sends, Returns (processPacket fails fd (some received)) ⟨service.server, []⟩ next sends ∧
    Paired ⟨next, afterEvent service.connections (.packet fd received)⟩ ∧
    ∃ other all, Returns (processPacket reliable fd (some received)) ⟨service.server, []⟩ other all ∧
      ∀ sent ∈ all, fails sent.1 = false → sent ∈ sends

def Endured (entries : List Entry) (fd : Int) (received : List UInt8) (fails : Int → Bool) : Prop :=
  ∀ message ∈ unpack received, Tolerated entries fd message fails

end Chat
