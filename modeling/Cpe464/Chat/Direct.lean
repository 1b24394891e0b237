import Cpe464.Chat.Failure

/-!
Where a message with a destination goes to, in every state of a run of the server.
-/

namespace Chat

open Bytes Effects Transition

def Routed (connections : List Entry) (fd : Int) (message : Message) (bytes : List UInt8)
    (sent : Int × List UInt8) : Prop :=
  ((sent.1, message.toHandle.bytes) ∈ connections ∧
    (∀ connection ∈ connections, connection.2 = message.toHandle.bytes → connection.1 = sent.1) ∧
    sent.2 = bytes) ∨
  ((∀ connection ∈ connections, connection.2 ≠ message.toHandle.bytes) ∧ sent.1 = fd ∧
    ∃ reply, unpack sent.2 = some reply ∧ reply.flag = 7 ∧ reply.toHandle = message.toHandle)

theorem routes_routed {service : Service} {entries : List Entry}
    (registered : Registered service.connections) (same : entries.Perm service.connections)
    (fd : Int) {message : Message} (bytes : List UInt8) (addressed : message.toHandle.bytes ≠ [])
    (terminated : 0 ∉ message.toHandle.bytes) :
    ∃ sent, routes service.server entries fd message bytes = [sent] ∧
      Routed service.connections fd message bytes sent := by
  have single : message.toHandle.bytes.length ≠ 0 := by
    rwa [Ne, List.length_eq_zero_iff]
  rw [routes, if_neg single, cString_eq_self_iff.mpr terminated]
  cases found : entries.find? fun entry => entry.2 == message.toHandle.bytes with
  | some entry =>
      have string : entry.2 = message.toHandle.bytes := by simpa using List.find?_some found
      have member := same.mem_iff.mp (List.mem_of_find?_eq_some found)
      refine ⟨_, rfl, .inl ⟨string ▸ member, ?_, rfl⟩⟩
      intro connection inside handle
      exact registered.named connection inside entry member (handle ▸ addressed)
        (handle.trans string.symm)
  | none =>
      refine ⟨_, rfl, .inr ⟨?_, rfl, _, unpack_bytes _, rfl, rfl⟩⟩
      intro connection inside
      simpa using List.find?_eq_none.mp found connection (same.mem_iff.mpr inside)

section

variable [Allocator]

/-- In every state of a run, a message with a destination is one call of `send`, which passes the
message on or answers it, and the tables stay as they are. The next step of a run, whichever
connection it closes, moves no handle into a block that is too small. -/
theorem direct_routed (answeringMachine : Int) (service : Service)
    (reach : Reach (· = Service.start answeringMachine) Service.endure Admitted service) :
    (∀ fd bytes message, unpack bytes = some message → message.flag = 6 →
      message.toHandle.bytes ≠ [] → 0 ∉ message.toHandle.bytes → ∀ fails, ∃ next sent,
        processPacket fails fd (some bytes) ⟨service.server, []⟩ =
          some (if fails sent.1 = true then .error .sendEx else .ok (), ⟨next, [sent]⟩) ∧
        Routed service.connections fd message bytes sent ∧
        { next with sequenceNumber := service.server.sequenceNumber } = service.server) ∧
    ∀ incident, ¬Movable service incident.event → service.endure incident = none := by
  have paired := reach_paired reach
  obtain ⟨registered, entries, represents, same⟩ := reach_paired reach
  have initial : Represents (Machine.mk service.server []).server entries := represents
  constructor
  · intro fd bytes message unpacks flag addressed terminated fails
    obtain ⟨sent, calls, routed⟩ := routes_routed registered same fd bytes addressed terminated
    obtain ⟨next, attempts, kept⟩ := initial.messagePacket_attempts fd message bytes
    have sends := attempts fails
    simp only [Attempts, calls, attempted_singleton, List.nil_append, List.any_cons, List.any_nil,
      Bool.or_false] at sends
    have dispatched :
        handleMessage fails fd message bytes = messagePacket fails fd message bytes := by
      simp only [handleMessage, dispatch, flag]
      rfl
    refine ⟨next, sent, ?_, routed, ?_⟩
    · rw [processPacket_message unpacks, dispatched]
      exact sends
    · rcases kept with rfl | rfl <;> rfl
  · exact fun incident stuck => paired.undefined stuck

end

section

attribute [local instance] roundedBlocks

theorem direct_routed_threeClients : ∃ service next sent,
    run Service.endure threeClients (Service.start 3) = some service ∧
    processPacket reliable 4 (some [0, 0, 0, 1, 6, 1, 66, 1, 65, 104, 105, 0])
      ⟨service.server, []⟩ = some (.ok (), ⟨next, [sent]⟩) ∧ sent.1 = 5 := by
  have known : (run Service.endure threeClients (Service.start 3)).map Service.connections =
      some [(4, [65]), (5, [66]), (6, [67])] := by
    decide +kernel
  obtain ⟨service, executed, connections⟩ := Option.map_eq_some_iff.mp known
  have reach : Reach (· = Service.start 3) Service.endure Admitted service :=
    .run threeClients (.start rfl) executed (by decide +kernel)
  obtain ⟨next, sent, sends, routed, _⟩ := (direct_routed 3 service reach).1 4
    [0, 0, 0, 1, 6, 1, 66, 1, 65, 104, 105, 0] _ rfl rfl (by decide) (by decide) reliable
  rw [connections] at routed
  refine ⟨service, next, sent, executed, sends, ?_⟩
  rcases routed with ⟨_, single, _⟩ | ⟨nobody, _⟩
  · exact (single (5, [66]) (by decide) rfl).symm
  · exact absurd rfl (nobody (5, [66]) (by decide))

def exitBytes : List UInt8 := [0, 0, 0, 1, 8, 0, 0]

/-- The first client exits, and the handle of the second one fills the block it moves into: there
is no state in which mail to it could be forwarded. -/
theorem direct_lost : ∃ service,
    Reach (· = Service.start 3) Service.endure Admitted service ∧
    service.connections = [(4, [65]), (5, longHandle.bytes)] ∧
    ¬Movable service (.packet 4 exitBytes) ∧
    ∀ fails, service.endure ⟨.packet 4 exitBytes, fails⟩ = none := by
  have known : (run Service.endure (longEvents.map fun event => ⟨event, reliable⟩)
      (Service.start 3)).map (fun service =>
        (service.connections, decide (Movable service (.packet 4 exitBytes)))) =
      some ([(4, [65]), (5, longHandle.bytes)], false) := by
    decide +kernel
  obtain ⟨service, executed, values⟩ := Option.map_eq_some_iff.mp known
  obtain ⟨connections, stuck⟩ := Prod.mk.inj values
  have reach : Reach (· = Service.start 3) Service.endure Admitted service :=
    .run _ (.start rfl) executed (by decide +kernel)
  exact ⟨service, reach, connections, of_decide_eq_false stuck, fun fails =>
    (reach_paired reach).undefined (of_decide_eq_false stuck)⟩

end

end Chat
