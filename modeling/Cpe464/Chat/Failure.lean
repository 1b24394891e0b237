import Cpe464.Chat.FailureCore

/-!
Which failing calls of `send` the server survives, in every state of a run with failing calls.
-/

namespace Chat

open Bytes Effects SwapRemove Transition

theorem start_paired (answeringMachine : Int) : Paired (Service.start answeringMachine) := by
  exact ⟨(start_consistent answeringMachine).distinct.toRegistered, [],
    setup_represents answeringMachine, .nil⟩

section

variable [Allocator] {service : Service} {entries : List Entry} {fd : Int} {received : List UInt8}
  (registered : Registered service.connections) (represents : Represents service.server entries)
  (same : entries.Perm service.connections)
  (listed : fd ∈ service.server.openSockets.take service.server.numOpen)

omit [Allocator] in
include registered represents same in
theorem serving_of_perm : Serving service.server entries := by
  exact ⟨represents, (same.map _).nodup_iff.mpr registered.nodup⟩

include registered represents same listed

theorem closed_survives (closable : service.server.Closable fd) (fails : Int → Bool) :
    ∃ next, Returns (processPacket fails fd (some [])) ⟨service.server, []⟩ next [] ∧
      Paired ⟨next, hangUp service.connections fd⟩ := by
  have serving := serving_of_perm registered represents same
  obtain ⟨⟨fd, old⟩, member, rfl⟩ := serving.opened listed
  obtain ⟨index, found⟩ := List.mem_iff_getElem?.mp member
  obtain ⟨inside, _⟩ := List.getElem?_eq_some_iff.mp found
  have initial : Represents (Machine.mk service.server []).server entries := represents
  obtain ⟨next, closes, left, _⟩ := initial.closeConnection_returns serving.nodup found closable
  refine ⟨next, closes, registered.hangUp fd, _, left, (swapRemove_perm entries index inside).trans ?_⟩
  rw [eraseIdx_eq_hangUp serving.nodup found]
  exact same.filter _

theorem message_survives {message : Message} (unpacks : unpack received = some message)
    (named : message.flag = 1 → 1 ≤ message.fromHandle.bytes.length)
    (lists : message.flag = 12 → ListableText service.server message.text)
    (detaches : Detaches service.server service.connections fd (some received)) :
    ∃ next sends, Paired ⟨next, afterMessage service.connections fd message⟩ ∧
      ∀ fails, (Tolerated entries fd message fails →
          Returns (processPacket fails fd (some received)) ⟨service.server, []⟩ next sends) ∧
        (¬Tolerated entries fd message fails → ∃ made,
          processPacket fails fd (some received) ⟨service.server, []⟩ =
            some (.error .sendEx, made)) := by
  have serving := serving_of_perm registered represents same
  obtain ⟨⟨fd, old⟩, member, rfl⟩ := serving.opened listed
  obtain ⟨index, found⟩ := List.mem_iff_getElem?.mp member
  have initial : Represents (Machine.mk service.server []).server entries := represents
  obtain ⟨next, sends, after, left, changed, outcome⟩ :=
    initial.handleMessage_returns serving.nodup found message received named
      (fun departs => detaches received rfl
        (.inr ⟨message, unpacks, (departs_perm same message).mp departs⟩))
      (fun list => listRequest_listable list (lists list) received)
  refine ⟨next, sends, ⟨registered.afterMessage fd message, after, left,
    changed.trans (afterMessage_perm same fd message)⟩, ?_⟩
  intro fails
  rw [Returns, processPacket_message unpacks]
  exact outcome fails

theorem endured_of_returns {fails : Int → Bool} {next : Server} {sends : List (Int × List UInt8)}
    (returns : Returns (processPacket fails fd (some received)) ⟨service.server, []⟩ next sends) :
    Harmless service.server (some received) ∧ Endured entries fd received fails ∧
      Detaches service.server service.connections fd (some received) := by
  have serving := serving_of_perm registered represents same
  have detaches : Detaches service.server service.connections fd (some received) :=
    represents.movable serving.nodup same ((serve_recv_iff fd _).mpr ⟨listed, sends, returns⟩)
  cases unpacks : unpack received with
  | none =>
      refine ⟨?_, by simp [Endured, unpacks], detaches⟩
      cases received with
      | nil => trivial
      | cons first rest =>
          simp only [Returns, processPacket, bind, unpacks, defined_none] at returns
          cases returns
  | some message =>
      have handles := returns
      rw [Returns, processPacket_message unpacks] at handles
      have harmless := serving.harmless_of_defined (by rw [handles]; exact Option.some_ne_none _)
      refine ⟨(harmless_iff unpacks).mpr harmless, ?_, detaches⟩
      intro other found
      obtain rfl := Option.some.inj (unpacks.symm.trans found)
      by_contra failing
      obtain ⟨_, _, _, outcome⟩ := message_survives registered represents same listed unpacks
        harmless.1 harmless.2 detaches
      obtain ⟨made, throws⟩ := (outcome fails).2 failing
      rw [Returns, throws] at returns
      cases returns

theorem survives_of_endured {fails : Int → Bool} (harmless : Harmless service.server (some received))
    (endured : Endured entries fd received fails)
    (detaches : Detaches service.server service.connections fd (some received)) :
    Survives service fd received fails := by
  cases unpacks : unpack received with
  | none =>
      cases received with
      | nil =>
          obtain ⟨next, closes, paired⟩ := closed_survives registered represents same listed
            (detaches [] rfl (.inl rfl)) fails
          exact ⟨next, [], closes, by simpa [afterEvent] using paired, next, [], closes, by simp⟩
      | cons first rest =>
          obtain ⟨toLength, fromLength, framed, _⟩ := harmless
          obtain ⟨message, defined⟩ := unpack_framed framed
          rw [unpacks] at defined
          cases defined
  | some message =>
      have nonempty : received ≠ [] := by
        rintro rfl
        cases unpacks
      obtain ⟨named, lists⟩ := (harmless_iff unpacks).mp harmless
      obtain ⟨next, sends, paired, outcome⟩ :=
        message_survives registered represents same listed unpacks named lists detaches
      refine ⟨next, sends, (outcome fails).1 (endured message unpacks), ?_, next, sends,
        (outcome reliable).1 (tolerated_reliable entries fd message), fun _ member _ => member⟩
      simpa only [afterEvent, if_neg nonempty, unpacks] using paired

theorem survives_iff (fails : Int → Bool) : Survives service fd received fails ↔
    Harmless service.server (some received) ∧ Endured entries fd received fails ∧
      Detaches service.server service.connections fd (some received) := by
  constructor
  · rintro ⟨next, sends, returns, _⟩
    exact endured_of_returns registered represents same listed returns
  · rintro ⟨harmless, endured, detaches⟩
    exact survives_of_endured registered represents same listed harmless endured detaches

end

/-! Whole runs. -/

section

variable [Allocator]

theorem Paired.accept {service : Service} (paired : Paired service) {fd : Int} {next : Server}
    (fresh : ∀ connection ∈ service.connections, connection.1 ≠ fd)
    (room : service.server.numOpen + 2 ≠ service.server.capacity) {fails : Int → Bool}
    (served : serve fails (.accept fd) service.server = some next) :
    Paired ⟨next, service.connections ++ [(fd, [])]⟩ := by
  obtain ⟨registered, entries, represents, same⟩ := paired
  have initial : Represents (Machine.mk service.server []).server entries := represents
  rw [represents.numOpen_eq] at room
  obtain ⟨sends, accepts⟩ := (serve_accept_iff fd).mp served
  rw [Returns] at accepts
  by_cases failed : fd = -1
  · obtain ⟨made, throws⟩ := initial.answer_throws room
    rw [failed, throws] at accepts
    cases accepts
  · obtain ⟨other, returns, after⟩ := initial.answer_returns fd failed room
    rw [Returns, accepts] at returns
    cases returns
    exact ⟨registered.accept fd fresh, _, after, same.append_right _⟩

theorem Paired.endure {service next : Service} (paired : Paired service) {incident : Incident}
    (taken : service.endure incident = some next) (admitted : Admitted service incident next) :
    Paired next := by
  obtain ⟨event, fails⟩ := incident
  obtain ⟨server, served, rfl⟩ := Option.map_eq_some_iff.mp taken
  cases event with
  | accept fd => exact paired.accept admitted.1 admitted.2 served
  | recv fd result =>
      obtain ⟨registered, entries, represents, same⟩ := paired
      obtain ⟨listed, sends, returns⟩ := (serve_recv_iff fd result).mp served
      cases result with
      | none => cases returns
      | some received =>
          obtain ⟨harmless, endured, detaches⟩ :=
            endured_of_returns registered represents same listed returns
          obtain ⟨next, sends, again, after, _⟩ :=
            survives_of_endured registered represents same listed harmless endured detaches
          rw [Returns, returns] at again
          cases again
          exact after

theorem Paired.movable {service next : Service} (paired : Paired service) {incident : Incident}
    (taken : service.endure incident = some next) : Movable service incident.event := by
  obtain ⟨registered, entries, represents, same⟩ := paired
  obtain ⟨server, served, _⟩ := Option.map_eq_some_iff.mp taken
  exact represents.movable (serving_of_perm registered represents same).nodup same served

theorem Paired.undefined {service : Service} (paired : Paired service) {incident : Incident}
    (stuck : ¬Movable service incident.event) : service.endure incident = none := by
  cases taken : service.endure incident with
  | none => rfl
  | some next => exact absurd (paired.movable taken) stuck

theorem reach_paired {answeringMachine : Int} {service : Service}
    (reach : Reach (· = Service.start answeringMachine) Service.endure Admitted service) :
    Paired service := by
  apply reach.invariant
  · rintro _ rfl
    exact start_paired answeringMachine
  · intro before incident after paired taken admitted
    exact paired.endure taken admitted

/-- In every state of a run with any failing calls of `send`, the server survives a message
exactly when it lies inside its bounds, no `send` to an addressee fails, a confirmation of a
handle excepted, and no handle moves into a block that is too small. -/
theorem failures_survived_iff (answeringMachine : Int) (service : Service)
    (reach : Reach (· = Service.start answeringMachine) Service.endure Admitted service) :
    ∃ entries, Represents service.server entries ∧ entries.Perm service.connections ∧
      ∀ fd ∈ service.server.openSockets.take service.server.numOpen, ∀ received fails,
        Survives service fd received fails ↔
          Harmless service.server (some received) ∧ Endured entries fd received fails ∧
            Detaches service.server service.connections fd (some received) := by
  obtain ⟨registered, entries, represents, same⟩ := reach_paired reach
  exact ⟨entries, represents, same, fun fd listed received fails =>
    survives_iff registered represents same listed fails⟩

end

section

attribute [local instance] roundedBlocks

theorem failures_survived_registration : ∃ service,
    (Service.start 3).endure ⟨.accept 4, reliable⟩ = some service ∧
      Survives service 4 [0, 0, 0, 0, 1, 0, 1, 97] (fun _ => true) := by
  have opened : ((Service.start 3).endure ⟨.accept 4, reliable⟩).map (fun service =>
      (service.connections, service.server.openSockets.take service.server.numOpen)) =
        some ([(4, [])], [4]) := by
    decide +kernel
  obtain ⟨service, taken, values⟩ := Option.map_eq_some_iff.mp opened
  obtain ⟨connections, sockets⟩ := Prod.mk.inj values
  obtain ⟨entries, _, same, survives⟩ := failures_survived_iff 3 service
    (.step ⟨.accept 4, reliable⟩ (.start rfl) taken ⟨by simp [Service.start], by decide⟩)
  refine ⟨service, taken, (survives 4 (by rw [sockets]; decide) _ _).mpr ⟨?_, ?_, ?_⟩⟩
  · exact ⟨0, 1, ⟨rfl, rfl, by decide⟩, fun _ => by decide, fun list => by cases list⟩
  · intro message unpacks
    cases unpacks
    exact .inl ⟨rfl, (free_perm same _).mpr (by rw [connections]; decide)⟩
  · rw [connections]
    intro received member hangs
    cases member
    exact absurd hangs (by decide)

def threeClients : List Incident :=
  [⟨.accept 4, reliable⟩, ⟨.accept 5, reliable⟩, ⟨.accept 6, reliable⟩,
    ⟨.packet 4 [0, 0, 0, 0, 1, 0, 1, 65], reliable⟩,
    ⟨.packet 5 [0, 0, 0, 0, 1, 0, 1, 66], reliable⟩,
    ⟨.packet 6 [0, 0, 0, 0, 1, 0, 1, 67], reliable⟩]

def announcement : List UInt8 := [0, 0, 0, 1, 6, 0, 1, 65, 104, 105, 0]

/-- One client whose `send` fails ends the server before the next client gets the message. -/
theorem failures_end_server : ∃ service made,
    Reach (· = Service.start 3) Service.endure Admitted service ∧
    Harmless service.server (some announcement) ∧
    processPacket (fun fd => fd = 5) 4 (some announcement) ⟨service.server, []⟩ =
      some (.error .sendEx, made) ∧
    made.sends = [(5, announcement)] ∧ ¬Survives service 4 announcement (fun fd => fd = 5) := by
  have ends : (run Service.endure threeClients (Service.start 3)).map (fun service =>
      (processPacket (fun fd => fd = 5) 4 (some announcement) ⟨service.server, []⟩).map fun outcome =>
        (match outcome.1 with | .error exception => some exception | .ok _ => none,
          outcome.2.sends)) = some (some (some .sendEx, [(5, announcement)])) := by
    decide +kernel
  obtain ⟨service, executed, ends⟩ := Option.map_eq_some_iff.mp ends
  obtain ⟨⟨result, made⟩, handles, values⟩ := Option.map_eq_some_iff.mp ends
  obtain ⟨failed, sends⟩ := Prod.mk.inj values
  cases result with
  | ok => cases failed
  | error exception =>
      obtain rfl := Option.some.inj failed
      refine ⟨service, made, .run threeClients (.start rfl) executed (by decide +kernel), ?_,
        handles, sends, ?_⟩
      · refine ⟨0, 1, ⟨rfl, rfl, by decide⟩, ?_, ?_⟩
        · intro one
          cases one
        · intro list
          cases list
      · rintro ⟨next, sends, returns, _⟩
        rw [Returns, handles] at returns
        cases returns

end

end Chat
