import Cpe464.Chat.Growth

/-!
The buffers behind the entries of `clients`: the size asked of `calloc`, and what is written into
them when a connection is accepted, registered, renamed or removed.
-/

namespace Chat

open Bytes Effects SwapRemove Transition

def HandleBuffer.Holds (buffer : HandleBuffer) : Prop :=
  buffer.bytes.length ≤ buffer.allocated ∧ buffer.string.length + 1 ≤ buffer.allocated

def LargeBuffers (server : Server) : Prop :=
  ∀ i < server.numOpen, ∃ buffer, server.client i = some buffer ∧ buffer.Holds

def Unused (service : Service) (incident : Incident) : Prop :=
  match incident.event with
  | .accept fd => ∀ connection ∈ service.connections, connection.1 ≠ fd
  | .recv _ _ => True

instance (service : Service) : (incident : Incident) → Decidable (Unused service incident)
  | ⟨.accept _, _⟩ => inferInstanceAs (Decidable (∀ connection ∈ _, _))
  | ⟨.recv _ _, _⟩ => instDecidableTrue

def ClosesLast (service : Service) (incident : Incident) : Prop :=
  match incident.event with
  | .accept _ => service.server.numOpen + 2 ≠ service.server.capacity
  | .recv fd result => ∀ received ∈ result,
      HangsUp service.connections received → service.server.listed.getLast? = some fd

instance (service : Service) : (incident : Incident) → Decidable (ClosesLast service incident)
  | ⟨.accept _, _⟩ => inferInstanceAs (Decidable (_ ≠ _))
  | ⟨.recv _ _, _⟩ => inferInstanceAs (Decidable (∀ received ∈ _, _))

/-! The buffers that the server writes. -/

theorem holds_accepted : HandleBuffer.Holds ⟨1, [0]⟩ := by
  exact ⟨by decide, by decide⟩

theorem holds_learned (handle : List UInt8) :
    HandleBuffer.Holds ⟨handle.length + 1, handle ++ [0]⟩ := by
  have short := cString_length_le handle
  refine ⟨?_, ?_⟩
  · rw [List.length_append, List.length_singleton]
  · rw [HandleBuffer.string, cString_append_zero]
    exact Nat.succ_le_succ short

theorem not_holds_moved (string : List UInt8) :
    ¬HandleBuffer.Holds ⟨string.length, string ++ [0]⟩ := by
  rintro ⟨written, _⟩
  simp only [List.length_append, List.length_singleton] at written
  omega

theorem learned_client (server : Server) (index : Nat) (handle : List UInt8) (i : Nat) :
    (server.learned index handle).client i = server.client i ∨
      (server.learned index handle).client i = some ⟨handle.length + 1, handle ++ [0]⟩ := by
  simp only [Server.client, Server.learned, List.getElem?_set]
  split
  · rename_i same
    split
    · exact .inr rfl
    · rename_i outside
      rw [← same, List.getElem?_eq_none (by omega)]
      exact .inl rfl
  · exact .inl rfl

theorem LargeBuffers.learns {fd : Int} {before after : Server} (large : LargeBuffers before)
    (learns : Learns fd before after) : LargeBuffers after := by
  rcases learns with rfl | ⟨handle, rfl⟩
  · exact large
  · intro i inside
    rcases learned_client before (lastIndex fd before.listed 0 0) handle i with same | written
    · rw [same]
      exact large i inside
    · exact ⟨_, written, holds_learned handle⟩

theorem LargeBuffers.remove_iff [Allocator] {server next : Server} {index : Nat}
    (large : LargeBuffers server) (removes : server.remove index = some next)
    (inside : index < server.numOpen)
    (covered : server.numOpen ≤ server.clients.length) :
    LargeBuffers next ↔ index = server.numOpen - 1 := by
  obtain ⟨last, rfl⟩ | ⟨other, _, moved, _, _, _, rfl⟩ := remove_cases removes
  · refine ⟨fun _ => last, fun _ i below => ?_⟩
    simp only at below
    rw [Server.client, join_set _ _ _ _ (by omega), if_neg (by omega)]
    exact large i (by omega)
  · refine ⟨fun after => ?_, fun last => absurd last other⟩
    obtain ⟨buffer, entry, holds⟩ := after index (by simp only; omega)
    rw [Server.client, join_set _ _ _ _ (by rw [List.length_set]; omega), if_neg (by omega),
      join_set _ _ _ _ (by omega), if_pos rfl, Option.some.injEq] at entry
    exact absurd (entry ▸ holds) (not_holds_moved _)

theorem LargeBuffers.accept {server : Server} (large : LargeBuffers server) (fd : Int)
    (room : server.numOpen + 2 ≠ server.capacity)
    (covered : server.numOpen < server.clients.length) : LargeBuffers (server.accepting fd) := by
  have same : resize server = server := if_neg room
  intro i inside
  simp only [Server.accepting, same] at inside ⊢
  rw [Server.client, join_set _ _ _ _ covered]
  split
  · exact ⟨_, rfl, holds_accepted⟩
  · exact large i (by omega)

/-! Which messages close a connection. -/

section

variable {connections : List Entry} {fd : Int} {received : List UInt8}

theorem afterEvent_hangsUp (hangs : HangsUp connections received) :
    afterEvent connections (.packet fd received) = hangUp connections fd := by
  rcases hangs with rfl | ⟨message, unpacks, closing⟩
  · rfl
  · have nonempty : received ≠ [] := by
      rintro rfl
      cases unpacks
    rw [Option.mem_def] at unpacks
    simp only [afterEvent, if_neg nonempty, unpacks, afterMessage]
    rcases closing with leave | ⟨register, taken⟩
    · rw [if_neg (by simp [leave]), if_pos leave]
    · rw [if_pos register, if_neg taken]

theorem length_afterEvent (stays : ¬HangsUp connections received) :
    (afterEvent connections (.packet fd received)).length = connections.length := by
  simp only [HangsUp, Departs, not_or, not_exists, not_and, not_not] at stays
  obtain ⟨nonempty, stays⟩ := stays
  simp only [afterEvent, if_neg nonempty]
  cases unpacks : unpack received with
  | none => rfl
  | some message =>
      obtain ⟨remains, free⟩ := stays message unpacks
      simp only [afterMessage, if_neg remains]
      split
      · rename_i register
        rw [if_pos (free register), rename, List.length_map]
      · rfl

theorem length_hangUp (nodup : (connections.map Prod.fst).Nodup)
    (opened : ∃ connection ∈ connections, connection.1 = fd) :
    (hangUp connections fd).length + 1 = connections.length := by
  obtain ⟨⟨fd, handle⟩, member, rfl⟩ := opened
  obtain ⟨index, found⟩ := List.mem_iff_getElem?.mp member
  obtain ⟨inside, _⟩ := List.getElem?_eq_some_iff.mp found
  rw [← eraseIdx_eq_hangUp nodup found, List.length_eraseIdx_of_lt inside]
  omega

end

theorem Paired.numOpen_eq {service : Service} (paired : Paired service) :
    service.server.numOpen = service.connections.length := by
  obtain ⟨_, entries, represents, same⟩ := paired
  exact represents.numOpen_eq.trans same.length_eq

/-! Whole runs. -/

section

variable {service : Service} (paired : Paired service) (large : LargeBuffers service.server)

include paired large

theorem Paired.accept_iff (capacity : service.server.capacity = bufferSize) {fd : Int}
    {next : Server} {sends : List (Int × List UInt8)}
    (accepts : Returns (answer fd) ⟨service.server, []⟩ next sends) :
    LargeBuffers next ↔ service.server.numOpen + 2 ≠ service.server.capacity := by
  obtain ⟨_, entries, represents, _⟩ := paired
  have room := represents.room
  have openEq := represents.numOpen_eq
  have clients := represents.clients_length
  obtain ⟨valid, same⟩ := answer_accepting accepts
  obtain ⟨rfl, none⟩ := Machine.mk.inj same
  refine ⟨?_, fun roomy => large.accept fd roomy (by omega)⟩
  intro after full
  obtain ⟨count, lost, _⟩ := grown_entries valid capacity (Nat.add_right_cancel (full.trans capacity))
    (represents.openSockets_length.trans capacity) (clients.trans capacity)
    (by rwa [List.append_eq_nil_iff.mp none |>.2] at accepts)
  obtain ⟨buffer, client, _⟩ := after 128 (by omega)
  rw [lost] at client
  cases client

variable [Allocator]

theorem Paired.packet_iff {fd : Int} {received : List UInt8} {fails : Int → Bool} {next : Server}
    {sends : List (Int × List UInt8)}
    (after : Paired ⟨next, afterEvent service.connections (.packet fd received)⟩)
    (listed : fd ∈ service.server.listed)
    (returns : Returns (processPacket fails fd (some received)) ⟨service.server, []⟩ next sends) :
    LargeBuffers next ↔
      (HangsUp service.connections received → service.server.listed.getLast? = some fd) := by
  have counted := paired.numOpen_eq
  have counts := after.numOpen_eq
  obtain ⟨registered, entries, represents, same⟩ := paired
  have serving := serving_of_perm registered represents same
  have sockets := represents.sockets_eq
  rw [← Server.listed] at sockets
  have length : service.server.listed.length = service.server.numOpen := by
    rw [sockets, List.length_map, represents.numOpen_eq]
  have nodup : service.server.listed.Nodup := by
    rw [sockets]
    exact serving.nodup
  have covered : service.server.numOpen ≤ service.server.clients.length := by
    have room := represents.room
    have clients := represents.clients_length
    have openEq := represents.numOpen_eq
    omega
  have opened : ∃ connection ∈ service.connections, connection.1 = fd := by
    rw [sockets] at listed
    obtain ⟨entry, member, rfl⟩ := List.mem_map.mp listed
    exact ⟨entry, same.mem_iff.mp member, rfl⟩
  have hangs : HangsUp service.connections received ↔ next.numOpen + 1 = service.server.numOpen := by
    by_cases closing : HangsUp service.connections received
    · rw [afterEvent_hangsUp closing] at counts
      simp only at counts
      have shorter := length_hangUp registered.nodup opened
      exact iff_of_true closing (by omega)
    · rw [length_afterEvent closing] at counts
      simp only at counts
      exact iff_of_false closing (by omega)
  obtain ⟨middle, learns, closes⟩ := processPacket_settles fails fd (some received) _ _ _ returns
  have before : LargeBuffers (Machine.mk service.server []).tables := large
  have kept := before.learns learns
  have same : middle.listed = service.server.listed ∧ middle.numOpen = service.server.numOpen ∧
      middle.clients.length = service.server.clients.length := by
    rcases learns with rfl | ⟨handle, rfl⟩
    · exact ⟨rfl, rfl, rfl⟩
    · exact ⟨rfl, rfl, List.length_set⟩
  obtain ⟨listedEq, numOpenEq, clientsEq⟩ := same
  rw [hangs]
  rcases closes with stays | ⟨index, position, removes⟩
  · subst stays
    have count : next.numOpen = service.server.numOpen := numOpenEq
    have after : LargeBuffers next := kept
    exact iff_of_true after (fun shorter => by omega)
  · rw [listedEq] at position
    obtain ⟨inside, same, _⟩ := List.findIdx?_eq_some_iff_getElem.mp position
    have found : service.server.listed[index]? = some fd := by
      rw [List.getElem?_eq_getElem inside, beq_iff_eq.mp same]
    rw [length] at inside
    have removed := kept.remove_iff removes (by omega) (by omega)
    have count : next.numOpen = middle.numOpen - 1 := (remove_fixed removes).2.2.2
    have last : service.server.listed.getLast? = some fd ↔ index = service.server.numOpen - 1 := by
      rw [List.getLast?_eq_getElem?, length]
      constructor
      · intro atEnd
        exact Option.some.inj ((findIdx?_socket fd _ index nodup found).symm.trans
          (findIdx?_socket fd _ _ nodup atEnd))
      · rintro rfl
        exact found
    have shorter : next.numOpen + 1 = service.server.numOpen := by omega
    rw [last, ← numOpenEq, ← removed]
    exact ⟨fun after _ => after, fun after => after (numOpenEq ▸ shorter)⟩

theorem Paired.endure_iff (capacity : service.server.capacity = bufferSize) {incident : Incident}
    {next : Service} (taken : service.endure incident = some next)
    (unused : Unused service incident) :
    LargeBuffers next.server ↔ ClosesLast service incident := by
  obtain ⟨event, fails⟩ := incident
  obtain ⟨server, served, rfl⟩ := Option.map_eq_some_iff.mp taken
  cases event with
  | accept fd =>
      obtain ⟨sends, accepts⟩ := (serve_accept_iff fd).mp served
      exact paired.accept_iff large capacity accepts
  | recv fd result =>
      obtain ⟨listed, sends, returns⟩ := (serve_recv_iff fd result).mp served
      cases result with
      | none => cases returns
      | some received =>
          rw [paired.packet_iff large (paired.endure taken trivial) listed returns]
          exact ⟨fun last _ same => Option.some.inj same ▸ last, fun last => last received rfl⟩

end

def SparesBuffers (service : Service) (incident : Incident) (_ : Service) : Prop :=
  Unused service incident ∧ ClosesLast service incident

instance (service : Service) (incident : Incident) (next : Service) :
    Decidable (SparesBuffers service incident next) :=
  inferInstanceAs (Decidable (_ ∧ _))

theorem SparesBuffers.admitted {service next : Service} {incident : Incident}
    (spares : SparesBuffers service incident next) : Admitted service incident next := by
  obtain ⟨event, fails⟩ := incident
  cases event with
  | accept fd => exact spares
  | recv fd result => trivial

/-- In every run in which the table does not grow and only its last connection is closed, the
buffers are large enough; and the next event leaves them so exactly when it is like that, too. -/
theorem buffers_large_iff [Allocator] (answeringMachine : Int) (service : Service)
    (reach : Reach (· = Service.start answeringMachine) Service.endure SparesBuffers service) :
    LargeBuffers service.server ∧ ∀ incident next, service.endure incident = some next →
      Unused service incident → (LargeBuffers next.server ↔ ClosesLast service incident) := by
  have known (state : Service)
      (reach : Reach (· = Service.start answeringMachine) Service.endure SparesBuffers state) :
      Paired state ∧ state.server.capacity = bufferSize := by
    have admitted := reach.mono fun _ _ _ => SparesBuffers.admitted
    exact ⟨reach_paired admitted, reach_capacity admitted⟩
  have large : LargeBuffers service.server := by
    apply reach.invariantWith known
    · rintro _ rfl i inside
      exact absurd inside (Nat.not_lt_zero i)
    · rintro state incident next ⟨paired, capacity⟩ large taken spares
      exact (paired.endure_iff large capacity taken spares.1).mpr spares.2
  obtain ⟨paired, capacity⟩ := known service reach
  exact ⟨large, fun _ _ taken unused => paired.endure_iff large capacity taken unused⟩

section

attribute [local instance] roundedBlocks

def twoAccepts : List Incident := [⟨.accept 4, reliable⟩, ⟨.accept 5, reliable⟩]

def lastDrops : List Incident :=
  twoAccepts ++ [⟨.packet 4 [0, 0, 0, 0, 1, 0, 1, 65], reliable⟩,
    ⟨.packet 5 [0, 0, 0, 0, 1, 0, 1, 66], reliable⟩,
    ⟨.packet 5 [0, 0, 0, 1, 1, 0, 2, 66, 67], reliable⟩, ⟨.packet 5 [], reliable⟩]

theorem buffers_large_lastDrops : ∃ service,
    run Service.endure lastDrops (Service.start 3) = some service ∧
      service.server.numOpen = 1 ∧ LargeBuffers service.server := by
  have executes : (run Service.endure lastDrops (Service.start 3)).map (fun service =>
      service.server.numOpen) = some 1 := by
    decide +kernel
  obtain ⟨service, executed, one⟩ := Option.map_eq_some_iff.mp executes
  refine ⟨service, executed, one, (buffers_large_iff 3 service ?_).1⟩
  exact .run lastDrops (.start rfl) executed (by decide +kernel)

/-- Two clients connect and the first one drops: the empty string of the second one is copied into
a buffer of no bytes. -/
theorem buffers_small_swapped : ∃ before service,
    Reach (· = Service.start 3) Service.endure SparesBuffers before ∧
    before.endure ⟨.packet 4 [], reliable⟩ = some service ∧
    service.server.numOpen = 1 ∧ service.server.client 0 = some ⟨0, [0]⟩ ∧
    ¬LargeBuffers service.server := by
  have executes : ((run Service.endure twoAccepts (Service.start 3)).bind fun before =>
      (before.endure ⟨.packet 4 [], reliable⟩).map fun service =>
        (service.server.numOpen, service.server.client 0)) = some (1, some ⟨0, [0]⟩) := by
    decide +kernel
  obtain ⟨before, executed, drops⟩ := Option.bind_eq_some_iff.mp executes
  obtain ⟨service, dropped, values⟩ := Option.map_eq_some_iff.mp drops
  obtain ⟨one, small⟩ := Prod.mk.inj values
  refine ⟨before, service, .run twoAccepts (.start rfl) executed (by decide +kernel), dropped, one,
    small, ?_⟩
  intro large
  obtain ⟨buffer, entry, holds⟩ := large 0 (by omega)
  rw [small, Option.some.injEq] at entry
  exact absurd (entry ▸ holds) (not_holds_moved [])

end

end Chat
