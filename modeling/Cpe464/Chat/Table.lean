import Cpe464.Library.Transition
import Cpe464.Chat.ServerSteps

/-!
The connection table over whole runs of the server. `connections` says what the table is
for: the open connections in the order they were accepted, each with the handle it last
registered. The tables of the server hold the same connections in some order.
-/

namespace Chat

open Bytes Effects SwapRemove

/-! What the events mean for the connections. -/

/-- `recv` returns bytes, none at the end of the stream, or -1. -/
inductive Event
  | accept (fd : Int)
  | recv (fd : Int) (result : Option (List UInt8))

@[match_pattern] abbrev Event.packet (fd : Int) (received : List UInt8) : Event :=
  .recv fd (some received)

def hangUp (connections : List Entry) (fd : Int) : List Entry :=
  connections.filter fun connection => connection.1 ≠ fd

def rename (connections : List Entry) (fd : Int) (handle : List UInt8) : List Entry :=
  connections.map fun connection => if connection.1 = fd then (fd, handle) else connection

def Free (connections : List Entry) (handle : List UInt8) : Prop :=
  handle ≠ [] ∧ ∀ connection ∈ connections, connection.2 ≠ handle

instance (connections : List Entry) (handle : List UInt8) : Decidable (Free connections handle) :=
  inferInstanceAs (Decidable (_ ∧ _))

def registration (connections : List Entry) (handle : Handle) : Message :=
  { Message.new with
    flag := if Free connections (cString handle.bytes) then 2 else 3
    toHandle := handle }

def afterMessage (connections : List Entry) (fd : Int) (message : Message) : List Entry :=
  if message.flag = 1 then
    if Free connections (cString message.fromHandle.bytes) then
      rename connections fd (cString message.fromHandle.bytes)
    else hangUp connections fd
  else if message.flag = 8 then hangUp connections fd
  else connections

def Departs (connections : List Entry) (message : Message) : Prop :=
  message.flag = 8 ∨
    (message.flag = 1 ∧ ¬Free connections (cString message.fromHandle.bytes))

def HangsUp (connections : List Entry) (received : List UInt8) : Prop :=
  received = [] ∨ ∃ message ∈ unpack received, Departs connections message

instance (connections : List Entry) (message : Message) : Decidable (Departs connections message) :=
  inferInstanceAs (Decidable (_ ∨ _))

instance (connections : List Entry) (received : List UInt8) :
    Decidable (HangsUp connections received) :=
  inferInstanceAs (Decidable (_ ∨ _))

def addressees (entries : List Entry) (fd : Int) (message : Message) : List Int :=
  match dispatch message.flag with
  | .messagePacket =>
      if message.toHandle.bytes.length = 0 then
        (entries.filter fun entry => entry.2 ≠ cString message.fromHandle.bytes).map Prod.fst
      else match entries.find? fun entry => entry.2 == cString message.toHandle.bytes with
      | some entry => [entry.1]
      | none => [fd]
  | .ignored => []
  | _ => [fd]

def Tolerated (entries : List Entry) (fd : Int) (message : Message) (fails : Int → Bool) : Prop :=
  (message.flag = 1 ∧ Free entries (cString message.fromHandle.bytes)) ∨
    ∀ recipient ∈ addressees entries fd message, fails recipient = false

def afterEvent (connections : List Entry) : Event → List Entry
  | .accept fd => connections ++ [(fd, [])]
  | .packet fd received =>
      if received = [] then hangUp connections fd
      else match unpack received with
      | some message => afterMessage connections fd message
      | none => connections
  | .recv _ none => connections

/-! Runs of the server. -/

structure Service where
  server : Server
  connections : List Entry

section

variable [Allocator]

/-- `answer` or `process_packet` on an open descriptor, where it returns to the loop. -/
def serve (fails : Int → Bool) (event : Event) (server : Server) : Option Server :=
  let handler := match event with
    | .accept fd => some (answer fd)
    | .recv fd result =>
        if fd ∈ server.openSockets.take server.numOpen then some (processPacket fails fd result)
        else none
  match handler.bind fun handler => handler ⟨server, []⟩ with
  | some (.ok _, machine) => some machine.server
  | _ => none

def Service.step (fails : Int → Bool) (event : Event) (service : Service) : Option Service :=
  (serve fails event service.server).map fun server =>
    { server, connections := afterEvent service.connections event }

def Detaches (server : Server) (connections : List Entry) (fd : Int)
    (result : Option (List UInt8)) : Prop :=
  ∀ received ∈ result, HangsUp connections received → server.Closable fd

instance (server : Server) (connections : List Entry) (fd : Int) (result : Option (List UInt8)) :
    Decidable (Detaches server connections fd result) :=
  inferInstanceAs (Decidable (∀ received ∈ _, _))

def Movable (service : Service) : Event → Prop
  | .accept _ => True
  | .recv fd result => Detaches service.server service.connections fd result

instance (service : Service) : (event : Event) → Decidable (Movable service event)
  | .accept _ => instDecidableTrue
  | .recv _ _ => inferInstanceAs (Decidable (Detaches _ _ _ _))

end

def Service.start (answeringMachine : Int) : Service := ⟨setup answeringMachine, []⟩

def WellFormed (server : Server) (message : Message) : Prop :=
  1 ≤ message.fromHandle.bytes.length ∧ message.fromHandle.bytes.length ≤ maxHandleSize ∧
    (message.flag = 12 → ∃ value ∈ loadInt message.text, asInt value < server.numOpen)

instance (server : Server) (message : Message) : Decidable (WellFormed server message) :=
  inferInstanceAs (Decidable (_ ∧ _ ∧ (_ → _)))

def Allowed (service : Service) (event : Event) : Prop :=
  match event with
  | .accept fd => fd ≠ -1 ∧ (∀ connection ∈ service.connections, connection.1 ≠ fd) ∧
      service.server.numOpen + 2 ≠ service.server.capacity
  | .packet fd received => (∃ connection ∈ service.connections, connection.1 = fd) ∧
      (received = [] ∨ ∃ message ∈ unpack received, WellFormed service.server message)
  | .recv _ none => False

instance (service : Service) (event : Event) : Decidable (Allowed service event) := by
  unfold Allowed
  split <;> infer_instance

/-! The abstract connections. -/

structure Registered (connections : List Entry) : Prop where
  nodup : (connections.map Prod.fst).Nodup
  named : ∀ first ∈ connections, ∀ second ∈ connections, first.2 ≠ [] →
    first.2 = second.2 → first.1 = second.1

structure Distinct (connections : List Entry) : Prop extends Registered connections where
  short : ∀ connection ∈ connections, connection.2.length ≤ maxHandleSize

theorem Registered.accept {connections : List Entry} (registered : Registered connections)
    (fd : Int) (fresh : ∀ connection ∈ connections, connection.1 ≠ fd) :
    Registered (connections ++ [(fd, [])]) := by
  constructor
  · rw [List.map_append, List.nodup_append]
    refine ⟨registered.nodup, by simp, ?_⟩
    intro old member other new
    obtain ⟨connection, inside, rfl⟩ := List.mem_map.mp member
    rw [List.map_singleton, List.mem_singleton] at new
    exact new ▸ fresh connection inside
  · intro first firstMember second secondMember named same
    rw [List.mem_append, List.mem_singleton] at firstMember secondMember
    rcases firstMember with firstOld | rfl
    · rcases secondMember with secondOld | rfl
      · exact registered.named first firstOld second secondOld named same
      · exact absurd same named
    · exact absurd rfl named

theorem Distinct.accept {connections : List Entry} (distinct : Distinct connections) (fd : Int)
    (fresh : ∀ connection ∈ connections, connection.1 ≠ fd) :
    Distinct (connections ++ [(fd, [])]) := by
  refine ⟨distinct.toRegistered.accept fd fresh, ?_⟩
  intro connection member
  rw [List.mem_append, List.mem_singleton] at member
  rcases member with old | rfl
  · exact distinct.short connection old
  · exact Nat.zero_le _

theorem Registered.hangUp {connections : List Entry} (registered : Registered connections)
    (fd : Int) : Registered (hangUp connections fd) := by
  have kept (connection : Entry) (member : connection ∈ Chat.hangUp connections fd) :
      connection ∈ connections := List.mem_of_mem_filter member
  constructor
  · exact registered.nodup.sublist (List.filter_sublist.map _)
  · intro first firstMember second secondMember
    exact registered.named first (kept first firstMember) second (kept second secondMember)

theorem Distinct.hangUp {connections : List Entry} (distinct : Distinct connections) (fd : Int) :
    Distinct (hangUp connections fd) := by
  refine ⟨distinct.toRegistered.hangUp fd, ?_⟩
  intro connection member
  exact distinct.short connection (List.mem_of_mem_filter member)

theorem mem_rename {connections : List Entry} {fd : Int} {handle : List UInt8} {connection : Entry}
    (member : connection ∈ rename connections fd handle) :
    connection = (fd, handle) ∨ (connection ∈ connections ∧ connection.1 ≠ fd) := by
  obtain ⟨old, inside, made⟩ := List.mem_map.mp member
  by_cases same : old.1 = fd
  · rw [if_pos same] at made
    exact Or.inl made.symm
  · rw [if_neg same] at made
    exact Or.inr ⟨made ▸ inside, made ▸ same⟩

theorem rename_fst (connections : List Entry) (fd : Int) (handle : List UInt8) :
    (rename connections fd handle).map Prod.fst = connections.map Prod.fst := by
  rw [rename, List.map_map]
  apply List.map_congr_left
  intro connection _
  simp only [Function.comp]
  split
  · rename_i same
    exact same.symm
  · rfl

theorem Registered.rename {connections : List Entry} (registered : Registered connections)
    (fd : Int) (handle : List UInt8) (free : Free connections handle) :
    Registered (rename connections fd handle) := by
  constructor
  · rw [rename_fst]
    exact registered.nodup
  · intro first firstMember second secondMember named same
    rcases mem_rename firstMember with rfl | ⟨firstOld, _⟩
    · rcases mem_rename secondMember with rfl | ⟨secondOld, _⟩
      · rfl
      · exact absurd same.symm (free.2 second secondOld)
    · rcases mem_rename secondMember with rfl | ⟨secondOld, _⟩
      · exact absurd same (free.2 first firstOld)
      · exact registered.named first firstOld second secondOld named same

theorem Distinct.rename {connections : List Entry} (distinct : Distinct connections) (fd : Int)
    (handle : List UInt8) (free : Free connections handle)
    (short : handle.length ≤ maxHandleSize) : Distinct (rename connections fd handle) := by
  refine ⟨distinct.toRegistered.rename fd handle free, ?_⟩
  intro connection member
  rcases mem_rename member with rfl | ⟨old, _⟩
  · exact short
  · exact distinct.short connection old

/-! The entries of the tables are the connections. -/

theorem eraseIdx_eq_hangUp {entries : List Entry} (nodup : (entries.map Prod.fst).Nodup)
    {index : Nat} {fd : Int} {old : List UInt8} (found : entries[index]? = some (fd, old)) :
    entries.eraseIdx index = hangUp entries fd := by
  induction entries generalizing index with
  | nil => cases found
  | cons entry rest ih =>
      rw [List.map_cons, List.nodup_cons] at nodup
      cases index with
      | zero =>
          rw [List.getElem?_cons_zero, Option.some.injEq] at found
          subst found
          rw [List.eraseIdx_cons_zero, hangUp, List.filter_cons_of_neg (by simp)]
          refine (List.filter_eq_self.mpr ?_).symm
          intro other member
          simp only [decide_eq_true_eq]
          intro same
          exact nodup.1 (List.mem_map.mpr ⟨other, member, same⟩)
      | succ index =>
          rw [List.getElem?_cons_succ] at found
          have different : entry.1 ≠ fd := by
            intro same
            exact nodup.1 (List.mem_map.mpr ⟨_, List.mem_of_getElem? found, same.symm⟩)
          rw [List.eraseIdx_cons_succ, ih nodup.2 found, hangUp, hangUp,
            List.filter_cons_of_pos (by simpa using different)]

theorem set_eq_rename {entries : List Entry} (nodup : (entries.map Prod.fst).Nodup)
    {index : Nat} {fd : Int} {old : List UInt8} (found : entries[index]? = some (fd, old))
    (handle : List UInt8) : entries.set index (fd, handle) = rename entries fd handle := by
  induction entries generalizing index with
  | nil => cases found
  | cons entry rest ih =>
      rw [List.map_cons, List.nodup_cons] at nodup
      cases index with
      | zero =>
          rw [List.getElem?_cons_zero, Option.some.injEq] at found
          subst found
          rw [List.set_cons_zero, rename, List.map_cons, if_pos rfl]
          congr 1
          refine (List.map_id rest).symm.trans (List.map_congr_left ?_)
          intro other member
          rw [if_neg (fun same => nodup.1 (List.mem_map.mpr ⟨other, member, same⟩))]
          rfl
      | succ index =>
          rw [List.getElem?_cons_succ] at found
          have different : entry.1 ≠ fd := by
            intro same
            exact nodup.1 (List.mem_map.mpr ⟨_, List.mem_of_getElem? found, same.symm⟩)
          rw [List.set_cons_succ, ih nodup.2 found, rename, rename, List.map_cons,
            if_neg different]

structure Consistent (service : Service) : Prop where
  distinct : Distinct service.connections
  table : ∃ entries, Represents service.server entries ∧ entries.Perm service.connections

theorem setup_represents (answeringMachine : Int) : Represents (setup answeringMachine) [] := by
  constructor
  · rfl
  · rfl
  · exact List.length_replicate
  · exact List.length_replicate
  · exact (by decide : 0 + 2 ≤ 1024)
  · intro i fd handle found
    cases found
  · intro i fd handle found
    cases found
  · intro i _
    by_cases inside : i < bufferSize <;> simp [Server.client, setup, inside]

theorem start_consistent (answeringMachine : Int) : Consistent (Service.start answeringMachine) := by
  exact ⟨⟨⟨List.nodup_nil, by simp [Service.start]⟩, by simp [Service.start]⟩, [],
    setup_represents answeringMachine, .nil⟩

theorem not_free {entries : List Entry} {handle : List UInt8} (taken : ¬Free entries handle) :
    handle = [] ∨ ∃ entry ∈ entries, entry.2 = handle := by
  by_contra other
  simp only [not_or, not_exists, not_and] at other
  exact taken other

theorem tolerated_reliable (entries : List Entry) (fd : Int) (message : Message) :
    Tolerated entries fd message reliable := by
  exact .inr (fun _ _ => rfl)

section

variable {entries : List Entry} {fd : Int} {message : Message} {fails : Int → Bool}

theorem tolerated_request (request : isRequest message = true) :
    Tolerated entries fd message fails ↔ fails fd = false := by
  have other : message.flag ≠ 1 := by
    intro register
    simp [isRequest, register] at request
  have addressed : addressees entries fd message = [fd] := by
    simp only [isRequest, Bool.or_eq_true, decide_eq_true_eq] at request
    rcases request with (leave | length) | list
    · simp only [addressees, dispatch, leave]
      rfl
    · simp only [addressees, dispatch, length]
      rfl
    · simp only [addressees, dispatch, list]
      rfl
  simp [Tolerated, addressed, other]

theorem tolerated_registration (register : message.flag = 1) :
    Tolerated entries fd message fails ↔
      Free entries (cString message.fromHandle.bytes) ∨ fails fd = false := by
  have addressed : addressees entries fd message = [fd] := by
    simp only [addressees, dispatch, register]
    rfl
  simp [Tolerated, addressed, register]

theorem tolerated_routes (routed : message.flag = 6) (server : Server) (bytes : List UInt8) :
    Tolerated entries fd message fails ↔
      ∀ sent ∈ routes server entries fd message bytes, fails sent.1 = false := by
  have addressed : addressees entries fd message =
      (routes server entries fd message bytes).map Prod.fst := by
    simp only [addressees, dispatch, routed, routes]
    simp only [show (6 : UInt8) ≠ 1 by decide, if_false, if_true]
    split
    · rw [List.map_map]
      rfl
    · cases entries.find? fun entry => entry.2 == cString message.toHandle.bytes <;> rfl
  simp [Tolerated, addressed, routed]

end

section

variable {machine : Machine} {entries connections : List Entry}

theorem Represents.answer_returns (represents : Represents machine.server entries) (fd : Int)
    (valid : fd ≠ -1) (room : entries.length + 2 ≠ machine.server.capacity) :
    ∃ next, Returns (answer fd) machine next [] ∧ Represents next (entries ++ [(fd, [])]) := by
  have before := represents.room
  have openEq := represents.numOpen_eq
  have same : resize machine.server = machine.server := by
    rw [resize, openEq, if_neg room]
  have accepts := @answer_eq machine.server machine.sends fd valid (by rw [same]; omega)
  rw [Server.accepting, same] at accepts
  refine ⟨_, ?_, represents.accept fd room⟩
  rw [Returns, List.append_nil]
  exact accepts

theorem Represents.answer_throws (represents : Represents machine.server entries)
    (room : entries.length + 2 ≠ machine.server.capacity) :
    ∃ made, answer (-1) machine = some (.error .acceptEx, made) := by
  have before := represents.room
  have openEq := represents.numOpen_eq
  have same : resize machine.server = machine.server := by
    rw [resize, openEq, if_neg room]
  have inside : machine.server.numOpen < machine.server.capacity := by omega
  simp only [answer, bind, modify_apply, get_apply, same, ↓choose_apply, if_pos inside, if_true,
    throw_apply]
  exact ⟨_, rfl⟩

variable [Allocator]

theorem Represents.initialPacket_returns (represents : Represents machine.server entries)
    (nodup : (entries.map Prod.fst).Nodup) {index : Nat} {fd : Int} {old : List UInt8}
    (found : entries[index]? = some (fd, old)) (message : Message)
    (nonempty : 1 ≤ message.fromHandle.bytes.length)
    (closable : ¬Free entries (cString message.fromHandle.bytes) → machine.server.Closable fd) :
    ∃ next after, (∀ fails : Int → Bool,
        Free entries (cString message.fromHandle.bytes) ∨ fails fd = false →
        Returns (initialPacket fails fd message) machine next
          [(fd, machine.server.response (registration entries message.fromHandle))]) ∧
      Represents next after ∧
      after.Perm (if Free entries (cString message.fromHandle.bytes) then
        rename entries fd (cString message.fromHandle.bytes) else hangUp entries fd) := by
  obtain ⟨inside, _⟩ := List.getElem?_eq_some_iff.mp found
  obtain ⟨first, rest, handle⟩ := List.exists_cons_of_length_pos nonempty
  unfold registration
  by_cases free : Free entries (cString message.fromHandle.bytes)
  · rw [if_pos free, if_pos free, handle]
    rw [handle] at free
    refine ⟨_, _, fun fails _ => represents.initialPacket_registers nodup found fails message first
      rest handle free.1 free.2, (represents.register index fd old _ found).numbered, ?_⟩
    exact .of_eq (set_eq_rename nodup found _)
  · obtain ⟨next, returns, left, _⟩ := represents.initialPacket_refuses nodup found
      (closable free) message first rest handle (not_free (handle ▸ free))
    rw [if_neg free, if_neg free]
    refine ⟨next, _, fun fails works => returns fails (works.resolve_left free), left,
      (swapRemove_perm entries index inside).trans ?_⟩
    exact .of_eq (eraseIdx_eq_hangUp nodup found)

theorem Represents.initialPacket_throws (represents : Represents machine.server entries)
    {fails : Int → Bool} {fd : Int} (failing : fails fd = true) (message : Message)
    (nonempty : 1 ≤ message.fromHandle.bytes.length)
    (taken : ¬Free entries (cString message.fromHandle.bytes)) :
    ∃ made, initialPacket fails fd message machine = some (.error .sendEx, made) := by
  obtain ⟨first, rest, handle⟩ := List.exists_cons_of_length_pos nonempty
  rw [represents.initialPacket_refused fails fd message first rest handle
    (not_free (handle ▸ taken))]
  exact closing_throws failing _ machine

section

variable (represents : Represents machine.server entries) (nodup : (entries.map Prod.fst).Nodup)
  {index : Nat} {fd : Int} {old : List UInt8} (found : entries[index]? = some (fd, old))

include represents nodup found

theorem Represents.request_returns (request : Message) (bytes : List UInt8)
    (isRequest : isRequest request = true)
    (closable : request.flag = 8 → machine.server.Closable fd)
    (listed : request.flag = 12 → AnswersListing machine fd request bytes) :
    ∃ next reply after, Answers request reply ∧ Represents next after ∧
      after.Perm (afterMessage entries fd request) ∧ ∀ fails : Int → Bool,
        (fails fd = false → Returns (handleMessage fails fd request bytes) machine next
          [(fd, machine.server.response reply)]) ∧
        (fails fd = true → ∃ made,
          handleMessage fails fd request bytes machine = some (.error .sendEx, made)) := by
  obtain ⟨inside, _⟩ := List.getElem?_eq_some_iff.mp found
  simp only [Chat.isRequest, Bool.or_eq_true, decide_eq_true_eq] at isRequest
  unfold afterMessage
  rcases isRequest with (leave | length) | list
  · have dispatched (fails : Int → Bool) :
        handleMessage fails fd request bytes = exitResponse fails fd := by
      simp only [handleMessage, dispatch, leave]
      rfl
    obtain ⟨next, returns, left, _⟩ := represents.exitResponse_returns nodup found (closable leave)
    rw [if_neg (by simp [leave]), if_pos leave]
    refine ⟨next, { Message.new with flag := 9 }, _, .inl ⟨leave, rfl⟩, left, ?_, ?_⟩
    · exact (swapRemove_perm entries index inside).trans (.of_eq (eraseIdx_eq_hangUp nodup found))
    · intro fails
      rw [dispatched fails]
      exact ⟨returns fails, fun failing => closing_throws failing _ machine⟩
  · have dispatched (fails : Int → Bool) :
        handleMessage fails fd request bytes = listLengthResponse fails fd := by
      simp only [handleMessage, dispatch, length]
      rfl
    have loads := loadInt_htonl (UInt32.ofInt machine.server.numOpen) []
    rw [List.append_nil] at loads
    rw [if_neg (by simp [length]), if_neg (by simp [length])]
    let reply : Message := { Message.new with
      flag := 11, text := intText machine.server.numOpen }
    refine ⟨_, reply, _, .inr (.inl ⟨length, rfl, _, loads⟩), represents.numbered, .refl _, ?_⟩
    intro fails
    have attempts := respond_attempts fails fd reply machine
    rw [dispatched fails]
    exact ⟨fun works => attempts.returns (by simpa using works),
      fun failing => ⟨_, attempts.throws (List.mem_singleton_self _) failing⟩⟩
  · obtain ⟨answer, answers, responds⟩ := listed list
    rw [if_neg (by simp [list]), if_neg (by simp [list])]
    refine ⟨_, answer, _, .inr (.inr ⟨list, answers⟩), represents.numbered, .refl _, ?_⟩
    intro fails
    have attempts := respond_attempts fails fd answer machine
    rw [Returns, responds fails]
    exact ⟨fun works => attempts.returns (by simpa using works),
      fun failing => ⟨_, attempts.throws (List.mem_singleton_self _) failing⟩⟩

theorem Represents.handleMessage_returns (message : Message) (bytes : List UInt8)
    (named : message.flag = 1 → 1 ≤ message.fromHandle.bytes.length)
    (closable : Departs entries message → machine.server.Closable fd)
    (listed : message.flag = 12 → AnswersListing machine fd message bytes) :
    ∃ next sends after, Represents next after ∧ after.Perm (afterMessage entries fd message) ∧
      ∀ fails, (Tolerated entries fd message fails →
          Returns (handleMessage fails fd message bytes) machine next sends) ∧
        (¬Tolerated entries fd message fails → ∃ made,
          handleMessage fails fd message bytes machine = some (.error .sendEx, made)) := by
  by_cases request : isRequest message = true
  · obtain ⟨next, reply, after, _, left, changed, outcome⟩ :=
      represents.request_returns nodup found message bytes request
        (fun leave => closable (.inl leave)) listed
    refine ⟨next, [(fd, machine.server.response reply)], after, left, changed, ?_⟩
    intro fails
    rw [tolerated_request request]
    exact ⟨(outcome fails).1, fun failing => (outcome fails).2 (by simpa using failing)⟩
  simp only [isRequest, Bool.or_eq_true, decide_eq_true_eq, not_or] at request
  obtain ⟨⟨leave, length⟩, list⟩ := request
  unfold afterMessage
  rw [if_neg leave]
  by_cases register : message.flag = 1
  · have dispatched (fails : Int → Bool) :
        handleMessage fails fd message bytes = initialPacket fails fd message := by
      simp only [handleMessage, dispatch, register]
      rfl
    obtain ⟨next, after, returns, left, changed⟩ :=
      represents.initialPacket_returns nodup found message (named register)
        (fun taken => closable (.inr ⟨register, taken⟩))
    rw [if_pos register]
    refine ⟨next, [(fd, machine.server.response (registration entries message.fromHandle))],
      after, left, changed, ?_⟩
    intro fails
    rw [dispatched fails, tolerated_registration register]
    refine ⟨returns fails, ?_⟩
    intro failing
    simp only [not_or, Bool.not_eq_false] at failing
    exact represents.initialPacket_throws failing.2 message (named register) failing.1
  rw [if_neg register]
  by_cases routed : message.flag = 6
  · have dispatched (fails : Int → Bool) : handleMessage fails fd message bytes =
        messagePacket fails fd message bytes := by
      simp only [handleMessage, dispatch, routed]
      rfl
    obtain ⟨next, attempts, same⟩ := represents.messagePacket_attempts fd message bytes
    have left : Represents next entries := by
      rcases same with rfl | rfl
      · exact represents
      · exact represents.numbered
    refine ⟨next, routes machine.server entries fd message bytes, _, left, .refl _, ?_⟩
    intro fails
    rw [dispatched fails, tolerated_routes routed machine.server bytes]
    refine ⟨(attempts fails).returns, ?_⟩
    intro failing
    simp only [not_forall, Bool.not_eq_false] at failing
    obtain ⟨sent, member, failing⟩ := failing
    exact ⟨_, (attempts fails).throws member failing⟩
  · have ignored (fails : Int → Bool) : handleMessage fails fd message bytes = pure () := by
      simp only [handleMessage, dispatch, if_neg register, if_neg leave, if_neg routed,
        if_neg length, if_neg list]
    have nobody : addressees entries fd message = [] := by
      simp only [addressees, dispatch, if_neg register, if_neg leave, if_neg routed,
        if_neg length, if_neg list]
    refine ⟨_, [], _, represents, .refl _, ?_⟩
    intro fails
    rw [ignored fails, Tolerated, nobody]
    exact ⟨fun _ => by simp [Returns], fun failing => absurd (.inr (by simp)) failing⟩

theorem Represents.closable_of_returns {message : Message} {bytes : List UInt8}
    {fails : Int → Bool} {next : Server} {sends : List (Int × List UInt8)}
    (departs : Departs entries message)
    (returns : Returns (handleMessage fails fd message bytes) machine next sends) :
    machine.server.Closable fd := by
  by_contra stuck
  rcases departs with leave | ⟨register, taken⟩
  · have dispatched : handleMessage fails fd message bytes = exitResponse fails fd := by
      simp only [handleMessage, dispatch, leave]
      rfl
    rw [dispatched] at returns
    exact represents.closing_undefined nodup found stuck fails _ next sends returns
  · have dispatched :
        handleMessage fails fd message bytes = initialPacket fails fd message := by
      simp only [handleMessage, dispatch, register]
      rfl
    rw [dispatched] at returns
    cases handle : message.fromHandle.bytes with
    | nil =>
        rw [Returns, initialPacket_nameless handle] at returns
        cases returns
    | cons first rest =>
        rw [Returns, represents.initialPacket_refused fails fd message first rest handle
          (not_free (handle ▸ taken))] at returns
        exact represents.closing_undefined nodup found stuck fails _ next sends returns

end

end

theorem free_perm {entries connections : List Entry} (same : entries.Perm connections)
    (handle : List UInt8) : Free entries handle ↔ Free connections handle := by
  simp only [Free, same.mem_iff]

theorem afterMessage_perm {entries connections : List Entry} (same : entries.Perm connections)
    (fd : Int) (message : Message) :
    (afterMessage entries fd message).Perm (afterMessage connections fd message) := by
  unfold afterMessage
  split
  · by_cases available : Free connections (cString message.fromHandle.bytes)
    · rw [if_pos available, if_pos ((free_perm same _).mpr available)]
      exact same.map _
    · rw [if_neg available, if_neg (fun other => available ((free_perm same _).mp other))]
      exact same.filter _
  · split
    · exact same.filter _
    · exact same

theorem Distinct.afterMessage {connections : List Entry} (distinct : Distinct connections)
    (fd : Int) (message : Message)
    (short : message.flag = 1 → message.fromHandle.bytes.length ≤ maxHandleSize) :
    Distinct (afterMessage connections fd message) := by
  unfold Chat.afterMessage
  split
  · rename_i register
    split
    · rename_i free
      exact distinct.rename fd _ free (Nat.le_trans (cString_length_le _) (short register))
    · exact distinct.hangUp fd
  · split
    · exact distinct.hangUp fd
    · exact distinct

theorem Registered.afterMessage {connections : List Entry} (registered : Registered connections)
    (fd : Int) (message : Message) : Registered (afterMessage connections fd message) := by
  unfold Chat.afterMessage
  split
  · split
    · rename_i free
      exact registered.rename fd _ free
    · exact registered.hangUp fd
  · split
    · exact registered.hangUp fd
    · exact registered

theorem Distinct.perm {entries connections : List Entry} (distinct : Distinct connections)
    (same : entries.Perm connections) : Distinct entries := by
  refine ⟨⟨(same.map _).nodup_iff.mpr distinct.nodup, ?_⟩, ?_⟩
  · intro first firstMember second secondMember
    exact distinct.named first (same.mem_iff.mp firstMember) second (same.mem_iff.mp secondMember)
  · intro entry inside
    exact distinct.short entry (same.mem_iff.mp inside)

def KeepsOthers (fd : Int) (entries after : List Entry) : Prop :=
  ∀ entry : Entry, entry.1 ≠ fd → (entry ∈ after ↔ entry ∈ entries)

theorem keepsOthers_hangUp (entries : List Entry) (fd : Int) :
    KeepsOthers fd entries (hangUp entries fd) := by
  intro entry other
  simp [hangUp, other]

theorem keepsOthers_afterMessage {entries : List Entry} {fd : Int} {message : Message} :
    KeepsOthers fd entries (afterMessage entries fd message) := by
  have hung := keepsOthers_hangUp entries fd
  have renamed (handle : List UInt8) : KeepsOthers fd entries (rename entries fd handle) := by
    intro entry other
    constructor
    · intro member
      obtain ⟨old, inside, same⟩ := List.mem_map.mp member
      split at same
      · exact absurd (by rw [← same]) other
      · exact same ▸ inside
    · intro inside
      exact List.mem_map.mpr ⟨entry, inside, if_neg other⟩
  unfold afterMessage
  split
  · split
    · exact renamed _
    · exact hung
  · split
    · exact hung
    · exact fun _ _ => Iff.rfl

theorem nodup_afterMessage {entries : List Entry} (nodup : (entries.map Prod.fst).Nodup)
    (fd : Int) (message : Message) : ((afterMessage entries fd message).map Prod.fst).Nodup := by
  have hung : ((hangUp entries fd).map Prod.fst).Nodup :=
    nodup.sublist (List.filter_sublist.map Prod.fst)
  unfold afterMessage
  split
  · split
    · rw [rename_fst]
      exact nodup
    · exact hung
  · split
    · exact hung
    · exact nodup

theorem Consistent.entry {service : Service} (consistent : Consistent service) {fd : Int}
    (connected : ∃ connection ∈ service.connections, connection.1 = fd) :
    ∃ (entries : List Entry) (index : Nat) (old : List UInt8), Represents service.server entries ∧
      entries.Perm service.connections ∧ Distinct entries ∧
      entries[index]? = some (fd, old) ∧
      fd ∈ service.server.openSockets.take service.server.numOpen := by
  obtain ⟨distinct, entries, represents, same⟩ := consistent
  obtain ⟨⟨fd, handle⟩, member, rfl⟩ := connected
  obtain ⟨index, found⟩ := List.mem_iff_getElem?.mp (same.mem_iff.mpr member)
  refine ⟨entries, index, handle, represents, same, distinct.perm same, found, ?_⟩
  rw [represents.sockets_eq]
  exact List.mem_map.mpr ⟨_, List.mem_of_getElem? found, rfl⟩

theorem departs_perm {entries connections : List Entry} (same : entries.Perm connections)
    (message : Message) : Departs entries message ↔ Departs connections message := by
  simp only [Departs, free_perm same]

section

variable [Allocator] {fails : Int → Bool} {server next : Server}

theorem serve_accept_iff (fd : Int) : serve fails (.accept fd) server = some next ↔
    ∃ sends, Returns (answer fd) ⟨server, []⟩ next sends := by
  simp only [serve, Option.bind_some]
  constructor
  · intro served
    split at served
    · rename_i machine accepts
      exact ⟨machine.sends, Option.some.inj served ▸ accepts⟩
    · cases served
  · rintro ⟨sends, returns⟩
    rw [Returns] at returns
    simp only [returns]

theorem serve_recv_iff (fd : Int) (result : Option (List UInt8)) :
    serve fails (.recv fd result) server = some next ↔
      fd ∈ server.openSockets.take server.numOpen ∧
        ∃ sends, Returns (processPacket fails fd result) ⟨server, []⟩ next sends := by
  by_cases listed : fd ∈ server.openSockets.take server.numOpen
  · rw [and_iff_right listed]
    simp only [serve, if_pos listed, Option.bind_some]
    constructor
    · intro served
      split at served
      · rename_i machine handles
        exact ⟨machine.sends, Option.some.inj served ▸ handles⟩
      · cases served
    · rintro ⟨sends, returns⟩
      rw [Returns] at returns
      simp only [returns]
  · simp only [serve, if_neg listed, Option.bind_none]
    refine iff_of_false ?_ (fun returns => listed returns.1)
    intro served
    cases served

end

section

variable [Allocator] {service : Service}

theorem Represents.movable {entries : List Entry} {fails : Int → Bool} {event : Event}
    {next : Server} (represents : Represents service.server entries)
    (nodup : (entries.map Prod.fst).Nodup) (same : entries.Perm service.connections)
    (served : serve fails event service.server = some next) : Movable service event := by
  cases event with
  | accept fd => trivial
  | recv fd result =>
      obtain ⟨listed, sends, returns⟩ := (serve_recv_iff fd result).mp served
      have initial : Represents (Machine.mk service.server []).server entries := represents
      rw [represents.sockets_eq] at listed
      obtain ⟨⟨fd, old⟩, member, rfl⟩ := List.mem_map.mp listed
      obtain ⟨index, found⟩ := List.mem_iff_getElem?.mp member
      rintro received rfl (rfl | ⟨message, unpacks, departs⟩)
      · by_contra stuck
        rw [Returns] at returns
        cases returns.symm.trans (initial.closeConnection_undefined nodup found stuck)
      · rw [Returns, processPacket_message unpacks] at returns
        exact initial.closable_of_returns nodup found ((departs_perm same message).mpr departs)
          returns

theorem Consistent.serves (consistent : Consistent service) (event : Event)
    (allowed : Allowed service event) (movable : Movable service event) :
    ∃ next, Service.step reliable event service = some next ∧ Consistent next := by
  have distinct := consistent.distinct
  cases event with
  | accept fd =>
      obtain ⟨entries, represents, same⟩ := consistent.table
      have initial : Represents (Machine.mk service.server []).server entries := represents
      obtain ⟨valid, fresh, room⟩ := allowed
      obtain ⟨next, returns, after⟩ := initial.answer_returns fd valid
        (by rw [← represents.numOpen_eq]; exact room)
      refine ⟨⟨next, service.connections ++ [(fd, [])]⟩, ?_, distinct.accept fd fresh, _, after,
        same.append_right _⟩
      rw [Service.step, (serve_accept_iff fd).mpr ⟨_, returns⟩]
      rfl
  | recv fd result =>
      cases result with
      | none => cases allowed
      | some received =>
      obtain ⟨connected, received⟩ := allowed
      obtain ⟨entries, index, old, represents, same, known, found, listed⟩ :=
        consistent.entry connected
      have initial : Represents (Machine.mk service.server []).server entries := represents
      obtain ⟨inside, _⟩ := List.getElem?_eq_some_iff.mp found
      rcases received with rfl | ⟨message, unpacks, wellFormed⟩
      · obtain ⟨next, closes, after, _⟩ :=
          initial.closeConnection_returns known.nodup found (movable [] rfl (.inl rfl))
        have returns : Returns (processPacket reliable fd (some [])) ⟨service.server, []⟩ next [] :=
          closes
        refine ⟨⟨next, hangUp service.connections fd⟩, ?_, distinct.hangUp fd, _, after, ?_⟩
        · rw [Service.step, (serve_recv_iff fd _).mpr ⟨listed, _, returns⟩]
          rfl
        · refine (swapRemove_perm entries index inside).trans ?_
          rw [eraseIdx_eq_hangUp known.nodup found]
          exact same.filter _
      · obtain ⟨next, sends, after, left, changed, outcome⟩ :=
          initial.handleMessage_returns known.nodup found message received
            (fun _ => wellFormed.1)
            (fun departs => movable received rfl
              (.inr ⟨message, unpacks, (departs_perm same message).mp departs⟩)) (by
              intro list
              obtain ⟨value, loads, below⟩ := wellFormed.2.2 list
              exact initial.listRequest_returns known.short list loads (Int.ne_of_lt below) fd received)
        refine ⟨⟨next, afterMessage service.connections fd message⟩, ?_,
          distinct.afterMessage fd message (fun _ => wellFormed.2.1), after, left,
          changed.trans (afterMessage_perm same fd message)⟩
        have processes : Returns (processPacket reliable fd (some received)) ⟨service.server, []⟩
            next sends :=
          (processPacket_message unpacks reliable fd _).trans
            ((outcome reliable).1 (tolerated_reliable _ fd message))
        have nonempty : received ≠ [] := by
          rintro rfl
          cases unpacks
        rw [Option.mem_def] at unpacks
        rw [Service.step, (serve_recv_iff fd _).mpr ⟨listed, _, processes⟩]
        simp only [afterEvent, if_neg nonempty, unpacks, Option.map_some]

end

/-! What the tables say in every reachable state. -/

structure KnowsConnections [Allocator] (service : Service) : Prop where
  counts : service.server.numOpen = service.server.numClients
  nodup : (service.server.openSockets.take service.server.numOpen).Nodup
  listed : (service.server.openSockets.take service.server.numOpen).Perm
    (service.connections.map Prod.fst)
  paired : ∀ i < service.server.numOpen, ∃ fd buffer, service.server.openSockets[i]? = some fd ∧
    service.server.client i = some buffer ∧ 0 ∈ buffer.bytes ∧
      (fd, buffer.string) ∈ service.connections
  named : ∀ i < service.server.numOpen, ∀ j < service.server.numOpen, ∀ first second,
    service.server.client i = some first → service.server.client j = some second →
      first.string ≠ [] → first.string = second.string → i = j
  finds : ∀ handle fd sends, cString handle ≠ [] →
    (findByHandle handle ⟨service.server, sends⟩ = some (.ok fd, ⟨service.server, sends⟩) ↔
      (fd, cString handle) ∈ service.connections)
  answers : ∀ connection ∈ service.connections, ∀ message : Message, message.flag = 1 →
    WellFormed service.server message → (¬Free service.connections
      (cString message.fromHandle.bytes) → service.server.Closable connection.1) → ∃ next,
      Returns (processPacket reliable connection.1 (some message.bytes)) ⟨service.server, []⟩ next
        [(connection.1, service.server.response
          (registration service.connections message.fromHandle))]

theorem Consistent.knows [Allocator] {service : Service} (consistent : Consistent service) :
    KnowsConnections service := by
  obtain ⟨distinct, entries, represents, same⟩ := consistent
  have initial : Represents (Machine.mk service.server []).server entries := represents
  have nodup : (entries.map Prod.fst).Nodup := (same.map _).nodup_iff.mpr distinct.nodup
  constructor
  · exact represents.numOpen_eq.trans represents.numClients_eq.symm
  · rw [represents.sockets_eq]
    exact nodup
  · rw [represents.sockets_eq]
    exact same.map _
  · intro i inside
    rw [represents.numOpen_eq] at inside
    have found := List.getElem?_eq_getElem inside
    obtain ⟨buffer, client, terminated, string⟩ := represents.client i _ _ found
    refine ⟨_, buffer, represents.socket i _ _ found, client, terminated, ?_⟩
    rw [string]
    exact same.mem_iff.mp (List.getElem_mem inside)
  · intro i iInside j jInside first second iClient jClient nonempty equal
    rw [represents.numOpen_eq] at iInside jInside
    obtain ⟨_, iFound, _, iString⟩ := represents.client i _ _ (List.getElem?_eq_getElem iInside)
    obtain ⟨_, jFound, _, jString⟩ := represents.client j _ _ (List.getElem?_eq_getElem jInside)
    rw [iClient, Option.some.injEq] at iFound
    rw [jClient, Option.some.injEq] at jFound
    subst iFound jFound
    rw [iString] at nonempty
    have socket := distinct.named _ (same.mem_iff.mp (List.getElem_mem iInside)) _
      (same.mem_iff.mp (List.getElem_mem jInside)) nonempty (iString.symm.trans (equal.trans jString))
    have iPosition := findIdx?_socket entries[i].1 _ i nodup
      (by rw [List.getElem?_map, List.getElem?_eq_getElem iInside, Option.map_some])
    have jPosition := findIdx?_socket entries[i].1 _ j nodup
      (by rw [List.getElem?_map, List.getElem?_eq_getElem jInside, Option.map_some, socket])
    exact Option.some.inj (iPosition.symm.trans jPosition)
  · intro handle fd sends nonempty
    have known : Represents (Machine.mk service.server sends).server entries := represents
    cases found : entries.find? fun entry => entry.2 == cString handle with
    | none =>
        have missing (entry : Entry) (member : entry ∈ entries) : entry.2 ≠ cString handle := by
          simpa using List.find?_eq_none.mp found entry member
        rw [known.findByHandle_unknown handle missing]
        constructor
        · intro finds
          cases finds
        · intro member
          exact absurd rfl (missing _ (same.mem_iff.mpr member))
    | some entry =>
        have string : entry.2 = cString handle := by simpa using List.find?_some found
        have member := same.mem_iff.mp (List.mem_of_find?_eq_some found)
        rw [known.findByHandle_found handle entry found]
        constructor
        · intro finds
          rw [Option.some.injEq, Prod.mk.injEq, Except.ok.injEq] at finds
          rw [← finds.1, ← string]
          exact member
        · intro registered
          rw [distinct.named entry member _ registered (string ▸ nonempty) string]
  · rintro ⟨fd, old⟩ member message flag wellFormed closable
    obtain ⟨index, found⟩ := List.mem_iff_getElem?.mp (same.mem_iff.mpr member)
    obtain ⟨next, _, returns, _⟩ :=
      initial.initialPacket_returns nodup found message wellFormed.1
        (fun taken => closable (fun free => taken ((free_perm same _).mpr free)))
    have dispatched : handleMessage reliable fd message message.bytes =
        initialPacket reliable fd message := by
      simp only [handleMessage, dispatch, flag]
      rfl
    have answer : registration entries message.fromHandle =
        registration service.connections message.fromHandle := by
      simp only [registration, free_perm same]
    refine ⟨next, ?_⟩
    rw [Returns, processPacket_message (unpack_bytes message), dispatched, ← answer]
    exact returns reliable (.inr rfl)

section

variable [Allocator]

theorem Consistent.movable {service next : Service} (consistent : Consistent service)
    {fails : Int → Bool} {event : Event} (taken : service.step fails event = some next) :
    Movable service event := by
  obtain ⟨distinct, entries, represents, same⟩ := consistent
  obtain ⟨server, served, _⟩ := Option.map_eq_some_iff.mp taken
  exact represents.movable (distinct.perm same).nodup same served

theorem Consistent.undefined {service : Service} (consistent : Consistent service)
    {fails : Int → Bool} {event : Event} (stuck : ¬Movable service event) :
    service.step fails event = none := by
  cases taken : service.step fails event with
  | none => rfl
  | some next => exact absurd (consistent.movable taken) stuck

theorem reach_consistent {answeringMachine : Int} {service : Service}
    (reach : Transition.Reach (· = Service.start answeringMachine) (Service.step reliable)
      (fun service event _ => Allowed service event) service) : Consistent service := by
  refine reach.invariant ?_ ?_
  · rintro _ rfl
    exact start_consistent answeringMachine
  · intro state event next before taken allowed
    obtain ⟨after, same, holds⟩ := before.serves event allowed (before.movable taken)
    rw [same, Option.some.injEq] at taken
    exact taken ▸ holds

/-- In every state that is reached the tables hold the open connections, each with the handle it
last registered. An allowed event is served exactly when it moves no handle into a block that is
too small. -/
theorem table_consistent (answeringMachine : Int) (service : Service)
    (reach : Transition.Reach (· = Service.start answeringMachine) (Service.step reliable)
      (fun service event _ => Allowed service event) service) :
    KnowsConnections service ∧ ∀ event, Allowed service event →
      ((∃ next, Service.step reliable event service = some next) ↔ Movable service event) := by
  have consistent := reach_consistent reach
  refine ⟨consistent.knows, ?_⟩
  intro event allowed
  constructor
  · rintro ⟨next, taken⟩
    exact consistent.movable taken
  · intro movable
    obtain ⟨next, taken, _⟩ := consistent.serves event allowed movable
    exact ⟨next, taken⟩

end

def registerAs (handle : Handle) : Message := { Message.new with flag := 1, fromHandle := handle }

section

attribute [local instance] roundedBlocks

def swappedEvents : List Event :=
  [.accept 4, .accept 5, .packet 4 (registerAs (handleOf 65)).bytes,
    .packet 5 (registerAs (handleOf 66)).bytes, .packet 4 []]

theorem table_consistent_swapped : ∃ service,
    Transition.run (Service.step reliable) swappedEvents (Service.start 3) = some service ∧
      service.connections = [(5, [66])] ∧ KnowsConnections service := by
  have served : (Transition.run (Service.step reliable) swappedEvents (Service.start 3)).map
      Service.connections = some [(5, [66])] := by
    decide +kernel
  have allowed : Transition.Permitted (Service.step reliable)
      (fun service event _ => Allowed service event) swappedEvents (Service.start 3) := by
    decide +kernel
  obtain ⟨service, executed, same⟩ := Option.map_eq_some_iff.mp served
  refine ⟨service, executed, same, (table_consistent 3 service ?_).1⟩
  exact .run swappedEvents (.start rfl) executed allowed

def longHandle : Handle := ⟨List.replicate 24 66, by decide⟩

def longEvents : List Event :=
  [.accept 4, .accept 5, .packet 4 (registerAs (handleOf 65)).bytes,
    .packet 5 (registerAs longHandle).bytes]

/-- When the first client drops, the NUL of the other handle is written behind its new block. -/
theorem table_overflows : ∃ service,
    Transition.Reach (· = Service.start 3) (Service.step reliable)
      (fun service event _ => Allowed service event) service ∧
    service.connections = [(4, [65]), (5, longHandle.bytes)] ∧ Allowed service (.packet 4 []) ∧
    ∀ fails, Service.step fails (.packet 4 []) service = none := by
  have served : (Transition.run (Service.step reliable) longEvents (Service.start 3)).map
      (fun service => (service.connections, decide (Allowed service (.packet 4 [])),
        decide (Movable service (.packet 4 [])))) =
      some ([(4, [65]), (5, longHandle.bytes)], true, false) := by
    decide +kernel
  have allowed : Transition.Permitted (Service.step reliable)
      (fun service event _ => Allowed service event) longEvents (Service.start 3) := by
    decide +kernel
  obtain ⟨service, executed, values⟩ := Option.map_eq_some_iff.mp served
  obtain ⟨connections, drops, stuck⟩ := by simpa only [Prod.mk.injEq] using values
  have reach : Transition.Reach (· = Service.start 3) (Service.step reliable)
      (fun service event _ => Allowed service event) service :=
    .run longEvents (.start rfl) executed allowed
  exact ⟨service, reach, connections, of_decide_eq_true drops, fun fails =>
    (reach_consistent reach).undefined (of_decide_eq_false stuck)⟩

end

end Chat
