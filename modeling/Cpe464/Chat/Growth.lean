import Cpe464.Chat.GrowthCore
import Cpe464.Chat.Failure
import Cpe464.Chat.HandlerSteps

/-!
What `resize` keeps of the tables: the bytes that it copies, in every state of the arrays, and
the connections of a server before it has grown.
-/

namespace Chat

open Bytes Effects Transition

/-! The bytes. -/

section

variable {size other : Nat}

theorem fetch_copied (source : Buffer size) (count : Nat) (covered : count ≤ size)
    (fits : size ≤ other) (j : Nat) :
    ((Buffer.zero other).store 0 (source.bytes.take count)).fetch j =
      if j < count then source.fetch j else 0 := by
  have length : (source.bytes.take count).length = count := by
    rw [List.length_take, source.length_eq]
    omega
  rw [Buffer.fetch, Buffer.zero_store _ (by omega), List.getD_eq_getElem?_getD,
    List.getElem?_append, length]
  by_cases inside : j < count
  · rw [if_pos inside, if_pos inside, List.getElem?_take, if_pos inside, Buffer.fetch,
      List.getD_eq_getElem?_getD]
  · rw [if_neg inside, if_neg inside, List.getElem?_replicate]
    split <;> rfl

theorem slots_eq_iff {width : Nat} (positive : 0 < width) (left : Buffer size)
    (right : Buffer other) (count : Nat) : (∀ i < count, slot width left i = slot width right i) ↔
      ∀ j < width * count, left.fetch j = right.fetch j := by
  constructor
  · intro same j inside
    have entry := same (j / width) ((Nat.div_lt_iff_lt_mul positive).mpr (by
      rw [Nat.mul_comm]
      exact inside))
    simp only [slot, List.map_inj_left, List.mem_range] at entry
    have byte := entry (j % width) (Nat.mod_lt _ positive)
    rwa [Nat.div_add_mod] at byte
  · intro same i inside
    simp only [slot, List.map_inj_left, List.mem_range]
    intro k below
    apply same
    calc width * i + k < width * (i + 1) := by rw [Nat.mul_succ]; omega
      _ ≤ width * count := Nat.mul_le_mul_left _ inside

theorem slot_zero {width : Nat} {array : Buffer size} {i : Nat}
    (zero : ∀ k < width, array.fetch (width * i + k) = 0) :
    slot width array i = List.replicate width 0 := by
  apply List.ext_getElem?
  intro k
  rw [slot, List.getElem?_map, List.getElem?_replicate]
  by_cases below : k < width
  · rw [List.getElem?_range below, Option.map_some, zero k below, if_pos below]
  · rw [List.getElem?_eq_none (by rw [List.length_range]; omega), if_neg below]
    rfl

end

theorem Arrays.resize_fetch {arrays next : Arrays} (grown : arrays.numOpen + 2 = arrays.capacity)
    (resizes : arrays.resize = some next) : next.capacity = 2 * arrays.capacity ∧
      next.numOpen = arrays.numOpen ∧
      (∀ j, next.openSockets.fetch j =
        if j < arrays.capacity then arrays.openSockets.fetch j else 0) ∧
      ∀ j, next.clients.fetch j = if j < arrays.capacity then arrays.clients.fetch j else 0 := by
  simp only [Arrays.resize, if_pos grown] at resizes
  split at resizes
  · obtain rfl := Option.some.inj resizes
    have sockets : 4 * arrays.capacity ≤ 4 * (2 * arrays.capacity) := by omega
    have clients : 8 * arrays.capacity ≤ 8 * (2 * arrays.capacity) := by omega
    exact ⟨rfl, rfl, fetch_copied _ _ (by omega) sockets, fetch_copied _ _ (by omega) clients⟩
  · cases resizes

theorem blank_iff {size : Nat} (array : Buffer size) (capacity count : Nat) :
    (∀ j < count, (if j < capacity then array.fetch j else 0) = array.fetch j) ↔
      ∀ j < count, capacity ≤ j → array.fetch j = 0 := by
  constructor
  · intro same j inside behind
    have byte := same j inside
    rw [if_neg (by omega)] at byte
    exact byte.symm
  · intro blank j inside
    split
    · rfl
    · exact (blank j inside (by omega)).symm

theorem Arrays.grows_iff (arrays : Arrays) (grown : arrays.numOpen + 2 = arrays.capacity) :
    arrays.Grows ↔ 2 * arrays.capacity < 2 ^ 31 ∧ arrays.Blank := by
  have kept {next : Arrays} (resizes : arrays.resize = some next) :
      (∀ i < arrays.numOpen, next.openSocket i = arrays.openSocket i ∧
        next.client i = arrays.client i) ↔ arrays.Blank := by
    obtain ⟨_, _, sockets, clients⟩ := Arrays.resize_fetch grown resizes
    rw [Arrays.Blank, ← blank_iff, ← blank_iff]
    simp only [← sockets, ← clients, ← slots_eq_iff (by decide : 0 < 4),
      ← slots_eq_iff (by decide : 0 < 8)]
    exact forall₂_and
  constructor
  · rintro ⟨next, resizes, _, same, _⟩
    refine ⟨?_, (kept resizes).mp same⟩
    by_contra large
    simp only [Arrays.resize, if_pos grown, if_neg large] at resizes
    cases resizes
  · rintro ⟨small, blank⟩
    obtain ⟨next, resizes⟩ : ∃ next, arrays.resize = some next := by
      simp only [Arrays.resize, if_pos grown, if_pos small]
      exact ⟨_, rfl⟩
    obtain ⟨capacity, _, sockets, clients⟩ := Arrays.resize_fetch grown resizes
    refine ⟨next, resizes, capacity, (kept resizes).mpr blank, ?_⟩
    intro i behind
    constructor
    · apply slot_zero
      intro k _
      rw [sockets, if_neg (by omega)]
    · apply slot_zero
      intro k _
      rw [clients, if_neg (by omega)]

theorem slot_copied {width size other count : Nat} (positive : 0 < width) (whole : width ∣ count)
    {old : Buffer size} {new : Buffer other}
    (copied : ∀ j, new.fetch j = if j < count then old.fetch j else 0) (i : Nat) :
    slot width new i = if i < count / width then slot width old i else List.replicate width 0 := by
  obtain ⟨entries, rfl⟩ := whole
  rw [Nat.mul_div_cancel_left _ positive]
  split
  · rename_i inside
    have behind : width * (i + 1) ≤ width * entries := Nat.mul_le_mul_left _ inside
    rw [Nat.mul_succ] at behind
    simp only [slot, List.map_inj_left, List.mem_range]
    intro k below
    rw [copied, if_pos (by omega)]
  · rename_i outside
    have before : width * entries ≤ width * i := Nat.mul_le_mul_left _ (by omega)
    apply slot_zero
    intro k _
    rw [copied, if_neg (by omega)]

theorem take_range_replicate {α : Type} {count kept : Nat} (f : Nat → α) (blank : α)
    (inside : kept ≤ count) : ((List.range count).map f).take kept ++
      List.replicate (2 * count - kept) blank =
        (List.range (2 * count)).map fun i => if i < kept then f i else blank := by
  have length : (((List.range count).map f).take kept).length = kept := by
    rw [List.length_take, List.length_map, List.length_range]
    omega
  apply List.ext_getElem?
  intro i
  rw [List.getElem?_append, length, List.getElem?_map, List.getElem?_take, List.getElem?_map,
    List.getElem?_replicate]
  by_cases copied : i < kept
  · rw [if_pos copied, if_pos copied, List.getElem?_range (by omega), List.getElem?_range (by omega),
      Option.map_some, Option.map_some, if_pos copied]
  · rw [if_neg copied]
    by_cases below : i < 2 * count
    · rw [if_pos (by omega), List.getElem?_range below, Option.map_some, if_neg copied]
    · rw [if_neg (by omega), List.getElem?_eq_none (by rw [List.length_range]; omega)]
      rfl

theorem Arrays.Shows.resize {host : ByteOrder} {heap : List UInt8 → HandleBuffer}
    {arrays next : Arrays} {server : Server} (shows : arrays.Shows host heap server)
    (whole : 8 ∣ arrays.capacity) (resizes : arrays.resize = some next) :
    next.Shows host heap (Chat.resize server) := by
  obtain ⟨numOpen, capacity, openSockets, clients⟩ := shows
  by_cases grown : arrays.numOpen + 2 = arrays.capacity
  · obtain ⟨nextCapacity, nextOpen, nextSockets, nextClients⟩ :=
      Arrays.resize_fetch grown resizes
    have socket := slot_copied (by decide : 0 < 4) (Dvd.dvd.trans (by decide) whole) nextSockets
    have client := slot_copied (by decide : 0 < 8) whole nextClients
    have zero : intOf host (List.replicate 4 0) = 0 := by cases host <;> rfl
    rw [Chat.resize, if_pos (by omega)]
    constructor
    · exact numOpen.trans nextOpen.symm
    · exact (congrArg (2 * ·) capacity).trans nextCapacity.symm
    · simp only [capacity, openSockets, nextCapacity, Arrays.openSocket, socket]
      rw [take_range_replicate _ _ (Nat.div_le_self _ _)]
      simp only [apply_ite (intOf host), zero]
    · simp only [capacity, clients, nextCapacity, Arrays.client, client]
      rw [take_range_replicate _ _ (Nat.div_le_self _ _)]
      apply List.map_congr_left
      intro i _
      by_cases inside : i < arrays.capacity / 8
      · rw [if_pos inside]
        simp only [if_pos inside]
        rfl
      · simp only [if_neg inside, if_true]
  · simp only [Arrays.resize, if_neg grown, Option.some.injEq] at resizes
    subst next
    rw [Chat.resize, if_neg (by omega)]
    exact ⟨numOpen, capacity, openSockets, clients⟩

/-! No message changes the capacity. -/

def Machine.capacity (machine : Machine) : Nat := machine.server.capacity

theorem answer_capacity {fd : Int} {machine next : Machine} {outcome : Except Exception Unit}
    (ends : answer fd machine = some (outcome, next)) :
    next.capacity = (resize machine.server).capacity := by
  simp only [answer, bind, modify_apply, get_apply, ↓choose_apply, throw_apply,
    defined_none] at ends
  split at ends
  · split at ends
    · cases ends
      rfl
    · cases ends
      rfl
  · cases ends

section

variable [Allocator]

theorem processPacket_capacity (fails : Int → Bool) (fd : Int) (received : Option (List UInt8)) :
    Preserves Machine.capacity (processPacket fails fd received) := by
  intro machine outcome next ends
  exact (processPacket_settles fails fd received machine outcome next ends).fixed.1

theorem endure_capacity {service next : Service} {incident : Incident}
    (taken : service.endure incident = some next) (admitted : Admitted service incident next) :
    next.server.capacity = service.server.capacity := by
  obtain ⟨event, fails⟩ := incident
  obtain ⟨server, served, rfl⟩ := Option.map_eq_some_iff.mp taken
  cases event with
  | accept fd =>
      obtain ⟨sends, accepts⟩ := (serve_accept_iff fd).mp served
      have capacity := answer_capacity accepts
      simp only [resize, if_neg admitted.2] at capacity
      exact capacity
  | recv fd result =>
      obtain ⟨_, sends, handles⟩ := (serve_recv_iff fd result).mp served
      exact processPacket_capacity fails fd _ _ _ _ handles

theorem reach_capacity {answeringMachine : Int} {service : Service}
    (reach : Reach (· = Service.start answeringMachine) Service.endure Admitted service) :
    service.server.capacity = bufferSize := by
  induction reach with
  | start begins =>
      rw [begins]
      rfl
  | step incident _ taken admitted ih => exact (endure_capacity taken admitted).trans ih

end

/-! The connections. -/

theorem grown_entries {service : Service} {next : Server} {fd : Int} (valid : fd ≠ -1)
    (capacity : service.server.capacity = bufferSize) (full : service.server.numOpen = 1022)
    (sockets : service.server.openSockets.length = bufferSize)
    (clients : service.server.clients.length = bufferSize)
    (accepts : Returns (answer fd) ⟨service.server, []⟩ next []) :
    next.numOpen = 1023 ∧ next.client 128 = none ∧ next.openSockets[256]? = some 0 := by
  have grown : resize service.server = { service.server with
      openSockets := service.server.openSockets.take 256 ++ List.replicate 1792 0
      clients := service.server.clients.take 128 ++ List.replicate 1920 none
      capacity := 2048 } := by
    rw [resize, if_pos (by rw [full, capacity]), capacity]
    rfl
  have inside : (resize service.server).numOpen < (resize service.server).capacity := by
    simp only [grown, full]
    decide
  rw [Returns, answer_eq valid inside, Server.accepting, grown] at accepts
  cases accepts
  have keptSockets : (service.server.openSockets.take 256).length = 256 := by
    rw [List.length_take, sockets]
    rfl
  have keptClients : (service.server.clients.take 128).length = 128 := by
    rw [List.length_take, clients]
    rfl
  simp only [full, Server.client]
  refine ⟨trivial, ?_, ?_⟩
  · rw [List.getElem?_set_ne (by decide), List.getElem?_append_right (by omega), keptClients]
    rfl
  · rw [List.getElem?_set_ne (by decide), List.getElem?_append_right (by omega), keptSockets]
    rfl

/-- Growing keeps the bytes of the table exactly when it copies all that are not zero, and does to
them what `resize` does to the tables of a server. In a run of steps with a result the server keeps
its connections exactly as long as no `accept` grows the table. -/
theorem growth_keeps_iff [Allocator] (arrays : Arrays) (full : arrays.numOpen + 2 = arrays.capacity)
    (answeringMachine : Int) (service : Service)
    (reach : Reach (· = Service.start answeringMachine) Service.endure Admitted service) :
    (arrays.Grows ↔ 2 * arrays.capacity < 2 ^ 31 ∧ arrays.Blank) ∧
    (∀ host heap server next, arrays.Shows host heap server → 8 ∣ arrays.capacity →
      arrays.resize = some next → next.Shows host heap (resize server)) ∧
    service.server.numOpen < service.server.capacity ∧ Paired service ∧
    (∀ incident, ¬Movable service incident.event → service.endure incident = none) ∧
    ∀ fd ≠ -1, (∀ connection ∈ service.connections, connection.1 ≠ fd) →
      ((∃ next, Returns (answer fd) ⟨service.server, []⟩ next [] ∧
        Paired ⟨next, service.connections ++ [(fd, [])]⟩) ↔
          service.server.numOpen + 2 ≠ service.server.capacity) := by
  refine ⟨Arrays.grows_iff arrays full, fun host heap server next shows whole resizes =>
    shows.resize whole resizes, ?_⟩
  have paired := reach_paired reach
  have capacity := reach_capacity reach
  obtain ⟨registered, entries, represents, same⟩ := reach_paired reach
  have room := represents.room
  have openEq := represents.numOpen_eq
  refine ⟨by omega, paired, fun incident stuck => paired.undefined stuck, ?_⟩
  intro fd valid fresh
  constructor
  · rintro ⟨next, accepts, _, after, kept, changed⟩
    intro full
    have last : service.server.numOpen = 1022 := Nat.add_right_cancel (full.trans capacity)
    obtain ⟨nextOpen, lost, _⟩ := grown_entries valid capacity last
      (represents.openSockets_length.trans capacity) (represents.clients_length.trans capacity)
      accepts
    have length : next.numOpen = after.length := kept.numOpen_eq
    have inside : 128 < after.length := by omega
    obtain ⟨buffer, client, _⟩ := kept.client 128 _ _ (List.getElem?_eq_getElem inside)
    rw [lost] at client
    cases client
  · intro roomy
    have initial : Represents (Machine.mk service.server []).server entries := represents
    obtain ⟨next, returns, after⟩ := initial.answer_returns fd valid (by rw [← openEq]; exact roomy)
    exact ⟨next, returns, registered.accept fd fresh, _, after, same.append_right _⟩

def emptyArrays : Arrays := ⟨0, 2, Buffer.zero _, Buffer.zero _⟩

section

attribute [local instance] roundedBlocks

theorem growth_keeps_first : emptyArrays.Grows ∧ ∃ next,
    Returns (answer 4) ⟨setup 3, []⟩ next [] ∧ Paired ⟨next, [(4, [])]⟩ := by
  obtain ⟨grows, _, _, _, _, keeps⟩ := growth_keeps_iff emptyArrays rfl 3 (Service.start 3) (.start rfl)
  constructor
  · refine grows.mpr ⟨by decide, ?_, ?_⟩
    · intro j inside
      exact absurd inside (Nat.not_lt_zero j)
    · intro j inside
      exact absurd inside (Nat.not_lt_zero j)
  · exact (keeps 4 (by decide) (by simp [Service.start])).mpr (by decide)

theorem accepts_reached (answeringMachine : Int) (count : Nat) (room : count ≤ 1022) :
    ∃ service, Reach (· = Service.start answeringMachine) Service.endure Admitted service ∧
      service.connections = (List.range count).map fun i : Nat => ((i : Int) + 4, []) := by
  induction count with
  | zero => exact ⟨_, .start rfl, rfl⟩
  | succ count ih =>
      obtain ⟨service, reach, connections⟩ := ih (by omega)
      have capacity := reach_capacity reach
      obtain ⟨_, entries, represents, same⟩ := reach_paired reach
      have initial : Represents (Machine.mk service.server []).server entries := represents
      have length : entries.length = count := by
        rw [same.length_eq, connections, List.length_map, List.length_range]
      have roomy : entries.length + 2 ≠ service.server.capacity := by
        rw [capacity, length]
        have small : count < 1022 := room
        simp only [bufferSize]
        omega
      have fresh : ∀ connection ∈ service.connections, connection.1 ≠ (count : Int) + 4 := by
        rw [connections]
        intro connection member
        obtain ⟨i, inside, rfl⟩ := List.mem_map.mp member
        have below := List.mem_range.mp inside
        simp only
        omega
      obtain ⟨next, returns, _⟩ := initial.answer_returns ((count : Int) + 4) (by omega) roomy
      have taken : service.endure ⟨.accept ((count : Int) + 4), reliable⟩ =
          some ⟨next, service.connections ++ [((count : Int) + 4, [])]⟩ := by
        rw [Service.endure, Service.step, (serve_accept_iff _).mpr ⟨_, returns⟩]
        rfl
      refine ⟨_, .step _ reach taken ⟨fresh, by rw [represents.numOpen_eq]; exact roomy⟩, ?_⟩
      rw [connections, List.range_succ, List.map_append, List.map_singleton]

/-- After 1022 connections the next one makes the server forget the greater part of them. -/
theorem growth_loses : ∃ (service : Service) (next : Server) (old : Int) (handle : HandleBuffer),
    Reach (· = Service.start 3) Service.endure Admitted service ∧
    service.connections.length = 1022 ∧
    Returns (answer 1026) ⟨service.server, []⟩ next [] ∧
    service.server.openSockets[256]? = some old ∧ old ≠ 0 ∧ next.openSockets[256]? = some 0 ∧
    service.server.client 128 = some handle ∧ next.client 128 = none := by
  obtain ⟨service, reach, connections⟩ := accepts_reached 3 1022 (by decide)
  have capacity := reach_capacity reach
  obtain ⟨_, entries, represents, same⟩ := reach_paired reach
  have length : entries.length = 1022 := by
    rw [same.length_eq, connections, List.length_map, List.length_range]
  have full : service.server.numOpen = 1022 := represents.numOpen_eq.trans length
  have inside : (resize service.server).numOpen < (resize service.server).capacity := by
    rw [resize, if_pos (by rw [full, capacity])]
    simp only [full, capacity]
    decide
  have accepts := @answer_eq service.server [] 1026 (by decide) inside
  obtain ⟨_, lost, forgotten⟩ := grown_entries (by decide) capacity full
    (represents.openSockets_length.trans capacity) (represents.clients_length.trans capacity) accepts
  have found := @List.getElem?_eq_getElem _ entries 256 (by omega)
  obtain ⟨handle, client, _⟩ := represents.client 128 _ _
    (@List.getElem?_eq_getElem _ entries 128 (by omega))
  refine ⟨service, _, entries[256].1, handle, reach, ?_, accepts, represents.socket 256 _ _ found, ?_,
    forgotten, client, lost⟩
  · rw [connections, List.length_map, List.length_range]
  · have member := same.mem_iff.mp (List.getElem_mem (by omega : 256 < entries.length))
    rw [connections] at member
    obtain ⟨i, _, entry⟩ := List.mem_map.mp member
    rw [← entry]
    simp only
    omega

end

end Chat
