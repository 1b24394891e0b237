import Mathlib.Data.List.Nodup
import Mathlib.Data.List.TakeWhile
import Cpe464.Library.SwapRemove
import Cpe464.Chat.Message
import Cpe464.Chat.ServerCore

/-!
The two tables of the server as one list of entries, each a descriptor with the handle that
`clients` holds for it, and what the functions of the server do to that list.
-/

namespace Chat

open Bytes Effects SwapRemove

abbrev Entry : Type := Int × List UInt8

/-- The tables hold `entries`, in this order, and NULL behind them. -/
structure Represents (server : Server) (entries : List Entry) : Prop where
  numOpen_eq : server.numOpen = entries.length
  numClients_eq : server.numClients = entries.length
  openSockets_length : server.openSockets.length = server.capacity
  clients_length : server.clients.length = server.capacity
  room : entries.length + 2 ≤ server.capacity
  socket : ∀ (i : Nat) fd handle, entries[i]? = some (fd, handle) → server.openSockets[i]? = some fd
  client : ∀ (i : Nat) fd handle, entries[i]? = some (fd, handle) →
    ∃ buffer, server.client i = some buffer ∧ 0 ∈ buffer.bytes ∧ buffer.string = handle
  vacant : ∀ i, entries.length ≤ i → server.client i = none

/-! Strings. -/

theorem cString_append_zero (bytes : List UInt8) : cString (bytes ++ [0]) = cString bytes := by
  induction bytes with
  | nil => rfl
  | cons first rest ih =>
      simp only [cString, List.cons_append, List.takeWhile_cons] at ih ⊢
      split
      · rw [ih]
      · rfl

theorem cString_idem (bytes : List UInt8) : cString (cString bytes) = cString bytes := by
  exact List.takeWhile_idem

theorem cString_eq_nil_iff (first : UInt8) (rest : List UInt8) :
    cString (first :: rest) = [] ↔ first = 0 := by
  simp [cString, List.takeWhile_cons]

theorem cString_length_le (bytes : List UInt8) : (cString bytes).length ≤ bytes.length := by
  exact (List.takeWhile_sublist _).length_le

theorem cString_prefix (bytes : List UInt8) : cString bytes <+: bytes := by
  exact List.takeWhile_prefix _

theorem zero_notMem_cString (bytes : List UInt8) : 0 ∉ cString bytes := by
  intro member
  have nonzero := List.mem_takeWhile_imp member
  simp at nonzero

theorem cString_eq_self_iff {bytes : List UInt8} : cString bytes = bytes ↔ 0 ∉ bytes := by
  constructor
  · intro same
    rw [← same]
    exact zero_notMem_cString bytes
  · intro terminated
    rw [cString, List.takeWhile_eq_self_iff]
    intro byte member
    simp only [decide_eq_true_eq]
    rintro rfl
    exact terminated member

/-! Lookups. -/

section

variable {server : Server} {entries : List Entry} (represents : Represents server entries)

include represents

theorem Represents.sockets_eq :
    server.openSockets.take server.numOpen = entries.map Prod.fst := by
  have room := represents.room
  have length := represents.openSockets_length
  apply List.ext_getElem?
  intro i
  rw [represents.numOpen_eq, List.getElem?_take, List.getElem?_map]
  by_cases inside : i < entries.length
  · have found := List.getElem?_eq_getElem inside
    rw [if_pos inside, represents.socket i entries[i].1 entries[i].2 found, found, Option.map_some]
  · rw [if_neg inside, List.getElem?_eq_none (by omega), Option.map_none]

theorem Represents.searchFrom (handle : List UInt8) (count i : Nat)
    (range : i + count = entries.length) :
    searchHandle server handle count i =
      some (((entries.drop i).findIdx? fun entry => entry.2 == cString handle).map (· + i)) := by
  induction count generalizing i with
  | zero =>
      rw [List.drop_eq_nil_of_le (by omega)]
      rfl
  | succ count ih =>
      have inside : i < entries.length := by omega
      obtain ⟨buffer, client, _, string⟩ :=
        represents.client i entries[i].1 entries[i].2 (List.getElem?_eq_getElem inside)
      rw [searchHandle, client, List.drop_eq_getElem_cons inside, List.findIdx?_cons]
      simp only [Option.bind_eq_bind, Option.bind_some, string, beq_iff_eq]
      split
      · simp
      · rw [ih (i + 1) (by omega), Option.map_map]
        congr 2
        funext position
        simp only [Function.comp]
        omega

theorem Represents.searchHandle_eq (handle : List UInt8) :
    searchHandle server handle server.numClients 0 =
      some (entries.findIdx? fun entry => entry.2 == cString handle) := by
  rw [represents.searchFrom handle _ 0 (by rw [represents.numClients_eq]; omega)]
  simp

end

section

variable {machine : Machine} {entries : List Entry}
  (represents : Represents machine.server entries)

include represents

theorem Represents.findByHandle_found (handle : List UInt8) (entry : Entry)
    (found : (entries.find? fun entry => entry.2 == cString handle) = some entry) :
    findByHandle handle machine = some (.ok entry.1, machine) := by
  obtain ⟨same, i, inside, rfl, before⟩ := List.find?_eq_some_iff_getElem.mp found
  have search := represents.searchHandle_eq handle
  have index : (entries.findIdx? fun entry => entry.2 == cString handle) = some i := by
    refine List.findIdx?_eq_some_iff_getElem.mpr ⟨inside, same, ?_⟩
    intro j earlier
    simpa using before j earlier
  rw [index] at search
  have socket := represents.socket i entries[i].1 entries[i].2 (List.getElem?_eq_getElem inside)
  simp only [findByHandle, bind, get_apply, search, defined_some, socket]

theorem Represents.findByHandle_unknown (handle : List UInt8)
    (unknown : ∀ entry ∈ entries, entry.2 ≠ cString handle) :
    findByHandle handle machine = some (.error .handleEx, machine) := by
  have search := represents.searchHandle_eq handle
  have index : (entries.findIdx? fun entry => entry.2 == cString handle) = none := by
    rw [List.findIdx?_eq_none_iff]
    intro entry member
    simpa using unknown entry member
  rw [index] at search
  simp only [findByHandle, bind, get_apply, search, defined_some, throw_apply]

theorem Represents.handleExists_eq (handle : List UInt8) :
    handleExists handle machine =
      some (.ok (entries.any fun entry => entry.2 == cString handle), machine) := by
  have search := represents.searchHandle_eq handle
  simp only [handleExists, bind, get_apply, search, defined_some, pure_apply,
    List.findIdx?_isSome]

end

/-! Changes of the tables. -/

theorem lastIndex_eq (fd : Int) (sockets : List Int) (start index position : Nat)
    (nodup : sockets.Nodup) (found : sockets[position]? = some fd) :
    lastIndex fd sockets start index = start + position := by
  have absent (sockets : List Int) (start index : Nat) (missing : fd ∉ sockets) :
      lastIndex fd sockets start index = index := by
    induction sockets generalizing start with
    | nil => rfl
    | cons socket rest ih =>
        rw [List.mem_cons, not_or] at missing
        rw [lastIndex, if_neg (fun same => missing.1 same.symm)]
        exact ih (start + 1) missing.2
  induction sockets generalizing start index position with
  | nil => cases found
  | cons socket rest ih =>
      rw [List.nodup_cons] at nodup
      cases position with
      | zero =>
          rw [List.getElem?_cons_zero, Option.some.injEq] at found
          subst found
          rw [lastIndex, if_pos rfl]
          exact absent rest _ _ nodup.1
      | succ position =>
          rw [List.getElem?_cons_succ] at found
          have later := ih (start + 1) (if socket = fd then start else index) position nodup.2 found
          rw [lastIndex, later]
          omega

theorem findIdx?_socket (fd : Int) (sockets : List Int) (position : Nat)
    (nodup : sockets.Nodup) (found : sockets[position]? = some fd) :
    sockets.findIdx? (· == fd) = some position := by
  obtain ⟨inside, same⟩ := List.getElem?_eq_some_iff.mp found
  refine List.findIdx?_eq_some_iff_getElem.mpr ⟨inside, by simpa using same, ?_⟩
  intro earlier before
  simp only [beq_iff_eq]
  intro other
  have twice := (List.Nodup.getElem_inj_iff nodup).mp (other.trans same.symm)
  omega

theorem join_set (clients : List (Option HandleBuffer)) (i j : Nat)
    (buffer : Option HandleBuffer) (inside : i < clients.length) :
    ((clients.set i buffer)[j]?).join = if j = i then buffer else (clients[j]?).join := by
  by_cases same : j = i
  · rw [if_pos same, same, List.getElem?_set_self inside]
    rfl
  · rw [if_neg same, List.getElem?_set_ne (fun other => same other.symm)]

theorem Represents.remove_last {server : Server} {entries : List Entry}
    (represents : Represents server entries) (nonempty : 0 < entries.length) :
    Represents { server with
      openSockets := server.openSockets.set (entries.length - 1) 0
      clients := server.clients.set (entries.length - 1) none
      numOpen := entries.length - 1
      numClients := server.numClients - 1 } (swapRemove entries (entries.length - 1)) := by
  have room := represents.room
  have clients := represents.clients_length
  have openEq := represents.numOpen_eq
  have length := length_swapRemove entries (entries.length - 1)
  constructor
  · exact length.symm
  · simp only [length, represents.numClients_eq]
  · simp only [List.length_set, represents.openSockets_length]
  · simp only [List.length_set, clients]
  · simp only [length]
    omega
  · intro i fd handle found
    obtain ⟨below, entry⟩ := getElem?_swapRemove_eq_some (by omega) found
    rw [if_neg (by omega)] at entry
    simp only [List.getElem?_set_ne (show entries.length - 1 ≠ i by omega)]
    exact represents.socket i fd handle entry
  · intro i fd handle found
    obtain ⟨below, entry⟩ := getElem?_swapRemove_eq_some (by omega) found
    rw [if_neg (by omega)] at entry
    rw [Server.client, join_set _ _ _ _ (by omega), if_neg (by omega)]
    exact represents.client i fd handle entry
  · intro i above
    rw [length] at above
    rw [Server.client, join_set _ _ _ _ (by omega)]
    split
    · rfl
    · exact represents.vacant i (by omega)

theorem Represents.remove_moved {server : Server} {entries : List Entry}
    (represents : Represents server entries) {index : Nat} (before : index < entries.length - 1)
    {lastFd : Int} {lastHandle : List UInt8}
    (lastFound : entries[entries.length - 1]? = some (lastFd, lastHandle)) :
    Represents { server with
      openSockets := server.openSockets.set index lastFd
      clients := (server.clients.set index
        (some ⟨lastHandle.length, lastHandle ++ [0]⟩)).set (entries.length - 1) none
      numOpen := entries.length - 1
      numClients := server.numClients - 1 } (swapRemove entries index) := by
  have room := represents.room
  have sockets := represents.openSockets_length
  have clients := represents.clients_length
  have openEq := represents.numOpen_eq
  have length := length_swapRemove entries index
  obtain ⟨buffer, client, terminated, string⟩ := represents.client _ _ _ lastFound
  constructor
  · exact length.symm
  · simp only [length, represents.numClients_eq]
  · simp only [List.length_set, sockets]
  · simp only [List.length_set, clients]
  · simp only [length]
    omega
  · intro i fd handle found
    obtain ⟨below, entry⟩ := getElem?_swapRemove_eq_some (by omega) found
    by_cases same : i = index
    · rw [if_pos same, lastFound, Option.some.injEq, Prod.mk.injEq] at entry
      simp only [same, List.getElem?_set_self (show index < server.openSockets.length by omega),
        entry.1]
    · rw [if_neg same] at entry
      simp only [List.getElem?_set_ne (fun other => same other.symm)]
      exact represents.socket i fd handle entry
  · intro i fd handle found
    obtain ⟨below, entry⟩ := getElem?_swapRemove_eq_some (by omega) found
    rw [Server.client, join_set _ _ _ _ (by rw [List.length_set]; omega), if_neg (by omega),
      join_set _ _ _ _ (by omega)]
    by_cases same : i = index
    · rw [if_pos same, lastFound, Option.some.injEq, Prod.mk.injEq] at entry
      refine ⟨_, if_pos same, by simp, ?_⟩
      rw [HandleBuffer.string, cString_append_zero, ← string, HandleBuffer.string, cString_idem]
      exact string.trans entry.2
    · rw [if_neg same] at entry ⊢
      exact represents.client i fd handle entry
  · intro i above
    rw [length] at above
    rw [Server.client, join_set _ _ _ _ (by rw [List.length_set]; omega)]
    split
    · rfl
    · rw [join_set _ _ _ _ (by omega), if_neg (by omega)]
      exact represents.vacant i (by omega)

section

variable [Allocator]

/-- Closing the connection on `fd` moves no entry, or one whose handle fits into its new block. -/
def Server.Closable (server : Server) (fd : Int) : Prop :=
  server.listed.getLast? = some fd ∨ ∀ moved ∈ server.client (server.numOpen - 1),
    moved.string.length < Allocator.usable moved.string.length

instance (server : Server) (fd : Int) : Decidable (server.Closable fd) :=
  inferInstanceAs (Decidable (_ ∨ _))

theorem Represents.closable_iff {server : Server} {entries : List Entry}
    (represents : Represents server entries) (nodup : (entries.map Prod.fst).Nodup) {index : Nat}
    {fd : Int} {old : List UInt8} (found : entries[index]? = some (fd, old)) :
    server.Closable fd ↔ index = entries.length - 1 ∨ ∀ moved ∈ server.client (entries.length - 1),
      moved.string.length < Allocator.usable moved.string.length := by
  have socket : (entries.map Prod.fst)[index]? = some fd := by
    rw [List.getElem?_map, found, Option.map_some]
  unfold Server.Closable
  rw [represents.numOpen_eq, Server.listed, represents.sockets_eq, List.getLast?_eq_getElem?,
    List.length_map]
  refine or_congr_left ?_
  constructor
  · intro last
    exact Option.some.inj ((findIdx?_socket fd _ index nodup socket).symm.trans
      (findIdx?_socket fd _ _ nodup last))
  · rintro rfl
    exact socket

theorem Represents.remove {server : Server} {entries : List Entry}
    (represents : Represents server entries) (index : Nat) (inside : index < entries.length)
    (movable : index = entries.length - 1 ∨ ∀ moved ∈ server.client (entries.length - 1),
      moved.string.length < Allocator.usable moved.string.length) :
    ∃ next, server.remove index = some next ∧ Represents next (swapRemove entries index) ∧
      next.sequenceNumber = server.sequenceNumber ∧ next.capacity = server.capacity := by
  unfold Server.remove
  rw [represents.numOpen_eq]
  by_cases last : index = entries.length - 1
  · simp only [if_pos last]
    exact ⟨_, rfl, last ▸ represents.remove_last (by omega), rfl, rfl⟩
  · obtain ⟨⟨lastFd, lastHandle⟩, lastFound⟩ : ∃ entry, entries[entries.length - 1]? = some entry :=
      ⟨_, List.getElem?_eq_getElem (by omega)⟩
    have socket := represents.socket _ _ _ lastFound
    obtain ⟨buffer, client, terminated, string⟩ := represents.client _ _ _ lastFound
    have fits := movable.resolve_left last buffer client
    rw [string] at fits
    simp only [if_neg last, socket, client, Option.bind_eq_bind, Option.bind_some, string,
      if_pos fits]
    exact ⟨_, rfl, represents.remove_moved (by omega) lastFound, rfl, rfl⟩

theorem Represents.remove_undefined {server : Server} {entries : List Entry}
    (represents : Represents server entries) (index : Nat)
    (stuck : ¬(index = entries.length - 1 ∨ ∀ moved ∈ server.client (entries.length - 1),
      moved.string.length < Allocator.usable moved.string.length)) :
    server.remove index = none := by
  simp only [not_or, not_forall] at stuck
  obtain ⟨before, moved, client, tight⟩ := stuck
  unfold Server.remove
  rw [represents.numOpen_eq]
  simp only [if_neg before]
  cases server.openSockets[entries.length - 1]? with
  | none => rfl
  | some socket =>
      rw [Option.mem_def] at client
      simp only [client, Option.bind_eq_bind, Option.bind_some, if_neg tight]

end

theorem Represents.renumber {server : Server} {entries : List Entry}
    (represents : Represents server entries) (sequenceNumber : UInt32) :
    Represents { server with sequenceNumber } entries := by
  exact ⟨represents.numOpen_eq, represents.numClients_eq, represents.openSockets_length,
    represents.clients_length, represents.room, represents.socket, represents.client,
    represents.vacant⟩

theorem Represents.register {server : Server} {entries : List Entry}
    (represents : Represents server entries) (index : Nat) (fd : Int) (old handle : List UInt8)
    (found : entries[index]? = some (fd, old)) :
    Represents { server with
      clients := server.clients.set index (some ⟨handle.length + 1, handle ++ [0]⟩) }
      (entries.set index (fd, cString handle)) := by
  have room := represents.room
  have clients := represents.clients_length
  obtain ⟨inside, _⟩ := List.getElem?_eq_some_iff.mp found
  have kept (i : Nat) (other : Int) (name : List UInt8)
      (set : (entries.set index (fd, cString handle))[i]? = some (other, name)) :
      (i = index ∧ other = fd ∧ name = cString handle) ∨
        (i ≠ index ∧ entries[i]? = some (other, name)) := by
    by_cases same : i = index
    · rw [same, List.getElem?_set_self inside, Option.some.injEq, Prod.mk.injEq] at set
      exact Or.inl ⟨same, set.1.symm, set.2.symm⟩
    · rw [List.getElem?_set_ne (fun other => same other.symm)] at set
      exact Or.inr ⟨same, set⟩
  constructor
  · rw [List.length_set]
    exact represents.numOpen_eq
  · rw [List.length_set]
    exact represents.numClients_eq
  · exact represents.openSockets_length
  · simp only [List.length_set, clients]
  · rw [List.length_set]
    exact room
  · intro i other name set
    rcases kept i other name set with ⟨rfl, rfl, _⟩ | ⟨_, entry⟩
    · exact represents.socket _ _ _ found
    · exact represents.socket i other name entry
  · intro i other name set
    rw [Server.client, join_set _ _ _ _ (by omega)]
    rcases kept i other name set with ⟨same, _, rfl⟩ | ⟨different, entry⟩
    · exact ⟨_, if_pos same, by simp, cString_append_zero handle⟩
    · rw [if_neg different]
      exact represents.client i other name entry
  · intro i above
    rw [List.length_set] at above
    rw [Server.client, join_set _ _ _ _ (by omega), if_neg (by omega)]
    exact represents.vacant i above

theorem Represents.accept {server : Server} {entries : List Entry}
    (represents : Represents server entries) (fd : Int)
    (room : entries.length + 2 ≠ server.capacity) :
    Represents { server with
      openSockets := server.openSockets.set server.numOpen fd
      clients := server.clients.set server.numOpen (some ⟨1, [0]⟩)
      highestFd := max server.highestFd fd
      numOpen := server.numOpen + 1
      numClients := server.numClients + 1 } (entries ++ [(fd, [])]) := by
  have before := represents.room
  have sockets := represents.openSockets_length
  have clients := represents.clients_length
  have openEq := represents.numOpen_eq
  have kept (i : Nat) (other : Int) (name : List UInt8)
      (found : (entries ++ [(fd, [])])[i]? = some (other, name)) :
      (i = entries.length ∧ other = fd ∧ name = []) ∨
        (i ≠ entries.length ∧ entries[i]? = some (other, name)) := by
    obtain ⟨inside, _⟩ := List.getElem?_eq_some_iff.mp found
    rw [List.length_append, List.length_singleton] at inside
    by_cases last : i = entries.length
    · rw [last, List.getElem?_append_right (Nat.le_refl _), Nat.sub_self,
        List.getElem?_cons_zero, Option.some.injEq, Prod.mk.injEq] at found
      exact Or.inl ⟨last, found.1.symm, found.2.symm⟩
    · rw [List.getElem?_append_left (by omega)] at found
      exact Or.inr ⟨last, found⟩
  constructor
  · rw [List.length_append, List.length_singleton, ← openEq]
  · rw [List.length_append, List.length_singleton, ← represents.numClients_eq]
  · simp only [List.length_set, sockets]
  · simp only [List.length_set, clients]
  · simp only [List.length_append, List.length_singleton]
    omega
  · intro i other name found
    rcases kept i other name found with ⟨same, rfl, _⟩ | ⟨different, entry⟩
    · simp only [openEq, same, List.getElem?_set_self
        (show entries.length < server.openSockets.length by omega)]
    · simp only [openEq, List.getElem?_set_ne (fun other => different other.symm)]
      exact represents.socket i other name entry
  · intro i other name found
    rw [Server.client, join_set _ _ _ _ (by omega), openEq]
    rcases kept i other name found with ⟨same, _, rfl⟩ | ⟨different, entry⟩
    · exact ⟨_, if_pos same, by simp, rfl⟩
    · rw [if_neg different]
      exact represents.client i other name entry
  · intro i above
    rw [List.length_append, List.length_singleton] at above
    rw [Server.client, join_set _ _ _ _ (by omega), if_neg (by omega)]
    exact represents.vacant i (by omega)

end Chat
