import Cpe464.Chat.ServerSteps

/-!
What `process_packet` can do to the tables of a server, whatever they hold and however it ends:
it may register a handle, and then it may close the connection.
-/

namespace Chat

open Bytes Effects SwapRemove

def Machine.tables (machine : Machine) : Server := { machine.server with sequenceNumber := 0 }

def Learns (fd : Int) (before after : Server) : Prop :=
  after = before ∨ ∃ handle, after = before.learned (lastIndex fd before.listed 0 0) handle

def Closes [Allocator] (fd : Int) (before after : Server) : Prop :=
  after = before ∨ ∃ index, before.listed.findIdx? (· == fd) = some index ∧
    before.remove index = some after

def Settles [Allocator] (fd : Int) (before after : Server) : Prop :=
  ∃ middle, Learns fd before middle ∧ Closes fd middle after

theorem Settles.refl [Allocator] (fd : Int) (server : Server) : Settles fd server server := by
  exact ⟨server, .inl rfl, .inl rfl⟩

theorem Settles.closes [Allocator] {fd : Int} {before after : Server}
    (closes : Closes fd before after) :
    Settles fd before after := by
  exact ⟨before, .inl rfl, closes⟩

/-! What leaves the tables as they are. -/

section

variable (fails : Int → Bool) (fd : Int)

theorem send_tables (bytes : List UInt8) : Preserves Machine.tables (send fails fd bytes) := by
  refine preserves_bind (preserves_modify ?_) ?_
  · intro machine
    rfl
  · intro _
    exact preserves_choose (fun _ => preserves_throw _) (fun _ => preserves_pure _)

theorem nextNumber_tables : Preserves Machine.tables nextNumber := by
  apply preserves_bind preserves_get
  intro machine
  exact preserves_bind (preserves_modify (fun _ => rfl)) (fun _ => preserves_pure _)

theorem respond_tables (message : Message) :
    Preserves Machine.tables (respond fails fd message) := by
  exact preserves_bind nextNumber_tables (fun _ => send_tables fails fd _)

theorem findByHandle_tables (handle : List UInt8) :
    Preserves Machine.tables (findByHandle handle) := by
  apply preserves_bind preserves_get
  intro machine
  apply preserves_bind (preserves_defined _)
  intro found
  cases found with
  | none => exact preserves_throw _
  | some i => exact preserves_defined _

theorem handleExists_keeps (handle : List UInt8) : Preserves id (handleExists handle) := by
  apply preserves_bind preserves_get
  intro machine
  exact preserves_bind (preserves_defined _) (fun _ => preserves_pure _)

theorem confirmHandle_tables (handle : Handle) :
    Preserves Machine.tables (confirmHandle fails handle) := by
  apply preserves_bind nextNumber_tables
  intro sequenceNumber
  exact preserves_bind (findByHandle_tables _) (fun _ => send_tables fails _ _)

theorem broadcastFrom_tables (sender bytes : List UInt8) (count i : Nat) :
    Preserves Machine.tables (broadcastFrom fails sender bytes count i) := by
  induction count generalizing i with
  | zero => exact preserves_pure _
  | succ count ih =>
      apply preserves_bind preserves_get
      intro machine
      apply preserves_bind (preserves_defined _)
      intro client
      apply preserves_choose (fun _ => ih (i + 1))
      intro _
      apply preserves_bind (preserves_defined _)
      intro socket
      exact preserves_bind (send_tables fails socket bytes) (fun _ => ih (i + 1))

theorem messagePacket_tables (message : Message) (bytes : List UInt8) :
    Preserves Machine.tables (messagePacket fails fd message bytes) := by
  apply preserves_tryCatch
  · apply preserves_choose
    · intro _
      exact preserves_bind preserves_get (fun _ => broadcastFrom_tables fails _ _ _ _)
    · intro _
      exact preserves_bind (findByHandle_tables _) (fun _ => send_tables fails _ _)
  · intro exception
    exact preserves_choose (fun _ => respond_tables fails fd _) (fun _ => preserves_throw _)

theorem handleRequestResponse_tables (request : Message) :
    Preserves Machine.tables (handleRequestResponse fails fd request) := by
  apply preserves_bind preserves_get
  intro machine
  apply preserves_bind (preserves_defined _)
  intro value
  apply preserves_choose (fun _ => preserves_throw _)
  intro _
  apply preserves_bind (preserves_defined _)
  intro client
  exact preserves_choose (fun _ => respond_tables fails fd _) (fun _ => preserves_defined _)

/-! What changes them. -/

theorem learnHandle_learns (handle : List UInt8) :
    Relates (Learns fd) Machine.tables (learnHandle fd handle) := by
  intro machine outcome next ends
  cases head : handle.head? with
  | none =>
      simp only [learnHandle, bind, get_apply, head, defined_none] at ends
      cases ends
  | some first =>
      simp only [learnHandle, bind, get_apply, head, defined_some, ↓choose_apply,
        throw_apply] at ends
      split at ends
      · cases ends
        exact .inl rfl
      cases search : handleExists handle machine with
      | none =>
          simp only [search] at ends
          cases ends
      | some reached =>
          obtain ⟨result, middle⟩ := reached
          obtain rfl : middle = machine := handleExists_keeps handle machine result middle search
          cases result with
          | error exception =>
              simp only [search] at ends
              cases ends
              exact .inl rfl
          | ok taken =>
              simp only [search, modify_apply] at ends
              split at ends
              · cases ends
                exact .inl rfl
              · cases ends
                exact .inr ⟨handle, rfl⟩

theorem remove_cases [Allocator] {server next : Server} {index : Nat}
    (removes : server.remove index = some next) :
    (index = server.numOpen - 1 ∧ next = { server with
      openSockets := server.openSockets.set index 0
      clients := server.clients.set (server.numOpen - 1) none
      numOpen := server.numOpen - 1
      numClients := server.numClients - 1 }) ∨
    (index ≠ server.numOpen - 1 ∧ ∃ socket moved,
      server.openSockets[server.numOpen - 1]? = some socket ∧
      server.client (server.numOpen - 1) = some moved ∧
      moved.string.length < Allocator.usable moved.string.length ∧ next = { server with
        openSockets := server.openSockets.set index socket
        clients := (server.clients.set index
          (some ⟨moved.string.length, moved.string ++ [0]⟩)).set (server.numOpen - 1) none
        numOpen := server.numOpen - 1
        numClients := server.numClients - 1 }) := by
  unfold Server.remove at removes
  simp only at removes
  split at removes
  · rename_i last
    exact .inl ⟨last, (Option.some.inj removes).symm⟩
  · rename_i before
    simp only [Option.bind_eq_bind, Option.bind_eq_some_iff] at removes
    obtain ⟨socket, socketRead, moved, movedRead, copies⟩ := removes
    split at copies
    · rename_i fits
      exact .inr ⟨before, socket, moved, socketRead, movedRead, fits,
        (Option.some.inj copies).symm⟩
    · cases copies

theorem remove_tables [Allocator] {server next : Server} {index : Nat}
    (removes : server.remove index = some next) :
    Server.remove { server with sequenceNumber := 0 } index =
      some { next with sequenceNumber := 0 } := by
  unfold Server.remove
  obtain ⟨last, rfl⟩ | ⟨before, socket, moved, socketRead, movedRead, fits, rfl⟩ :=
    remove_cases removes
  · exact if_pos last
  · have movedTables : Server.client { server with sequenceNumber := 0 } (server.numOpen - 1) =
        some moved := movedRead
    simp only [if_neg before, socketRead, movedTables, Option.bind_eq_bind, Option.bind_some,
      if_pos fits]

theorem closeConnection_closes [Allocator] :
    Relates (Closes fd) Machine.tables (closeConnection fd) := by
  intro machine outcome next ends
  cases found : machine.server.listed.findIdx? (· == fd) with
  | none =>
      rw [Server.listed] at found
      simp only [closeConnection, bind, get_apply, found, defined_none] at ends
      cases ends
  | some index =>
      have position := found
      rw [Server.listed] at position
      cases removes : machine.server.remove index with
      | none =>
          simp only [closeConnection, bind, get_apply, position, removes, defined_some,
            defined_none] at ends
          cases ends
      | some server =>
          simp only [closeConnection, bind, get_apply, position, removes, defined_some,
            modify_apply, Option.some.injEq, Prod.mk.injEq] at ends
          rw [← ends.2]
          exact .inr ⟨index, found, remove_tables removes⟩

theorem answeredClose_closes [Allocator] (message : Message) :
    Relates (Closes fd) Machine.tables (do respond fails fd message; closeConnection fd) := by
  exact relates_after (respond_tables fails fd message) (fun _ => .inl rfl)
    (fun _ => closeConnection_closes fd)

theorem initialPacket_settles [Allocator] (message : Message) :
    Relates (Settles fd) Machine.tables (initialPacket fails fd message) := by
  have confirms (_ : Unit) :
      Relates Eq Machine.tables (confirmHandle fails message.fromHandle) :=
    relates_preserved (confirmHandle_tables fails message.fromHandle) (fun _ => rfl)
  have learns : Relates (Learns fd) Machine.tables
      (do learnHandle fd message.fromHandle.bytes; confirmHandle fails message.fromHandle) := by
    refine relates_bind (learnHandle_learns fd _) confirms (fun _ _ learns => learns) ?_
    rintro before _ after learns rfl
    exact learns
  have refuses (exception : Exception) : Relates (Closes fd) Machine.tables
      (if exception = .handleEx then badHandleResponse fails fd message.fromHandle
        else pure ()) := by
    intro machine outcome next ends
    rw [choose_apply] at ends
    split at ends
    · exact answeredClose_closes fails fd _ machine outcome next ends
    · cases ends
      exact .inl rfl
  refine relates_tryCatch learns refuses ?_ ?_
  · exact fun before after learns => ⟨after, learns, .inl rfl⟩
  · exact fun before middle after learns closes => ⟨middle, learns, closes⟩

theorem handleMessage_settles [Allocator] (message : Message) (bytes : List UInt8) :
    Relates (Settles fd) Machine.tables (handleMessage fails fd message bytes) := by
  unfold handleMessage
  split
  · exact initialPacket_settles fails fd message
  · exact relates_preserved (messagePacket_tables fails fd message bytes) (.refl fd)
  · exact relates_mono (answeredClose_closes fails fd _) (fun _ _ => .closes)
  · exact relates_preserved (preserves_bind preserves_get (fun _ => respond_tables fails fd _))
      (.refl fd)
  · refine relates_preserved (preserves_tryCatch (handleRequestResponse_tables fails fd message) ?_)
      (.refl fd)
    intro exception
    exact preserves_choose (fun _ => respond_tables fails fd _) (fun _ => preserves_throw _)
  · exact relates_preserved (preserves_pure _) (.refl fd)

theorem processPacket_settles [Allocator] (received : Option (List UInt8)) :
    Relates (Settles fd) Machine.tables (processPacket fails fd received) := by
  unfold processPacket
  split
  · exact relates_preserved (preserves_defined _) (.refl fd)
  · exact relates_mono (closeConnection_closes fd) (fun _ _ => .closes)
  · refine relates_after (preserves_defined _) (.refl fd) ?_
    exact fun message => handleMessage_settles fails fd message _

end

/-! What that means for the descriptors. -/

theorem remove_fixed [Allocator] {server next : Server} {index : Nat}
    (removes : server.remove index = some next) :
    next.capacity = server.capacity ∧ next.highestFd = server.highestFd ∧
      next.openSockets.length = server.openSockets.length ∧
      next.numOpen = server.numOpen - 1 := by
  obtain ⟨_, rfl⟩ | ⟨_, _, _, _, _, _, rfl⟩ := remove_cases removes
  · exact ⟨rfl, rfl, List.length_set, rfl⟩
  · exact ⟨rfl, rfl, List.length_set, rfl⟩

theorem remove_listed [Allocator] {server next : Server} {index : Nat}
    (removes : server.remove index = some next) (inside : index < server.numOpen)
    (covered : server.numOpen ≤ server.openSockets.length) :
    next.listed = swapRemove server.listed index := by
  have length : server.listed.length = server.numOpen := by
    rw [Server.listed, List.length_take]
    omega
  have last : server.listed.getLast? = server.openSockets[server.numOpen - 1]? := by
    rw [List.getLast?_eq_getElem?, length, Server.listed, List.getElem?_take, if_pos (by omega)]
  have front : server.listed.dropLast = server.openSockets.take (server.numOpen - 1) := by
    rw [List.dropLast_eq_take, length, Server.listed, List.take_take, Nat.min_eq_left (by omega)]
  have found := @List.getElem?_eq_getElem _ server.openSockets (server.numOpen - 1) (by omega)
  rw [swapRemove, last, found, length, front]
  obtain ⟨atEnd, rfl⟩ | ⟨before, socket, _, read, _, _, rfl⟩ := remove_cases removes
  · simp only [Server.listed]
    rw [if_pos (by omega), List.take_set, List.set_eq_of_length_le]
    rw [List.length_take]
    omega
  · obtain rfl := Option.some.inj (found.symm.trans read)
    simp only
    rw [if_neg (by omega), Server.listed, List.take_set]

section

variable {fd : Int} {before after : Server}

theorem Settles.fixed [Allocator] (settles : Settles fd before after) :
    after.capacity = before.capacity ∧ after.highestFd = before.highestFd ∧
      after.openSockets.length = before.openSockets.length := by
  obtain ⟨middle, learns, closes⟩ := settles
  have first : middle.capacity = before.capacity ∧ middle.highestFd = before.highestFd ∧
      middle.openSockets.length = before.openSockets.length := by
    rcases learns with rfl | ⟨handle, rfl⟩
    · exact ⟨rfl, rfl, rfl⟩
    · exact ⟨rfl, rfl, rfl⟩
  rcases closes with rfl | ⟨index, _, removes⟩
  · exact first
  · obtain ⟨capacity, highestFd, length, _⟩ := remove_fixed removes
    exact ⟨capacity.trans first.1, highestFd.trans first.2.1, length.trans first.2.2⟩

theorem Settles.sockets [Allocator] (settles : Settles fd before after)
    (covered : before.numOpen ≤ before.openSockets.length) :
    (after.listed = before.listed ∧ after.numOpen = before.numOpen) ∨
      ∃ index, before.listed.findIdx? (· == fd) = some index ∧
        after.listed = swapRemove before.listed index ∧ after.numOpen + 1 = before.numOpen := by
  obtain ⟨middle, learns, closes⟩ := settles
  have first : middle.listed = before.listed ∧ middle.numOpen = before.numOpen ∧
      middle.openSockets = before.openSockets := by
    rcases learns with rfl | ⟨handle, rfl⟩
    · exact ⟨rfl, rfl, rfl⟩
    · exact ⟨rfl, rfl, rfl⟩
  obtain ⟨listed, numOpen, openSockets⟩ := first
  rcases closes with rfl | ⟨index, found, removes⟩
  · exact .inl ⟨listed, numOpen⟩
  · have inside : index < middle.listed.length := (List.findIdx?_eq_some_iff_getElem.mp found).1
    rw [Server.listed, List.length_take] at inside
    obtain ⟨_, _, _, count⟩ := remove_fixed removes
    refine .inr ⟨index, listed ▸ found, ?_, by omega⟩
    rw [remove_listed removes (by omega) (by rw [numOpen, openSockets]; exact covered), listed]

end

theorem processPacket_sockets [Allocator] {fails : Int → Bool} {fd : Int}
    {received : Option (List UInt8)}
    {machine next : Machine} {outcome : Except Exception Unit}
    (ends : processPacket fails fd received machine = some (outcome, next))
    (covered : machine.server.numOpen ≤ machine.server.openSockets.length) :
    (next.server.listed = machine.server.listed ∧
      next.server.numOpen = machine.server.numOpen) ∨
      ∃ index, machine.server.listed.findIdx? (· == fd) = some index ∧
        next.server.listed = swapRemove machine.server.listed index ∧
        next.server.numOpen + 1 = machine.server.numOpen := by
  exact (processPacket_settles fails fd received machine outcome next ends).sockets covered

theorem processPacket_fixed [Allocator] {fails : Int → Bool} {fd : Int}
    {received : Option (List UInt8)}
    {machine next : Machine} {outcome : Except Exception Unit}
    (ends : processPacket fails fd received machine = some (outcome, next)) :
    next.server.capacity = machine.server.capacity ∧
      next.server.highestFd = machine.server.highestFd ∧
      next.server.openSockets.length = machine.server.openSockets.length := by
  exact (processPacket_settles fails fd received machine outcome next ends).fixed

/-! A new connection. -/

theorem accepting_listed {server : Server} (fd : Int)
    (inside : (resize server).numOpen < (resize server).openSockets.length) :
    (server.accepting fd).listed = (resize server).listed ++ [fd] := by
  simp only [Server.listed, Server.accepting]
  rw [List.take_add_one, List.getElem?_set_self inside, List.take_set, List.set_eq_of_length_le]
  · rfl
  · rw [List.length_take]
    omega

end Chat
