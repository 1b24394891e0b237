import Cpe464.RemoteCopy.AbandonedCore
import Cpe464.RemoteCopy.Request

/-!
What a child does when its peer is gone. Every round sends a packet into the room of the window,
uses up one of the tries that `wait_on_ack` and `bye` count, or ends the loop. The room shrinks
as long as the numbers of the window stay below the largest one.
-/

namespace RemoteCopy

open Bytes Transition

/-! The rounds. -/

section

variable {host : ByteOrder} {server next : Server} {sent : List (List UInt8)}

theorem addToBuffer_fields {window after : Window} {packet : Packet}
    (adds : addToBuffer window packet = some after) :
    after.bottom = window.bottom ∧ after.middle = window.middle ∧ after.top = window.top := by
  simp only [addToBuffer, Option.bind_eq_bind, Option.bind_eq_some_iff, Option.some.injEq] at adds
  obtain ⟨index, _, rfl⟩ := adds
  exact ⟨rfl, rfl, rfl⟩

theorem sendData_sends {chunk : Option (List UInt8)} {arrived : Bool} (fits : InPayload chunk)
    (taken : sendData host chunk arrived server = some (next, sent)) :
    next.waitCount = server.waitCount ∧ next.byeCount = server.byeCount ∧
    (((server.window.top < server.window.middle ∨ chunk.getD [] = []) ∧ sent = [] ∧
        next.window = server.window ∧ (next.state = .waitOnAck ∨ next.state = .done)) ∨
      (server.window.middle ≤ server.window.top ∧
        sent = [frame host (UInt32.ofInt server.window.middle) Flag.data.code (chunk.getD [])] ∧
        next.window.middle = asInt32 (server.window.middle + 1) ∧
        next.window.top = server.window.top ∧
        next.state = if arrived then .process else .sendData)) := by
  have short (data : List UInt8) (read : chunk = some data) : data.length ≤ maxPacketLength := by
    simpa only [InPayload, read, Option.getD_some] using fits
  rcases sendData_inverts short taken with ⟨closed, rfl, rfl⟩ |
    ⟨_, rfl, ⟨rfl, _, rfl⟩ | ⟨rfl, _, _, rfl⟩⟩ |
    ⟨opened, data, _, _, window, rfl, _, _, rfl, _, rfl, adds, rfl⟩
  · exact ⟨rfl, rfl, .inl ⟨.inl closed, rfl, rfl, .inl rfl⟩⟩
  · exact ⟨rfl, rfl, .inl ⟨.inr rfl, rfl, rfl, .inr rfl⟩⟩
  · exact ⟨rfl, rfl, .inl ⟨.inr rfl, rfl, rfl, .inl rfl⟩⟩
  · obtain ⟨_, middle, top⟩ := addToBuffer_fields adds
    exact ⟨rfl, rfl, .inr ⟨opened, rfl, middle, top, rfl⟩⟩

theorem waitOnAck_nudges (taken : waitOnAck false server = some (next, sent)) :
    next.waitCount = server.waitCount + 1 ∧ next.byeCount = server.byeCount ∧
    next.window = server.window ∧
    ((sent = [] ∧ (next.state = .done ∨ next.state = .exited)) ∨
      (server.waitCount + 1 ≤ 10 ∧ next.state = .waitOnAck ∧ ∃ nudge, sent = [nudge])) := by
  rcases waitOnAck_inverts taken with ⟨_, rfl, rfl⟩ | ⟨_, heard, _⟩ |
    ⟨tries, _, counted, packet, _, ⟨_, made, rfl⟩ | ⟨nudge, _, made, rfl⟩⟩
  · exact ⟨rfl, rfl, rfl, .inl ⟨rfl, .inl rfl⟩⟩
  · cases heard
  · rw [made]
    exact ⟨counted, rfl, rfl, .inl ⟨rfl, .inr rfl⟩⟩
  · rw [made]
    exact ⟨counted, rfl, rfl, .inr ⟨tries, rfl, nudge, rfl⟩⟩

end

/-! The invariant. -/

structure Kept (size : Int) (server : Server) : Prop where
  window : server.window.Sized size
  middle_ge : -2 ^ 31 ≤ server.window.middle
  middle_lt : server.window.middle < 2 ^ 31
  top_lt : server.window.top < 2 ^ 31
  state : server.state ≠ .start ∧ server.state ≠ .filename
  waitCount : 0 ≤ server.waitCount
  byeCount : 0 ≤ server.byeCount

theorem asInt32_ge (value : Int) : -2 ^ 31 ≤ asInt32 value := by
  unfold asInt32
  omega

section

variable {host : ByteOrder} {size : Int} {server next : Server}

theorem Begun.kept (small : size < 2 ^ 31) (begun : Begun size server) : Kept size server := by
  obtain ⟨job, packet, eofIndex, rfl, rfl⟩ := begun
  constructor
  · exact initWindow_sized job.windowSize
  · simp [Job.start, initWindow]
  · simp [Job.start, initWindow]
  · exact small
  · exact ⟨ServerState.noConfusion, ServerState.noConfusion⟩
  · exact Int.le_refl 0
  · exact Int.le_refl 0

theorem Kept.of_window (kept : Kept size server) (window : next.window = server.window)
    (state : next.state ≠ .start ∧ next.state ≠ .filename) (waitCount : 0 ≤ next.waitCount)
    (byeCount : 0 ≤ next.byeCount) : Kept size next := by
  constructor
  · exact window ▸ kept.window
  · exact window ▸ kept.middle_ge
  · exact window ▸ kept.middle_lt
  · exact window ▸ kept.top_lt
  · exact state
  · exact waitCount
  · exact byeCount

theorem Kept.send (kept : Kept size server) (positive : 1 ≤ size) (small : size < 2 ^ 31)
    {chunk : Option (List UInt8)} {arrived : Bool} (fits : InPayload chunk) :
    ∃ step, sendData host chunk arrived server = some step ∧ Kept size step.1 := by
  obtain ⟨⟨next, sent⟩, taken, sized⟩ :=
    sendData_sized kept.window positive small host chunk arrived
  refine ⟨_, taken, ?_⟩
  obtain ⟨waits, byes, ⟨_, _, window, state⟩ | ⟨_, _, middle, top, state⟩⟩ :=
    sendData_sends fits taken
  · apply kept.of_window window
    · rcases state with state | state
      · simp [state]
      · simp [state]
    · exact waits ▸ kept.waitCount
    · exact byes ▸ kept.byeCount
  · constructor
    · exact sized
    · exact middle ▸ asInt32_ge _
    · exact middle ▸ asInt32_lt _
    · exact top ▸ kept.top_lt
    · rw [state]
      cases arrived with
      | true => simp
      | false => simp
    · exact waits ▸ kept.waitCount
    · exact byes ▸ kept.byeCount

theorem Kept.process (kept : Kept size server) {received : Int × Packet} {step : ServerStep}
    (taken : process received server = some step) : Kept size step.1 := by
  have sized := process_sized kept.window taken
  obtain ⟨waits, byes, state, window⟩ := process_fields taken
  have middle_ge := kept.middle_ge
  have middle_lt := kept.middle_lt
  have numbers : -2 ^ 31 ≤ step.1.window.middle ∧ step.1.window.middle < 2 ^ 31 ∧
      step.1.window.top < 2 ^ 31 := by
    rcases window with same | ⟨newBottom, forward, small, slides⟩
    · rw [same]
      exact ⟨middle_ge, middle_lt, kept.top_lt⟩
    · rw [slide_fields slides]
      have bound := asInt32_lt (newBottom + server.window.size - 1)
      simp only
      omega
  constructor
  · exact sized
  · exact numbers.1
  · exact numbers.2.1
  · exact numbers.2.2
  · rcases state with state | state | state | state
    · simp [state]
    · simp [state]
    · simp [state]
    · simp [state]
  · exact waits ▸ kept.waitCount
  · exact byes ▸ kept.byeCount

theorem Kept.wait (kept : Kept size server) (positive : 1 ≤ size) (arrived : Bool) :
    ∃ step, waitOnAck arrived server = some step ∧ Kept size step.1 := by
  have waits := kept.waitCount
  obtain ⟨⟨next, sent⟩, taken, _⟩ := waitOnAck_sized kept.window positive arrived
  refine ⟨_, taken, ?_⟩
  cases arrived with
  | false =>
      obtain ⟨waitCount, byes, window, ⟨_, state⟩ | ⟨_, state, _⟩⟩ := waitOnAck_nudges taken
      · apply kept.of_window window
        · rcases state with state | state
          · simp [state]
          · simp [state]
        · simp only [waitCount]
          omega
        · exact byes ▸ kept.byeCount
      · apply kept.of_window window
        · simp [state]
        · simp only [waitCount]
          omega
        · exact byes ▸ kept.byeCount
  | true =>
      rcases waitOnAck_inverts taken with ⟨_, _, rfl⟩ | ⟨_, _, _, rfl⟩ | ⟨_, silent, _⟩
      · exact kept.of_window rfl ⟨ServerState.noConfusion, ServerState.noConfusion⟩
          (by simp only; omega) kept.byeCount
      · exact kept.of_window rfl ⟨ServerState.noConfusion, ServerState.noConfusion⟩
          (Int.le_refl 0) kept.byeCount
      · cases silent

theorem Kept.bye (kept : Kept size server) {stack : Packet}
    {received : Option (Int × Packet)} {step : ServerStep}
    (taken : bye host stack received server = some step) : Kept size step.1 := by
  have byes := kept.byeCount
  obtain ⟨next, sent⟩ := step
  obtain ⟨_, state, byeCount, states, counted, rfl⟩ := bye_inverts taken
  refine kept.of_window rfl ?_ kept.waitCount (by simp only; omega)
  rcases states with rfl | rfl
  · exact ⟨ServerState.noConfusion, ServerState.noConfusion⟩
  · exact ⟨ServerState.noConfusion, ServerState.noConfusion⟩

theorem Kept.round (kept : Kept size server) (positive : 1 ≤ size) (small : size < 2 ^ 31)
    {outside : Outside} {step : ServerStep}
    (taken : processClient host outside server = some step) : Kept size step.1 := by
  cases outside with
  | send chunk arrived =>
      simp only [processClient] at taken
      split at taken
      · rename_i enabled
        obtain ⟨after, reached, next⟩ := kept.send positive small enabled.2
        obtain rfl := Option.some.inj (reached.symm.trans taken)
        exact next
      · cases taken
  | process received =>
      simp only [processClient] at taken
      split at taken
      · exact kept.process taken
      · cases taken
  | wait arrived =>
      simp only [processClient] at taken
      split at taken
      · obtain ⟨after, reached, next⟩ := kept.wait positive arrived
        obtain rfl := Option.some.inj (reached.symm.trans taken)
        exact next
      · cases taken
  | bye stack received =>
      simp only [processClient] at taken
      split at taken
      · exact kept.bye taken
      · cases taken

theorem Reached.kept (reached : Reached host size server) (positive : 1 ≤ size)
    (small : size < 2 ^ 31) : Kept size server := by
  apply reached.invariant
  · intro server begun
    exact begun.kept small
  · intro before outside after kept taken _
    obtain ⟨step, step_taken, rfl⟩ := Option.map_eq_some_iff.mp taken
    exact kept.round positive small step_taken

end

/-! The end of the loop. -/

section

variable {host : ByteOrder} {size : Int} {server : Server}

theorem quietRound_send (state : server.state = .sendData) {input : Lonely}
    (fits : InPayload input.1) :
    quietRound host input server = sendData host input.1 false server := by
  simp only [quietRound, state, quiet, Option.bind_eq_bind, Option.bind_some, processClient]
  rw [if_pos ⟨trivial, fits⟩]

theorem quietRound_wait (state : server.state = .waitOnAck) (input : Lonely) :
    quietRound host input server = waitOnAck false server := by
  simp only [quietRound, state, quiet, Option.bind_eq_bind, Option.bind_some, processClient,
    if_true]

theorem quietRound_bye (state : server.state = .bye) (input : Lonely) :
    quietRound host input server = bye host input.2 none server := by
  simp only [quietRound, state, quiet, Option.bind_eq_bind, Option.bind_some, processClient,
    if_true]

/-- The rounds that are left. A closed window is found out in a round of its own. -/
def Server.rank (server : Server) : Nat :=
  match server.state with
  | .sendData => server.window.room + 12
  | .waitOnAck => (10 - server.waitCount).toNat + 1
  | .bye => (10 - server.byeCount).toNat + 1
  | .start => 0
  | .filename => 0
  | .process => 0
  | .done => 0
  | .exited => 0

theorem Server.rank_ended (ended : server.Over) : server.rank = 0 := by
  rcases ended with state | state
  · simp only [Server.rank, state]
  · simp only [Server.rank, state]

def Within (host : ByteOrder) (server : Server) (sent : List (List UInt8)) : Prop :=
  match server.state with
  | .sendData => ∃ packets nudges, sent = packets ++ nudges ∧
      packets.length ≤ server.window.room ∧ nudges.length ≤ (10 - server.waitCount).toNat ∧
      ∀ datagram ∈ packets, ∃ number data, server.window.middle ≤ number ∧
        number ≤ server.window.top ∧
        datagram = frame host (UInt32.ofInt number) Flag.data.code data
  | .waitOnAck => sent.length ≤ (10 - server.waitCount).toNat
  | .bye => sent.length ≤ (10 - server.byeCount).toNat + 1 ∧
      ∀ datagram ∈ sent, datagram = frame host (UInt32.ofInt server.eofIndex) Flag.endOfFile.code []
  | .start => sent = []
  | .filename => sent = []
  | .process => sent = []
  | .done => sent = []
  | .exited => sent = []

theorem Within.ended_iff (ended : server.Over) {sent : List (List UInt8)} :
    Within host server sent ↔ sent = [] := by
  rcases ended with state | state
  · simp only [Within, state]
  · simp only [Within, state]

theorem modest_idle {sent : List (List UInt8)} (state : server.state ≠ .bye)
    (short : sent.length ≤ 10) : Modest host server sent := by
  rw [Modest, if_neg state]
  exact ⟨[], sent, rfl, Nat.zero_le _, short, fun _ => rfl, by simp⟩

theorem Within.modest {sent : List (List UInt8)} (within : Within host server sent)
    (kept : Kept size server) : Modest host server sent := by
  have waits := kept.waitCount
  have byes := kept.byeCount
  cases state : server.state with
  | sendData =>
      simp only [Within, state] at within
      obtain ⟨packets, nudges, same, room, tries, frames⟩ := within
      rw [Modest, if_neg (by simp [state])]
      exact ⟨packets, nudges, same, room, by omega, fun idle => absurd state idle, frames⟩
  | waitOnAck =>
      simp only [Within, state] at within
      exact modest_idle (by simp [state]) (by omega)
  | bye =>
      simp only [Within, state] at within
      rw [Modest, if_pos state]
      exact ⟨by omega, within.2⟩
  | start => exact absurd state kept.state.1
  | filename => exact absurd state kept.state.2
  | process =>
      simp only [Within, state] at within
      exact modest_idle (by simp [state]) (by simp [within])
  | done =>
      obtain rfl := (Within.ended_iff (.inl state)).mp within
      exact modest_idle (by simp [state]) (Nat.zero_le _)
  | exited =>
      obtain rfl := (Within.ended_iff (.inr state)).mp within
      exact modest_idle (by simp [state]) (Nat.zero_le _)

structure Alone (size : Int) (server : Server) : Prop where
  kept : Kept size server
  state : server.state ≠ .process
  below : server.state = .sendData → server.window.top < 2 ^ 31 - 1

theorem Alone.of_ended (kept : Kept size server) (ended : server.Over) : Alone size server := by
  rcases ended with state | state
  · exact ⟨kept, by simp [state], by simp [state]⟩
  · exact ⟨kept, by simp [state], by simp [state]⟩

def Progresses (host : ByteOrder) (size : Int) (input : Lonely) (server : Server) : Prop :=
  ∃ next sent, quietRound host input server = some (next, sent) ∧ Alone size next ∧
    next.rank < server.rank ∧ ∀ rest, Within host next rest → Within host server (sent ++ rest)

theorem Alone.send (alone : Alone size server) (positive : 1 ≤ size) (small : size < 2 ^ 31)
    {input : Lonely} (fits : InPayload input.1) (state : server.state = .sendData) :
    Progresses host size input server := by
  have below := alone.below state
  have lower := alone.kept.middle_ge
  have waits := alone.kept.waitCount
  have rank : server.rank = server.window.room + 12 := by simp only [Server.rank, state]
  obtain ⟨⟨next, sent⟩, taken, kept⟩ := alone.kept.send positive small fits
  refine ⟨next, sent, (quietRound_send state fits).trans taken, ?_⟩
  obtain ⟨waitCount, _, ⟨_, rfl, window, after⟩ | ⟨opened, rfl, middle, top, after⟩⟩ :=
    sendData_sends fits taken
  · -- the window is closed, or nothing was read: only nudges can follow
    have nudges (rest : List (List UInt8)) (tries : rest.length ≤ (10 - server.waitCount).toNat) :
        Within host server rest := by
      simp only [Within, state]
      exact ⟨[], rest, rfl, Nat.zero_le _, tries, by simp⟩
    rcases after with after | after
    · have nextRank : next.rank = (10 - next.waitCount).toNat + 1 := by
        simp only [Server.rank, after]
      refine ⟨⟨kept, by simp [after], by simp [after]⟩, by omega, ?_⟩
      intro rest within
      simp only [Within, after, waitCount] at within
      exact nudges rest within
    · have ended : next.Over := .inl after
      refine ⟨.of_ended kept ended, by rw [Server.rank_ended ended]; omega, ?_⟩
      intro rest within
      obtain rfl := (Within.ended_iff ended).mp within
      exact nudges [] (Nat.zero_le _)
  · -- a packet is sent, and the number of the next one does not overflow
    have number : asInt32 (server.window.middle + 1) = server.window.middle + 1 :=
      asInt32_eq _ (by omega) (by omega)
    rw [number] at middle
    simp only [Bool.false_eq_true, if_false] at after
    have room : next.window.room + 1 = server.window.room := by
      simp only [Window.room, middle, top]
      omega
    have nextRank : next.rank = next.window.room + 12 := by simp only [Server.rank, after]
    refine ⟨⟨kept, by simp [after], fun _ => top ▸ below⟩, by omega, ?_⟩
    intro rest within
    simp only [Within, after] at within
    obtain ⟨packets, nudges, rfl, less, tries, frames⟩ := within
    simp only [Within, state]
    refine ⟨_ :: packets, nudges, rfl, ?_, waitCount ▸ tries, ?_⟩
    · rw [List.length_cons]
      omega
    · intro datagram member
      rcases List.mem_cons.mp member with rfl | later
      · exact ⟨_, _, Int.le_refl _, opened, rfl⟩
      · obtain ⟨number, data, first, last, same⟩ := frames datagram later
        exact ⟨number, data, by omega, by omega, same⟩

theorem Alone.wait (alone : Alone size server) (positive : 1 ≤ size) (input : Lonely)
    (state : server.state = .waitOnAck) : Progresses host size input server := by
  have rank : server.rank = (10 - server.waitCount).toNat + 1 := by
    simp only [Server.rank, state]
  obtain ⟨⟨next, sent⟩, taken, kept⟩ := alone.kept.wait positive false
  refine ⟨next, sent, (quietRound_wait state input).trans taken, ?_⟩
  obtain ⟨waitCount, _, window, ⟨rfl, ended⟩ | ⟨tries, after, nudge, rfl⟩⟩ := waitOnAck_nudges taken
  · refine ⟨.of_ended kept ended, by rw [Server.rank_ended ended]; omega, ?_⟩
    intro rest within
    obtain rfl := (Within.ended_iff ended).mp within
    simp only [Within, state]
    exact Nat.zero_le _
  · have nextRank : next.rank = (10 - next.waitCount).toNat + 1 := by
      simp only [Server.rank, after]
    refine ⟨⟨kept, by simp [after], by simp [after]⟩, by omega, ?_⟩
    intro rest within
    simp only [Within, after] at within
    simp only [Within, state, List.singleton_append, List.length_cons]
    omega

theorem Alone.bye (alone : Alone size server) (input : Lonely) (state : server.state = .bye) :
    Progresses host size input server := by
  have rank : server.rank = (10 - server.byeCount).toNat + 1 := by
    simp only [Server.rank, state]
  have taken := bye_alone host input.2 server
  have kept := alone.kept.bye taken
  refine ⟨_, _, (quietRound_bye state input).trans taken, ?_⟩
  by_cases tired : server.byeCount + 1 > 10
  · simp only [if_pos tired] at kept ⊢
    refine ⟨.of_ended kept (.inl rfl), by rw [Server.rank_ended (.inl rfl)]; omega, ?_⟩
    intro rest within
    obtain rfl := (Within.ended_iff (.inl rfl)).mp within
    simp only [Within, state]
    exact ⟨by simp, by simp⟩
  · simp only [if_neg tired] at kept ⊢
    refine ⟨⟨kept, ServerState.noConfusion, ServerState.noConfusion⟩, ?_, ?_⟩
    · rw [rank]
      simp only [Server.rank]
      omega
    · intro rest within
      simp only [Within] at within
      simp only [Within, state, List.singleton_append, List.length_cons, List.forall_mem_cons,
        true_and]
      exact ⟨by omega, within.2⟩

theorem Alone.progresses (alone : Alone size server) (positive : 1 ≤ size)
    (small : size < 2 ^ 31) {input : Lonely} (fits : InPayload input.1) (going : ¬server.Over) :
    Progresses host size input server := by
  cases state : server.state with
  | sendData => exact alone.send positive small fits state
  | waitOnAck => exact alone.wait positive input state
  | bye => exact alone.bye input state
  | start => exact absurd state alone.kept.state.1
  | filename => exact absurd state alone.kept.state.2
  | process => exact absurd state alone.state
  | done => exact absurd (.inl state) going
  | exited => exact absurd (.inr state) going

theorem Alone.stops (alone : Alone size server) (positive : 1 ≤ size) (small : size < 2 ^ 31) :
    Stops host server := by
  intro inputs regular
  obtain ⟨rounds, last, sent, executed, ended, within⟩ := loop_ends
    (fun input : Lonely => InPayload input.1) Server.rank
    (fun _ ended => (Within.ended_iff ended).mpr rfl)
    (fun _ _ fits kept going => kept.progresses positive small fits going) alone regular.fits
  exact ⟨rounds, last, sent, executed, ended, within.modest alone.kept⟩

/-! The overflow. -/

structure Unbounded (size : Int) (server : Server) : Prop where
  kept : Kept size server
  state : server.state = .sendData
  top : 2 ^ 31 - 1 ≤ server.window.top

theorem Unbounded.send (unbounded : Unbounded size server) (positive : 1 ≤ size)
    (small : size < 2 ^ 31) {input : Lonely} (fits : InPayload input.1)
    (nonempty : input.1.getD [] ≠ []) {next : Server} {sent : List (List UInt8)}
    (taken : quietRound host input server = some (next, sent)) :
    Unbounded size next ∧ sent ≠ [] := by
  rw [quietRound_send unbounded.state fits] at taken
  have top := unbounded.top
  have middle := unbounded.kept.middle_lt
  obtain ⟨step, taken', kept⟩ := unbounded.kept.send positive small fits
  obtain rfl := Option.some.inj (taken'.symm.trans taken)
  obtain ⟨_, _, ⟨closed | empty, _⟩ | ⟨_, rfl, _, same, after⟩⟩ := sendData_sends fits taken
  · omega
  · exact absurd empty nonempty
  · exact ⟨⟨kept, after, by rw [same]; exact top⟩, List.cons_ne_nil _ _⟩

def byteReads (count : Nat) (round : Nat) : Lonely :=
  (some (if round < count then [0] else []), Packet.zero)

theorem byteReads_regular (count : Nat) : RegularReads (byteReads count) := by
  constructor
  · intro round
    simp only [byteReads, InPayload, Option.getD_some]
    split
    · simp [maxPacketLength]
    · simp
  · refine ⟨count, ?_⟩
    intro round behind
    simp only [byteReads, Option.getD_some]
    rw [if_neg (by omega)]

theorem Unbounded.not_stops (unbounded : Unbounded size server) (positive : 1 ≤ size)
    (small : size < 2 ^ 31) : ¬Stops host server := by
  intro stops
  obtain ⟨rounds, last, sent, executed, ended, modest⟩ :=
    stops _ (byteReads_regular (server.window.room + 11))
  have many : server.window.room + 11 ≤ sent.length := by
    refine loop_emits (fun input : Lonely => InPayload input.1 ∧ input.1.getD [] ≠ []) ?_ ?_ ?_
      unbounded executed ended
    · rintro state busy (done | exited)
      · exact absurd (busy.state.symm.trans done) ServerState.noConfusion
      · exact absurd (busy.state.symm.trans exited) ServerState.noConfusion
    · intro input state next emitted feeds busy taken
      exact busy.send positive small feeds.1 feeds.2 taken
    · intro round below
      simp only [byteReads, InPayload, Option.getD_some, if_pos below]
      exact ⟨by simp [maxPacketLength], by simp⟩
  rw [Modest, if_neg (by simp [unbounded.state])] at modest
  obtain ⟨packets, nudges, rfl, room, tries, _⟩ := modest
  rw [List.length_append] at many
  omega

end

/-- A child that nothing reaches any more ends, with as many packets as fit in its window and 10
nudges at most, from every state of its loop in which no datagram is left, except from SEND_DATA
with a window up to the largest number: the number behind it overflows, and the window is open
for the rest of the file. -/
theorem abandoned_stops_iff (host : ByteOrder) (size : Int) (positive : 1 ≤ size)
    (small : size < 2 ^ 31) (server : Server) (reached : Reached host size server)
    (nothing : server.state ≠ .process) :
    Stops host server ↔ (server.state = .sendData → server.window.top < 2 ^ 31 - 1) := by
  have kept := reached.kept positive small
  constructor
  · intro stops state
    by_contra top
    exact Unbounded.not_stops ⟨kept, state, by omega⟩ positive small stops
  · intro below
    exact Alone.stops ⟨kept, nothing, below⟩ positive small

theorem reached_child {job : Job} {packet : Packet} {eofIndex : Int} {child : Child}
    (reach : Reach (· = job.start packet eofIndex) (childStep job) (fun _ _ _ => True) child) :
    Reached job.host job.windowSize child.server := by
  induction reach with
  | start begins => exact .start ⟨job, packet, eofIndex, rfl, begins ▸ rfl⟩
  | step event _ taken _ ih =>
      cases childStep_moves taken with
      | @send readFails arrived state sends =>
          simp only [childSend, Option.bind_eq_bind, Option.bind_eq_some_iff,
            Option.some.injEq] at sends
          obtain ⟨chunk, reads, step, sends, rfl⟩ := sends
          have fits : InPayload chunk := by
            rcases chunk with _ | data
            · exact Nat.zero_le _
            · simp only [Child.read] at reads
              split at reads
              · cases reads
              · exact (Job.read_some reads).2
          refine .step (.send chunk arrived) ih ?_ trivial
          rw [serverRound, processClient, if_pos ⟨state, fits⟩, sends, Option.map_some]
      | process state processes =>
          simp only [childProcess, Option.bind_eq_bind, Option.bind_eq_some_iff,
            Option.some.injEq] at processes
          obtain ⟨received, _, step, processes, rfl⟩ := processes
          refine .step (.process received) ih ?_ trivial
          rw [serverRound, processClient, if_pos state, processes, Option.map_some]
      | @wait arrived state waits =>
          simp only [childWait, Option.bind_eq_bind, Option.bind_eq_some_iff,
            Option.some.injEq] at waits
          obtain ⟨step, waits, rfl⟩ := waits
          refine .step (.wait arrived) ih ?_ trivial
          rw [serverRound, processClient, if_pos state, waits, Option.map_some]
      | @bye stack _ state ends =>
          simp only [childBye, Option.bind_eq_bind, Option.bind_eq_some_iff,
            Option.some.injEq] at ends
          obtain ⟨received, _, step, ends, rfl⟩ := ends
          refine .step (.bye stack received) ih ?_ trivial
          rw [serverRound, processClient, if_pos state, ends, Option.map_some]

theorem process_rr {server : Server} {received : Int × Packet} {step : ServerStep}
    (accepted : received.1 ≠ crcError) (rr : received.2.flag = Flag.rr.code)
    (forward : asInt32 received.2.number > server.window.bottom)
    (other : asInt32 received.2.number ≠ server.eofIndex)
    (taken : process received server = some step) :
    step.1.state = .sendData ∧
      slide server.window (asInt32 received.2.number) = some step.1.window := by
  obtain ⟨code, incoming⟩ := received
  obtain ⟨next, sent⟩ := step
  rcases process_inverts taken with ⟨rejected, _⟩ | ⟨_, _, _, window, moves, made⟩ |
    ⟨_, srej, _⟩ | ⟨_, notRr, _⟩
  · exact absurd rejected accepted
  · rw [if_pos forward] at moves
    rw [if_neg other] at made
    rw [made]
    exact ⟨rfl, moves⟩
  · exact absurd (rr.symm.trans srej) (by decide)
  · exact absurd rr notRr

def narrowJob : Job where
  host := .little
  file := List.replicate 13 0
  bufSize := 1
  windowSize := 1

theorem abandoned_stops_narrow : Stops .little (narrowJob.start Packet.zero 0).server :=
  (abandoned_stops_iff .little 1 (by decide) (by decide) _
    (.start ⟨narrowJob, Packet.zero, 0, rfl, rfl⟩) ServerState.noConfusion).mpr fun _ => by decide

/-- RR 2^31 - 1 makes the largest number the only one of the window. The child sends that packet,
and then numbers from -2^31 on, for which the window stays open: all 12 bytes that are left. -/
theorem abandoned_overflows : ∃ child,
    Reach (· = narrowJob.start Packet.zero 0) (childStep narrowJob) (fun _ _ _ => True) child ∧
    child.server.state ≠ .process ∧ ¬Stops .little child.server := by
  have sends : (Transition.run (childStep narrowJob) [.send false true]
      (narrowJob.start Packet.zero 0)).map (fun child => (child.server.state,
        child.server.window.bottom, child.server.window.size, child.server.eofIndex)) =
      some (.process, 1, 1, 0) := by
    decide +kernel
  obtain ⟨child, executed, values⟩ := Option.map_eq_some_iff.mp sends
  simp only [Prod.mk.injEq] at values
  obtain ⟨state, bottom, width, eofIndex⟩ := values
  have reach : Reach (· = narrowJob.start Packet.zero 0) (childStep narrowJob)
      (fun _ _ _ => True) child :=
    .run _ (.start rfl) executed (Permitted.of_forall (fun _ _ _ => trivial) _ _)
  have kept := (reached_child reach).kept (by decide) (by decide)
  obtain ⟨packet, receives, sequence, kind, _⟩ :=
    recvPacket_frame .big narrowJob.host Packet.zero 2147483647 Flag.rr.code [] (Nat.zero_le _)
  have number : asInt32 packet.number = 2147483647 := by
    rw [Packet.number, sequence]
    decide
  obtain ⟨step, taken⟩ := process_isSome kept.window (by decide) (([] : List UInt8).length, packet)
    (fun srej => absurd (kind.symm.trans srej) (by decide))
  have accepted : (([] : List UInt8).length : Int) ≠ crcError := by decide
  obtain ⟨after, slides⟩ := process_rr accepted kind (by rw [number, bottom]; decide)
    (by rw [number, eofIndex]; decide) taken
  have reaches : Reach (· = narrowJob.start Packet.zero 0) (childStep narrowJob)
      (fun _ _ _ => True) { child with server := step.1 } := by
    refine .step (.process Packet.zero (frame .big 2147483647 Flag.rr.code [])) reach ?_ trivial
    simp only [childStep, if_pos state, childProcess, receives, taken, Option.bind_eq_bind,
      Option.bind_some]
  have top : step.1.window.top = 2 ^ 31 - 1 := by
    rw [slide_fields slides]
    simp only [number, width]
    decide
  refine ⟨_, reaches, by simp [after], ?_⟩
  exact Unbounded.not_stops ⟨(reached_child reaches).kept (by decide) (by decide), after,
    by rw [top]⟩ (by decide) (by decide)

end RemoteCopy
