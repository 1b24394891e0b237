import Cpe464.Library.Transition
import Cpe464.RemoteCopy.RcopySteps

/-!
Runs of rcopy alone, over any sequence of receive outcomes. The calls it makes are
kept as a history: its writes deliver the accepted packets in the order of their
numbers, and each RR names the first number that is not yet written.
-/

namespace RemoteCopy

open Bytes

structure Rcopy where
  state : ClientState
  window : Window
  accepted : List Packet
  actions : List ClientAction

def Rcopy.start (size : Int) : Rcopy := ⟨.recvData, initWindow size, [], []⟩

def acceptedPacket : Option (Int × Packet) → List Packet
  | some (length, packet) => if length = crcError then [] else [packet]
  | none => []

def IsData : Option (Int × Packet) → Prop
  | some (length, packet) => length ≠ crcError → packet.flag ≠ Flag.endOfFile.code
  | none => True

instance (outcome : Option (Int × Packet)) : Decidable (IsData outcome) :=
  match outcome with
  | some (_, _) => inferInstanceAs (Decidable (_ → _))
  | none => isTrue trivial

def Rcopy.step (outcome : Option (Int × Packet)) (rcopy : Rcopy) : Option Rcopy := do
  let (state, window, actions) ← clientStep rcopy.window outcome rcopy.state
  some {
    state
    window
    accepted := rcopy.accepted ++ acceptedPacket outcome
    actions := rcopy.actions ++ actions }

def ClientAction.written : ClientAction → Option (Buffer maxPacketLength × Int)
  | write payload length => some (payload, length)
  | _ => none

def ClientAction.acknowledged : ClientAction → Option Int
  | rr seqNum => some seqNum
  | _ => none

def writes (actions : List ClientAction) : List (Buffer maxPacketLength × Int) :=
  actions.filterMap ClientAction.written

def rrNumbers (actions : List ClientAction) : List Int :=
  actions.filterMap ClientAction.acknowledged

/-- Each RR carries the number of the first packet that is not yet written, when the
first write of the list is the one of `next`. -/
def Honest : Int → List ClientAction → Prop
  | _, [] => True
  | next, .write _ _ :: rest => Honest (next + 1) rest
  | next, .rr seqNum :: rest => seqNum = next ∧ Honest next rest
  | next, .srej _ :: rest => Honest next rest

@[simp] theorem writes_nil : writes [] = [] := rfl

@[simp] theorem writes_write (payload : Buffer maxPacketLength) (length : Int)
    (rest : List ClientAction) :
    writes (.write payload length :: rest) = (payload, length) :: writes rest := rfl

@[simp] theorem writes_rr (seqNum : Int) (rest : List ClientAction) :
    writes (.rr seqNum :: rest) = writes rest := rfl

@[simp] theorem writes_srej (seqNum : Int) (rest : List ClientAction) :
    writes (.srej seqNum :: rest) = writes rest := rfl

theorem writes_append (first second : List ClientAction) :
    writes (first ++ second) = writes first ++ writes second := by
  exact List.filterMap_append

theorem honest_append (next : Int) (first second : List ClientAction) :
    Honest next (first ++ second) ↔
      Honest next first ∧ Honest (next + (writes first).length) second := by
  induction first generalizing next with
  | nil => simp [Honest]
  | cons action rest ih =>
      cases action with
      | write payload length =>
          simp only [List.cons_append, Honest, ih, writes_write, List.length_cons]
          rw [Int.natCast_succ, Int.add_right_comm, Int.add_assoc next]
      | rr seqNum => simp only [List.cons_append, Honest, ih, writes_rr, and_assoc]
      | srej seqNum => simp only [List.cons_append, Honest, ih, writes_srej]

theorem Honest.counts {next : Int} {actions : List ClientAction} (honest : Honest next actions)
    (before after : List ClientAction) (seqNum : Int)
    (split : actions = before ++ .rr seqNum :: after) :
    seqNum = next + (writes before).length := by
  rw [split, honest_append] at honest
  exact honest.2.1

theorem Honest.monotone {next : Int} {actions : List ClientAction} (honest : Honest next actions) :
    (∀ seqNum ∈ rrNumbers actions, next ≤ seqNum) ∧ (rrNumbers actions).Pairwise (· ≤ ·) := by
  induction actions generalizing next with
  | nil => simp [rrNumbers]
  | cons action rest ih =>
      cases action with
      | write payload length =>
          obtain ⟨above, sorted⟩ := ih honest
          refine ⟨?_, sorted⟩
          intro seqNum member
          have := above seqNum member
          omega
      | rr seqNum =>
          obtain ⟨rfl, later⟩ := honest
          obtain ⟨above, sorted⟩ := ih later
          constructor
          · intro other member
            rcases List.mem_cons.mp member with rfl | inside
            · exact Int.le_refl _
            · exact above other inside
          · exact List.pairwise_cons.mpr ⟨above, sorted⟩
      | srej seqNum => exact ih honest

/-! One step. -/

theorem flushWrites_honest (window : Window) (dataLen : Int) (count : Nat) (first next : Int) :
    Honest next (flushWrites window dataLen count first) := by
  induction count generalizing first next with
  | zero => trivial
  | succ count ih => exact ih (first + 1) (next + 1)

theorem flushWrites_writes (window : Window) (dataLen : Int) (count : Nat) (first : Int) :
    writes (flushWrites window dataLen count first) = (List.range count).map fun index : Nat =>
      ((window.stored (first + index)).payload, dataLen) := by
  induction count generalizing first with
  | zero => rfl
  | succ count ih =>
      rw [List.range_succ_eq_map, List.map_cons, List.map_map, flushWrites, writes_write, ih]
      simp only [Int.natCast_zero, Int.add_zero, List.cons.injEq, true_and]
      apply List.map_congr_left
      intro index _
      simp only [Function.comp, Int.natCast_succ]
      rw [show first + 1 + (index : Int) = first + ((index : Int) + 1) by omega]

section

variable {window after : Window} {state next : ClientState} {outcome : Option (Int × Packet)}
  {actions : List ClientAction}

theorem Receives.bottom_eq (received : Receives window state outcome next after actions) :
    after.bottom = window.bottom + (writes actions).length := by
  cases received with
  | next => simp [Window.slid]
  | @filled _ _ _ gap _ _ _ forward =>
      split <;> simp [writes_append, flushWrites_writes, flushed, Window.slid] <;> omega
  | _ => simp

theorem Receives.honest (received : Receives window state outcome next after actions)
    (data : IsData outcome) : Honest window.bottom actions := by
  cases received with
  | finished accepted ends => exact absurd ends (data accepted)
  | finishedGap accepted ends => exact absurd ends (data accepted)
  | @filled length packet _ gap _ _ _ forward =>
      rw [honest_append, honest_append]
      refine ⟨⟨?_, flushWrites_honest _ _ _ _ _⟩, ?_, trivial⟩
      · split <;> trivial
      · split <;> simp [flushWrites_writes] <;> omega
  | _ => simp [Honest]

theorem Receives.written (settled : Settled state window)
    (received : Receives window state outcome next after actions) (index : Nat)
    (payload : Buffer maxPacketLength) (length : Int)
    (found : (writes actions)[index]? = some (payload, length)) :
    ∃ packet, outcome = some (length, packet) ∧ length ≠ crcError ∧
      packet.flag ≠ Flag.endOfFile.code ∧ packet.number = window.bottom ∧
      ((index = 0 ∧ payload = packet.payload) ∨
        (0 < index ∧ window.bottom + index ≤ window.top ∧
          window.isSet (window.bottom + index) = true ∧
          payload = (window.stored (window.bottom + index)).payload)) := by
  have wellFormed := settled.wellFormed
  have top := wellFormed.top_eq
  cases received with
  | @next dataLen packet accepted data expected =>
      cases index with
      | zero =>
          simp only [writes_write, List.getElem?_cons_zero, Option.some.injEq,
            Prod.mk.injEq] at found
          obtain ⟨rfl, rfl⟩ := found
          exact ⟨packet, rfl, accepted, data, expected, Or.inl ⟨rfl, rfl⟩⟩
      | succ index => cases found
  | @filled dataLen packet _ gap accepted data expected forward bound run =>
      have flushedWrites : writes ((if gap ≤ window.top then [.srej gap] else []) ++
          flushWrites (window.put packet) dataLen (gap - window.bottom).toNat window.bottom ++
          [.rr gap]) = writes (flushWrites (window.put packet) dataLen
            (gap - window.bottom).toNat window.bottom) := by
        split <;> simp [writes_append]
      rw [flushedWrites, flushWrites_writes, List.getElem?_map, Option.map_eq_some_iff] at found
      obtain ⟨position, inside, same⟩ := found
      obtain ⟨short, rfl⟩ := List.getElem?_eq_some_iff.mp inside
      rw [List.length_range] at short
      rw [List.getElem_range, Prod.mk.injEq] at same
      obtain ⟨rfl, rfl⟩ := same
      refine ⟨packet, rfl, accepted, data, expected, ?_⟩
      by_cases start : index = 0
      · left
        refine ⟨start, ?_⟩
        rw [start, Int.natCast_zero, Int.add_zero, ← expected, put_stored_self wellFormed packet]
      · right
        refine ⟨by omega, by omega, run (window.bottom + index) (by omega) (by omega), ?_⟩
        rw [put_stored_of_ne wellFormed packet (window.bottom + index) (by omega) (by omega)
          (by omega)]
  | _ => simp at found

end

/-! Runs. -/

def DataOnly (size : Int) (_ : Rcopy) (outcome : Option (Int × Packet)) (next : Rcopy) : Prop :=
  IsData outcome ∧ next.window.bottom + size < 2 ^ 31

instance (size : Int) (rcopy next : Rcopy) (outcome : Option (Int × Packet)) :
    Decidable (DataOnly size rcopy outcome next) :=
  inferInstanceAs (Decidable (_ ∧ _))

structure Delivered (size : Int) (rcopy : Rcopy) : Prop where
  settled : Settled rcopy.state rcopy.window
  size_eq : rcopy.window.size = size
  room : rcopy.window.bottom + size < 2 ^ 31
  bottom_eq : rcopy.window.bottom = 1 + (writes rcopy.actions).length
  honest : Honest 1 rcopy.actions
  written : ∀ (index : Nat) payload length,
    (writes rcopy.actions)[index]? = some (payload, length) →
    ∃ packet ∈ rcopy.accepted, packet.number = 1 + index ∧ packet.payload = payload
  waiting : ∀ seqNum, rcopy.window.bottom ≤ seqNum → seqNum ≤ rcopy.window.top →
    rcopy.window.isSet seqNum = true → rcopy.window.stored seqNum ∈ rcopy.accepted

theorem start_settled (size : Int) (positive : 1 ≤ size) (small : size < 2 ^ 31) :
    Settled .recvData (initWindow size) := by
  refine ⟨initWindow_wellFormed size positive small, rfl, ?_, ?_, ?_⟩
  · intro _ seqNum _ _
    exact initWindow_isSet size seqNum
  · intro impossible
    cases impossible
  · intro seqNum _ _ set
    rw [initWindow_isSet] at set
    cases set

theorem start_delivered (size : Int) (positive : 1 ≤ size) (small : size + 1 < 2 ^ 31) :
    Delivered size (Rcopy.start size) := by
  constructor
  · exact start_settled size positive (by omega)
  · rfl
  · simp only [Rcopy.start, initWindow]
    omega
  · rfl
  · trivial
  · intro index payload length found
    simp [Rcopy.start] at found
  · intro seqNum _ _ set
    rw [Rcopy.start, initWindow_isSet] at set
    cases set

theorem acceptedPacket_mem {outcome : Option (Int × Packet)} {length : Int} {packet : Packet}
    (same : outcome = some (length, packet)) (accepted : length ≠ crcError) :
    packet ∈ acceptedPacket outcome := by
  rw [same, acceptedPacket, if_neg accepted]
  exact List.mem_singleton_self packet

theorem step_delivered (size : Int) (rcopy next : Rcopy) (outcome : Option (Int × Packet))
    (delivered : Delivered size rcopy) (taken : Rcopy.step outcome rcopy = some next)
    (allowed : DataOnly size rcopy outcome next) : Delivered size next := by
  simp only [Rcopy.step, Option.bind_eq_bind, Option.bind_eq_some_iff] at taken
  obtain ⟨⟨state, window, actions⟩, steps, made⟩ := taken
  simp only [Option.some.injEq] at made
  subst made
  obtain ⟨data, room⟩ := allowed
  simp only at room
  have settled := delivered.settled
  have sizeEq := delivered.size_eq
  have top := settled.wellFormed.top_eq
  have bound := delivered.room
  have fits : Fits rcopy.window outcome window := by
    constructor
    · intros
      omega
    · intro _ _ _ _ _ _ gap _ _ _ moved
      omega
  obtain ⟨active, received⟩ := clientStep_receives settled fits steps
  have bottom := received.bottom_eq
  have before := delivered.bottom_eq
  constructor
  · exact receives_settled settled fits active received
  · exact received.size_eq.trans sizeEq
  · exact room
  · simp only [writes_append, List.length_append]
    omega
  · rw [honest_append, ← before]
    exact ⟨delivered.honest, received.honest data⟩
  · intro index payload length found
    simp only [writes_append] at found
    by_cases old : index < (writes rcopy.actions).length
    · rw [List.getElem?_append_left old] at found
      obtain ⟨packet, member, written⟩ := delivered.written index payload length found
      exact ⟨packet, List.mem_append_left _ member, written⟩
    · rw [List.getElem?_append_right (by omega)] at found
      obtain ⟨packet, same, accepted, _, expected, ⟨start, first⟩ | ⟨_, inside, set, later⟩⟩ :=
        received.written settled _ payload length found
      · exact ⟨packet, List.mem_append_right _ (acceptedPacket_mem same accepted), by omega,
          first.symm⟩
      · have number := settled.held _ (by omega) inside set
        exact ⟨_, List.mem_append_left _ (delivered.waiting _ (by omega) inside set), by omega,
          later.symm⟩
  · intro seqNum lower upper set
    have forward := received.bottom_le
    rcases received.cell settled seqNum lower upper set with
      ⟨length, packet, same, accepted, _, _, stored⟩ | ⟨inner, old, stored⟩
    · simp only [stored]
      exact List.mem_append_right _ (acceptedPacket_mem same accepted)
    · simp only [stored]
      exact List.mem_append_left _ (delivered.waiting seqNum (by simp only at lower; omega) inner old)

/-- The slots of rcopy at a state boundary, by index. In RECV_DATA none is valid; in MISSING
the one of `bottom` is not, and the valid ones hold packets of the window that map to them. -/
def SlotsAgree (state : ClientState) (window : Window) : Prop :=
  (state = .recvData → ∀ index : Nat, window.valid[index]? ≠ some true) ∧
  (state = .missing → isValid window window.bottom = some false ∧
    ∀ index : Nat, window.valid[index]? = some true → ∃ packet, window.buffer[index]? = some packet ∧
      window.bottom < packet.number ∧ packet.number ≤ window.top ∧
      packetIndex window packet = some index)

theorem Settled.slotsAgree {state : ClientState} {window : Window}
    (settled : Settled state window) : SlotsAgree state window := by
  have wellFormed := settled.wellFormed
  have positive := wellFormed.size_pos
  have bottom := wellFormed.bottom_pos
  have top := wellFormed.top_eq
  have topBound := wellFormed.top_lt
  have named (index : Nat) (set : window.valid[index]? = some true) :
      ∃ seqNum, window.bottom ≤ seqNum ∧ seqNum ≤ window.top ∧ window.isSet seqNum = true ∧
        Ring.slot window.size (seqNum - 1) = index := by
    obtain ⟨bound, _⟩ := List.getElem?_eq_some_iff.mp set
    rw [wellFormed.valid_length] at bound
    obtain ⟨number, lower, upper, slot⟩ :=
      Ring.exists_slot window.size (window.bottom - 1) index positive bound
    refine ⟨number + 1, by omega, by omega, ?_, by rwa [Int.add_sub_cancel]⟩
    rw [Window.isSet, Int.add_sub_cancel, Ring.read, slot, List.getD_eq_getElem?_getD, set]
    rfl
  refine ⟨?_, ?_⟩
  · rintro rfl index set
    obtain ⟨seqNum, lower, upper, flag, _⟩ := named index set
    rw [settled.quiet rfl seqNum lower upper] at flag
    cases flag
  · rintro rfl
    have clear := settled.gap rfl
    refine ⟨?_, ?_⟩
    · rw [isValid_eq wellFormed window.bottom bottom (by omega), clear]
    · intro index set
      obtain ⟨seqNum, lower, upper, flag, slot⟩ := named index set
      have number := settled.held seqNum lower upper flag
      have different : seqNum ≠ window.bottom := by
        rintro rfl
        rw [clear] at flag
        cases flag
      refine ⟨window.stored seqNum, ?_, by omega, by omega, ?_⟩
      · rw [← slot]
        exact Ring.getElem?_slot _ _ _ _ positive wellFormed.buffer_length
      · rw [packetIndex_eq wellFormed _ (by omega), number, slot]

/-- rcopy delivers in order, without gaps or repeats, and acknowledges only what it has
written, whatever it receives and in whatever order. -/
theorem rcopy_inOrder (size : Int) (positive : 1 ≤ size) (small : size + 1 < 2 ^ 31)
    (rcopy : Rcopy)
    (reach : Transition.Reach (· = Rcopy.start size) Rcopy.step (DataOnly size) rcopy) :
    (∀ (index : Nat) payload length,
      (writes rcopy.actions)[index]? = some (payload, length) →
      ∃ packet ∈ rcopy.accepted, packet.number = 1 + index ∧ packet.payload = payload) ∧
    (rrNumbers rcopy.actions).Pairwise (· ≤ ·) ∧
    (∀ before after (seqNum : Int), rcopy.actions = before ++ .rr seqNum :: after →
      seqNum = 1 + (writes before).length) ∧
    rcopy.window.middle = rcopy.window.bottom ∧
    rcopy.window.top = rcopy.window.bottom + rcopy.window.size - 1 ∧
    SlotsAgree rcopy.state rcopy.window := by
  have delivered : Delivered size rcopy := by
    apply reach.invariant
    · rintro _ rfl
      exact start_delivered size positive small
    · intro state outcome next
      exact step_delivered size state next outcome
  refine ⟨delivered.written, delivered.honest.monotone.2, ?_, delivered.settled.middle_eq,
    delivered.settled.wellFormed.top_eq, delivered.settled.slotsAgree⟩
  intro before after seqNum split
  exact delivered.honest.counts before after seqNum split

def reordered : List (Option (Int × Packet)) :=
  [some (400, { Packet.zero with seqNum := 2, flag := 1 }),
    some (400, { Packet.zero with seqNum := 1, flag := 1 })]

theorem rcopy_inOrder_reordered : ∃ rcopy,
    Transition.run Rcopy.step reordered (Rcopy.start 2) = some rcopy ∧
    rrNumbers rcopy.actions = [1, 3] ∧ (rrNumbers rcopy.actions).Pairwise (· ≤ ·) := by
  have numbers : (Transition.run Rcopy.step reordered (Rcopy.start 2)).map
      (fun rcopy => rrNumbers rcopy.actions) = some [1, 3] := by
    decide +kernel
  obtain ⟨rcopy, executed, sent⟩ := Option.map_eq_some_iff.mp numbers
  have reach : Transition.Reach (· = Rcopy.start 2) Rcopy.step (DataOnly 2) rcopy :=
    Transition.Reach.run reordered (.start rfl) executed (by decide +kernel)
  exact ⟨rcopy, executed, sent, (rcopy_inOrder 2 (by decide) (by decide) rcopy reach).2.1⟩

end RemoteCopy
