import Cpe464.Library.SlidingMap
import Cpe464.Library.Transition
import Cpe464.RemoteCopy.Window

/-!
The window as a map from the numbers of its range to packets, over every sequence of
operations. Slots are shared between the laps, so this rests on the range being one lap long.
-/

namespace RemoteCopy

open SlidingMap Transition

inductive Operation
  | add (packet : Packet)
  | remove (seqNum : Int)
  | slide (newBottom : Int)

def Operation.run (window : Window) : Operation → Option Window
  | add packet => addToBuffer window packet
  | remove seqNum => (removeFromBuffer window seqNum).map Prod.snd
  | slide newBottom => RemoteCopy.slide window newBottom

variable {size : Int}

def Operation.effect (map : Sliding Packet size) : Operation → Sliding Packet size
  | add packet => map.insert packet.number packet
  | remove seqNum => map.erase seqNum
  | slide newBottom => map.advance newBottom

/-- Packets and removed numbers are in the window, which slides up to numbers below 2^31. -/
def Operation.Applies (window : Window) : Operation → Prop
  | add packet => window.bottom ≤ packet.number ∧ packet.number ≤ window.top
  | remove seqNum => window.bottom ≤ seqNum ∧ seqNum ≤ window.top
  | slide newBottom => window.bottom ≤ newBottom ∧ newBottom + window.size ≤ 2 ^ 31

instance (window : Window) (operation : Operation) : Decidable (operation.Applies window) := by
  unfold Operation.Applies
  split <;> infer_instance

structure Mapped (size : Int) where
  window : Window
  map : Sliding Packet size

def Mapped.start (size : Int) : Mapped size := ⟨initWindow size, .empty 1⟩

def Mapped.step (operation : Operation) (mapped : Mapped size) : Option (Mapped size) :=
  (operation.run mapped.window).map fun window => ⟨window, operation.effect mapped.map⟩

structure Follows (window : Window) (map : Sliding Packet size) : Prop where
  size_eq : window.size = size
  bottom_eq : window.bottom = map.bottom
  top_eq : window.top = window.bottom + window.size - 1
  valid : ∀ seqNum, window.bottom ≤ seqNum → seqNum ≤ window.top →
    isValid window seqNum = some (map.entry seqNum).isSome
  gets : ∀ seqNum packet, map.entry seqNum = some packet →
    getFromBuffer window seqNum = some packet
  removes : ∀ seqNum packet, map.entry seqNum = some packet →
    (removeFromBuffer window seqNum).map Prod.fst = some packet
  slides : ∀ newBottom, window.bottom ≤ newBottom → newBottom + window.size ≤ 2 ^ 31 →
    ∃ next, slide window newBottom = some next ∧
      ∀ seqNum, newBottom ≤ seqNum → seqNum ≤ next.top → isValid next seqNum =
        if seqNum ≤ window.top then isValid window seqNum else some false

structure ActsAs (window : Window) (map : Sliding Packet size) : Prop extends
    Follows window map where
  empty : ∃ nothing, emptyBuffer window = some nothing ∧ (nothing = true ↔ map.IsEmpty)

/-! The invariant: the flags and slots of the window against the entries. -/

structure Holds (window : Window) (map : Sliding Packet size) : Prop where
  wellFormed : window.WellFormed
  size_eq : window.size = size
  bottom_eq : window.bottom = map.bottom
  entry_eq : ∀ seqNum, window.bottom ≤ seqNum → seqNum ≤ window.top →
    map.entry seqNum = if window.isSet seqNum then some (window.stored seqNum) else none

theorem initWindow_holds (positive : 1 ≤ size) (small : size < 2 ^ 31) :
    Holds (initWindow size) (.empty 1 : Sliding Packet size) := by
  constructor
  · exact initWindow_wellFormed size positive small
  · rfl
  · rfl
  · intro seqNum _ _
    rw [initWindow_isSet]
    rfl

section

variable {window : Window} {map : Sliding Packet size} (holds : Holds window map)

include holds

theorem Holds.inRange_iff (seqNum : Int) :
    map.InRange seqNum ↔ window.bottom ≤ seqNum ∧ seqNum ≤ window.top := by
  have top := holds.wellFormed.top_eq
  have sizeEq := holds.size_eq
  have bottomEq := holds.bottom_eq
  unfold Sliding.InRange
  omega

theorem Holds.valid_eq (seqNum : Int) (lower : window.bottom ≤ seqNum)
    (upper : seqNum ≤ window.top) : isValid window seqNum = some (map.entry seqNum).isSome := by
  have bottom := holds.wellFormed.bottom_pos
  have top := holds.wellFormed.top_lt
  rw [isValid_eq holds.wellFormed seqNum (by omega) (by omega),
    holds.entry_eq seqNum lower upper]
  cases window.isSet seqNum <;> rfl

theorem Holds.stored_eq {seqNum : Int} {packet : Packet} (kept : map.entry seqNum = some packet) :
    (1 ≤ seqNum ∧ seqNum < 2 ^ 31) ∧ window.stored seqNum = packet := by
  have bottom := holds.wellFormed.bottom_pos
  have top := holds.wellFormed.top_lt
  have range := (holds.inRange_iff seqNum).mp (map.inside seqNum (by rw [kept]; simp))
  refine ⟨by omega, ?_⟩
  rw [holds.entry_eq seqNum range.1 range.2] at kept
  split at kept
  · exact Option.some.inj kept
  · cases kept

theorem Holds.isEmpty_iff :
    map.IsEmpty ↔ ∀ seqNum, window.bottom ≤ seqNum → seqNum ≤ window.top →
      window.isSet seqNum = false := by
  constructor
  · intro nothing seqNum lower upper
    have entry := holds.entry_eq seqNum lower upper
    rw [nothing seqNum] at entry
    by_contra set
    rw [Bool.not_eq_false] at set
    rw [if_pos set] at entry
    cases entry
  · intro clear seqNum
    by_cases range : map.InRange seqNum
    · obtain ⟨lower, upper⟩ := (holds.inRange_iff seqNum).mp range
      rw [holds.entry_eq seqNum lower upper, clear seqNum lower upper]
      rfl
    · exact map.outside range

/-! One operation. -/

theorem Holds.add {packet : Packet} (applies : (Operation.add packet).Applies window) :
    addToBuffer window packet = some (window.put packet) ∧
      Holds (window.put packet) (map.insert packet.number packet) := by
  obtain ⟨lower, upper⟩ := applies
  have bottom := holds.wellFormed.bottom_pos
  have top := holds.wellFormed.top_eq
  refine ⟨addToBuffer_eq holds.wellFormed packet (by omega),
    put_wellFormed holds.wellFormed packet, holds.size_eq, holds.bottom_eq, ?_⟩
  intro seqNum above below
  rw [Window.put_bottom] at above
  rw [Window.put_top] at below
  by_cases same : seqNum = packet.number
  · rw [same, put_isSet_self holds.wellFormed, put_stored_self holds.wellFormed, if_pos rfl]
    exact map.insert_self packet ((holds.inRange_iff _).mpr ⟨lower, upper⟩)
  · rw [put_isSet_of_ne holds.wellFormed packet seqNum (by omega) (by omega) (Ne.symm same),
      put_stored_of_ne holds.wellFormed packet seqNum (by omega) (by omega) (Ne.symm same),
      map.insert_of_ne packet same]
    exact holds.entry_eq seqNum above below

theorem Holds.remove {removed : Int} (applies : (Operation.remove removed).Applies window) :
    removeFromBuffer window removed = some (window.stored removed, window.unset removed) ∧
      Holds (window.unset removed) (map.erase removed) := by
  obtain ⟨lower, upper⟩ := applies
  have bottom := holds.wellFormed.bottom_pos
  have topEq := holds.wellFormed.top_eq
  have top := holds.wellFormed.top_lt
  refine ⟨removeFromBuffer_eq holds.wellFormed removed (by omega) (by omega),
    unset_wellFormed holds.wellFormed removed, holds.size_eq, holds.bottom_eq, ?_⟩
  intro seqNum above below
  have above : window.bottom ≤ seqNum := above
  have below : seqNum ≤ window.top := below
  by_cases same : seqNum = removed
  · rw [same, unset_isSet_self holds.wellFormed, map.erase_self]
    rfl
  · rw [unset_isSet_of_ne holds.wellFormed removed seqNum (by omega) (by omega) (Ne.symm same),
      map.erase_of_ne same]
    exact holds.entry_eq seqNum above below

theorem Holds.slide {newBottom : Int} (applies : (Operation.slide newBottom).Applies window) :
    slide window newBottom = some (window.slid newBottom) ∧
      Holds (window.slid newBottom) (map.advance newBottom) := by
  obtain ⟨forward, small⟩ := applies
  have topEq := holds.wellFormed.top_eq
  have bottomEq := holds.bottom_eq
  have sizeEq := holds.size_eq
  refine ⟨slide_eq holds.wellFormed newBottom forward small,
    slid_wellFormed holds.wellFormed newBottom forward small, ?_, ?_, ?_⟩
  · rw [Window.slid_size]
    exact sizeEq
  · simp only [Window.slid, Sliding.advance]
    omega
  · intro seqNum above below
    have above : newBottom ≤ seqNum := above
    have below : seqNum ≤ newBottom + window.size - 1 := below
    rw [Window.slid_stored]
    by_cases kept : seqNum ≤ window.top
    · rw [slid_isSet_kept holds.wellFormed newBottom seqNum forward above kept,
        map.advance_kept above]
      exact holds.entry_eq seqNum (by omega) kept
    · rw [slid_isSet_entering holds.wellFormed newBottom seqNum (by omega) (by omega),
        map.advance_entering (by omega)]
      rfl

theorem Holds.step (operation : Operation) (applies : operation.Applies window) :
    ∃ next, operation.run window = some next ∧ Holds next (operation.effect map) := by
  cases operation with
  | add packet => exact ⟨_, holds.add applies⟩
  | remove seqNum =>
      obtain ⟨removes, after⟩ := holds.remove applies
      exact ⟨_, by rw [Operation.run, removes, Option.map_some], after⟩
  | slide newBottom => exact ⟨_, holds.slide applies⟩

theorem Holds.follows : Follows window map := by
  constructor
  · exact holds.size_eq
  · exact holds.bottom_eq
  · exact holds.wellFormed.top_eq
  · exact holds.valid_eq
  · intro seqNum packet kept
    obtain ⟨⟨lower, upper⟩, stored⟩ := holds.stored_eq kept
    rw [getFromBuffer_eq holds.wellFormed seqNum lower (by omega), stored]
  · intro seqNum packet kept
    obtain ⟨⟨lower, upper⟩, stored⟩ := holds.stored_eq kept
    rw [removeFromBuffer_eq holds.wellFormed seqNum lower (by omega), Option.map_some, stored]
  · intro newBottom forward small
    obtain ⟨slides, after⟩ := holds.slide ⟨forward, small⟩
    have topEq := holds.wellFormed.top_eq
    have bottomEq := holds.bottom_eq
    have sizeEq := holds.size_eq
    refine ⟨_, slides, ?_⟩
    intro seqNum above below
    rw [after.valid_eq seqNum above below]
    by_cases kept : seqNum ≤ window.top
    · rw [if_pos kept, map.advance_kept above, holds.valid_eq seqNum (by omega) kept]
    · rw [if_neg kept, map.advance_entering (by omega)]
      rfl

theorem Holds.emptyBuffer_empty (nothing : map.IsEmpty) :
    emptyBuffer window = if window.top + 1 < 2 ^ 31 then some true else none := by
  exact emptyBuffer_clear holds.wellFormed (holds.isEmpty_iff.mp nothing)

theorem Holds.emptyBuffer_kept (kept : ¬map.IsEmpty) : emptyBuffer window = some false := by
  simp only [holds.isEmpty_iff, not_forall, Bool.not_eq_false] at kept
  obtain ⟨seqNum, lower, upper, set⟩ := kept
  exact emptyBuffer_set holds.wellFormed lower upper set

theorem Holds.actsAs_iff : ActsAs window map ↔ window.top + 1 < 2 ^ 31 ∨ ¬map.IsEmpty := by
  constructor
  · rintro ⟨_, nothing, evaluates, _⟩
    by_contra overflows
    simp only [not_or, not_not] at overflows
    rw [holds.emptyBuffer_empty overflows.2, if_neg overflows.1] at evaluates
    cases evaluates
  · intro room
    refine ⟨holds.follows, ?_⟩
    by_cases nothing : map.IsEmpty
    · refine ⟨true, ?_, by simpa using nothing⟩
      rw [holds.emptyBuffer_empty nothing, if_pos (room.resolve_right (not_not.mpr nothing))]
    · exact ⟨false, holds.emptyBuffer_kept nothing, by simpa using nothing⟩

end

theorem reach_holds (positive : 1 ≤ size) (small : size < 2 ^ 31) {mapped : Mapped size}
    (reach : Reach (· = Mapped.start size) Mapped.step
      (fun before operation _ => operation.Applies before.window) mapped) :
    Holds mapped.window mapped.map := by
  apply reach.invariant
  · rintro _ rfl
    exact initWindow_holds positive small
  · intro before operation after holds taken applies
    obtain ⟨next, runs, kept⟩ := holds.step operation applies
    rw [Mapped.step, runs, Option.map_some, Option.some.injEq] at taken
    exact taken ▸ kept

/-- After every sequence of operations the window follows the map, and every operation on its
numbers is defined. It also says whether the map is empty, but for an empty map that reaches up to
the largest `int`. -/
theorem window_actsAs_iff (positive : 1 ≤ size) (small : size < 2 ^ 31) (mapped : Mapped size)
    (reach : Reach (· = Mapped.start size) Mapped.step
      (fun before operation _ => operation.Applies before.window) mapped) :
    Follows mapped.window mapped.map ∧
    (ActsAs mapped.window mapped.map ↔ mapped.window.top + 1 < 2 ^ 31 ∨ ¬mapped.map.IsEmpty) ∧
    ∀ operation : Operation, operation.Applies mapped.window →
      ∃ next, Mapped.step operation mapped = some next := by
  have holds := reach_holds positive small reach
  refine ⟨holds.follows, holds.actsAs_iff, ?_⟩
  intro operation applies
  obtain ⟨next, runs, _⟩ := holds.step operation applies
  exact ⟨_, by rw [Mapped.step, runs, Option.map_some]⟩

def Packet.ofNumber (seqNum : UInt32) : Packet := { Packet.zero with seqNum }

theorem window_actsAs_lap : ∃ mapped : Mapped 2,
    Transition.run Mapped.step [.add (.ofNumber 1), .add (.ofNumber 2), .slide 2,
      .add (.ofNumber 3), .remove 2] (Mapped.start 2) = some mapped ∧
    [1, 2, 3].map (fun seqNum => (mapped.map.entry seqNum).map Packet.seqNum) =
      [none, none, some 3] ∧ ActsAs mapped.window mapped.map := by
  have runs : (Transition.run Mapped.step [.add (.ofNumber 1), .add (.ofNumber 2), .slide 2,
      .add (.ofNumber 3), .remove 2] (Mapped.start 2)).map (fun mapped =>
        ([1, 2, 3].map fun seqNum => (mapped.map.entry seqNum).map Packet.seqNum,
          mapped.window.top)) = some ([none, none, some 3], 3) := by
    decide +kernel
  obtain ⟨mapped, executed, values⟩ := Option.map_eq_some_iff.mp runs
  obtain ⟨entries, top⟩ := Prod.mk.inj values
  refine ⟨mapped, executed, entries, (window_actsAs_iff (by decide) (by decide) mapped ?_).2.1.mpr
    (.inl (by rw [top]; decide))⟩
  exact .run _ (.start rfl) executed (by decide +kernel)

/-- One slide of a window of one number up to the largest `int`. -/
theorem window_overflows : ∃ mapped : Mapped 1,
    Reach (· = Mapped.start 1) Mapped.step
      (fun before operation _ => operation.Applies before.window) mapped ∧
    mapped.window.bottom = 2 ^ 31 - 1 ∧ mapped.map.IsEmpty ∧
    emptyBuffer mapped.window = none ∧ ¬ActsAs mapped.window mapped.map := by
  have first := @initWindow_holds 1 (by decide) (by decide)
  have applies : (Operation.slide (2 ^ 31 - 1)).Applies (initWindow 1) := by decide
  obtain ⟨slides, holds⟩ := first.slide applies
  have taken : Mapped.step (.slide (2 ^ 31 - 1)) (Mapped.start 1) = some
      ⟨(initWindow 1).slid (2 ^ 31 - 1), (Sliding.empty 1).advance (2 ^ 31 - 1)⟩ := by
    rw [Mapped.step, Operation.run, Mapped.start, slides, Option.map_some]
    rfl
  have nothing : ((Sliding.empty 1 : Sliding Packet 1).advance (2 ^ 31 - 1)).IsEmpty := by
    intro seqNum
    simp [Sliding.advance, Sliding.empty]
  have full : ¬((initWindow 1).slid (2 ^ 31 - 1)).top + 1 < 2 ^ 31 := by decide
  refine ⟨_, .step _ (.start rfl) taken applies, rfl, nothing, ?_, ?_⟩
  · exact (holds.emptyBuffer_empty nothing).trans (if_neg full)
  · rw [holds.actsAs_iff, not_or, not_not]
    exact ⟨full, nothing⟩

end RemoteCopy
