import Cpe464.Library.Ring
import Cpe464.RemoteCopy.WindowCore

/-!
What the window operations do on a well-formed window. No operation faults but `empty_buffer` in
front of the largest number, each one keeps the window well formed, and the cells seen by other
numbers are unchanged.
-/

namespace RemoteCopy

theorem asInt32_eq (value : Int) (lower : -2 ^ 31 ≤ value) (upper : value < 2 ^ 31) :
    asInt32 value = value := by
  unfold asInt32
  omega

theorem asUInt32_eq (value : Int) (lower : 0 ≤ value) (upper : value < 2 ^ 32) :
    asUInt32 value = value := by
  unfold asUInt32
  omega

theorem slide_bottom (window next : Window) (newBottom : Int)
    (slides : slide window newBottom = some next) : next.bottom = newBottom := by
  simp only [slide, Option.bind_eq_bind, Option.bind_eq_some_iff, Option.some.injEq] at slides
  obtain ⟨cleared, _, rfl⟩ := slides
  rfl

/-- A window between two operations. The arrays have one cell for each number of the
window, and the numbers of the window are positive 32-bit integers. -/
structure Window.WellFormed (window : Window) : Prop where
  size_pos : 1 ≤ window.size
  bottom_pos : 1 ≤ window.bottom
  top_eq : window.top = window.bottom + window.size - 1
  top_lt : window.top < 2 ^ 31
  buffer_length : window.buffer.length = window.size.toNat
  valid_length : window.valid.length = window.size.toNat

namespace Window

def stored (window : Window) (seqNum : Int) : Packet :=
  Ring.read window.size window.buffer Packet.zero (seqNum - 1)

def isSet (window : Window) (seqNum : Int) : Bool :=
  Ring.read window.size window.valid false (seqNum - 1)

def withMiddle (window : Window) (middle : Int) : Window := { window with middle }

def put (window : Window) (packet : Packet) : Window :=
  { window with
    buffer := Ring.write window.size window.buffer (packet.number - 1) packet
    valid := Ring.write window.size window.valid (packet.number - 1) true }

def unset (window : Window) (seqNum : Int) : Window :=
  { window with valid := Ring.write window.size window.valid (seqNum - 1) false }

def unsetFrom (window : Window) : Nat → Int → Window
  | 0, _ => window
  | count + 1, first => unsetFrom (window.unset first) count (first + 1)

def slid (window : Window) (newBottom : Int) : Window :=
  { unsetFrom window (newBottom - window.bottom).toNat window.bottom with
    bottom := newBottom
    middle := max window.middle newBottom
    top := newBottom + window.size - 1 }

theorem unsetFrom_eq (window : Window) (count : Nat) (first : Int) :
    unsetFrom window count first =
      { window with valid := (unsetFrom window count first).valid } := by
  induction count generalizing window first with
  | zero => rfl
  | succ count ih =>
      unfold unsetFrom
      rw [ih]
      rfl

@[simp] theorem put_bottom (window : Window) (packet : Packet) :
    (window.put packet).bottom = window.bottom := rfl

@[simp] theorem put_top (window : Window) (packet : Packet) :
    (window.put packet).top = window.top := rfl

@[simp] theorem put_size (window : Window) (packet : Packet) :
    (window.put packet).size = window.size := rfl

@[simp] theorem unsetFrom_bottom (window : Window) (count : Nat) (first : Int) :
    (window.unsetFrom count first).bottom = window.bottom := by
  rw [unsetFrom_eq]

@[simp] theorem unsetFrom_top (window : Window) (count : Nat) (first : Int) :
    (window.unsetFrom count first).top = window.top := by
  rw [unsetFrom_eq]

@[simp] theorem unsetFrom_size (window : Window) (count : Nat) (first : Int) :
    (window.unsetFrom count first).size = window.size := by
  rw [unsetFrom_eq]

@[simp] theorem unsetFrom_buffer (window : Window) (count : Nat) (first : Int) :
    (window.unsetFrom count first).buffer = window.buffer := by
  rw [unsetFrom_eq]

@[simp] theorem unsetFrom_middle (window : Window) (count : Nat) (first : Int) :
    (window.unsetFrom count first).middle = window.middle := by
  rw [unsetFrom_eq]

@[simp] theorem slid_size (window : Window) (newBottom : Int) :
    (window.slid newBottom).size = window.size := by
  simp [slid]

theorem slid_stored (window : Window) (newBottom seqNum : Int) :
    (window.slid newBottom).stored seqNum = window.stored seqNum := by
  rw [slid, unsetFrom_eq]
  rfl

theorem stored_add_size (window : Window) (seqNum : Int) :
    window.stored (seqNum + window.size) = window.stored seqNum := by
  rw [stored, stored, Ring.read, Ring.read, add_sub_right_comm, Ring.slot_add_size]

theorem isSet_add_size (window : Window) (seqNum : Int) :
    window.isSet (seqNum + window.size) = window.isSet seqNum := by
  rw [isSet, isSet, Ring.read, Ring.read, add_sub_right_comm, Ring.slot_add_size]

end Window

theorem withMiddle_wellFormed {window : Window} (wellFormed : window.WellFormed) (middle : Int) :
    (window.withMiddle middle).WellFormed := by
  constructor
  · exact wellFormed.size_pos
  · exact wellFormed.bottom_pos
  · exact wellFormed.top_eq
  · exact wellFormed.top_lt
  · exact wellFormed.buffer_length
  · exact wellFormed.valid_length

theorem initWindow_wellFormed (size : Int) (positive : 1 ≤ size) (small : size < 2 ^ 31) :
    (initWindow size).WellFormed := by
  constructor
  · exact positive
  · exact Int.le_refl 1
  · simp only [initWindow]
    omega
  · exact small
  · exact List.length_replicate
  · exact List.length_replicate

theorem initWindow_isSet (size : Int) (seqNum : Int) : (initWindow size).isSet seqNum = false := by
  simp only [Window.isSet, Ring.read, initWindow, List.getD_eq_getElem?_getD,
    List.getElem?_replicate]
  split <;> rfl

section

variable {window : Window} (wellFormed : window.WellFormed)

include wellFormed

theorem slotIndex_eq (seqNum : Int) (lower : 1 ≤ seqNum) (upper : seqNum ≤ 2 ^ 31) :
    slotIndex window seqNum = some (Ring.slot window.size (seqNum - 1)) := by
  have positive := wellFormed.size_pos
  have length := wellFormed.buffer_length
  have bound := Ring.slot_lt window.size (seqNum - 1) positive
  have index : (asInt32 (seqNum - 1)).tmod window.size = (seqNum - 1) % window.size := by
    rw [asInt32_eq (seqNum - 1) (by omega) (by omega), Int.tmod_eq_emod_of_nonneg (by omega)]
  have lowest := Int.emod_nonneg (seqNum - 1) (by omega : window.size ≠ 0)
  unfold Ring.slot at bound
  simp only [slotIndex, index]
  rw [if_neg (by omega), Ring.slot]

theorem packetIndex_eq (packet : Packet) (lower : 1 ≤ packet.number) :
    packetIndex window packet = some (Ring.slot window.size (packet.number - 1)) := by
  have positive := wellFormed.size_pos
  have length := wellFormed.buffer_length
  have bound := Ring.slot_lt window.size (packet.number - 1) positive
  have width : packet.number < 2 ^ 32 := by
    have below := packet.seqNum.toNat_lt
    unfold Packet.number
    omega
  have top := wellFormed.top_eq
  have topBound := wellFormed.top_lt
  have bottom := wellFormed.bottom_pos
  have index : asUInt32 (packet.number - 1) % asUInt32 window.size =
      (packet.number - 1) % window.size := by
    rw [asUInt32_eq (packet.number - 1) (by omega) (by omega),
      asUInt32_eq window.size (by omega) (by omega)]
  have lowest := Int.emod_nonneg (packet.number - 1) (by omega : window.size ≠ 0)
  unfold Ring.slot at bound
  simp only [packetIndex, index]
  rw [if_neg (by omega), Ring.slot]

theorem addToBuffer_eq (packet : Packet) (lower : 1 ≤ packet.number) :
    addToBuffer window packet = some (window.put packet) := by
  simp only [addToBuffer, packetIndex_eq wellFormed packet lower, Option.bind_eq_bind,
    Option.bind_some]
  rfl

theorem getFromBuffer_eq (seqNum : Int) (lower : 1 ≤ seqNum) (upper : seqNum ≤ 2 ^ 31) :
    getFromBuffer window seqNum = some (window.stored seqNum) := by
  simp only [getFromBuffer, slotIndex_eq wellFormed seqNum lower upper, Option.bind_eq_bind,
    Option.bind_some]
  exact Ring.getElem?_slot _ _ Packet.zero _ wellFormed.size_pos wellFormed.buffer_length

theorem removeFromBuffer_eq (seqNum : Int) (lower : 1 ≤ seqNum) (upper : seqNum ≤ 2 ^ 31) :
    removeFromBuffer window seqNum = some (window.stored seqNum, window.unset seqNum) := by
  simp only [removeFromBuffer, slotIndex_eq wellFormed seqNum lower upper, Option.bind_eq_bind,
    Option.bind_some]
  rw [Ring.getElem?_slot _ _ Packet.zero _ wellFormed.size_pos wellFormed.buffer_length]
  rfl

theorem isValid_eq (seqNum : Int) (lower : 1 ≤ seqNum) (upper : seqNum ≤ 2 ^ 31) :
    isValid window seqNum = some (window.isSet seqNum) := by
  simp only [isValid, slotIndex_eq wellFormed seqNum lower upper, Option.bind_eq_bind,
    Option.bind_some]
  exact Ring.getElem?_slot _ _ false _ wellFormed.size_pos wellFormed.valid_length

/-! Cells after an operation. -/

theorem put_wellFormed (packet : Packet) : (window.put packet).WellFormed := by
  constructor
  · exact wellFormed.size_pos
  · exact wellFormed.bottom_pos
  · exact wellFormed.top_eq
  · exact wellFormed.top_lt
  · exact (Ring.write_length _ _ _ _).trans wellFormed.buffer_length
  · exact (Ring.write_length _ _ _ _).trans wellFormed.valid_length

theorem put_stored_self (packet : Packet) : (window.put packet).stored packet.number = packet := by
  exact Ring.read_write_self _ _ _ _ _ wellFormed.size_pos wellFormed.buffer_length

theorem put_isSet_self (packet : Packet) : (window.put packet).isSet packet.number = true := by
  exact Ring.read_write_self _ _ _ _ _ wellFormed.size_pos wellFormed.valid_length

theorem put_stored_of_ne (packet : Packet) (seqNum : Int)
    (below : packet.number < seqNum + window.size) (above : seqNum < packet.number + window.size)
    (different : packet.number ≠ seqNum) :
    (window.put packet).stored seqNum = window.stored seqNum := by
  exact Ring.read_write_of_ne window.size _ _ _ _ _ wellFormed.size_pos wellFormed.buffer_length
    (by omega) (by omega) (by omega)

theorem put_isSet_of_ne (packet : Packet) (seqNum : Int)
    (below : packet.number < seqNum + window.size) (above : seqNum < packet.number + window.size)
    (different : packet.number ≠ seqNum) :
    (window.put packet).isSet seqNum = window.isSet seqNum := by
  exact Ring.read_write_of_ne window.size _ _ _ _ _ wellFormed.size_pos wellFormed.valid_length
    (by omega) (by omega) (by omega)

theorem unset_wellFormed (seqNum : Int) : (window.unset seqNum).WellFormed := by
  constructor
  · exact wellFormed.size_pos
  · exact wellFormed.bottom_pos
  · exact wellFormed.top_eq
  · exact wellFormed.top_lt
  · exact wellFormed.buffer_length
  · exact (Ring.write_length _ _ _ _).trans wellFormed.valid_length

theorem unset_isSet_self (seqNum : Int) : (window.unset seqNum).isSet seqNum = false := by
  exact Ring.read_write_self _ _ _ _ _ wellFormed.size_pos wellFormed.valid_length

theorem unset_isSet_of_ne (removed seqNum : Int) (below : removed < seqNum + window.size)
    (above : seqNum < removed + window.size) (different : removed ≠ seqNum) :
    (window.unset removed).isSet seqNum = window.isSet seqNum := by
  exact Ring.read_write_of_ne window.size _ _ _ _ _ wellFormed.size_pos wellFormed.valid_length
    (by omega) (by omega) (by omega)

theorem unsetFrom_wellFormed (count : Nat) (first : Int) :
    (window.unsetFrom count first).WellFormed := by
  induction count generalizing window first with
  | zero => exact wellFormed
  | succ count ih => exact ih (unset_wellFormed wellFormed first) (first + 1)

theorem clearValid_eq (count : Nat) (first : Int) (lower : 1 ≤ first)
    (upper : first + count ≤ 2 ^ 31 + 1) :
    clearValid window count first = some (window.unsetFrom count first) := by
  induction count generalizing window first with
  | zero => rfl
  | succ count ih =>
      rw [Int.natCast_succ] at upper
      simp only [clearValid, slotIndex_eq wellFormed first lower (by omega), Option.bind_eq_bind,
        Option.bind_some]
      exact ih (unset_wellFormed wellFormed first) (first + 1) (by omega) (by omega)

theorem unsetFrom_isSet_of_unset (count : Nat) (first seqNum : Int)
    (clear : window.isSet seqNum = false) : (window.unsetFrom count first).isSet seqNum = false := by
  induction count generalizing window first with
  | zero => exact clear
  | succ count ih =>
      apply ih (unset_wellFormed wellFormed first) (first + 1)
      rw [Window.isSet, Window.unset, Ring.read_write _ _ _ _ _ _ wellFormed.size_pos
        wellFormed.valid_length]
      split
      · rfl
      · exact clear

theorem unsetFrom_isSet_of_slot (count : Nat) (first seqNum cleared : Int)
    (lower : first ≤ cleared) (upper : cleared < first + count)
    (same : Ring.slot window.size (cleared - 1) = Ring.slot window.size (seqNum - 1)) :
    (window.unsetFrom count first).isSet seqNum = false := by
  induction count generalizing window first with
  | zero => omega
  | succ count ih =>
      rw [Int.natCast_succ] at upper
      by_cases now : cleared = first
      · apply unsetFrom_isSet_of_unset (unset_wellFormed wellFormed first)
        rw [Window.isSet, Window.unset, Ring.read_write _ _ _ _ _ _ wellFormed.size_pos
          wellFormed.valid_length, ← now, if_pos same]
      · exact ih (unset_wellFormed wellFormed first) (first + 1) (by omega) (by omega) same

theorem unsetFrom_isSet_of_ne (count : Nat) (first seqNum : Int)
    (below : first + count ≤ seqNum) (above : seqNum < first + window.size) :
    (window.unsetFrom count first).isSet seqNum = window.isSet seqNum := by
  induction count generalizing window first with
  | zero => rfl
  | succ count ih =>
      rw [Int.natCast_succ] at below
      have positive := wellFormed.size_pos
      calc (window.unsetFrom (count + 1) first).isSet seqNum
          = (window.unset first).isSet seqNum :=
            ih (unset_wellFormed wellFormed first) (first + 1) (by omega) (by
              simp only [Window.unset]
              omega)
        _ = window.isSet seqNum :=
            unset_isSet_of_ne wellFormed first seqNum (by omega) above (by omega)

theorem slide_eq (newBottom : Int) (forward : window.bottom ≤ newBottom)
    (small : newBottom + window.size ≤ 2 ^ 31) :
    slide window newBottom = some (window.slid newBottom) := by
  have positive := wellFormed.size_pos
  have bottom := wellFormed.bottom_pos
  have cleared := clearValid_eq wellFormed (newBottom - window.bottom).toNat window.bottom bottom
    (by omega)
  have top := asInt32_eq (newBottom + window.size - 1) (by omega) (by omega)
  have unchanged := Window.unsetFrom_eq window (newBottom - window.bottom).toNat window.bottom
  simp only [slide, cleared, Option.bind_eq_bind, Option.bind_some, Option.some.injEq]
  rw [Window.slid, unchanged]
  simp only [top, Window.mk.injEq, true_and, and_true]
  split <;> omega

theorem slide_isSome (newBottom : Int) (forward : window.bottom ≤ newBottom)
    (small : newBottom ≤ 2 ^ 31) : (slide window newBottom).isSome = true := by
  have bottom := wellFormed.bottom_pos
  have cleared := clearValid_eq wellFormed (newBottom - window.bottom).toNat window.bottom bottom
    (by omega)
  simp only [slide, cleared, Option.bind_eq_bind, Option.bind_some, Option.isSome_some]

theorem slid_wellFormed (newBottom : Int) (forward : window.bottom ≤ newBottom)
    (small : newBottom + window.size ≤ 2 ^ 31) : (window.slid newBottom).WellFormed := by
  have cleared := unsetFrom_wellFormed wellFormed (newBottom - window.bottom).toNat window.bottom
  have bottom := wellFormed.bottom_pos
  have positive := wellFormed.size_pos
  constructor
  · exact cleared.size_pos
  · simp only [Window.slid]
    omega
  · simp only [Window.slid, Window.unsetFrom_size]
  · simp only [Window.slid]
    omega
  · exact cleared.buffer_length
  · exact cleared.valid_length

theorem slid_isSet_kept (newBottom seqNum : Int) (forward : window.bottom ≤ newBottom)
    (lower : newBottom ≤ seqNum) (upper : seqNum ≤ window.top) :
    (window.slid newBottom).isSet seqNum = window.isSet seqNum := by
  have top := wellFormed.top_eq
  exact unsetFrom_isSet_of_ne wellFormed (newBottom - window.bottom).toNat window.bottom seqNum
    (by omega) (by omega)

theorem slid_isSet_entering (newBottom seqNum : Int) (lower : window.top < seqNum)
    (upper : seqNum < newBottom + window.size) :
    (window.slid newBottom).isSet seqNum = false := by
  have top := wellFormed.top_eq
  apply unsetFrom_isSet_of_slot wellFormed (newBottom - window.bottom).toNat window.bottom seqNum
    (seqNum - window.size) (by omega) (by omega)
  rw [← Ring.slot_sub_size window.size (seqNum - 1)]
  congr 1
  omega

theorem emptyFrom_succ (count : Nat) (first : Int) (lower : 1 ≤ first) (upper : first < 2 ^ 31) :
    emptyFrom window (count + 1) first =
      if window.isSet first = true then some false
      else if first + 1 < 2 ^ 31 then emptyFrom window count (first + 1) else none := by
  simp only [emptyFrom, isValid_eq wellFormed first lower (by omega), Option.bind_eq_bind,
    Option.bind_some]

theorem emptyFrom_set (count : Nat) (first seqNum : Int) (lower : 1 ≤ first)
    (upper : first + count ≤ 2 ^ 31) (above : first ≤ seqNum) (below : seqNum < first + count)
    (set : window.isSet seqNum = true) : emptyFrom window count first = some false := by
  induction count generalizing first with
  | zero => omega
  | succ count ih =>
      rw [Int.natCast_succ] at upper below
      rw [emptyFrom_succ wellFormed count first lower (by omega)]
      by_cases here : window.isSet first = true
      · exact if_pos here
      · have different : seqNum ≠ first := by
          rintro rfl
          exact here set
        rw [if_neg here, if_pos (by omega)]
        exact ih (first + 1) (by omega) (by omega) (by omega) (by omega)

theorem emptyFrom_clear (count : Nat) (first : Int) (lower : 1 ≤ first)
    (upper : first + count ≤ 2 ^ 31)
    (clear : ∀ seqNum, first ≤ seqNum → seqNum < first + count → window.isSet seqNum = false) :
    emptyFrom window count first =
      if count = 0 ∨ first + count < 2 ^ 31 then some true else none := by
  induction count generalizing first with
  | zero => rw [if_pos (.inl rfl), emptyFrom]
  | succ count ih =>
      rw [Int.natCast_succ] at upper clear ⊢
      have rest := ih (first + 1) (by omega) (by omega) (fun seqNum above below =>
        clear seqNum (by omega) (by omega))
      rw [emptyFrom_succ wellFormed count first lower (by omega),
        clear first (by omega) (by omega), if_neg Bool.false_ne_true, rest]
      by_cases room : first + 1 < 2 ^ 31
      · rw [if_pos room]
        exact if_congr (by omega) rfl rfl
      · rw [if_neg room, if_neg (by omega)]

theorem emptyBuffer_set {seqNum : Int} (lower : window.bottom ≤ seqNum)
    (upper : seqNum ≤ window.top) (set : window.isSet seqNum = true) :
    emptyBuffer window = some false := by
  have top := wellFormed.top_eq
  have topBound := wellFormed.top_lt
  have positive := wellFormed.size_pos
  exact emptyFrom_set wellFormed _ window.bottom seqNum wellFormed.bottom_pos (by omega) lower
    (by omega) set

theorem emptyBuffer_clear (clear : ∀ seqNum, window.bottom ≤ seqNum → seqNum ≤ window.top →
    window.isSet seqNum = false) :
    emptyBuffer window = if window.top + 1 < 2 ^ 31 then some true else none := by
  have top := wellFormed.top_eq
  have topBound := wellFormed.top_lt
  have positive := wellFormed.size_pos
  refine (emptyFrom_clear wellFormed _ window.bottom wellFormed.bottom_pos (by omega)
    (fun seqNum lower upper => clear seqNum lower (by omega))).trans ?_
  exact if_congr (by omega) rfl rfl

theorem emptyBuffer_quiet (empty : emptyBuffer window = some true) (seqNum : Int)
    (lower : window.bottom ≤ seqNum) (upper : seqNum ≤ window.top) :
    window.isSet seqNum = false := by
  by_contra set
  rw [emptyBuffer_set wellFormed lower upper (by simpa using set)] at empty
  cases empty

theorem emptyBuffer_isSome (room : window.top + 1 < 2 ^ 31) : (emptyBuffer window).isSome = true := by
  by_cases set : ∃ seqNum, window.bottom ≤ seqNum ∧ seqNum ≤ window.top ∧ window.isSet seqNum = true
  · obtain ⟨seqNum, lower, upper, set⟩ := set
    rw [emptyBuffer_set wellFormed lower upper set]
    rfl
  · simp only [not_exists, not_and, Bool.not_eq_true] at set
    rw [emptyBuffer_clear wellFormed set, if_pos room]
    rfl

end

end RemoteCopy
