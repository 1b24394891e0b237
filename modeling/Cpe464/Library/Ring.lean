import Mathlib.Data.Nat.ModEq

/-!
Rings of cells addressed by number modulo their size. Numbers less than a full lap
apart have different cells, so a ring is a map on every interval of that length.
-/

namespace Ring

variable {Cell : Type*}

def slot (size number : Int) : Nat := (number % size).toNat

def read (size : Int) (cells : List Cell) (blank : Cell) (number : Int) : Cell :=
  cells.getD (slot size number) blank

def write (size : Int) (cells : List Cell) (number : Int) (cell : Cell) : List Cell :=
  cells.set (slot size number) cell

theorem slot_lt (size number : Int) (positive : 1 ≤ size) : slot size number < size.toNat := by
  have lower := Int.emod_nonneg number (by omega : size ≠ 0)
  have upper := Int.emod_lt_of_pos number (by omega : 0 < size)
  unfold slot
  omega

theorem slot_eq_iff (size left right : Int) (positive : 1 ≤ size) :
    slot size left = slot size right ↔ left % size = right % size := by
  have leftLower := Int.emod_nonneg left (by omega : size ≠ 0)
  have rightLower := Int.emod_nonneg right (by omega : size ≠ 0)
  unfold slot
  omega

theorem slot_add_size (size number : Int) : slot size (number + size) = slot size number := by
  simp [slot]

theorem slot_sub_size (size number : Int) : slot size (number - size) = slot size number := by
  simp [slot]

/-- Within one lap a cell belongs to one number. -/
theorem slot_inj (size left right : Int) (positive : 1 ≤ size)
    (below : left < right + size) (above : right < left + size)
    (same : slot size left = slot size right) : left = right := by
  have congruent := (slot_eq_iff size left right positive).mp same
  have divides : size ∣ left - right := Int.dvd_of_emod_eq_zero
    (Int.emod_eq_emod_iff_emod_sub_eq_zero.mp congruent)
  have zero := Int.eq_zero_of_abs_lt_dvd divides (by
    rw [abs_lt]
    omega)
  omega

theorem exists_slot (size base : Int) (index : Nat) (positive : 1 ≤ size)
    (bound : index < size.toNat) :
    ∃ number, base ≤ number ∧ number < base + size ∧ slot size number = index := by
  have lower := Int.emod_nonneg ((index : Int) - base) (by omega : size ≠ 0)
  have upper := Int.emod_lt_of_pos ((index : Int) - base) (by omega : 0 < size)
  refine ⟨base + ((index : Int) - base) % size, by omega, by omega, ?_⟩
  rw [slot, Int.add_emod_emod, show base + ((index : Int) - base) = index by omega,
    Int.emod_eq_of_lt (by omega) (by omega), Int.toNat_natCast]

theorem write_length (size : Int) (cells : List Cell) (number : Int) (cell : Cell) :
    (write size cells number cell).length = cells.length := by
  simp [write]

theorem read_write (size : Int) (cells : List Cell) (blank cell : Cell) (written number : Int)
    (positive : 1 ≤ size) (length : cells.length = size.toNat) :
    read size (write size cells written cell) blank number =
      if slot size written = slot size number then cell else read size cells blank number := by
  have bound := slot_lt size number positive
  simp only [read, write, List.getD_eq_getElem?_getD, List.getElem?_set]
  split
  · rename_i same
    rw [same, if_pos (by omega)]
    rfl
  · rfl

theorem read_write_self (size : Int) (cells : List Cell) (blank cell : Cell) (number : Int)
    (positive : 1 ≤ size) (length : cells.length = size.toNat) :
    read size (write size cells number cell) blank number = cell := by
  rw [read_write size cells blank cell number number positive length, if_pos rfl]

theorem read_write_of_ne (size : Int) (cells : List Cell) (blank cell : Cell)
    (written number : Int) (positive : 1 ≤ size) (length : cells.length = size.toNat)
    (below : written < number + size) (above : number < written + size)
    (different : written ≠ number) :
    read size (write size cells written cell) blank number = read size cells blank number := by
  rw [read_write size cells blank cell written number positive length, if_neg]
  intro same
  exact different (slot_inj size written number positive below above same)

theorem getElem?_slot (size : Int) (cells : List Cell) (blank : Cell) (number : Int)
    (positive : 1 ≤ size) (length : cells.length = size.toNat) :
    cells[slot size number]? = some (read size cells blank number) := by
  have bound := slot_lt size number positive
  simp only [read, List.getD_eq_getElem?_getD]
  rw [List.getElem?_eq_getElem (by omega)]
  rfl

end Ring
