import Mathlib.Tactic.ByContra

/-!
Maps on a range of numbers that slides upwards. The range has a fixed length, and nothing is
kept under a number outside of it.
-/

namespace SlidingMap

structure Sliding (Cell : Type) (size : Int) where
  bottom : Int
  entry : Int → Option Cell
  inside : ∀ number, entry number ≠ none → bottom ≤ number ∧ number < bottom + size

variable {Cell : Type} {size : Int}

def Sliding.empty (bottom : Int) : Sliding Cell size where
  bottom
  entry _ := none
  inside _ kept := absurd rfl kept

def Sliding.InRange (map : Sliding Cell size) (number : Int) : Prop :=
  map.bottom ≤ number ∧ number < map.bottom + size

instance (map : Sliding Cell size) (number : Int) : Decidable (map.InRange number) :=
  inferInstanceAs (Decidable (_ ∧ _))

def Sliding.insert (map : Sliding Cell size) (number : Int) (cell : Cell) : Sliding Cell size where
  bottom := map.bottom
  entry other := if other = number ∧ map.InRange number then some cell else map.entry other
  inside other kept := by
    split at kept
    · rename_i same
      exact same.1 ▸ same.2
    · exact map.inside other kept

def Sliding.erase (map : Sliding Cell size) (number : Int) : Sliding Cell size where
  bottom := map.bottom
  entry other := if other = number then none else map.entry other
  inside other kept := by
    split at kept
    · exact absurd rfl kept
    · exact map.inside other kept

def Sliding.advance (map : Sliding Cell size) (bottom : Int) : Sliding Cell size where
  bottom := max map.bottom bottom
  entry number := if bottom ≤ number then map.entry number else none
  inside number kept := by
    split at kept
    · have kept := map.inside number kept
      omega
    · exact absurd rfl kept

def Sliding.IsEmpty (map : Sliding Cell size) : Prop := ∀ number, map.entry number = none

section

variable (map : Sliding Cell size) {number other bottom : Int}

theorem Sliding.outside (out : ¬map.InRange number) : map.entry number = none := by
  by_contra kept
  exact out (map.inside number kept)

theorem Sliding.insert_self (cell : Cell) (range : map.InRange number) :
    (map.insert number cell).entry number = some cell := by
  exact if_pos ⟨rfl, range⟩

theorem Sliding.insert_of_ne (cell : Cell) (different : other ≠ number) :
    (map.insert number cell).entry other = map.entry other := by
  exact if_neg fun same => different same.1

theorem Sliding.erase_self : (map.erase number).entry number = none := by
  exact if_pos rfl

theorem Sliding.erase_of_ne (different : other ≠ number) :
    (map.erase number).entry other = map.entry other := by
  exact if_neg different

theorem Sliding.advance_kept (above : bottom ≤ number) :
    (map.advance bottom).entry number = map.entry number := by
  exact if_pos above

theorem Sliding.advance_entering (entering : map.bottom + size ≤ number) :
    (map.advance bottom).entry number = none := by
  have nothing : map.entry number = none := map.outside (by
    unfold InRange
    omega)
  simp only [advance, nothing, ite_self]

end

end SlidingMap
