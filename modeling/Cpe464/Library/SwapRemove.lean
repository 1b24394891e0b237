import Mathlib.Data.List.Nodup
import Mathlib.Data.List.Perm.Basic

/-!
Lists used as unordered tables: the last entry moves to the place of a removed one.
-/

namespace SwapRemove

variable {Entry : Type*}

def swapRemove (entries : List Entry) (index : Nat) : List Entry :=
  match entries.getLast? with
  | none => []
  | some last =>
      if index + 1 = entries.length then entries.dropLast else entries.dropLast.set index last

theorem length_swapRemove (entries : List Entry) (index : Nat) :
    (swapRemove entries index).length = entries.length - 1 := by
  unfold swapRemove
  cases found : entries.getLast? with
  | none =>
      rw [List.getLast?_eq_none_iff.mp found]
      rfl
  | some last =>
      simp only
      split <;> simp

theorem getElem?_swapRemove (entries : List Entry) (index position : Nat)
    (inside : index < entries.length) (below : position < entries.length - 1) :
    (swapRemove entries index)[position]? =
      if position = index then entries[entries.length - 1]? else entries[position]? := by
  have found : entries.getLast? = entries[entries.length - 1]? := List.getLast?_eq_getElem?
  have last : entries[entries.length - 1]? = some entries[entries.length - 1] :=
    List.getElem?_eq_getElem (by omega)
  rw [swapRemove, found, last]
  simp only
  split
  · rw [if_neg (by omega), List.getElem?_dropLast, if_pos below]
  · by_cases same : position = index
    · rw [if_pos same, same, List.getElem?_set_self (by rw [List.length_dropLast]; omega)]
    · rw [if_neg same, List.getElem?_set_ne (fun other => same other.symm),
        List.getElem?_dropLast, if_pos below]

theorem getElem?_swapRemove_eq_some {entries : List Entry} {index position : Nat} {entry : Entry}
    (inside : index < entries.length) (found : (swapRemove entries index)[position]? = some entry) :
    position < entries.length - 1 ∧
      (if position = index then entries[entries.length - 1]? else entries[position]?) =
        some entry := by
  obtain ⟨below, _⟩ := List.getElem?_eq_some_iff.mp found
  rw [length_swapRemove] at below
  exact ⟨below, (getElem?_swapRemove entries index position inside below).symm.trans found⟩

theorem swapRemove_perm (entries : List Entry) (index : Nat) (inside : index < entries.length) :
    (swapRemove entries index).Perm (entries.eraseIdx index) := by
  rcases List.eq_nil_or_concat entries with rfl | ⟨front, last, rfl⟩
  · cases inside
  rw [List.concat_eq_append] at *
  rw [List.length_append, List.length_singleton] at inside
  simp only [swapRemove, List.getLast?_append, List.getLast?_singleton,
    Option.some_or, List.length_append, List.length_singleton, List.dropLast_concat]
  split
  · rw [List.eraseIdx_append_of_length_le (by omega), show index - front.length = 0 by omega,
      List.eraseIdx_cons_zero, List.append_nil]
  · rw [List.eraseIdx_append_of_lt_length (by omega), List.set_eq_take_append_cons_drop,
      if_pos (by omega), List.eraseIdx_eq_take_drop_succ]
    exact List.perm_middle.trans (List.perm_append_singleton _ _).symm

theorem mem_swapRemove {entries : List Entry} {index : Nat} (nodup : entries.Nodup)
    (inside : index < entries.length) (entry : Entry) :
    entry ∈ swapRemove entries index ↔ entry ∈ entries ∧ entry ≠ entries[index] := by
  rw [(swapRemove_perm entries index inside).mem_iff, List.mem_eraseIdx_iff_getElem]
  constructor
  · rintro ⟨position, below, other, rfl⟩
    exact ⟨List.getElem_mem _, fun same => other ((List.Nodup.getElem_inj_iff nodup).mp same)⟩
  · rintro ⟨member, other⟩
    obtain ⟨position, below, rfl⟩ := List.mem_iff_getElem.mp member
    refine ⟨position, below, ?_, rfl⟩
    rintro rfl
    exact other rfl

theorem nodup_swapRemove {entries : List Entry} (nodup : entries.Nodup) (index : Nat)
    (inside : index < entries.length) : (swapRemove entries index).Nodup := by
  exact (swapRemove_perm entries index inside).nodup_iff.mpr (nodup.eraseIdx index)

theorem drop_swapRemove (entries : List Entry) (index : Nat) :
    (swapRemove entries index).drop (index + 1) = entries.dropLast.drop (index + 1) := by
  unfold swapRemove
  cases found : entries.getLast? with
  | none =>
      rw [List.getLast?_eq_none_iff.mp found]
      rfl
  | some last =>
      simp only
      split
      · rfl
      · exact List.drop_set_of_lt (Nat.lt_succ_self index)

end SwapRemove
