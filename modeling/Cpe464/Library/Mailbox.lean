import Mathlib.Data.List.Basic

/-!
First-in-first-out delivery. A party sends to several addresses at once, and each
address gets its own payloads in the order they were sent.
-/

namespace Mailbox

variable {Address Payload : Type*} [DecidableEq Address]

def addressed (sends : List (Address × Payload)) (address : Address) : List Payload :=
  (sends.filter fun send => send.1 = address).map Prod.snd

theorem mem_addressed {sends : List (Address × Payload)} {address : Address} {payload : Payload} :
    payload ∈ addressed sends address ↔ (address, payload) ∈ sends := by
  simp only [addressed, List.mem_map, List.mem_filter, decide_eq_true_eq]
  constructor
  · rintro ⟨⟨target, payload⟩, ⟨member, rfl⟩, rfl⟩
    exact member
  · intro member
    exact ⟨_, ⟨member, rfl⟩, rfl⟩

theorem addressed_eq_nil {sends : List (Address × Payload)} {address : Address}
    (absent : ∀ send ∈ sends, send.1 ≠ address) : addressed sends address = [] := by
  rw [List.eq_nil_iff_forall_not_mem]
  intro payload member
  exact absent _ (mem_addressed.mp member) rfl

/-- When no address is used twice, each one gets its own payload and nothing else. -/
theorem addressed_eq_singleton {sends : List (Address × Payload)} {address : Address}
    {payload : Payload} (nodup : (sends.map Prod.fst).Nodup) (member : (address, payload) ∈ sends) :
    addressed sends address = [payload] := by
  induction sends with
  | nil => cases member
  | cons first rest ih =>
      rw [List.map_cons, List.nodup_cons] at nodup
      obtain ⟨fresh, nodup⟩ := nodup
      rcases List.mem_cons.mp member with rfl | later
      · have others : addressed rest address = [] := by
          apply addressed_eq_nil
          intro send inside same
          exact fresh (List.mem_map.mpr ⟨send, inside, same⟩)
        simp only [addressed] at others ⊢
        rw [List.filter_cons_of_pos (by simp), List.map_cons, others]
      · have different : first.1 ≠ address := by
          rintro rfl
          exact fresh (List.mem_map.mpr ⟨_, later, rfl⟩)
        have remaining := ih nodup later
        simp only [addressed] at remaining ⊢
        rw [List.filter_cons_of_neg (by simpa using different), remaining]

theorem addressed_singleton (address other : Address) (payload : Payload) :
    addressed [(address, payload)] other = if address = other then [payload] else [] := by
  by_cases same : address = other <;> simp [addressed, same]

end Mailbox
