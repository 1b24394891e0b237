import Mathlib.Data.List.InsertIdx
import Mathlib.Data.List.Basic

/-!
Channels of an unreliable network. What is in flight is received from the front of a list, and a
fault loses it, duplicates it, lets it be overtaken or spoils it in one of the given ways.
-/

namespace Channel

variable {Flight Damage : Type*}

inductive Fault (Damage : Type*)
  | lose (index : Nat)
  | duplicate (index : Nat)
  | overtake (index : Nat)
  | spoil (index : Nat) (damage : Damage)

def Fault.Plain : Fault Damage → Prop
  | lose _ => True
  | duplicate _ => False
  | overtake _ => False
  | spoil _ _ => True

instance : DecidablePred (@Fault.Plain Damage) := fun fault =>
  match fault with
  | .lose _ => instDecidableTrue
  | .duplicate _ => instDecidableFalse
  | .overtake _ => instDecidableFalse
  | .spoil _ _ => instDecidableTrue

def disturb (spoiled : Damage → Flight → Option Flight) (channel : List Flight) :
    Fault Damage → Option (List Flight)
  | .lose index => if index < channel.length then some (channel.eraseIdx index) else none
  | .duplicate index => do
      let flight ← channel[index]?
      some (channel.insertIdx index flight)
  | .overtake index => do
      let flight ← channel[index + 1]?
      some ((channel.eraseIdx (index + 1)).insertIdx index flight)
  | .spoil index damage => do
      let flight ← channel[index]?
      let worse ← spoiled damage flight
      some (channel.set index worse)

section

variable {spoiled : Damage → Flight → Option Flight} {channel after : List Flight}
  {fault : Fault Damage}

theorem disturb_all {holds : Flight → Prop}
    (kept : ∀ damage flight worse, holds flight → spoiled damage flight = some worse → holds worse)
    (before : ∀ flight ∈ channel, holds flight)
    (disturbed : disturb spoiled channel fault = some after) : ∀ flight ∈ after, holds flight := by
  cases fault with
  | lose index =>
      simp only [disturb] at disturbed
      split at disturbed
      · obtain rfl := Option.some.inj disturbed
        exact fun flight member => before flight (List.mem_of_mem_eraseIdx member)
      · cases disturbed
  | duplicate index =>
      simp only [disturb, Option.bind_eq_bind, Option.bind_eq_some_iff, Option.some.injEq]
        at disturbed
      obtain ⟨flight, found, rfl⟩ := disturbed
      intro other member
      rcases List.eq_or_mem_of_mem_insertIdx member with rfl | old
      · exact before other (List.mem_of_getElem? found)
      · exact before other old
  | overtake index =>
      simp only [disturb, Option.bind_eq_bind, Option.bind_eq_some_iff, Option.some.injEq]
        at disturbed
      obtain ⟨flight, found, rfl⟩ := disturbed
      intro other member
      rcases List.eq_or_mem_of_mem_insertIdx member with rfl | old
      · exact before other (List.mem_of_getElem? found)
      · exact before other (List.mem_of_mem_eraseIdx old)
  | spoil index damage =>
      simp only [disturb, Option.bind_eq_bind, Option.bind_eq_some_iff, Option.some.injEq]
        at disturbed
      obtain ⟨flight, found, worse, damaged, rfl⟩ := disturbed
      intro other member
      rcases List.mem_or_eq_of_mem_set member with old | rfl
      · exact before other old
      · exact kept damage flight other (before flight (List.mem_of_getElem? found)) damaged

theorem disturb_nil : disturb spoiled [] fault = none := by
  cases fault <;> simp [disturb]

/-! The flight behind the first ones. -/

theorem disturb_lose (front rest : List Flight) (flight : Flight) :
    disturb spoiled (front ++ flight :: rest) (.lose front.length) = some (front ++ rest) := by
  have inside : front.length < (front ++ flight :: rest).length := by simp
  rw [disturb, if_pos inside, List.eraseIdx_append_of_length_le (Nat.le_refl _), Nat.sub_self,
    List.eraseIdx_cons_zero]

theorem disturb_spoil (front rest : List Flight) {flight worse : Flight} {damage : Damage}
    (spoils : spoiled damage flight = some worse) :
    disturb spoiled (front ++ flight :: rest) (.spoil front.length damage) =
      some (front ++ worse :: rest) := by
  simp [disturb, spoils]

theorem disturb_singleton {flight : Flight} (plain : fault.Plain)
    (disturbed : disturb spoiled [flight] fault = some after) :
    after = [] ∨ ∃ damage worse, spoiled damage flight = some worse ∧ after = [worse] := by
  cases fault with
  | lose index =>
      simp only [disturb] at disturbed
      split at disturbed
      · rename_i inside
        obtain rfl : index = 0 := by simpa using inside
        obtain rfl := Option.some.inj disturbed
        exact .inl rfl
      · cases disturbed
  | duplicate index => exact plain.elim
  | overtake index => exact plain.elim
  | spoil index damage =>
      simp only [disturb, Option.bind_eq_bind, Option.bind_eq_some_iff, Option.some.injEq]
        at disturbed
      obtain ⟨other, found, worse, damaged, rfl⟩ := disturbed
      obtain ⟨rfl, rfl⟩ : index = 0 ∧ other = flight := by
        cases index with
        | zero => exact ⟨rfl, (Option.some.inj found).symm⟩
        | succ index => cases found
      exact .inr ⟨damage, worse, damaged, rfl⟩

theorem disturb_append (front back : List Flight) (plain : fault.Plain)
    (disturbed : disturb spoiled (front ++ back) fault = some after) :
    ∃ other : Fault Damage, other.Plain ∧
      ((∃ rest, disturb spoiled front other = some rest ∧ after = rest ++ back) ∨
        ∃ rest, disturb spoiled back other = some rest ∧ after = front ++ rest) := by
  cases fault with
  | lose index =>
      simp only [disturb] at disturbed
      split at disturbed
      · rename_i inside
        obtain rfl := Option.some.inj disturbed
        by_cases early : index < front.length
        · refine ⟨.lose index, plain, .inl ⟨front.eraseIdx index, if_pos early, ?_⟩⟩
          exact List.eraseIdx_append_of_lt_length early back
        · have late := Nat.not_lt.mp early
          rw [List.length_append] at inside
          refine ⟨.lose (index - front.length), plain,
            .inr ⟨back.eraseIdx (index - front.length), if_pos (by omega), ?_⟩⟩
          exact List.eraseIdx_append_of_length_le late back
      · cases disturbed
  | duplicate index => exact plain.elim
  | overtake index => exact plain.elim
  | spoil index damage =>
      simp only [disturb, Option.bind_eq_bind, Option.bind_eq_some_iff, Option.some.injEq]
        at disturbed
      obtain ⟨flight, found, worse, damaged, rfl⟩ := disturbed
      by_cases early : index < front.length
      · rw [List.getElem?_append_left early] at found
        refine ⟨.spoil index damage, plain, .inl ⟨front.set index worse, ?_, ?_⟩⟩
        · simp [disturb, found, damaged]
        · exact List.set_append_left index worse early
      · have late := Nat.not_lt.mp early
        rw [List.getElem?_append_right late] at found
        refine ⟨.spoil (index - front.length) damage, plain,
          .inr ⟨back.set (index - front.length) worse, ?_, ?_⟩⟩
        · simp [disturb, found, damaged]
        · exact List.set_append_right index worse late

end

end Channel
