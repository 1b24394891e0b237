import Mathlib.Data.List.Infix

/-!
Words between blanks and the first occurrence of one list in another, for any kind of
characters.
-/

namespace Scanning

variable {α : Type*}

/-! Words. -/

def word (blank : α → Bool) (input : List α) : List α :=
  (input.dropWhile blank).takeWhile fun item => !blank item

def behindWord (blank : α → Bool) (input : List α) : List α :=
  (input.dropWhile blank).dropWhile fun item => !blank item

section

variable {blank : α → Bool} {token : List α} {separator : α}

theorem dropWhile_blank (plain : ∀ item ∈ token, blank item = false) (rest : List α)
    (nonempty : token ≠ []) : (token ++ rest).dropWhile blank = token ++ rest := by
  obtain ⟨first, others, rfl⟩ := List.exists_cons_of_ne_nil nonempty
  rw [List.cons_append, List.dropWhile_cons, plain first List.mem_cons_self]
  rfl

theorem word_append (plain : ∀ item ∈ token, blank item = false) (nonempty : token ≠ [])
    (blank_eq : blank separator = true) (rest : List α) :
    word blank (token ++ separator :: rest) = token := by
  have taken : ∀ item ∈ token, (!blank item) = true := by
    intro item member
    rw [plain item member]
    rfl
  rw [word, dropWhile_blank plain _ nonempty, List.takeWhile_append_of_pos taken,
    List.takeWhile_cons, blank_eq]
  exact List.append_nil _

theorem behindWord_append (plain : ∀ item ∈ token, blank item = false) (nonempty : token ≠ [])
    (blank_eq : blank separator = true) (rest : List α) :
    behindWord blank (token ++ separator :: rest) = separator :: rest := by
  have dropped : ∀ item ∈ token, (!blank item) = true := by
    intro item member
    rw [plain item member]
    rfl
  rw [behindWord, dropWhile_blank plain _ nonempty, List.dropWhile_append_of_pos dropped,
    List.dropWhile_cons, blank_eq]
  rfl

theorem word_cons (blank_eq : blank separator = true) (rest : List α) :
    word blank (separator :: rest) = word blank rest := by
  rw [word, List.dropWhile_cons, if_pos blank_eq, word]

end

/-! Occurrences. -/

section

variable [DecidableEq α]

def firstMatch (needle : List α) : List α → Option Nat
  | [] => if needle = [] then some 0 else none
  | first :: rest =>
      if needle.isPrefixOf (first :: rest) then some 0
      else (firstMatch needle rest).map (· + 1)

theorem firstMatch_le (needle haystack : List α) (position : Nat)
    (occurs : needle <+: haystack.drop position) :
    ∃ found ≤ position, firstMatch needle haystack = some found ∧
      needle <+: haystack.drop found := by
  induction haystack generalizing position with
  | nil =>
      rw [List.drop_nil, List.prefix_nil] at occurs
      exact ⟨0, Nat.zero_le _, by rw [firstMatch, if_pos occurs], by simp [occurs]⟩
  | cons first rest ih =>
      by_cases here : needle.isPrefixOf (first :: rest) = true
      · exact ⟨0, Nat.zero_le _, by rw [firstMatch, if_pos here],
          List.isPrefixOf_iff_prefix.mp here⟩
      · cases position with
        | zero => exact absurd (List.isPrefixOf_iff_prefix.mpr occurs) here
        | succ position =>
            obtain ⟨found, earlier, finds, there⟩ := ih position occurs
            refine ⟨found + 1, Nat.succ_le_succ earlier, ?_, there⟩
            rw [firstMatch, if_neg here, finds, Option.map_some]

end

/-- Without the separator, a list cannot reach across it. -/
theorem prefix_of_separated {needle before rest : List α} {separator : α}
    (plain : separator ∉ needle) (occurs : needle <+: before ++ separator :: rest) :
    needle <+: before := by
  by_cases short : needle.length ≤ before.length
  · exact List.prefix_of_prefix_length_le occurs (List.prefix_append before _) short
  · have inside : before.length < needle.length := by omega
    obtain ⟨behind, same⟩ := occurs
    have item : needle[before.length]? = (needle ++ behind)[before.length]? :=
      (List.getElem?_append_left inside).symm
    rw [same, List.getElem?_append_right (Nat.le_refl _), Nat.sub_self,
      List.getElem?_cons_zero] at item
    exact absurd (List.mem_of_getElem? item) plain

theorem infix_iff_early {needle before : List α} {separator : α}
    (plain : separator ∉ needle) (rest : List α) : needle <:+: before ↔
      ∃ position ≤ before.length, needle <+: (before ++ separator :: rest).drop position := by
  constructor
  · rintro ⟨start, behind, rfl⟩
    refine ⟨start.length, by simp only [List.length_append]; omega, ?_⟩
    rw [List.append_assoc, List.append_assoc, List.drop_left]
    exact List.prefix_append _ _
  · rintro ⟨position, inside, occurs⟩
    rw [List.drop_append_of_le_length inside] at occurs
    exact (prefix_of_separated plain occurs).isInfix.trans (List.drop_suffix _ _).isInfix

end Scanning
