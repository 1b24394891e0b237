import Cpe464.Library.Bytes

/-!
Sums of 16-bit words with end-around carry, for either byte order of the host.
The two folding steps compute the residue modulo 65535 and never produce zero
from a positive sum, so a sum folds to 65535 exactly when 65535 divides it. Adding
the carry back after every word gives the same result as folding the whole sum.
-/

namespace OnesComplement

open Bytes

def wordSum (host : ByteOrder) : List UInt8 → Nat
  | [] => 0
  | [last] => host.word last 0
  | first :: second :: rest => host.word first second + wordSum host rest

/-- Adds the carries above bit 16 back into the low word, twice. -/
def fold (sum : Nat) : Nat :=
  let once := sum / 65536 + sum % 65536
  (once + once / 65536) % 65536

theorem fold_cases (sum : Nat) (bound : sum < 2 ^ 32) :
    fold sum = (if sum / 65536 + sum % 65536 < 65536 then sum / 65536 + sum % 65536
      else sum / 65536 + sum % 65536 - 65535) := by
  simp only [fold]
  have small : sum / 65536 + sum % 65536 ≤ 131070 := by omega
  generalize sum / 65536 + sum % 65536 = once at *
  split <;> omega

theorem fold_lt (sum : Nat) : fold sum < 65536 := Nat.mod_lt _ (by decide)

theorem fold_mod (sum : Nat) (bound : sum < 2 ^ 32) : fold sum % 65535 = sum % 65535 := by
  rw [fold_cases sum bound]
  split <;> omega

theorem fold_eq_zero (sum : Nat) (bound : sum < 2 ^ 32) : fold sum = 0 ↔ sum = 0 := by
  rw [fold_cases sum bound]
  split <;> omega

theorem fold_full_iff (sum : Nat) (bound : sum < 2 ^ 32) :
    fold sum = 65535 ↔ sum % 65535 = 0 ∧ 0 < sum := by
  have residue := fold_mod sum bound
  have below := fold_lt sum
  have zero := fold_eq_zero sum bound
  omega

theorem complement_cancels (sum : Nat) (bound : sum < 2 ^ 32) :
    (sum + (65535 - fold sum)) % 65535 = 0 := by
  have residue := fold_mod sum bound
  have below := fold_lt sum
  omega

theorem complement_iff (sum word : Nat) (bound : sum < 2 ^ 32) (positive : 0 < sum)
    (small : word < 65536) :
    (sum + word) % 65535 = 0 ↔ word = 65535 - fold sum ∨ (fold sum = 65535 ∧ word = 65535) := by
  have residue := fold_mod sum bound
  have below := fold_lt sum
  have zero := fold_eq_zero sum bound
  omega

theorem wordSum_le (host : ByteOrder) (block : List UInt8) :
    wordSum host block ≤ 65535 * ((block.length + 1) / 2) := by
  induction block using wordSum.induct with
  | case1 => simp [wordSum]
  | case2 last =>
      have word := host.word_lt last 0
      simp only [wordSum, List.length_singleton]
      omega
  | case3 first second rest ih =>
      have word := host.word_lt first second
      simp only [wordSum, List.length_cons]
      omega

theorem wordSum_lt (host : ByteOrder) (block : List UInt8) (short : block.length ≤ 65536) :
    wordSum host block < 2 ^ 32 := by
  have total := wordSum_le host block
  have words : (block.length + 1) / 2 ≤ 32768 := by omega
  have limit := Nat.mul_le_mul_left 65535 words
  omega

theorem wordSum_append (host : ByteOrder) (left right : List UInt8)
    (even : left.length % 2 = 0) :
    wordSum host (left ++ right) = wordSum host left + wordSum host right := by
  induction left using wordSum.induct with
  | case1 => simp [wordSum]
  | case2 last => simp at even
  | case3 first second rest ih =>
      simp only [List.length_cons] at even
      simp only [List.cons_append, wordSum, ih (by omega)]
      omega

theorem wordSum_set (host : ByteOrder) (block : List UInt8) (index : Nat) (byte : UInt8)
    (inside : index < block.length) :
    ∃ weight, (weight = 1 ∨ weight = 256) ∧
      wordSum host (block.set index byte) + weight * block[index].toNat =
        wordSum host block + weight * byte.toNat := by
  induction block using wordSum.induct generalizing index with
  | case1 => simp at inside
  | case2 last =>
      have first : index = 0 := by simpa using inside
      subst first
      cases host
      · exact ⟨1, Or.inl rfl, by simp [wordSum, ByteOrder.word]; omega⟩
      · exact ⟨256, Or.inr rfl, by simp [wordSum, ByteOrder.word]; omega⟩
  | case3 first second rest ih =>
      rcases index with _ | _ | index
      · cases host
        · exact ⟨1, Or.inl rfl, by simp [wordSum, ByteOrder.word]; omega⟩
        · exact ⟨256, Or.inr rfl, by simp [wordSum, ByteOrder.word]; omega⟩
      · cases host
        · exact ⟨256, Or.inr rfl, by simp [wordSum, ByteOrder.word]; omega⟩
        · exact ⟨1, Or.inl rfl, by simp [wordSum, ByteOrder.word]; omega⟩
      · simp only [List.length_cons] at inside
        obtain ⟨weight, place, shift⟩ := ih index (by omega)
        refine ⟨weight, place, ?_⟩
        simp only [List.set_cons_succ, List.getElem_cons_succ, wordSum]
        omega

/-- No change of a single byte is a multiple of 65535. -/
theorem wordSum_set_mod (host : ByteOrder) (block : List UInt8) (index : Nat) (byte : UInt8)
    (inside : index < block.length) (different : byte ≠ block[index])
    (divides : wordSum host block % 65535 = 0) :
    wordSum host (block.set index byte) % 65535 ≠ 0 := by
  obtain ⟨weight, place, shift⟩ := wordSum_set host block index byte inside
  have apart : byte.toNat ≠ block[index].toNat := fun same => different (UInt8.toNat_inj.mp same)
  have before := block[index].toNat_lt
  have after := byte.toNat_lt
  rcases place with rfl | rfl <;> omega

theorem word_split (host : ByteOrder) (value : UInt16) :
    wordSum host (host.split value) = value.toNat := by
  have bound := value.toNat_lt
  cases host <;> simp only [ByteOrder.split, wordSum, ByteOrder.word, UInt8.toNat_ofNat'] <;> omega

theorem wordSum_summed (host : ByteOrder) (front rest : List UInt8) (even : front.length % 2 = 0)
    (short : (front ++ [0, 0] ++ rest).length ≤ 65536) :
    let checksum := UInt16.ofNat (65535 - fold (wordSum host (front ++ [0, 0] ++ rest)))
    wordSum host (front ++ host.split checksum ++ rest) % 65535 = 0 ∧
      0 < wordSum host (front ++ host.split checksum ++ rest) := by
  intro checksum
  have bound := wordSum_lt host _ short
  have cancels := complement_cancels _ bound
  have zero := fold_eq_zero _ bound
  have below := fold_lt (wordSum host (front ++ [0, 0] ++ rest))
  have blank : wordSum host [0, 0] = 0 := by
    cases host <;> rfl
  have field : checksum.toNat = 65535 - fold (wordSum host (front ++ [0, 0] ++ rest)) := by
    rw [UInt16.toNat_ofNat']
    omega
  have split (middle : List UInt8) (two : middle.length = 2) :
      wordSum host (front ++ middle ++ rest) =
        wordSum host front + wordSum host middle + wordSum host rest := by
    rw [wordSum_append host _ _ (by simp only [List.length_append]; omega),
      wordSum_append host _ _ even]
  rw [split _ (host.split_length _), word_split, field]
  rw [split _ rfl, blank] at cancels zero ⊢
  omega

theorem wordSum_swap (block : List UInt8) :
    wordSum .big block ≡ 256 * wordSum .little block [MOD 65535] := by
  induction block using wordSum.induct with
  | case1 => rfl
  | case2 last =>
      simp only [wordSum, ByteOrder.word, Nat.ModEq]
      rfl
  | case3 first second rest ih =>
      simp only [wordSum, ByteOrder.word, Nat.ModEq] at ih ⊢
      omega

theorem wordSum_pos_of_mem (host : ByteOrder) (block : List UInt8) {byte : UInt8}
    (member : byte ∈ block) (nonzero : 0 < byte.toNat) : 0 < wordSum host block := by
  induction block using wordSum.induct with
  | case1 => simp at member
  | case2 last =>
      have same : byte = last := by simpa using member
      subst same
      cases host <;> simp only [wordSum, ByteOrder.word] <;> omega
  | case3 first second rest ih =>
      simp only [wordSum]
      rcases List.mem_cons.mp member with same | later
      · subst same
        cases host <;> simp only [ByteOrder.word] <;> omega
      · rcases List.mem_cons.mp later with same | later
        · subst same
          cases host <;> simp only [ByteOrder.word] <;> omega
        · exact Nat.add_pos_right _ (ih later)

theorem wordSum_eq_zero_iff (host other : ByteOrder) (block : List UInt8) :
    wordSum host block = 0 ↔ wordSum other block = 0 := by
  have word (first second : UInt8) : host.word first second = 0 ↔ other.word first second = 0 := by
    cases host <;> cases other <;> simp only [ByteOrder.word] <;> omega
  induction block using wordSum.induct with
  | case1 => rfl
  | case2 last => exact word last 0
  | case3 first second rest ih =>
      simp only [wordSum, Nat.add_eq_zero_iff, word, ih]

theorem wordSum_dvd_iff (host other : ByteOrder) (block : List UInt8) :
    wordSum host block % 65535 = 0 ↔ wordSum other block % 65535 = 0 := by
  have swap := wordSum_swap block
  simp only [Nat.ModEq] at swap
  cases host <;> cases other <;> omega

/-! The sum with an end-around carry after every word. -/

def onesAdd (left right : Nat) : Nat :=
  if left + right < 65536 then left + right else left + right - 65535

def onesSum (host : ByteOrder) : List UInt8 → Nat
  | [] => 0
  | [last] => host.word last 0
  | first :: second :: rest => onesAdd (host.word first second) (onesSum host rest)

theorem onesAdd_lt {left right : Nat} (leftLt : left < 65536) (rightLt : right < 65536) :
    onesAdd left right < 65536 := by
  unfold onesAdd
  split <;> omega

theorem onesAdd_mod (left right : Nat) : onesAdd left right % 65535 = (left + right) % 65535 := by
  unfold onesAdd
  split <;> omega

theorem onesAdd_eq_zero {left right : Nat} : onesAdd left right = 0 ↔ left = 0 ∧ right = 0 := by
  unfold onesAdd
  split <;> omega

theorem onesSum_lt (host : ByteOrder) (block : List UInt8) : onesSum host block < 65536 := by
  induction block using onesSum.induct with
  | case1 => simp [onesSum]
  | case2 last => exact host.word_lt last 0
  | case3 first second rest ih => exact onesAdd_lt (host.word_lt first second) ih

theorem onesSum_mod (host : ByteOrder) (block : List UInt8) :
    onesSum host block % 65535 = wordSum host block % 65535 := by
  induction block using onesSum.induct with
  | case1 => rfl
  | case2 last => rfl
  | case3 first second rest ih =>
      rw [onesSum, onesAdd_mod, wordSum]
      omega

theorem onesSum_eq_zero (host : ByteOrder) (block : List UInt8) :
    onesSum host block = 0 ↔ wordSum host block = 0 := by
  induction block using onesSum.induct with
  | case1 => rfl
  | case2 last => rfl
  | case3 first second rest ih => rw [onesSum, onesAdd_eq_zero, wordSum, ih, Nat.add_eq_zero_iff]

/-- Folding at the end loses no carry of the words. -/
theorem fold_wordSum (host : ByteOrder) (block : List UInt8)
    (bound : wordSum host block < 2 ^ 32) : fold (wordSum host block) = onesSum host block := by
  have residue := fold_mod _ bound
  have below := fold_lt (wordSum host block)
  have zero := fold_eq_zero _ bound
  have onesResidue := onesSum_mod host block
  have onesBelow := onesSum_lt host block
  have onesZero := onesSum_eq_zero host block
  omega

/-- Whether the sum is full does not depend on the order of the bytes. -/
theorem onesSum_full_iff (host other : ByteOrder) (block : List UInt8) :
    onesSum host block = 65535 ↔ onesSum other block = 65535 := by
  have full (order : ByteOrder) : onesSum order block = 65535 ↔
      wordSum order block % 65535 = 0 ∧ wordSum order block ≠ 0 := by
    have residue := onesSum_mod order block
    have below := onesSum_lt order block
    have zero := onesSum_eq_zero order block
    omega
  rw [full host, full other, wordSum_dvd_iff host other, ne_eq, wordSum_eq_zero_iff host other]

end OnesComplement
