import Cpe464.Library.Bytes

/-!
Checked reads of memory blocks. A block is the list of its bytes; a read has a fault as its
result where C leaves it undefined. The fields of a block and of a part of it are related by
their offsets.
-/

namespace Memory

open Bytes

inductive Fault
  | outside
  | negative
  | uninitialised
deriving DecidableEq

abbrev Checked := Except Fault

theorem bind_eq_ok {α β : Type} {first : Checked α} {rest : α → Checked β} {result : β} :
    first >>= rest = .ok result ↔ ∃ value, first = .ok value ∧ rest value = .ok result := by
  cases first with
  | error fault =>
      constructor
      · intro failed
        cases failed
      · rintro ⟨value, failed, _⟩
        cases failed
  | ok value =>
      constructor
      · intro defined
        exact ⟨value, rfl, defined⟩
      · rintro ⟨other, same, defined⟩
        cases same
        exact defined

def deref {α : Type*} : Option α → Checked α
  | none => .error .uninitialised
  | some value => .ok value

theorem deref_eq_ok {α : Type*} {pointer : Option α} {value : α} :
    deref pointer = .ok value ↔ pointer = some value := by
  cases pointer with
  | none =>
      constructor
      · intro failed
        cases failed
      · intro failed
        cases failed
  | some other =>
      constructor
      · intro same
        cases same
        rfl
      · intro same
        cases same
        rfl

theorem bind_deref_eq_ok {α β : Type} {first : Checked (Option α)} {rest : α → Checked β}
    {result : β} : (first >>= fun pointer => deref pointer >>= rest) = .ok result ↔
      ∃ value, first = .ok (some value) ∧ rest value = .ok result := by
  simp only [bind_eq_ok, deref_eq_ok]
  constructor
  · rintro ⟨_, set, value, rfl, defined⟩
    exact ⟨value, set, defined⟩
  · rintro ⟨value, set, defined⟩
    exact ⟨some value, set, value, rfl, defined⟩

/-! Fields by their offset, in network byte order. -/

def byteAt (block : List UInt8) (offset : Nat) : UInt8 := block.getD offset 0

def wordAt (block : List UInt8) (offset : Nat) : UInt16 :=
  UInt16.ofNat (256 * (byteAt block offset).toNat + (byteAt block (offset + 1)).toNat)

def longAt (block : List UInt8) (offset : Nat) : UInt32 :=
  ntohl (byteAt block offset) (byteAt block (offset + 1)) (byteAt block (offset + 2))
    (byteAt block (offset + 3))

def slice (block : List UInt8) (offset length : Nat) : List UInt8 :=
  (block.drop offset).take length

/-! Reads. -/

def fetch (block : List UInt8) (offset : Nat) : Checked UInt8 :=
  if offset < block.length then .ok (byteAt block offset) else .error .outside

def fetchWord (block : List UInt8) (offset : Nat) : Checked UInt16 :=
  if offset + 1 < block.length then .ok (wordAt block offset) else .error .outside

def fetchLong (block : List UInt8) (offset : Nat) : Checked UInt32 :=
  if offset + 3 < block.length then .ok (longAt block offset) else .error .outside

def copy (block : List UInt8) (offset : Nat) (length : Int) : Checked (List UInt8) :=
  if length < 0 then .error .negative
  else if offset + length ≤ block.length then .ok (slice block offset length.toNat)
  else .error .outside

section

variable {block : List UInt8} {offset : Nat}

theorem ite_ok_iff {α : Type*} {condition : Prop} [Decidable condition] {value result : α}
    {fault : Fault} : (if condition then Except.ok value else .error fault) = .ok result ↔
      condition ∧ result = value := by
  split
  · rename_i holds
    rw [Except.ok.injEq, and_iff_right holds, eq_comm]
  · rename_i fails
    constructor
    · intro failed
      cases failed
    · rintro ⟨holds, _⟩
      exact absurd holds fails

theorem fetch_eq_ok {byte : UInt8} : fetch block offset = .ok byte ↔
    offset < block.length ∧ byte = byteAt block offset := ite_ok_iff

theorem fetchWord_eq_ok {word : UInt16} : fetchWord block offset = .ok word ↔
    offset + 1 < block.length ∧ word = wordAt block offset := ite_ok_iff

theorem fetchLong_eq_ok {long : UInt32} : fetchLong block offset = .ok long ↔
    offset + 3 < block.length ∧ long = longAt block offset := ite_ok_iff

theorem copy_eq_ok {length : Int} {copied : List UInt8} : copy block offset length = .ok copied ↔
    (0 ≤ length ∧ offset + length ≤ block.length) ∧ copied = slice block offset length.toNat := by
  rw [copy]
  split
  · constructor
    · intro failed
      cases failed
    · rintro ⟨⟨natural, _⟩, _⟩
      omega
  · rw [ite_ok_iff]
    constructor
    · rintro ⟨inside, same⟩
      exact ⟨⟨by omega, inside⟩, same⟩
    · rintro ⟨⟨_, inside⟩, same⟩
      exact ⟨inside, same⟩

end

theorem copy_whole {block : List UInt8} {length : Int} (same : length = block.length) :
    copy block 0 length = .ok block := by
  rw [copy_eq_ok, same]
  refine ⟨⟨by omega, by omega⟩, ?_⟩
  simp only [Int.toNat_natCast, slice, List.drop_zero, List.take_length]

/-! Parts of blocks. -/

section

variable (block : List UInt8) {offset length inner : Nat}

theorem slice_length (inside : offset + length ≤ block.length) :
    (slice block offset length).length = length := by
  simp only [slice, List.length_take, List.length_drop]
  omega

theorem slice_whole : slice block 0 block.length = block := by
  simp only [slice, List.drop_zero, List.take_length]

theorem slice_slice {size : Nat} (inside : inner + size ≤ length) :
    slice (slice block offset length) inner size = slice block (offset + inner) size := by
  simp only [slice, List.drop_take, List.drop_drop, List.take_take]
  congr 1
  omega

theorem byteAt_slice (inside : inner < length) :
    byteAt (slice block offset length) inner = byteAt block (offset + inner) := by
  simp only [byteAt, slice, List.getD_eq_getElem?_getD, List.getElem?_take, List.getElem?_drop,
    if_pos inside]

theorem wordAt_slice (inside : inner + 1 < length) :
    wordAt (slice block offset length) inner = wordAt block (offset + inner) := by
  simp only [wordAt, byteAt_slice block inside, byteAt_slice block (by omega : inner < length),
    Nat.add_assoc]

theorem longAt_slice (inside : inner + 3 < length) :
    longAt (slice block offset length) inner = longAt block (offset + inner) := by
  simp only [longAt, byteAt_slice block inside, byteAt_slice block (by omega : inner < length),
    byteAt_slice block (by omega : inner + 1 < length),
    byteAt_slice block (by omega : inner + 2 < length), Nat.add_assoc]

end

end Memory
