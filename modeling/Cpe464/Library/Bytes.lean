import Mathlib.Data.Nat.ModEq

/-!
C arrays of bytes with their size in the type, the words stored in them, and the
byte order of the host that stores them.
-/

namespace Bytes

structure Buffer (size : Nat) where
  bytes : List UInt8
  length_eq : bytes.length = size
deriving DecidableEq

variable {size : Nat}

def Buffer.zero (size : Nat) : Buffer size := ⟨List.replicate size 0, List.length_replicate⟩

/-- `memcpy(buffer + offset, source, source.length)`. Nothing is written past the end of
the array, so a caller that may leave it has to say what happens then. -/
def Buffer.store (buffer : Buffer size) (offset : Nat) (source : List UInt8) : Buffer size :=
  ⟨buffer.bytes.take offset ++ source.take (size - offset) ++
    buffer.bytes.drop (offset + source.length), by
    have length := buffer.length_eq
    simp only [List.length_append, List.length_take, List.length_drop]
    omega⟩

def Buffer.fetch (buffer : Buffer size) (index : Nat) : UInt8 := buffer.bytes.getD index 0

theorem Buffer.ext {left right : Buffer size} (same : left.bytes = right.bytes) : left = right := by
  cases left
  cases right
  simpa using same

@[simp] theorem Buffer.length_bytes (buffer : Buffer size) : buffer.bytes.length = size :=
  buffer.length_eq

@[simp] theorem Buffer.zero_bytes : (Buffer.zero size).bytes = List.replicate size 0 := rfl

theorem Buffer.store_bytes (buffer : Buffer size) (offset : Nat)
    (source before old after : List UInt8)
    (layout : buffer.bytes = before ++ old ++ after) (start : before.length = offset)
    (covered : old.length = source.length) :
    (buffer.store offset source).bytes = before ++ source ++ after := by
  have length := buffer.length_eq
  rw [layout, List.length_append, List.length_append] at length
  subst start
  simp only [Buffer.store]
  rw [layout, List.take_of_length_le (by omega : source.length ≤ _)]
  simp [← covered]

theorem Buffer.store_start (buffer : Buffer size) (source : List UInt8)
    (fits : source.length ≤ size) :
    (buffer.store 0 source).bytes = source ++ buffer.bytes.drop source.length := by
  simp [Buffer.store, List.take_of_length_le fits]

theorem Buffer.zero_store (source : List UInt8) (fits : source.length ≤ size) :
    ((Buffer.zero size).store 0 source).bytes =
      source ++ List.replicate (size - source.length) 0 := by
  rw [Buffer.store_start _ _ fits, Buffer.zero_bytes, List.drop_replicate]

theorem ofInt_natCast (number : Nat) : UInt32.ofInt (number : Int) = UInt32.ofNat number := by
  apply UInt32.toNat_inj.mp
  simp only [UInt32.ofInt, UInt32.toNat_ofNat']
  omega

theorem ofInt_toNat (number : Int) (lower : 0 ≤ number) (upper : number < 2 ^ 32) :
    ((UInt32.ofInt number).toNat : Int) = number := by
  simp only [UInt32.ofInt, UInt32.toNat_ofNat']
  omega

def htonl (value : UInt32) : List UInt8 :=
  [UInt8.ofNat (value.toNat / 2 ^ 24), UInt8.ofNat (value.toNat / 2 ^ 16),
    UInt8.ofNat (value.toNat / 2 ^ 8), UInt8.ofNat value.toNat]

def ntohl (first second third fourth : UInt8) : UInt32 :=
  UInt32.ofNat (2 ^ 24 * first.toNat + 2 ^ 16 * second.toNat + 2 ^ 8 * third.toNat + fourth.toNat)

@[simp] theorem htonl_length (value : UInt32) : (htonl value).length = 4 := rfl

theorem ntohl_htonl (value : UInt32) :
    ntohl (UInt8.ofNat (value.toNat / 2 ^ 24)) (UInt8.ofNat (value.toNat / 2 ^ 16))
      (UInt8.ofNat (value.toNat / 2 ^ 8)) (UInt8.ofNat value.toNat) = value := by
  have bound := value.toNat_lt
  apply UInt32.toNat_inj.mp
  simp only [ntohl, UInt32.toNat_ofNat', UInt8.toNat_ofNat']
  omega

theorem htonl_ntohl (first second third fourth : UInt8) :
    htonl (ntohl first second third fourth) = [first, second, third, fourth] := by
  have firstBound := first.toNat_lt
  have secondBound := second.toNat_lt
  have thirdBound := third.toNat_lt
  have fourthBound := fourth.toNat_lt
  simp only [htonl, ntohl, UInt32.toNat_ofNat', List.cons.injEq, ← UInt8.toNat_inj,
    UInt8.toNat_ofNat', and_true]
  omega

inductive ByteOrder
  | little
  | big
deriving DecidableEq

def ByteOrder.word : ByteOrder → UInt8 → UInt8 → Nat
  | little, first, second => first.toNat + 256 * second.toNat
  | big, first, second => 256 * first.toNat + second.toNat

def ByteOrder.word32 : ByteOrder → UInt8 → UInt8 → UInt8 → UInt8 → Nat
  | little, first, second, third, fourth =>
      first.toNat + 2 ^ 8 * second.toNat + 2 ^ 16 * third.toNat + 2 ^ 24 * fourth.toNat
  | big, first, second, third, fourth =>
      2 ^ 24 * first.toNat + 2 ^ 16 * second.toNat + 2 ^ 8 * third.toNat + fourth.toNat

def ByteOrder.split32 : ByteOrder → UInt32 → List UInt8
  | little, value => (htonl value).reverse
  | big, value => htonl value

@[simp] theorem ByteOrder.split32_length (host : ByteOrder) (value : UInt32) :
    (host.split32 value).length = 4 := by
  cases host <;> rfl

theorem ByteOrder.word32_split32 (host : ByteOrder) (value : UInt32) :
    host.word32 ((host.split32 value).getD 0 0) ((host.split32 value).getD 1 0)
      ((host.split32 value).getD 2 0) ((host.split32 value).getD 3 0) = value.toNat := by
  have bound := value.toNat_lt
  cases host <;> simp [ByteOrder.split32, ByteOrder.word32, htonl] <;> omega

def ByteOrder.split : ByteOrder → UInt16 → List UInt8
  | little, value => [UInt8.ofNat value.toNat, UInt8.ofNat (value.toNat / 256)]
  | big, value => [UInt8.ofNat (value.toNat / 256), UInt8.ofNat value.toNat]

@[simp] theorem ByteOrder.split_length (host : ByteOrder) (value : UInt16) :
    (host.split value).length = 2 := by
  cases host <;> rfl

theorem ByteOrder.split_word (host : ByteOrder) (first second : UInt8) :
    host.split (UInt16.ofNat (host.word first second)) = [first, second] := by
  have firstBound := first.toNat_lt
  have secondBound := second.toNat_lt
  cases host <;> simp only [ByteOrder.split, ByteOrder.word, UInt16.toNat_ofNat', List.cons.injEq,
    ← UInt8.toNat_inj, UInt8.toNat_ofNat', and_true] <;> omega

theorem ByteOrder.split_inj (host : ByteOrder) {left right : UInt16}
    (same : host.split left = host.split right) : left = right := by
  have leftBound := left.toNat_lt
  have rightBound := right.toNat_lt
  rw [← UInt16.toNat_inj]
  cases host <;> simp only [ByteOrder.split, List.cons.injEq, ← UInt8.toNat_inj,
    UInt8.toNat_ofNat', and_true] at same <;> omega

theorem ByteOrder.word_lt (host : ByteOrder) (first second : UInt8) :
    host.word first second < 65536 := by
  have firstBound := first.toNat_lt
  have secondBound := second.toNat_lt
  cases host <;> simp only [ByteOrder.word] <;> omega

end Bytes
