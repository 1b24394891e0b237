import Cpe464.Chat.MessageCore

/-!
Packing and unpacking are inverse to each other, wherever unpacking is defined.
-/

namespace Chat

open Bytes

theorem Handle.ext {left right : Handle} (same : left.bytes = right.bytes) : left = right := by
  cases left
  cases right
  simpa using same

theorem Handle.length_toNat (handle : Handle) :
    (UInt8.ofNat handle.bytes.length).toNat = handle.bytes.length := by
  have short := handle.short
  rw [UInt8.toNat_ofNat']
  omega

theorem single_short (byte : UInt8) : [byte].length < 256 := by
  rw [List.length_singleton]
  decide

def handleOf (byte : UInt8) : Handle := ⟨[byte], single_short byte⟩

theorem unpackHandle_pack (handle : Handle) (rest : List UInt8) :
    unpackHandle (handle.pack ++ rest) = some (handle, rest) := by
  have length := handle.length_toNat
  have fits : handle.bytes.length ≤ (handle.bytes ++ rest).length := by
    rw [List.length_append]
    omega
  simp only [Handle.pack, List.cons_append, unpackHandle, length, if_pos fits, List.take_left,
    List.drop_left]

theorem pack_unpackHandle {bytes rest : List UInt8} {handle : Handle}
    (unpacks : unpackHandle bytes = some (handle, rest)) : handle.pack ++ rest = bytes := by
  cases bytes with
  | nil => cases unpacks
  | cons length behind =>
      simp only [unpackHandle] at unpacks
      split at unpacks
      · rename_i fits
        simp only [Option.some.injEq, Prod.mk.injEq] at unpacks
        obtain ⟨rfl, rfl⟩ := unpacks
        rw [Handle.pack, List.length_take, Nat.min_eq_left fits, UInt8.ofNat_toNat,
          List.cons_append, List.take_append_drop]
      · cases unpacks

theorem loadInt_htonl (value : UInt32) (rest : List UInt8) :
    loadInt (htonl value ++ rest) = some value := by
  exact congrArg some (ntohl_htonl value)

theorem bytes_length (message : Message) : message.bytes.length =
    7 + message.toHandle.bytes.length + message.fromHandle.bytes.length + message.text.length := by
  simp only [Message.bytes, Handle.pack, List.length_append, List.length_cons, htonl_length]
  omega

theorem unpack_bytes (message : Message) : unpack message.bytes = some message := by
  have number := loadInt_htonl message.sequenceNumber (message.flag :: (message.toHandle.pack ++
    (message.fromHandle.pack ++ message.text)))
  have flag : message.bytes[4]? = some message.flag := rfl
  have behind : message.bytes.drop 5 =
      message.toHandle.pack ++ (message.fromHandle.pack ++ message.text) := rfl
  rw [← Message.bytes] at number
  simp only [unpack, number, flag, behind, unpackHandle_pack, Option.bind_eq_bind,
    Option.bind_some]

theorem bytes_unpack {bytes : List UInt8} {message : Message}
    (unpacks : unpack bytes = some message) :
    message.bytes = bytes := by
  simp only [unpack, Option.bind_eq_bind, Option.bind_eq_some_iff, Option.some.injEq] at unpacks
  obtain ⟨number, loads, flag, found, ⟨toHandle, rest⟩, unpacksTo, ⟨fromHandle, text⟩,
    unpacksFrom, rfl⟩ := unpacks
  have before := pack_unpackHandle unpacksTo
  have after := pack_unpackHandle unpacksFrom
  match bytes, loads, found with
  | first :: second :: third :: fourth :: fifth :: behind, loads, found =>
      simp only [loadInt, Option.some.injEq] at loads
      simp only [List.getElem?_cons_succ, List.getElem?_cons_zero, Option.some.injEq] at found
      rw [Message.bytes, after, before, ← loads, htonl_ntohl, found]
      rfl

/-! Which bytes are a message. -/

def Framed (bytes : List UInt8) (toLength fromLength : UInt8) : Prop :=
  bytes[5]? = some toLength ∧ bytes[6 + toLength.toNat]? = some fromLength ∧
    7 + toLength.toNat + fromLength.toNat ≤ bytes.length

theorem unpackHandle_cons (length : UInt8) (rest : List UInt8)
    (fits : length.toNat ≤ rest.length) :
    ∃ handle, unpackHandle (length :: rest) = some (handle, rest.drop length.toNat) := by
  exact ⟨_, if_pos fits⟩

theorem unpack_framed {bytes : List UInt8} {toLength fromLength : UInt8}
    (framed : Framed bytes toLength fromLength) : ∃ message, unpack bytes = some message := by
  obtain ⟨first, second, long⟩ := framed
  match bytes, first, second, long with
  | _ :: _ :: _ :: _ :: _ :: length :: rest, first, second, long =>
      simp only [List.getElem?_cons_succ, List.getElem?_cons_zero, Option.some.injEq] at first
      subst first
      simp only [List.length_cons] at long
      obtain ⟨toHandle, unpacksTo⟩ := unpackHandle_cons length rest (by omega)
      rw [show 6 + length.toNat = length.toNat + 6 by omega] at second
      simp only [List.getElem?_cons_succ] at second
      have behind : rest.drop length.toNat = fromLength :: rest.drop (length.toNat + 1) := by
        obtain ⟨inside, read⟩ := List.getElem?_eq_some_iff.mp second
        rw [List.drop_eq_getElem_cons inside, read]
      obtain ⟨fromHandle, unpacksFrom⟩ := unpackHandle_cons fromLength
        (rest.drop (length.toNat + 1)) (by rw [List.length_drop]; omega)
      rw [behind] at unpacksTo
      simp only [unpack, loadInt, List.getElem?_cons_succ, List.getElem?_cons_zero,
        List.drop_succ_cons, List.drop_zero, unpacksTo, unpacksFrom, Option.bind_eq_bind,
        Option.bind_some]
      exact ⟨_, rfl⟩

theorem bytes_lengths (message : Message) :
    message.bytes[5]? = some (UInt8.ofNat message.toHandle.bytes.length) ∧
      message.bytes[6 + message.toHandle.bytes.length]? =
        some (UInt8.ofNat message.fromHandle.bytes.length) := by
  constructor
  · rfl
  · have layout : message.bytes =
        (htonl message.sequenceNumber ++ message.flag :: message.toHandle.pack) ++
          UInt8.ofNat message.fromHandle.bytes.length ::
            (message.fromHandle.bytes ++ message.text) := by
      simp [Message.bytes, Handle.pack]
    have start : (htonl message.sequenceNumber ++ message.flag :: message.toHandle.pack).length =
        6 + message.toHandle.bytes.length := by
      simp only [Handle.pack, List.length_append, List.length_cons, htonl_length]
      omega
    rw [layout, List.getElem?_append_right (by omega), start, Nat.sub_self]
    rfl

theorem framed_unpack {bytes : List UInt8} {message : Message}
    (unpacks : unpack bytes = some message) :
    Framed bytes (UInt8.ofNat message.toHandle.bytes.length)
      (UInt8.ofNat message.fromHandle.bytes.length) := by
  have lengths := bytes_lengths message
  have total := bytes_length message
  rw [← bytes_unpack unpacks, Framed, Handle.length_toNat, Handle.length_toNat]
  exact ⟨lengths.1, lengths.2, by omega⟩

theorem pack_eq_some_iff (message : Message) (bytes : List UInt8) :
    message.pack = some bytes ↔ bytes = message.bytes ∧ bytes.length < 2 ^ 31 := by
  unfold Message.pack
  rw [← bytes_length]
  split
  · rename_i short
    rw [Option.some.injEq]
    constructor
    · rintro rfl
      exact ⟨rfl, short⟩
    · rintro ⟨rfl, _⟩
      rfl
  · rename_i long
    constructor
    · intro packs
      cases packs
    · rintro ⟨rfl, short⟩
      exact absurd short long

/-- The lengths of messages are numbers of the type `int`. -/
theorem unpack_inverse :
    (∀ (sequenceNumber : UInt32) (flag : UInt8) (toHandle fromHandle : Handle) (text : List UInt8),
      7 + toHandle.bytes.length + fromHandle.bytes.length + text.length < 2 ^ 31 →
      ∃ bytes, Message.pack { sequenceNumber, flag, toHandle, fromHandle, text } = some bytes ∧
        unpack bytes = some { sequenceNumber, flag, toHandle, fromHandle, text }) ∧
    ∀ (bytes : List UInt8) (toLength fromLength : UInt8), bytes.length < 2 ^ 31 →
      bytes[5]? = some toLength → bytes[6 + toLength.toNat]? = some fromLength →
      7 + toLength.toNat + fromLength.toNat ≤ bytes.length →
      ∃ message, unpack bytes = some message ∧ message.pack = some bytes := by
  constructor
  · intro sequenceNumber flag toHandle fromHandle text short
    exact ⟨_, if_pos short, unpack_bytes _⟩
  · intro bytes toLength fromLength short first second long
    obtain ⟨message, unpacks⟩ := unpack_framed ⟨first, second, long⟩
    exact ⟨message, unpacks, (pack_eq_some_iff _ _).mpr ⟨(bytes_unpack unpacks).symm, short⟩⟩

theorem unpack_inverse_forwarded : ∃ message,
    unpack [0, 0, 0, 9, 6, 1, 98, 2, 97, 97, 104, 105, 0] = some message ∧
      message.pack = some [0, 0, 0, 9, 6, 1, 98, 2, 97, 97, 104, 105, 0] := by
  exact unpack_inverse.2 _ 1 2 (by decide) rfl rfl (by decide)

/-- The length of the text is an `int`, but that of the message is not. -/
theorem pack_overflows : ∃ text : List UInt8, text.length = 2 ^ 31 - 7 ∧
    Message.pack { Message.new with text } = none := by
  obtain ⟨text, length⟩ : ∃ text : List UInt8, text.length = 2 ^ 31 - 7 :=
    ⟨List.replicate _ 0, List.length_replicate⟩
  refine ⟨text, length, if_neg ?_⟩
  simp only [length, Message.new]
  omega

end Chat
