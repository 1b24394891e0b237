import Cpe464.Library.Bytes

/-!
The messages of `message.cpp`, with the numbers of `config.h`.
-/

namespace Chat

open Bytes

abbrev maxHandleSize : Nat := 100

inductive Exception
  | connectEx
  | sendEx
  | acceptEx
  | handleEx
  | mysteryEx
  | exitEx
  | listEx
deriving DecidableEq

structure Handle where
  bytes : List UInt8
  short : bytes.length < 256
deriving DecidableEq

def Handle.empty : Handle := ⟨[], by decide⟩

def Handle.pack (handle : Handle) : List UInt8 :=
  UInt8.ofNat handle.bytes.length :: handle.bytes

structure Message where
  sequenceNumber : UInt32
  flag : UInt8
  toHandle : Handle
  fromHandle : Handle
  text : List UInt8
deriving DecidableEq

def Message.new : Message where
  sequenceNumber := 0
  flag := 0
  toHandle := Handle.empty
  fromHandle := Handle.empty
  text := []

def Message.bytes (message : Message) : List UInt8 :=
  htonl message.sequenceNumber ++ message.flag :: (message.toHandle.pack ++
    (message.fromHandle.pack ++ message.text))

/-- `pack`, whose `total_length` is an `int` that may overflow. The messages of the server and of
the client are far shorter; for these the functions below use the bytes. -/
def Message.pack (message : Message) : Option (List UInt8) :=
  if 7 + message.toHandle.bytes.length + message.fromHandle.bytes.length + message.text.length <
      2 ^ 31 then
    some message.bytes
  else none

/-- `ntohl(((uint32_t *)bytes)[0])`, where the bytes are there. -/
def loadInt : List UInt8 → Option UInt32
  | first :: second :: third :: fourth :: _ => some (ntohl first second third fourth)
  | _ => none

/-! A number that was read is decided by itself, and not among all of its type. -/

instance decidableForallRead (read : Option UInt32) (property : UInt32 → Prop)
    [DecidablePred property] : Decidable (∀ value ∈ read, property value) :=
  match read with
  | none => isTrue (by simp)
  | some value => decidable_of_iff (property value) (by simp)

instance decidableExistsRead (read : Option UInt32) (property : UInt32 → Prop)
    [DecidablePred property] : Decidable (∃ value ∈ read, property value) :=
  match read with
  | none => isFalse (by simp)
  | some value => decidable_of_iff (property value) (by simp)

def asInt (value : UInt32) : Int :=
  if value.toNat < 2 ^ 31 then value.toNat else value.toNat - 2 ^ 32

def intText (number : Int) : List UInt8 := htonl (UInt32.ofInt number)

def unpackHandle : List UInt8 → Option (Handle × List UInt8)
  | [] => none
  | length :: rest =>
      if length.toNat ≤ rest.length then
        some (⟨rest.take length.toNat,
          Nat.lt_of_le_of_lt (List.length_take_le _ _) length.toNat_lt⟩, rest.drop length.toNat)
      else none

/-- `Message::Message(uint8_t *, int)` with `unpack`. There is no result when a read leaves the
received bytes, which includes a negative `text_length`. -/
def unpack (bytes : List UInt8) : Option Message := do
  let sequenceNumber ← loadInt bytes
  let flag ← bytes[4]?
  let (toHandle, rest) ← unpackHandle (bytes.drop 5)
  let (fromHandle, text) ← unpackHandle rest
  some { sequenceNumber, flag, toHandle, fromHandle, text }

end Chat
