import Cpe464.Library.OnesComplement

/-!
The packet structure of `packet.h`, its wire format in `packet.c`, and the packet
level of `networks.c`. Sizes are the ones of the headers; every function that
depends on the byte order takes the host it runs on.
-/

namespace RemoteCopy

open Bytes OnesComplement

abbrev headerLength : Nat := 11

abbrev maxPacketLength : Nat := 1400

/-- `enum FLAG` without `CRC_ERROR`, which is a return value only. -/
inductive Flag
  | zero
  | data
  | resend
  | rr
  | srej
  | fname
  | fnameOk
  | fnameBad
  | endOfFile
deriving DecidableEq

def Flag.code : Flag → UInt8
  | zero => 0
  | data => 1
  | resend => 2
  | rr => 3
  | srej => 4
  | fname => 5
  | fnameOk => 6
  | fnameBad => 7
  | endOfFile => 8

def crcError : Int := -1

structure Packet where
  seqNum : UInt32
  checksum : UInt16
  flag : UInt8
  size : UInt32
  payload : Buffer maxPacketLength
  raw : Buffer (maxPacketLength + headerLength)
deriving DecidableEq

def Packet.zero : Packet where
  seqNum := 0
  checksum := 0
  flag := 0
  size := 0
  payload := Buffer.zero _
  raw := Buffer.zero _

/-- `in_cksum` over the first `len` bytes at `addr`. The accumulator stays below
2^31 for every length up to 65536, so the additions are those of the naturals. -/
def inCksum (host : ByteOrder) (addr : List UInt8) (len : Nat) : UInt16 :=
  UInt16.ofNat (65535 - fold (wordSum host (addr.take len)))

/-- The bytes that `construct` writes before the checksum is known. -/
def unsummed (packet : Packet) : Buffer (maxPacketLength + headerLength) :=
  ((((Buffer.zero _).store 0 (htonl packet.seqNum)).store 6 [packet.flag]).store 7
    (htonl packet.size)).store 11 packet.payload.bytes

def construct (host : ByteOrder) (packet : Packet) : Packet :=
  let data := unsummed packet
  let checksum := inCksum host data.bytes packet.size.toNat
  { packet with checksum, raw := data.store 4 (host.split checksum) }

/-- `ntohl(*((uint32_t *)(data+7)))`. -/
def sizeField (data : Buffer (maxPacketLength + headerLength)) : UInt32 :=
  ntohl (data.fetch 7) (data.fetch 8) (data.fetch 9) (data.fetch 10)

/-- `none` when the `memcpy` leaves its two arrays: `size - HEADER_LENGTH` is
computed in 32 unsigned bits and only sizes that are too large are rejected. -/
def deconstruct (host : ByteOrder) (packet : Packet) : Option (Int × Packet) :=
  let data := packet.raw
  let packet := { packet with
    payload := Buffer.zero maxPacketLength
    seqNum := ntohl (data.fetch 0) (data.fetch 1) (data.fetch 2) (data.fetch 3)
    checksum := UInt16.ofNat (256 * (data.fetch 4).toNat + (data.fetch 5).toNat)
    flag := data.fetch 6
    size := sizeField data }
  if packet.size.toNat > maxPacketLength + headerLength then some (crcError, packet)
  else
    let length := (packet.size - UInt32.ofNat headerLength).toNat
    if length > maxPacketLength then none
    else
      let payload := packet.payload.store 0 ((data.bytes.drop headerLength).take length)
      some ((inCksum host data.bytes packet.size.toNat).toNat, { packet with payload })

/-- `recv_packet` on a datagram, with whatever the packet held before. `recvfrom`
cuts a datagram that is longer than `raw`. -/
def recvPacket (host : ByteOrder) (packet : Packet) (datagram : List UInt8) :
    Option (Int × Packet) :=
  let received := datagram.take (maxPacketLength + headerLength)
  match deconstruct host { packet with raw := packet.raw.store 0 received } with
  | none => none
  | some (code, packet) =>
      if code ≠ 0 then some (crcError, packet)
      else some ((received.length : Int) - headerLength, packet)

/-- `send_packet2`: the datagram handed to the network, or `none` when `sendto_Err`
ends the process because the length is zero. -/
def sendPacket2 (packet : Packet) : Option (List UInt8) :=
  if packet.size = 0 then none else some (packet.raw.bytes.take packet.size.toNat)

/-- `errorFlipBits::run`, for the byte that the library picked. -/
def errorFlipBits (datagram : List UInt8) (byteToFlip : Nat) : List UInt8 :=
  datagram.modify byteToFlip (· ^^^ 255)

def frame (host : ByteOrder) (seqNum : UInt32) (flag : UInt8) (data : List UInt8) : List UInt8 :=
  let rest := flag :: htonl (UInt32.ofNat (headerLength + data.length)) ++ data
  let blank := htonl seqNum ++ [0, 0] ++ rest
  htonl seqNum ++ host.split (inCksum host blank blank.length) ++ rest

end RemoteCopy
