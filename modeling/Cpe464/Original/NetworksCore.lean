import Cpe464.RemoteCopy.PacketCore

/-!
`send_buf` and `recv_buf` of `original/networks.c`: seven bytes of header, the data and a last
byte that is sent but never set. The address of the peer is left out.
-/

namespace Original

open Bytes
open RemoteCopy (inCksum)

abbrev maxLen : Nat := 1500

inductive Flag
  | fname
  | data
  | fnameOk
  | fnameBad
  | ack
  | endOfFile
deriving DecidableEq

def Flag.code : Flag → UInt8
  | fname => 0
  | data => 1
  | fnameOk => 2
  | fnameBad => 3
  | ack => 4
  | endOfFile => 5

/-- The bytes of the packet before its checksum is stored. -/
def unsummed (packet : Buffer maxLen) (buf : List UInt8) (flag : UInt8) (seqNum : UInt32) :
    Buffer maxLen :=
  (((packet.store 7 buf).store 0 (htonl seqNum)).store 6 [flag]).store 4 [0, 0]

def sendBuf (host : ByteOrder) (packet : Buffer maxLen) (buf : List UInt8) (flag : UInt8)
    (seqNum : UInt32) : Option (Buffer maxLen × List UInt8) :=
  if buf.length + 8 ≤ maxLen then
    let data := unsummed packet buf flag seqNum
    let packet := data.store 4 (host.split (inCksum host data.bytes (buf.length + 8)))
    some (packet, packet.bytes.take (buf.length + 8))
  else none

structure Received where
  length : Int
  flag : UInt8
  seqNum : UInt32
  data : List UInt8
deriving DecidableEq

/-- `recv_buf` on a datagram, which `recvfrom` cuts to `len` bytes. `stale` is what the local
array holds before, and `none` is CRC_ERROR. -/
def recvBuf (host : ByteOrder) (stale : Buffer maxLen) (len : Nat) (datagram : List UInt8) :
    Option Received :=
  let received := datagram.take len
  let dataBuf := stale.store 0 received
  if (inCksum host dataBuf.bytes received.length).toNat ≠ 0 then none
  else some {
    length := (received.length : Int) - 8
    flag := dataBuf.fetch 6
    seqNum := ntohl (dataBuf.fetch 0) (dataBuf.fetch 1) (dataBuf.fetch 2) (dataBuf.fetch 3)
    data := (dataBuf.bytes.drop 7).take (received.length - 8) }

/-- The datagram of a packet, with the byte that is behind its data in the array. -/
def datagram (host : ByteOrder) (seqNum : UInt32) (flag : UInt8) (data : List UInt8)
    (behind : UInt8) : List UInt8 :=
  let rest := flag :: data ++ [behind]
  let blank := htonl seqNum ++ [0, 0] ++ rest
  htonl seqNum ++ host.split (inCksum host blank blank.length) ++ rest

end Original
