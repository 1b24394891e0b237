import Cpe464.Library.Memory

/-!
The header objects of trace: `checksum.c`, `ethernet.c`, `ip.c`, `arp.c`, `udp.c`, `tcp.c` and
`icmp.c`. An `_init` function that returns -1 has no object as its result; the pointer of its
caller then stays as it was.
-/

namespace Trace

open Bytes Memory

/-- A record of a capture file, whose length `caplen` is an unsigned number of 32 bits. -/
structure Captured where
  bytes : List UInt8
  caplen_lt : bytes.length < 2 ^ 32

def asInt (value : Int) : Int := value.bmod (2 ^ 32)

/-! checksum.c -/

/-- The loop of `in_cksum` with its accumulator, an `int`. -/
def sumWords (host : ByteOrder) : List UInt8 → Int → Int
  | [], sum => sum
  | [last], sum => asInt (sum + host.word last 0)
  | first :: second :: rest, sum => sumWords host rest (asInt (sum + host.word first second))

def cksum (host : ByteOrder) (words : List UInt8) : UInt16 :=
  let sum := sumWords host words 0
  let sum := asInt (sum / 65536 + sum % 65536)
  let sum := asInt (sum + sum / 65536)
  UInt16.ofInt (-1 - sum)

def inCksum (host : ByteOrder) (addr : List UInt8) (len : Int) : Checked UInt16 := do
  let words ← copy addr 0 len.toNat
  .ok (cksum host words)

/-! ethernet.c -/

abbrev eFrameSize : Nat := 14

abbrev macLength : Nat := 6

abbrev ipLength : Nat := 4

abbrev ipTypeNo : UInt16 := 0x0800

abbrev arpTypeNo : UInt16 := 0x0806

structure EthrObj where
  frame : List UInt8
  frameLength : Int
  dest : List UInt8
  src : List UInt8
  type : UInt16
  data : List UInt8
  dataLength : Int

def ethrInit (packet : Captured) : Checked (Option EthrObj) :=
  if packet.bytes.length < eFrameSize then .ok none
  else do
    let frameLength := asInt packet.bytes.length
    let frame ← copy packet.bytes 0 frameLength
    let dest ← copy frame 0 macLength
    let src ← copy frame macLength macLength
    let type ← fetchWord frame 12
    let dataLength := frameLength - eFrameSize
    let data ← copy frame eFrameSize dataLength
    .ok (some { frame, frameLength, dest, src, type, data, dataLength })

def ethrData (this : EthrObj) : Checked (List UInt8) := copy this.data 0 this.dataLength

def hex (value : Nat) : String := String.ofList (Nat.toDigits 16 value)

def macText (address : List UInt8) : String :=
  ":".intercalate (address.map fun byte => hex byte.toNat)

def ipText (address : List UInt8) : String :=
  ".".intercalate (address.map fun byte => toString byte.toNat)

def ethrPrint2 (this : EthrObj) : String :=
  "\n\tEthernet Header\n\t\tDest MAC: " ++ macText this.dest ++
    "\n\t\tSource MAC: " ++ macText this.src ++ "\n\t\tType: " ++
    (if this.type = ipTypeNo then "IP" else if this.type = arpTypeNo then "ARP" else "Unknown") ++
    "\n"

/-! ip.c -/

abbrev ipMinSize : Nat := 20

abbrev icmpProtocol : UInt8 := 1

abbrev udpProtocol : UInt8 := 17

abbrev tcpProtocol : UInt8 := 6

structure IpObj where
  frame : List UInt8
  frameLength : Int
  tos : UInt8
  ttl : UInt8
  ihl : UInt8
  protocol : UInt8
  length : UInt16
  checksum : UInt16
  dest : List UInt8
  src : List UInt8
  data : List UInt8
  dataLength : Int

def ipInit (host : ByteOrder) (packet : List UInt8) (size : Int) : Checked (Option IpObj) :=
  if size < ipMinSize then .ok none
  else do
    let frame ← copy packet 0 size
    let tos ← fetch frame 1
    let ttl ← fetch frame 8
    let protocol ← fetch frame 9
    let first ← fetch frame 0
    let ihl := 4 * (first &&& 0x0F)
    let length ← fetchWord packet 2
    let checksum ← inCksum host frame ihl.toNat
    let dest ← copy frame 16 ipLength
    let src ← copy frame 12 ipLength
    let dataLength := (length.toNat : Int) - ihl.toNat
    let data ← copy frame ihl.toNat dataLength
    .ok (some {
      frame, frameLength := size, tos, ttl, ihl, protocol, length, checksum, dest, src, data,
      dataLength })

def ipData (this : IpObj) : Checked (List UInt8) := copy this.data 0 this.dataLength

def ipPsuedoHeader (this : IpObj) : List UInt8 :=
  this.src ++ this.dest ++ [0, this.protocol, UInt8.ofInt (this.dataLength % 65536 / 256),
    UInt8.ofInt (this.dataLength % 256)]

def checksumText (checksum readChecksum : UInt16) : String :=
  (if checksum ≠ 0 then "\n\t\tChecksum: Incorrect (0x" else "\n\t\tChecksum: Correct (0x") ++
    hex readChecksum.toNat ++ ")"

def ipHeaderText (this : IpObj) (readChecksum : UInt16) : String :=
  "\n\tIP Header \n\t\tTOS: 0x" ++ hex this.tos.toNat ++
    "\n\t\tTTL : " ++ toString this.ttl.toNat ++ "\n\t\tProtocol: " ++
    (if this.protocol = icmpProtocol then "ICMP" else if this.protocol = udpProtocol then "UDP"
      else if this.protocol = tcpProtocol then "TCP" else "Unknown") ++
    checksumText this.checksum readChecksum ++ "\n\t\tSender IP: " ++ ipText this.src ++
    "\n\t\tDest IP: " ++ ipText this.dest ++ "\n"

def ipPrint2 (this : IpObj) : Checked String := do
  let readChecksum ← fetchWord this.frame 10
  .ok (ipHeaderText this readChecksum)

/-! arp.c -/

abbrev arpMinSize : Nat := 28

structure ArpObj where
  frame : List UInt8
  frameLength : Int
  opcode : UInt16
  destIp : List UInt8
  destMac : List UInt8
  srcIp : List UInt8
  srcMac : List UInt8

def arpInit (packet : List UInt8) (size : Int) : Checked (Option ArpObj) :=
  if size < arpMinSize then .ok none
  else do
    let frame ← copy packet 0 size
    let opcode ← fetchWord frame 6
    let destMac ← copy frame 18 macLength
    let destIp ← copy frame 24 ipLength
    let srcMac ← copy frame 8 macLength
    let srcIp ← copy frame 14 ipLength
    .ok (some { frame, frameLength := size, opcode, destIp, destMac, srcIp, srcMac })

def arpPrint2 (this : ArpObj) : String :=
  "\n\tARP header \n\t\tOpcode: " ++
    (if this.opcode = 1 then "Request" else if this.opcode = 2 then "Reply" else "") ++
    "\n\t\tSender MAC: " ++ macText this.srcMac ++ "\n\t\tSender IP: " ++ ipText this.srcIp ++
    "\n\t\tTarget MAC: " ++ macText this.destMac ++ "\n\t\tTarget IP: " ++ ipText this.destIp ++
    "\n"

/-! udp.c -/

abbrev udpMinSize : Nat := 28

structure UdpObj where
  frame : List UInt8
  opcode : UInt16
  dest : UInt16
  src : UInt16

def udpInit (packet : List UInt8) (size : Int) : Checked (Option UdpObj) :=
  if size < udpMinSize then .ok none
  else do
    let frame ← copy packet 0 size
    let opcode ← fetchWord packet 4
    let dest ← fetchWord packet 2
    let src ← fetchWord packet 0
    .ok (some { frame, opcode, dest, src })

def portText (port : UInt16) : String :=
  if port = 80 then "HTTP"
  else if port = 23 then "Telnet"
  else if port = 21 then "FTP"
  else if port = 110 then "POP3"
  else if port = 25 then "SMTP"
  else toString port.toNat

def udpPrint2 (this : UdpObj) : String :=
  "\n\tUDP Header\n\t\tSource Port:  " ++ portText this.src ++
    "\n\t\tDest Port:  " ++ portText this.dest ++ "\n"

/-! tcp.c -/

structure TcpObj where
  frame : List UInt8
  frameLength : Int
  src : UInt16
  dest : UInt16
  seq : UInt32
  ack : UInt32
  window : UInt16
  checksum : UInt16
  psuedo : List UInt8
  flags : UInt8

def tcpChecksum (host : ByteOrder) (frame psuedo : List UInt8) (frameLength : Int) :
    Checked UInt16 := do
  let psuedo ← copy psuedo 0 12
  let frame ← copy frame 0 frameLength
  inCksum host (psuedo ++ frame) (frameLength + 12)

def tcpInit (host : ByteOrder) (packet psuedo : List UInt8) (size : Int) :
    Checked (Option TcpObj) := do
  let frame ← copy packet 0 size
  let psuedo ← copy psuedo 0 12
  let psuedo := psuedo.set 11 (UInt8.ofInt (size % 256))
  let src ← fetchWord frame 0
  let dest ← fetchWord frame 2
  let seq ← fetchLong frame 4
  let ack ← fetchLong frame 8
  let window ← fetchWord frame 14
  let flags ← fetch frame 13
  let checksum ← tcpChecksum host frame psuedo size
  .ok (some {
    frame, frameLength := size, src, dest, seq, ack, window, checksum, psuedo, flags })

abbrev synMask : UInt8 := 0x2

abbrev finMask : UInt8 := 0x1

abbrev rstMask : UInt8 := 0x4

def tcpHeaderText (this : TcpObj) (readChecksum : UInt16) : String :=
  "\n\tTCP Header\n\t\tSource Port:  " ++ portText this.src ++
    "\n\t\tDest Port:  " ++ portText this.dest ++
    "\n\t\tSequence Number: " ++ toString this.seq.toNat ++
    "\n\t\tACK Number: " ++ toString this.ack.toNat ++
    (if this.flags &&& synMask ≠ 0 then "\n\t\tSYN Flag: Yes " else "\n\t\tSYN Flag: No") ++
    (if this.flags &&& rstMask ≠ 0 then "\n\t\tRST Flag: Yes " else "\n\t\tRST Flag: No") ++
    (if this.flags &&& finMask ≠ 0 then "\n\t\tFIN Flag: Yes " else "\n\t\tFIN Flag: No") ++
    "\n\t\tWindow Size: " ++ toString this.window.toNat ++
    checksumText this.checksum readChecksum ++ "\n"

def tcpPrint2 (this : TcpObj) : Checked String := do
  let readChecksum ← fetchWord this.frame 16
  .ok (tcpHeaderText this readChecksum)

/-! icmp.c -/

def icmpType (packet : List UInt8) : Checked UInt8 := fetch packet 0

end Trace
