import Cpe464.Trace.HeaderCore

/-!
The layers of `trace.c` and its loop over the headers of a packet. A block that was freed
has no bytes any more.
-/

namespace Trace

open Bytes Memory

inductive NextType
  | ip
  | arp
  | udp
  | tcp
  | icmp
  | unknown
  | payload
deriving DecidableEq

inductive Header
  | ethr (this : EthrObj)
  | ip (this : IpObj)
  | arp (this : ArpObj)
  | udp (this : UdpObj)
  | tcp (this : TcpObj)
  | icmp (type : UInt8)

structure Machine where
  nextType : NextType
  pdu : List UInt8
  pduLength : Int
  psuedoHeader : List UInt8
  headers : List Header
  output : String

/-- `psuedoHeader` is what the packets before have left. -/
def ethr (psuedoHeader : List UInt8) (packet : Captured) : Checked Machine := do
  let made ← ethrInit packet
  let this ← deref made
  let pdu ← ethrData this
  .ok {
    nextType := if this.type = ipTypeNo then .ip else if this.type = arpTypeNo then .arp
      else .unknown
    pdu
    pduLength := this.dataLength
    psuedoHeader
    headers := [.ethr this]
    output := ethrPrint2 this }

def ip (host : ByteOrder) (machine : Machine) : Checked Machine := do
  let made ← ipInit host machine.pdu machine.pduLength
  let this ← deref made
  let text ← ipPrint2 this
  let pdu ← ipData this
  .ok {
    nextType := if this.protocol = icmpProtocol then .icmp else if this.protocol = tcpProtocol then .tcp
      else if this.protocol = udpProtocol then .udp else .payload
    pdu
    pduLength := this.dataLength
    psuedoHeader := ipPsuedoHeader this
    headers := machine.headers ++ [.ip this]
    output := machine.output ++ text }

def arp (machine : Machine) : Checked Machine := do
  let made ← arpInit machine.pdu machine.pduLength
  let this ← deref made
  .ok { machine with
    nextType := .payload
    pdu := []
    headers := machine.headers ++ [.arp this]
    output := machine.output ++ arpPrint2 this }

def udp (machine : Machine) : Checked Machine := do
  let made ← udpInit machine.pdu machine.pduLength
  let this ← deref made
  .ok { machine with
    nextType := .payload
    pdu := []
    headers := machine.headers ++ [.udp this]
    output := machine.output ++ udpPrint2 this }

def tcp (host : ByteOrder) (machine : Machine) : Checked Machine := do
  let made ← tcpInit host machine.pdu machine.psuedoHeader machine.pduLength
  let this ← deref made
  let text ← tcpPrint2 this
  .ok { machine with
    nextType := .payload
    pdu := []
    psuedoHeader := []
    headers := machine.headers ++ [.tcp this]
    output := machine.output ++ text }

def icmpText (type : UInt8) : String :=
  "\n\tICMP Header" ++ (if type = 8 then "\n\t\tType: Request\n"
    else if type = 0 then "\n\t\tType: Reply\n" else "\n\t\tType: Unknown\n")

def icmp (machine : Machine) : Checked Machine := do
  let type ← icmpType machine.pdu
  .ok { machine with
    nextType := .payload
    pdu := []
    headers := machine.headers ++ [.icmp type]
    output := machine.output ++ icmpText type }

def layer (host : ByteOrder) (machine : Machine) : Checked Machine :=
  match machine.nextType with
  | .ip => ip host machine
  | .arp => arp machine
  | .udp => udp machine
  | .tcp => tcp host machine
  | .icmp => icmp machine
  | .unknown => .ok machine
  | .payload => .ok machine

def Machine.AtEnd (machine : Machine) : Prop :=
  machine.nextType = .unknown ∨ machine.nextType = .payload

instance (machine : Machine) : Decidable machine.AtEnd :=
  inferInstanceAs (Decidable (_ ∨ _))

def layers (host : ByteOrder) : Nat → Machine → Checked Machine
  | 0, machine => .ok machine
  | rounds + 1, machine =>
      if machine.AtEnd then .ok machine
      else do
        let machine ← layer host machine
        layers host rounds machine

def readPacket (host : ByteOrder) (psuedoHeader : List UInt8) (packet : Captured) (rounds : Nat) :
    Checked Machine := do
  let machine ← ethr psuedoHeader packet
  layers host rounds machine

def packetText (cur : Nat) (packet : Captured) (machine : Machine) : String :=
  "\nPacket number: " ++ toString cur ++ "  Packet Len: " ++ toString packet.bytes.length ++ "\n" ++
    machine.output ++ (if machine.nextType = .unknown then "Unknown PDU\n" else "\n")

/-- The loop over the packets. No packet has more than two headers behind the Ethernet one. -/
def mainLoop (host : ByteOrder) : Nat → List UInt8 → List Captured → Checked String
  | _, _, [] => .ok ""
  | cur, psuedoHeader, packet :: rest => do
      let machine ← readPacket host psuedoHeader packet 2
      let text ← mainLoop host (cur + 1) machine.psuedoHeader rest
      .ok (packetText cur packet machine ++ text)

end Trace
