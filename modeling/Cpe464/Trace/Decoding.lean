import Mathlib.Data.Nat.Bitwise
import Cpe464.Trace.Containment

/-!
The fields that trace reports against the formats of the protocols. A well-formed packet is
described by offsets into the whole frame; trace goes through copies of its parts.
-/

namespace Trace

open Bytes Memory

inductive Fields
  | ethernet (dest src : List UInt8) (type : UInt16)
  | ip (tos ttl protocol : UInt8) (sender dest : List UInt8)
  | arp (opcode : UInt16) (senderMac senderIp targetMac targetIp : List UInt8)
  | udp (src dest : UInt16)
  | tcp (src dest : UInt16) (seq ack : UInt32) (syn rst fin : Bool) (window : UInt16)
  | icmp (type : UInt8)
deriving DecidableEq

def Header.fields : Header → Fields
  | ethr this => .ethernet this.dest this.src this.type
  | ip this => .ip this.tos this.ttl this.protocol this.src this.dest
  | arp this => .arp this.opcode this.srcMac this.srcIp this.destMac this.destIp
  | udp this => .udp this.src this.dest
  | tcp this => .tcp this.src this.dest this.seq this.ack (this.flags &&& synMask ≠ 0)
      (this.flags &&& rstMask ≠ 0) (this.flags &&& finMask ≠ 0) this.window
  | icmp type => .icmp type

def Fields.text (verdict : String) : Fields → String
  | ethernet dest src type =>
      "\n\tEthernet Header\n\t\tDest MAC: " ++ macText dest ++
        "\n\t\tSource MAC: " ++ macText src ++ "\n\t\tType: " ++
        (if type = ipTypeNo then "IP" else if type = arpTypeNo then "ARP" else "Unknown") ++ "\n"
  | ip tos ttl protocol sender dest =>
      "\n\tIP Header \n\t\tTOS: 0x" ++ hex tos.toNat ++ "\n\t\tTTL : " ++ toString ttl.toNat ++
        "\n\t\tProtocol: " ++
        (if protocol = icmpProtocol then "ICMP" else if protocol = udpProtocol then "UDP"
          else if protocol = tcpProtocol then "TCP" else "Unknown") ++ verdict ++
        "\n\t\tSender IP: " ++ ipText sender ++ "\n\t\tDest IP: " ++ ipText dest ++ "\n"
  | arp opcode senderMac senderIp targetMac targetIp =>
      "\n\tARP header \n\t\tOpcode: " ++
        (if opcode = 1 then "Request" else if opcode = 2 then "Reply" else "") ++
        "\n\t\tSender MAC: " ++ macText senderMac ++ "\n\t\tSender IP: " ++ ipText senderIp ++
        "\n\t\tTarget MAC: " ++ macText targetMac ++ "\n\t\tTarget IP: " ++ ipText targetIp ++
        "\n"
  | udp src dest =>
      "\n\tUDP Header\n\t\tSource Port:  " ++ portText src ++
        "\n\t\tDest Port:  " ++ portText dest ++ "\n"
  | tcp src dest seq ack syn rst fin window =>
      "\n\tTCP Header\n\t\tSource Port:  " ++ portText src ++
        "\n\t\tDest Port:  " ++ portText dest ++
        "\n\t\tSequence Number: " ++ toString seq.toNat ++
        "\n\t\tACK Number: " ++ toString ack.toNat ++
        (if syn then "\n\t\tSYN Flag: Yes " else "\n\t\tSYN Flag: No") ++
        (if rst then "\n\t\tRST Flag: Yes " else "\n\t\tRST Flag: No") ++
        (if fin then "\n\t\tFIN Flag: Yes " else "\n\t\tFIN Flag: No") ++
        "\n\t\tWindow Size: " ++ toString window.toNat ++ verdict ++ "\n"
  | icmp type =>
      "\n\tICMP Header" ++ (if type = 8 then "\n\t\tType: Request\n"
        else if type = 0 then "\n\t\tType: Reply\n" else "\n\t\tType: Unknown\n")

/-- The output reports these headers in order, each with some verdict. -/
inductive Reports : List Fields → String → Prop
  | nothing : Reports [] ""
  | header (fields : Fields) (checksum readChecksum : UInt16) {before output} :
      Reports before output →
      Reports (before ++ [fields]) (output ++ fields.text (checksumText checksum readChecksum))

/-! The formats. -/

def dataOffset (frame : List UInt8) : Nat := 14 + ihlAt frame 14

def totalLength (frame : List UInt8) : Nat := (wordAt frame 16).toNat

def ArpFrame (frame : List UInt8) : Prop := wordAt frame 12 = arpTypeNo ∧ 14 + 28 ≤ frame.length

structure IpFrame (frame : List UInt8) : Prop where
  type : wordAt frame 12 = ipTypeNo
  header : 20 ≤ ihlAt frame 14
  total : ihlAt frame 14 ≤ totalLength frame
  captured : 14 + totalLength frame ≤ frame.length
  tcp : byteAt frame 23 = tcpProtocol → ihlAt frame 14 + 20 ≤ totalLength frame
  udp : byteAt frame 23 = udpProtocol → ihlAt frame 14 + 8 ≤ totalLength frame
  icmp : byteAt frame 23 = icmpProtocol → ihlAt frame 14 + 1 ≤ totalLength frame

def encodedArp (frame : List UInt8) : Fields :=
  .arp (wordAt frame 20) (slice frame 22 6) (slice frame 28 4) (slice frame 32 6)
    (slice frame 38 4)

def encodedIp (frame : List UInt8) : Fields :=
  .ip (byteAt frame 15) (byteAt frame 22) (byteAt frame 23) (slice frame 26 4) (slice frame 30 4)

def encodedData (frame : List UInt8) : List Fields :=
  let start := dataOffset frame
  if byteAt frame 23 = icmpProtocol then [.icmp (byteAt frame start)]
  else if byteAt frame 23 = tcpProtocol then
    let flags := (byteAt frame (start + 13)).toNat
    [.tcp (wordAt frame start) (wordAt frame (start + 2)) (longAt frame (start + 4))
      (longAt frame (start + 8)) (flags.testBit 1) (flags.testBit 2) (flags.testBit 0)
      (wordAt frame (start + 14))]
  else if byteAt frame 23 = udpProtocol then
    [.udp (wordAt frame start) (wordAt frame (start + 2))]
  else []

def encoded (frame : List UInt8) : List Fields :=
  .ethernet (slice frame 0 6) (slice frame 6 6) (wordAt frame 12) ::
    if wordAt frame 12 = ipTypeNo then encodedIp frame :: encodedData frame
    else if wordAt frame 12 = arpTypeNo then [encodedArp frame] else []

def ShortUdp (frame : List UInt8) : Prop :=
  wordAt frame 12 = ipTypeNo ∧ byteAt frame 23 = udpProtocol ∧
    totalLength frame < ihlAt frame 14 + 28

/-! Parts of a frame. -/

theorem mask_bit (flags mask : UInt8) (bit : Nat) (single : mask.toNat = 2 ^ bit) :
    decide (flags &&& mask ≠ 0) = flags.toNat.testBit bit := by
  have value : (flags &&& mask).toNat = (flags.toNat.testBit bit).toNat * 2 ^ bit := by
    rw [UInt8.toNat_and, single, Nat.and_two_pow]
  have zero : flags &&& mask = 0 ↔ (flags &&& mask).toNat = 0 := by
    rw [← UInt8.toNat_inj]
    rfl
  have positive : 0 < 2 ^ bit := Nat.two_pow_pos bit
  rw [Bool.eq_iff_iff, decide_eq_true_eq, ne_eq, zero, value]
  cases flags.toNat.testBit bit with
  | false => simp
  | true => simp

section

variable {frame : List UInt8}

theorem IpFrame.long (ipFrame : IpFrame frame) : 34 ≤ frame.length := by
  have header := ipFrame.header
  have total := ipFrame.total
  have captured := ipFrame.captured
  omega

theorem IpFrame.payload_ihl (ipFrame : IpFrame frame) :
    ihlAt (payload frame) 0 = ihlAt frame 14 := by
  have long := ipFrame.long
  rw [ihlAt, payload, byteAt_slice frame (by omega)]
  rfl

theorem IpFrame.payload_total (ipFrame : IpFrame frame) :
    (wordAt (payload frame) 2).toNat = totalLength frame := by
  have long := ipFrame.long
  rw [payload, wordAt_slice frame (by omega)]
  rfl

theorem IpFrame.payload_dataLength (ipFrame : IpFrame frame) :
    dataLengthAt (payload frame) = totalLength frame - ihlAt frame 14 := by
  rw [dataLengthAt, ipFrame.payload_total, ipFrame.payload_ihl]

theorem IpFrame.payload_protocol (ipFrame : IpFrame frame) :
    byteAt (payload frame) 9 = byteAt frame 23 := by
  have long := ipFrame.long
  exact byteAt_slice frame (by omega)

theorem IpFrame.fits (ipFrame : IpFrame frame) : IpFits (payload frame) := by
  have long := ipFrame.long
  have total := ipFrame.total
  have captured := ipFrame.captured
  rw [IpFits, ipFrame.payload_ihl, ipFrame.payload_total, payload_length (by omega)]
  exact ⟨by omega, by omega, by omega⟩

theorem IpFrame.data_eq (ipFrame : IpFrame frame) (host : ByteOrder) :
    (ipObj host (payload frame)).data =
      slice frame (dataOffset frame) (totalLength frame - ihlAt frame 14) := by
  have total := ipFrame.total
  have captured := ipFrame.captured
  simp only [ipObj, ipFrame.payload_ihl, ipFrame.payload_dataLength]
  rw [payload, slice_slice frame (by omega)]
  rfl

theorem IpFrame.contained_iff (ipFrame : IpFrame frame) :
    Contained frame ↔ frame.length < 2 ^ 31 ∧ ¬ShortUdp frame := by
  have long := ipFrame.long
  have total := ipFrame.total
  have type := ipFrame.type
  have notArp : wordAt frame 12 ≠ arpTypeNo := by rw [type]; decide
  have tcp := ipFrame.tcp
  have icmp := ipFrame.icmp
  simp only [Contained, PayloadFits, SegmentFits, ShortUdp, ipFrame.payload_dataLength,
    ipFrame.payload_protocol]
  constructor
  · rintro ⟨⟨_, small⟩, _, announced⟩
    refine ⟨small, ?_⟩
    rintro ⟨_, udp, short⟩
    have needed := (announced type).2.2.2 udp
    omega
  · rintro ⟨small, notShort⟩
    refine ⟨⟨by omega, small⟩, fun arp => absurd arp notArp, fun _ => ⟨ipFrame.fits, ?_, ?_, ?_⟩⟩
    · intro protocol
      have needed := icmp protocol
      omega
    · intro protocol
      have needed := tcp protocol
      omega
    · intro protocol
      have needed : ¬totalLength frame < ihlAt frame 14 + 28 :=
        fun short => notShort ⟨type, protocol, short⟩
      omega

theorem ArpFrame.contained_iff (arpFrame : ArpFrame frame) :
    Contained frame ↔ frame.length < 2 ^ 31 ∧ ¬ShortUdp frame := by
  obtain ⟨type, long⟩ := arpFrame
  have notIp : wordAt frame 12 ≠ ipTypeNo := by rw [type]; decide
  have length := payload_length (by omega : 14 ≤ frame.length)
  rw [Contained, PayloadFits, ShortUdp, length]
  constructor
  · rintro ⟨⟨_, small⟩, _⟩
    refine ⟨small, ?_⟩
    rintro ⟨ip, _⟩
    exact notIp ip
  · rintro ⟨small, _⟩
    exact ⟨⟨by omega, small⟩, fun _ => by omega, fun ip => absurd ip notIp⟩

/-! The result. -/

theorem IpFrame.ip_fields (ipFrame : IpFrame frame) (host : ByteOrder) :
    (Header.ip (ipObj host (payload frame))).fields = encodedIp frame := by
  have long := ipFrame.long
  simp only [Header.fields, ipObj, encodedIp, payload]
  rw [byteAt_slice frame (by omega), byteAt_slice frame (by omega), byteAt_slice frame (by omega),
    slice_slice frame (by omega), slice_slice frame (by omega)]

theorem IpFrame.tcp_fields (ipFrame : IpFrame frame) (tcp : byteAt frame 23 = tcpProtocol)
    (host : ByteOrder) (psuedo : List UInt8) :
    [(Header.tcp (tcpObj host (ipObj host (payload frame)).data psuedo)).fields] =
      encodedData frame := by
  have long := ipFrame.tcp tcp
  have notIcmp : byteAt frame 23 ≠ icmpProtocol := by rw [tcp]; decide
  rw [encodedData, if_neg notIcmp, if_pos tcp, ipFrame.data_eq host]
  simp only [Header.fields, mask_bit _ synMask 1 rfl, mask_bit _ rstMask 2 rfl,
    mask_bit _ finMask 0 rfl]
  simp only [tcpObj]
  rw [wordAt_slice frame (by omega), wordAt_slice frame (by omega), wordAt_slice frame (by omega),
    longAt_slice frame (by omega), longAt_slice frame (by omega), byteAt_slice frame (by omega)]
  rfl

theorem IpFrame.udp_fields (ipFrame : IpFrame frame) (udp : byteAt frame 23 = udpProtocol)
    (host : ByteOrder) :
    [(Header.udp (udpObj (ipObj host (payload frame)).data)).fields] = encodedData frame := by
  have long := ipFrame.udp udp
  have notIcmp : byteAt frame 23 ≠ icmpProtocol := by rw [udp]; decide
  have notTcp : byteAt frame 23 ≠ tcpProtocol := by rw [udp]; decide
  rw [encodedData, if_neg notIcmp, if_neg notTcp, if_pos udp, ipFrame.data_eq host]
  simp only [Header.fields, udpObj]
  rw [wordAt_slice frame (by omega), wordAt_slice frame (by omega)]
  rfl

theorem IpFrame.icmp_fields (ipFrame : IpFrame frame) (icmp : byteAt frame 23 = icmpProtocol)
    (host : ByteOrder) :
    [(Header.icmp (byteAt (ipObj host (payload frame)).data 0)).fields] = encodedData frame := by
  have long := ipFrame.icmp icmp
  rw [encodedData, if_pos icmp, ipFrame.data_eq host, byteAt_slice frame (by omega)]
  rfl

theorem IpFrame.headers_eq (ipFrame : IpFrame frame) (host : ByteOrder)
    (psuedoHeader : List UInt8) :
    (readResult host psuedoHeader frame).headers.map Header.fields = encoded frame := by
  have ip : wordAt frame 12 = ipTypeNo := ipFrame.type
  have next : (afterEthr psuedoHeader frame).nextType = .ip := if_pos ip
  have transport : (afterIp host (afterEthr psuedoHeader frame)).nextType =
      transportType (byteAt frame 23) := congrArg transportType ipFrame.payload_protocol
  have fields : encoded frame =
      [(Header.ethr (ethrObj frame)).fields, (Header.ip (ipObj host (payload frame))).fields] ++
        encodedData frame := by
    rw [encoded, if_pos ip, ipFrame.ip_fields host]
    rfl
  rw [readResult, if_pos next, fields, lastLayer, transport, transportType]
  by_cases icmp : byteAt frame 23 = icmpProtocol
  · rw [if_pos icmp, ← ipFrame.icmp_fields icmp host]
    rfl
  by_cases tcp : byteAt frame 23 = tcpProtocol
  · rw [if_neg icmp, if_pos tcp, ← ipFrame.tcp_fields tcp host _]
    rfl
  by_cases udp : byteAt frame 23 = udpProtocol
  · rw [if_neg icmp, if_neg tcp, if_pos udp, ← ipFrame.udp_fields udp host]
    rfl
  · rw [if_neg icmp, if_neg tcp, if_neg udp, encodedData, if_neg icmp, if_neg tcp, if_neg udp]
    rfl

theorem ArpFrame.headers_eq (arpFrame : ArpFrame frame) (host : ByteOrder)
    (psuedoHeader : List UInt8) :
    (readResult host psuedoHeader frame).headers.map Header.fields = encoded frame := by
  obtain ⟨arp, long⟩ := arpFrame
  have notIp : wordAt frame 12 ≠ ipTypeNo := by rw [arp]; decide
  have next : (afterEthr psuedoHeader frame).nextType = .arp := by
    simp only [afterEthr, if_neg notIp, if_pos arp]
  have fields : (Header.arp (arpObj (payload frame))).fields = encodedArp frame := by
    simp only [Header.fields, arpObj, encodedArp, payload]
    rw [wordAt_slice frame (by omega), slice_slice frame (by omega), slice_slice frame (by omega),
      slice_slice frame (by omega), slice_slice frame (by omega)]
  rw [readResult, if_neg (by rw [next]; decide), encoded, if_neg notIp, if_pos arp, ← fields,
    lastLayer, next]
  rfl

end

/-! The report. -/

section

variable (verdict : String)

theorem ethrPrint2_fields (this : EthrObj) :
    ethrPrint2 this = (Header.ethr this).fields.text verdict := rfl

theorem arpPrint2_fields (this : ArpObj) :
    arpPrint2 this = (Header.arp this).fields.text verdict := rfl

theorem udpPrint2_fields (this : UdpObj) :
    udpPrint2 this = (Header.udp this).fields.text verdict := rfl

theorem icmpText_fields (type : UInt8) :
    icmpText type = (Header.icmp type).fields.text verdict := rfl

end

theorem ipHeaderText_fields (this : IpObj) (readChecksum : UInt16) :
    ipHeaderText this readChecksum =
      (Header.ip this).fields.text (checksumText this.checksum readChecksum) := rfl

theorem tcpHeaderText_fields (this : TcpObj) (readChecksum : UInt16) :
    tcpHeaderText this readChecksum =
      (Header.tcp this).fields.text (checksumText this.checksum readChecksum) := by
  unfold tcpHeaderText Header.fields Fields.text
  dsimp only
  simp only [decide_eq_true_eq]

def Machine.Printed (machine : Machine) : Prop :=
  Reports (machine.headers.map Header.fields) machine.output

theorem Machine.Printed.header {machine next : Machine} (printed : machine.Printed)
    {header : Header} {text : String} {checksum readChecksum : UInt16}
    (same : text = header.fields.text (checksumText checksum readChecksum))
    (headers : next.headers = machine.headers ++ [header])
    (output : next.output = machine.output ++ text) : next.Printed := by
  rw [Printed, headers, output, same, List.map_append]
  exact .header _ checksum readChecksum printed

theorem afterEthr_printed (psuedoHeader frame : List UInt8) :
    (afterEthr psuedoHeader frame).Printed := by
  have printed := Reports.header (Header.ethr (ethrObj frame)).fields 0 0 .nothing
  rw [String.empty_append, ← ethrPrint2_fields] at printed
  exact printed

theorem afterIp_printed (host : ByteOrder) {machine : Machine} (printed : machine.Printed) :
    (afterIp host machine).Printed :=
  printed.header (ipHeaderText_fields (ipObj host machine.pdu) (wordAt machine.pdu 10)) rfl rfl

theorem lastLayer_printed (host : ByteOrder) {machine : Machine} (printed : machine.Printed) :
    (lastLayer host machine).Printed := by
  rw [lastLayer]
  split
  · exact printed.header (arpPrint2_fields (checksumText 0 0) _) rfl rfl
  · exact printed.header (udpPrint2_fields (checksumText 0 0) _) rfl rfl
  · exact printed.header (tcpHeaderText_fields _ _) rfl rfl
  · exact printed.header (icmpText_fields (checksumText 0 0) _) rfl rfl
  · exact printed
  · exact printed
  · exact printed

theorem readResult_printed (host : ByteOrder) (psuedoHeader frame : List UInt8) :
    (readResult host psuedoHeader frame).Printed := by
  have printed := afterEthr_printed psuedoHeader frame
  rw [readResult]
  split
  · exact lastLayer_printed host (afterIp_printed host printed)
  · exact lastLayer_printed host printed

def Decodes (host : ByteOrder) (psuedoHeader : List UInt8) (packet : Captured)
    (fields : List Fields) : Prop :=
  ∃ rounds final, readPacket host psuedoHeader packet rounds = .ok final ∧ final.AtEnd ∧
    final.headers.map Header.fields = fields ∧ Reports fields final.output

theorem decodes_iff {host : ByteOrder} {psuedoHeader : List UInt8} {packet : Captured}
    {fields : List Fields}
    (result : (readResult host psuedoHeader packet.bytes).headers.map Header.fields = fields) :
    Decodes host psuedoHeader packet fields ↔ Contained packet.bytes := by
  constructor
  · rintro ⟨rounds, final, reads, atEnd, _⟩
    exact (readPacket_iff.mp ⟨rounds, reads, atEnd⟩).1
  · intro contained
    have printed := readResult_printed host psuedoHeader packet.bytes
    obtain ⟨rounds, reads, atEnd⟩ := readPacket_iff.mpr ⟨contained, rfl⟩
    exact ⟨rounds, _, reads, atEnd, result, result ▸ printed⟩

/-- The fields of a well-formed packet are reported as they are encoded, unless it is a UDP
datagram below the minimum of `udp_init`. -/
theorem wellFormed_decodes_iff (host : ByteOrder) (psuedoHeader : List UInt8) (packet : Captured)
    (wellFormed : ArpFrame packet.bytes ∨ IpFrame packet.bytes) :
    Decodes host psuedoHeader packet (encoded packet.bytes) ↔
      packet.bytes.length < 2 ^ 31 ∧ ¬ShortUdp packet.bytes := by
  rcases wellFormed with arpFrame | ipFrame
  · rw [decodes_iff (arpFrame.headers_eq host psuedoHeader), arpFrame.contained_iff]
  · rw [decodes_iff (ipFrame.headers_eq host psuedoHeader), ipFrame.contained_iff]

def ipPacket (protocol : UInt8) (data : List UInt8) : List UInt8 :=
  List.replicate 12 0 ++ [8, 0] ++ [69, 0, 0, 20 + UInt8.ofNat data.length, 0, 0, 0, 0, 64,
    protocol, 0, 0, 10, 0, 0, 1, 10, 0, 0, 2] ++ data

def echoRequest : Captured := ⟨ipPacket icmpProtocol [8], by decide⟩

theorem wellFormed_decodes_echoRequest : Decodes .little [] echoRequest
    [.ethernet (List.replicate 6 0) (List.replicate 6 0) ipTypeNo,
      .ip 0 64 icmpProtocol [10, 0, 0, 1] [10, 0, 0, 2], .icmp 8] := by
  have ipFrame : IpFrame echoRequest.bytes := by
    constructor <;> decide
  exact (wellFormed_decodes_iff .little [] echoRequest (.inr ipFrame)).mpr
    ⟨by decide, fun short => absurd short.2.1 (by decide)⟩

def emptyDatagram : Captured := ⟨ipPacket udpProtocol [0, 53, 0, 53, 0, 8, 0, 0], by decide⟩

/-- `udp_init` refuses the datagram, which has its 8 bytes, and `udp` prints the object it was
not given. -/
theorem emptyDatagram_undecoded : IpFrame emptyDatagram.bytes ∧
    ¬Decodes .little [] emptyDatagram (encoded emptyDatagram.bytes) := by
  have ipFrame : IpFrame emptyDatagram.bytes := by
    constructor <;> decide
  refine ⟨ipFrame, ?_⟩
  rw [decodes_iff (ipFrame.headers_eq .little []), ipFrame.contained_iff]
  rintro ⟨_, notShort⟩
  exact notShort ⟨by decide, by decide, by decide⟩

end Trace
