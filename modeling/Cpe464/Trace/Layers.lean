import Cpe464.Trace.TraceCore

/-!
What the layers of trace do. A layer has a result exactly when the lengths it uses agree with
the bytes it has, and the result is the one read off the block.
-/

namespace Trace

open Bytes Memory

theorem asInt_eq (value : Nat) (small : value < 2 ^ 31) : asInt value = value := by
  rw [asInt, Int.bmod_def]
  omega

theorem asInt_natural (value : Nat) (bound : value < 2 ^ 32) :
    0 ≤ asInt value ↔ value < 2 ^ 31 := by
  rw [asInt, Int.bmod_def]
  omega

def ihlAt (block : List UInt8) (offset : Nat) : Nat := 4 * ((byteAt block offset).toNat % 16)

theorem ihl_toNat (first : UInt8) : (4 * (first &&& 0x0F)).toNat = 4 * (first.toNat % 16) := by
  have mask : (first &&& 0x0F).toNat = first.toNat % 16 := by
    rw [UInt8.toNat_and]
    exact Nat.and_two_pow_sub_one_eq_mod first.toNat 4
  rw [UInt8.toNat_mul, mask]
  have below := Nat.mod_lt first.toNat (by decide : 0 < 16)
  exact Nat.mod_eq_of_lt (by simp only [UInt8.reduceToNat]; omega)

theorem inCksum_eq_ok {host : ByteOrder} {addr : List UInt8} {len : Nat} {sum : UInt16} :
    inCksum host addr len = .ok sum ↔ len ≤ addr.length ∧ sum = cksum host (slice addr 0 len) := by
  simp only [inCksum, bind_eq_ok, copy_eq_ok, Int.toNat_natCast, and_assoc, exists_and_left,
    exists_eq_left, Except.ok.injEq, @eq_comm _ sum]
  constructor
  · rintro ⟨_, inside, same⟩
    exact ⟨by omega, same⟩
  · rintro ⟨inside, same⟩
    exact ⟨by omega, by omega, same⟩

theorem inCksum_whole {host : ByteOrder} {addr : List UInt8} {len : Int}
    (same : len = addr.length) : inCksum host addr len = .ok (cksum host addr) := by
  rw [same, inCksum_eq_ok, slice_whole]
  exact ⟨Nat.le_refl _, rfl⟩

theorem refused_eq_ok {α : Type} {short : Prop} [Decidable short] {made : Checked (Option α)}
    {this : α} : (if short then .ok none else made) = .ok (some this) ↔
      ¬short ∧ made = .ok (some this) := by
  split
  · rename_i holds
    constructor
    · intro failed
      cases failed
    · rintro ⟨long, _⟩
      exact absurd holds long
  · rename_i long
    rw [and_iff_right long]

def ethrObj (frame : List UInt8) : EthrObj where
  frame
  frameLength := frame.length
  dest := slice frame 0 6
  src := slice frame 6 6
  type := wordAt frame 12
  data := slice frame 14 (frame.length - 14)
  dataLength := frame.length - 14

theorem ethrInit_eq_ok {packet : Captured} {this : EthrObj} :
    ethrInit packet = .ok (some this) ↔
      (14 ≤ packet.bytes.length ∧ packet.bytes.length < 2 ^ 31) ∧ this = ethrObj packet.bytes := by
  have natural := asInt_natural packet.bytes.length packet.caplen_lt
  simp only [ethrInit, eFrameSize, macLength, refused_eq_ok, bind_eq_ok, copy_eq_ok,
    fetchWord_eq_ok, and_assoc, exists_and_left, exists_eq_left, Except.ok.injEq,
    Option.some.injEq, natural]
  by_cases small : packet.bytes.length < 2 ^ 31
  · have dataLength : ((packet.bytes.length : Int) - (14 : Nat)).toNat =
        packet.bytes.length - 14 := by omega
    rw [asInt_eq packet.bytes.length small, Int.toNat_natCast, slice_whole, dataLength]
    constructor
    · rintro ⟨_, _, _, _, _, _, _, _, _, _, made⟩
      exact ⟨by omega, small, made.symm⟩
    · rintro ⟨long, _, rfl⟩
      and_intros
      all_goals first | omega | rfl
  · constructor
    · rintro ⟨_, smaller, _⟩
      exact absurd smaller small
    · rintro ⟨_, smaller, _⟩
      exact absurd smaller small

def afterEthr (psuedoHeader : List UInt8) (frame : List UInt8) : Machine where
  nextType := if wordAt frame 12 = ipTypeNo then .ip else if wordAt frame 12 = arpTypeNo then .arp
    else .unknown
  pdu := slice frame 14 (frame.length - 14)
  pduLength := (slice frame 14 (frame.length - 14)).length
  psuedoHeader
  headers := [.ethr (ethrObj frame)]
  output := ethrPrint2 (ethrObj frame)

theorem ethr_eq_ok {psuedoHeader : List UInt8} {packet : Captured} {machine : Machine} :
    ethr psuedoHeader packet = .ok machine ↔
      (14 ≤ packet.bytes.length ∧ packet.bytes.length < 2 ^ 31) ∧
        machine = afterEthr psuedoHeader packet.bytes := by
  rw [ethr, bind_deref_eq_ok]
  simp only [ethrInit_eq_ok, and_assoc, exists_and_left, exists_eq_left]
  refine and_congr_right fun long => and_congr_right fun _ => ?_
  have length := slice_length packet.bytes (by omega : 14 + (packet.bytes.length - 14) ≤ _)
  have dataLength : (ethrObj packet.bytes).dataLength = (ethrObj packet.bytes).data.length := by
    simp only [ethrObj, length]
    omega
  have copies : ethrData (ethrObj packet.bytes) = .ok (ethrObj packet.bytes).data :=
    copy_whole dataLength
  simp only [copies, dataLength, bind_eq_ok, Except.ok.injEq, exists_eq_left']
  rw [@eq_comm _ _ machine]
  rfl

/-! The IP layer. -/

def IpFits (block : List UInt8) : Prop :=
  20 ≤ block.length ∧ ihlAt block 0 ≤ (wordAt block 2).toNat ∧
    (wordAt block 2).toNat ≤ block.length

instance (block : List UInt8) : Decidable (IpFits block) :=
  inferInstanceAs (Decidable (_ ∧ _ ∧ _))

def dataLengthAt (block : List UInt8) : Nat := (wordAt block 2).toNat - ihlAt block 0

def ipObj (host : ByteOrder) (block : List UInt8) : IpObj where
  frame := block
  frameLength := block.length
  tos := byteAt block 1
  ttl := byteAt block 8
  ihl := 4 * (byteAt block 0 &&& 0x0F)
  protocol := byteAt block 9
  length := wordAt block 2
  checksum := cksum host (slice block 0 (ihlAt block 0))
  dest := slice block 16 4
  src := slice block 12 4
  data := slice block (ihlAt block 0) (dataLengthAt block)
  dataLength := dataLengthAt block

theorem ipInit_eq_ok {host : ByteOrder} {block : List UInt8} {this : IpObj} :
    ipInit host block block.length = .ok (some this) ↔
      IpFits block ∧ this = ipObj host block := by
  have dataLength (header : ihlAt block 0 ≤ (wordAt block 2).toNat) :
      ((wordAt block 2).toNat : Int) - ihlAt block 0 = dataLengthAt block := by
    simp only [dataLengthAt]
    omega
  simp only [ipInit, ipMinSize, ipLength, refused_eq_ok, bind_eq_ok, copy_whole, fetch_eq_ok,
    fetchWord_eq_ok, copy_eq_ok, inCksum_eq_ok, ihl_toNat, and_assoc, exists_and_left,
    exists_eq_left, Except.ok.injEq, exists_eq_left', Option.some.injEq]
  rw [← ihlAt]
  constructor
  · rintro ⟨_, _, _, _, _, _, _, _, _, _, _, natural, inside, made⟩
    have header : ihlAt block 0 ≤ (wordAt block 2).toNat := by omega
    rw [dataLength header] at made
    exact ⟨⟨by omega, header, by omega⟩, made.symm⟩
  · rintro ⟨⟨long, header, inside⟩, rfl⟩
    have whole : ihlAt block 0 + dataLengthAt block = (wordAt block 2).toNat := by
      simp only [dataLengthAt]
      omega
    rw [dataLength header]
    and_intros
    all_goals first | omega | rfl

def transportType (protocol : UInt8) : NextType :=
  if protocol = icmpProtocol then .icmp else if protocol = tcpProtocol then .tcp
    else if protocol = udpProtocol then .udp else .payload

theorem transportType_ne_ip (protocol : UInt8) : transportType protocol ≠ .ip := by
  unfold transportType
  split
  · simp
  · split
    · simp
    · split <;> simp

def afterIp (host : ByteOrder) (machine : Machine) : Machine where
  nextType := transportType (byteAt machine.pdu 9)
  pdu := (ipObj host machine.pdu).data
  pduLength := dataLengthAt machine.pdu
  psuedoHeader := ipPsuedoHeader (ipObj host machine.pdu)
  headers := machine.headers ++ [.ip (ipObj host machine.pdu)]
  output := machine.output ++ ipHeaderText (ipObj host machine.pdu) (wordAt machine.pdu 10)

theorem ipObj_data_length (host : ByteOrder) {block : List UInt8} (fits : IpFits block) :
    (ipObj host block).data.length = dataLengthAt block := by
  obtain ⟨_, header, inside⟩ := fits
  apply slice_length
  simp only [dataLengthAt]
  omega

theorem ip_eq_ok {host : ByteOrder} {machine next : Machine}
    (whole : machine.pduLength = machine.pdu.length) :
    ip host machine = .ok next ↔ IpFits machine.pdu ∧ next = afterIp host machine := by
  rw [ip, whole, bind_deref_eq_ok]
  simp only [ipInit_eq_ok, ipPrint2, ipData, bind_eq_ok, fetchWord_eq_ok, and_assoc,
    exists_and_left, exists_eq_left, Except.ok.injEq, exists_eq_left']
  refine and_congr_right fun fits => ?_
  have copies : copy (ipObj host machine.pdu).data 0 (ipObj host machine.pdu).dataLength =
      .ok (ipObj host machine.pdu).data := by
    apply copy_whole
    rw [ipObj_data_length host fits]
    rfl
  have read : 10 + 1 < (ipObj host machine.pdu).frame.length := fits.1.trans_lt' (by omega)
  simp only [copies, Except.ok.injEq, exists_eq_left', read, true_and]
  rw [@eq_comm _ _ next]
  rfl

/-! The last layers. -/

def arpObj (block : List UInt8) : ArpObj where
  frame := block
  frameLength := block.length
  opcode := wordAt block 6
  destIp := slice block 24 4
  destMac := slice block 18 6
  srcIp := slice block 14 4
  srcMac := slice block 8 6

theorem arpInit_eq_ok {block : List UInt8} {this : ArpObj} :
    arpInit block block.length = .ok (some this) ↔ 28 ≤ block.length ∧ this = arpObj block := by
  simp only [arpInit, arpMinSize, macLength, ipLength, refused_eq_ok, bind_eq_ok, copy_whole,
    fetchWord_eq_ok, copy_eq_ok, and_assoc, exists_and_left, exists_eq_left, Except.ok.injEq,
    exists_eq_left', Option.some.injEq]
  constructor
  · rintro ⟨_, _, _, _, _, _, _, _, _, _, rfl⟩
    exact ⟨by omega, rfl⟩
  · rintro ⟨_, rfl⟩
    and_intros
    all_goals first | omega | rfl

def udpObj (block : List UInt8) : UdpObj where
  frame := block
  opcode := wordAt block 4
  dest := wordAt block 2
  src := wordAt block 0

theorem udpInit_eq_ok {block : List UInt8} {this : UdpObj} :
    udpInit block block.length = .ok (some this) ↔ 28 ≤ block.length ∧ this = udpObj block := by
  simp only [udpInit, udpMinSize, refused_eq_ok, bind_eq_ok, copy_whole, fetchWord_eq_ok,
    and_assoc, exists_and_left, exists_eq_left, Except.ok.injEq, exists_eq_left',
    Option.some.injEq]
  constructor
  · rintro ⟨_, _, _, _, rfl⟩
    exact ⟨by omega, rfl⟩
  · rintro ⟨_, rfl⟩
    and_intros
    all_goals first | omega | rfl

def tcpObj (host : ByteOrder) (block psuedo : List UInt8) : TcpObj where
  frame := block
  frameLength := block.length
  src := wordAt block 0
  dest := wordAt block 2
  seq := longAt block 4
  ack := longAt block 8
  window := wordAt block 14
  checksum := cksum host (psuedo.set 11 (UInt8.ofInt (block.length % 256)) ++ block)
  psuedo := psuedo.set 11 (UInt8.ofInt (block.length % 256))
  flags := byteAt block 13

theorem tcpInit_eq_ok {host : ByteOrder} {block psuedo : List UInt8} {this : TcpObj}
    (psuedoLength : psuedo.length = 12) :
    tcpInit host block psuedo block.length = .ok (some this) ↔
      16 ≤ block.length ∧ this = tcpObj host block psuedo := by
  have copies : copy psuedo 0 12 = .ok psuedo := copy_whole (by omega)
  have copiesSet (byte : UInt8) : copy (psuedo.set 11 byte) 0 12 = .ok (psuedo.set 11 byte) :=
    copy_whole (by rw [List.length_set]; omega)
  have sums (byte : UInt8) : inCksum host (psuedo.set 11 byte ++ block) (block.length + 12) =
      .ok (cksum host (psuedo.set 11 byte ++ block)) :=
    inCksum_whole (by rw [List.length_append, List.length_set]; omega)
  simp only [tcpInit, tcpChecksum, copies, copiesSet, sums, bind_eq_ok, copy_whole, fetch_eq_ok,
    fetchWord_eq_ok, fetchLong_eq_ok, and_assoc, exists_and_left, exists_eq_left,
    Except.ok.injEq, exists_eq_left', Option.some.injEq]
  constructor
  · rintro ⟨_, _, _, _, _, _, rfl⟩
    exact ⟨by omega, rfl⟩
  · rintro ⟨_, rfl⟩
    and_intros
    all_goals first | omega | rfl

def Machine.finish (machine : Machine) (header : Header) (text : String) : Machine :=
  { machine with
    nextType := .payload
    pdu := []
    headers := machine.headers ++ [header]
    output := machine.output ++ text }

section

variable {host : ByteOrder} {machine next : Machine}

theorem arp_eq_ok (whole : machine.pduLength = machine.pdu.length) :
    arp machine = .ok next ↔ 28 ≤ machine.pdu.length ∧
      next = machine.finish (.arp (arpObj machine.pdu)) (arpPrint2 (arpObj machine.pdu)) := by
  simp only [arp, Machine.finish, whole, bind_deref_eq_ok, arpInit_eq_ok, and_assoc,
    exists_and_left, exists_eq_left, Except.ok.injEq]
  rw [@eq_comm _ _ next]

theorem udp_eq_ok (whole : machine.pduLength = machine.pdu.length) :
    udp machine = .ok next ↔ 28 ≤ machine.pdu.length ∧
      next = machine.finish (.udp (udpObj machine.pdu)) (udpPrint2 (udpObj machine.pdu)) := by
  simp only [udp, Machine.finish, whole, bind_deref_eq_ok, udpInit_eq_ok, and_assoc,
    exists_and_left, exists_eq_left, Except.ok.injEq]
  rw [@eq_comm _ _ next]

theorem tcp_eq_ok (whole : machine.pduLength = machine.pdu.length)
    (psuedoLength : machine.psuedoHeader.length = 12) :
    tcp host machine = .ok next ↔ 18 ≤ machine.pdu.length ∧
      next = { machine.finish (.tcp (tcpObj host machine.pdu machine.psuedoHeader))
        (tcpHeaderText (tcpObj host machine.pdu machine.psuedoHeader) (wordAt machine.pdu 16)) with
          psuedoHeader := [] } := by
  rw [tcp, bind_deref_eq_ok]
  simp only [tcpPrint2, Machine.finish, whole, tcpInit_eq_ok psuedoLength, bind_eq_ok,
    fetchWord_eq_ok, and_assoc, exists_and_left, exists_eq_left, Except.ok.injEq, exists_eq_left']
  constructor
  · rintro ⟨_, long, rfl⟩
    exact ⟨long, rfl⟩
  · rintro ⟨long, rfl⟩
    have read : 16 + 1 < (tcpObj host machine.pdu machine.psuedoHeader).frame.length := long
    exact ⟨by omega, read, rfl⟩

theorem icmp_eq_ok : icmp machine = .ok next ↔ 1 ≤ machine.pdu.length ∧
    next = machine.finish (.icmp (byteAt machine.pdu 0)) (icmpText (byteAt machine.pdu 0)) := by
  simp only [icmp, Machine.finish, icmpType, bind_eq_ok, fetch_eq_ok, and_assoc, exists_and_left,
    exists_eq_left, Except.ok.injEq]
  rw [@eq_comm _ _ next]
  rfl

end

/-! The loop over the headers. -/

def Ends (host : ByteOrder) (machine final : Machine) : Prop :=
  ∃ rounds, layers host rounds machine = .ok final ∧ final.AtEnd

theorem ends_atEnd {host : ByteOrder} {machine final : Machine} (atEnd : machine.AtEnd) :
    Ends host machine final ↔ final = machine := by
  constructor
  · rintro ⟨rounds, taken, _⟩
    cases rounds with
    | zero => exact (Except.ok.inj taken).symm
    | succ rounds =>
        rw [layers, if_pos atEnd] at taken
        exact (Except.ok.inj taken).symm
  · rintro rfl
    exact ⟨0, rfl, atEnd⟩

theorem ends_step {host : ByteOrder} {machine final : Machine} (going : ¬machine.AtEnd) :
    Ends host machine final ↔ ∃ next, layer host machine = .ok next ∧ Ends host next final := by
  constructor
  · rintro ⟨rounds, taken, atEnd⟩
    cases rounds with
    | zero =>
        obtain rfl := Except.ok.inj taken
        exact absurd atEnd going
    | succ rounds =>
        rw [layers, if_neg going, bind_eq_ok] at taken
        obtain ⟨next, first, rest⟩ := taken
        exact ⟨next, first, rounds, rest, atEnd⟩
  · rintro ⟨next, first, rounds, rest, atEnd⟩
    refine ⟨rounds + 1, ?_, atEnd⟩
    rw [layers, if_neg going, bind_eq_ok]
    exact ⟨next, first, rest⟩

/-- Every header but that of IP is the last one, and IP does not carry IP. -/
theorem layer_next {host : ByteOrder} {machine next : Machine} (going : ¬machine.AtEnd)
    (taken : layer host machine = .ok next) :
    next.AtEnd ∨ (machine.nextType = .ip ∧ next.nextType ≠ .ip) := by
  cases type : machine.nextType with
  | unknown => exact absurd (.inl type) going
  | payload => exact absurd (.inr type) going
  | ip =>
      rw [layer, type] at taken
      simp only [ip, bind_eq_ok, Except.ok.injEq] at taken
      obtain ⟨_, _, this, _, _, _, _, _, rfl⟩ := taken
      exact .inr ⟨rfl, transportType_ne_ip this.protocol⟩
  | arp =>
      rw [layer, type] at taken
      simp only [arp, bind_eq_ok, Except.ok.injEq] at taken
      obtain ⟨_, _, _, _, rfl⟩ := taken
      exact .inl (.inr rfl)
  | udp =>
      rw [layer, type] at taken
      simp only [udp, bind_eq_ok, Except.ok.injEq] at taken
      obtain ⟨_, _, _, _, rfl⟩ := taken
      exact .inl (.inr rfl)
  | tcp =>
      rw [layer, type] at taken
      simp only [tcp, bind_eq_ok, Except.ok.injEq] at taken
      obtain ⟨_, _, _, _, _, _, rfl⟩ := taken
      exact .inl (.inr rfl)
  | icmp =>
      rw [layer, type] at taken
      simp only [icmp, bind_eq_ok, Except.ok.injEq] at taken
      obtain ⟨_, _, rfl⟩ := taken
      exact .inl (.inr rfl)

theorem layers_two {host : ByteOrder} {machine final : Machine} :
    layers host 2 machine = .ok final ↔ Ends host machine final := by
  by_cases atEnd : machine.AtEnd
  · rw [ends_atEnd atEnd, layers, if_pos atEnd, Except.ok.injEq, eq_comm]
  rw [ends_step atEnd, layers, if_neg atEnd, bind_eq_ok]
  refine exists_congr fun next => and_congr_right fun taken => ?_
  by_cases nextEnd : next.AtEnd
  · rw [ends_atEnd nextEnd, layers, if_pos nextEnd, Except.ok.injEq, eq_comm]
  rw [ends_step nextEnd, layers, if_neg nextEnd, bind_eq_ok]
  refine exists_congr fun last => and_congr_right fun taken' => ?_
  have lastEnd : last.AtEnd := by
    rcases layer_next nextEnd taken' with atEnd | ⟨again, _⟩
    · exact atEnd
    · rcases layer_next atEnd taken with atEnd | ⟨_, notIp⟩
      · exact absurd atEnd nextEnd
      · exact absurd again notIp
  rw [ends_atEnd lastEnd, layers, Except.ok.injEq, eq_comm]

def LastFits (nextType : NextType) (length : Nat) : Prop :=
  (nextType = .arp → 28 ≤ length) ∧ (nextType = .udp → 28 ≤ length) ∧
    (nextType = .tcp → 18 ≤ length) ∧ (nextType = .icmp → 1 ≤ length)

instance (nextType : NextType) (length : Nat) : Decidable (LastFits nextType length) :=
  inferInstanceAs (Decidable ((_ → _) ∧ (_ → _) ∧ (_ → _) ∧ (_ → _)))

def lastLayer (host : ByteOrder) (machine : Machine) : Machine :=
  match machine.nextType with
  | .arp => machine.finish (.arp (arpObj machine.pdu)) (arpPrint2 (arpObj machine.pdu))
  | .udp => machine.finish (.udp (udpObj machine.pdu)) (udpPrint2 (udpObj machine.pdu))
  | .tcp => { machine.finish (.tcp (tcpObj host machine.pdu machine.psuedoHeader))
      (tcpHeaderText (tcpObj host machine.pdu machine.psuedoHeader) (wordAt machine.pdu 16)) with
        psuedoHeader := [] }
  | .icmp => machine.finish (.icmp (byteAt machine.pdu 0)) (icmpText (byteAt machine.pdu 0))
  | .ip => machine
  | .unknown => machine
  | .payload => machine

theorem ends_last {host : ByteOrder} {machine final : Machine} (notIp : machine.nextType ≠ .ip)
    (whole : machine.pduLength = machine.pdu.length)
    (psuedoLength : machine.nextType = .tcp → machine.psuedoHeader.length = 12) :
    Ends host machine final ↔
      LastFits machine.nextType machine.pdu.length ∧ final = lastLayer host machine := by
  cases type : machine.nextType with
  | ip => exact absurd type notIp
  | unknown =>
      rw [ends_atEnd (.inl type)]
      simp [LastFits, lastLayer, type]
  | payload =>
      rw [ends_atEnd (.inr type)]
      simp [LastFits, lastLayer, type]
  | arp =>
      have going : ¬machine.AtEnd := by simp [Machine.AtEnd, type]
      rw [ends_step going, layer, type]
      simp only [arp_eq_ok whole, and_assoc, exists_and_left, exists_eq_left]
      rw [ends_atEnd (.inr rfl)]
      simp [LastFits, lastLayer, type]
  | udp =>
      have going : ¬machine.AtEnd := by simp [Machine.AtEnd, type]
      rw [ends_step going, layer, type]
      simp only [udp_eq_ok whole, and_assoc, exists_and_left, exists_eq_left]
      rw [ends_atEnd (.inr rfl)]
      simp [LastFits, lastLayer, type]
  | tcp =>
      have going : ¬machine.AtEnd := by simp [Machine.AtEnd, type]
      rw [ends_step going, layer, type]
      simp only [tcp_eq_ok whole (psuedoLength type), and_assoc, exists_and_left, exists_eq_left]
      rw [ends_atEnd (.inr rfl)]
      simp [LastFits, lastLayer, type]
  | icmp =>
      have going : ¬machine.AtEnd := by simp [Machine.AtEnd, type]
      rw [ends_step going, layer, type]
      simp only [icmp_eq_ok, and_assoc, exists_and_left, exists_eq_left]
      rw [ends_atEnd (.inr rfl)]
      simp [LastFits, lastLayer, type]

end Trace
