import Cpe464.Trace.Layers

/-!
Which captured packets trace reads inside their bytes. Every layer but TCP and ICMP refuses
short input, but no caller looks at the answer, so the lengths have to agree by themselves.
-/

namespace Trace

open Bytes Memory

def payload (frame : List UInt8) : List UInt8 := slice frame 14 (frame.length - 14)

theorem payload_length {frame : List UInt8} (long : 14 ≤ frame.length) :
    (payload frame).length = frame.length - 14 := slice_length frame (by omega)

def SegmentFits (protocol : UInt8) (length : Nat) : Prop :=
  (protocol = icmpProtocol → 1 ≤ length) ∧ (protocol = tcpProtocol → 18 ≤ length) ∧
    (protocol = udpProtocol → 28 ≤ length)

instance (protocol : UInt8) (length : Nat) : Decidable (SegmentFits protocol length) :=
  inferInstanceAs (Decidable ((_ → _) ∧ (_ → _) ∧ (_ → _)))

def PayloadFits (frame : List UInt8) : Prop :=
  (wordAt frame 12 = arpTypeNo → 28 ≤ (payload frame).length) ∧
  (wordAt frame 12 = ipTypeNo → IpFits (payload frame) ∧
    SegmentFits (byteAt (payload frame) 9) (dataLengthAt (payload frame)))

instance (frame : List UInt8) : Decidable (PayloadFits frame) :=
  inferInstanceAs (Decidable ((_ → _) ∧ (_ → _ ∧ _)))

def Contained (frame : List UInt8) : Prop :=
  (14 ≤ frame.length ∧ frame.length < 2 ^ 31) ∧ PayloadFits frame

instance (frame : List UInt8) : Decidable (Contained frame) :=
  inferInstanceAs (Decidable ((_ ∧ _) ∧ _))

theorem lastFits_transport (protocol : UInt8) (length : Nat) :
    LastFits (transportType protocol) length ↔ SegmentFits protocol length := by
  unfold transportType SegmentFits
  by_cases icmp : protocol = icmpProtocol
  · have notTcp : protocol ≠ tcpProtocol := by rw [icmp]; decide
    have notUdp : protocol ≠ udpProtocol := by rw [icmp]; decide
    simp [LastFits, eq_true icmp, notTcp, notUdp]
  by_cases tcp : protocol = tcpProtocol
  · have notUdp : protocol ≠ udpProtocol := by rw [tcp]; decide
    simp [LastFits, icmp, eq_true tcp, notUdp]
  by_cases udp : protocol = udpProtocol
  · simp [LastFits, icmp, tcp, eq_true udp]
  · simp [LastFits, icmp, tcp, udp]

theorem ipPsuedoHeader_length {host : ByteOrder} {block : List UInt8} (fits : IpFits block) :
    (ipPsuedoHeader (ipObj host block)).length = 12 := by
  have long := fits.1
  have src := slice_length block (by omega : 12 + 4 ≤ _)
  have dest := slice_length block (by omega : 16 + 4 ≤ _)
  simp [ipPsuedoHeader, ipObj, src, dest]

def readResult (host : ByteOrder) (psuedoHeader frame : List UInt8) : Machine :=
  let machine := afterEthr psuedoHeader frame
  if machine.nextType = .ip then lastLayer host (afterIp host machine)
  else lastLayer host machine

theorem readPacket_ends {host : ByteOrder} {psuedoHeader : List UInt8} {packet : Captured}
    {final : Machine} :
    (∃ rounds, readPacket host psuedoHeader packet rounds = .ok final ∧ final.AtEnd) ↔
      (14 ≤ packet.bytes.length ∧ packet.bytes.length < 2 ^ 31) ∧
        Ends host (afterEthr psuedoHeader packet.bytes) final := by
  simp only [readPacket, bind_eq_ok, ethr_eq_ok, and_assoc, exists_and_left, exists_eq_left, Ends]

theorem afterIp_ends {host : ByteOrder} {machine final : Machine} (fits : IpFits machine.pdu) :
    Ends host (afterIp host machine) final ↔
      SegmentFits (byteAt machine.pdu 9) (dataLengthAt machine.pdu) ∧
        final = lastLayer host (afterIp host machine) := by
  have length := ipObj_data_length host fits
  rw [ends_last (transportType_ne_ip _) (by simp only [afterIp, length])
    (fun _ => ipPsuedoHeader_length fits)]
  simp only [afterIp, length, lastFits_transport]

theorem afterEthr_ends {host : ByteOrder} {psuedoHeader frame : List UInt8} {final : Machine} :
    Ends host (afterEthr psuedoHeader frame) final ↔
      PayloadFits frame ∧ final = readResult host psuedoHeader frame := by
  rw [readResult, PayloadFits]
  by_cases ip : wordAt frame 12 = ipTypeNo
  · have notArp : wordAt frame 12 ≠ arpTypeNo := by rw [ip]; decide
    have next : (afterEthr psuedoHeader frame).nextType = .ip := if_pos ip
    have going : ¬(afterEthr psuedoHeader frame).AtEnd := by simp [Machine.AtEnd, next]
    have layers (machine : Machine) :
        layer host (afterEthr psuedoHeader frame) = .ok machine ↔
          IpFits (payload frame) ∧ machine = afterIp host (afterEthr psuedoHeader frame) := by
      rw [layer, next]
      exact ip_eq_ok rfl
    rw [ends_step going, if_pos next]
    constructor
    · rintro ⟨machine, first, rest⟩
      obtain ⟨fits, rfl⟩ := (layers machine).mp first
      obtain ⟨segment, result⟩ := (afterIp_ends fits).mp rest
      exact ⟨⟨fun arp => absurd arp notArp, fun _ => ⟨fits, segment⟩⟩, result⟩
    · rintro ⟨⟨_, announced⟩, result⟩
      obtain ⟨fits, segment⟩ := announced ip
      exact ⟨_, (layers _).mpr ⟨fits, rfl⟩, (afterIp_ends fits).mpr ⟨segment, result⟩⟩
  · have next : (afterEthr psuedoHeader frame).nextType =
        if wordAt frame 12 = arpTypeNo then .arp else .unknown := if_neg ip
    have notIp : (afterEthr psuedoHeader frame).nextType ≠ .ip := by
      rw [next]
      split <;> simp
    have notTcp : (afterEthr psuedoHeader frame).nextType ≠ .tcp := by
      rw [next]
      split <;> simp
    rw [ends_last notIp rfl (fun tcp => absurd tcp notTcp), if_neg notIp]
    refine and_congr_left fun _ => ?_
    rw [LastFits, next]
    by_cases arp : wordAt frame 12 = arpTypeNo
    · simp [arp, ipTypeNo, arpTypeNo, payload, afterEthr]
    · simp [arp, ip]

theorem readPacket_iff {host : ByteOrder} {psuedoHeader : List UInt8} {packet : Captured}
    {final : Machine} :
    (∃ rounds, readPacket host psuedoHeader packet rounds = .ok final ∧ final.AtEnd) ↔
      Contained packet.bytes ∧ final = readResult host psuedoHeader packet.bytes := by
  rw [readPacket_ends, afterEthr_ends, Contained]
  exact (and_assoc).symm

/-- Trace reaches the end of a packet, without a read outside its bytes, a negative length or the
use of an object that was refused, exactly when the packet is contained. -/
theorem packet_contained_iff (host : ByteOrder) (psuedoHeader : List UInt8) (packet : Captured) :
    (∃ rounds final, readPacket host psuedoHeader packet rounds = .ok final ∧ final.AtEnd) ↔
      Contained packet.bytes := by
  constructor
  · rintro ⟨rounds, final, reads⟩
    exact (readPacket_iff.mp ⟨rounds, reads⟩).1
  · intro contained
    obtain ⟨rounds, reads⟩ := readPacket_iff.mpr ⟨contained, rfl⟩
    exact ⟨rounds, _, reads⟩

theorem readPacket_two {host : ByteOrder} {psuedoHeader : List UInt8} {packet : Captured}
    {machine : Machine} : readPacket host psuedoHeader packet 2 = .ok machine ↔
      Contained packet.bytes ∧ machine = readResult host psuedoHeader packet.bytes := by
  rw [← readPacket_iff, readPacket_ends]
  simp only [readPacket, bind_eq_ok, ethr_eq_ok, layers_two, and_assoc, exists_and_left,
    exists_eq_left]

/-- A capture file is read to its end exactly when all its packets are contained. -/
theorem mainLoop_iff {host : ByteOrder} {packets : List Captured} {cur : Nat}
    {psuedoHeader : List UInt8} :
    (∃ text, mainLoop host cur psuedoHeader packets = .ok text) ↔
      ∀ packet ∈ packets, Contained packet.bytes := by
  induction packets generalizing cur psuedoHeader with
  | nil => simp [mainLoop]
  | cons packet rest ih =>
      simp only [mainLoop, bind_eq_ok, readPacket_two, List.forall_mem_cons]
      constructor
      · rintro ⟨_, _, ⟨contained, _⟩, text, printed, _⟩
        exact ⟨contained, ih.mp ⟨text, printed⟩⟩
      · rintro ⟨contained, others⟩
        obtain ⟨text, printed⟩ := ih.mpr others
        exact ⟨_, _, ⟨contained, rfl⟩, text, printed, rfl⟩

def runt : Captured := ⟨List.replicate 13 0, by decide⟩

/-- `ethr_init` refuses the frame, and `ethr` prints the object it was not given. -/
theorem runt_uninitialised :
    (∀ rounds, readPacket .little [] runt rounds = .error .uninitialised) ∧
    ¬∃ rounds final, readPacket .little [] runt rounds = .ok final ∧ final.AtEnd := by
  have fails (rounds : Nat) : readPacket .little [] runt rounds = .error .uninitialised := rfl
  refine ⟨fails, ?_⟩
  rintro ⟨rounds, final, reads, _⟩
  rw [fails rounds] at reads
  cases reads

end Trace
