import Cpe464.Trace.Checksums

/-!
Whole capture files. The loop over the packets keeps the pseudo-header of one packet for the
next, and sums words in the order of the host; neither can be seen in what trace prints.
-/

namespace Trace

open Bytes Memory OnesComplement

def report (number : Nat) (packet : Captured) : String :=
  packetText number packet (readResult .big [] packet.bytes)

/-! The order of the bytes on the host. -/

section

variable (host other : ByteOrder)

theorem cksum_eq_zero_iff {words : List UInt8} (short : words.length ≤ 65533) :
    cksum host words = 0 ↔ cksum other words = 0 := by
  have small (order : ByteOrder) : wordSum order words < 2 ^ 31 := by
    have total := wordSum_le order words
    have halves : (words.length + 1) / 2 ≤ 32767 := by omega
    have limit := Nat.mul_le_mul_left 65535 halves
    omega
  have zero (order : ByteOrder) : cksum order words = 0 ↔ onesSum order words = 65535 := by
    have below := onesSum_lt order words
    rw [← UInt16.toNat_inj, cksum_toNat order words (small order)]
    change 65535 - onesSum order words = 0 ↔ _
    omega
  rw [zero, zero]
  exact onesSum_full_iff host other words

theorem checksumText_host {words : List UInt8} (short : words.length ≤ 65533)
    (readChecksum : UInt16) :
    checksumText (cksum host words) readChecksum =
      checksumText (cksum other words) readChecksum := by
  simp only [checksumText, ne_eq, cksum_eq_zero_iff host other short]

theorem ipHeaderText_host (block : List UInt8) (readChecksum : UInt16) :
    ipHeaderText (ipObj host block) readChecksum =
      ipHeaderText (ipObj other block) readChecksum := by
  have short : (slice block 0 (ihlAt block 0)).length ≤ 65533 := by
    have below := ihlAt_le block
    rw [slice, List.length_take]
    omega
  have same : checksumText (ipObj host block).checksum readChecksum =
      checksumText (ipObj other block).checksum readChecksum :=
    checksumText_host host other short readChecksum
  unfold ipHeaderText
  rw [same]
  rfl

theorem ipPsuedoHeader_host (block : List UInt8) :
    ipPsuedoHeader (ipObj host block) = ipPsuedoHeader (ipObj other block) := by
  simp only [ipPsuedoHeader, ipObj]

theorem tcpHeaderText_host {block psuedo : List UInt8}
    (short : psuedo.length + block.length ≤ 65533) (readChecksum : UInt16) :
    tcpHeaderText (tcpObj host block psuedo) readChecksum =
      tcpHeaderText (tcpObj other block psuedo) readChecksum := by
  have whole : (psuedo.set 11 (UInt8.ofInt (block.length % 256)) ++ block).length ≤ 65533 := by
    rw [List.length_append, List.length_set]
    exact short
  have same : checksumText (tcpObj host block psuedo).checksum readChecksum =
      checksumText (tcpObj other block psuedo).checksum readChecksum :=
    checksumText_host host other whole readChecksum
  unfold tcpHeaderText
  rw [same]
  rfl

end

/-! One packet. -/

theorem lastLayer_text (host other : ByteOrder) {machine twin : Machine}
    (type : machine.nextType = twin.nextType) (pdu : machine.pdu = twin.pdu)
    (output : machine.output = twin.output)
    (psuedo : machine.nextType = .tcp → machine.psuedoHeader = twin.psuedoHeader ∧
      machine.psuedoHeader.length + machine.pdu.length ≤ 65533) :
    (lastLayer host machine).output = (lastLayer other twin).output ∧
      (lastLayer host machine).nextType = (lastLayer other twin).nextType := by
  unfold lastLayer
  rw [← type, ← pdu]
  cases last : machine.nextType with
  | tcp =>
      obtain ⟨same, short⟩ := psuedo last
      simp only [Machine.finish, output, ← same, tcpHeaderText_host host other short, and_self]
  | arp | udp | icmp => simp only [Machine.finish, output, and_self]
  | ip | unknown | payload =>
      rw [last] at type
      simp only [output, last, ← type, and_self]

theorem packetText_report (host : ByteOrder) (psuedoHeader : List UInt8) (number : Nat)
    {packet : Captured} (contained : Contained packet.bytes)
    (short : packet.bytes.length ≤ 65535) :
    packetText number packet (readResult host psuedoHeader packet.bytes) =
      report number packet := by
  have alike : (readResult host psuedoHeader packet.bytes).output =
        (readResult .big [] packet.bytes).output ∧
      (readResult host psuedoHeader packet.bytes).nextType =
        (readResult .big [] packet.bytes).nextType := by
    by_cases ip : wordAt packet.bytes 12 = ipTypeNo
    · obtain ⟨⟨long, _⟩, _, announced⟩ := contained
      obtain ⟨fits, _⟩ := announced ip
      have next (psuedo : List UInt8) : (afterEthr psuedo packet.bytes).nextType = .ip := if_pos ip
      rw [readResult, readResult, if_pos (next psuedoHeader), if_pos (next [])]
      refine lastLayer_text host .big rfl rfl ?_ ?_
      · simp only [afterIp, ipHeaderText_host host .big]
        rfl
      · intro _
        refine ⟨ipPsuedoHeader_host host .big (payload packet.bytes), ?_⟩
        have pseudo : (ipPsuedoHeader (ipObj host (payload packet.bytes))).length = 12 :=
          ipPsuedoHeader_length fits
        have data := ipObj_data_length host fits
        have length := payload_length long
        have total : dataLengthAt (payload packet.bytes) ≤ (payload packet.bytes).length :=
          (Nat.sub_le _ _).trans fits.2.2
        change (ipPsuedoHeader (ipObj host (payload packet.bytes))).length +
          (ipObj host (payload packet.bytes)).data.length ≤ 65533
        omega
    · have next (psuedo : List UInt8) : (afterEthr psuedo packet.bytes).nextType =
          if wordAt packet.bytes 12 = arpTypeNo then .arp else .unknown := if_neg ip
      have notIp (psuedo : List UInt8) : (afterEthr psuedo packet.bytes).nextType ≠ .ip := by
        rw [next]
        split <;> simp
      rw [readResult, readResult, if_neg (notIp psuedoHeader), if_neg (notIp [])]
      refine lastLayer_text host .big rfl rfl rfl ?_
      intro tcp
      rw [next] at tcp
      split at tcp <;> cases tcp
  unfold report packetText
  rw [alike.1, alike.2]

/-! The loop over the packets. -/

theorem mainLoop_text (host : ByteOrder) {packets : List Captured}
    (short : ∀ packet ∈ packets, packet.bytes.length ≤ 65535) (number : Nat)
    (psuedoHeader : List UInt8) (text : String) :
    mainLoop host number psuedoHeader packets = .ok text ↔
      (∀ packet ∈ packets, Contained packet.bytes) ∧
        text = String.join (packets.mapIdx fun index packet => report (number + index) packet) := by
  induction packets generalizing number psuedoHeader text with
  | nil => simp [mainLoop, eq_comm]
  | cons packet rest ih =>
      obtain ⟨size, sizes⟩ := List.forall_mem_cons.mp short
      have behind (index : Nat) : number + 1 + index = number + (index + 1) := by omega
      simp only [mainLoop, bind_eq_ok, readPacket_two, ih sizes, List.forall_mem_cons,
        List.mapIdx_cons, String.join_cons, behind, Nat.add_zero, Except.ok.injEq]
      constructor
      · rintro ⟨_, ⟨contained, rfl⟩, _, ⟨others, rfl⟩, rfl⟩
        exact ⟨⟨contained, others⟩, by rw [packetText_report host psuedoHeader number contained size]⟩
      · rintro ⟨⟨contained, others⟩, rfl⟩
        refine ⟨_, ⟨contained, rfl⟩, _, ⟨others, rfl⟩, ?_⟩
        rw [packetText_report host psuedoHeader number contained size]

/-- Trace reads a capture file to its end exactly when each packet is contained. It has then
printed, in order, what it prints for each packet alone, on hosts of both byte orders. -/
theorem capture_printed (host : ByteOrder) (psuedoHeader : List UInt8) (packets : List Captured)
    (short : ∀ packet ∈ packets, packet.bytes.length ≤ 65535) :
    ((∃ text, mainLoop host 1 psuedoHeader packets = .ok text) ↔
      ∀ packet ∈ packets, Contained packet.bytes) ∧
    ∀ text, mainLoop host 1 psuedoHeader packets = .ok text → ∃ texts : List String,
      (packets.mapIdx fun index packet => mainLoop .big (index + 1) [] [packet]) =
        texts.map .ok ∧ text = String.join texts := by
  refine ⟨mainLoop_iff, ?_⟩
  intro text reads
  obtain ⟨contained, rfl⟩ := (mainLoop_text host short 1 psuedoHeader text).mp reads
  refine ⟨_, List.ext_getElem (by simp) ?_, rfl⟩
  intro index inside _
  rw [List.length_mapIdx] at inside
  have member := List.getElem_mem inside
  rw [List.getElem_mapIdx, List.getElem_map, List.getElem_mapIdx]
  rw [mainLoop_text .big (by simpa using short _ member)]
  simpa [Nat.add_comm 1] using contained _ member

def mixedCapture : List Captured :=
  [⟨List.replicate 12 0 ++ [8, 6] ++ List.replicate 7 0 ++ [1] ++ List.replicate 20 0, by decide⟩,
    ⟨List.replicate 12 0 ++ [8, 0] ++ paddedPacket, by decide⟩]

theorem capture_printed_mixed : ∃ texts : List String,
    mainLoop .little 1 [] mixedCapture = .ok (String.join texts) ∧
      (mixedCapture.mapIdx fun index packet => mainLoop .big (index + 1) [] [packet]) =
        texts.map .ok := by
  obtain ⟨reads, prints⟩ := capture_printed .little [] mixedCapture (by decide)
  obtain ⟨text, printed⟩ := reads.mpr (by decide)
  obtain ⟨texts, alone, rfl⟩ := prints text printed
  exact ⟨texts, printed, alone⟩

end Trace
