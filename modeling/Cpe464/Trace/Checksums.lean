import Cpe464.Trace.Containment
import Cpe464.Library.OnesComplement

/-!
The verdicts of trace on checksums. The accumulator of `in_cksum` is signed, and the longest
segment with its pseudo-header takes it to 2147188740 at most.
-/

namespace Trace

open Bytes Memory OnesComplement

theorem sumWords_eq (host : ByteOrder) (words : List UInt8) (start : Nat)
    (bound : start + wordSum host words < 2 ^ 31) :
    sumWords host words start = (start + wordSum host words : Nat) := by
  induction words using wordSum.induct generalizing start with
  | case1 => rfl
  | case2 last =>
      simp only [wordSum] at bound ⊢
      exact asInt_eq _ bound
  | case3 first second rest ih =>
      simp only [wordSum] at bound ⊢
      have added : asInt ((start : Int) + host.word first second) =
          (start + host.word first second : Nat) := asInt_eq _ (by omega)
      rw [sumWords, added, ih _ (by omega), Nat.add_assoc]

theorem wordSum_take_le (host : ByteOrder) (words : List UInt8) (count : Nat) :
    wordSum host (words.take count) ≤ 65535 * ((words.length + 1) / 2) := by
  have total := wordSum_le host (words.take count)
  have shorter : ((words.take count).length + 1) / 2 ≤ (words.length + 1) / 2 :=
    Nat.div_le_div_right (by rw [List.length_take]; omega)
  exact total.trans (Nat.mul_le_mul_left 65535 shorter)

theorem asInt_fold (sum : Nat) (bound : sum < 2 ^ 31) :
    asInt ((sum : Int) / 65536 + (sum : Int) % 65536) = (sum / 65536 + sum % 65536 : Nat) := by
  rw [asInt, Int.bmod_def]
  omega

theorem asInt_carry (once : Nat) (small : once < 2 ^ 30) :
    asInt ((once : Int) + (once : Int) / 65536) = (once + once / 65536 : Nat) := by
  rw [asInt, Int.bmod_def]
  omega

theorem complement_toNat (sum : Nat) : (UInt16.ofInt (-1 - sum)).toNat = 65535 - sum % 65536 := by
  rw [UInt16.ofInt, UInt16.toNat_ofNat']
  omega

theorem cksum_toNat (host : ByteOrder) (words : List UInt8)
    (bound : wordSum host words < 2 ^ 31) :
    (cksum host words).toNat = 65535 - onesSum host words := by
  have total : sumWords host words 0 = wordSum host words := by
    have added := sumWords_eq host words 0 (by omega)
    rwa [Nat.zero_add] at added
  rw [← fold_wordSum host words (by omega), fold]
  generalize wordSum host words = sum at bound total ⊢
  simp only [cksum, total]
  rw [asInt_fold sum bound, asInt_carry _ (by omega), complement_toNat]

/-! The verdicts. -/

def correctText (readChecksum : UInt16) : String :=
  "\n\t\tChecksum: Correct (0x" ++ hex readChecksum.toNat ++ ")"

/-- The checksum that an object keeps for these bytes. The accumulator of `in_cksum` holds the
sum of the words after each of them, and folding it loses no carry. -/
structure Exact (host : ByteOrder) (words : List UInt8) (checksum : UInt16) : Prop where
  accumulator : ∀ count, sumWords host (words.take count) 0 = wordSum host (words.take count) ∧
    wordSum host (words.take count) < 2 ^ 31
  folded : checksum.toNat = 65535 - onesSum host words
  verdict : ∀ readChecksum, checksumText checksum readChecksum = correctText readChecksum ↔
    onesSum .big words = 0xFFFF

theorem checksumText_correct_iff (checksum readChecksum : UInt16) :
    checksumText checksum readChecksum = correctText readChecksum ↔ checksum.toNat = 0 := by
  have zero : checksum.toNat = 0 ↔ checksum = 0 := by
    rw [← UInt16.toNat_inj]
    rfl
  unfold checksumText correctText
  rw [zero, String.append_left_inj, String.append_left_inj]
  by_cases right : checksum = 0
  · rw [if_neg (not_not_intro right)]
    exact iff_of_true rfl right
  · rw [if_pos right]
    exact iff_of_false (by decide) right

def Occurs (part whole : String) : Prop := ∃ before behind, whole = before ++ part ++ behind

theorem Occurs.append {part whole : String} (occurs : Occurs part whole) (more : String) :
    Occurs part (whole ++ more) := by
  obtain ⟨before, behind, rfl⟩ := occurs
  exact ⟨before, behind ++ more, String.append_assoc ..⟩

theorem occurs_last (before part : String) : Occurs part (before ++ part) :=
  ⟨before, "", (String.append_empty ..).symm⟩

theorem ipHeaderText_verdict (this : IpObj) (readChecksum : UInt16) :
    Occurs (checksumText this.checksum readChecksum) (ipHeaderText this readChecksum) := by
  unfold ipHeaderText
  iterate 5 apply Occurs.append
  exact occurs_last _ _

theorem tcpHeaderText_verdict (this : TcpObj) (readChecksum : UInt16) :
    Occurs (checksumText this.checksum readChecksum) (tcpHeaderText this readChecksum) := by
  unfold tcpHeaderText
  apply Occurs.append
  exact occurs_last _ _

theorem exact_cksum (host : ByteOrder) {words : List UInt8} (short : words.length ≤ 65527) :
    Exact host words (cksum host words) := by
  have small (count : Nat) : wordSum host (words.take count) < 2 ^ 31 := by
    have total := wordSum_take_le host words count
    have halves : (words.length + 1) / 2 ≤ 32764 := by omega
    have limit := Nat.mul_le_mul_left 65535 halves
    omega
  have folded := cksum_toNat host words (by simpa using small words.length)
  refine ⟨?_, folded, ?_⟩
  · intro count
    have added := sumWords_eq host (words.take count) 0 (by have := small count; omega)
    rw [Nat.zero_add] at added
    exact ⟨added, small count⟩
  · intro readChecksum
    have below := onesSum_lt host words
    rw [checksumText_correct_iff, folded, onesSum_full_iff .big host]
    omega

/-! The packets. -/

structure IpPacket (packet : List UInt8) : Prop where
  header : 20 ≤ ihlAt packet 0
  total : ihlAt packet 0 ≤ (wordAt packet 2).toNat
  captured : (wordAt packet 2).toNat ≤ packet.length

def ipHeader (packet : List UInt8) : List UInt8 := slice packet 0 (ihlAt packet 0)

def segment (packet : List UInt8) : List UInt8 :=
  slice packet (ihlAt packet 0) (dataLengthAt packet)

def pseudoHeader (packet : List UInt8) : List UInt8 :=
  slice packet 12 4 ++ slice packet 16 4 ++ [0, tcpProtocol] ++
    ByteOrder.big.split (UInt16.ofNat (dataLengthAt packet))

section

variable {packet : List UInt8}

theorem IpPacket.fits (ipPacket : IpPacket packet) : IpFits packet := by
  have header := ipPacket.header
  have total := ipPacket.total
  have captured := ipPacket.captured
  exact ⟨by omega, total, captured⟩

theorem IpPacket.segment_length (ipPacket : IpPacket packet) :
    (segment packet).length = dataLengthAt packet :=
  ipObj_data_length .big ipPacket.fits

theorem IpPacket.dataLength_le (ipPacket : IpPacket packet) : dataLengthAt packet ≤ 65515 := by
  have header := ipPacket.header
  have total := (wordAt packet 2).toNat_lt
  simp only [dataLengthAt]
  omega

theorem ihlAt_le (packet : List UInt8) : ihlAt packet 0 ≤ 60 := by
  simp only [ihlAt]
  omega

/-- `tcp_init` overwrites the low byte of the length with the same byte. -/
theorem IpPacket.psuedo_patched (ipPacket : IpPacket packet) (host : ByteOrder)
    (tcp : byteAt packet 9 = tcpProtocol) :
    (ipPsuedoHeader (ipObj host packet)).set 11
      (UInt8.ofInt ((dataLengthAt packet : Int) % 256)) = pseudoHeader packet := by
  have long := ipPacket.fits.1
  have source := slice_length packet (by omega : 12 + 4 ≤ _)
  have dest := slice_length packet (by omega : 16 + 4 ≤ _)
  have bound := ipPacket.dataLength_le
  have high : UInt8.ofInt ((dataLengthAt packet : Int) % 65536 / 256) =
      UInt8.ofNat ((UInt16.ofNat (dataLengthAt packet)).toNat / 256) := by
    rw [← UInt8.toNat_inj, UInt8.ofInt, UInt8.toNat_ofNat', UInt8.toNat_ofNat',
      UInt16.toNat_ofNat']
    omega
  have low : UInt8.ofInt ((dataLengthAt packet : Int) % 256) =
      UInt8.ofNat (UInt16.ofNat (dataLengthAt packet)).toNat := by
    rw [← UInt8.toNat_inj, UInt8.ofInt, UInt8.toNat_ofNat', UInt8.toNat_ofNat',
      UInt16.toNat_ofNat']
    omega
  simp only [ipPsuedoHeader, ipObj, tcp, pseudoHeader, ByteOrder.split, high, low]
  simp [source, dest]

theorem IpPacket.pseudoHeader_length (ipPacket : IpPacket packet) :
    (pseudoHeader packet).length = 12 := by
  have long := ipPacket.fits.1
  have source := slice_length packet (by omega : 12 + 4 ≤ _)
  have dest := slice_length packet (by omega : 16 + 4 ≤ _)
  simp [pseudoHeader, source, dest]

theorem IpPacket.ip_exact (ipPacket : IpPacket packet) (host : ByteOrder) :
    Exact host (ipHeader packet) (ipObj host packet).checksum := by
  apply exact_cksum
  have short := ihlAt_le packet
  have fits := ipPacket.fits
  rw [ipHeader, slice_length packet (by have := fits.2; omega)]
  omega

theorem IpPacket.tcp_exact (ipPacket : IpPacket packet) (host : ByteOrder)
    (tcp : byteAt packet 9 = tcpProtocol) :
    Exact host (pseudoHeader packet ++ segment packet)
      (tcpObj host (segment packet) (ipPsuedoHeader (ipObj host packet))).checksum := by
  have length := ipPacket.segment_length
  have bound := ipPacket.dataLength_le
  have pseudoLength := ipPacket.pseudoHeader_length
  have patched := ipPacket.psuedo_patched host tcp
  simp only [tcpObj]
  rw [length, patched]
  apply exact_cksum
  rw [List.length_append, pseudoLength, length]
  omega

end

/-- What trace prints about the checksums of an IP packet is exact, whatever the order of the
bytes on the host and whatever follows the packet. -/
theorem checksums_exact (host : ByteOrder) (machine : Machine) (packet : List UInt8)
    (ipPacket : IpPacket packet) :
    ∃ after this, ip host { machine with pdu := packet, pduLength := packet.length } = .ok after ∧
      after.output = machine.output ++ ipHeaderText this (wordAt packet 10) ∧
      Occurs (checksumText this.checksum (wordAt packet 10))
        (ipHeaderText this (wordAt packet 10)) ∧
      Exact host (ipHeader packet) this.checksum ∧
      (byteAt packet 9 = tcpProtocol → 20 ≤ dataLengthAt packet →
        ∃ final that, layer host after = .ok final ∧ final.AtEnd ∧
          final.output = after.output ++ tcpHeaderText that (wordAt (segment packet) 16) ∧
          Occurs (checksumText that.checksum (wordAt (segment packet) 16))
            (tcpHeaderText that (wordAt (segment packet) 16)) ∧
          Exact host (pseudoHeader packet ++ segment packet) that.checksum) := by
  have fits := ipPacket.fits
  generalize begun : { machine with pdu := packet, pduLength := packet.length } = start
  have sees : start.pdu = packet := by rw [← begun]
  have whole : start.pduLength = start.pdu.length := by rw [← begun]
  have printed : start.output = machine.output := by rw [← begun]
  rw [← sees] at fits ipPacket ⊢
  rw [← printed]
  refine ⟨afterIp host start, ipObj host start.pdu, (ip_eq_ok whole).mpr ⟨fits, rfl⟩, rfl,
    ipHeaderText_verdict _ _, ipPacket.ip_exact host, ?_⟩
  intro carries long
  have next : transportType (byteAt start.pdu 9) = .tcp := by
    rw [carries]
    rfl
  have length := ipPacket.segment_length
  have data : (afterIp host start).pduLength = (afterIp host start).pdu.length :=
    congrArg Nat.cast length.symm
  have enough : 18 ≤ (afterIp host start).pdu.length := by
    change 18 ≤ (segment start.pdu).length
    omega
  have taken := (@tcp_eq_ok host _ _ data (ipPsuedoHeader_length fits)).mpr ⟨enough, rfl⟩
  have steps : layer host (afterIp host start) = tcp host (afterIp host start) := by
    simp only [layer, afterIp, next]
  exact ⟨_, tcpObj host (segment start.pdu) (ipPsuedoHeader (ipObj host start.pdu)),
    steps.trans taken, .inr rfl, rfl, tcpHeaderText_verdict _ _, ipPacket.tcp_exact host carries⟩

def paddedPacket : List UInt8 :=
  [70, 0, 0, 45, 0, 0, 0, 0, 64, 6, 99, 200, 10, 0, 0, 1, 10, 0, 0, 2, 1, 1, 1, 0] ++
    [31, 144, 0, 80, 0, 0, 0, 1, 0, 0, 0, 2, 80, 24, 16, 0, 42, 230, 0, 0, 65] ++ [255]

theorem checksums_exact_padded : ∃ after final this that,
    ip .little (.mk .ip paddedPacket paddedPacket.length [] [] "") = .ok after ∧
    layer .little after = .ok final ∧
    after.output = ipHeaderText this 0x63C8 ∧
    final.output = after.output ++ tcpHeaderText that 0x2AE6 ∧
    checksumText this.checksum 0x63C8 = correctText 0x63C8 ∧
    checksumText that.checksum 0x2AE6 = correctText 0x2AE6 := by
  have ipPacket : IpPacket paddedPacket := by
    constructor <;> decide
  obtain ⟨after, this, taken, printed, _, header, carries⟩ :=
    checksums_exact .little (.mk .ip [] 0 [] [] "") paddedPacket ipPacket
  obtain ⟨final, that, takenTcp, _, printedTcp, _, segment⟩ := carries (by decide) (by decide)
  rw [String.empty_append] at printed
  exact ⟨after, final, this, that, taken, takenTcp, printed, printedTcp,
    (header.verdict _).mpr (by decide), (segment.verdict _).mpr (by decide)⟩

end Trace
