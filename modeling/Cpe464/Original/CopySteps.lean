import Cpe464.Original.CopyCore
import Cpe464.Original.Networks
import Cpe464.RemoteCopy.TransferSteps

/-!
The steps of the stop-and-wait copy on what can be in flight: datagrams of one kind, and the same
with a byte changed, which are received as CRC errors.
-/

namespace Original

open Bytes Channel
open RemoteCopy (Setup crcError asInt32 Direction)

theorem sendBuf_inverts {host : ByteOrder} {packet next : Buffer maxLen} {buf sent : List UInt8}
    {flag : UInt8} {seqNum : UInt32}
    (sends : sendBuf host packet buf flag seqNum = some (next, sent)) :
    ∃ behind, sent = datagram host seqNum flag buf behind ∧
      next.bytes.take sent.length = sent := by
  by_cases fits : buf.length + 8 ≤ maxLen
  · obtain ⟨other, behind, same, held⟩ := sendBuf_eq host packet buf flag seqNum fits
    obtain ⟨rfl, rfl⟩ := Prod.mk.inj (Option.some.inj (same.symm.trans sends))
    refine ⟨behind, rfl, ?_⟩
    rwa [datagram_length]
  · rw [sendBuf, if_neg fits] at sends
    cases sends

/-! What is in flight. -/

inductive Carries (host : ByteOrder) (kind : UInt32 → UInt8 → List UInt8 → Prop) : Flight → Prop
  | intact {seqNum flag data} (behind : UInt8) : kind seqNum flag data →
      Carries host kind (.intact (datagram host seqNum flag data behind))
  | changed {seqNum flag data} (behind : UInt8) (index : Nat) (byte : UInt8) :
      kind seqNum flag data → (datagram host seqNum flag data behind)[index]? ≠ none →
      (datagram host seqNum flag data behind)[index]? ≠ some byte →
      Carries host kind (.changed ((datagram host seqNum flag data behind).set index byte))

section

variable {host : ByteOrder} {kind other : UInt32 → UInt8 → List UInt8 → Prop} {flight : Flight}

theorem Carries.mono (carries : Carries host kind flight)
    (implied : ∀ seqNum flag data, kind seqNum flag data → other seqNum flag data) :
    Carries host other flight := by
  cases carries with
  | intact behind sent => exact .intact behind (implied _ _ _ sent)
  | changed behind index byte sent inside different =>
      exact .changed behind index byte (implied _ _ _ sent) inside different

theorem Carries.spoiled {damage : Damage} {worse : Flight} (carries : Carries host kind flight)
    (damaged : damage.spoiled flight = some worse) : Carries host kind worse := by
  cases carries with
  | intact behind sent =>
      simp only [Damage.spoiled, Option.bind_eq_bind, Option.bind_eq_some_iff] at damaged
      obtain ⟨old, found, damaged⟩ := damaged
      split at damaged
      · cases damaged
      · rename_i different
        obtain rfl := Option.some.inj damaged
        refine .changed behind _ _ sent ?_ ?_
        · rw [found]
          exact Option.some_ne_none old
        · rw [found]
          exact fun same => different (Option.some.inj same)
  | changed => cases damaged

theorem Carries.received (carries : Carries host kind flight) (receiver : ByteOrder)
    (stale : Buffer maxLen) {len : Nat} (limit : len ≤ maxLen)
    (fits : ∀ seqNum flag data, kind seqNum flag data → data.length + 8 ≤ len) :
    recvBuf receiver stale len flight.datagram = none ∨ ∃ seqNum flag data,
      kind seqNum flag data ∧
        recvBuf receiver stale len flight.datagram = some ⟨data.length, flag, seqNum, data⟩ := by
  have arrives {seqNum : UInt32} {flag : UInt8} {data : List UInt8} (behind : UInt8)
      (short : data.length + 8 ≤ len) :=
    recvBuf_datagram host receiver stale len limit seqNum flag data behind short
  cases carries with
  | intact behind sent => exact .inr ⟨_, _, _, sent, (arrives behind (fits _ _ _ sent)).1⟩
  | changed behind index byte sent inside different =>
      exact .inl ((arrives behind (fits _ _ _ sent)).2 index byte inside different)

end

/-! The server. -/

theorem sendData_cases {host : ByteOrder} {chunk : Option (List UInt8)} {unset : UInt8}
    {server next : Server} {sent : List (List UInt8)}
    (taken : sendData host chunk unset server = some (next, sent)) :
    (chunk = none ∧ next = { server with state := .done } ∧ sent = []) ∨
    (chunk = some [] ∧ ∃ packet packetLen behind,
      next = { server with state := .done, packet, packetLen } ∧
        sent = [datagram host (UInt32.ofInt server.seqNum) Flag.endOfFile.code [unset] behind]) ∨
    ∃ data, chunk = some data ∧ data ≠ [] ∧ server.seqNum + 1 < 2 ^ 31 ∧ ∃ packet behind,
      let frame := datagram host (UInt32.ofInt server.seqNum) Flag.data.code data behind
      packet.bytes.take frame.length = frame ∧ sent = [frame] ∧ next = { server with
        state := .waitOnAck
        packet
        packetLen := frame.length
        offset := server.offset + data.length
        seqNum := server.seqNum + 1 } := by
  unfold sendData at taken
  split at taken
  · obtain ⟨rfl, rfl⟩ := Prod.mk.inj (Option.some.inj taken)
    exact .inl ⟨rfl, rfl, rfl⟩
  · simp only [Option.bind_eq_bind, Option.bind_eq_some_iff] at taken
    obtain ⟨⟨packet, frame⟩, sends, taken⟩ := taken
    obtain ⟨rfl, rfl⟩ := Prod.mk.inj (Option.some.inj taken)
    obtain ⟨behind, rfl, _⟩ := sendBuf_inverts sends
    exact .inr (.inl ⟨rfl, packet, _, behind, rfl, rfl⟩)
  · rename_i data nonempty
    simp only [Option.bind_eq_bind, Option.bind_eq_some_iff] at taken
    obtain ⟨⟨packet, frame⟩, sends, taken⟩ := taken
    split at taken
    · rename_i small
      obtain ⟨rfl, rfl⟩ := Prod.mk.inj (Option.some.inj taken)
      obtain ⟨behind, rfl, held⟩ := sendBuf_inverts sends
      exact .inr (.inr ⟨data, rfl, nonempty, small, packet, behind, held, rfl, rfl⟩)
    · cases taken

theorem receiveAck_cases (host : ByteOrder) (stale : Buffer maxLen) (datagram : List UInt8)
    (server : Server) :
    let next := receiveAck host (some (stale, datagram)) server
    next = { server with state := .waitOnAck } ∨ next = { server with state := .exited } ∨
      next = { server with state := .sendData, sendCount := 0 } := by
  intro next
  simp only [next, receiveAck]
  split
  · exact .inl rfl
  · split
    · exact .inl rfl
    · split
      · exact .inr (.inl rfl)
      · exact .inr (.inr rfl)

def Uplink (_ : UInt32) (flag : UInt8) (data : List UInt8) : Prop :=
  flag = Flag.ack.code ∧ data.length ≤ 1

theorem receiveAck_uplink {sender : ByteOrder} (host : ByteOrder) {flight : Flight}
    (stale : Buffer maxLen)
    (carries : Carries sender Uplink flight) (server : Server) :
    let next := receiveAck host (some (stale, flight.datagram)) server
    next = { server with state := .waitOnAck } ∨
      next = { server with state := .sendData, sendCount := 0 } := by
  intro next
  have fits (seqNum : UInt32) (flag : UInt8) (data : List UInt8) (sent : Uplink seqNum flag data) :
      data.length + 8 ≤ 1000 := by
    have short := sent.2
    omega
  rcases carries.received host stale (by decide) fits with failed | ⟨_, _, data, ⟨rfl, _⟩, arrives⟩
  · exact .inl (by simp only [next, receiveAck, failed])
  · have length : ((data.length : Nat) : Int) ≠ crcError := by
      rw [crcError]
      omega
    exact .inr (by simp only [next, receiveAck, arrives, if_neg length, ne_eq, not_true_eq_false,
      if_false])

/-! The client. -/

inductive Downlink (setup : Setup) (count : Nat) (finished : Bool) :
    UInt32 → UInt8 → List UInt8 → Prop
  | fnameOk : Downlink setup count finished 0 Flag.fnameOk.code []
  | data {number : Nat} : 1 ≤ number → number ≤ count →
      Downlink setup count finished (UInt32.ofNat number) Flag.data.code (setup.chunk number)
  | endOfFile (seqNum : UInt32) (unset : UInt8) : finished = true →
      Downlink setup count finished seqNum Flag.endOfFile.code [unset]

theorem Downlink.mono {setup : Setup} {count later : Nat} {finished past : Bool} {seqNum : UInt32}
    {flag : UInt8} {data : List UInt8} (sent : Downlink setup count finished seqNum flag data)
    (more : count ≤ later) (still : finished = true → past = true) :
    Downlink setup later past seqNum flag data := by
  cases sent with
  | fnameOk => exact .fnameOk
  | data positive below => exact .data positive (Nat.le_trans below more)
  | endOfFile seqNum unset ended => exact .endOfFile seqNum unset (still ended)

theorem Downlink.length {setup : Setup} {count : Nat} {finished : Bool} {seqNum : UInt32}
    {flag : UInt8} {data : List UInt8} (sent : Downlink setup count finished seqNum flag data)
    {limit : Nat} (positive : 1 ≤ limit) (fits : setup.bufSize ≤ limit) : data.length ≤ limit := by
  cases sent with
  | fnameOk => exact Nat.zero_le _
  | data => exact Nat.le_trans (setup.chunk_length_le _) fits
  | endOfFile => exact positive

inductive Takes (client : Client) (ack : List UInt8) (seqNum : UInt32) (flag : UInt8)
    (data : List UInt8) : ClientStep → Prop
  | ends : flag = Flag.endOfFile.code →
      Takes client ack seqNum flag data ({ client with state := .done }, [], [ack])
  | writes : flag ≠ Flag.endOfFile.code → asInt32 seqNum.toNat = client.expected →
      Takes client ack seqNum flag data
        ({ client with expected := client.expected + 1 }, [data], [ack])
  | ignores : flag ≠ Flag.endOfFile.code → asInt32 seqNum.toNat ≠ client.expected →
      Takes client ack seqNum flag data (client, [], [ack])

theorem recvData_cases {sender host : ByteOrder} {kind : UInt32 → UInt8 → List UInt8 → Prop}
    {stale packet : Buffer maxLen} {flight : Flight} {client : Client} {step : ClientStep}
    (carries : Carries sender kind flight)
    (fits : ∀ seqNum flag data, kind seqNum flag data → data.length + 8 ≤ 1400)
    (taken : recvData host stale packet flight.datagram client = some step) :
    step = (client, [], []) ∨ ∃ seqNum flag data ack, kind seqNum flag data ∧
      Carries host Uplink (.intact ack) ∧ Takes client ack seqNum flag data step := by
  simp only [recvData] at taken
  rcases carries.received host stale (by decide) fits with
    failed | ⟨seqNum, flag, data, sent, arrives⟩
  · rw [failed] at taken
    exact .inl (Option.some.inj taken).symm
  · have length : ((data.length : Nat) : Int) ≠ crcError := by
      rw [crcError]
      omega
    simp only [arrives, if_neg length, Option.bind_eq_bind, Option.bind_eq_some_iff] at taken
    obtain ⟨⟨next, ack⟩, sends, taken⟩ := taken
    obtain ⟨behind, rfl, _⟩ := sendBuf_inverts sends
    have acknowledges : Carries host Uplink
        (.intact (datagram host 0 Flag.ack.code (packet.bytes.take 1) behind)) :=
      .intact behind ⟨rfl, List.length_take_le _ _⟩
    refine .inr ⟨seqNum, flag, data, _, sent, acknowledges, ?_⟩
    split at taken
    · rename_i past
      exact Option.some.inj taken ▸ .ends past
    · rename_i going
      split at taken
      · rename_i same
        split at taken
        · exact Option.some.inj taken ▸ .writes going same
        · cases taken
      · rename_i other
        exact Option.some.inj taken ▸ .ignores going other

theorem Downlink.small {setup : Setup} {count : Nat} {finished : Bool} {seqNum : UInt32}
    {flag : UInt8} {data : List UInt8} (sent : Downlink setup count finished seqNum flag data)
    (fits : setup.bufSize ≤ 1392) : data.length + 8 ≤ 1400 := by
  have short := sent.length (by decide) fits
  omega

theorem Downlink.taken {setup : Setup} {count : Nat} {finished : Bool} {seqNum : UInt32}
    {flag : UInt8} {data ack : List UInt8} {client : Client} {step : ClientStep}
    (sent : Downlink setup count finished seqNum flag data) (small : count + 1 < 2 ^ 31)
    (positive : 1 ≤ client.expected) (takes : Takes client ack seqNum flag data step) :
    (finished = true ∧ step = ({ client with state := .done }, [], [ack])) ∨
      step = (client, [], [ack]) ∨
      (client.expected.toNat ≤ count ∧ step = ({ client with expected := client.expected + 1 },
        [setup.chunk client.expected.toNat], [ack])) := by
  cases takes with
  | ends past =>
      cases sent with
      | fnameOk => cases past
      | data => cases past
      | endOfFile _ _ ended => exact .inl ⟨ended, rfl⟩
  | writes going same =>
      cases sent with
      | fnameOk =>
          rw [← same] at positive
          exact absurd positive (by decide)
      | @data number lower below =>
          rw [UInt32.toNat_ofNat', asInt32] at same
          have value : client.expected.toNat = number := by omega
          exact .inr (.inr ⟨by omega, by rw [value]⟩)
      | endOfFile => exact absurd rfl going
  | ignores => exact .inr (.inl rfl)

/-! What the two programs do with what they expect. -/

theorem sendData_chunk (host : ByteOrder) {data : List UInt8} (nonempty : data ≠ [])
    (fits : data.length + 8 ≤ maxLen) (unset : UInt8) (server : Server)
    (small : server.seqNum + 1 < 2 ^ 31) :
    ∃ packet behind, sendData host (some data) unset server = some ({ server with
      state := .waitOnAck
      packet
      packetLen := data.length + 8
      offset := server.offset + data.length
      seqNum := server.seqNum + 1 },
        [datagram host (UInt32.ofInt server.seqNum) Flag.data.code data behind]) ∧
      packet.bytes.take (data.length + 8) =
        datagram host (UInt32.ofInt server.seqNum) Flag.data.code data behind := by
  obtain ⟨packet, behind, sends, held⟩ :=
    sendBuf_eq host server.packet data Flag.data.code (UInt32.ofInt server.seqNum) fits
  refine ⟨packet, behind, ?_, held⟩
  cases data with
  | nil => exact absurd rfl nonempty
  | cons first rest =>
      simp only [sendData, sends, Option.bind_eq_bind, Option.bind_some, if_pos small,
        datagram_length]

theorem sendData_end (host : ByteOrder) (unset : UInt8) (server : Server) :
    ∃ packet behind, sendData host (some []) unset server =
      some ({ server with state := .done, packet, packetLen := 9 },
        [datagram host (UInt32.ofInt server.seqNum) Flag.endOfFile.code [unset] behind]) := by
  obtain ⟨packet, behind, sends, _⟩ :=
    sendBuf_eq host server.packet [unset] Flag.endOfFile.code (UInt32.ofInt server.seqNum)
      (by rw [List.length_singleton]; decide)
  refine ⟨packet, behind, ?_⟩
  simp only [sendData, sends, Option.bind_eq_bind, Option.bind_some, datagram_length,
    List.length_singleton]

theorem receiveAck_ack (sender host : ByteOrder) (stale : Buffer maxLen) (seqNum : UInt32)
    (data : List UInt8) (behind : UInt8) (short : data.length ≤ 1) (server : Server) :
    receiveAck host (some (stale, datagram sender seqNum Flag.ack.code data behind)) server =
      { server with state := .sendData, sendCount := 0 } := by
  have arrives := (recvBuf_datagram sender host stale 1000 (by decide) seqNum Flag.ack.code data
    behind (by omega)).1
  have length : ((data.length : Nat) : Int) ≠ crcError := by
    rw [crcError]
    omega
  simp only [receiveAck, arrives, if_neg length, ne_eq, not_true_eq_false, if_false]

theorem recvData_accepted (sender host : ByteOrder) (stale packet : Buffer maxLen)
    (seqNum : UInt32) (flag : UInt8) (data : List UInt8) (behind : UInt8)
    (fits : data.length + 8 ≤ 1400) (client : Client) (small : client.expected + 1 < 2 ^ 31) :
    ∃ unset behind', recvData host stale packet (datagram sender seqNum flag data behind) client =
      some (
        if flag = Flag.endOfFile.code then { client with state := .done }
        else if asInt32 seqNum.toNat = client.expected then
          { client with expected := client.expected + 1 }
        else client,
        if flag ≠ Flag.endOfFile.code ∧ asInt32 seqNum.toNat = client.expected then [data] else [],
        [datagram host 0 Flag.ack.code [unset] behind']) := by
  have arrives := (recvBuf_datagram sender host stale 1400 (by decide) seqNum flag data behind
    fits).1
  have length : ((data.length : Nat) : Int) ≠ crcError := by
    rw [crcError]
    omega
  obtain ⟨unset, single⟩ : ∃ unset, packet.bytes.take 1 = [unset] := by
    rw [← List.length_eq_one_iff, List.length_take, packet.length_eq]
    rfl
  obtain ⟨next, behind', sends, _⟩ := sendBuf_eq host packet [unset] Flag.ack.code 0
    (by rw [List.length_singleton]; decide)
  refine ⟨unset, behind', ?_⟩
  simp only [recvData, arrives, if_neg length, single, sends, Option.bind_eq_bind, Option.bind_some,
    if_pos small]
  by_cases past : flag = Flag.endOfFile.code
  · simp [past]
  · by_cases same : asInt32 seqNum.toNat = client.expected
    · simp [past, same]
    · simp [past, same]

end Original
