import Cpe464.Original.Exact

/-!
Runs of the stop-and-wait copy for every file: one without any trouble, and one where a timer that
runs out too early and a lost datagram lead to a copy without the last chunks.
-/

namespace Original

open Bytes Channel Transition
open RemoteCopy (Setup crcError asInt32 Direction)

def Event.troubled : Event → Bool
  | serverSend readFails _ => readFails
  | serverWait arrived => arrived.isNone
  | serverTimeout => true
  | clientReceive _ _ => false
  | clientTimeout => true
  | disturb _ _ => true

abbrev Runs (setup : Setup) : (Copy → Prop) → List Event → Copy → Prop :=
  Leads (Copy.step setup) fun _ _ _ => True

/-! Events of a run, with what is left of it. -/

def chunkFlight (setup : Setup) (number : Nat) (behind : UInt8) : Flight :=
  .intact (datagram setup.serverHost (UInt32.ofNat number) Flag.data.code (setup.chunk number) behind)

def ackFlight (setup : Setup) (unset behind : UInt8) : Flight :=
  .intact (datagram setup.clientHost 0 Flag.ack.code [unset] behind)

def receiving (setup : Setup) (server : Server) (written : Nat) (toServer toClient : List Flight) :
    Copy where
  server
  client := ⟨.recvData, written + 1⟩
  toServer
  toClient
  output := (List.range written).map fun index => setup.chunk (index + 1)
  ended := false
  finished := false

section

variable (stale packet : Buffer maxLen) {setup : Setup} {count written : Nat} {server : Server}
  {toServer toClient : List Flight} {after : Copy → Prop} {events : List Event}

theorem leads_send (state : server.state = .sendData) (offset : server.offset = setup.offset count)
    (seqNum : server.seqNum = count + 1) (before : count < setup.numChunks)
    (small : count + 2 < 2 ^ 31)
    (further : ∀ packet packetLen behind,
      .intact (packet.bytes.take packetLen) = chunkFlight setup (count + 1) behind →
      Runs setup after events (receiving setup
        ⟨.waitOnAck, packet, packetLen, setup.offset (count + 1), count + 2, server.sendCount⟩
        written toServer (toClient ++ [chunkFlight setup (count + 1) behind]))) :
    Runs setup after (.serverSend false 0 :: events)
      (receiving setup server written toServer toClient) := by
  have nonempty : setup.chunk (count + 1) ≠ [] := by
    rw [ne_eq, setup.chunk_eq_nil_iff]
    omega
  have short := setup.chunk_short (count + 1)
  obtain ⟨packet, behind, sends, held⟩ := sendData_chunk setup.serverHost nonempty
    (by simp only [RemoteCopy.maxPacketLength] at short; simp only [maxLen]; omega) 0 server
    (by omega)
  have number : UInt32.ofInt (count + 1) = UInt32.ofNat (count + 1) := ofInt_natCast (count + 1)
  rw [seqNum, number] at sends held
  refine ⟨_, ?_, trivial, further packet _ behind (congrArg _ held)⟩
  have more : (some (setup.chunk (count + 1)) == some []) = false := by
    simpa using nonempty
  simp only [Copy.step, receiving, state, if_true, serverSend, offset, setup.readFile_offset, sends,
    more, Option.bind_eq_bind, Option.bind_some, Bool.or_false, List.map_singleton, chunkFlight,
    setup.offset_succ, add_assoc]
  rfl

theorem leads_receive (fits : setup.bufSize ≤ 1392) (small : written + 2 < 2 ^ 31)
    {behind : UInt8} {rest : List Flight}
    (further : ∀ unset behind, Runs setup after events
      (receiving setup server (written + 1) (toServer ++ [ackFlight setup unset behind]) rest)) :
    Runs setup after (.clientReceive stale packet :: events)
      (receiving setup server written toServer
        (chunkFlight setup (written + 1) behind :: rest)) := by
  have length := setup.chunk_length_le (written + 1)
  obtain ⟨unset, behind', receives⟩ := recvData_accepted setup.serverHost setup.clientHost stale
    packet (UInt32.ofNat (written + 1)) Flag.data.code (setup.chunk (written + 1)) behind (by omega)
    ⟨.recvData, written + 1⟩ (by simp only; omega)
  refine ⟨_, ?_, trivial, further unset behind'⟩
  have same : asInt32 (UInt32.ofNat (written + 1)).toNat = written + 1 := by
    rw [UInt32.toNat_ofNat', asInt32]
    omega
  have other : ¬Flag.data.code = Flag.endOfFile.code := by decide
  simp only [other, same, if_false, if_true, ne_eq, not_false_eq_true, true_and] at receives
  simp only [Copy.step, clientReceive, receiving, chunkFlight, Flight.datagram, receives,
    Option.bind_eq_bind, Option.bind_some, List.map_singleton, List.range_succ, List.map_append]
  rfl

theorem leads_ignore (fits : setup.bufSize ≤ 1392) (small : written + 2 < 2 ^ 31)
    {number : Nat} (below : number < 2 ^ 31) (wrong : number ≠ written + 1)
    {behind : UInt8} {rest : List Flight}
    (further : ∀ unset behind, Runs setup after events
      (receiving setup server written (toServer ++ [ackFlight setup unset behind]) rest)) :
    Runs setup after (.clientReceive stale packet :: events)
      (receiving setup server written toServer (chunkFlight setup number behind :: rest)) := by
  have length := setup.chunk_length_le number
  obtain ⟨unset, behind', receives⟩ := recvData_accepted setup.serverHost setup.clientHost stale
    packet (UInt32.ofNat number) Flag.data.code (setup.chunk number) behind (by omega)
    ⟨.recvData, written + 1⟩ (by simp only; omega)
  refine ⟨_, ?_, trivial, further unset behind'⟩
  have different : asInt32 (UInt32.ofNat number).toNat ≠ written + 1 := by
    rw [UInt32.toNat_ofNat', asInt32]
    omega
  have other : ¬Flag.data.code = Flag.endOfFile.code := by decide
  simp only [other, different, if_false, and_false] at receives
  simp only [Copy.step, clientReceive, receiving, chunkFlight, Flight.datagram, receives,
    Option.bind_eq_bind, Option.bind_some, List.map_singleton, List.append_nil]
  rfl

theorem leads_ack {unset behind : UInt8} {rest : List Flight} (state : server.state = .waitOnAck)
    (patient : server.sendCount < 5)
    (further : Runs setup after events (receiving setup
      { server with state := .sendData, sendCount := 0 } written rest toClient)) :
    Runs setup after (.serverWait (some stale) :: events)
      (receiving setup server written (ackFlight setup unset behind :: rest) toClient) := by
  refine ⟨_, ?_, trivial, further⟩
  have more : ¬server.sendCount + 1 > 5 := by omega
  simp only [Copy.step, receiving, state, if_true, serverWait, if_neg more, ackFlight,
    Flight.datagram]
  rw [receiveAck_ack setup.clientHost setup.serverHost stale 0 [unset] behind (Nat.le_refl _)]

theorem leads_close (state : server.state = .sendData)
    (offset : server.offset = setup.offset setup.numChunks) (small : written + 2 < 2 ^ 31) :
    Runs setup (fun copy => copy.ended = true ∧
        copy.output = (List.range written).map fun index => setup.chunk (index + 1))
      [.serverSend false 0, .clientReceive stale packet]
      (receiving setup server written toServer []) := by
  have nothing : setup.chunk (setup.numChunks + 1) = [] :=
    (setup.chunk_eq_nil_iff _).mpr (Nat.le_refl _)
  obtain ⟨last, behind, sends⟩ := sendData_end setup.serverHost 0 server
  have past : ∃ next, (receiving setup server written toServer []).step setup
      (.serverSend false 0) = some next ∧ next.client = ⟨.recvData, written + 1⟩ ∧
        next.toClient = [.intact (datagram setup.serverHost (UInt32.ofInt server.seqNum)
          Flag.endOfFile.code [0] behind)] ∧
        next.output = (List.range written).map fun index => setup.chunk (index + 1) := by
    refine ⟨?next, ?taken, ?client, ?queue, ?output⟩
    case taken =>
      simp only [Copy.step, receiving, state, if_true, serverSend, offset, setup.readFile_offset,
        nothing, sends, Option.bind_eq_bind, Option.bind_some]
      rfl
    all_goals rfl
  obtain ⟨next, sent, client, queue, output⟩ := past
  obtain ⟨unset, behind', receives⟩ := recvData_accepted setup.serverHost setup.clientHost stale
    packet (UInt32.ofInt server.seqNum) Flag.endOfFile.code [0] behind
    (by rw [List.length_singleton]; decide) next.client (by rw [client]; simp only; omega)
  have closes : ∃ final, next.step setup (.clientReceive stale packet) = some final ∧
      final.ended = true ∧ final.output = next.output := by
    refine ⟨?final, ?taken, ?ended, ?same⟩
    case taken =>
      simp only [Copy.step, clientReceive, queue]
      rw [client] at receives ⊢
      simp only [Flight.datagram, receives, Option.bind_eq_bind, Option.bind_some]
      rfl
    case ended => exact Bool.or_true _
    case same => exact List.append_nil _
  obtain ⟨final, received, ended, same⟩ := closes
  exact ⟨next, sent, trivial, final, received, trivial, ended, same.trans output⟩

/-! Whole runs. -/

def Stage (setup : Setup) (count written : Nat) (copy : Copy) : Prop :=
  ∃ packet packetLen, copy = receiving setup
    ⟨.sendData, packet, packetLen, setup.offset count, count + 1, 0⟩ written [] []

def exchange : List Event :=
  [.serverSend false 0, .clientReceive stale packet, .serverWait (some stale)]

theorem leads_answer (setup : Setup) (packet stale : Buffer maxLen) (old : Buffer maxLen)
    (behind : UInt8) :
    Runs setup (Stage setup 0 0) [.clientReceive stale packet]
      (Copy.start setup old behind) := by
  have arrives := (recvBuf_datagram setup.serverHost setup.clientHost stale 1000 (by decide) 0
    Flag.fnameOk.code [] behind (by decide)).1
  refine ⟨?next, ?taken, trivial, old, 0, ?stage⟩
  case taken =>
    simp only [Copy.step, clientReceive, Copy.start, Flight.datagram, receiveAnswer, arrives]
    rfl
  case stage => simp [receiving, Setup.offset, crcError, Flag.code]

theorem Stage.exchanged {copy : Copy} (fits : setup.bufSize ≤ 1392)
    (few : setup.numChunks + 2 < 2 ^ 31) (before : count < setup.numChunks)
    (stage : Stage setup count count copy) :
    Runs setup (Stage setup (count + 1) (count + 1)) (exchange stale packet)
      copy := by
  obtain ⟨old, oldLen, rfl⟩ := stage
  refine leads_send rfl rfl rfl before (by omega) fun next len behind held => ?_
  refine leads_receive stale packet fits (by omega) fun unset behind' => ?_
  refine leads_ack stale rfl (by simp) ⟨next, len, ?_⟩
  simp [add_assoc]

theorem Stage.ignored {copy : Copy} (fits : setup.bufSize ≤ 1392)
    (few : setup.numChunks + 2 < 2 ^ 31) (before : count < setup.numChunks)
    (behind : written < count) (stage : Stage setup count written copy) :
    Runs setup (Stage setup (count + 1) written) (exchange stale packet)
      copy := by
  obtain ⟨old, oldLen, rfl⟩ := stage
  refine leads_send rfl rfl rfl before (by omega) fun next len behind held => ?_
  refine leads_ignore stale packet fits (by omega) (by omega) (by omega)
    fun unset behind' => ?_
  refine leads_ack stale rfl (by simp) ⟨next, len, ?_⟩
  simp [add_assoc]

theorem Stage.closed {copy : Copy} (small : written + 2 < 2 ^ 31)
    (stage : Stage setup setup.numChunks written copy) :
    Runs setup (fun copy => copy.ended = true ∧
        copy.output = (List.range written).map fun index => setup.chunk (index + 1))
      [.serverSend false 0, .clientReceive stale packet] copy := by
  obtain ⟨last, lastLen, rfl⟩ := stage
  exact leads_close stale packet rfl rfl small

/-- A timer that runs out with the chunk still under way: rcopy acknowledges the chunk twice, and
the server takes the second acknowledgement for that of the next chunk, which is lost. -/
def hasty : List Event :=
  [.serverSend false 0, .serverWait none, .serverTimeout, .clientReceive stale packet,
    .clientReceive stale packet, .serverWait (some stale), .serverSend false 0,
    .disturb .toClient (.lose 0), .serverWait (some stale)]

theorem Stage.skipped {copy : Copy} (fits : setup.bufSize ≤ 1392)
    (few : setup.numChunks + 2 < 2 ^ 31) (before : count + 1 < setup.numChunks)
    (stage : Stage setup count count copy) :
    Runs setup (Stage setup (count + 2) (count + 1)) (hasty stale packet)
      copy := by
  obtain ⟨old, oldLen, rfl⟩ := stage
  refine leads_send rfl rfl rfl (by omega) (by omega)
    fun first firstLen behind held => ?_
  refine ⟨_, rfl, trivial, _, rfl, trivial, ?_⟩
  change Runs _ _ _ (receiving setup
    ⟨.waitOnAck, first, firstLen, setup.offset (count + 1), count + 2, 1⟩ count []
    [chunkFlight setup (count + 1) behind, .intact (first.bytes.take firstLen)])
  rw [held]
  refine leads_receive stale packet fits (by omega) fun unset behind' => ?_
  refine leads_ignore stale packet fits (by omega) (by omega) (by omega)
    fun unset' behind'' => ?_
  refine leads_ack stale rfl (by simp) ?_
  refine leads_send rfl rfl rfl before (by omega)
    fun second secondLen other held => ?_
  refine ⟨_, rfl, trivial, ?_⟩
  change Runs _ _ _ (receiving setup
    ⟨.waitOnAck, second, secondLen, setup.offset (count + 1 + 1), (count + 1 : Nat) + 2, 0⟩
    (count + 1) [ackFlight setup unset' behind''] [])
  refine leads_ack stale rfl (by simp) ⟨second, secondLen, ?_⟩
  simp [add_assoc]

end

theorem exchange_untroubled (stale packet : Buffer maxLen) :
    (exchange stale packet).filter Event.troubled = [] := rfl

theorem hasty_troubled (stale packet : Buffer maxLen) : (hasty stale packet).filter Event.troubled =
    [.serverWait none, .serverTimeout, .disturb .toClient (.lose 0)] := rfl

/-- Every file can be copied: in this run there is no trouble, and rcopy has the whole file. -/
theorem output_complete (setup : Setup) (fits : setup.bufSize ≤ 1392)
    (few : setup.numChunks + 2 < 2 ^ 31) (copy : Copy) (initial : Initial setup copy) :
    ∃ events final, Transition.run (Copy.step setup) events copy = some final ∧
      events.filter Event.troubled = [] ∧ final.ended = true ∧
      final.output.flatten = setup.file := by
  obtain ⟨packet, behind, rfl⟩ := initial
  have answer := leads_answer setup packet packet packet behind
  have copies (copy : Copy) (stage : Stage setup 0 0 copy) :=
    Leads.rounds (fun count => Stage setup count count)
      (fun _ _ before => Stage.exchanged packet packet fits few before)
      (Nat.le_refl setup.numChunks) stage
  have closes (copy : Copy) (stage : Stage setup setup.numChunks setup.numChunks copy) :=
    stage.closed packet packet (by omega)
  obtain ⟨final, executed, _, ended, output⟩ := ((answer.append copies).append closes).run
  refine ⟨_, final, executed, ?_, ended, by rw [output, setup.chunks_complete]⟩
  simp [exchange_untroubled, Event.troubled]

theorem output_complete_twoChunks : ∃ events final,
    Transition.run (Copy.step twoChunks) events (Copy.start twoChunks (Buffer.zero maxLen) 0) =
      some final ∧
    events.filter Event.troubled = [] ∧ final.ended = true ∧
      final.output.flatten = twoChunks.file :=
  output_complete twoChunks (by decide) (by decide +kernel) _ ⟨_, 0, rfl⟩

/-- The server's timer runs out once, too early, and one datagram is lost: rcopy gets END_OF_FILE
when it has any part of the file that ends where a chunk does. -/
theorem output_truncated (setup : Setup) (fits : setup.bufSize ≤ 1392)
    (few : setup.numChunks + 2 < 2 ^ 31) (copy : Copy) (initial : Initial setup copy) (count : Nat)
    (before : count + 1 < setup.numChunks) :
    ∃ events final, Transition.run (Copy.step setup) events copy = some final ∧
      events.filter Event.troubled =
        [.serverWait none, .serverTimeout, .disturb .toClient (.lose 0)] ∧
      final.ended = true ∧
      final.output.flatten = setup.file.take ((count + 1) * setup.bufSize) ∧
        final.output.flatten ≠ setup.file := by
  obtain ⟨packet, behind, rfl⟩ := initial
  have answer := leads_answer setup packet packet packet behind
  have copies (copy : Copy) (stage : Stage setup 0 0 copy) :=
    Leads.rounds (fun count => Stage setup count count)
      (fun _ _ before => Stage.exchanged packet packet fits few before)
      (by omega : count ≤ setup.numChunks) stage
  have ignores (copy : Copy) (stage : Stage setup (count + 2) (count + 1) copy) :=
    Leads.rounds (fun more => Stage setup (count + 2 + more) (count + 1))
      (fun more _ inside => Stage.ignored packet packet fits few (by omega) (by omega))
      (Nat.le_refl (setup.numChunks - (count + 2))) stage
  have closes (copy : Copy)
      (stage : Stage setup (count + 2 + (setup.numChunks - (count + 2))) (count + 1) copy) := by
    rw [show count + 2 + (setup.numChunks - (count + 2)) = setup.numChunks by omega] at stage
    exact stage.closed packet packet (by omega)
  obtain ⟨final, executed, _, ended, output⟩ := ((((answer.append copies).append fun copy =>
    Stage.skipped packet packet fits few before).append ignores).append closes).run
  have part : final.output.flatten = setup.file.take ((count + 1) * setup.bufSize) := by
    rw [output, setup.chunks_flatten]
  refine ⟨_, final, executed, ?_, ended, part, fun whole => ?_⟩
  · simp [exchange_untroubled, hasty_troubled, Event.troubled]
  · have more : ¬setup.numChunks ≤ count + 1 := by omega
    rw [setup.numChunks_le_iff] at more
    have length := congrArg List.length (part.symm.trans whole)
    rw [List.length_take] at length
    omega

theorem output_truncated_twoChunks : ∃ events final,
    Transition.run (Copy.step twoChunks) events (Copy.start twoChunks (Buffer.zero maxLen) 0) =
      some final ∧
    events.filter Event.troubled =
      [.serverWait none, .serverTimeout, .disturb .toClient (.lose 0)] ∧
    final.ended = true ∧ final.output.flatten = twoChunks.file.take (1 * twoChunks.bufSize) ∧
      final.output.flatten ≠ twoChunks.file :=
  output_truncated twoChunks (by decide) (by decide +kernel) _ ⟨_, 0, rfl⟩ 0 (by decide +kernel)

end Original
