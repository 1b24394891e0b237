import Cpe464.Original.CopySteps

/-!
What holds in every run of the stop-and-wait copy, whatever the network does: the output is a
prefix of the file.
-/

namespace Original

open Bytes Channel Transition
open RemoteCopy (Setup Direction)

structure Sending (setup : Setup) (count : Nat) (server : Server) : Prop where
  seqNum : server.seqNum = count + 1
  small : count + 1 < 2 ^ 31
  bounded : count ≤ setup.numChunks
  offset : server.offset = setup.offset count
  held : server.state = .waitOnAck ∨ server.state = .timeoutOnAck → 1 ≤ count ∧
    ∃ behind, server.packet.bytes.take server.packetLen =
      datagram setup.serverHost (UInt32.ofNat count) Flag.data.code (setup.chunk count) behind
  stays : server.state ≠ .exited

structure Sound (setup : Setup) (count : Nat) (copy : Copy) : Prop where
  sending : Sending setup count copy.server
  down : ∀ flight ∈ copy.toClient,
    Carries setup.serverHost (Downlink setup count copy.finished) flight
  up : ∀ flight ∈ copy.toServer, Carries setup.clientHost Uplink flight
  written : ∃ written ≤ count, copy.client.expected = written + 1 ∧
    copy.output = (List.range written).map fun index => setup.chunk (index + 1)
  finished : copy.finished = true → count = setup.numChunks ∧ copy.server.state = .done
  ended : copy.ended = true → copy.finished = true

theorem start_sound (setup : Setup) (packet : Buffer maxLen) (behind : UInt8) :
    Sound setup 0 (Copy.start setup packet behind) := by
  constructor
  · constructor
    · rfl
    · decide
    · exact Nat.zero_le _
    · simp [Copy.start, Setup.offset]
    · rintro (state | state) <;> cases state
    · simp [Copy.start]
  · intro flight member
    rw [List.mem_singleton.mp member]
    exact .intact behind .fnameOk
  · intro flight member
    cases member
  · exact ⟨0, Nat.le_refl _, rfl, rfl⟩
  · intro finished
    cases finished
  · intro ended
    cases ended

theorem Sending.turn {setup : Setup} {count : Nat} {server : Server}
    (sending : Sending setup count server) (state : ServerState) (sendCount : Nat)
    (before : state = .waitOnAck ∨ state = .timeoutOnAck →
      server.state = .waitOnAck ∨ server.state = .timeoutOnAck) (stays : state ≠ .exited) :
    Sending setup count { server with state, sendCount } :=
  ⟨sending.seqNum, sending.small, sending.bounded, sending.offset,
    fun waits => sending.held (before waits), stays⟩

section

variable {setup : Setup} {count : Nat} {copy next : Copy} (sound : Sound setup count copy)

include sound

theorem Sound.afterServer {server : Server} {later : Nat} {past : Bool} {sent : List (List UInt8)}
    (sending : Sending setup later server) (more : count ≤ later)
    (still : copy.finished = true → past = true)
    (complete : past = true → later = setup.numChunks ∧ server.state = .done)
    (flights : ∀ flight ∈ sent.map Flight.intact,
      Carries setup.serverHost (Downlink setup later past) flight) :
    Sound setup later { copy with
      server, toClient := copy.toClient ++ sent.map .intact, finished := past } := by
  obtain ⟨written, bound, expected, output⟩ := sound.written
  refine ⟨sending, ?_, sound.up, ⟨written, Nat.le_trans bound more, expected, output⟩, complete,
    fun ended => still (sound.ended ended)⟩
  intro flight member
  rcases List.mem_append.mp member with old | new
  · exact (sound.down flight old).mono fun _ _ _ sent => sent.mono more still
  · exact flights flight new

theorem Sound.unfinished (running : copy.server.state ≠ .done) : copy.finished = false := by
  cases finished : copy.finished with
  | false => rfl
  | true => exact absurd (sound.finished finished).2 running

theorem Sound.serverSend {readFails : Bool} {unset : UInt8}
    (state : copy.server.state = .sendData)
    (taken : serverSend setup readFails unset copy = some next) :
    ∃ later, Sound setup later next := by
  simp only [Original.serverSend, Option.bind_eq_bind, Option.bind_eq_some_iff] at taken
  obtain ⟨⟨server, sent⟩, sends, taken⟩ := taken
  obtain rfl := Option.some.inj taken
  have running := sound.unfinished (by rw [state]; decide)
  have reads (chunk : List UInt8)
      (read : RemoteCopy.readFile setup readFails copy.server.offset = some chunk) :
      setup.chunk (count + 1) = chunk := by
    cases readFails with
    | false =>
        rw [sound.sending.offset, setup.readFile_offset] at read
        exact Option.some.inj read
    | true => cases read
  rw [running, Bool.false_or]
  rcases sendData_cases sends with ⟨read, rfl, rfl⟩ | ⟨read, packet, packetLen, behind, rfl, rfl⟩ |
    ⟨data, read, nonempty, small, packet, behind, held, rfl, rfl⟩
  · rw [read]
    refine ⟨count, sound.afterServer ?_ (Nat.le_refl _) ?_ ?_ ?_⟩
    · exact sound.sending.turn .done _ (by simp) (by simp)
    · exact fun finished => absurd finished (by rw [running]; decide)
    · intro past
      cases past
    · intro flight member
      cases member
  · have complete := (setup.chunk_eq_nil_iff count).mp (reads [] read)
    rw [read]
    refine ⟨count, sound.afterServer ?_ (Nat.le_refl _) ?_ ?_ ?_⟩
    · have sending := sound.sending.turn .done copy.server.sendCount (by simp) (by simp)
      refine ⟨sending.seqNum, sending.small, sending.bounded, sending.offset, ?_, sending.stays⟩
      rintro (past | past) <;> cases past
    · exact fun _ => rfl
    · exact fun _ => ⟨Nat.le_antisymm sound.sending.bounded complete, rfl⟩
    · intro flight member
      rw [List.map_singleton, List.mem_singleton] at member
      exact member ▸ .intact behind (.endOfFile _ unset rfl)
  · have chunk := reads data read
    have number : UInt32.ofInt copy.server.seqNum = UInt32.ofNat (count + 1) := by
      rw [sound.sending.seqNum]
      exact ofInt_natCast (count + 1)
    have before : ¬setup.numChunks ≤ count := by
      rw [← setup.chunk_eq_nil_iff, chunk]
      exact nonempty
    have going : (RemoteCopy.readFile setup readFails copy.server.offset == some []) = false := by
      rw [read]
      simpa using nonempty
    rw [going]
    have seqNum := sound.sending.seqNum
    rw [number, ← chunk] at held ⊢
    refine ⟨count + 1, sound.afterServer ?_ (Nat.le_succ _) ?_ ?_ ?_⟩
    · constructor
      · simp only [seqNum]
        omega
      · omega
      · omega
      · rw [setup.offset_succ, ← sound.sending.offset]
      · exact fun _ => ⟨Nat.succ_pos _, behind, held⟩
      · simp
    · exact fun finished => absurd finished (by rw [running]; decide)
    · intro past
      cases past
    · intro flight member
      rw [List.map_singleton, List.mem_singleton] at member
      exact member ▸ .intact behind (.data (Nat.succ_pos _) (Nat.le_refl _))

theorem Sound.serverWait {arrived : Option (Buffer maxLen)}
    (state : copy.server.state = .waitOnAck)
    (taken : serverWait setup arrived copy = some next) : Sound setup count next := by
  have running := sound.unfinished (by rw [state]; decide)
  have waits (later : ServerState) (sendCount : Nat) (stays : later ≠ .exited)
      (toServer : List Flight) (kept : ∀ flight ∈ toServer, flight ∈ copy.toServer) :
      Sound setup count { copy with
        server := { copy.server with state := later, sendCount }, toServer } := by
    have sending := sound.sending.turn later sendCount (fun _ => .inl state) stays
    exact ⟨sending, sound.down, fun flight member => sound.up flight (kept flight member),
      sound.written, fun finished => absurd finished (by rw [running]; decide), sound.ended⟩
  simp only [Original.serverWait] at taken
  split at taken
  · exact Option.some.inj taken ▸ waits .done _ (by simp) _ fun _ member => member
  · split at taken
    · exact Option.some.inj taken ▸ waits .timeoutOnAck _ (by simp) _ fun _ member => member
    · rename_i stale
      split at taken
      · cases taken
      · rename_i flight rest queue
        have tail (other : Flight) (member : other ∈ rest) : other ∈ copy.toServer := by
          rw [queue]
          exact List.mem_cons_of_mem _ member
        have carries := sound.up flight (by rw [queue]; exact List.mem_cons_self)
        rcases receiveAck_uplink setup.serverHost stale carries
          { copy.server with sendCount := copy.server.sendCount + 1 } with same | same
        · rw [same] at taken
          exact Option.some.inj taken ▸ waits .waitOnAck _ (by simp) rest tail
        · rw [same] at taken
          exact Option.some.inj taken ▸ waits .sendData _ (by simp) rest tail

theorem Sound.serverTimeout (state : copy.server.state = .timeoutOnAck) :
    Sound setup count (serverTimeout copy) := by
  have running := sound.unfinished (by rw [state]; decide)
  obtain ⟨positive, behind, packet⟩ := sound.sending.held (.inr state)
  refine sound.afterServer (sound.sending.turn .waitOnAck _ (fun _ => .inr state) (by simp))
    (Nat.le_refl _) id (fun finished => absurd finished (by rw [running]; decide)) ?_
  intro flight member
  rw [List.map_singleton, List.mem_singleton, packet] at member
  exact member ▸ .intact behind (.data positive (Nat.le_refl _))

theorem Sound.clientReceive {stale packet : Buffer maxLen} (fits : setup.bufSize ≤ 1392)
    (taken : clientReceive setup stale packet copy = some next) : Sound setup count next := by
  simp only [Original.clientReceive] at taken
  split at taken
  · cases taken
  · rename_i flight rest queue
    have down (other : Flight) (member : other ∈ rest) :=
      sound.down other (by rw [queue]; exact List.mem_cons_of_mem _ member)
    have carries := sound.down flight (by rw [queue]; exact List.mem_cons_self)
    split at taken
    · obtain rfl := Option.some.inj taken
      exact ⟨sound.sending, down, sound.up, sound.written, sound.finished, sound.ended⟩
    · cases taken
    · simp only [Option.bind_eq_bind, Option.bind_eq_some_iff] at taken
      obtain ⟨⟨client, written, acks⟩, receives, taken⟩ := taken
      obtain rfl := Option.some.inj taken
      obtain ⟨count', bound, expected, output⟩ := sound.written
      rename_i running
      have going : (copy.client.state == ClientState.done) = false := by
        rw [running]
        rfl
      rcases recvData_cases carries (fun _ _ _ sent => sent.small fits) receives with
        same | ⟨seqNum, flag, data, ack, sent, acknowledges, takes⟩
      · obtain ⟨rfl, rfl, rfl⟩ : client = copy.client ∧ written = [] ∧ acks = [] := by
          simpa using same
        rw [going, Bool.or_false, List.append_nil, List.map_nil, List.append_nil]
        exact ⟨sound.sending, down, sound.up, sound.written, sound.finished, sound.ended⟩
      · have up (other : Flight) (member : other ∈ copy.toServer ++ [Flight.intact ack]) :
            Carries setup.clientHost Uplink other := by
          rcases List.mem_append.mp member with old | new
          · exact sound.up other old
          · exact List.mem_singleton.mp new ▸ acknowledges
        rcases sent.taken sound.sending.small (by omega) takes with
          ⟨past, same⟩ | same | ⟨below, same⟩
        · obtain ⟨rfl, rfl, rfl⟩ : client = { copy.client with state := .done } ∧ written = [] ∧
            acks = [ack] := by simpa using same
          rw [List.append_nil]
          exact ⟨sound.sending, down, up, ⟨_, bound, expected, output⟩, sound.finished,
            fun _ => past⟩
        · obtain ⟨rfl, rfl, rfl⟩ : client = copy.client ∧ written = [] ∧ acks = [ack] := by
            simpa using same
          rw [going, Bool.or_false, List.append_nil]
          exact ⟨sound.sending, down, up, ⟨_, bound, expected, output⟩, sound.finished,
            sound.ended⟩
        · obtain ⟨rfl, rfl, rfl⟩ : client = { copy.client with
            expected := copy.client.expected + 1 } ∧
              written = [setup.chunk copy.client.expected.toNat] ∧ acks = [ack] := by
            simpa using same
          have number : copy.client.expected.toNat = count' + 1 := by omega
          rw [number] at below
          simp only [going, Bool.or_false]
          refine ⟨sound.sending, down, up, ⟨count' + 1, below, ?_, ?_⟩, sound.finished,
            sound.ended⟩
          · change copy.client.expected + 1 = ((count' + 1 : Nat) : Int) + 1
            omega
          · change copy.output ++ [setup.chunk copy.client.expected.toNat] = _
            rw [output, List.range_succ, List.map_append, List.map_singleton, number]
    · cases taken

theorem Sound.clientTimeout (taken : clientTimeout copy = some next) : Sound setup count next := by
  unfold Original.clientTimeout at taken
  split at taken
  · obtain rfl := Option.some.inj taken
    exact ⟨sound.sending, sound.down, sound.up, sound.written, sound.finished, sound.ended⟩
  · cases taken
  · obtain rfl := Option.some.inj taken
    exact ⟨sound.sending, sound.down, sound.up, sound.written, sound.finished, sound.ended⟩
  · cases taken

theorem Sound.disturbed {direction : Direction} {fault : Fault Damage}
    (taken : disturbed direction fault copy = some next) : Sound setup count next := by
  have kept {host : ByteOrder} {kind : UInt32 → UInt8 → List UInt8 → Prop} (damage : Damage)
      (flight worse : Flight) (carries : Carries host kind flight)
      (damaged : damage.spoiled flight = some worse) : Carries host kind worse :=
    carries.spoiled damaged
  cases direction with
  | toServer =>
      obtain ⟨after, changed, rfl⟩ := Option.map_eq_some_iff.mp taken
      exact ⟨sound.sending, sound.down, disturb_all kept sound.up changed, sound.written,
        sound.finished, sound.ended⟩
  | toClient =>
      obtain ⟨after, changed, rfl⟩ := Option.map_eq_some_iff.mp taken
      exact ⟨sound.sending, disturb_all kept sound.down changed, sound.up, sound.written,
        sound.finished, sound.ended⟩

theorem Sound.step {event : Event} (fits : setup.bufSize ≤ 1392)
    (taken : copy.step setup event = some next) : ∃ later, Sound setup later next := by
  cases event with
  | serverSend readFails unset =>
      simp only [Copy.step] at taken
      split at taken
      · rename_i state
        exact sound.serverSend state taken
      · cases taken
  | serverWait arrived =>
      simp only [Copy.step] at taken
      split at taken
      · rename_i state
        exact ⟨count, sound.serverWait state taken⟩
      · cases taken
  | serverTimeout =>
      simp only [Copy.step] at taken
      split at taken
      · rename_i state
        exact ⟨count, Option.some.inj taken ▸ sound.serverTimeout state⟩
      · cases taken
  | clientReceive stale packet => exact ⟨count, sound.clientReceive fits taken⟩
  | clientTimeout => exact ⟨count, sound.clientTimeout taken⟩
  | disturb direction fault => exact ⟨count, sound.disturbed taken⟩

end

theorem Reachable.sound {setup : Setup} {copy : Copy} (fits : setup.bufSize ≤ 1392)
    (reachable : Reachable setup copy) : ∃ count, Sound setup count copy := by
  induction reachable with
  | start initial =>
      obtain ⟨packet, behind, rfl⟩ := initial
      exact ⟨0, start_sound setup packet behind⟩
  | step event reachable taken permitted sound =>
      obtain ⟨count, sound⟩ := sound
      exact sound.step fits taken

theorem Sound.output {setup : Setup} {count : Nat} {copy : Copy}
    (sound : Sound setup count copy) :
    copy.output.flatten <+: setup.file ∧ (copy.output.length : Int) < copy.server.seqNum ∧
      (copy.ended = true → copy.finished = true ∧ copy.server.offset = setup.file.length) ∧
      copy.server.state ≠ .exited := by
  obtain ⟨written, bound, -, output⟩ := sound.written
  refine ⟨?_, ?_, ?_, sound.sending.stays⟩
  · rw [output, setup.chunks_flatten]
    exact List.take_prefix _ _
  · rw [output, List.length_map, List.length_range, sound.sending.seqNum]
    omega
  · intro ended
    have finished := sound.ended ended
    refine ⟨finished, ?_⟩
    rw [sound.sending.offset, (sound.finished finished).1]
    exact Nat.min_eq_right ((setup.numChunks_le_iff _).mp (Nat.le_refl _))

/-- Whatever the network loses, repeats, changes or delays: what rcopy has written is the start of
the file, and it only stops at END_OF_FILE when the server has read the whole file. The server
never gets a packet that makes it exit. -/
theorem output_sound (setup : Setup) (fits : setup.bufSize ≤ 1392) (copy : Copy)
    (reachable : Reachable setup copy) :
    copy.output.flatten <+: setup.file ∧ (copy.output.length : Int) < copy.server.seqNum ∧
      (copy.ended = true → copy.finished = true ∧ copy.server.offset = setup.file.length) ∧
      copy.server.state ≠ .exited := by
  obtain ⟨count, sound⟩ := reachable.sound fits
  exact sound.output

def mistaken : List Event :=
  let zero := Buffer.zero maxLen
  [.clientReceive zero zero, .serverSend false 0, .serverWait none, .serverTimeout,
    .clientReceive zero zero, .clientReceive zero zero, .serverWait (some zero),
    .serverSend false 0, .disturb .toClient (.lose 0), .serverWait (some zero),
    .serverSend false 0, .clientReceive zero zero]

theorem output_sound_twoChunks : ∃ copy,
    Transition.run (Copy.step twoChunks) mistaken (Copy.start twoChunks (Buffer.zero maxLen) 0) =
      some copy ∧
    copy.ended = true ∧ copy.output.flatten <+: twoChunks.file := by
  have ends : (Transition.run (Copy.step twoChunks) mistaken
      (Copy.start twoChunks (Buffer.zero maxLen) 0)).map (fun copy => copy.ended) = some true := by
    decide +kernel
  obtain ⟨copy, executed, ended⟩ := Option.map_eq_some_iff.mp ends
  have reachable : Reachable twoChunks copy :=
    Transition.Reach.run mistaken (.start ⟨_, 0, rfl⟩) executed
      (Transition.Permitted.of_forall (fun _ _ _ => trivial) _ _)
  exact ⟨copy, executed, ended, (output_sound twoChunks (by decide) copy reachable).1⟩

end Original
