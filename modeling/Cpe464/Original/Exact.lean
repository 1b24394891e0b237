import Cpe464.Original.Prefix

/-!
The stop-and-wait copy in runs where a timer only runs out when nothing is under way any more. The
two programs are in step there, and the output is the whole file when the copy ends.
-/

namespace Original

open Bytes Channel Transition
open RemoteCopy (Setup asInt32 Direction)

def Copy.Closed (copy : Copy) : Prop := copy.client.state = .again ∨ copy.client.state = .done

instance (copy : Copy) : Decidable copy.Closed := instDecidableOr

def Copy.Idle (copy : Copy) : Prop := copy.Closed ∨ copy.toClient = []

instance (copy : Copy) : Decidable copy.Idle := instDecidableOr

/-- The server only times out when nothing is under way, and the network only loses datagrams and
changes them. -/
def Timely (copy : Copy) : Event → Copy → Prop
  | .serverWait none, _ => copy.toServer = [] ∧ copy.Idle
  | .disturb _ fault, _ => fault.Plain
  | _, _ => True

instance (copy : Copy) (event : Event) (next : Copy) : Decidable (Timely copy event next) :=
  match event with
  | .serverSend _ _ => instDecidableTrue
  | .serverWait none => instDecidableAnd
  | .serverWait (some _) => instDecidableTrue
  | .serverTimeout => instDecidableTrue
  | .clientReceive _ _ => instDecidableTrue
  | .clientTimeout => instDecidableTrue
  | .disturb _ fault => inferInstanceAs (Decidable fault.Plain)

/-! The invariant. -/

inductive Current (setup : Setup) (count : Nat) : UInt32 → UInt8 → List UInt8 → Prop
  | data : Current setup count (UInt32.ofNat count) Flag.data.code (setup.chunk count)

def Copy.Ahead (copy : Copy) (pending : Option Flight) : Prop :=
  copy.Closed ∨ copy.toClient = pending.toList ∨
    copy.client.state = .filename ∧ ∃ answer, copy.toClient = answer :: pending.toList

def Phase (setup : Setup) (count : Nat) (copy : Copy) : ServerState → Prop
  | .sendData => copy.toServer = [] ∧ copy.Ahead none ∧ copy.client.expected = count + 1
  | .waitOnAck =>
      (copy.toServer = [] ∧ ∃ pending, copy.Ahead pending ∧
        ∀ flight ∈ pending, Carries setup.serverHost (Current setup count) flight) ∨
      (∃ ack, copy.toServer = [ack]) ∧ copy.Idle ∧ copy.client.expected = count + 1
  | .timeoutOnAck => copy.toServer = [] ∧ copy.Idle
  | .done => True
  | .exited => True

/-- rcopy is at most one chunk behind, and not at all when the server goes on. -/
structure InStep (setup : Setup) (count : Nat) (copy : Copy) : Prop where
  close : (count : Int) ≤ copy.client.expected
  phase : Phase setup count copy copy.server.state
  complete : copy.finished = true → copy.client.expected = count + 1

theorem recvData_current {setup : Setup} {count : Nat} {stale packet : Buffer maxLen}
    {flight : Flight} {client : Client} {step : ClientStep} (fits : setup.bufSize ≤ 1392)
    (small : count + 1 < 2 ^ 31) (carries : Carries setup.serverHost (Current setup count) flight)
    (close : (count : Int) ≤ client.expected) (bound : client.expected ≤ count + 1)
    (taken : recvData setup.clientHost stale packet flight.datagram client = some step) :
    step = (client, [], []) ∨ step.1.expected = count + 1 ∧ ∃ ack, step.2.2 = [ack] := by
  have short (seqNum : UInt32) (flag : UInt8) (data : List UInt8)
      (sent : Current setup count seqNum flag data) : data.length + 8 ≤ 1400 := by
    cases sent
    have length := setup.chunk_length_le count
    omega
  rcases recvData_cases carries short taken with
    same | ⟨_, _, _, ack, ⟨⟩, _, takes⟩
  · exact .inl same
  · have number : asInt32 (UInt32.ofNat count).toNat = count := by
      rw [UInt32.toNat_ofNat', asInt32]
      omega
    cases takes with
    | ends past => cases past
    | writes _ same =>
        refine .inr ⟨?_, ack, rfl⟩
        simp only
        omega
    | ignores _ other =>
        refine .inr ⟨?_, ack, rfl⟩
        simp only
        omega

theorem start_inStep (setup : Setup) (packet : Buffer maxLen) (behind : UInt8) :
    InStep setup 0 (Copy.start setup packet behind) := by
  constructor
  · exact (by decide : (0 : Int) ≤ 1)
  · exact ⟨rfl, .inr (.inr ⟨rfl, _, rfl⟩), rfl⟩
  · intro finished
    cases finished

section

variable {copy next : Copy} {pending : Option Flight}

theorem Copy.Idle.ahead (idle : copy.Idle) : copy.Ahead none := by
  rcases idle with closed | silent
  · exact .inl closed
  · exact .inr (.inl silent)

theorem Copy.Ahead.joined (ahead : copy.Ahead none) (flight : Flight)
    (client : next.client = copy.client) (queue : next.toClient = copy.toClient ++ [flight]) :
    next.Ahead (some flight) := by
  rcases ahead with closed | silent | ⟨waits, answer, alone⟩
  · exact .inl (by rwa [Closed, client])
  · exact .inr (.inl (by rw [queue, silent]; rfl))
  · exact .inr (.inr ⟨client ▸ waits, answer, by rw [queue, alone]; rfl⟩)

theorem Copy.Ahead.answered (ahead : copy.Ahead pending) {flight : Flight} {rest : List Flight}
    (state : copy.client.state = .filename) (queue : copy.toClient = flight :: rest)
    (later : next.toClient = rest) :
    ∃ left : Option Flight, (∀ flight ∈ left, flight ∈ pending) ∧ next.Ahead left := by
  rcases ahead with closed | single | ⟨_, answer, both⟩
  · rw [Closed, state] at closed
    rcases closed with closed | closed <;> cases closed
  · refine ⟨none, by simp, .inr (.inl ?_)⟩
    cases pending with
    | none =>
        rw [queue] at single
        cases single
    | some other =>
        rw [queue] at single
        rw [later]
        exact (List.cons.inj single).2
  · rw [queue] at both
    exact ⟨pending, fun _ member => member, .inr (.inl (later.trans (List.cons.inj both).2))⟩

theorem Copy.Ahead.received (ahead : copy.Ahead pending) {flight : Flight} {rest : List Flight}
    (state : copy.client.state = .recvData) (queue : copy.toClient = flight :: rest) :
    pending = some flight ∧ rest = [] := by
  rcases ahead with closed | single | ⟨waits, _⟩
  · rw [Closed, state] at closed
    rcases closed with closed | closed <;> cases closed
  · rw [queue] at single
    cases pending with
    | none => cases single
    | some other =>
        obtain ⟨same, last⟩ := List.cons.inj single
        exact ⟨by rw [same], last⟩
  · rw [state] at waits
    cases waits

theorem Copy.Idle.silent {flight : Flight} {rest : List Flight} (idle : copy.Idle)
    (queue : copy.toClient = flight :: rest) : copy.Closed := by
  rcases idle with closed | silent
  · exact closed
  · rw [queue] at silent
    cases silent

theorem Copy.Ahead.disturbed {fault : Fault Damage} {after : List Flight} {holds : Flight → Prop}
    (kept : ∀ (damage : Damage) flight worse, holds flight →
      damage.spoiled flight = some worse → holds worse)
    (ahead : copy.Ahead pending) (before : ∀ flight ∈ pending, holds flight)
    (plain : fault.Plain) (changed : disturb Damage.spoiled copy.toClient fault = some after) :
    ∃ left : Option Flight, (∀ flight ∈ left, holds flight) ∧
      Copy.Ahead { copy with toClient := after } left := by
  have chunk {fault : Fault Damage} {rest : List Flight} (plain : fault.Plain)
      (changed : disturb Damage.spoiled pending.toList fault = some rest) :
      ∃ left : Option Flight, rest = left.toList ∧ ∀ flight ∈ left, holds flight := by
    cases pending with
    | none =>
        rw [Option.toList_none, disturb_nil] at changed
        cases changed
    | some flight =>
        rcases disturb_singleton plain changed with rfl | ⟨damage, worse, damaged, rfl⟩
        · exact ⟨none, rfl, by simp⟩
        · refine ⟨some worse, rfl, ?_⟩
          intro other member
          obtain rfl := Option.some.inj member
          exact kept damage flight worse (before flight rfl) damaged
  rcases ahead with closed | single | ⟨waits, answer, both⟩
  · exact ⟨none, by simp, .inl closed⟩
  · rw [single] at changed
    obtain ⟨left, rfl, held⟩ := chunk plain changed
    exact ⟨left, held, .inr (.inl rfl)⟩
  · rw [both] at changed
    obtain ⟨other, single, front | back⟩ := disturb_append [answer] pending.toList plain changed
    · obtain ⟨rest, lost, rfl⟩ := front
      rcases disturb_singleton single lost with rfl | ⟨_, worse, _, rfl⟩
      · exact ⟨pending, before, .inr (.inl rfl)⟩
      · exact ⟨pending, before, .inr (.inr ⟨waits, worse, rfl⟩)⟩
    · obtain ⟨rest, lost, rfl⟩ := back
      obtain ⟨left, rfl, held⟩ := chunk single lost
      exact ⟨left, held, .inr (.inr ⟨waits, answer, rfl⟩)⟩

end

/-! The steps. -/

section

variable {setup : Setup} {count : Nat} {copy next : Copy} (sound : Sound setup count copy)
  (inStep : InStep setup count copy)

include sound inStep

theorem InStep.serverSend {later : Nat} {readFails : Bool} {unset : UInt8}
    (state : copy.server.state = .sendData) (after : Sound setup later next)
    (taken : serverSend setup readFails unset copy = some next) : InStep setup later next := by
  have phase := inStep.phase
  rw [state] at phase
  obtain ⟨silent, ahead, all⟩ := phase
  simp only [Original.serverSend, Option.bind_eq_bind, Option.bind_eq_some_iff] at taken
  obtain ⟨⟨server, sent⟩, sends, taken⟩ := taken
  obtain rfl := Option.some.inj taken
  have place := after.sending.seqNum
  have before := sound.sending.seqNum
  have ends (state : server.state = .done) (seqNum : server.seqNum = copy.server.seqNum) :
      InStep setup later { copy with
        server, toClient := copy.toClient ++ sent.map .intact
        finished := copy.finished ||
          RemoteCopy.readFile setup readFails copy.server.offset == some [] } := by
    obtain rfl : later = count := by
      simp only [seqNum] at place
      omega
    refine ⟨inStep.close, ?_, fun _ => all⟩
    rw [state]
    trivial
  rcases sendData_cases sends with ⟨_, rfl, rfl⟩ | ⟨_, packet, packetLen, behind, rfl, rfl⟩ |
    ⟨data, _, _, small, packet, behind, held, rfl, rfl⟩
  · exact ends rfl rfl
  · exact ends rfl rfl
  · have number : later = count + 1 := by
      simp only at place
      omega
    obtain ⟨_, behind', packet'⟩ := after.sending.held (.inl rfl)
    have frame : Flight.intact (datagram setup.serverHost (UInt32.ofInt copy.server.seqNum)
        Flag.data.code data behind) = .intact (datagram setup.serverHost (UInt32.ofNat later)
          Flag.data.code (setup.chunk later) behind') := by
      rw [← packet']
      exact congrArg _ held.symm
    refine ⟨?_, .inl ⟨silent, some _, ahead.joined _ rfl rfl, ?_⟩, ?_⟩
    · exact (by omega : (later : Int) ≤ copy.client.expected)
    · intro flight member
      obtain rfl := Option.some.inj member
      rw [frame]
      exact .intact behind' .data
    · intro finished
      cases (after.finished finished).2

theorem InStep.serverWait {arrived : Option (Buffer maxLen)}
    (state : copy.server.state = .waitOnAck)
    (timely : Timely copy (.serverWait arrived) next)
    (taken : serverWait setup arrived copy = some next) : InStep setup count next := by
  have running := sound.unfinished (by rw [state]; decide)
  have phase := inStep.phase
  rw [state] at phase
  have unfinished {client : Int} (finished : copy.finished = true) : client = count + 1 := by
    rw [running] at finished
    cases finished
  simp only [Original.serverWait] at taken
  split at taken
  · exact Option.some.inj taken ▸ ⟨inStep.close, trivial, unfinished⟩
  · split at taken
    · exact Option.some.inj taken ▸ ⟨inStep.close, timely, unfinished⟩
    · rename_i stale
      split at taken
      · cases taken
      · rename_i flight rest queue
        have carries := sound.up flight (by rw [queue]; exact List.mem_cons_self)
        rcases phase with ⟨silent, _⟩ | ⟨⟨ack, single⟩, idle, all⟩
        · rw [silent] at queue
          cases queue
        · obtain rfl : rest = [] := by
            rw [single] at queue
            exact (List.cons.inj queue).2.symm
          rcases receiveAck_uplink setup.serverHost stale carries
            { copy.server with sendCount := copy.server.sendCount + 1 } with same | same
          · rw [same] at taken
            refine Option.some.inj taken ▸ ⟨inStep.close, .inl ⟨rfl, none, idle.ahead, ?_⟩, unfinished⟩
            intro flight member
            cases member
          · rw [same] at taken
            exact Option.some.inj taken ▸ ⟨inStep.close, ⟨rfl, idle.ahead, all⟩, unfinished⟩

theorem InStep.serverTimeout (state : copy.server.state = .timeoutOnAck) :
    InStep setup count (serverTimeout copy) := by
  obtain ⟨_, behind, packet⟩ := sound.sending.held (.inr state)
  have phase := inStep.phase
  rw [state] at phase
  obtain ⟨silent, idle⟩ := phase
  refine ⟨inStep.close, .inl ⟨silent, some _, idle.ahead.joined _ rfl rfl, ?_⟩, inStep.complete⟩
  intro flight member
  obtain rfl := Option.some.inj member
  rw [packet]
  exact .intact behind .data

omit sound in
theorem InStep.unheard {client : Client} {toClient : List Flight} {output : List (List UInt8)}
    {past : Bool} (expected : client.expected = copy.client.expected)
    (idle : copy.Idle → client.state = .again ∨ client.state = .done ∨ toClient = [])
    (ahead : ∀ pending : Option Flight, copy.Ahead pending → ∃ left : Option Flight,
      (∀ flight ∈ left, flight ∈ pending) ∧ Copy.Ahead { copy with client, toClient } left) :
    InStep setup count { copy with client, toClient, output, ended := past } := by
  refine ⟨expected ▸ inStep.close, ?_, fun finished => expected ▸ inStep.complete finished⟩
  have phase := inStep.phase
  cases state : copy.server.state with
  | sendData =>
      rw [state] at phase
      obtain ⟨silent, coming, all⟩ := phase
      obtain ⟨left, less, later⟩ := ahead none coming
      obtain rfl : left = none := Option.eq_none_iff_forall_not_mem.mpr fun flight member => by
        cases less flight member
      exact ⟨silent, later, expected.trans all⟩
  | waitOnAck =>
      rw [state] at phase
      rcases phase with ⟨silent, pending, coming, carries⟩ | ⟨single, quiet, all⟩
      · obtain ⟨left, less, later⟩ := ahead pending coming
        exact .inl ⟨silent, left, later, fun flight member => carries flight (less flight member)⟩
      · exact .inr ⟨single, or_assoc.mpr (idle quiet), expected.trans all⟩
  | timeoutOnAck =>
      rw [state] at phase
      exact ⟨phase.1, or_assoc.mpr (idle phase.2)⟩
  | done => trivial
  | exited => trivial

theorem InStep.clientReceive {stale packet : Buffer maxLen} (fits : setup.bufSize ≤ 1392)
    (after : Sound setup count next)
    (taken : clientReceive setup stale packet copy = some next) : InStep setup count next := by
  simp only [Original.clientReceive] at taken
  split at taken
  · cases taken
  · rename_i flight rest queue
    split at taken
    · rename_i waits
      obtain rfl := Option.some.inj taken
      refine inStep.unheard rfl (fun idle => ?_) fun pending ahead => ?_
      · rcases idle.silent queue with closed | closed <;> rw [waits] at closed <;> cases closed
      · exact ahead.answered waits queue rfl
    · cases taken
    · rename_i running
      simp only [Option.bind_eq_bind, Option.bind_eq_some_iff] at taken
      obtain ⟨⟨client, written, acks⟩, receives, taken⟩ := taken
      obtain rfl := Option.some.inj taken
      have busy (idle : copy.Idle) : False := by
        rcases idle.silent queue with closed | closed <;> rw [running] at closed <;> cases closed
      obtain ⟨_, bound, atMost, _⟩ := after.written
      have carries := sound.down flight (by rw [queue]; exact List.mem_cons_self)
      have grows : copy.client.expected ≤ client.expected := by
        rcases recvData_cases carries (fun _ _ _ sent => sent.small fits) receives with
          same | ⟨_, _, _, _, _, _, takes⟩
        · rw [(Prod.mk.inj same).1]
        · cases takes <;> simp
      have close := inStep.close
      have expected : copy.client.expected ≤ count + 1 := by
        obtain ⟨_, less, same, _⟩ := sound.written
        omega
      simp only at atMost
      refine ⟨?_, ?_, ?_⟩
      · exact (by omega : (count : Int) ≤ client.expected)
      · have phase := inStep.phase
        cases state : copy.server.state with
        | sendData =>
            rw [state] at phase
            obtain ⟨pending, _⟩ := phase.2.1.received running queue
            cases pending
        | waitOnAck =>
            rw [state] at phase
            rcases phase with ⟨silent, pending, ahead, current⟩ | ⟨_, idle, _⟩
            · obtain ⟨rfl, rfl⟩ := ahead.received running queue
              rcases recvData_current fits sound.sending.small (current flight rfl) close expected
                receives with same | ⟨all, ack, acknowledges⟩
              · obtain ⟨rfl, rfl, rfl⟩ : client = copy.client ∧ written = [] ∧ acks = [] := by
                  simpa using same
                refine .inl ⟨by simpa using silent, none, .inr (.inl rfl), ?_⟩
                intro flight member
                cases member
              · refine .inr ⟨⟨.intact ack, ?_⟩, .inr rfl, all⟩
                obtain rfl : acks = [ack] := acknowledges
                change copy.toServer ++ [.intact ack] = _
                rw [silent, List.nil_append]
            · exact (busy idle).elim
        | timeoutOnAck =>
            rw [state] at phase
            exact (busy phase.2).elim
        | done => trivial
        | exited => trivial
      · intro finished
        have all := inStep.complete finished
        exact (by omega : client.expected = count + 1)
    · cases taken

omit sound in
theorem InStep.clientTimeout (taken : clientTimeout copy = some next) :
    InStep setup count next := by
  unfold Original.clientTimeout at taken
  split at taken
  · obtain rfl := Option.some.inj taken
    exact inStep.unheard rfl (fun _ => .inl rfl)
      fun pending _ => ⟨pending, fun _ member => member, .inl (.inl rfl)⟩
  · cases taken
  · obtain rfl := Option.some.inj taken
    exact inStep.unheard rfl (fun _ => .inr (.inl rfl))
      fun pending _ => ⟨pending, fun _ member => member, .inl (.inr rfl)⟩
  · cases taken

omit sound in
theorem InStep.disturbed {direction : Direction} {fault : Fault Damage} (plain : fault.Plain)
    (taken : disturbed direction fault copy = some next) : InStep setup count next := by
  have phase := inStep.phase
  cases direction with
  | toServer =>
      obtain ⟨after, changed, rfl⟩ := Option.map_eq_some_iff.mp taken
      refine ⟨inStep.close, ?_, inStep.complete⟩
      have none (silent : copy.toServer = []) : False := by
        rw [silent, disturb_nil] at changed
        cases changed
      cases state : copy.server.state with
      | sendData =>
          rw [state] at phase
          exact (none phase.1).elim
      | waitOnAck =>
          rw [state] at phase
          rcases phase with ⟨silent, _⟩ | ⟨⟨ack, single⟩, idle, all⟩
          · exact (none silent).elim
          · rw [single] at changed
            rcases disturb_singleton plain changed with rfl | ⟨_, worse, _, rfl⟩
            · exact .inl ⟨rfl, .none, idle.ahead, by simp⟩
            · exact .inr ⟨⟨worse, rfl⟩, idle, all⟩
      | timeoutOnAck =>
          rw [state] at phase
          exact (none phase.1).elim
      | done => trivial
      | exited => trivial
  | toClient =>
      obtain ⟨after, changed, rfl⟩ := Option.map_eq_some_iff.mp taken
      refine ⟨inStep.close, ?_, inStep.complete⟩
      have idle (quiet : copy.Idle) : Copy.Idle { copy with toClient := after } := by
        rcases quiet with closed | silent
        · exact .inl closed
        · rw [silent, disturb_nil] at changed
          cases changed
      cases state : copy.server.state with
      | sendData =>
          rw [state] at phase
          obtain ⟨silent, ahead, all⟩ := phase
          have never (flight : Flight) (member : flight ∈ (none : Option Flight)) : False := by
            cases member
          obtain ⟨left, fewer, later⟩ :=
            ahead.disturbed (fun _ _ _ => False.elim) never plain changed
          obtain rfl : left = none := Option.eq_none_iff_forall_not_mem.mpr fewer
          exact ⟨silent, later, all⟩
      | waitOnAck =>
          rw [state] at phase
          rcases phase with ⟨silent, pending, ahead, carries⟩ | ⟨single, quiet, all⟩
          · obtain ⟨left, held, later⟩ := ahead.disturbed
              (fun _ _ _ carries damaged => carries.spoiled damaged) carries plain changed
            exact .inl ⟨silent, left, later, held⟩
          · exact .inr ⟨single, idle quiet, all⟩
      | timeoutOnAck =>
          rw [state] at phase
          exact ⟨phase.1, idle phase.2⟩
      | done => trivial
      | exited => trivial

theorem InStep.step {event : Event} (fits : setup.bufSize ≤ 1392)
    (timely : Timely copy event next) (taken : copy.step setup event = some next) :
    ∃ later, Sound setup later next ∧ InStep setup later next := by
  cases event with
  | serverSend readFails unset =>
      simp only [Copy.step] at taken
      split at taken
      · rename_i state
        obtain ⟨later, after⟩ := sound.serverSend state taken
        exact ⟨later, after, inStep.serverSend sound state after taken⟩
      · cases taken
  | serverWait arrived =>
      simp only [Copy.step] at taken
      split at taken
      · rename_i state
        exact ⟨count, sound.serverWait state taken, inStep.serverWait sound state timely taken⟩
      · cases taken
  | serverTimeout =>
      simp only [Copy.step] at taken
      split at taken
      · rename_i state
        exact Option.some.inj taken ▸
          ⟨count, sound.serverTimeout state, inStep.serverTimeout sound state⟩
      · cases taken
  | clientReceive stale packet =>
      have after := sound.clientReceive fits taken
      exact ⟨count, after, inStep.clientReceive sound fits after taken⟩
  | clientTimeout => exact ⟨count, sound.clientTimeout taken, inStep.clientTimeout taken⟩
  | disturb direction fault =>
      exact ⟨count, sound.disturbed taken, inStep.disturbed timely taken⟩

end

theorem reach_inStep {setup : Setup} (fits : setup.bufSize ≤ 1392) {copy : Copy}
    (reach : Transition.Reach (Initial setup) (Copy.step setup) Timely copy) :
    ∃ count, Sound setup count copy ∧ InStep setup count copy := by
  apply reach.invariant
  · rintro first ⟨packet, behind, rfl⟩
    exact ⟨0, start_sound setup packet behind, start_inStep setup packet behind⟩
  · rintro before event after ⟨count, sound, inStep⟩ taken timely
    exact inStep.step sound fits timely taken

theorem InStep.output {setup : Setup} {count : Nat} {copy : Copy}
    (inStep : InStep setup count copy) (sound : Sound setup count copy) :
    copy.server.seqNum ≤ copy.output.length + 2 ∧
      (copy.ended = true ∨ copy.finished = true → copy.output.flatten = setup.file) := by
  obtain ⟨written, bound, expected, output⟩ := sound.written
  have close := inStep.close
  constructor
  · rw [output, List.length_map, List.length_range, sound.sending.seqNum]
    omega
  · intro past
    have finished : copy.finished = true := past.elim sound.ended id
    have all := inStep.complete finished
    obtain rfl : written = setup.numChunks := by
      rw [← (sound.finished finished).1]
      omega
    rw [output, setup.chunks_complete]

/-- When the server only times out with nothing under way, and the network only loses and changes
datagrams, rcopy is never more than a chunk behind, and has the whole file when it gets END_OF_FILE
and already when the server has read the end of the file. -/
theorem output_exact (setup : Setup) (fits : setup.bufSize ≤ 1392) (copy : Copy)
    (reach : Transition.Reach (Initial setup) (Copy.step setup) Timely copy) :
    copy.server.seqNum ≤ copy.output.length + 2 ∧
      (copy.ended = true ∨ copy.finished = true → copy.output.flatten = setup.file) := by
  obtain ⟨count, sound, inStep⟩ := reach_inStep fits reach
  exact inStep.output sound

def repaired : List Event :=
  let zero := Buffer.zero maxLen
  [.disturb .toClient (.lose 0), .serverSend false 0, .clientReceive zero zero, .serverWait none,
    .serverTimeout, .clientReceive zero zero, .disturb .toServer (.lose 0), .serverWait none,
    .serverTimeout, .clientReceive zero zero, .serverWait (some zero), .serverSend false 0,
    .disturb .toClient (.spoil 0 ⟨3, 9⟩), .clientReceive zero zero, .serverWait none,
    .serverTimeout, .clientReceive zero zero, .serverWait (some zero), .serverSend false 0,
    .clientReceive zero zero]

theorem output_exact_twoChunks : ∃ copy,
    Transition.run (Copy.step twoChunks) repaired (Copy.start twoChunks (Buffer.zero maxLen) 0) =
      some copy ∧
    copy.ended = true ∧ copy.output.flatten = twoChunks.file := by
  have ends : (Transition.run (Copy.step twoChunks) repaired
      (Copy.start twoChunks (Buffer.zero maxLen) 0)).map (fun copy => copy.ended) = some true := by
    decide +kernel
  obtain ⟨copy, executed, ended⟩ := Option.map_eq_some_iff.mp ends
  have reach : Transition.Reach (Initial twoChunks) (Copy.step twoChunks) Timely copy :=
    Transition.Reach.run repaired (.start ⟨_, 0, rfl⟩) executed (by decide +kernel)
  exact ⟨copy, executed, ended, (output_exact twoChunks (by decide) copy reach).2 (.inl ended)⟩

end Original
