import Cpe464.Original.CopySteps

/-!
Datagrams that are longer than `recv_buf` is asked for. `recvfrom` drops their end, and they are
only received when it does not count in the sum. The buffer sizes behind 1392 lead to such
datagrams.
-/

namespace Original

open Bytes Channel OnesComplement Transition
open RemoteCopy (Setup Direction)

/-- A datagram is received without its end exactly when the end sums up to a multiple of 65535 and
the rest is not zero. -/
theorem recvBuf_cut (sender receiver : ByteOrder) (stale : Buffer maxLen) {len : Nat}
    (even : len % 2 = 0) (enough : 8 ≤ len) (seqNum : UInt32) (flag : UInt8) (data : List UInt8)
    (behind : UInt8) (long : len < data.length + 8) (short : data.length + 8 ≤ maxLen) :
    let sent := datagram sender seqNum flag data behind
    recvBuf receiver stale len sent =
      if wordSum receiver (sent.drop len) % 65535 = 0 ∧ 0 < wordSum receiver (sent.take len) then
        some ⟨(len - 8 : Nat), flag, seqNum, data.take (len - 8)⟩
      else none := by
  intro sent
  have limit : len ≤ maxLen := by omega
  have length : sent.length = data.length + 8 := datagram_length sender seqNum flag data behind
  have summed := (wordSum_dvd_iff sender receiver sent).mp
    (datagram_summed sender seqNum flag data behind short).1
  have parts := wordSum_append receiver (sent.take len) (sent.drop len) (by
    rw [List.length_take]
    omega)
  rw [List.take_append_drop] at parts
  have accepted := recvBuf_isSome_iff receiver stale limit sent
  split
  · rename_i holds
    obtain ⟨last, rest, follows⟩ := List.exists_cons_of_ne_nil
      (l := data.drop (len - 8)) (by
        rw [ne_eq, List.drop_eq_nil_iff]
        omega)
    have split : data = data.take (len - 8) ++ last :: rest := by
      rw [← follows, List.take_append_drop]
    have front := List.length_take_of_le (l := data) (i := len - 8) (by omega)
    obtain ⟨checksum, two, layout⟩ : ∃ checksum, checksum.length = 2 ∧
        sent = htonl seqNum ++ checksum ++ (flag :: data ++ [behind]) :=
      ⟨_, sender.split_length _, rfl⟩
    have cut : sent.take len =
        htonl seqNum ++ checksum ++ (flag :: data.take (len - 8) ++ [last]) := by
      have parts : sent = htonl seqNum ++ checksum ++ (flag :: data.take (len - 8) ++ [last]) ++
          (rest ++ [behind]) := by
        rw [layout]
        nth_rewrite 1 [split]
        simp
      rw [parts, List.take_left']
      simp only [List.length_append, List.length_cons, List.length_nil, htonl_length, two, front]
      omega
    have received := recvBuf_fields receiver receiver stale limit seqNum checksum two flag
      (data.take (len - 8)) last sent cut ⟨by omega, holds.2⟩
    rw [received, front]
  · rename_i fails
    rw [← Option.not_isSome_iff_eq_none, accepted]
    rintro ⟨divides, positive⟩
    exact fails ⟨by omega, positive⟩

/-! The buffer sizes that leave no room for the header. -/

def Losing (_ : Copy) : Event → Copy → Prop
  | .disturb _ (.lose _), _ => True
  | .disturb _ _, _ => False
  | _, _ => True

def Copy.pending (copy : Copy) : List Flight :=
  if copy.client.state = .recvData then copy.toClient else copy.toClient.tail

def FirstChunk (setup : Setup) (flight : Flight) : Prop :=
  ∃ behind, flight = .intact (datagram setup.serverHost 1 Flag.data.code (setup.chunk 1) behind)

structure Stuck (setup : Setup) (copy : Copy) : Prop where
  number : copy.server.seqNum ≤ 2
  first : copy.server.state = .sendData → copy.server.seqNum = 1 ∧ copy.server.offset = 0
  held : copy.server.state = .waitOnAck ∨ copy.server.state = .timeoutOnAck →
    FirstChunk setup (.intact (copy.server.packet.bytes.take copy.server.packetLen))
  silent : copy.toServer = []
  pending : ∀ flight ∈ copy.pending, FirstChunk setup flight
  output : copy.output = []
  ended : copy.ended = false
  finished : copy.finished = false

theorem start_stuck (setup : Setup) (packet : Buffer maxLen) (behind : UInt8) :
    Stuck setup (Copy.start setup packet behind) := by
  constructor
  · exact (by decide : (1 : Int) ≤ 2)
  · exact fun _ => ⟨rfl, rfl⟩
  · rintro (state | state) <;> cases state
  · rfl
  · intro flight member
    cases member
  · rfl
  · rfl
  · rfl

section

variable {setup : Setup} {copy next : Copy} (stuck : Stuck setup copy)

include stuck

theorem Stuck.pending_of (queue : List Flight) {flight : Flight}
    (before : ∀ flight ∈ queue, flight ∈ copy.toClient ∨ FirstChunk setup flight)
    (tail : ∀ flight ∈ queue.tail, flight ∈ copy.toClient.tail ∨ FirstChunk setup flight)
    (member : flight ∈ Copy.pending { copy with toClient := queue }) : FirstChunk setup flight := by
  simp only [Copy.pending] at member
  split at member
  · rename_i state
    rcases before flight member with old | new
    · exact stuck.pending flight (by rwa [Copy.pending, if_pos state])
    · exact new
  · rename_i state
    rcases tail flight member with old | new
    · exact stuck.pending flight (by rwa [Copy.pending, if_neg state])
    · exact new

theorem Stuck.sent {server : Server} {flight : Flight} (number : server.seqNum ≤ 2)
    (state : server.state = .waitOnAck)
    (held : server.packet.bytes.take server.packetLen = flight.datagram)
    (chunk : FirstChunk setup flight) :
    Stuck setup { copy with server, toClient := copy.toClient ++ [flight] } := by
  refine ⟨number, ?_, ?_, stuck.silent, ?_, stuck.output, stuck.ended, stuck.finished⟩
  · intro sending
    rw [state] at sending
    cases sending
  · intro _
    obtain ⟨behind, rfl⟩ := chunk
    exact ⟨behind, congrArg _ held⟩
  · intro other member
    refine stuck.pending_of (copy.toClient ++ [flight]) ?_ ?_ member
    · intro other member
      rcases List.mem_append.mp member with old | new
      · exact .inl old
      · exact .inr (List.mem_singleton.mp new ▸ chunk)
    · intro other member
      cases queue : copy.toClient with
      | nil =>
          rw [queue] at member
          cases member
      | cons head rest =>
          rw [queue] at member
          rcases List.mem_append.mp member with old | new
          · exact .inl old
          · exact .inr (List.mem_singleton.mp new ▸ chunk)

theorem Stuck.stopped {server : Server} (number : server.seqNum ≤ 2)
    (state : server.state = .done ∨ server.state = .exited) :
    Stuck setup { copy with server } := by
  refine ⟨number, ?_, ?_, stuck.silent, stuck.pending, stuck.output, stuck.ended, stuck.finished⟩
  · intro sending
    rw [sending] at state
    rcases state with state | state <;> cases state
  · intro waits
    rcases waits with waits | waits <;> rw [waits] at state <;>
      rcases state with state | state <;> cases state

theorem Stuck.serverSend {readFails : Bool} {unset : UInt8} (full : setup.chunk 1 ≠ [])
    (state : copy.server.state = .sendData)
    (taken : serverSend setup readFails unset copy = some next) : Stuck setup next := by
  obtain ⟨number, offset⟩ := stuck.first state
  simp only [Original.serverSend, Option.bind_eq_bind, Option.bind_eq_some_iff] at taken
  obtain ⟨⟨server, sent⟩, sends, taken⟩ := taken
  obtain rfl := Option.some.inj taken
  have reads : RemoteCopy.readFile setup readFails copy.server.offset =
      if readFails then none else some (setup.chunk 1) := by
    have start : setup.offset 0 = 0 := by simp [Setup.offset]
    cases readFails with
    | true => rfl
    | false =>
        rw [offset, ← start]
        exact setup.readFile_offset 0
  have going : (RemoteCopy.readFile setup readFails copy.server.offset == some []) = false := by
    rw [reads]
    cases readFails <;> simp [full]
  rw [going, Bool.or_false]
  rw [reads] at sends
  rcases sendData_cases sends with ⟨_, rfl, rfl⟩ | ⟨nothing, _⟩ |
    ⟨data, read, _, _, packet, behind, held, rfl, rfl⟩
  · rw [List.map_nil, List.append_nil]
    exact stuck.stopped (by simp only [number]; decide) (.inl rfl)
  · cases readFails with
    | true => cases nothing
    | false => exact absurd (Option.some.inj nothing) full
  · obtain rfl : setup.chunk 1 = data := by
      cases readFails with
      | true => cases read
      | false => exact Option.some.inj read
    refine stuck.sent (by simp only [number]; decide) rfl held ⟨behind, ?_⟩
    rw [number]
    rfl

theorem Stuck.serverWait {arrived : Option (Buffer maxLen)}
    (state : copy.server.state = .waitOnAck)
    (taken : serverWait setup arrived copy = some next) : Stuck setup next := by
  simp only [Original.serverWait] at taken
  split at taken
  · obtain rfl := Option.some.inj taken
    exact stuck.stopped stuck.number (.inl rfl)
  · split at taken
    · obtain rfl := Option.some.inj taken
      refine ⟨stuck.number, ?_, fun _ => stuck.held (.inl state), stuck.silent, stuck.pending,
        stuck.output, stuck.ended, stuck.finished⟩
      intro sending
      cases sending
    · rw [stuck.silent] at taken
      cases taken

theorem Stuck.serverTimeout (state : copy.server.state = .timeoutOnAck) :
    Stuck setup (serverTimeout copy) := by
  obtain ⟨behind, same⟩ := stuck.held (.inr state)
  exact stuck.sent stuck.number rfl rfl ⟨behind, same⟩

theorem Stuck.clientReceive {stale packet : Buffer maxLen}
    (lost : ∀ behind stale, recvBuf setup.clientHost stale 1400
      (datagram setup.serverHost 1 Flag.data.code (setup.chunk 1) behind) = none)
    (taken : clientReceive setup stale packet copy = some next) : Stuck setup next := by
  simp only [Original.clientReceive] at taken
  split at taken
  · cases taken
  · rename_i flight rest queue
    have less (client : Client) : Stuck setup { copy with client, toClient := rest } := by
      refine ⟨stuck.number, stuck.first, stuck.held, stuck.silent, ?_, stuck.output, stuck.ended,
        stuck.finished⟩
      intro other member
      have old : other ∈ rest := by
        simp only [Copy.pending] at member
        split at member
        · exact member
        · exact List.mem_of_mem_tail member
      apply stuck.pending
      rw [Copy.pending, queue]
      split
      · exact List.mem_cons_of_mem _ old
      · exact old
    split at taken
    · exact Option.some.inj taken ▸ less _
    · cases taken
    · rename_i running
      obtain ⟨behind, rfl⟩ := stuck.pending flight (by
        rw [Copy.pending, if_pos running, queue]
        exact List.mem_cons_self)
      simp only [recvData, Flight.datagram, lost, Option.bind_eq_bind, Option.bind_some,
        List.map_nil, List.append_nil, running] at taken
      obtain rfl := Option.some.inj taken
      have same := less copy.client
      exact ⟨same.number, same.first, same.held, same.silent, same.pending, same.output,
        by simp [stuck.ended], same.finished⟩
    · cases taken

theorem Stuck.clientTimeout (taken : clientTimeout copy = some next) : Stuck setup next := by
  have closes (client : Client) (closed : client.state ≠ .recvData) :
      Stuck setup { copy with client } := by
    refine ⟨stuck.number, stuck.first, stuck.held, stuck.silent, ?_, stuck.output, stuck.ended,
      stuck.finished⟩
    intro flight member
    rw [Copy.pending, if_neg closed] at member
    apply stuck.pending
    rw [Copy.pending]
    split
    · exact List.mem_of_mem_tail member
    · exact member
  unfold Original.clientTimeout at taken
  split at taken
  · exact Option.some.inj taken ▸ closes _ (by simp)
  · cases taken
  · exact Option.some.inj taken ▸ closes _ (by simp)
  · cases taken

theorem Stuck.lost {direction : Direction} {index : Nat}
    (taken : disturbed direction (.lose index) copy = some next) : Stuck setup next := by
  cases direction with
  | toServer =>
      obtain ⟨after, changed, rfl⟩ := Option.map_eq_some_iff.mp taken
      rw [stuck.silent, disturb_nil] at changed
      cases changed
  | toClient =>
      obtain ⟨after, changed, rfl⟩ := Option.map_eq_some_iff.mp taken
      simp only [disturb] at changed
      split at changed
      · obtain rfl := Option.some.inj changed
        have fewer := List.eraseIdx_sublist copy.toClient index
        refine ⟨stuck.number, stuck.first, stuck.held, stuck.silent, fun flight => ?_, stuck.output,
          stuck.ended, stuck.finished⟩
        exact stuck.pending_of _ (fun flight member => .inl (fewer.subset member))
          (fun flight member => .inl (fewer.tail.subset member))
      · cases changed

theorem Stuck.step {event : Event} (full : setup.chunk 1 ≠ [])
    (lost : ∀ behind stale, recvBuf setup.clientHost stale 1400
      (datagram setup.serverHost 1 Flag.data.code (setup.chunk 1) behind) = none)
    (losing : Losing copy event next) (taken : copy.step setup event = some next) :
    Stuck setup next := by
  cases event with
  | serverSend readFails unset =>
      simp only [Copy.step] at taken
      split at taken
      · rename_i state
        exact stuck.serverSend full state taken
      · cases taken
  | serverWait arrived =>
      simp only [Copy.step] at taken
      split at taken
      · rename_i state
        exact stuck.serverWait state taken
      · cases taken
  | serverTimeout =>
      simp only [Copy.step] at taken
      split at taken
      · rename_i state
        exact Option.some.inj taken ▸ stuck.serverTimeout state
      · cases taken
  | clientReceive stale packet => exact stuck.clientReceive lost taken
  | clientTimeout => exact stuck.clientTimeout taken
  | disturb direction fault =>
      cases fault with
      | lose index => exact stuck.lost taken
      | duplicate index => exact losing.elim
      | overtake index => exact losing.elim
      | spoil index damage => exact losing.elim

end

/-- With one of the buffer sizes 1394 to 1400, a file whose first chunk does not end with bytes
that cancel out is never copied: rcopy does not get one byte, even when nothing is lost. -/
theorem output_stalled (setup : Setup) (large : 1393 < setup.bufSize)
    (full : setup.bufSize ≤ setup.file.length)
    (ending : ∀ behind,
      wordSum setup.clientHost ((setup.chunk 1).drop 1393 ++ [behind]) % 65535 ≠ 0)
    (copy : Copy) (reach : Transition.Reach (Initial setup) (Copy.step setup) Losing copy) :
    copy.output = [] ∧ copy.ended = false ∧ copy.finished = false ∧ copy.server.seqNum ≤ 2 := by
  have length : (setup.chunk 1).length = setup.bufSize := by
    simp only [Setup.chunk, List.length_take, List.length_drop]
    omega
  have short := setup.bufSize_le
  simp only [RemoteCopy.maxPacketLength] at short
  have lost (behind : UInt8) (stale : Buffer maxLen) : recvBuf setup.clientHost stale 1400
      (datagram setup.serverHost 1 Flag.data.code (setup.chunk 1) behind) = none := by
    have cut : (datagram setup.serverHost 1 Flag.data.code (setup.chunk 1) behind).drop 1400 =
        (setup.chunk 1).drop 1393 ++ [behind] := by
      have inside : 1393 - (setup.chunk 1).length = 0 := by omega
      simp [datagram, List.drop_append, htonl, inside]
    rw [recvBuf_cut setup.serverHost setup.clientHost stale (by decide) (by decide) 1 _ _ behind
      (by omega) (by simp only [maxLen]; omega), cut]
    exact if_neg fun accepted => ending behind accepted.1
  have stuck : Stuck setup copy := by
    apply reach.invariant
    · rintro first ⟨packet, behind, rfl⟩
      exact start_stuck setup packet behind
    · intro before event after stuck taken losing
      refine stuck.step ?_ lost losing taken
      intro empty
      rw [empty, List.length_nil] at length
      omega
  exact ⟨stuck.output, stuck.ended, stuck.finished, stuck.number⟩

def largeChunk : Setup where
  file := List.replicate 1400 65
  bufSize := 1400
  windowSize := 1
  serverHost := .little
  clientHost := .little
  bufSize_pos := by decide
  bufSize_le := by decide
  windowSize_pos := twoChunks.windowSize_pos

theorem output_stalled_largeChunk : ∃ copy,
    Transition.run (Copy.step largeChunk) [.clientReceive (Buffer.zero maxLen) (Buffer.zero maxLen),
      .serverSend false 0, .clientReceive (Buffer.zero maxLen) (Buffer.zero maxLen)]
        (Copy.start largeChunk (Buffer.zero maxLen) 0) = some copy ∧
    copy.toClient = [] ∧ copy.output = [] := by
  have received : (Transition.run (Copy.step largeChunk)
      [.clientReceive (Buffer.zero maxLen) (Buffer.zero maxLen), .serverSend false 0,
        .clientReceive (Buffer.zero maxLen) (Buffer.zero maxLen)]
      (Copy.start largeChunk (Buffer.zero maxLen) 0)).map (fun copy => copy.toClient) =
        some [] := by
    decide +kernel
  obtain ⟨copy, executed, silent⟩ := Option.map_eq_some_iff.mp received
  have reach : Transition.Reach (Initial largeChunk) (Copy.step largeChunk) Losing copy :=
    Transition.Reach.run _ (.start ⟨_, 0, rfl⟩) executed
      fun _ _ => ⟨trivial, fun _ _ => ⟨trivial, fun _ _ => ⟨trivial, trivial⟩⟩⟩
  have ending (behind : UInt8) :
      wordSum .little ((largeChunk.chunk 1).drop 1393 ++ [behind]) % 65535 ≠ 0 := by
    have bound := behind.toNat_lt
    have last : (largeChunk.chunk 1).drop 1393 = List.replicate 7 65 := by decide +kernel
    simp only [last, List.replicate_succ, List.replicate_zero, List.cons_append, List.nil_append,
      wordSum, ByteOrder.word]
    have letter : (65 : UInt8).toNat = 65 := rfl
    omega
  exact ⟨copy, executed, silent,
    (output_stalled largeChunk (by decide) (by decide +kernel) ending copy reach).1⟩

end Original
