import Cpe464.RemoteCopy.Agreement

/-!
What rcopy has written, and when the server says that the file has ended. Every block
that rcopy writes begins with its chunk of the file. END_OF_FILE means that all chunks are
written when `eof_index` is not compared before `read` has set it, and the output is the
file when no flush takes the short last chunk for a full one.
-/

namespace RemoteCopy

open Bytes

variable {setup : Setup}

/-! Blocks. -/

structure Written (setup : Setup) (transfer : Transfer) : Prop where
  count : transfer.output.length = (transfer.window.bottom - 1).toNat
  begins : ∀ (index : Nat) block, transfer.output[index]? = some block →
    setup.chunk (index + 1) <+: block

section

variable {transfer : Transfer} {received : Int × Packet} {rest : List Flight} {stack : Packet}
  {client : ClientState} {window : Window} {actions : List ClientAction}

/-- A flushed block is its chunk, filled with zeros to the length of the packet that was
received for `bottom`. Behind the first block that length is the buffer size. -/
theorem Agreed.block_eq (small : setup.Small) (agreed : Agreed setup transfer)
    (receives : receive setup.clientHost stack transfer.toClient = some (received, rest))
    (step : Receives transfer.window transfer.client (some received) client window actions)
    (index : Nat) (block : List UInt8)
    (found : (blocks actions)[index]? = some block) :
    (∃ zeros : List UInt8, block = setup.chunk (transfer.window.bottom.toNat + index) ++
      zeros.take ((setup.chunk transfer.window.bottom.toNat).length -
        (setup.chunk (transfer.window.bottom.toNat + index)).length)) ∧
    (0 < index → (setup.chunk transfer.window.bottom.toNat).length = setup.bufSize ∧
      transfer.toClient.head? =
        some (.intact (setup.dataFrame transfer.window.bottom.toNat)) ∧
      transfer.window.bottom + index ≤ transfer.window.top ∧
      transfer.window.isSet (transfer.window.bottom + index) = true) := by
  have bottom := agreed.settled.wellFormed.bottom_pos
  have chunks := agreed.middle_le_chunks
  simp only [blocks, List.getElem?_map, Option.map_eq_some_iff] at found
  obtain ⟨⟨payload, length⟩, found, rfl⟩ := found
  obtain ⟨packet, same, accepted, data, expected, cases⟩ :=
    step.written agreed.settled index payload length found
  obtain rfl := Option.some.inj same
  obtain ⟨_, front, cut, _, content⟩ := agreed.accepts small receives accepted data
    (by simp only; omega)
  simp only [expected] at front cut content
  simp only [cut, Int.toNat_natCast]
  rcases cases with ⟨rfl, rfl⟩ | ⟨positive, inside, set, rfl⟩
  · refine ⟨⟨[], ?_⟩, by omega⟩
    rw [content, Nat.add_zero, List.take_left, List.take_nil, List.append_nil]
  · obtain ⟨before, waiting⟩ := agreed.waiting _ (by omega) inside set
    have number : (transfer.window.bottom + index).toNat = transfer.window.bottom.toNat + index := by
      omega
    rw [number] at waiting
    have full := setup.chunk_full transfer.window.bottom.toNat (by omega) (by omega)
    have fits := setup.chunk_length_le (transfer.window.bottom.toNat + index)
    refine ⟨⟨List.replicate (maxPacketLength -
      (setup.chunk (transfer.window.bottom.toNat + index)).length) 0, ?_⟩,
      fun _ => ⟨full, front, inside, set⟩⟩
    rw [waiting, List.take_append, List.take_of_length_le (by omega)]

end

theorem initial_written {transfer : Transfer} (initial : Initial setup transfer) :
    Written setup transfer := by
  obtain ⟨packet, eofIndex, duplicates, rfl⟩ := initial
  constructor
  · rfl
  · intro index block found
    simp [started] at found

theorem blocks_length (actions : List ClientAction) :
    (blocks actions).length = (writes actions).length := by
  simp [blocks]

theorem Moves.silent {transfer next : Transfer} {event : Event}
    (moves : Moves setup transfer event next)
    (other : ∀ stack control, event ≠ .clientReceive stack control) :
    next.output = transfer.output ∧ next.window = transfer.window ∧
      next.ended = transfer.ended := by
  cases moves with
  | @receive stack control => exact absurd rfl (other stack control)
  | timeout steps =>
      obtain ⟨_, _, same⟩ := clientStep_timeout steps
      exact ⟨rfl, same, rfl⟩
  | _ => exact ⟨rfl, rfl, rfl⟩

theorem step_written (small : setup.Small) {transfer next : Transfer} {event : Event}
    (agreed : Agreed setup transfer) (written : Written setup transfer)
    (moves : Moves setup transfer event next) : Written setup next := by
  by_cases receipt : ∃ stack control, event = .clientReceive stack control
  · obtain ⟨stack, control, rfl⟩ := receipt
    cases moves with
    | @receive stack control received rest client window actions receives steps =>
        have bottom := agreed.settled.wellFormed.bottom_pos
        obtain ⟨_, step⟩ := clientStep_receives agreed.settled
          (agreed.fits small receives window) steps
        have forward := step.bottom_eq
        have count := written.count
        constructor
        · simp only [List.length_append, blocks_length]
          omega
        · intro index block found
          by_cases old : index < transfer.output.length
          · rw [List.getElem?_append_left old] at found
            exact written.begins index block found
          · rw [List.getElem?_append_right (by omega)] at found
            obtain ⟨⟨zeros, content⟩, _⟩ := agreed.block_eq small receives step _
              block found
            rw [content, show transfer.window.bottom.toNat + (index - transfer.output.length) =
              index + 1 by omega]
            exact List.prefix_append _ _
    | networkToServer disturbs => cases disturbs
    | networkToClient disturbs => cases disturbs
  · obtain ⟨output, window, _⟩ := moves.silent (fun stack control same =>
      receipt ⟨stack, control, same⟩)
    exact ⟨by rw [output, window]; exact written.count, by rw [output]; exact written.begins⟩

theorem Reachable.written (small : setup.Small) {transfer : Transfer}
    (reach : Reachable setup transfer) : Written setup transfer := by
  apply Transition.Reach.invariantWith reach (fun _ reached => Reachable.agreed small reached)
  · intro first initial
    exact initial_written initial
  · intro before event after agreed written taken _
    exact step_written small agreed written (step_moves taken)

/-! The end of the file. -/

def Setup.endIndex (setup : Setup) : Int := setup.numChunks + 1

def EndRead (setup : Setup) (transfer : Transfer) : Prop :=
  transfer.readZero = true → transfer.server.eofIndex = setup.endIndex ∧
    transfer.server.window.middle = setup.endIndex

theorem send_endRead (small : setup.Small) {transfer : Transfer}
    (agreed : Agreed setup transfer) (endRead : EndRead setup transfer)
    {readFails arrived : Bool} {next : Server} {sent : List (List UInt8)}
    (sends : sendData setup.serverHost (readFile setup readFails transfer.server.offset) arrived
      transfer.server = some (next, sent))
    (read : (transfer.readZero || (!isClosed transfer.server.window &&
      readFile setup readFails transfer.server.offset == some [])) = true) :
    next.eofIndex = setup.endIndex ∧ next.window.middle = setup.endIndex := by
  rcases agreed.sends small sends with
    ⟨closed, _, rfl⟩ | ⟨rfl, _, packet, rfl⟩ | ⟨_, _, _, last, packet, rfl⟩ |
    ⟨rfl, inside, _, _, packet, _, rfl⟩
  · rw [closed, Bool.not_true, Bool.false_and, Bool.or_false] at read
    exact endRead read
  · rw [show (readFile setup true transfer.server.offset == some []) = false from rfl,
      Bool.and_false, Bool.or_false] at read
    exact endRead read
  · exact ⟨last, last⟩
  · exfalso
    have positive := agreed.middle_pos
    rw [agreed.read_eq, Bool.or_eq_true, Bool.and_eq_true, beq_iff_eq,
      Option.some.injEq] at read
    rcases read with old | ⟨_, empty⟩
    · have last := (endRead old).2
      unfold Setup.endIndex at last
      omega
    · rw [show transfer.server.window.middle.toNat =
        (transfer.server.window.middle - 1).toNat + 1 by omega, setup.chunk_eq_nil_iff] at empty
      omega

theorem step_endRead (small : setup.Small) {transfer next : Transfer} {event : Event}
    (agreed : Agreed setup transfer) (endRead : EndRead setup transfer)
    (moves : Moves setup transfer event next) : EndRead setup next := by
  intro read
  cases moves with
  | send _ sends => exact send_endRead small agreed endRead sends read
  | process state receives processes =>
      obtain ⟨middle, index⟩ := agreed.process_frame small state receives processes
      simp only [middle, index]
      exact endRead read
  | wait _ waits =>
      rcases waitOnAck_cases agreed.serverWindow waits with
        ⟨_, _, rfl⟩ | ⟨_, _, _, rfl⟩ | ⟨_, _, _, resent⟩
      · exact endRead read
      · exact endRead read
      · obtain ⟨_, window, _, index, _⟩ := agreed.resends resent
        simp only [window, index]
        exact endRead read
  | bye _ answers =>
      obtain ⟨_, _, made⟩ := bye_cases answers
      rw [made]
      exact endRead read
  | @hear stack received =>
      obtain ⟨_, _, made⟩ := byeReceive_cases received transfer.server
      rw [made]
      exact endRead read
  | _ => exact endRead read

theorem Reachable.endRead (small : setup.Small) {transfer : Transfer}
    (reach : Reachable setup transfer) : EndRead setup transfer := by
  apply Transition.Reach.invariantWith reach (fun _ reached => Reachable.agreed small reached)
  · rintro first ⟨packet, eofIndex, duplicates, rfl⟩ impossible
    cases impossible
  · intro before event after agreed endRead taken _
    exact step_endRead small agreed endRead (step_moves taken)

structure Announces (setup : Setup) (fact : Prop) (transfer : Transfer) : Prop where
  bye : transfer.server.state = .bye → fact
  announced : ∀ seqNum, setup.endFlight seqNum ∈ transfer.toClient → fact

theorem initial_announces {transfer : Transfer} {fact : Prop} (initial : Initial setup transfer) :
    Announces setup fact transfer := by
  obtain ⟨packet, eofIndex, duplicates, rfl⟩ := initial
  constructor
  · intro impossible
    cases impossible
  · intro seqNum member
    have same := List.eq_of_mem_replicate member
    have flags := frame_flag setup.serverHost seqNum Flag.endOfFile.code []
    rw [Flight.intact.inj same, frame_flag] at flags
    exact absurd flags (by decide)

theorem Announces.sends {transfer : Transfer} {fact : Prop}
    (announces : Announces setup fact transfer) {sent : List (List UInt8)}
    (data : ∀ datagram ∈ sent, ∃ number : Nat, datagram = setup.dataFrame number)
    (seqNum : UInt32)
    (member : setup.endFlight seqNum ∈ transfer.toClient ++ sent.map .intact) : fact := by
  rcases List.mem_append.mp member with old | new
  · exact announces.announced seqNum old
  · obtain ⟨datagram, inside, same⟩ := List.mem_map.mp new
    obtain ⟨number, rfl⟩ := data datagram inside
    exact absurd same (dataFrame_ne_endFlight number seqNum)

theorem step_announces (small : setup.Small) {transfer next : Transfer} {event : Event}
    {fact later : Prop} (agreed : Agreed setup transfer)
    (announces : Announces setup fact transfer) (moves : Moves setup transfer event next)
    (kept : fact → later)
    (reached : ∀ stack received rest, event = .serverProcess stack →
      receive setup.serverHost stack transfer.toServer = some (received, rest) →
      acceptedRr received = [transfer.server.eofIndex] →
      transfer.server.eofIndex ≤ transfer.window.bottom →
      transfer.toServer = setup.rrFlight transfer.server.eofIndex :: rest → later) :
    Announces setup later next := by
  cases moves with
  | send _ sends =>
      rcases agreed.sends small sends with
        ⟨_, rfl, rfl⟩ | ⟨_, rfl, packet, rfl⟩ | ⟨_, _, rfl, _, packet, rfl⟩ |
        ⟨_, _, _, rfl, packet, _, rfl⟩
      · exact ⟨by simp, fun seqNum member => kept (announces.sends (by simp) seqNum member)⟩
      · exact ⟨by simp, fun seqNum member => kept (announces.sends (by simp) seqNum member)⟩
      · exact ⟨by simp, fun seqNum member => kept (announces.sends (by simp) seqNum member)⟩
      · refine ⟨?_, fun seqNum member => kept (announces.sends ?_ seqNum member)⟩
        · simp only
          split <;> simp
        · intro datagram inside
          exact ⟨_, List.mem_singleton.mp inside⟩
  | @process stack received rest next sent state receives processes =>
      rcases agreed.processes small state receives processes with
        ⟨_, rfl, rfl⟩ | ⟨accepted, rr, _, upper, channel, rfl, rfl⟩ | ⟨_, _, _, _, _, resent⟩
      · exact ⟨by simp, fun seqNum member => kept (announces.sends (by simp) seqNum member)⟩
      · refine ⟨?_, fun seqNum member => kept (announces.sends (by simp) seqNum member)⟩
        simp only
        split
        · rename_i same
          intro _
          exact reached stack received rest rfl receives
            (by rw [acceptedRr, if_pos ⟨accepted, rr⟩, same]) (same ▸ upper) (same ▸ channel)
        · simp
      · obtain ⟨data, _, _, _, after⟩ := agreed.resends resent
        refine ⟨?_, fun seqNum member => kept (announces.sends ?_ seqNum member)⟩
        · rcases after with other | other <;> simp [other]
        · intro datagram inside
          obtain ⟨number, _, _, same⟩ := data datagram inside
          exact ⟨number, same⟩
  | wait _ waits =>
      rcases waitOnAck_cases agreed.serverWindow waits with
        ⟨_, rfl, rfl⟩ | ⟨_, _, rfl, rfl⟩ | ⟨_, _, _, resent⟩
      · exact ⟨by simp, fun seqNum member => kept (announces.sends (by simp) seqNum member)⟩
      · exact ⟨by simp, fun seqNum member => kept (announces.sends (by simp) seqNum member)⟩
      · obtain ⟨data, _, _, _, after⟩ := agreed.resends resent
        refine ⟨?_, fun seqNum member => kept (announces.sends ?_ seqNum member)⟩
        · rcases after with other | other <;> simp [other]
        · intro datagram inside
          obtain ⟨number, _, _, same⟩ := data datagram inside
          exact ⟨number, same⟩
  | bye state => exact ⟨fun _ => kept (announces.bye state), fun _ _ => kept (announces.bye state)⟩
  | hear state => exact ⟨fun _ => kept (announces.bye state), fun _ _ => kept (announces.bye state)⟩
  | receive receives =>
      obtain ⟨flight, channel⟩ := receive_cons receives
      refine ⟨fun bye => kept (announces.bye bye), fun seqNum member => ?_⟩
      exact kept (announces.announced seqNum (channel ▸ List.mem_cons_of_mem _ member))
  | networkToClient disturbs =>
      refine ⟨fun bye => kept (announces.bye bye), fun seqNum member => ?_⟩
      rcases disturb_subchannel disturbs _ member with corrupted | old
      · cases corrupted
      · exact kept (announces.announced seqNum old)
  | _ =>
      exact ⟨fun bye => kept (announces.bye bye),
        fun seqNum member => kept (announces.announced seqNum member)⟩

structure Completed (setup : Setup) (transfer : Transfer) : Prop where
  announces : Announces setup (transfer.window.bottom = setup.endIndex) transfer
  ended : transfer.ended = true → transfer.window.bottom = setup.endIndex

/-- `process` meets an RR with the number in `eof_index` only after `read` has returned 0, or
when `eof_index` happens to hold its final value. -/
def EndHonest (setup : Setup) (transfer : Transfer) (event : Event) (_ : Transfer) : Prop :=
  match event with
  | .serverProcess _ =>
      transfer.toServer.head? = some (setup.rrFlight transfer.server.eofIndex) →
        transfer.readZero = true ∨ transfer.server.eofIndex = setup.endIndex
  | _ => True

instance (setup : Setup) (transfer next : Transfer) (event : Event) :
    Decidable (EndHonest setup transfer event next) := by
  unfold EndHonest
  split <;> infer_instance

theorem Moves.bottom_le (small : setup.Small) {transfer next : Transfer} {event : Event}
    (agreed : Agreed setup transfer) (moves : Moves setup transfer event next) :
    transfer.window.bottom ≤ next.window.bottom ∧ next.window.bottom ≤ setup.endIndex := by
  have chunks := agreed.middle_le_chunks
  have below := agreed.bottom_le_middle
  have stays : transfer.window.bottom ≤ setup.endIndex := by
    unfold Setup.endIndex
    omega
  cases moves with
  | @receive _ _ _ _ _ window _ receives steps =>
      obtain ⟨_, step⟩ := clientStep_receives agreed.settled
        (agreed.fits small receives window) steps
      have middle := (agreed.replies small receives step).1
      refine ⟨step.bottom_le, ?_⟩
      unfold Setup.endIndex
      simp only
      omega
  | timeout steps =>
      obtain ⟨_, _, rfl⟩ := clientStep_timeout steps
      exact ⟨Int.le_refl _, stays⟩
  | _ => exact ⟨Int.le_refl _, stays⟩

theorem step_completed (small : setup.Small) {transfer next : Transfer} {event : Event}
    (agreed : Agreed setup transfer) (endRead : EndRead setup transfer)
    (completed : Completed setup transfer) (moves : Moves setup transfer event next)
    (honest : EndHonest setup transfer event next) : Completed setup next := by
  obtain ⟨forward, bound⟩ := moves.bottom_le small agreed
  have stays (all : transfer.window.bottom = setup.endIndex) :
      next.window.bottom = setup.endIndex := by
    omega
  constructor
  · apply step_announces small agreed completed.announces moves stays
    rintro stack received rest rfl _ _ written channel
    have final : transfer.server.eofIndex = setup.endIndex := by
      rcases honest (by rw [channel, List.head?_cons]) with read | lucky
      · exact (endRead read).1
      · exact lucky
    omega
  · intro ended
    cases moves with
    | @receive _ _ received _ client _ _ receives steps =>
        rw [Bool.or_eq_true] at ended
        rcases ended with old | now
        · exact stays (completed.ended old)
        · simp only [acceptsEnd, Bool.and_eq_true, decide_eq_true_eq, beq_iff_eq] at now
          obtain ⟨⟨accepted, ends⟩, _⟩ := now
          exact stays (completed.announces.announced _
            (agreed.ends small receives accepted ends).2)
    | _ => exact stays (completed.ended ended)

/-! What END_OF_FILE means. -/

def EndKnown (setup : Setup) (transfer : Transfer) (event : Event) (_ : Transfer) : Prop :=
  match event with
  | .serverProcess _ =>
      transfer.toServer.head? = some (setup.rrFlight transfer.server.eofIndex) →
        transfer.readZero = true
  | _ => True

instance (setup : Setup) (transfer next : Transfer) (event : Event) :
    Decidable (EndKnown setup transfer event next) := by
  unfold EndKnown
  split <;> infer_instance

theorem EndKnown.honest {transfer next : Transfer} {event : Event}
    (known : EndKnown setup transfer event next) : EndHonest setup transfer event next := by
  cases event with
  | serverProcess stack => exact fun same => Or.inl (known same)
  | _ => trivial

def EndConfirmed (setup : Setup) (transfer : Transfer) : Prop :=
  transfer.readZero = true ∧ setup.endIndex ∈ transfer.rrReceived

theorem Moves.confirmed {transfer next : Transfer} {event : Event}
    (moves : Moves setup transfer event next) (confirmed : EndConfirmed setup transfer) :
    EndConfirmed setup next := by
  obtain ⟨read, received⟩ := confirmed
  cases moves with
  | send => exact ⟨by simp only [read, Bool.true_or], received⟩
  | process => exact ⟨read, List.mem_append_left _ received⟩
  | _ => exact ⟨read, received⟩

theorem step_confirmed (small : setup.Small) {transfer next : Transfer} {event : Event}
    (agreed : Agreed setup transfer) (endRead : EndRead setup transfer)
    (announces : Announces setup (EndConfirmed setup transfer) transfer)
    (moves : Moves setup transfer event next) (known : EndKnown setup transfer event next) :
    Announces setup (EndConfirmed setup next) next := by
  apply step_announces small agreed announces moves moves.confirmed
  rintro stack received rest rfl receives accepted _ channel
  have read := known (by rw [channel, List.head?_cons])
  cases moves with
  | process _ receives' =>
      rw [receives, Option.some.injEq, Prod.mk.injEq] at receives'
      obtain ⟨rfl, rfl⟩ := receives'
      refine ⟨read, List.mem_append_right _ ?_⟩
      rw [accepted, (endRead read).1]
      exact List.mem_singleton_self _
  | networkToServer disturbs => cases disturbs
  | networkToClient disturbs => cases disturbs

/-! Runs. -/

theorem reach_completed (small : setup.Small) {transfer : Transfer}
    (reach : Transition.Reach (Initial setup) (step setup) (EndHonest setup) transfer) :
    Completed setup transfer := by
  apply reach.invariantWith (fun _ reached => Reachable.of reached)
  · intro first initial
    refine ⟨initial_announces initial, ?_⟩
    obtain ⟨packet, eofIndex, duplicates, rfl⟩ := initial
    intro impossible
    cases impossible
  · intro before event after reached completed taken honest
    exact step_completed small (reached.agreed small) (reached.endRead small) completed
      (step_moves taken) honest

/-- BYE is entered, and END_OF_FILE sent, only after the end of the file was read and all of
it acknowledged, and END_OF_FILE finds every chunk written. -/
theorem endOfFile_complete (small : setup.Small) (transfer : Transfer)
    (reach : Transition.Reach (Initial setup) (step setup) (EndKnown setup) transfer) :
    (transfer.server.state = .bye →
      transfer.readZero = true ∧ (setup.numChunks : Int) + 1 ∈ transfer.rrReceived) ∧
    (∀ seqNum, setup.endFlight seqNum ∈ transfer.toClient →
      transfer.readZero = true ∧ (setup.numChunks : Int) + 1 ∈ transfer.rrReceived) ∧
    (∀ stack received rest,
      receive setup.clientHost stack transfer.toClient = some (received, rest) →
      received.1 ≠ crcError → received.2.flag = Flag.endOfFile.code →
      transfer.output.length = setup.numChunks ∧
        ∀ (index : Nat) block, transfer.output[index]? = some block →
          setup.chunk (index + 1) <+: block) := by
  have reachable := Reachable.of reach
  have completed := reach_completed small (reach.mono (fun _ _ _ => EndKnown.honest))
  have confirmed : Announces setup (EndConfirmed setup transfer) transfer := by
    apply reach.invariantWith (fun _ reached => Reachable.of reached)
    · intro first initial
      exact initial_announces initial
    · intro before event after reached confirmed taken known
      exact step_confirmed small (reached.agreed small) (reached.endRead small) confirmed
        (step_moves taken) known
  refine ⟨confirmed.bye, confirmed.announced, ?_⟩
  intro stack received rest receives accepted ends
  have written := reachable.written small
  have all := completed.announces.announced _
    ((reachable.agreed small).ends small receives accepted ends).2
  have count := written.count
  unfold Setup.endIndex at all
  exact ⟨by omega, written.begins⟩

def regular : List Event :=
  [.serverSend false false, .serverSend false false, .clientReceive Packet.zero Packet.zero,
    .clientReceive Packet.zero Packet.zero, .serverSend false false, .serverWait true,
    .serverProcess Packet.zero, .serverSend false false, .serverWait true,
    .serverProcess Packet.zero]

theorem endOfFile_complete_twoChunks : ∃ transfer,
    Transition.run (step twoChunks) regular (started twoChunks Packet.zero 0 0) = some transfer ∧
    transfer.server.state = .bye ∧ transfer.readZero = true ∧
    (twoChunks.numChunks : Int) + 1 ∈ transfer.rrReceived := by
  have bye : (Transition.run (step twoChunks) regular (started twoChunks Packet.zero 0 0)).map
      (fun transfer => transfer.server.state) = some .bye := by
    decide +kernel
  obtain ⟨transfer, executed, state⟩ := Option.map_eq_some_iff.mp bye
  have reach : Transition.Reach (Initial twoChunks) (step twoChunks) (EndKnown twoChunks)
      transfer :=
    Transition.Reach.run regular (.start ⟨Packet.zero, 0, 0, rfl⟩) executed (by decide +kernel)
  exact ⟨transfer, executed, state,
    (endOfFile_complete (by decide +kernel) transfer reach).1 state⟩

def surprised : List Event :=
  [.serverSend false false, .clientReceive Packet.zero Packet.zero, .serverSend false true,
    .serverProcess Packet.zero, .lose .toClient 0, .serverBye Packet.zero,
    .clientReceive Packet.zero Packet.zero]

theorem endOfFile_early : ∃ setup transfer, Setup.Small setup ∧ Reachable setup transfer ∧
    transfer.server.state = .bye ∧ transfer.readZero = false ∧ transfer.ended = true ∧
    transfer.output.length < setup.numChunks := by
  have early : (Transition.run (step twoChunks) surprised
      (started twoChunks Packet.zero 2 0)).map (fun transfer =>
        (transfer.server.state, transfer.readZero, transfer.ended, transfer.output.length)) =
          some (.bye, false, true, 1) := by
    decide +kernel
  obtain ⟨transfer, executed, values⟩ := Option.map_eq_some_iff.mp early
  simp only [Prod.mk.injEq] at values
  obtain ⟨state, read, ended, length⟩ := values
  refine ⟨twoChunks, transfer, by decide +kernel, twoChunks_reachable 2 _ transfer executed, state,
    read, ended, ?_⟩
  rw [length]
  decide +kernel

end RemoteCopy
