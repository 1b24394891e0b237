import Cpe464.RemoteCopy.TransferSteps

/-!
The joint invariant of the two windows. It holds of every state that a transfer reaches
over any network, whatever `eof_index` and the stack hold at the start.
-/

namespace RemoteCopy

open Bytes

def Setup.Small (setup : Setup) : Prop := (setup.numChunks : Int) + setup.windowSize < 2 ^ 31

instance (setup : Setup) : Decidable setup.Small := inferInstanceAs (Decidable (_ < _))

def Setup.Holds (setup : Setup) (packet : Packet) (number : Int) : Prop :=
  packet.number = number ∧ sendPacket2 packet = some (setup.dataFrame number.toNat)

inductive Downlink (setup : Setup) (middle : Int) (state : ServerState) : Flight → Prop
  | corrupted : Downlink setup middle state .corrupted
  | fnameOk : Downlink setup middle state setup.fnameOkFlight
  | data {number : Nat} : 1 ≤ number → (number : Int) < middle →
      Downlink setup middle state (.intact (setup.dataFrame number))
  | ends {number : UInt32} : state.Finished → Downlink setup middle state (setup.endFlight number)

/-- What rcopy may have put on the way to the server. The answer to END_OF_FILE finds the
server finished. -/
inductive Uplink (setup : Setup) (bottom middle : Int) (state : ServerState) : Flight → Prop
  | corrupted : Uplink setup bottom middle state .corrupted
  | rr {seqNum : Int} : 1 ≤ seqNum → seqNum ≤ bottom →
      Uplink setup bottom middle state (setup.rrFlight seqNum)
  | srej {seqNum : Int} : 1 ≤ seqNum → seqNum ≤ middle →
      Uplink setup bottom middle state (setup.srejFlight seqNum)
  | answer {seqNum : Int} : state.Finished → Uplink setup bottom middle state (setup.rrFlight seqNum)

/-- The windows of the two parties agree. -/
structure Agreed (setup : Setup) (transfer : Transfer) : Prop where
  serverWindow : transfer.server.window.WellFormed
  serverSize : transfer.server.window.size = setup.windowSize
  settled : Settled transfer.client transfer.window
  clientSize : transfer.window.size = setup.windowSize
  bottom_le : transfer.server.window.bottom ≤ transfer.window.bottom
  bottom_le_middle : transfer.window.bottom ≤ transfer.server.window.middle
  middle_le : transfer.server.window.middle ≤ transfer.server.window.top + 1
  middle_le_chunks : transfer.server.window.middle ≤ setup.numChunks + 1
  offset_eq : transfer.server.offset = setup.offset (transfer.server.window.middle - 1).toNat
  sent_eq : transfer.sent = (List.range (transfer.server.window.middle - 1).toNat).map
    fun index => setup.dataFrame (index + 1)
  slots : ∀ packet ∈ transfer.server.window.buffer, sendPacket2 packet = none ∨
    ∃ number, 1 ≤ number ∧ number < transfer.server.window.middle ∧ setup.Holds packet number
  held : ∀ number, transfer.server.window.bottom ≤ number →
    number < transfer.server.window.middle →
    setup.Holds (transfer.server.window.stored number) number
  waiting : ∀ number, transfer.window.bottom ≤ number → number ≤ transfer.window.top →
    transfer.window.isSet number = true → number < transfer.server.window.middle ∧
      (transfer.window.stored number).payload.bytes = setup.chunk number.toNat ++
        List.replicate (maxPacketLength - (setup.chunk number.toNat).length) 0
  downlink : ∀ flight ∈ transfer.toClient,
    Downlink setup transfer.server.window.middle transfer.server.state flight
  uplink : ∀ flight ∈ transfer.toServer, Uplink setup transfer.window.bottom
    transfer.server.window.middle transfer.server.state flight

variable {setup : Setup}

theorem Downlink.mono {middle later : Int} {state next : ServerState} {flight : Flight}
    (down : Downlink setup middle state flight) (forward : middle ≤ later)
    (finished : state.Finished → next.Finished) : Downlink setup later next flight := by
  cases down with
  | corrupted => exact .corrupted
  | fnameOk => exact .fnameOk
  | data positive before => exact .data positive (by omega)
  | ends done => exact .ends (finished done)

theorem Uplink.mono {bottom bottom' middle middle' : Int} {state next : ServerState}
    {flight : Flight} (up : Uplink setup bottom middle state flight) (bottoms : bottom ≤ bottom')
    (middles : middle ≤ middle') (finished : state.Finished → next.Finished) :
    Uplink setup bottom' middle' next flight := by
  cases up with
  | corrupted => exact .corrupted
  | rr positive below => exact .rr positive (by omega)
  | srej positive below => exact .srej positive (by omega)
  | answer done => exact .answer (finished done)

theorem initial_agreed (small : setup.Small) {transfer : Transfer}
    (initial : Initial setup transfer) : Agreed setup transfer := by
  obtain ⟨packet, eofIndex, duplicates, rfl⟩ := initial
  have positive := setup.windowSize_pos
  have bound : setup.windowSize < 2 ^ 31 := by
    unfold Setup.Small at small
    omega
  have wellFormed := initWindow_wellFormed setup.windowSize positive bound
  constructor
  · exact wellFormed
  · rfl
  · exact start_settled setup.windowSize positive bound
  · rfl
  · exact Int.le_refl _
  · exact Int.le_refl _
  · simp only [started, initWindow]
    omega
  · simp only [started, initWindow]
    omega
  · simp [started, initWindow, Setup.offset]
  · simp [started, initWindow]
  · intro packet member
    left
    rw [List.eq_of_mem_replicate member]
    rfl
  · intro number lower upper
    simp only [started, initWindow] at lower upper
    omega
  · intro number _ _ set
    rw [started, initWindow_isSet] at set
    cases set
  · intro flight member
    rw [List.eq_of_mem_replicate member]
    exact .fnameOk
  · intro flight member
    cases member

/-! Server steps. -/

section

variable {transfer : Transfer} (agreed : Agreed setup transfer)

include agreed

theorem Agreed.kept {next : Transfer} (window : next.server.window = transfer.server.window)
    (offset : next.server.offset = transfer.server.offset)
    (clientWindow : next.window = transfer.window) (settled : Settled next.client next.window)
    (sent : next.sent = transfer.sent)
    (finished : transfer.server.state.Finished → next.server.state.Finished)
    (downlink : ∀ flight ∈ next.toClient, flight ∈ transfer.toClient ∨
      Downlink setup transfer.server.window.middle next.server.state flight)
    (uplink : ∀ flight ∈ next.toServer, flight ∈ transfer.toServer ∨
      Uplink setup transfer.window.bottom transfer.server.window.middle next.server.state flight) :
    Agreed setup next := by
  constructor
  · exact window ▸ agreed.serverWindow
  · exact window ▸ agreed.serverSize
  · exact settled
  · exact clientWindow ▸ agreed.clientSize
  · exact window ▸ clientWindow ▸ agreed.bottom_le
  · exact window ▸ clientWindow ▸ agreed.bottom_le_middle
  · exact window ▸ agreed.middle_le
  · exact window ▸ agreed.middle_le_chunks
  · exact window ▸ offset ▸ agreed.offset_eq
  · exact window ▸ sent ▸ agreed.sent_eq
  · exact window ▸ agreed.slots
  · exact window ▸ agreed.held
  · exact window ▸ clientWindow ▸ agreed.waiting
  · rw [window]
    intro flight member
    rcases downlink flight member with old | new
    · exact (agreed.downlink flight old).mono (Int.le_refl _) finished
    · exact new
  · rw [window, clientWindow]
    intro flight member
    rcases uplink flight member with old | new
    · exact (agreed.uplink flight old).mono (Int.le_refl _) (Int.le_refl _) finished
    · exact new

theorem Agreed.middle_pos : 1 ≤ transfer.server.window.middle := by
  have bottom := agreed.serverWindow.bottom_pos
  have forward := agreed.bottom_le
  have below := agreed.bottom_le_middle
  omega

theorem Agreed.read_eq :
    readFile setup false transfer.server.offset =
      some (setup.chunk transfer.server.window.middle.toNat) := by
  have positive := agreed.middle_pos
  rw [agreed.offset_eq, setup.readFile_offset]
  congr 2
  omega

theorem Agreed.resends {seqNum : Int} {state : ServerState} {next : Server}
    {sent : List (List UInt8)} (resent : Resends transfer.server seqNum state next sent) :
    (∀ datagram ∈ sent, ∃ number : Nat, 1 ≤ number ∧
      (number : Int) < transfer.server.window.middle ∧ datagram = setup.dataFrame number) ∧
    next.window = transfer.server.window ∧ next.offset = transfer.server.offset ∧
    next.eofIndex = transfer.server.eofIndex ∧ (next.state = state ∨ next.state = .exited) := by
  rcases resent with ⟨_, made, rfl⟩ | ⟨datagram, sends, made, rfl⟩
  · rw [made]
    refine ⟨?_, rfl, rfl, rfl, Or.inr rfl⟩
    intro datagram member
    cases member
  · rw [made]
    refine ⟨?_, rfl, rfl, rfl, Or.inl rfl⟩
    intro other member
    rw [List.mem_singleton] at member
    subst member
    have inside : transfer.server.window.stored seqNum ∈ transfer.server.window.buffer :=
      List.mem_of_getElem? (Ring.getElem?_slot _ _ _ _ agreed.serverWindow.size_pos
        agreed.serverWindow.buffer_length)
    rcases agreed.slots _ inside with empty | ⟨number, positive, before, _, frames⟩
    · rw [empty] at sends
      cases sends
    · rw [frames, Option.some.injEq] at sends
      exact ⟨number.toNat, by omega, by omega, sends.symm⟩

theorem Agreed.serverKept {next : Server} {sent : List (List UInt8)} {rest : List Flight}
    {rrReceived : List Int} (going : ¬transfer.server.state.Finished)
    (window : next.window = transfer.server.window) (offset : next.offset = transfer.server.offset)
    (later : ∀ flight ∈ rest, flight ∈ transfer.toServer)
    (resent : ∀ datagram ∈ sent, ∃ number : Nat, 1 ≤ number ∧
      (number : Int) < transfer.server.window.middle ∧ datagram = setup.dataFrame number) :
    Agreed setup { transfer with
      server := next
      toServer := rest
      toClient := transfer.toClient ++ sent.map .intact
      rrReceived } := by
  refine agreed.kept window offset rfl agreed.settled rfl (fun done => absurd done going) ?_ ?_
  · intro flight member
    rcases List.mem_append.mp member with old | new
    · exact Or.inl old
    · obtain ⟨datagram, inside, rfl⟩ := List.mem_map.mp new
      obtain ⟨number, positive, before, rfl⟩ := resent datagram inside
      exact Or.inr (.data positive before)
  · intro flight member
    exact Or.inl (later flight member)

end

theorem unfinished {state : ServerState}
    (sending : state = .sendData ∨ state = .process ∨ state = .waitOnAck) : ¬state.Finished := by
  rintro (done | done | done) <;> rw [done] at sending <;> simp at sending

theorem Agreed.sends (small : setup.Small) {transfer : Transfer} (agreed : Agreed setup transfer)
    {readFails arrived : Bool} {next : Server} {sent : List (List UInt8)}
    (taken : sendData setup.serverHost (readFile setup readFails transfer.server.offset) arrived
      transfer.server = some (next, sent)) :
    (isClosed transfer.server.window = true ∧ sent = [] ∧
      next = { transfer.server with state := .waitOnAck }) ∨
    (readFails = true ∧ sent = [] ∧
      ∃ packet, next = { transfer.server with state := .done, packet }) ∨
    (isClosed transfer.server.window = false ∧ readFails = false ∧ sent = [] ∧
      transfer.server.window.middle = setup.numChunks + 1 ∧
      ∃ packet, next = { transfer.server with
        state := .waitOnAck, packet, eofIndex := transfer.server.window.middle }) ∨
    (readFails = false ∧ transfer.server.window.middle ≤ setup.numChunks ∧
      transfer.server.window.middle ≤ transfer.server.window.top ∧
      sent = [setup.dataFrame transfer.server.window.middle.toNat] ∧
      ∃ packet, setup.Holds packet transfer.server.window.middle ∧ next = { transfer.server with
        state := if arrived then .process else .sendData
        window := (transfer.server.window.withMiddle
          (transfer.server.window.middle + 1)).put packet
        packet
        offset := transfer.server.offset +
          (setup.chunk transfer.server.window.middle.toNat).length }) := by
  have positive := agreed.middle_pos
  have chunks := agreed.middle_le_chunks
  have ending := setup.chunk_eq_nil_iff (transfer.server.window.middle - 1).toNat
  rw [show (transfer.server.window.middle - 1).toNat + 1 = transfer.server.window.middle.toNat by
    omega] at ending
  have short (data : List UInt8)
      (found : readFile setup readFails transfer.server.offset = some data) :
      readFails = false ∧ data = setup.chunk transfer.server.window.middle.toNat := by
    cases readFails with
    | true => cases found
    | false =>
        rw [agreed.read_eq, Option.some.injEq] at found
        exact ⟨rfl, found.symm⟩
  rcases sendData_cases agreed.serverWindow positive
      (fun data found => (short data found).2 ▸ setup.chunk_short _) taken with
    ⟨closed, made, none⟩ | ⟨_, none, ⟨fails, made⟩ | ⟨empty, made⟩⟩ |
    ⟨opened, data, packet, datagram, read, filled, number, framed, encoded, rfl, made⟩
  · exact Or.inl ⟨by simpa [isClosed] using closed, none, made⟩
  · refine Or.inr (Or.inl ⟨?_, none, made⟩)
    cases readFails with
    | true => rfl
    | false => cases fails
  · obtain ⟨reads, nothing⟩ := short [] empty
    have last := ending.mp nothing.symm
    refine Or.inr (Or.inr (Or.inl ⟨?_, reads, none, by omega, made⟩))
    simpa [isClosed] using ‹_›
  · obtain ⟨reads, rfl⟩ := short data read
    have inside : transfer.server.window.middle ≤ setup.numChunks := by
      by_contra outside
      exact filled (ending.mpr (by omega))
    have next32 : asInt32 (transfer.server.window.middle + 1) =
        transfer.server.window.middle + 1 := by
      have window := setup.windowSize_pos
      unfold Setup.Small at small
      exact asInt32_eq _ (by omega) (by omega)
    have frameEq : datagram = setup.dataFrame transfer.server.window.middle.toNat := by
      rw [framed, Setup.dataFrame, ← ofInt_natCast, Int.toNat_of_nonneg (by omega)]
    rw [next32] at made
    exact Or.inr (Or.inr (Or.inr ⟨reads, inside, opened, by rw [frameEq], packet,
      ⟨number, frameEq ▸ encoded⟩, made⟩))

theorem send_agreed (small : setup.Small) {transfer : Transfer} (agreed : Agreed setup transfer)
    {readFails arrived readZero : Bool} {next : Server} {sent : List (List UInt8)}
    (state : transfer.server.state = .sendData)
    (sends : sendData setup.serverHost (readFile setup readFails transfer.server.offset) arrived
      transfer.server = some (next, sent)) :
    Agreed setup { transfer with
      server := next
      toClient := transfer.toClient ++ sent.map .intact
      sent := transfer.sent ++ sent
      readZero } := by
  have positive := agreed.middle_pos
  have going := unfinished (Or.inl state)
  have silent (same : next.window = transfer.server.window)
      (offset : next.offset = transfer.server.offset) (none : sent = []) :
      Agreed setup { transfer with
        server := next
        toClient := transfer.toClient ++ sent.map .intact
        sent := transfer.sent ++ sent
        readZero } := by
    refine agreed.kept same offset rfl agreed.settled ?_ (fun done => absurd done going) ?_ ?_
    · simp [none]
    · intro flight member
      rw [none, List.map_nil, List.append_nil] at member
      exact Or.inl member
    · intro flight member
      exact Or.inl member
  rcases agreed.sends small sends with
    ⟨_, none, made⟩ | ⟨_, none, packet, made⟩ | ⟨_, _, none, _, packet, made⟩ |
    ⟨_, inside, opened, rfl, packet, holds, made⟩
  · exact silent (by rw [made]) (by rw [made]) none
  · exact silent (by rw [made]) (by rw [made]) none
  · exact silent (by rw [made]) (by rw [made]) none
  have topEq := agreed.serverWindow.top_eq
  have bottom := agreed.serverWindow.bottom_pos
  have forward := agreed.bottom_le
  have below := agreed.bottom_le_middle
  have offsetEq := agreed.offset_eq
  have sentEq := agreed.sent_eq
  generalize middleEq : transfer.server.window.middle = middle at *
  have count : (middle - 1).toNat + 1 = middle.toNat := by omega
  have moved := setup.offset_succ (middle - 1).toNat
  rw [count, ← offsetEq] at moved
  have ranged : List.range middle.toNat = List.range (middle - 1).toNat ++ [(middle - 1).toNat] := by
    rw [← count, List.range_succ]
  have shifted := withMiddle_wellFormed agreed.serverWindow (middle + 1)
  subst made
  constructor
  · exact put_wellFormed shifted packet
  · exact agreed.serverSize
  · exact agreed.settled
  · exact agreed.clientSize
  · exact agreed.bottom_le
  · simp only [Window.put, Window.withMiddle]
    omega
  · simp only [Window.put, Window.withMiddle]
    omega
  · simp only [Window.put, Window.withMiddle]
    omega
  · simp only [Window.put, Window.withMiddle, Int.add_sub_cancel, moved]
  · simp only [Window.put, Window.withMiddle, Int.add_sub_cancel, ranged, List.map_append,
      List.map_cons, List.map_nil, sentEq, count]
  · intro other member
    rcases List.mem_or_eq_of_mem_set member with old | rfl
    · rcases agreed.slots other old with empty | ⟨number, lower, upper, held⟩
      · exact Or.inl empty
      · refine Or.inr ⟨number, lower, ?_, held⟩
        simp only [Window.put, Window.withMiddle]
        omega
    · right
      refine ⟨middle, positive, ?_, holds⟩
      simp only [Window.put, Window.withMiddle]
      omega
  · intro seqNum lower upper
    simp only [Window.put_bottom, Window.withMiddle] at lower
    simp only [Window.put, Window.withMiddle] at upper
    have number := holds.1
    by_cases newest : seqNum = middle
    · have stored := put_stored_self shifted packet
      rw [number] at stored
      simp only [newest, stored]
      exact holds
    · have old := put_stored_of_ne shifted packet seqNum (by simp only [Window.withMiddle]; omega)
        (by simp only [Window.withMiddle]; omega) (by omega)
      simp only [old]
      exact agreed.held seqNum lower (by omega)
  · intro seqNum lower upper set
    obtain ⟨before, payload⟩ := agreed.waiting seqNum lower upper set
    refine ⟨?_, payload⟩
    simp only [Window.put, Window.withMiddle]
    omega
  · intro flight member
    simp only [Window.put, Window.withMiddle]
    rcases List.mem_append.mp member with old | new
    · exact (agreed.downlink flight old).mono (by omega) (fun done => absurd done going)
    · rw [List.map_singleton, List.mem_singleton] at new
      rw [new]
      exact .data (by omega) (by omega)
  · intro flight member
    simp only [Window.put, Window.withMiddle]
    exact (agreed.uplink flight member).mono (Int.le_refl _) (by omega)
      (fun done => absurd done going)

theorem Uplink.received {bottom middle : Int} {state : ServerState} {flight : Flight}
    {stack : Packet} {received : Int × Packet} {channel rest : List Flight}
    (up : Uplink setup bottom middle state flight) (going : ¬state.Finished)
    (bottomBound : bottom < 2 ^ 32) (middleBound : middle < 2 ^ 32)
    (taken : receive setup.serverHost stack (flight :: channel) = some (received, rest)) :
    received.1 = crcError ∨
      (received.1 = 0 ∧ received.2.flag = Flag.rr.code ∧ 1 ≤ received.2.number ∧
        received.2.number ≤ bottom ∧ flight = setup.rrFlight received.2.number) ∨
      (received.1 = 0 ∧ received.2.flag = Flag.srej.code ∧ 1 ≤ received.2.number ∧
        received.2.number ≤ middle ∧ flight = setup.srejFlight received.2.number) := by
  cases up with
  | corrupted =>
      left
      exact (receive_corrupted taken).2
  | @rr seqNum positive below =>
      obtain ⟨_, length, number, flag, _⟩ := receive_frame (Nat.zero_le _) taken
      have value := ofInt_toNat seqNum (by omega) (by omega)
      have same : received.2.number = seqNum := by
        rw [Packet.number, number, value]
      right; left
      exact ⟨length, flag, by omega, by omega, by rw [same]⟩
  | @srej seqNum positive below =>
      obtain ⟨_, length, number, flag, _⟩ := receive_frame (Nat.zero_le _) taken
      have value := ofInt_toNat seqNum (by omega) (by omega)
      have same : received.2.number = seqNum := by
        rw [Packet.number, number, value]
      right; right
      exact ⟨length, flag, by omega, by omega, by rw [same]⟩
  | answer done => exact absurd done going

theorem Agreed.processes (small : setup.Small) {transfer : Transfer}
    (agreed : Agreed setup transfer) {stack : Packet} {received : Int × Packet}
    {rest : List Flight} {next : Server} {sent : List (List UInt8)}
    (state : transfer.server.state = .process)
    (receives : receive setup.serverHost stack transfer.toServer = some (received, rest))
    (taken : process received transfer.server = some (next, sent)) :
    (received.1 = crcError ∧ next = { transfer.server with state := .waitOnAck } ∧ sent = []) ∨
    (received.1 ≠ crcError ∧ received.2.flag = Flag.rr.code ∧ 1 ≤ received.2.number ∧
      received.2.number ≤ transfer.window.bottom ∧
      transfer.toServer = setup.rrFlight received.2.number :: rest ∧ sent = [] ∧
      next = { transfer.server with
        state := if received.2.number = transfer.server.eofIndex then .bye else .sendData
        window := if received.2.number > transfer.server.window.bottom then
          transfer.server.window.slid received.2.number else transfer.server.window }) ∨
    (received.1 ≠ crcError ∧ received.2.flag = Flag.srej.code ∧ 1 ≤ received.2.number ∧
      received.2.number ≤ transfer.server.window.middle ∧
      transfer.toServer = setup.srejFlight received.2.number :: rest ∧
      Resends transfer.server received.2.number .sendData next sent) := by
  have going := unfinished (Or.inr (Or.inl state))
  have positive := setup.windowSize_pos
  have sizeEq := agreed.serverSize
  have bound := agreed.middle_le_chunks
  have below := agreed.bottom_le_middle
  unfold Setup.Small at small
  obtain ⟨flight, channel⟩ := receive_cons receives
  have front : flight ∈ transfer.toServer := channel ▸ List.mem_cons_self
  rw [channel] at receives
  have data : Flag.rr.code ≠ Flag.srej.code := by decide
  obtain ⟨code, packet⟩ := received
  rcases (agreed.uplink flight front).received going (by omega) (by omega) receives with
    rejected | ⟨zero, rr, lower, upper, same⟩ | ⟨zero, srej, lower, upper, same⟩
  · rcases process_cases agreed.serverWindow (fun accepted => absurd rejected accepted)
      (fun accepted => absurd rejected accepted) taken with
      made | ⟨accepted, _⟩ | ⟨accepted, _⟩ | ⟨accepted, _⟩
    · exact Or.inl made
    · exact absurd rejected accepted
    · exact absurd rejected accepted
    · exact absurd rejected accepted
  · right; left
    simp only at lower upper rr zero same
    rcases process_cases agreed.serverWindow (fun _ _ => by omega)
      (fun _ srej => absurd (rr.symm.trans srej) data) taken with
      ⟨rejected, _⟩ | ⟨accepted, _, silent, made⟩ | ⟨_, srej, _⟩ | ⟨_, other, _⟩
    · rw [zero] at rejected
      cases rejected
    · exact ⟨accepted, rr, lower, upper, by rw [channel, same], silent, made⟩
    · exact absurd (rr.symm.trans srej) data
    · exact absurd rr other
  · right; right
    simp only at lower upper srej zero same
    rcases process_cases agreed.serverWindow (fun _ rr => absurd (rr.symm.trans srej) data)
      (fun _ _ => ⟨lower, by omega⟩) taken with
      ⟨rejected, _⟩ | ⟨_, rr, _⟩ | ⟨accepted, _, resent⟩ | ⟨_, _, other, _⟩
    · rw [zero] at rejected
      cases rejected
    · exact absurd (rr.symm.trans srej) data
    · exact ⟨accepted, srej, lower, upper, by rw [channel, same], resent⟩
    · exact absurd srej other

theorem slid_middle {window : Window} {newBottom : Int} (below : newBottom ≤ window.middle) :
    (window.slid newBottom).middle = window.middle := by
  simp only [Window.slid]
  omega

theorem Agreed.process_frame (small : setup.Small) {transfer : Transfer}
    (agreed : Agreed setup transfer) {stack : Packet} {received : Int × Packet}
    {rest : List Flight} {next : Server} {sent : List (List UInt8)}
    (state : transfer.server.state = .process)
    (receives : receive setup.serverHost stack transfer.toServer = some (received, rest))
    (taken : process received transfer.server = some (next, sent)) :
    next.window.middle = transfer.server.window.middle ∧
      next.eofIndex = transfer.server.eofIndex := by
  rcases agreed.processes small state receives taken with
    ⟨_, made, _⟩ | ⟨_, _, _, upper, _, _, made⟩ | ⟨_, _, _, _, _, resent⟩
  · rw [made]
    exact ⟨rfl, rfl⟩
  · rw [made]
    refine ⟨?_, rfl⟩
    simp only
    split
    · exact slid_middle (Int.le_trans upper agreed.bottom_le_middle)
    · rfl
  · obtain ⟨_, window, _, eofIndex, _⟩ := agreed.resends resent
    rw [window]
    exact ⟨rfl, eofIndex⟩

theorem process_agreed (small : setup.Small) {transfer : Transfer}
    (agreed : Agreed setup transfer) {stack : Packet} {received : Int × Packet}
    {rest : List Flight} {rrReceived : List Int} {next : Server} {sent : List (List UInt8)}
    (state : transfer.server.state = .process)
    (receives : receive setup.serverHost stack transfer.toServer = some (received, rest))
    (processes : process received transfer.server = some (next, sent)) :
    Agreed setup { transfer with
      server := next
      toServer := rest
      toClient := transfer.toClient ++ sent.map .intact
      rrReceived } := by
  have going := unfinished (Or.inr (Or.inl state))
  have positive := setup.windowSize_pos
  have sizeEq := agreed.serverSize
  have bound := agreed.middle_le_chunks
  have below := agreed.bottom_le_middle
  have stays := (agreed.process_frame small state receives processes).1
  obtain ⟨flight, channel⟩ := receive_cons receives
  have later (flight : Flight) (member : flight ∈ rest) : flight ∈ transfer.toServer :=
    channel ▸ List.mem_cons_of_mem _ member
  rcases agreed.processes small state receives processes with
    ⟨_, made, rfl⟩ | ⟨_, _, lower, upper, _, rfl, made⟩ | ⟨_, _, _, _, _, resent⟩
  · exact agreed.serverKept going (by rw [made]) (by rw [made]) later (by simp)
  · unfold Setup.Small at small
    by_cases forward : received.2.number > transfer.server.window.bottom
    · rw [if_pos forward] at made
      have slid := slid_wellFormed agreed.serverWindow received.2.number (by omega) (by omega)
      subst made
      constructor
      · exact slid
      · exact (Window.slid_size _ _).trans sizeEq
      · exact agreed.settled
      · exact agreed.clientSize
      · exact upper
      · rw [stays]
        exact below
      · rw [stays]
        have middle := agreed.middle_le
        have top := agreed.serverWindow.top_eq
        simp only [Window.slid]
        omega
      · rw [stays]
        exact bound
      · rw [stays]
        exact agreed.offset_eq
      · rw [stays]
        exact agreed.sent_eq
      · rw [stays]
        simp only [Window.slid, Window.unsetFrom_buffer]
        exact agreed.slots
      · intro number above before
        rw [stays] at before
        simp only [Window.slid_stored]
        exact agreed.held number (by simp only [Window.slid] at above; omega) before
      · rw [stays]
        exact agreed.waiting
      · rw [stays]
        intro flight member
        rw [List.map_nil, List.append_nil] at member
        exact (agreed.downlink flight member).mono (Int.le_refl _) (fun done => absurd done going)
      · rw [stays]
        intro flight member
        exact (agreed.uplink flight (later flight member)).mono (Int.le_refl _) (Int.le_refl _)
          (fun done => absurd done going)
    · rw [if_neg forward] at made
      exact agreed.serverKept going (by rw [made]) (by rw [made]) later (by simp)
  · obtain ⟨sentBefore, window, offset, _, _⟩ := agreed.resends resent
    exact agreed.serverKept going window offset later sentBefore

theorem wait_agreed {transfer : Transfer} (agreed : Agreed setup transfer) {arrived : Bool}
    {next : Server} {sent : List (List UInt8)} (state : transfer.server.state = .waitOnAck)
    (waits : waitOnAck arrived transfer.server = some (next, sent)) :
    Agreed setup { transfer with
      server := next
      toClient := transfer.toClient ++ sent.map .intact } := by
  have going := unfinished (Or.inr (Or.inr state))
  rcases waitOnAck_cases agreed.serverWindow waits with
    ⟨_, rfl, made⟩ | ⟨_, _, rfl, made⟩ | ⟨_, _, _, resent⟩
  · exact agreed.serverKept going (by rw [made]) (by rw [made]) (fun _ member => member) (by simp)
  · exact agreed.serverKept going (by rw [made]) (by rw [made]) (fun _ member => member) (by simp)
  · obtain ⟨sentBefore, window, offset, _, _⟩ := agreed.resends resent
    exact agreed.serverKept going window offset (fun _ member => member) sentBefore

theorem bye_agreed {transfer : Transfer} (agreed : Agreed setup transfer) {stack : Packet}
    {received : Option (Int × Packet)} {next : Server} {sent : List (List UInt8)}
    (answers : bye setup.serverHost stack received transfer.server = some (next, sent)) :
    Agreed setup { transfer with
      server := next
      toClient := transfer.toClient ++ sent.map .intact } := by
  have finished := bye_finished answers
  obtain ⟨rfl, _, made⟩ := bye_cases answers
  refine agreed.kept (by rw [made]) (by rw [made]) rfl agreed.settled rfl (fun _ => finished) ?_
    (fun _ member => Or.inl member)
  intro flight member
  rcases List.mem_append.mp member with old | new
  · exact Or.inl old
  · rw [List.map_singleton, List.mem_singleton] at new
    rw [new]
    exact Or.inr (.ends finished)

theorem hear_agreed {transfer : Transfer} (agreed : Agreed setup transfer) {stack : Packet}
    {received : Int × Packet} {rest : List Flight}
    (receives : receive setup.serverHost stack transfer.toServer = some (received, rest)) :
    Agreed setup { transfer with
      server := byeReceive received transfer.server
      toServer := rest } := by
  obtain ⟨_, _, made⟩ := byeReceive_cases received transfer.server
  obtain ⟨front, channel⟩ := receive_cons receives
  refine agreed.kept (by rw [made]) (by rw [made]) rfl agreed.settled rfl
    (fun _ => byeReceive_finished received transfer.server) (fun _ member => Or.inl member) ?_
  intro flight member
  exact Or.inl (channel ▸ List.mem_cons_of_mem _ member)

theorem network_agreed {transfer : Transfer} (agreed : Agreed setup transfer)
    {toServer toClient : List Flight} (up : Subchannel toServer transfer.toServer)
    (down : Subchannel toClient transfer.toClient) :
    Agreed setup { transfer with toServer, toClient } := by
  refine agreed.kept rfl rfl rfl agreed.settled rfl id ?_ ?_
  · intro flight member
    rcases down flight member with rfl | old
    · exact Or.inr .corrupted
    · exact Or.inl old
  · intro flight member
    rcases up flight member with rfl | old
    · exact Or.inr .corrupted
    · exact Or.inl old

/-! Client steps. -/

def Setup.Carries (setup : Setup) (received : Int × Packet) (number : Int) : Prop :=
  received.1 = (setup.chunk number.toNat).length ∧ received.2.number = number ∧
    received.2.payload.bytes = setup.chunk number.toNat ++
      List.replicate (maxPacketLength - (setup.chunk number.toNat).length) 0

theorem Downlink.received {middle : Int} {state : ServerState} {flight : Flight}
    {stack : Packet} {received : Int × Packet} {channel rest : List Flight}
    (down : Downlink setup middle state flight) (bound : middle ≤ 2 ^ 32)
    (taken : receive setup.clientHost stack (flight :: channel) = some (received, rest)) :
    received.1 = crcError ∨
      (received.2.number = 0 ∧ received.2.flag = Flag.fnameOk.code) ∨
      (1 ≤ received.2.number ∧ received.2.number < middle ∧
        received.2.flag = Flag.data.code ∧
        flight = .intact (setup.dataFrame received.2.number.toNat) ∧
        setup.Carries received received.2.number) ∨
      (state.Finished ∧ received.2.flag = Flag.endOfFile.code ∧
        flight = setup.endFlight received.2.seqNum) := by
  cases down with
  | corrupted => exact Or.inl (receive_corrupted taken).2
  | fnameOk =>
      obtain ⟨_, _, number, flag, _⟩ := receive_frame (Nat.zero_le _) taken
      right; left
      exact ⟨by rw [Packet.number, number]; rfl, flag⟩
  | @data number positive before =>
      obtain ⟨_, length, sequence, flag, payload⟩ := receive_frame (setup.chunk_short number) taken
      have value : received.2.number = number := by
        rw [Packet.number, sequence, ← ofInt_natCast, ofInt_toNat _ (by omega) (by omega)]
      right; right; left
      refine ⟨by omega, by omega, flag, by rw [value, Int.toNat_natCast], ?_⟩
      simp only [Setup.Carries, value, Int.toNat_natCast]
      exact ⟨length, trivial, payload⟩
  | ends done =>
      obtain ⟨_, _, number, flag, _⟩ := receive_frame (Nat.zero_le _) taken
      right; right; right
      exact ⟨done, flag, by rw [number]⟩

section

variable {transfer : Transfer} {received : Int × Packet} {rest : List Flight} {stack : Packet}

theorem Agreed.accepts (small : setup.Small) (agreed : Agreed setup transfer)
    (receives : receive setup.clientHost stack transfer.toClient = some (received, rest))
    (accepted : received.1 ≠ crcError) (data : received.2.flag ≠ Flag.endOfFile.code)
    (inside : transfer.window.bottom ≤ received.2.number) :
    received.2.number < transfer.server.window.middle ∧
      transfer.toClient.head? = some (.intact (setup.dataFrame received.2.number.toNat)) ∧
      setup.Carries received received.2.number := by
  have bottom := agreed.settled.wellFormed.bottom_pos
  have positive := setup.windowSize_pos
  have bound := agreed.middle_le_chunks
  unfold Setup.Small at small
  obtain ⟨flight, channel⟩ := receive_cons receives
  have front : flight ∈ transfer.toClient := channel ▸ List.mem_cons_self
  rw [channel] at receives
  rcases (agreed.downlink flight front).received (by omega) receives with
    rejected | ⟨zero, _⟩ | ⟨_, before, _, same, carries⟩ | ⟨_, ends, _⟩
  · exact absurd rejected accepted
  · omega
  · exact ⟨before, by rw [channel, same, List.head?_cons], carries⟩
  · exact absurd ends data

theorem Agreed.ends (small : setup.Small) (agreed : Agreed setup transfer)
    (receives : receive setup.clientHost stack transfer.toClient = some (received, rest))
    (accepted : received.1 ≠ crcError) (ends : received.2.flag = Flag.endOfFile.code) :
    transfer.server.state.Finished ∧
      setup.endFlight received.2.seqNum ∈ transfer.toClient := by
  have positive := setup.windowSize_pos
  have bound := agreed.middle_le_chunks
  unfold Setup.Small at small
  obtain ⟨flight, channel⟩ := receive_cons receives
  have front : flight ∈ transfer.toClient := channel ▸ List.mem_cons_self
  rw [channel] at receives
  rcases (agreed.downlink flight front).received (by omega) receives with
    rejected | ⟨_, flag⟩ | ⟨_, _, flag, _⟩ | ⟨finished, _, same⟩
  · exact absurd rejected accepted
  · exact absurd (flag.symm.trans ends) (by decide)
  · exact absurd (flag.symm.trans ends) (by decide)
  · exact ⟨finished, same ▸ front⟩

theorem Agreed.gap_le (agreed : Agreed setup transfer) {gap : Int}
    (sent : transfer.window.bottom < transfer.server.window.middle)
    (forward : transfer.window.bottom < gap) (bound : gap ≤ transfer.window.top + 1)
    (run : ∀ seqNum, transfer.window.bottom < seqNum → seqNum < gap →
      transfer.window.isSet seqNum = true) : gap ≤ transfer.server.window.middle := by
  by_cases next : gap = transfer.window.bottom + 1
  · omega
  · have before := (agreed.waiting (gap - 1) (by omega) (by omega)
      (run (gap - 1) (by omega) (by omega))).1
    omega

theorem Agreed.fits (small : setup.Small) (agreed : Agreed setup transfer)
    (receives : receive setup.clientHost stack transfer.toClient = some (received, rest))
    (after : Window) : Fits transfer.window (some received) after := by
  have bound := agreed.middle_le_chunks
  have sizeEq := agreed.clientSize
  have topEq := agreed.settled.wellFormed.top_eq
  constructor
  · intro length packet same accepted data lower upper
    obtain rfl := Option.some.inj same
    have before := (agreed.accepts small receives accepted data lower).1
    unfold Setup.Small at small
    simp only at before
    omega
  · intro length packet same accepted data expected gap forward below run _
    obtain rfl := Option.some.inj same
    have before := (agreed.accepts small receives accepted data (by simp only; omega)).1
    simp only at before
    have gapBound := agreed.gap_le (by omega) forward below run
    unfold Setup.Small at small
    omega

end

theorem controls_flushWrites (window : Window) (dataLen : Int) (count : Nat) (first : Int) :
    setup.controls (flushWrites window dataLen count first) = [] := by
  induction count generalizing first with
  | zero => rfl
  | succ count ih => exact ih (first + 1)

theorem Agreed.replies (small : setup.Small) {transfer : Transfer}
    (agreed : Agreed setup transfer) {stack : Packet} {received : Int × Packet}
    {rest : List Flight} {state client : ClientState} {window : Window}
    {actions : List ClientAction}
    (receives : receive setup.clientHost stack transfer.toClient = some (received, rest))
    (step : Receives transfer.window state (some received) client window actions) :
    window.bottom ≤ transfer.server.window.middle ∧
      ∀ flight ∈ setup.controls actions, Uplink setup window.bottom
        transfer.server.window.middle transfer.server.state flight := by
  have bottom := agreed.settled.wellFormed.bottom_pos
  have middles := agreed.bottom_le_middle
  cases step with
  | rejected =>
      refine ⟨middles, ?_⟩
      intro flight member
      obtain rfl := List.mem_singleton.mp member
      exact .srej bottom middles
  | ignored => exact ⟨middles, by simp [Setup.controls]⟩
  | finished accepted ends =>
      refine ⟨middles, ?_⟩
      intro flight member
      obtain rfl := List.mem_singleton.mp member
      exact .answer (agreed.ends small receives accepted ends).1
  | finishedGap accepted ends =>
      refine ⟨middles, ?_⟩
      intro flight member
      obtain rfl := List.mem_singleton.mp member
      exact .answer (agreed.ends small receives accepted ends).1
  | early => exact ⟨middles, by simp [Setup.controls]⟩
  | @next length packet accepted data expected =>
      have before := (agreed.accepts small receives accepted data (by simp only; omega)).1
      simp only at before
      refine ⟨by simp only [Window.slid]; omega, ?_⟩
      intro flight member
      obtain rfl := List.mem_singleton.mp member
      exact .rr (by omega) (Int.le_refl _)
  | duplicate =>
      refine ⟨middles, ?_⟩
      intro flight member
      obtain rfl := List.mem_singleton.mp member
      exact .rr bottom (Int.le_refl _)
  | outside => exact ⟨middles, by simp [Setup.controls]⟩
  | buffered =>
      refine ⟨middles, ?_⟩
      intro flight member
      obtain rfl := List.mem_singleton.mp member
      exact .rr bottom (Int.le_refl _)
  | @filled length packet _ gap accepted data expected forward below run =>
      have before := (agreed.accepts small receives accepted data (by simp only; omega)).1
      simp only at before
      have gapBound := agreed.gap_le (by omega) forward below run
      refine ⟨gapBound, ?_⟩
      intro flight member
      simp only [Setup.controls, List.filterMap_append, List.mem_append] at member
      rcases member with (asked | flushed) | answered
      · split at asked
        · obtain rfl := List.mem_singleton.mp asked
          exact .srej (by omega) gapBound
        · cases asked
      · rw [← Setup.controls, controls_flushWrites] at flushed
        cases flushed
      · obtain rfl := List.mem_singleton.mp answered
        exact .rr (by omega) (Int.le_refl _)

theorem receive_agreed (small : setup.Small) {transfer : Transfer} (agreed : Agreed setup transfer)
    {stack : Packet} {received : Int × Packet} {rest : List Flight} {client : ClientState}
    {window : Window} {actions : List ClientAction} {output : List (List UInt8)} {ended : Bool}
    (receives : receive setup.clientHost stack transfer.toClient = some (received, rest))
    (steps : clientStep transfer.window (some received) transfer.client =
      some (client, window, actions)) :
    Agreed setup { transfer with
      client
      window
      toClient := rest
      toServer := transfer.toServer ++ setup.controls actions
      output
      ended } := by
  have settled := agreed.settled
  have fits := agreed.fits small receives window
  obtain ⟨active, step⟩ := clientStep_receives settled fits steps
  have middles := agreed.bottom_le_middle
  have bottoms := step.bottom_le
  obtain ⟨flight, channel⟩ := receive_cons receives
  have front : flight ∈ transfer.toClient := channel ▸ List.mem_cons_self
  have later (flight : Flight) (member : flight ∈ rest) : flight ∈ transfer.toClient :=
    channel ▸ List.mem_cons_of_mem _ member
  obtain ⟨middle, replies⟩ := agreed.replies small receives step
  constructor
  · exact agreed.serverWindow
  · exact agreed.serverSize
  · exact receives_settled settled fits active step
  · exact step.size_eq.trans agreed.clientSize
  · exact Int.le_trans agreed.bottom_le bottoms
  · exact middle
  · exact agreed.middle_le
  · exact agreed.middle_le_chunks
  · exact agreed.offset_eq
  · exact agreed.sent_eq
  · exact agreed.slots
  · exact agreed.held
  · intro number lower upper set
    rcases step.cell settled number lower upper set with
      ⟨length, packet, same, accepted, data, rfl, stored⟩ | ⟨inner, old, stored⟩
    · obtain rfl := Option.some.inj same
      obtain ⟨before, _, _, _, payload⟩ := agreed.accepts small receives accepted data
        (by simp only at lower ⊢; omega)
      simp only [stored]
      exact ⟨before, payload⟩
    · simp only [stored]
      exact agreed.waiting number (by simp only at lower; omega) inner old
  · intro flight member
    exact agreed.downlink flight (later flight member)
  · intro flight member
    rcases List.mem_append.mp member with old | new
    · exact (agreed.uplink flight old).mono bottoms (Int.le_refl _) id
    · exact replies flight new

theorem timeout_agreed {transfer : Transfer} (agreed : Agreed setup transfer)
    {client : ClientState} {window : Window} {actions : List ClientAction}
    (steps : clientStep transfer.window none transfer.client = some (client, window, actions)) :
    Agreed setup { transfer with client, window } := by
  obtain ⟨_, rfl, rfl⟩ := clientStep_timeout steps
  exact agreed.kept rfl rfl rfl agreed.settled.stopped rfl id
    (fun _ member => Or.inl member) (fun _ member => Or.inl member)

theorem step_agreed (small : setup.Small) {transfer next : Transfer} {event : Event}
    (agreed : Agreed setup transfer) (taken : step setup event transfer = some next) :
    Agreed setup next := by
  cases step_moves taken with
  | send state sends => exact send_agreed small agreed state sends
  | process state receives processes => exact process_agreed small agreed state receives processes
  | wait _ waits => exact wait_agreed agreed ‹_› waits
  | bye _ answers => exact bye_agreed agreed answers
  | hear _ _ receives => exact hear_agreed agreed receives
  | receive receives steps => exact receive_agreed small agreed receives steps
  | timeout steps => exact timeout_agreed agreed steps
  | networkToServer disturbs =>
      exact network_agreed agreed (disturb_subchannel disturbs) (fun _ => Or.inr)
  | networkToClient disturbs =>
      exact network_agreed agreed (fun _ => Or.inr) (disturb_subchannel disturbs)

/-! Every reachable state. -/

def Reachable (setup : Setup) : Transfer → Prop :=
  Transition.Reach (Initial setup) (step setup) fun _ _ _ => True

theorem Reachable.of {permitted : Transfer → Event → Transfer → Prop} {transfer : Transfer}
    (reach : Transition.Reach (Initial setup) (step setup) permitted transfer) :
    Reachable setup transfer := by
  exact reach.mono (fun _ _ _ _ => trivial)

theorem Reachable.agreed (small : setup.Small) {transfer : Transfer}
    (reach : Reachable setup transfer) : Agreed setup transfer := by
  apply Transition.Reach.invariant reach
  · intro first initial
    exact initial_agreed small initial
  · intro before event after agreed taken _
    exact step_agreed small agreed taken

theorem frame_flag (host : ByteOrder) (seqNum : UInt32) (flag : UInt8) (data : List UInt8) :
    (frame host seqNum flag data)[6]? = some flag := by
  cases host <;> rfl

theorem dataFrame_ne_endFlight (number : Nat) (seqNum : UInt32) :
    .intact (setup.dataFrame number) ≠ setup.endFlight seqNum := by
  intro same
  have flags := frame_flag setup.serverHost (UInt32.ofNat number) Flag.data.code
    (setup.chunk number)
  rw [← Setup.dataFrame, Flight.intact.inj same, frame_flag] at flags
  exact absurd flags (by decide)

/-- The two windows agree, every data packet in flight is one that rcopy can place, and the
server still holds every packet that may be asked for. -/
theorem windows_agree (small : setup.Small) (transfer : Transfer)
    (reach : Reachable setup transfer) :
    transfer.server.window.bottom ≤ transfer.window.bottom ∧
    transfer.window.bottom ≤ transfer.server.window.middle ∧
    transfer.server.window.middle ≤ transfer.server.window.top + 1 ∧
    (∀ datagram, .intact datagram ∈ transfer.toClient →
      datagram[6]? = some Flag.data.code → ∃ number : Nat, 1 ≤ number ∧
        number ≤ setup.numChunks ∧ datagram = setup.dataFrame number ∧
        number < transfer.server.window.middle ∧ number ≤ transfer.window.top) ∧
    (∀ number, transfer.server.window.bottom ≤ number →
      number < transfer.server.window.middle → ∃ packet,
        transfer.server.window.buffer[((number - 1) % setup.windowSize).toNat]? = some packet ∧
        packet.number = number ∧ sendPacket2 packet = some (setup.dataFrame number.toNat)) ∧
    (∀ stack received rest, transfer.client = .recvData →
      receive setup.clientHost stack transfer.toClient = some (received, rest) →
      received.1 ≠ crcError → received.2.flag ≠ Flag.endOfFile.code →
      received.2.number ≤ transfer.window.top) ∧
    (∀ stack next, step setup (.serverProcess stack) transfer = some next →
      next.server.window.middle = transfer.server.window.middle) := by
  have agreed := reach.agreed small
  have serverTop := agreed.serverWindow.top_eq
  have clientTop := agreed.settled.wellFormed.top_eq
  have serverSize := agreed.serverSize
  have clientSize := agreed.clientSize
  have bottoms := agreed.bottom_le
  have middle := agreed.middle_le
  have chunks := agreed.middle_le_chunks
  have positive := setup.windowSize_pos
  refine ⟨bottoms, agreed.bottom_le_middle, middle, ?_, ?_, ?_, ?_⟩
  · intro datagram member flag
    generalize flightEq : Flight.intact datagram = flight at member
    cases agreed.downlink flight member with
    | corrupted => cases flightEq
    | fnameOk =>
        cases flightEq
        rw [frame_flag] at flag
        exact absurd flag (by decide)
    | @data number positive before =>
        cases flightEq
        exact ⟨number, positive, by omega, rfl, before, by omega⟩
    | ends =>
        cases flightEq
        rw [frame_flag] at flag
        exact absurd flag (by decide)
  · intro number lower upper
    refine ⟨transfer.server.window.stored number, ?_, agreed.held number lower upper⟩
    rw [← serverSize]
    exact Ring.getElem?_slot _ _ _ _ agreed.serverWindow.size_pos agreed.serverWindow.buffer_length
  · intro stack received rest _ receives accepted data
    by_contra beyond
    have before := (agreed.accepts small receives accepted data (by omega)).1
    omega
  · intro stack next taken
    cases step_moves taken with
    | process state receives processes =>
        exact (agreed.process_frame small state receives processes).1
    | networkToServer => rfl
    | networkToClient => rfl

def twoChunks : Setup where
  file := List.replicate 401 65
  bufSize := 400
  windowSize := 2
  serverHost := .little
  clientHost := .big
  bufSize_pos := by decide
  bufSize_le := by decide
  windowSize_pos := by decide

theorem twoChunks_reachable (eofIndex : Int) (events : List Event) (final : Transfer)
    (executed : Transition.run (step twoChunks) events
      (started twoChunks Packet.zero eofIndex 0) = some final) : Reachable twoChunks final := by
  exact Transition.Reach.run events (.start ⟨Packet.zero, eofIndex, 0, rfl⟩) executed
    (Transition.Permitted.of_forall (fun _ _ _ => trivial) _ _)

theorem windows_agree_twoChunks : ∃ transfer,
    Transition.run (step twoChunks) [.serverSend false false, .serverSend false false,
      .clientReceive Packet.zero Packet.zero] (started twoChunks Packet.zero 0 0) = some transfer ∧
    transfer.window.bottom = 2 ∧ transfer.window.bottom ≤ transfer.server.window.middle := by
  have bottom : (Transition.run (step twoChunks) [.serverSend false false, .serverSend false false,
      .clientReceive Packet.zero Packet.zero] (started twoChunks Packet.zero 0 0)).map
        (fun transfer => transfer.window.bottom) = some 2 := by
    decide +kernel
  obtain ⟨transfer, executed, value⟩ := Option.map_eq_some_iff.mp bottom
  have reach := twoChunks_reachable 0 _ transfer executed
  exact ⟨transfer, executed, value, (windows_agree (by decide +kernel) transfer reach).2.1⟩

end RemoteCopy
