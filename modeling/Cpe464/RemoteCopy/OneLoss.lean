import Cpe464.RemoteCopy.Faultless

/-!
A transfer with one fault: the first datagram is lost. When the file is shorter than the window,
rcopy asks with an SREJ for the packet behind the last one, and the server exits.
-/

namespace RemoteCopy

open Bytes Transition

structure Filling (setup : Setup) (sent : Nat) (transfer : Transfer) : Prop where
  agreed : Agreed setup transfer
  flowing : Flowing setup 0 0 sent transfer
  state : transfer.server.state = .sendData
  vacant : transfer.server.window.stored (setup.numChunks + 1) = Packet.zero

/-- rcopy has stored chunks from the second on, and the server has read the end of the file. -/
structure Gapped (setup : Setup) (state : ServerState) (stored answers : Nat)
    (transfer : Transfer) : Prop where
  agreed : Agreed setup transfer
  state : transfer.server.state = state
  bottom : transfer.server.window.bottom = 1
  middle : transfer.server.window.middle = setup.numChunks + 1
  vacant : transfer.server.window.stored (setup.numChunks + 1) = Packet.zero
  eofIndex : transfer.server.eofIndex = setup.numChunks + 1
  waitCount : transfer.server.waitCount = 0
  client : transfer.client = if stored = 1 then .recvData else .missing
  expected : transfer.window.bottom = 1
  isSet : ∀ number : Nat, 1 ≤ number → (number : Int) ≤ setup.windowSize →
    (transfer.window.isSet number = true ↔ 2 ≤ number ∧ number ≤ stored)
  toClient : transfer.toClient = span setup.dataFlight stored setup.numChunks
  toServer : transfer.toServer = List.replicate answers (setup.rrFlight 1)
  ended : transfer.ended = false

structure Asked (setup : Setup) (transfer : Transfer) : Prop where
  agreed : Agreed setup transfer
  state : transfer.server.state = .waitOnAck
  vacant : transfer.server.window.stored (setup.numChunks + 1) = Packet.zero
  waitCount : transfer.server.waitCount = 1
  toClient : transfer.toClient = []
  toServer : transfer.toServer =
    [setup.srejFlight (setup.numChunks + 1), setup.rrFlight (setup.numChunks + 1)]
  ended : transfer.ended = false

theorem clientStep_stores {state : ClientState} {window : Window} {length : Int} {packet : Packet}
    (settled : Settled state window) (active : state = .recvData ∨ state = .missing)
    (accepted : length ≠ crcError) (data : packet.flag ≠ Flag.endOfFile.code)
    (lower : window.bottom < packet.number) (upper : packet.number ≤ window.top)
    (room : window.top + 2 < 2 ^ 31) :
    clientStep window (some (length, packet)) state =
      some (.missing, window.put packet, [.rr window.bottom]) := by
  have wellFormed := settled.wellFormed
  have bottom := wellFormed.bottom_pos
  have top := wellFormed.top_eq
  have positive := wellFormed.size_pos
  rcases active with rfl | rfl
  · have kept : ({ window.put packet with middle := window.bottom } : Window) =
        window.put packet :=
      congrArg (fun middle => (window.put packet).withMiddle middle) settled.middle_eq.symm
    simp only [clientStep, recvData, if_neg accepted, if_neg data,
      asUInt32_eq window.bottom (by omega) (by omega), asUInt32_eq window.top (by omega) (by omega),
      if_neg (Int.ne_of_gt lower), if_neg (Int.lt_asymm lower), if_neg (Int.not_lt.mpr upper),
      addToBuffer_eq wellFormed packet (by omega : 1 ≤ packet.number), Option.bind_eq_bind,
      Option.bind_some]
    exact congrArg (fun after => some (ClientState.missing, after, _)) kept
  · have inside : isInWindow window (asInt32 packet.number) = true := by
      rw [asInt32_eq packet.number (by omega) (by omega)]
      simp only [isInWindow, Bool.and_eq_true, decide_eq_true_eq]
      omega
    obtain ⟨⟨next, after, actions⟩, taken⟩ := Option.isSome_iff_exists.mp
      (storeMissing_isSome wellFormed length packet (by omega) room)
    obtain ⟨rfl, rfl, rfl⟩ :=
      storeMissing_waits settled length packet lower upper (by omega) taken
    simp only [clientStep, missing, if_neg accepted, if_neg data, inside, if_true]
    exact taken

section

variable {setup : Setup} {transfer : Transfer} (small : setup.Small)

include small

theorem Filling.sends {sent : Nat} (filling : Filling setup sent transfer)
    (short : (setup.numChunks : Int) < setup.windowSize) (more : sent < setup.numChunks) :
    Leads (step setup) Faultless (Filling setup (sent + 1)) [.serverSend false false] transfer := by
  obtain ⟨next, steps, flows, goes, _, others⟩ :=
    filling.flowing.sends_next small filling.agreed filling.state more (by omega) false
  refine ⟨next, steps, rfl, step_agreed small filling.agreed steps, flows, goes, ?_⟩
  rw [others _ (by omega) (by omega)]
  exact filling.vacant

theorem Filling.loses (filling : Filling setup setup.numChunks transfer)
    (short : (setup.numChunks : Int) < setup.windowSize) (several : 2 ≤ setup.numChunks) :
    Leads (step setup) Faultless (fun waiting =>
      waiting.toClient.head? = some (setup.dataFlight 1) ∧ ∃ lossy,
        step setup (.lose .toClient 0) waiting = some lossy ∧ Gapped setup .waitOnAck 1 0 lossy)
      [.serverSend false false] transfer := by
  have agreed := filling.agreed
  have flowing := filling.flowing
  have middle := flowing.middle
  have bottom := flowing.bottom
  have expected := flowing.expected
  have sizeEq := agreed.serverSize
  have clientSize := agreed.clientSize
  have top := agreed.serverWindow.top_eq
  have clientTop := agreed.settled.wellFormed.top_eq
  obtain ⟨packet, readZero, steps⟩ :=
    agreed.reads_end small filling.state middle (by omega) false
  have channel : transfer.toClient =
      setup.dataFlight 1 :: span setup.dataFlight 1 setup.numChunks := by
    rw [flowing.toClient, span_cons _ (by omega)]
  have loses : step setup (.lose .toClient 0) { transfer with
      server := { transfer.server with
        state := .waitOnAck, packet, eofIndex := transfer.server.window.middle }
      readZero } = some { transfer with
      server := { transfer.server with
        state := .waitOnAck, packet, eofIndex := transfer.server.window.middle }
      toClient := span setup.dataFlight 1 setup.numChunks
      readZero } := by
    simp only [step, disturbed, channel]
    rfl
  refine ⟨_, steps, rfl, by simp only [channel, List.head?_cons], _, loses, ?_⟩
  constructor
  case agreed => exact step_agreed small (step_agreed small agreed steps) loses
  case state => rfl
  case bottom => exact bottom
  case middle => exact middle
  case vacant => exact filling.vacant
  case eofIndex => exact middle
  case waitCount => exact flowing.waitCount
  case client => exact flowing.client
  case expected => exact expected
  case isSet =>
    intro number lower upper
    have unset := agreed.settled.quiet flowing.client number (by omega) (by omega)
    simp only [unset, Bool.false_eq_true, false_iff]
    omega
  case toClient => rfl
  case toServer => exact flowing.toServer
  case ended => exact flowing.ended

theorem Gapped.receives {stored answers : Nat}
    (gapped : Gapped setup .waitOnAck stored answers transfer)
    (short : (setup.numChunks : Int) < setup.windowSize) (first : 1 ≤ stored)
    (more : stored < setup.numChunks) :
    Leads (step setup) Faultless (Gapped setup .waitOnAck (stored + 1) (answers + 1))
      [.clientReceive Packet.zero Packet.zero] transfer := by
  have agreed := gapped.agreed
  have expected := gapped.expected
  have sizeEq := agreed.clientSize
  have wellFormed := agreed.settled.wellFormed
  have top := wellFormed.top_eq
  have bound := small
  unfold Setup.Small at bound
  obtain ⟨packet, receives, sequence, flag, _⟩ := receive_arrives setup.serverHost
    setup.clientHost Packet.zero (UInt32.ofNat (stored + 1)) Flag.data.code
    (setup.chunk (stored + 1)) (setup.chunk_short _) (span setup.dataFlight (stored + 1)
      setup.numChunks)
  have numbered : packet.number = stored + 1 := by
    rw [Packet.number, sequence, ← ofInt_natCast, ofInt_toNat _ (by omega) (by omega)]
    omega
  have accepted : ((setup.chunk (stored + 1)).length : Int) ≠ crcError := by
    simp only [crcError]
    omega
  have active : transfer.client = .recvData ∨ transfer.client = .missing := by
    rw [gapped.client]
    split
    · exact .inl rfl
    · exact .inr rfl
  have stores := clientStep_stores agreed.settled active accepted (by rw [flag]; decide)
    (by omega) (by omega) (by omega)
  have arrives : receive setup.clientHost Packet.zero transfer.toClient =
      some ((((setup.chunk (stored + 1)).length : Int), packet),
        span setup.dataFlight (stored + 1) setup.numChunks) := by
    rw [gapped.toClient, span_cons _ more]
    exact receives
  have steps := step_receive setup transfer Packet.zero Packet.zero arrives stores
  refine ⟨_, steps, trivial, ?_⟩
  constructor
  case agreed => exact step_agreed small agreed steps
  case state => exact gapped.state
  case bottom => exact gapped.bottom
  case middle => exact gapped.middle
  case vacant => exact gapped.vacant
  case eofIndex => exact gapped.eofIndex
  case waitCount => exact gapped.waitCount
  case client => rw [if_neg (by omega)]
  case expected => exact expected
  case isSet =>
    intro number positive inside
    by_cases here : (number : Int) = packet.number
    · have set := put_isSet_self wellFormed packet
      rw [← here] at set
      simp only [set, true_iff]
      omega
    · simp only [put_isSet_of_ne wellFormed packet number (by omega) (by omega) (Ne.symm here),
        gapped.isSet number positive inside]
      omega
  case toClient => rfl
  case toServer =>
    rw [gapped.toServer, expected, List.replicate_succ']
    rfl
  case ended => simp [gapped.ended, acceptsEnd]

theorem Gapped.hears {answers : Nat}
    (gapped : Gapped setup .waitOnAck setup.numChunks (answers + 1) transfer)
    (several : 2 ≤ setup.numChunks) :
    Leads (step setup) Faultless (Gapped setup .sendData setup.numChunks answers)
      [.serverWait true, .serverProcess Packet.zero] transfer := by
  have bottom := gapped.bottom
  have waits : waitOnAck true transfer.server =
      some ({ transfer.server with state := .process, waitCount := 0 }, []) := by
    simp only [waitOnAck, gapped.waitCount]
    rfl
  have waited := step_wait setup transfer gapped.state
    (by rw [gapped.toServer, List.replicate_succ]; simp) waits
  have heard := step_agreed small gapped.agreed waited
  refine ⟨_, waited, by simp [Faultless], ?_⟩
  have channel : transfer.toServer =
      setup.ackFlight 0 :: List.replicate answers (setup.rrFlight 1) := gapped.toServer
  obtain ⟨rrReceived, processed⟩ :=
    heard.processes_rr small rfl Packet.zero (Nat.zero_le _) channel
  have kept : ¬((0 : Nat) : Int) + 1 = transfer.server.eofIndex := by
    rw [gapped.eofIndex]
    omega
  have still : ¬((0 : Nat) : Int) + 1 > transfer.server.window.bottom := by omega
  simp only [if_neg kept, if_neg still] at processed
  refine ⟨_, processed, trivial, ?_⟩
  constructor
  case agreed => exact step_agreed small heard processed
  case state => rfl
  case bottom => exact bottom
  case middle => exact gapped.middle
  case vacant => exact gapped.vacant
  case eofIndex => exact gapped.eofIndex
  case waitCount => rfl
  case client => exact gapped.client
  case expected => exact gapped.expected
  case isSet => exact gapped.isSet
  case toClient => exact (List.append_nil _).trans gapped.toClient
  case toServer => rfl
  case ended => exact gapped.ended

theorem Gapped.reads {answers : Nat}
    (gapped : Gapped setup .sendData setup.numChunks answers transfer)
    (short : (setup.numChunks : Int) < setup.windowSize) :
    Leads (step setup) Faultless (Gapped setup .waitOnAck setup.numChunks answers)
      [.serverSend false false] transfer := by
  have agreed := gapped.agreed
  have bottom := gapped.bottom
  have middle := gapped.middle
  have sizeEq := agreed.serverSize
  have top := agreed.serverWindow.top_eq
  obtain ⟨packet, readZero, steps⟩ :=
    agreed.reads_end small gapped.state middle (by omega) false
  refine ⟨_, steps, rfl, ?_⟩
  constructor
  case agreed => exact step_agreed small agreed steps
  case state => rfl
  case bottom => exact bottom
  case middle => exact middle
  case vacant => exact gapped.vacant
  case eofIndex => exact middle
  case waitCount => exact gapped.waitCount
  case client => exact gapped.client
  case expected => exact gapped.expected
  case isSet => exact gapped.isSet
  case toClient => exact gapped.toClient
  case toServer => exact gapped.toServer
  case ended => exact gapped.ended

theorem Gapped.scans (gapped : Gapped setup .waitOnAck setup.numChunks 0 transfer)
    (short : (setup.numChunks : Int) < setup.windowSize) (several : 2 ≤ setup.numChunks)
    {packet : Packet} (first : packet.number = 1) :
    scanMissing (transfer.window.put packet) (transfer.window.size.toNat + 1)
        transfer.window.bottom =
      some ((transfer.window.put packet).withMiddle (setup.numChunks + 1),
        [.srej (setup.numChunks + 1)]) := by
  have agreed := gapped.agreed
  have expected := gapped.expected
  have wellFormed := agreed.settled.wellFormed
  have sizeEq := agreed.clientSize
  have top := wellFormed.top_eq
  have bound := small
  unfold Setup.Small at bound
  have added := put_wellFormed wellFormed packet
  have held (number : Nat) (positive : 1 ≤ number) (inside : (number : Int) ≤ setup.windowSize) :
      (transfer.window.put packet).isSet number = true ↔ number ≤ setup.numChunks := by
    by_cases here : (number : Int) = packet.number
    · have set := put_isSet_self wellFormed packet
      rw [← here] at set
      simp only [set, true_iff]
      omega
    · rw [put_isSet_of_ne wellFormed packet number (by omega) (by omega) (Ne.symm here),
        gapped.isSet number positive inside]
      omega
  have behind : (transfer.window.put packet).isSet (setup.numChunks + 1) = false := by
    have absent := held (setup.numChunks + 1) (by omega) (by omega)
    rw [Int.natCast_succ] at absent
    cases set : (transfer.window.put packet).isSet (setup.numChunks + 1) with
    | false => rfl
    | true => exact absurd (absent.mp set) (by omega)
  obtain ⟨⟨scan, srej⟩, scanned⟩ := Option.isSome_iff_exists.mp
    (scanMissing_isSome (transfer.window.size.toNat + 1) transfer.window.bottom
      (transfer.window.put packet) added (by omega) (by omega))
  obtain ⟨gap, above, below, rfl, passed, ending⟩ :=
    scanMissing_cases transfer.window.size.toNat transfer.window.bottom
      (transfer.window.put packet) scan srej added (by omega) (by omega) scanned
  have reached : gap = setup.numChunks + 1 := by
    by_contra other
    rcases Int.lt_or_gt_of_ne other with before | after
    · have set := (held gap.toNat (by omega) (by omega)).mpr (by omega)
      rw [Int.toNat_of_nonneg (by omega)] at set
      rcases ending with ⟨unset, _⟩ | ⟨last, _⟩
      · rw [set] at unset
        cases unset
      · omega
    · rw [passed (setup.numChunks + 1) (by omega) after] at behind
      cases behind
  subst reached
  rcases ending with ⟨_, asked⟩ | ⟨last, _⟩
  · rw [scanned, asked, if_pos]
    rw [Window.put_bottom, Window.put_top, asInt32_eq _ (by omega) (by omega)]
    omega
  · omega

theorem Gapped.fills (gapped : Gapped setup .waitOnAck setup.numChunks 0 transfer)
    (short : (setup.numChunks : Int) < setup.windowSize) (several : 2 ≤ setup.numChunks)
    {length : Int} {packet : Packet} (accepted : length ≠ crcError)
    (data : packet.flag ≠ Flag.endOfFile.code) (first : packet.number = 1) :
    ∃ client after actions, clientStep transfer.window (some (length, packet)) transfer.client =
        some (client, after, actions) ∧
      setup.controls actions =
        [setup.srejFlight (setup.numChunks + 1), setup.rrFlight (setup.numChunks + 1)] := by
  have agreed := gapped.agreed
  have expected := gapped.expected
  have wellFormed := agreed.settled.wellFormed
  have sizeEq := agreed.clientSize
  have top := wellFormed.top_eq
  have bound := small
  unfold Setup.Small at bound
  have added := put_wellFormed wellFormed packet
  have waiting : transfer.client = .missing := by rw [gapped.client, if_neg (by omega)]
  have inside : isInWindow transfer.window (asInt32 packet.number) = true := by
    rw [asInt32_eq packet.number (by omega) (by omega)]
    simp only [isInWindow, Bool.and_eq_true, decide_eq_true_eq]
    omega
  have stores := storeMissing_eq wellFormed length packet (by omega) (by omega)
    (setup.numChunks + 1) _ (by omega) (by omega) (gapped.scans small short several first)
  have flushing := unsetFrom_wellFormed (withMiddle_wellFormed added (setup.numChunks + 1))
    (setup.numChunks + 1 - transfer.window.bottom).toNat transfer.window.bottom
  obtain ⟨⟨client, after, actions⟩, leaves⟩ := Option.isSome_iff_exists.mp
    (leaveMissing_isSome _ ([.srej (setup.numChunks + 1)] ++
      flushWrites (transfer.window.put packet) length
        (setup.numChunks + 1 - transfer.window.bottom).toNat transfer.window.bottom ++
          [.rr (setup.numChunks + 1)]) flushing
      (by
        simp only [Window.unsetFrom_bottom, Window.unsetFrom_middle, Window.withMiddle,
          Window.put_bottom]
        omega)
      (by simp only [Window.unsetFrom_middle, Window.withMiddle]; omega)
      (by simp only [Window.unsetFrom_top, Window.withMiddle, Window.put_top]; omega))
  obtain ⟨same, _⟩ := leaveMissing_cases (setup.numChunks + 1) _ after client actions _ flushing
    (by simp only [Window.unsetFrom_middle, Window.withMiddle])
    (by simp only [Window.unsetFrom_bottom, Window.withMiddle, Window.put_bottom]; omega)
    (fun _ => by simp only [Window.unsetFrom_size, Window.withMiddle, Window.put_size]; omega)
    leaves
  refine ⟨client, after, actions, ?_, ?_⟩
  · rw [waiting]
    simp only [clientStep, missing, if_neg accepted, if_neg data, inside, if_true]
    rw [stores, leaves]
  · have silent : setup.controls (flushWrites (transfer.window.put packet) length
        (setup.numChunks + 1 - transfer.window.bottom).toNat transfer.window.bottom) = [] :=
      controls_flushWrites _ _ _ _
    simp only [Setup.controls] at silent
    simp only [same, Setup.controls, List.filterMap_append, silent]
    rfl

theorem Gapped.nudges (gapped : Gapped setup .waitOnAck setup.numChunks 0 transfer)
    (short : (setup.numChunks : Int) < setup.windowSize) (several : 2 ≤ setup.numChunks) :
    Leads (step setup) Faultless (Asked setup)
      [.serverWait false, .clientReceive Packet.zero Packet.zero] transfer := by
  have agreed := gapped.agreed
  have bottom := gapped.bottom
  have middle := gapped.middle
  have nothing : transfer.toServer = [] := gapped.toServer
  have silent : transfer.toClient = [] := by
    rw [gapped.toClient, span_eq_nil_iff _ (Nat.le_refl _)]
  have nudge : sendPacket2 (transfer.server.window.stored transfer.server.window.bottom) =
      some (setup.dataFrame 1) := by
    rw [(agreed.held transfer.server.window.bottom (Int.le_refl _) (by omega)).2, bottom]
    rfl
  obtain ⟨⟨next, datagrams⟩, taken, _⟩ :=
    waitOnAck_sized agreed.sized setup.windowSize_pos false
  have waited := step_wait setup transfer gapped.state (by simp) taken
  rcases waitOnAck_cases agreed.serverWindow taken with ⟨tired, _⟩ | ⟨_, heard, _⟩ |
    ⟨_, _, counted, ⟨fails, _⟩ | ⟨datagram, sends, made, rfl⟩⟩
  · rw [gapped.waitCount] at tired
    omega
  · cases heard
  · rw [nudge] at fails
    cases fails
  obtain rfl := Option.some.inj (nudge.symm.trans sends)
  rw [gapped.waitCount, zero_add] at counted
  obtain ⟨packet, receives, sequence, flag, _⟩ := receive_arrives setup.serverHost
    setup.clientHost Packet.zero (UInt32.ofNat 1) Flag.data.code (setup.chunk 1)
    (setup.chunk_short _) []
  have numbered : packet.number = 1 := by
    rw [Packet.number, sequence]
    rfl
  obtain ⟨client, after, actions, fills, answers⟩ := gapped.fills small short several
    (by simp only [crcError]; omega : ((setup.chunk 1).length : Int) ≠ crcError)
    (by rw [flag]; decide) numbered
  have arrives : receive setup.clientHost Packet.zero
      (transfer.toClient ++ [setup.dataFrame 1].map .intact) =
        some ((((setup.chunk 1).length : Int), packet), []) := by
    rw [silent]
    exact receives
  have received := step_receive setup { transfer with
    server := next, toClient := transfer.toClient ++ [setup.dataFrame 1].map .intact }
    Packet.zero Packet.zero arrives fills
  refine ⟨_, waited, fun _ => ⟨nothing, silent⟩, _, received, trivial, ?_⟩
  constructor
  case agreed => exact step_agreed small (step_agreed small agreed waited) received
  case state => rw [made]
  case vacant =>
    rw [made]
    exact gapped.vacant
  case waitCount => exact counted
  case toClient => rfl
  case toServer => rw [nothing, answers, List.nil_append]
  case ended =>
    have other : ¬packet.flag = Flag.endOfFile.code := by
      rw [flag]
      decide
    simp [gapped.ended, acceptsEnd, other]

theorem Asked.exits (asked : Asked setup transfer) :
    Leads (step setup) Faultless (fun final => Stopped setup final ∧
        final.server.state = .exited ∧ final.ended = false)
      [.serverWait true, .serverProcess Packet.zero] transfer := by
  have positive := setup.windowSize_pos
  have bound := small
  unfold Setup.Small at bound
  have waits : waitOnAck true transfer.server =
      some ({ transfer.server with state := .process, waitCount := 0 }, []) := by
    simp only [waitOnAck, asked.waitCount]
    rfl
  have waited := step_wait setup transfer asked.state (by rw [asked.toServer]; simp) waits
  have heard := step_agreed small asked.agreed waited
  obtain ⟨packet, receives, sequence, flag, _⟩ := receive_arrives setup.clientHost
    setup.serverHost Packet.zero (UInt32.ofInt (setup.numChunks + 1)) Flag.srej.code []
    (Nat.zero_le _) [setup.rrFlight (setup.numChunks + 1)]
  have numbered : packet.number = setup.numChunks + 1 := by
    rw [Packet.number, sequence, ofInt_toNat _ (by omega) (by omega)]
  have arrives : receive setup.serverHost Packet.zero transfer.toServer =
      some ((0, packet), [setup.rrFlight (setup.numChunks + 1)]) := by
    rw [asked.toServer]
    exact receives
  obtain ⟨⟨next, datagrams⟩, taken⟩ := process_isSome heard.sized positive (0, packet)
    (fun _ => by simp only [numbered]; rw [asInt32_eq _ (by omega) (by omega)]; omega)
  have processed := step_process setup { transfer with
    server := { transfer.server with state := .process, waitCount := 0 }
    toClient := transfer.toClient ++ [].map .intact } rfl arrives taken
  refine ⟨_, waited, by simp [Faultless], _, processed, trivial, ?_⟩
  rcases heard.processes small rfl arrives taken with ⟨rejected, _⟩ | ⟨_, rr, _⟩ |
    ⟨_, _, _, _, _, ⟨_, made, rfl⟩ | ⟨datagram, sends, _⟩⟩
  · cases rejected
  · exact absurd (flag.symm.trans rr) (by decide)
  · have exited : next.state = .exited := by rw [made]
    have silent : transfer.toClient ++ [].map .intact ++ [].map .intact = [] := by
      rw [asked.toClient]
      rfl
    exact ⟨stopped_of_exited exited silent, exited, asked.ended⟩
  · have blank : sendPacket2 (transfer.server.window.stored packet.number) = some datagram := sends
    rw [numbered, asked.vacant] at blank
    cases blank

end

theorem started_filling (setup : Setup) (small : setup.Small) (packet : Packet) (eofIndex : Int) :
    Filling setup 0 (started setup packet eofIndex 0) := by
  exact ⟨initial_agreed small ⟨packet, eofIndex, 0, rfl⟩, started_flowing setup packet eofIndex, rfl,
    initWindow_stored _ _⟩

/-- When a file has several chunks, but fewer than the window, the loss of the first data packet is
enough for rcopy to ask for the packet behind the last one, and for the server to exit without
END_OF_FILE. -/
theorem transfer_fails_oneLoss (setup : Setup) (small : setup.Small) (packet : Packet)
    (eofIndex : Int) (several : 2 ≤ setup.numChunks)
    (short : (setup.numChunks : Int) < setup.windowSize) :
    ∃ before between later, Leads (step setup) Faultless (fun waiting =>
        waiting.toClient.head? = some (setup.dataFlight 1) ∧ ∃ lossy,
          step setup (.lose .toClient 0) waiting = some lossy ∧
          Leads (step setup) Faultless (fun asked =>
            setup.srejFlight (setup.numChunks + 1) ∈ asked.toServer ∧
            Leads (step setup) Faultless (fun final => Stopped setup final ∧
              final.server.state = .exited ∧ final.ended = false) later asked) between lossy)
      before (started setup packet eofIndex 0) := by
  have fills := Leads.rounds (Filling setup)
    (fun sent _ more filling => Filling.sends small filling short more)
    (Nat.le_refl setup.numChunks) (started_filling setup small packet eofIndex)
  have stores (lossy : Transfer) (gapped : Gapped setup .waitOnAck 1 0 lossy) :=
    Leads.rounds (fun count => Gapped setup .waitOnAck (count + 1) count)
      (fun count _ more gapped => Gapped.receives small gapped short (by omega) (by omega))
      (Nat.le_refl (setup.numChunks - 1)) gapped
  have hears (lossy : Transfer)
      (gapped : Gapped setup .waitOnAck (setup.numChunks - 1 + 1) (setup.numChunks - 1) lossy) := by
    rw [show setup.numChunks - 1 + 1 = setup.numChunks by omega] at gapped
    exact Leads.rounds
      (fun count => Gapped setup .waitOnAck setup.numChunks (setup.numChunks - 1 - count))
      (fun count _ more gapped => by
        rw [show setup.numChunks - 1 - count = setup.numChunks - 1 - (count + 1) + 1 by omega]
          at gapped
        exact (gapped.hears small several).append fun _ ready => ready.reads small short)
      (Nat.le_refl (setup.numChunks - 1)) gapped
  have asks (lossy : Transfer)
      (gapped : Gapped setup .waitOnAck setup.numChunks (setup.numChunks - 1 - (setup.numChunks - 1))
        lossy) := by
    rw [Nat.sub_self] at gapped
    exact gapped.nudges small short several
  have rest (lossy : Transfer) (gapped : Gapped setup .waitOnAck 1 0 lossy) :=
    (((stores lossy gapped).append hears).append asks).imp fun asked (ready : Asked setup asked) =>
      And.intro (by rw [ready.toServer]; exact List.mem_cons_self :
        setup.srejFlight (setup.numChunks + 1) ∈ asked.toServer) (ready.exits small)
  exact ⟨_, _, _, (fills.append fun _ filling => filling.loses small short several).imp
    fun _ ⟨first, lossy, loses, gapped⟩ => ⟨first, lossy, loses, rest lossy gapped⟩⟩

def wideWindow : Setup := { twoChunks with windowSize := 3, windowSize_pos := by decide }

theorem transfer_fails_oneLoss_wideWindow :
    ∃ before between later, Leads (step wideWindow) Faultless (fun waiting =>
        waiting.toClient.head? = some (wideWindow.dataFlight 1) ∧ ∃ lossy,
          step wideWindow (.lose .toClient 0) waiting = some lossy ∧
          Leads (step wideWindow) Faultless (fun asked =>
            wideWindow.srejFlight (wideWindow.numChunks + 1) ∈ asked.toServer ∧
            Leads (step wideWindow) Faultless (fun final => Stopped wideWindow final ∧
              final.server.state = .exited ∧ final.ended = false) later asked) between lossy)
      before (started wideWindow Packet.zero 0 0) :=
  transfer_fails_oneLoss wideWindow (by decide +kernel) Packet.zero 0 (by decide +kernel)
    (by decide +kernel)

end RemoteCopy
