import Cpe464.RemoteCopy.Agreement

/-!
What the server sends again. Over channels that keep the order, the numbers that rcopy names
never fall behind the server's window, so every retransmission is of a packet that was sent
and is not yet acknowledged, unless the number asked for is the next one to be sent.
-/

namespace RemoteCopy

open Bytes

variable {setup : Setup}

/-! The order of the RRs and SREJs. -/

def Setup.Names (setup : Setup) (seqNum : Int) (flight : Flight) : Prop :=
  flight = setup.rrFlight seqNum ∨ flight = setup.srejFlight seqNum

inductive Ordered (setup : Setup) : Int → List Flight → Int → Prop
  | nil {lower upper} : lower ≤ upper → Ordered setup lower [] upper
  | corrupted {lower upper rest} : Ordered setup lower rest upper →
      Ordered setup lower (.corrupted :: rest) upper
  | control {lower upper seqNum flight rest} : lower ≤ seqNum → setup.Names seqNum flight →
      Ordered setup seqNum rest upper → Ordered setup lower (flight :: rest) upper

theorem frame_seqNum_inj (host : ByteOrder) {first second : UInt32} {flag other : UInt8}
    (same : frame host first flag [] = frame host second other []) : first = second := by
  obtain ⟨packet, decodes, number, _⟩ :=
    recvPacket_frame host host Packet.zero first flag [] (Nat.zero_le _)
  obtain ⟨packet', decodes', number', _⟩ :=
    recvPacket_frame host host Packet.zero second other [] (Nat.zero_le _)
  rw [same, decodes', Option.some.injEq, Prod.mk.injEq] at decodes
  rw [← number, ← number', decodes.2]

theorem Setup.Names.unique {first second : Int} {flight : Flight}
    (names : setup.Names first flight) (others : setup.Names second flight)
    (firstRange : 0 ≤ first ∧ first < 2 ^ 32) (secondRange : 0 ≤ second ∧ second < 2 ^ 32) :
    first = second := by
  have same : UInt32.ofInt first = UInt32.ofInt second := by
    rcases names with rfl | rfl <;> rcases others with same | same <;>
      exact frame_seqNum_inj _ (Flight.intact.inj same)
  rw [← ofInt_toNat first firstRange.1 firstRange.2, same,
    ofInt_toNat second secondRange.1 secondRange.2]

section

variable {lower middle upper : Int} {channel later : List Flight}

theorem Ordered.le (ordered : Ordered setup lower channel upper) : lower ≤ upper := by
  induction ordered with
  | nil bound => exact bound
  | corrupted _ ih => exact ih
  | control above _ _ ih => exact Int.le_trans above ih

theorem Ordered.lower_le {below : Int} (ordered : Ordered setup lower channel upper)
    (bound : below ≤ lower) : Ordered setup below channel upper := by
  induction ordered with
  | nil above => exact .nil (Int.le_trans bound above)
  | corrupted _ ih => exact .corrupted (ih bound)
  | control above names rest _ => exact .control (Int.le_trans bound above) names rest

theorem Ordered.append (ordered : Ordered setup lower channel middle)
    (rest : Ordered setup middle later upper) : Ordered setup lower (channel ++ later) upper := by
  induction ordered with
  | nil bound => exact rest.lower_le bound
  | corrupted _ ih => exact .corrupted (ih rest)
  | control above names _ ih => exact .control above names (ih rest)

theorem Ordered.tail {flight : Flight} (ordered : Ordered setup lower (flight :: channel) upper) :
    Ordered setup lower channel upper := by
  cases ordered with
  | corrupted rest => exact rest
  | control above _ rest => exact rest.lower_le above

theorem Ordered.eraseIdx (ordered : Ordered setup lower channel upper) (index : Nat) :
    Ordered setup lower (channel.eraseIdx index) upper := by
  induction ordered generalizing index with
  | nil bound => exact .nil bound
  | corrupted rest ih =>
      cases index with
      | zero => exact rest
      | succ index => exact .corrupted (ih index)
  | control above names rest ih =>
      cases index with
      | zero => exact rest.lower_le above
      | succ index => exact .control above names (ih index)

theorem Ordered.set_corrupted (ordered : Ordered setup lower channel upper) (index : Nat) :
    Ordered setup lower (channel.set index .corrupted) upper := by
  induction ordered generalizing index with
  | nil bound => exact .nil bound
  | corrupted rest ih =>
      cases index with
      | zero => exact .corrupted rest
      | succ index => exact .corrupted (ih index)
  | control above names rest ih =>
      cases index with
      | zero => exact .corrupted (rest.lower_le above)
      | succ index => exact .control above names (ih index)

theorem Ordered.front {seqNum : Int} {flight : Flight}
    (ordered : Ordered setup lower (flight :: channel) upper) (names : setup.Names seqNum flight)
    (range : 0 ≤ seqNum ∧ seqNum < 2 ^ 32) (positive : 0 ≤ lower) (small : upper < 2 ^ 32) :
    lower ≤ seqNum ∧ Ordered setup seqNum channel upper := by
  cases ordered with
  | corrupted _ => rcases names with same | same <;> cases same
  | control above others rest =>
      have bound := rest.le
      obtain rfl := names.unique others range ⟨by omega, by omega⟩
      exact ⟨above, rest⟩

end

theorem Receives.ordered {window after : Window} {state next : ClientState}
    {outcome : Option (Int × Packet)} {actions : List ClientAction}
    (received : Receives window state outcome next after actions) (data : IsData outcome) :
    Ordered setup after.bottom (setup.controls actions) after.bottom := by
  have rr (seqNum : Int) : Ordered setup seqNum [setup.rrFlight seqNum] seqNum :=
    .control (Int.le_refl _) (Or.inl rfl) (.nil (Int.le_refl _))
  have srej (seqNum : Int) : Ordered setup seqNum [setup.srejFlight seqNum] seqNum :=
    .control (Int.le_refl _) (Or.inr rfl) (.nil (Int.le_refl _))
  cases received with
  | finished accepted ends => exact absurd ends (data accepted)
  | finishedGap accepted ends => exact absurd ends (data accepted)
  | rejected => exact srej _
  | next => exact rr _
  | duplicate => exact rr _
  | buffered => exact rr _
  | @filled _ _ _ gap =>
      rw [Setup.controls, List.filterMap_append, List.filterMap_append, ← Setup.controls,
        ← Setup.controls, controls_flushWrites, List.append_nil]
      refine Ordered.append ?_ (rr gap)
      split
      · exact srej gap
      · exact .nil (Int.le_refl _)
  | _ => exact .nil (Int.le_refl _)

/-! Channels that keep the order. -/

def OrderPreserving (_ : Transfer) (event : Event) (_ : Transfer) : Prop :=
  match event with
  | .duplicate _ _ => False
  | .overtake _ _ => False
  | _ => True

instance (transfer next : Transfer) (event : Event) :
    Decidable (OrderPreserving transfer event next) := by
  unfold OrderPreserving
  split <;> infer_instance

theorem disturb_ordered {event : Event} {before after : List Flight} {lower upper : Int}
    {transfer next : Transfer} (ordered : Ordered setup lower before upper)
    (preserving : OrderPreserving transfer event next)
    (disturbs : disturb event before = some after) : Ordered setup lower after upper := by
  cases event with
  | lose direction index =>
      simp only [disturb] at disturbs
      split at disturbs
      · obtain rfl := Option.some.inj disturbs
        exact ordered.eraseIdx index
      · cases disturbs
  | corrupt direction index =>
      simp only [disturb] at disturbs
      split at disturbs
      · obtain rfl := Option.some.inj disturbs
        exact ordered.set_corrupted index
      · cases disturbs
  | duplicate direction index => exact absurd preserving id
  | overtake direction index => exact absurd preserving id
  | _ => cases disturbs

/-- Until the server is finished, rcopy names no number behind the server's window. -/
def InOrder (setup : Setup) (transfer : Transfer) : Prop :=
  transfer.server.state.Finished ∨
    Ordered setup transfer.server.window.bottom transfer.toServer transfer.window.bottom

theorem Agreed.asked (small : setup.Small) {transfer : Transfer} (agreed : Agreed setup transfer)
    (ordered : Ordered setup transfer.server.window.bottom transfer.toServer
      transfer.window.bottom) {seqNum : Int} {flight : Flight} {rest : List Flight}
    (channel : transfer.toServer = flight :: rest) (names : setup.Names seqNum flight)
    (lower : 1 ≤ seqNum) (upper : seqNum ≤ transfer.server.window.middle) :
    transfer.server.window.bottom ≤ seqNum ∧
      Ordered setup seqNum rest transfer.window.bottom := by
  have bottom := agreed.serverWindow.bottom_pos
  have below := agreed.bottom_le_middle
  have chunks := agreed.middle_le_chunks
  have positive := setup.windowSize_pos
  unfold Setup.Small at small
  rw [channel] at ordered
  exact ordered.front names ⟨by omega, by omega⟩ (by omega) (by omega)

theorem process_inOrder (small : setup.Small) {transfer : Transfer}
    (agreed : Agreed setup transfer) {stack : Packet} {received : Int × Packet}
    {rest : List Flight} {next : Server} {sent : List (List UInt8)}
    (ordered : Ordered setup transfer.server.window.bottom transfer.toServer
      transfer.window.bottom)
    (state : transfer.server.state = .process)
    (receives : receive setup.serverHost stack transfer.toServer = some (received, rest))
    (processes : process received transfer.server = some (next, sent)) :
    Ordered setup next.window.bottom rest transfer.window.bottom := by
  obtain ⟨flight, channel⟩ := receive_cons receives
  rcases agreed.processes small state receives processes with
    ⟨_, rfl, _⟩ | ⟨_, _, lower, upper, same, _, rfl⟩ | ⟨_, _, _, _, _, resent⟩
  · rw [channel] at ordered
    exact ordered.tail
  · obtain ⟨above, later⟩ := agreed.asked small ordered same (Or.inl rfl) lower
      (Int.le_trans upper agreed.bottom_le_middle)
    simp only
    split
    · exact later
    · exact later.lower_le above
  · rw [channel] at ordered
    rw [(agreed.resends resent).2.1]
    exact ordered.tail

theorem step_inOrder (small : setup.Small) {transfer next : Transfer} {event : Event}
    (agreed : Agreed setup transfer) (inOrder : InOrder setup transfer)
    (moves : Moves setup transfer event next) (preserving : OrderPreserving transfer event next) :
    InOrder setup next := by
  have going (sending : transfer.server.state = .sendData ∨ transfer.server.state = .process ∨
      transfer.server.state = .waitOnAck) :
      Ordered setup transfer.server.window.bottom transfer.toServer transfer.window.bottom :=
    inOrder.resolve_left (unfinished sending)
  cases moves with
  | send state sends =>
      have ordered := going (Or.inl state)
      right
      rcases agreed.sends small sends with
        ⟨_, _, rfl⟩ | ⟨_, _, _, rfl⟩ | ⟨_, _, _, _, _, rfl⟩ | ⟨_, _, _, _, _, _, rfl⟩
      · exact ordered
      · exact ordered
      · exact ordered
      · exact ordered
  | process state receives processes =>
      exact Or.inr (process_inOrder small agreed (going (Or.inr (Or.inl state))) state receives
        processes)
  | wait state waits =>
      have ordered := going (Or.inr (Or.inr state))
      right
      rcases waitOnAck_cases agreed.serverWindow waits with
        ⟨_, _, rfl⟩ | ⟨_, _, _, rfl⟩ | ⟨_, _, _, resent⟩
      · exact ordered
      · exact ordered
      · simp only [(agreed.resends resent).2.1]
        exact ordered
  | bye _ answers => exact Or.inl (bye_finished answers)
  | @hear stack received => exact Or.inl (byeReceive_finished received transfer.server)
  | @receive stack control received rest client window actions receives steps =>
      rcases inOrder with finished | ordered
      · exact Or.inl finished
      obtain ⟨_, step⟩ := clientStep_receives agreed.settled
        (agreed.fits small receives window) steps
      by_cases ends : received.1 ≠ crcError ∧ received.2.flag = Flag.endOfFile.code
      · exact Or.inl (agreed.ends small receives ends.1 ends.2).1
      · have data : IsData (some received) := fun accepted flag => ends ⟨accepted, flag⟩
        exact Or.inr (ordered.append ((step.ordered data).lower_le step.bottom_le))
  | timeout steps =>
      obtain ⟨_, _, rfl⟩ := clientStep_timeout steps
      exact inOrder
  | networkToServer disturbs =>
      exact inOrder.imp_right (fun ordered => disturb_ordered ordered preserving disturbs)
  | networkToClient disturbs => exact inOrder

/-! Retransmissions. -/

def SendsAgain (setup : Setup) (transfer next : Transfer) (seqNum : Int) : Prop :=
  transfer.server.window.bottom ≤ seqNum ∧ seqNum < transfer.server.window.middle ∧
    ∃ datagram, transfer.sent[(seqNum - 1).toNat]? = some datagram ∧
      datagram = setup.dataFrame seqNum.toNat ∧
      next.toClient = transfer.toClient ++ [.intact datagram]

theorem Agreed.sendsAgain {transfer next : Transfer} (agreed : Agreed setup transfer)
    {seqNum : Int} {state : ServerState} {server : Server} {sent : List (List UInt8)}
    (resent : Resends transfer.server seqNum state server sent)
    (made : next.toClient = transfer.toClient ++ sent.map .intact)
    (lower : transfer.server.window.bottom ≤ seqNum)
    (upper : seqNum ≤ transfer.server.window.middle) :
    SendsAgain setup transfer next seqNum ↔ seqNum ≠ transfer.server.window.middle := by
  have bottom := agreed.serverWindow.bottom_pos
  constructor
  · rintro ⟨_, before, _⟩
    omega
  · intro other
    have before : seqNum < transfer.server.window.middle := by omega
    obtain ⟨_, frames⟩ := agreed.held seqNum lower before
    refine ⟨lower, before, setup.dataFrame seqNum.toNat, ?_, rfl, ?_⟩
    · rw [agreed.sent_eq, List.getElem?_map, List.getElem?_range (by omega), Option.map_some]
      congr 2
      omega
    · rcases resent with ⟨empty, _⟩ | ⟨datagram, sends, _, rfl⟩
      · rw [frames] at empty
        cases empty
      · rw [frames, Option.some.injEq] at sends
        rw [made, ← sends, List.map_singleton]

/-- Over channels that keep the order, a nudge and the answer to an SREJ send a packet that is
sent and unacknowledged again, byte for byte, exactly when it is not the next new packet. -/
theorem retransmits_held (small : setup.Small) (transfer : Transfer)
    (reach : Transition.Reach (Initial setup) (step setup) OrderPreserving transfer) :
    (∀ next, step setup (.serverWait false) transfer = some next →
      transfer.server.waitCount < 10 →
      (SendsAgain setup transfer next transfer.server.window.bottom ↔
        transfer.server.window.bottom ≠ transfer.server.window.middle)) ∧
    (∀ stack received rest next, step setup (.serverProcess stack) transfer = some next →
      receive setup.serverHost stack transfer.toServer = some (received, rest) →
      received.1 ≠ crcError → received.2.flag = Flag.srej.code →
      (SendsAgain setup transfer next received.2.number ↔
        received.2.number ≠ transfer.server.window.middle)) := by
  have reachable := Reachable.of reach
  have agreed := reachable.agreed small
  have inOrder : InOrder setup transfer := by
    apply reach.invariantWith (fun _ reached => Reachable.of reached)
    · rintro first ⟨packet, eofIndex, duplicates, rfl⟩
      exact Or.inr (.nil (Int.le_refl _))
    · intro before event after reached inOrder taken preserving
      exact step_inOrder small (reached.agreed small) inOrder (step_moves taken) preserving
  refine ⟨?_, ?_⟩
  · intro next taken patient
    cases step_moves taken with
    | wait state waits =>
        rcases waitOnAck_cases agreed.serverWindow waits with
          ⟨tired, _⟩ | ⟨_, arrived, _⟩ | ⟨_, _, _, resent⟩
        · omega
        · cases arrived
        · exact agreed.sendsAgain resent rfl (Int.le_refl _)
            (Int.le_trans agreed.bottom_le agreed.bottom_le_middle)
    | networkToServer disturbs => cases disturbs
    | networkToClient disturbs => cases disturbs
  · intro stack received rest next taken receives accepted srej
    cases step_moves taken with
    | process state receives' processes =>
        rw [receives, Option.some.injEq, Prod.mk.injEq] at receives'
        obtain ⟨rfl, rfl⟩ := receives'
        have ordered := inOrder.resolve_left (unfinished (Or.inr (Or.inl state)))
        rcases agreed.processes small state receives processes with
          ⟨rejected, _⟩ | ⟨_, rr, _⟩ | ⟨_, _, lower, upper, channel, resent⟩
        · exact absurd rejected accepted
        · exact absurd (rr.symm.trans srej) (by decide)
        · exact agreed.sendsAgain resent rfl
            (agreed.asked small ordered channel (Or.inr rfl) lower upper).1 upper
    | networkToServer disturbs => cases disturbs
    | networkToClient disturbs => cases disturbs

theorem retransmits_held_twoChunks : ∃ transfer next,
    Transition.run (step twoChunks) [.serverSend false false, .serverSend false false,
      .serverSend false false] (started twoChunks Packet.zero 0 0) = some transfer ∧
    step twoChunks (.serverWait false) transfer = some next ∧
    SendsAgain twoChunks transfer next 1 := by
  have waits : ((Transition.run (step twoChunks) [.serverSend false false,
      .serverSend false false, .serverSend false false]
        (started twoChunks Packet.zero 0 0)).bind fun transfer =>
          (step twoChunks (.serverWait false) transfer).map fun _ =>
            (transfer.server.waitCount, transfer.server.window.bottom,
              transfer.server.window.middle)) = some (0, 1, 3) := by
    decide +kernel
  obtain ⟨transfer, executed, taken⟩ := Option.bind_eq_some_iff.mp waits
  obtain ⟨next, taken, values⟩ := Option.map_eq_some_iff.mp taken
  simp only [Prod.mk.injEq] at values
  obtain ⟨count, bottom, middle⟩ := values
  have reach : Transition.Reach (Initial twoChunks) (step twoChunks) OrderPreserving transfer :=
    Transition.Reach.run _ (.start ⟨Packet.zero, 0, 0, rfl⟩) executed (by decide +kernel)
  refine ⟨transfer, next, executed, taken, ?_⟩
  have again := (retransmits_held (by decide +kernel) transfer reach).1 next taken (by omega)
  rw [bottom, middle] at again
  exact again.mpr (by decide)

def emptyFile : Setup := { twoChunks with file := [] }

/-- After an empty file the nudge is for a packet that does not exist, and the server exits. -/
theorem retransmits_empty : ∃ setup transfer next, Setup.Small setup ∧
    Transition.Reach (Initial setup) (step setup) OrderPreserving transfer ∧
    transfer.server.waitCount < 10 ∧ step setup (.serverWait false) transfer = some next ∧
    next.server.state = .exited ∧
    ¬SendsAgain setup transfer next transfer.server.window.bottom := by
  have waits : ((Transition.run (step emptyFile) [.serverSend false false]
      (started emptyFile Packet.zero 0 0)).bind fun transfer =>
        (step emptyFile (.serverWait false) transfer).map fun next =>
          (transfer.server.waitCount, transfer.server.window.bottom,
            transfer.server.window.middle, next.server.state)) = some (0, 1, 1, .exited) := by
    decide +kernel
  obtain ⟨transfer, executed, taken⟩ := Option.bind_eq_some_iff.mp waits
  obtain ⟨next, taken, values⟩ := Option.map_eq_some_iff.mp taken
  simp only [Prod.mk.injEq] at values
  obtain ⟨count, bottom, middle, exited⟩ := values
  refine ⟨emptyFile, transfer, next, by decide +kernel, ?_, by omega, taken, exited, ?_⟩
  · exact Transition.Reach.run _ (.start ⟨Packet.zero, 0, 0, rfl⟩) executed (by decide +kernel)
  · rintro ⟨_, before, _⟩
    omega

end RemoteCopy
