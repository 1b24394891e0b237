import Cpe464.RemoteCopy.Child
import Cpe464.RemoteCopy.ConnectionCore
import Cpe464.RemoteCopy.RcopyCore

/-!
What a datagram that `recv_packet` rejects may change. The windows, the file and the output
are kept, but its sender is stored before it is judged, and gets the next datagrams.
-/

namespace RemoteCopy

open Bytes Transition

def Rejected (host : ByteOrder) (arrival : Arrival) : Prop :=
  ∃ packet, recvPacket host arrival.stack arrival.datagram = some (crcError, packet)

/-! The connection. -/

theorem recvPacketFrom_eq (host : ByteOrder) (connection : Connection) (arrival : Arrival) :
    ∃ len, (len = connection.len ∨ len = addressLength) ∧
      recvPacketFrom host connection arrival =
        (recvPacket host arrival.stack arrival.datagram).map fun received =>
          (received, ⟨arrival.source, len⟩) := by
  simp only [recvPacketFrom, recvPacket]
  cases deconstruct host _ with
  | none => exact ⟨_, .inl rfl, rfl⟩
  | some decoded =>
      by_cases failed : decoded.1 ≠ 0
      · simp only [if_pos failed, Option.map_some]
        exact ⟨_, .inl rfl, rfl⟩
      · simp only [if_neg failed, Option.map_some]
        exact ⟨_, .inr rfl, rfl⟩

def Connection.Sized (connection : Connection) : Prop := connection.len = addressLength

theorem receiveFrom_rejected {host : ByteOrder} {connection : Connection} {arrival : Arrival}
    {packet : Packet} (sized : connection.Sized)
    (rejects : recvPacket host arrival.stack arrival.datagram = some (crcError, packet)) :
    receiveFrom host connection (some arrival) =
      some (some (crcError, packet), { connection with remote := arrival.source }) := by
  obtain ⟨len, length, receives⟩ := recvPacketFrom_eq host connection arrival
  have same : len = connection.len := by
    rcases length with same | other
    · exact same
    · rw [other, sized]
  rw [receiveFrom, receives, rejects, same]
  rfl

theorem receiveFrom_sized {host : ByteOrder} {connection next : Connection}
    {received : Option Arrival} {outcome : Option (Int × Packet)} (sized : connection.Sized)
    (receives : receiveFrom host connection received = some (outcome, next)) : next.Sized := by
  cases received with
  | none =>
      simp only [receiveFrom, Option.some.injEq, Prod.mk.injEq] at receives
      exact receives.2 ▸ sized
  | some arrival =>
      obtain ⟨len, length, stores⟩ := recvPacketFrom_eq host connection arrival
      simp only [receiveFrom, stores, Option.map_map, Option.map_eq_some_iff, Function.comp_apply,
        Prod.mk.injEq] at receives
      obtain ⟨_, _, _, rfl⟩ := receives
      rcases length with same | same
      · exact same.trans sized
      · exact same

theorem source_iff (connection : Connection) (source : Address) :
    { connection with remote := source } = connection ↔ source = connection.remote := by
  constructor
  · intro same
    exact congrArg Connection.remote same
  · rintro rfl
    rfl

/-! rcopy. -/

def RcopyMain.Unchanged (before after : RcopyMain) : Prop :=
  after.window = before.window ∧ after.server = before.server ∧
    ∃ repeats : List Int, after.actions = before.actions ++ repeats.map ClientAction.srej

def Window.Moves (window : Window) : Prop :=
  -2 ^ 31 ≤ window.bottom ∧ window.bottom + 1 < 2 ^ 31

instance (window : Window) : Decidable window.Moves := inferInstanceAs (Decidable (_ ∧ _))

theorem recvData_centres {window after : Window} {outcome : Option (Int × Packet)}
    {next : ClientState} {actions : List ClientAction} (moves : window.Moves)
    (centred : window.middle = window.bottom)
    (taken : recvData window outcome = some (next, after, actions)) :
    next = .missing ∨ next = .done ∨ after.middle = after.bottom := by
  rcases outcome with _ | ⟨length, packet⟩
  · cases taken
    exact .inr (.inl rfl)
  simp only [recvData] at taken
  split at taken
  · cases taken
    exact .inl rfl
  split at taken
  · cases taken
    exact .inr (.inl rfl)
  split at taken
  · simp only [Option.bind_eq_bind, Option.bind_eq_some_iff, Option.some.injEq,
      Prod.mk.injEq] at taken
    obtain ⟨slid, slides, rfl, rfl, _⟩ := taken
    right; right
    rw [slide_fields slides, asInt32_eq (window.bottom + 1) (by have := moves.1; omega) moves.2]
    simp only
    omega
  split at taken
  · cases taken
    exact .inr (.inr centred)
  split at taken
  · cases taken
    exact .inr (.inl rfl)
  · simp only [Option.bind_eq_bind, Option.bind_eq_some_iff, Option.some.injEq,
      Prod.mk.injEq] at taken
    obtain ⟨added, _, rfl, _⟩ := taken
    exact .inl rfl

theorem leaveMissing_centres {window after : Window} {next : ClientState}
    {made actions : List ClientAction}
    (taken : leaveMissing window made = some (next, after, actions)) :
    next = .missing ∨ after.middle = after.bottom := by
  simp only [leaveMissing, Option.bind_eq_bind, Option.bind_eq_some_iff] at taken
  obtain ⟨accounted, _, taken⟩ := taken
  split at taken
  · simp only [Option.bind_eq_some_iff, Option.some.injEq, Prod.mk.injEq] at taken
    obtain ⟨slid, slides, _, rfl, _⟩ := taken
    right
    rw [slide_fields slides]
    exact Int.max_self _
  · split at taken
    · simp only [Option.bind_eq_some_iff, Option.some.injEq, Prod.mk.injEq] at taken
      obtain ⟨slid, _, rfl, _⟩ := taken
      exact .inl rfl
    · cases taken
      exact .inl rfl

theorem missing_centres {window after : Window} {outcome : Option (Int × Packet)}
    {next : ClientState} {actions : List ClientAction}
    (taken : missing window outcome = some (next, after, actions)) :
    next = .missing ∨ next = .done ∨ after.middle = after.bottom := by
  rcases outcome with _ | ⟨length, packet⟩
  · cases taken
    exact .inr (.inl rfl)
  simp only [missing] at taken
  split at taken
  · cases taken
    exact .inl rfl
  split at taken
  · split at taken
    · cases taken
      exact .inr (.inl rfl)
    · cases taken
      exact .inl rfl
  split at taken
  · simp only [storeMissing, Option.bind_eq_bind, Option.bind_eq_some_iff] at taken
    obtain ⟨_, _, _, _, _, _, leaves⟩ := taken
    rcases leaveMissing_centres leaves with same | centred
    · exact .inl same
    · exact .inr (.inr centred)
  · cases taken
    exact .inl rfl

/-- Outside MISSING the window is centred, so a rejected packet does not move it. -/
structure RcopyMain.Centred (rcopy : RcopyMain) : Prop where
  sized : rcopy.connected = true ∨ rcopy.state ≠ .filename → rcopy.server.Sized
  middle_eq : rcopy.state = .missing ∨ rcopy.state = .done ∨
    rcopy.window.middle = rcopy.window.bottom

theorem start_centred (size : Int) (server : Connection) :
    (RcopyMain.start size server).Centred := by
  constructor
  · rintro (connected | other)
    · cases connected
    · exact absurd rfl other
  · exact .inr (.inr rfl)

theorem RcopyMain.Centred.receive {host : ByteOrder} {rcopy next : RcopyMain}
    {received : Option Arrival} (centred : rcopy.Centred) (moves : rcopy.window.Moves)
    (listening : rcopy.Listening) (taken : rcopy.receive host received = some next) :
    next.Centred := by
  have sized : rcopy.server.Sized := centred.sized (by
    rcases listening with ⟨_, connected⟩ | recvData | missing
    · exact .inl connected
    · exact .inr (by rw [recvData]; decide)
    · exact .inr (by rw [missing]; decide))
  simp only [RcopyMain.receive, Option.bind_eq_bind, Option.bind_eq_some_iff] at taken
  obtain ⟨⟨outcome, server⟩, receives, taken⟩ := taken
  have after := receiveFrom_sized sized receives
  split at taken
  · rename_i filename
    obtain rfl := Option.some.inj taken
    have middle := centred.middle_eq
    rw [filename] at middle
    refine ⟨fun _ => after, .inr (.inr ?_)⟩
    simpa using middle
  · simp only [Option.bind_eq_some_iff] at taken
    obtain ⟨⟨state, window, actions⟩, steps, made⟩ := taken
    obtain rfl := Option.some.inj made
    refine ⟨fun _ => after, ?_⟩
    rcases listening with ⟨filename, _⟩ | recvData | missing
    · exact absurd filename (by assumption)
    · rw [recvData] at steps
      have middle := centred.middle_eq
      rw [recvData] at middle
      exact recvData_centres moves (by simpa using middle) steps
    · rw [missing] at steps
      exact missing_centres steps

theorem RcopyMain.Centred.step {host : ByteOrder} {rcopy next : RcopyMain} {event : RcopyEvent}
    (centred : rcopy.Centred) (moves : rcopy.window.Moves)
    (taken : rcopy.step host event = some next) : next.Centred := by
  cases event with
  | setup target =>
      simp only [RcopyMain.step] at taken
      split at taken
      · obtain rfl := Option.some.inj taken
        exact ⟨fun _ => rfl, centred.middle_eq⟩
      · cases taken
  | receive received =>
      simp only [RcopyMain.step] at taken
      split at taken
      · exact centred.receive moves (by assumption) taken
      · cases taken
  | openOutput opened =>
      simp only [RcopyMain.step] at taken
      split at taken
      · rename_i fileOk
        have middle := centred.middle_eq
        have sized := centred.sized (.inr (by rw [fileOk]; decide))
        rw [fileOk] at middle
        obtain rfl := Option.some.inj taken
        exact ⟨fun _ => sized, .inr (.inr (by simpa using middle))⟩
      · cases taken

theorem reached_centred {host : ByteOrder} {size : Int} {server : Connection} {rcopy : RcopyMain}
    (reach : Reach (· = RcopyMain.start size server) (RcopyMain.step host)
      (fun before _ _ => before.window.Moves) rcopy) : rcopy.Centred := by
  apply reach.invariant
  · rintro _ rfl
    exact start_centred size server
  · intro before event after centred taken moves
    exact centred.step moves taken

theorem RcopyMain.Centred.receives_rejected {host : ByteOrder} {rcopy : RcopyMain}
    {arrival : Arrival} (centred : rcopy.Centred) (listening : rcopy.Listening)
    (rejected : Rejected host arrival) :
    ∃ next, rcopy.step host (.receive (some arrival)) = some next ∧ next.window = rcopy.window ∧
      next.server = { rcopy.server with remote := arrival.source } ∧
      ∃ repeats : List Int, next.actions = rcopy.actions ++ repeats.map ClientAction.srej := by
  obtain ⟨packet, rejects⟩ := rejected
  have sized : rcopy.server.Sized := centred.sized (by
    rcases listening with ⟨_, connected⟩ | recvData | missing
    · exact .inl connected
    · exact .inr (by rw [recvData]; decide)
    · exact .inr (by rw [missing]; decide))
  have receives := receiveFrom_rejected sized rejects
  simp only [RcopyMain.step, if_pos listening, RcopyMain.receive, receives, Option.bind_eq_bind,
    Option.bind_some]
  rcases listening with ⟨filename, _⟩ | recvData | missing
  · rw [if_pos filename]
    exact ⟨_, rfl, rfl, rfl, [], (List.append_nil _).symm⟩
  · have middle := centred.middle_eq
    rw [recvData] at middle
    have centre : ({ rcopy.window with middle := rcopy.window.bottom } : Window) = rcopy.window := by
      rw [← (by simpa using middle : rcopy.window.middle = rcopy.window.bottom)]
    rw [if_neg (by rw [recvData]; decide), recvData]
    exact ⟨_, rfl, centre, rfl, [rcopy.window.bottom], rfl⟩
  · rw [if_neg (by rw [missing]; decide), missing]
    exact ⟨_, rfl, rfl, rfl, [], rfl⟩

/-! The child of the server. -/

def ServerChild.Unchanged (before after : ServerChild) : Prop :=
  after.client = before.client ∧ after.child = { before.child with
    server := { before.child.server with
      state := after.child.server.state
      byeCount := after.child.server.byeCount } }

def ServerChild.Listens (server : ServerChild) : ServerChildEvent → Prop
  | .process _ => server.child.server.state = .process
  | .bye _ _ => server.child.server.state = .bye
  | _ => False

theorem ServerChild.receives_rejected {job : Job} {server : ServerChild}
    {event : ServerChildEvent} {arrival : Arrival} (sized : server.client.Sized)
    (listens : server.Listens event)
    (received : event.received server.child.server = some arrival)
    (rejected : Rejected job.host arrival) :
    ∃ next, server.step job event = some next ∧
      next.client = { server.client with remote := arrival.source } ∧
      next.child = { server.child with
        server := { server.child.server with
          state := next.child.server.state
          byeCount := next.child.server.byeCount } } := by
  obtain ⟨packet, rejects⟩ := rejected
  have receives := receiveFrom_rejected sized rejects
  cases event with
  | process other =>
      obtain rfl := Option.some.inj received
      have state : server.child.server.state = .process := listens
      have processes : childStep job (.process other.stack other.datagram) server.child =
          some { server.child with server := { server.child.server with state := .waitOnAck } } := by
        simp only [childStep, if_pos state, childProcess, rejects, process, Option.bind_eq_bind,
          Option.bind_some]
        rfl
      simp only [ServerChild.step, ServerChildEvent.childEvent, processes, received, receives,
        Option.bind_eq_bind, Option.bind_some]
      exact ⟨_, rfl, rfl, rfl⟩
  | bye stack datagram =>
      have state : server.child.server.state = .bye := listens
      simp only [ServerChildEvent.received] at received
      split at received
      · cases received
      · rename_i going
        subst received
        have ends : childStep job (.bye stack (some (arrival.stack, arrival.datagram)))
            server.child = some { server.child with
              server := { server.child.server with state := .bye, byeCount := 0 } } := by
          have sends := sendPacket2_construct job.host { stack with
            flag := Flag.endOfFile.code
            size := UInt32.ofNat headerLength
            seqNum := UInt32.ofInt server.child.server.eofIndex } 0 rfl (Nat.zero_le _)
          simp only [childStep, if_pos state, childBye, Job.receive, rejects, bye, sends,
            if_neg going, Option.map_some, Option.bind_eq_bind, Option.bind_some]
          rfl
        simp only [ServerChild.step, ServerChildEvent.childEvent, Option.map_some, ends,
          ServerChildEvent.received, if_neg going, receives, Option.bind_eq_bind, Option.bind_some]
        exact ⟨_, rfl, rfl, rfl⟩
  | send => exact listens.elim
  | wait => exact listens.elim

theorem ServerChild.step_sized {job : Job} {server next : ServerChild} {event : ServerChildEvent}
    (sized : server.client.Sized) (taken : server.step job event = some next) :
    next.client.Sized := by
  simp only [ServerChild.step, Option.bind_eq_bind, Option.bind_eq_some_iff,
    Option.some.injEq] at taken
  obtain ⟨_, _, ⟨_, client⟩, receives, rfl⟩ := taken
  exact receiveFrom_sized sized receives

/-- A rejected datagram leaves rcopy and a child of the server as they were exactly when it comes
from the address that they send to. -/
theorem rejected_unchanged_iff (host : ByteOrder) (arrival : Arrival)
    (rejected : Rejected host arrival) :
    (∀ (size : Int) (server : Connection) (rcopy : RcopyMain),
      Reach (· = RcopyMain.start size server) (RcopyMain.step host)
        (fun before _ _ => before.window.Moves) rcopy →
      rcopy.Listening →
        ((∃ next, rcopy.step host (.receive (some arrival)) = some next ∧ rcopy.Unchanged next) ↔
          arrival.source = rcopy.server.remote)) ∧
    ∀ (job : Job) (packet : Packet) (eofIndex : Int) (remote : Address) (server : ServerChild),
      job.host = host → Reach (· = ServerChild.start job packet eofIndex remote)
        (ServerChild.step job) (fun _ _ _ => True) server →
      ∀ event, server.Listens event → event.received server.child.server = some arrival →
        ((∃ next, server.step job event = some next ∧ server.Unchanged next) ↔
          arrival.source = server.client.remote) := by
  constructor
  · intro size server rcopy reach listening
    obtain ⟨next, taken, window, stored, repeats⟩ :=
      (reached_centred reach).receives_rejected listening rejected
    rw [← source_iff]
    constructor
    · rintro ⟨other, again, _, kept, _⟩
      rw [taken, Option.some.injEq] at again
      rw [← stored, again, kept]
    · intro same
      exact ⟨next, taken, window, stored.trans same, repeats⟩
  · rintro job packet eofIndex remote server rfl reach event listens received
    have sized : server.client.Sized := by
      clear received listens
      induction reach with
      | start begins =>
          rw [begins]
          rfl
      | step _ _ taken _ ih => exact ServerChild.step_sized ih taken
    obtain ⟨next, taken, stored, child⟩ :=
      server.receives_rejected sized listens received rejected
    rw [← source_iff]
    constructor
    · rintro ⟨other, again, kept, _⟩
      rw [taken, Option.some.injEq] at again
      rw [← stored, again, kept]
    · intro same
      exact ⟨next, taken, stored.trans same, child⟩

def home : Address := ⟨0x7F000001, 2000⟩

def stranger : Address := ⟨0x7F000001, 3000⟩

def nobody : Connection := ⟨⟨0, 0⟩, 0⟩

def noise : List UInt8 := [0, 0, 0, 0, 1, 1, 1, 0, 0, 0, 11]

theorem noise_rejected (source : Address) : Rejected .little ⟨Packet.zero, source, noise⟩ := by
  have code : (recvPacket .little Packet.zero noise).map Prod.fst = some crcError := by
    decide +kernel
  obtain ⟨⟨_, packet⟩, receives, rfl⟩ := Option.map_eq_some_iff.mp code
  exact ⟨packet, receives⟩

def answered : List RcopyEvent :=
  [.setup home, .receive (some ⟨Packet.zero, home, frame .little 0 Flag.fnameOk.code []⟩),
    .openOutput true]

theorem answered_reached : ∃ rcopy,
    Reach (· = RcopyMain.start 4 nobody) (RcopyMain.step .little)
      (fun before _ _ => before.window.Moves) rcopy ∧
    rcopy.state = .recvData ∧ rcopy.server.remote = home := by
  have executed : (run (RcopyMain.step .little) answered (RcopyMain.start 4 nobody)).map
      (fun rcopy => (rcopy.state, rcopy.server.remote)) = some (.recvData, home) := by
    decide +kernel
  obtain ⟨rcopy, executed, values⟩ := Option.map_eq_some_iff.mp executed
  obtain ⟨state, remote⟩ := Prod.mk.inj values
  exact ⟨rcopy, Reach.run answered (.start rfl) executed (by decide +kernel), state, remote⟩

theorem rejected_unchanged_home : ∃ rcopy next : RcopyMain, rcopy.state = .recvData ∧
    rcopy.step .little (.receive (some ⟨Packet.zero, home, noise⟩)) = some next ∧
      rcopy.Unchanged next := by
  obtain ⟨rcopy, reach, state, remote⟩ := answered_reached
  obtain ⟨unchanged, _⟩ :=
    rejected_unchanged_iff .little ⟨Packet.zero, home, noise⟩ (noise_rejected home)
  obtain ⟨next, taken, same⟩ :=
    (unchanged 4 nobody rcopy reach (.inr (.inl state))).mpr remote.symm
  exact ⟨rcopy, next, state, taken, same⟩

/-- The SREJ for a damaged packet goes to whoever sent that packet. -/
theorem rejected_redirects : ∃ rcopy next : RcopyMain,
    Reach (· = RcopyMain.start 4 nobody) (RcopyMain.step .little)
      (fun before _ _ => before.window.Moves) rcopy ∧
    rcopy.state = .recvData ∧ rcopy.server.remote = home ∧
    Rejected .little ⟨Packet.zero, stranger, noise⟩ ∧
    rcopy.step .little (.receive (some ⟨Packet.zero, stranger, noise⟩)) = some next ∧
    next.server.remote = stranger ∧ ¬rcopy.Unchanged next := by
  obtain ⟨rcopy, reach, state, remote⟩ := answered_reached
  obtain ⟨next, taken, _, stored, _⟩ := (reached_centred reach).receives_rejected
    (.inr (.inl state)) (noise_rejected stranger)
  refine ⟨rcopy, next, reach, state, remote, noise_rejected stranger, taken, by rw [stored], ?_⟩
  rintro ⟨_, kept, _⟩
  rw [kept] at stored
  have moved : home = stranger := by
    rw [← remote]
    exact congrArg Connection.remote stored
  exact absurd moved (by decide)

end RemoteCopy
