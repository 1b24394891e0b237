import Cpe464.RemoteCopy.Abandoned
import Cpe464.RemoteCopy.Agreement

/-!
Transfers over a network that loses, repeats, reorders and changes nothing, where `read` does not
fail and the timers of `wait_on_ack` and of rcopy leave what is under way the time to arrive. Every
such transfer ends, and rcopy has the file, when the file fills the window. Of a shorter file the
server may hear everything before `read` returns 0, and then it has no packet to nudge rcopy with.
-/

namespace RemoteCopy

open Bytes Transition

/-- What happens when nothing goes wrong. Only `bye` may send again although an answer is on its
way. -/
def Faultless (transfer : Transfer) (event : Event) (_ : Transfer) : Prop :=
  match event with
  | .serverSend readFails _ => readFails = false
  | .serverProcess _ => True
  | .serverWait arrived => arrived = false → transfer.toServer = [] ∧ transfer.toClient = []
  | .serverBye _ => True
  | .serverReceive _ => True
  | .clientReceive _ _ => True
  | _ => False

def Stopped (setup : Setup) (transfer : Transfer) : Prop :=
  ∀ event next, step setup event transfer = some next → ¬Faultless transfer event next

def Complete (setup : Setup) (transfer : Transfer) : Prop :=
  transfer.ended = true ∧ transfer.output.flatten = setup.file ∧ transfer.server.state = .done

/-- However the steps are ordered, the transfer stops, and it is complete when it does. -/
def Succeeds (setup : Setup) (first : Transfer) : Prop :=
  ∃ limit, ∀ events final, Transition.run (step setup) events first = some final →
    Permitted (step setup) Faultless events first →
      events.length ≤ limit ∧ (Stopped setup final → Complete setup final)

/-! What is under way. -/

def span {Item : Type*} (item : Nat → Item) (low high : Nat) : List Item :=
  (List.range' (low + 1) (high - low)).map item

section

variable {Item : Type*} (item : Nat → Item) {low high : Nat}

@[simp] theorem span_length : (span item low high).length = high - low := by
  simp [span]

theorem span_eq_nil_iff (ordered : low ≤ high) : span item low high = [] ↔ low = high := by
  rw [← List.length_eq_zero_iff, span_length]
  omega

theorem span_cons (below : low < high) :
    span item low high = item (low + 1) :: span item (low + 1) high := by
  obtain ⟨count, rfl⟩ := Nat.exists_eq_add_of_lt below
  rw [span, span, show low + count + 1 - low = count + 1 by omega, List.range'_succ,
    List.map_cons, show low + count + 1 - (low + 1) = count by omega]

theorem span_append (ordered : low ≤ high) :
    span item low (high + 1) = span item low high ++ [item (high + 1)] := by
  rw [span, span, show high + 1 - low = high - low + 1 by omega, List.range'_1_concat,
    List.map_append, List.map_singleton, show low + 1 + (high - low) = high + 1 by omega]

end

def Setup.dataFlight (setup : Setup) (number : Nat) : Flight := .intact (setup.dataFrame number)

def Setup.ackFlight (setup : Setup) (number : Nat) : Flight := setup.rrFlight (number + 1)

def Setup.closing (setup : Setup) : Flight :=
  setup.endFlight (UInt32.ofInt (setup.numChunks + 1))

def Setup.farewell (setup : Setup) : Flight := setup.rrFlight (asInt32 (setup.numChunks + 1 + 1))

/-! The stages of a transfer. -/

inductive Place (setup : Setup) (acked sent : Nat) (server : Server) : Nat → Prop
  | sending : server.state = .sendData → Place setup acked sent server 2
  | waiting : server.state = .waitOnAck → (sent : Int) = acked + setup.windowSize ∨
      sent = setup.numChunks ∧ server.eofIndex = setup.numChunks + 1 →
      Place setup acked sent server 1
  | processing : server.state = .process → acked < sent → Place setup acked sent server 0

/-- The server has sent the first chunks, rcopy has written some of these, and the server knows of
some of those. The buffer holds the last lap. -/
structure Flowing (setup : Setup) (acked written sent : Nat) (transfer : Transfer) : Prop where
  acked_le : acked ≤ written
  written_le : written ≤ sent
  sent_le : sent ≤ setup.numChunks
  bottom : transfer.server.window.bottom = acked + 1
  expected : transfer.window.bottom = written + 1
  middle : transfer.server.window.middle = sent + 1
  client : transfer.client = .recvData
  toClient : transfer.toClient = span setup.dataFlight written sent
  toServer : transfer.toServer = span setup.ackFlight acked written
  output : transfer.output = (List.range written).map fun index => setup.chunk (index + 1)
  ended : transfer.ended = false
  waitCount : transfer.server.waitCount = 0
  byeCount : transfer.server.byeCount = 0
  recent : ∀ number : Nat, 1 ≤ number → number ≤ sent → (sent : Int) < number + setup.windowSize →
    setup.Holds (transfer.server.window.stored number) number

def Setup.Harmless (setup : Setup) (server : Server) : Prop :=
  server.eofIndex < 2 ∨ setup.numChunks < server.eofIndex

def Setup.stale (setup : Setup) : Nat := setup.numChunks + 1 - setup.windowSize.toNat

/-- The server knows that rcopy has everything, but not from `process`, and nudges rcopy. -/
inductive Nudge (setup : Setup) (transfer : Transfer) : Nat → Prop
  | sent : transfer.server.state = .waitOnAck → transfer.server.waitCount = 1 →
      transfer.toClient = [setup.dataFlight setup.stale] → transfer.toServer = [] →
      Nudge setup transfer 7
  | answered : transfer.server.state = .waitOnAck → transfer.server.waitCount = 1 →
      transfer.toClient = [] → transfer.toServer = [setup.ackFlight setup.numChunks] →
      Nudge setup transfer 5
  | heard : transfer.server.state = .process → transfer.toClient = [] →
      transfer.toServer = [setup.ackFlight setup.numChunks] → Nudge setup transfer 4

structure Nudged (setup : Setup) (transfer : Transfer) : Prop where
  expected : transfer.window.bottom = setup.numChunks + 1
  client : transfer.client = .recvData
  output : transfer.output = (List.range setup.numChunks).map fun index => setup.chunk (index + 1)
  ended : transfer.ended = false
  byeCount : transfer.server.byeCount = 0
  eofIndex : transfer.server.eofIndex = setup.numChunks + 1

inductive Closing (setup : Setup) (transfer : Transfer) (count : Nat) : Prop
  | telling : transfer.client = .recvData → transfer.ended = false → transfer.toServer = [] →
      (transfer.server.state = .done → count ≠ 0) → Closing setup transfer count
  | answered : transfer.client = .done → transfer.ended = true →
      transfer.toServer = [setup.farewell] → Closing setup transfer count
  | ended : transfer.client = .done → transfer.ended = true → transfer.toServer = [] →
      transfer.server.state = .done → Closing setup transfer count

structure Closed (setup : Setup) (count : Nat) (transfer : Transfer) : Prop where
  output : transfer.output = (List.range setup.numChunks).map fun index => setup.chunk (index + 1)
  eofIndex : transfer.server.eofIndex = setup.numChunks + 1
  toClient : transfer.toClient = List.replicate count setup.closing
  byes : transfer.server.state = .bye ∧ 0 ≤ transfer.server.byeCount ∧
    transfer.server.byeCount ≤ 10 ∨ transfer.server.state = .done
  closing : Closing setup transfer count

/-- The steps of `bye` that are left, in units that outweigh a datagram. -/
def closingRank (server : Server) : Nat :=
  if server.state = .bye then 7 * (11 - server.byeCount).toNat else 0

/-- A transfer without faults, with a bound for the steps that are left. -/
inductive Stage (setup : Setup) : Nat → Transfer → Prop
  | flowing (acked written sent : Nat) {rest transfer} : Flowing setup acked written sent transfer →
      setup.Harmless transfer.server → Place setup acked sent transfer.server rest →
      Stage setup (120 + 8 * (setup.numChunks - sent) + 6 * (sent - written) +
        4 * (written - acked) + rest) transfer
  | nudged {rest transfer} : Nudged setup transfer → Nudge setup transfer rest →
      Stage setup (100 + rest) transfer
  | closed (count : Nat) {transfer} : Closed setup count transfer →
      Stage setup (closingRank transfer.server + 6 * count + 4 * transfer.toServer.length) transfer

/-! The steps that can be taken. -/

def Enabled (transfer : Transfer) (event : Event) : Prop :=
  match event with
  | .serverSend _ _ => transfer.server.state = .sendData
  | .serverProcess _ => transfer.server.state = .process ∧ transfer.toServer ≠ []
  | .serverWait arrived => transfer.server.state = .waitOnAck ∧ (arrived → transfer.toServer ≠ [])
  | .serverBye _ => transfer.server.state = .bye
  | .serverReceive _ => transfer.server.state = .bye ∧ 0 < transfer.server.byeCount ∧
      transfer.toServer ≠ []
  | .clientReceive _ _ => transfer.client ≠ .done ∧ transfer.toClient ≠ []
  | _ => True

theorem receive_nonempty {host : ByteOrder} {stack : Packet} {channel rest : List Flight}
    {received : Int × Packet} (taken : receive host stack channel = some (received, rest)) :
    channel ≠ [] := by
  obtain ⟨flight, rfl⟩ := receive_cons taken
  exact List.cons_ne_nil _ _

theorem step_enabled {setup : Setup} {event : Event} {transfer next : Transfer}
    (taken : step setup event transfer = some next) : Enabled transfer event := by
  cases event with
  | serverSend readFails arrived =>
      simp only [step] at taken
      split at taken
      · assumption
      · cases taken
  | serverProcess stack =>
      cases step_moves taken with
      | process state receives _ => exact ⟨state, receive_nonempty receives⟩
      | networkToServer disturbs => cases disturbs
      | networkToClient disturbs => cases disturbs
  | serverWait arrived =>
      simp only [step] at taken
      split at taken
      · assumption
      · cases taken
  | serverBye packet =>
      simp only [step] at taken
      split at taken
      · assumption
      · cases taken
  | serverReceive stack =>
      cases step_moves taken with
      | hear state counted receives => exact ⟨state, counted, receive_nonempty receives⟩
      | networkToServer disturbs => cases disturbs
      | networkToClient disturbs => cases disturbs
  | clientReceive stack control =>
      cases step_moves taken with
      | receive receives steps =>
          refine ⟨?_, receive_nonempty receives⟩
          intro done
          rw [done] at steps
          cases steps
      | networkToServer disturbs => cases disturbs
      | networkToClient disturbs => cases disturbs
  | _ => trivial

def Advances (setup : Setup) (rank : Nat) (transfer : Transfer) (event : Event) : Prop :=
  ∃ next lower, step setup event transfer = some next ∧ lower < rank ∧ Stage setup lower next

theorem Place.state {setup : Setup} {acked sent rest : Nat} {server : Server}
    (place : Place setup acked sent server rest) :
    server.state = .sendData ∨ server.state = .waitOnAck ∨ server.state = .process := by
  cases place with
  | sending state => exact .inl state
  | waiting state => exact .inr (.inl state)
  | processing state => exact .inr (.inr state)

/-! What rcopy does. -/

theorem receive_arrives (sender host : ByteOrder) (stack : Packet) (seqNum : UInt32) (flag : UInt8)
    (data : List UInt8) (short : data.length ≤ maxPacketLength) (channel : List Flight) :
    ∃ packet : Packet, receive host stack (.intact (frame sender seqNum flag data) :: channel) =
        some (((data.length : Int), packet), channel) ∧ packet.seqNum = seqNum ∧ packet.flag = flag ∧
      packet.payload.bytes = data ++ List.replicate (maxPacketLength - data.length) 0 := by
  obtain ⟨packet, decodes, sequence, kind, _, payload⟩ :=
    recvPacket_frame sender host stack seqNum flag data short
  refine ⟨packet, ?_, sequence, kind, payload⟩
  simp only [receive, decodes, Option.bind_eq_bind, Option.bind_some]

section

variable {window : Window} {length : Int} {packet : Packet}

theorem recvData_next (wellFormed : window.WellFormed) (accepted : length ≠ crcError)
    (data : packet.flag ≠ Flag.endOfFile.code) (expected : packet.number = window.bottom)
    (room : window.bottom + 1 + window.size ≤ 2 ^ 31) :
    recvData window (some (length, packet)) = some (.recvData, window.slid (window.bottom + 1),
      [.write packet.payload length, .rr (window.bottom + 1)]) := by
  have positive := wellFormed.size_pos
  have bottom := wellFormed.bottom_pos
  simp only [recvData, if_neg accepted, if_neg data, expected,
    asUInt32_eq window.bottom (by omega) (by omega), if_true,
    asInt32_eq (window.bottom + 1) (by omega) (by omega),
    slide_eq wellFormed (window.bottom + 1) (by omega) room, Option.bind_eq_bind,
    Option.bind_some]
  rfl

theorem recvData_old (wellFormed : window.WellFormed) (accepted : length ≠ crcError)
    (data : packet.flag ≠ Flag.endOfFile.code) (old : packet.number < window.bottom) :
    recvData window (some (length, packet)) = some (.recvData, window, [.rr window.bottom]) := by
  have positive := wellFormed.size_pos
  have bottom := wellFormed.bottom_pos
  have top := wellFormed.top_eq
  have topBound := wellFormed.top_lt
  simp only [recvData, if_neg accepted, if_neg data,
    asUInt32_eq window.bottom (by omega) (by omega), if_neg (Int.ne_of_lt old), if_pos old]

end

section

variable {setup : Setup} {transfer : Transfer} (stack control : Packet)

theorem step_receive (setup : Setup) (transfer : Transfer) (stack control : Packet)
    {received : Int × Packet} {rest : List Flight} {client : ClientState}
    {window : Window} {actions : List ClientAction}
    (receives : receive setup.clientHost stack transfer.toClient = some (received, rest))
    (steps : clientStep transfer.window (some received) transfer.client =
      some (client, window, actions)) :
    step setup (.clientReceive stack control) transfer = some { transfer with
      client
      window
      toClient := rest
      toServer := transfer.toServer ++ setup.controls actions
      output := transfer.output ++ blocks actions
      ended := transfer.ended || acceptsEnd received client } := by
  simp only [step, clientReceive, receives, steps, perform_eq, Option.bind_eq_bind,
    Option.bind_some]

theorem Flowing.receives {acked written sent : Nat} (small : setup.Small)
    (agreed : Agreed setup transfer) (flowing : Flowing setup acked written sent transfer)
    (below : written < sent) :
    ∃ next, step setup (.clientReceive stack control) transfer = some next ∧
      Flowing setup acked (written + 1) sent next ∧ next.server = transfer.server := by
  have chunks := flowing.sent_le
  have positive := setup.windowSize_pos
  have sizeEq := agreed.clientSize
  have expected := flowing.expected
  have wellFormed := agreed.settled.wellFormed
  unfold Setup.Small at small
  obtain ⟨packet, receives, number, flag, payload⟩ := receive_arrives setup.serverHost
    setup.clientHost stack (UInt32.ofNat (written + 1)) Flag.data.code (setup.chunk (written + 1))
    (setup.chunk_short _) (span setup.dataFlight (written + 1) sent)
  have here : packet.number = transfer.window.bottom := by
    rw [Packet.number, number, ← ofInt_natCast, ofInt_toNat _ (by omega) (by omega), expected]
    omega
  have accepted : ((setup.chunk (written + 1)).length : Int) ≠ crcError := by
    simp only [crcError]
    omega
  have next := recvData_next wellFormed accepted (by rw [flag]; decide) here (by omega)
  have steps : clientStep transfer.window (some (((setup.chunk (written + 1)).length : Int), packet))
      transfer.client = some (.recvData, transfer.window.slid (transfer.window.bottom + 1),
        [.write packet.payload (setup.chunk (written + 1)).length,
          .rr (transfer.window.bottom + 1)]) := by
    rw [flowing.client]
    exact next
  have channel : transfer.toClient = .intact (setup.dataFrame (written + 1)) ::
      span setup.dataFlight (written + 1) sent := by
    rw [flowing.toClient, span_cons _ below]
    rfl
  rw [Setup.dataFrame] at channel
  refine ⟨_, step_receive setup transfer stack control (channel ▸ receives) steps, ?_, rfl⟩
  constructor
  case acked_le => exact Nat.le_succ_of_le flowing.acked_le
  case written_le => exact below
  case sent_le => exact flowing.sent_le
  case bottom => exact flowing.bottom
  case expected => simp [Window.slid, expected]
  case middle => exact flowing.middle
  case client => rfl
  case toClient => rfl
  case toServer =>
    simp only [flowing.toServer, span_append _ flowing.acked_le, expected]
    rfl
  case output =>
    have block : blocks [.write packet.payload (setup.chunk (written + 1)).length,
        .rr (transfer.window.bottom + 1)] = [setup.chunk (written + 1)] := by
      change [packet.payload.bytes.take (setup.chunk (written + 1)).length] = _
      rw [payload, List.take_left]
    simp only [flowing.output, block, List.range_succ, List.map_append, List.map_singleton]
  case ended => simp [flowing.ended, acceptsEnd]
  case waitCount => exact flowing.waitCount
  case byeCount => exact flowing.byeCount
  case recent => exact flowing.recent

/-! What the server does. -/

theorem Agreed.sized (agreed : Agreed setup transfer) :
    transfer.server.window.Sized setup.windowSize := by
  have wellFormed := agreed.serverWindow
  have sizeEq := agreed.serverSize
  have positive := setup.windowSize_pos
  have top := wellFormed.top_eq
  have topBound := wellFormed.top_lt
  exact ⟨sizeEq, wellFormed.bottom_pos, by omega, sizeEq ▸ wellFormed.buffer_length,
    sizeEq ▸ wellFormed.valid_length⟩

theorem Flowing.kept {acked written sent : Nat} {next : Transfer}
    (flowing : Flowing setup acked written sent transfer)
    (window : next.server.window = transfer.server.window) (waits : next.server.waitCount = 0)
    (byes : next.server.byeCount = 0)
    (others : next.client = transfer.client ∧ next.window = transfer.window ∧
      next.toClient = transfer.toClient ∧ next.toServer = transfer.toServer ∧
      next.output = transfer.output ∧ next.ended = transfer.ended) :
    Flowing setup acked written sent next := by
  obtain ⟨client, receiver, toClient, toServer, output, ended⟩ := others
  constructor
  case bottom => exact window ▸ flowing.bottom
  case middle => exact window ▸ flowing.middle
  case recent => exact window ▸ flowing.recent
  case expected => exact receiver ▸ flowing.expected
  case client => exact client.trans flowing.client
  case toClient => exact toClient.trans flowing.toClient
  case toServer => exact toServer.trans flowing.toServer
  case output => exact output.trans flowing.output
  case ended => exact ended.trans flowing.ended
  case waitCount => exact waits
  case byeCount => exact byes
  case acked_le => exact flowing.acked_le
  case written_le => exact flowing.written_le
  case sent_le => exact flowing.sent_le

theorem step_send (setup : Setup) (transfer : Transfer)
    (state : transfer.server.state = .sendData) {readFails arrived : Bool} {next : Server}
    {datagrams : List (List UInt8)}
    (taken : sendData setup.serverHost (readFile setup readFails transfer.server.offset) arrived
      transfer.server = some (next, datagrams)) :
    step setup (.serverSend readFails arrived) transfer = some { transfer with
      server := next
      toClient := transfer.toClient ++ datagrams.map .intact
      sent := transfer.sent ++ datagrams
      readZero := transfer.readZero || (!isClosed transfer.server.window &&
        readFile setup readFails transfer.server.offset == some []) } := by
  simp only [step]
  rw [if_pos state]
  simp only [serverSend, taken, Option.bind_eq_bind, Option.bind_some, afterServer]

theorem Agreed.sends_some (small : setup.Small) (agreed : Agreed setup transfer)
    (arrived : Bool) : ∃ next datagrams, sendData setup.serverHost
      (readFile setup false transfer.server.offset) arrived transfer.server =
        some (next, datagrams) := by
  have sizeEq := agreed.serverSize
  have top := agreed.serverWindow.top_eq
  have room := agreed.middle_le
  have chunks := agreed.middle_le_chunks
  have positive := setup.windowSize_pos
  unfold Setup.Small at small
  obtain ⟨⟨next, datagrams⟩, taken, _⟩ := sendData_sized agreed.sized positive (by omega)
    setup.serverHost (readFile setup false transfer.server.offset) arrived
  exact ⟨next, datagrams, taken⟩

theorem Agreed.finds_closed (small : setup.Small) (agreed : Agreed setup transfer)
    (state : transfer.server.state = .sendData)
    (closed : transfer.server.window.top < transfer.server.window.middle) (arrived : Bool) :
    ∃ readZero, step setup (.serverSend false arrived) transfer = some { transfer with
      server := { transfer.server with state := .waitOnAck }
      readZero } := by
  obtain ⟨next, datagrams, taken⟩ := agreed.sends_some small arrived
  have steps := step_send setup transfer state taken
  rcases agreed.sends small taken with ⟨_, rfl, rfl⟩ | ⟨fails, _⟩ | ⟨opened, _⟩ |
    ⟨_, _, opened, _⟩
  · simp only [List.map_nil, List.append_nil] at steps
    exact ⟨_, steps⟩
  · cases fails
  · simp only [isClosed, decide_eq_false_iff_not] at opened
    omega
  · omega

theorem Agreed.reads_end (small : setup.Small) (agreed : Agreed setup transfer)
    (state : transfer.server.state = .sendData)
    (last : transfer.server.window.middle = setup.numChunks + 1)
    (opened : transfer.server.window.middle ≤ transfer.server.window.top) (arrived : Bool) :
    ∃ packet readZero, step setup (.serverSend false arrived) transfer = some { transfer with
      server := { transfer.server with
        state := .waitOnAck, packet, eofIndex := transfer.server.window.middle }
      readZero } := by
  obtain ⟨next, datagrams, taken⟩ := agreed.sends_some small arrived
  have steps := step_send setup transfer state taken
  rcases agreed.sends small taken with ⟨closed, _⟩ | ⟨fails, _⟩ | ⟨_, _, rfl, _, packet, rfl⟩ |
    ⟨_, more, _⟩
  · simp only [isClosed, decide_eq_true_eq] at closed
    omega
  · cases fails
  · simp only [List.map_nil, List.append_nil] at steps
    exact ⟨packet, _, steps⟩
  · omega

theorem Flowing.sends_next {acked written sent : Nat} (small : setup.Small)
    (agreed : Agreed setup transfer) (flowing : Flowing setup acked written sent transfer)
    (state : transfer.server.state = .sendData) (more : sent < setup.numChunks)
    (room : (sent : Int) < acked + setup.windowSize) (arrived : Bool) :
    ∃ next, step setup (.serverSend false arrived) transfer = some next ∧
      Flowing setup acked written (sent + 1) next ∧
      next.server.state = (if arrived then .process else .sendData) ∧
      next.server.eofIndex = transfer.server.eofIndex ∧
      ∀ seqNum, (sent : Int) + 1 < seqNum → seqNum < sent + 1 + setup.windowSize →
        next.server.window.stored seqNum = transfer.server.window.stored seqNum := by
  have sizeEq := agreed.serverSize
  have bottom := flowing.bottom
  have middle := flowing.middle
  have top := agreed.serverWindow.top_eq
  have ahead := flowing.written_le
  obtain ⟨next, datagrams, taken⟩ := agreed.sends_some small arrived
  have steps := step_send setup transfer state taken
  have number : transfer.server.window.middle.toNat = sent + 1 := by omega
  have moved := withMiddle_wellFormed agreed.serverWindow (transfer.server.window.middle + 1)
  rcases agreed.sends small taken with ⟨closed, _⟩ | ⟨fails, _⟩ | ⟨_, _, _, ends, _⟩ |
    ⟨_, _, _, rfl, packet, holds, rfl⟩
  · simp only [isClosed, decide_eq_true_eq] at closed
    omega
  · cases fails
  · omega
  have numbered := holds.1
  have others (seqNum : Int) (lower : (sent : Int) + 1 < seqNum + setup.windowSize)
      (upper : seqNum < sent + 1 + setup.windowSize) (other : seqNum ≠ sent + 1) :
      ((transfer.server.window.withMiddle (transfer.server.window.middle + 1)).put packet).stored
        seqNum = transfer.server.window.stored seqNum := by
    exact put_stored_of_ne moved packet seqNum (by simp only [Window.withMiddle]; omega)
      (by simp only [Window.withMiddle]; omega) (by omega)
  refine ⟨_, steps, ?_, rfl, rfl, fun seqNum lower upper => others seqNum (by omega) upper
    (by omega)⟩
  constructor
  case acked_le => exact flowing.acked_le
  case written_le => exact Nat.le_succ_of_le ahead
  case sent_le => exact more
  case bottom => exact bottom
  case expected => exact flowing.expected
  case middle =>
    simp only [Window.put, Window.withMiddle]
    omega
  case client => exact flowing.client
  case toClient =>
    rw [span_append _ ahead, ← flowing.toClient, number]
    rfl
  case toServer => exact flowing.toServer
  case output => exact flowing.output
  case ended => exact flowing.ended
  case waitCount => exact flowing.waitCount
  case byeCount => exact flowing.byeCount
  case recent =>
    intro index positive inside lap
    by_cases newest : index = sent + 1
    · have stored := put_stored_self moved packet
      rw [numbered, middle] at stored
      simp only [newest, Int.natCast_succ, middle, stored]
      rw [← middle]
      exact holds
    · simp only [others index (by omega) (by omega) (by omega)]
      exact flowing.recent index positive (by omega) (by omega)

theorem Flowing.sends {acked written sent : Nat} (small : setup.Small)
    (agreed : Agreed setup transfer) (flowing : Flowing setup acked written sent transfer)
    (harmless : setup.Harmless transfer.server) (state : transfer.server.state = .sendData)
    (arrived : Bool) :
    Advances setup (120 + 8 * (setup.numChunks - sent) + 6 * (sent - written) +
      4 * (written - acked) + 2) transfer (.serverSend false arrived) := by
  have sizeEq := agreed.serverSize
  have bottom := flowing.bottom
  have middle := flowing.middle
  have top := agreed.serverWindow.top_eq
  have full := agreed.middle_le
  have behind := flowing.acked_le
  have ahead := flowing.written_le
  have inside := flowing.sent_le
  by_cases room : (sent : Int) < acked + setup.windowSize
  · by_cases more : sent < setup.numChunks
    · obtain ⟨next, steps, flows, goes, same, _⟩ :=
        flowing.sends_next small agreed state more room arrived
      rw [Setup.Harmless, ← same] at harmless
      cases arrived with
      | false => exact ⟨_, _, steps, by omega, .flowing _ _ _ flows harmless (.sending goes)⟩
      | true =>
          exact ⟨_, _, steps, by omega,
            .flowing _ _ _ flows harmless (.processing goes (by omega))⟩
    · obtain ⟨packet, readZero, steps⟩ :=
        agreed.reads_end small state (by omega) (by omega) arrived
      exact ⟨_, _, steps, Nat.lt_succ_self _, .flowing _ _ _ (flowing.kept rfl flowing.waitCount
        flowing.byeCount ⟨rfl, rfl, rfl, rfl, rfl, rfl⟩) (.inr (by simp only; omega))
        (.waiting rfl (.inr ⟨by omega, by simp only; omega⟩))⟩
  · obtain ⟨readZero, steps⟩ := agreed.finds_closed small state (by omega) arrived
    exact ⟨_, _, steps, Nat.lt_succ_self _, .flowing _ _ _ (flowing.kept rfl flowing.waitCount
      flowing.byeCount ⟨rfl, rfl, rfl, rfl, rfl, rfl⟩) harmless (.waiting rfl (.inl (by omega)))⟩

theorem step_wait (setup : Setup) (transfer : Transfer)
    (state : transfer.server.state = .waitOnAck) {arrived : Bool}
    (heard : arrived → transfer.toServer ≠ []) {next : Server} {datagrams : List (List UInt8)}
    (taken : waitOnAck arrived transfer.server = some (next, datagrams)) :
    step setup (.serverWait arrived) transfer = some { transfer with
      server := next
      toClient := transfer.toClient ++ datagrams.map .intact } := by
  simp only [step]
  rw [if_pos ⟨state, heard⟩]
  simp only [serverWait, taken, Option.bind_eq_bind, Option.bind_some, afterServer]

theorem Flowing.waits {acked written sent : Nat} (agreed : Agreed setup transfer)
    (flowing : Flowing setup acked written sent transfer)
    (fills : setup.windowSize ≤ setup.numChunks) (harmless : setup.Harmless transfer.server)
    (state : transfer.server.state = .waitOnAck)
    (room : (sent : Int) = acked + setup.windowSize ∨
      sent = setup.numChunks ∧ transfer.server.eofIndex = setup.numChunks + 1)
    (arrived : Bool) (heard : arrived → transfer.toServer ≠ [])
    (patient : arrived = false → transfer.toServer = [] ∧ transfer.toClient = []) :
    Advances setup (120 + 8 * (setup.numChunks - sent) + 6 * (sent - written) +
      4 * (written - acked) + 1) transfer (.serverWait arrived) := by
  have positive := setup.windowSize_pos
  have ahead := flowing.written_le
  have behind := flowing.acked_le
  obtain ⟨⟨next, datagrams⟩, taken, _⟩ := waitOnAck_sized agreed.sized positive arrived
  have steps := step_wait setup transfer state heard taken
  rcases waitOnAck_cases agreed.serverWindow taken with ⟨tired, _⟩ | ⟨_, rfl, rfl, rfl⟩ |
    ⟨_, rfl, counted, resends⟩
  · rw [flowing.waitCount] at tired
    omega
  · have waiting : acked ≠ written := by
      rw [ne_eq, ← span_eq_nil_iff setup.ackFlight behind, ← flowing.toServer]
      exact heard rfl
    exact ⟨_, _, steps, by omega, .flowing _ _ _ (flowing.kept rfl rfl flowing.byeCount
      ⟨rfl, rfl, List.append_nil _, rfl, rfl, rfl⟩) harmless (.processing rfl (by omega))⟩
  · obtain ⟨nothing, silent⟩ := patient rfl
    rw [flowing.toServer, span_eq_nil_iff _ behind] at nothing
    rw [flowing.toClient, span_eq_nil_iff _ ahead] at silent
    obtain ⟨last, known⟩ := room.resolve_left (by omega)
    have frames : sendPacket2 (transfer.server.window.stored transfer.server.window.bottom) =
        some (setup.dataFrame setup.stale) := by
      have lap := Window.stored_add_size transfer.server.window (setup.stale : Int)
      have holds := flowing.recent setup.stale (by unfold Setup.stale; omega)
        (by unfold Setup.stale; omega) (by unfold Setup.stale; omega)
      rw [← lap, agreed.serverSize, show (setup.stale : Int) + setup.windowSize =
        transfer.server.window.bottom by rw [flowing.bottom, Setup.stale]; omega] at holds
      exact holds.2
    rcases resends with ⟨fails, _⟩ | ⟨datagram, sends, made, rfl⟩
    · rw [frames] at fails
      cases fails
    · obtain rfl := Option.some.inj (frames.symm.trans sends)
      refine ⟨_, _, steps, by omega, .nudged ?nudged (.sent ?state ?count ?toClient ?toServer)⟩
      case nudged =>
        constructor
        case expected =>
          simp only [flowing.expected]
          omega
        case client => exact flowing.client
        case output => rw [flowing.output, show written = setup.numChunks by omega]
        case ended => exact flowing.ended
        case byeCount =>
          rw [made]
          exact flowing.byeCount
        case eofIndex =>
          rw [made]
          exact known
      case state =>
        rw [made]
      case count => rw [counted, flowing.waitCount, zero_add]
      case toClient =>
        rw [flowing.toClient, (span_eq_nil_iff _ ahead).mpr silent]
        rfl
      case toServer => rw [flowing.toServer, (span_eq_nil_iff _ behind).mpr nothing]

theorem step_process (setup : Setup) (transfer : Transfer)
    (state : transfer.server.state = .process) {stack : Packet}
    {received : Int × Packet} {rest : List Flight} {next : Server}
    {datagrams : List (List UInt8)}
    (receives : receive setup.serverHost stack transfer.toServer = some (received, rest))
    (taken : process received transfer.server = some (next, datagrams)) :
    step setup (.serverProcess stack) transfer = some { transfer with
      server := next
      toServer := rest
      toClient := transfer.toClient ++ datagrams.map .intact
      rrReceived := transfer.rrReceived ++ acceptedRr received } := by
  simp only [step]
  rw [if_pos state]
  simp only [serverProcess, receives, taken, Option.bind_eq_bind, Option.bind_some, afterServer]

theorem Agreed.processes_rr (small : setup.Small) (agreed : Agreed setup transfer)
    (state : transfer.server.state = .process) (stack : Packet) {number : Nat}
    (below : number ≤ setup.numChunks) {rest : List Flight}
    (channel : transfer.toServer = setup.ackFlight number :: rest) :
    ∃ rrReceived, step setup (.serverProcess stack) transfer = some { transfer with
      server := { transfer.server with
        state := if (number : Int) + 1 = transfer.server.eofIndex then .bye else .sendData
        window := if (number : Int) + 1 > transfer.server.window.bottom then
          transfer.server.window.slid (number + 1) else transfer.server.window }
      toServer := rest
      rrReceived } := by
  have positive := setup.windowSize_pos
  have bound := small
  unfold Setup.Small at bound
  obtain ⟨packet, receives, sequence, flag, _⟩ := receive_arrives setup.clientHost setup.serverHost
    stack (UInt32.ofInt (number + 1)) Flag.rr.code [] (Nat.zero_le _) rest
  have numbered : packet.number = number + 1 := by
    rw [Packet.number, sequence, ofInt_toNat _ (by omega) (by omega)]
  have arrives : receive setup.serverHost stack transfer.toServer = some ((0, packet), rest) := by
    rw [channel]
    exact receives
  obtain ⟨⟨next, datagrams⟩, taken⟩ := process_isSome agreed.sized positive (0, packet)
    (fun srej => absurd (flag.symm.trans srej) (by decide))
  have steps := step_process setup transfer state arrives taken
  rcases agreed.processes small state arrives taken with ⟨rejected, _⟩ |
    ⟨_, _, _, _, _, rfl, rfl⟩ | ⟨_, srej, _⟩
  · cases rejected
  · rw [numbered] at steps
    exact ⟨_, by simpa using steps⟩
  · exact absurd (flag.symm.trans srej) (by decide)

theorem Flowing.hears {acked written sent : Nat} (small : setup.Small)
    (agreed : Agreed setup transfer) (flowing : Flowing setup acked written sent transfer)
    (state : transfer.server.state = .process) (below : acked < written)
    (other : (acked : Int) + 2 ≠ transfer.server.eofIndex) (stack : Packet) :
    ∃ next, step setup (.serverProcess stack) transfer = some next ∧
      Flowing setup (acked + 1) written sent next ∧ next.server.state = .sendData ∧
      next.server.eofIndex = transfer.server.eofIndex ∧
      ∀ seqNum, next.server.window.stored seqNum = transfer.server.window.stored seqNum := by
  have ahead := flowing.written_le
  have inside := flowing.sent_le
  have bottom := flowing.bottom
  have middle := flowing.middle
  have channel : transfer.toServer =
      setup.ackFlight (acked + 1) :: span setup.ackFlight (acked + 1) written := by
    rw [flowing.toServer, span_cons _ below]
  obtain ⟨rrReceived, steps⟩ := agreed.processes_rr small state stack (by omega) channel
  rw [if_neg (by omega), if_pos (by omega)] at steps
  refine ⟨_, steps, ?_, rfl, rfl, fun seqNum => Window.slid_stored _ _ _⟩
  constructor
  case acked_le => exact below
  case written_le => exact ahead
  case sent_le => exact inside
  case bottom => rfl
  case expected => exact flowing.expected
  case middle =>
    rw [slid_middle (by omega)]
    exact middle
  case client => exact flowing.client
  case toClient => exact flowing.toClient
  case toServer => rfl
  case output => exact flowing.output
  case ended => exact flowing.ended
  case waitCount => exact flowing.waitCount
  case byeCount => exact flowing.byeCount
  case recent =>
    simp only [Window.slid_stored]
    exact flowing.recent

theorem Flowing.processes {acked written sent : Nat} (small : setup.Small)
    (agreed : Agreed setup transfer) (flowing : Flowing setup acked written sent transfer)
    (harmless : setup.Harmless transfer.server) (state : transfer.server.state = .process)
    (heard : transfer.toServer ≠ []) (stack : Packet) :
    Advances setup (120 + 8 * (setup.numChunks - sent) + 6 * (sent - written) +
      4 * (written - acked)) transfer (.serverProcess stack) := by
  have ahead := flowing.written_le
  have inside := flowing.sent_le
  have bottom := flowing.bottom
  have behind := flowing.acked_le
  have below : acked < written := by
    have different : acked ≠ written := by
      rw [ne_eq, ← span_eq_nil_iff setup.ackFlight behind, ← flowing.toServer]
      exact heard
    omega
  by_cases ends : (acked : Int) + 2 = transfer.server.eofIndex
  · have last : acked + 1 = setup.numChunks := by
      unfold Setup.Harmless at harmless
      omega
    have all : written = setup.numChunks := by omega
    have channel : transfer.toServer =
        setup.ackFlight (acked + 1) :: span setup.ackFlight (acked + 1) written := by
      rw [flowing.toServer, span_cons _ below]
    obtain ⟨rrReceived, steps⟩ := agreed.processes_rr small state stack (by omega) channel
    rw [if_pos (by omega)] at steps
    refine ⟨_, _, steps, ?less, .closed 0 ?closed⟩
    case less =>
      simp only [closingRank, if_true, flowing.byeCount, span_length]
      omega
    case closed =>
      constructor
      case output => rw [flowing.output, all]
      case eofIndex =>
        simp only [← ends]
        omega
      case toClient =>
        rw [flowing.toClient, (span_eq_nil_iff _ ahead).mpr (by omega)]
        rfl
      case byes =>
        simp only [flowing.byeCount]
        exact .inl ⟨trivial, by omega, by omega⟩
      case closing =>
        refine .telling flowing.client flowing.ended ?_ ?_
        · exact (span_eq_nil_iff _ below).mpr (by omega)
        · intro done
          cases done
  · obtain ⟨next, steps, flows, goes, same, _⟩ :=
      flowing.hears small agreed state below ends stack
    rw [Setup.Harmless, ← same] at harmless
    exact ⟨_, _, steps, by omega, .flowing _ _ _ flows harmless (.sending goes)⟩

/-! The nudge. -/

theorem Nudged.receives {rest : Nat} (small : setup.Small) (agreed : Agreed setup transfer)
    (nudged : Nudged setup transfer) (nudge : Nudge setup transfer rest)
    (nonempty : transfer.toClient ≠ []) :
    Advances setup (100 + rest) transfer (.clientReceive stack control) := by
  have positive := setup.windowSize_pos
  have expected := nudged.expected
  unfold Setup.Small at small
  cases nudge with
  | sent state count toClient toServer =>
      obtain ⟨packet, receives, number, flag, _⟩ := receive_arrives setup.serverHost
        setup.clientHost stack (UInt32.ofNat setup.stale) Flag.data.code
        (setup.chunk setup.stale) (setup.chunk_short _) []
      have behind : setup.stale ≤ setup.numChunks := by
        unfold Setup.stale
        omega
      have old : packet.number < transfer.window.bottom := by
        rw [Packet.number, number, ← ofInt_natCast, ofInt_toNat _ (by omega) (by omega), expected]
        omega
      have accepted : ((setup.chunk setup.stale).length : Int) ≠ crcError := by
        simp only [crcError]
        omega
      have answers := recvData_old agreed.settled.wellFormed accepted (by rw [flag]; decide) old
      have steps : clientStep transfer.window
          (some (((setup.chunk setup.stale).length : Int), packet)) transfer.client =
            some (.recvData, transfer.window, [.rr transfer.window.bottom]) := by
        rw [nudged.client]
        exact answers
      have channel : transfer.toClient = .intact (setup.dataFrame setup.stale) :: [] := toClient
      rw [Setup.dataFrame] at channel
      refine ⟨_, _, step_receive setup transfer stack control (channel ▸ receives) steps, by omega,
        .nudged ?nudged (.answered state count rfl ?toServer)⟩
      case nudged =>
        constructor
        case expected => exact expected
        case client => rfl
        case output =>
          rw [nudged.output]
          exact List.append_nil _
        case ended => simp [nudged.ended, acceptsEnd]
        case byeCount => exact nudged.byeCount
        case eofIndex => exact nudged.eofIndex
      case toServer =>
        simp only [toServer, expected]
        rfl
  | answered _ _ toClient => exact absurd toClient nonempty
  | heard _ toClient => exact absurd toClient nonempty

theorem Nudged.waits {rest : Nat} (agreed : Agreed setup transfer)
    (nudged : Nudged setup transfer) (nudge : Nudge setup transfer rest)
    (state : transfer.server.state = .waitOnAck)
    (arrived : Bool) (heard : arrived → transfer.toServer ≠ [])
    (patient : arrived = false → transfer.toServer = [] ∧ transfer.toClient = []) :
    Advances setup (100 + rest) transfer (.serverWait arrived) := by
  obtain ⟨⟨next, datagrams⟩, taken, _⟩ :=
    waitOnAck_sized agreed.sized setup.windowSize_pos arrived
  have steps := step_wait setup transfer state heard taken
  cases nudge with
  | sent _ _ toClient toServer =>
      cases arrived with
      | false =>
          obtain ⟨_, silent⟩ := patient rfl
          rw [toClient] at silent
          cases silent
      | true => exact absurd toServer (heard rfl)
  | answered _ count toClient toServer =>
      rcases waitOnAck_cases agreed.serverWindow taken with ⟨tired, _⟩ | ⟨_, rfl, rfl, rfl⟩ |
        ⟨_, rfl, _⟩
      · rw [count] at tired
        omega
      · refine ⟨_, _, steps, by omega, .nudged ?nudged (.heard rfl ?toClient toServer)⟩
        case nudged =>
          exact ⟨nudged.expected, nudged.client, nudged.output, nudged.ended, nudged.byeCount,
            nudged.eofIndex⟩
        case toClient =>
          rw [toClient]
          rfl
      · obtain ⟨nothing, _⟩ := patient rfl
        rw [toServer] at nothing
        cases nothing
  | heard other => rw [other] at state; cases state

theorem Nudged.processes {rest : Nat} (small : setup.Small) (agreed : Agreed setup transfer)
    (nudged : Nudged setup transfer) (nudge : Nudge setup transfer rest)
    (state : transfer.server.state = .process) (stack : Packet) :
    Advances setup (100 + rest) transfer (.serverProcess stack) := by
  cases nudge with
  | sent other => rw [other] at state; cases state
  | answered other => rw [other] at state; cases state
  | heard _ toClient toServer =>
      obtain ⟨rrReceived, steps⟩ := agreed.processes_rr small state stack (Nat.le_refl _) toServer
      simp only [nudged.eofIndex, if_true] at steps
      refine ⟨_, _, steps, ?less, .closed 0 ?closed⟩
      case less =>
        simp only [closingRank, if_true, nudged.byeCount, List.length_nil]
        omega
      case closed =>
        constructor
        case output => exact nudged.output
        case eofIndex => rfl
        case toClient => exact toClient
        case byes =>
          simp only [nudged.byeCount]
          exact .inl ⟨trivial, by omega, by omega⟩
        case closing =>
          refine .telling nudged.client nudged.ended rfl ?_
          intro done
          cases done

/-! The end. -/

theorem Closed.byes_alone {count : Nat} (closed : Closed setup count transfer)
    (state : transfer.server.state = .bye) (packet : Packet) :
    Advances setup (closingRank transfer.server + 6 * count + 4 * transfer.toServer.length)
      transfer (.serverBye packet) := by
  obtain ⟨_, lower, upper⟩ := closed.byes.resolve_right (by simp [state])
  have steps : step setup (.serverBye packet) transfer = some { transfer with
      server := { transfer.server with
        state := if transfer.server.byeCount + 1 > 10 then .done else .bye
        byeCount := transfer.server.byeCount + 1 }
      toClient := transfer.toClient ++ [setup.closing] } := by
    simp only [step, if_pos state, serverBye, bye_alone, Option.bind_eq_bind, Option.bind_some,
      afterServer, closed.eofIndex]
    rfl
  refine ⟨_, _, steps, ?less, .closed (count + 1) ?closed⟩
  case less =>
    simp only [closingRank, state, if_true]
    split
    · simp only [reduceCtorEq, if_false]
      omega
    · simp only [if_true]
      omega
  case closed =>
    constructor
    case output => exact closed.output
    case eofIndex => exact closed.eofIndex
    case toClient => rw [closed.toClient, List.replicate_succ']
    case byes =>
      simp only
      split
      · exact .inr rfl
      · exact .inl ⟨rfl, by omega, by omega⟩
    case closing =>
      cases closed.closing with
      | telling client ended silent =>
          exact .telling client ended silent fun _ => Nat.succ_ne_zero count
      | answered client ended reply => exact .answered client ended reply
      | ended client _ _ done => rw [done] at state; cases state

theorem Closed.hears {count : Nat} (small : setup.Small) (closed : Closed setup count transfer)
    (state : transfer.server.state = .bye) (counted : 0 < transfer.server.byeCount)
    (heard : transfer.toServer ≠ []) :
    Advances setup (closingRank transfer.server + 6 * count + 4 * transfer.toServer.length)
      transfer (.serverReceive stack) := by
  have positive := setup.windowSize_pos
  unfold Setup.Small at small
  cases closed.closing with
  | telling _ _ silent => exact absurd silent heard
  | ended _ _ _ done => rw [done] at state; cases state
  | answered client ended reply =>
      obtain ⟨answer, receives, sequence, flag, _⟩ := receive_arrives setup.clientHost
        setup.serverHost stack (UInt32.ofInt (asInt32 (setup.numChunks + 1 + 1))) Flag.rr.code []
        (Nat.zero_le _) []
      have number : answer.number = asUInt32 (transfer.server.eofIndex + 1) := by
        rw [Packet.number, sequence, closed.eofIndex, asUInt32_eq _ (by omega) (by omega)]
        simp only [UInt32.ofInt, UInt32.toNat_ofNat', asInt32]
        omega
      have answers : byeReceive (0, answer) transfer.server =
          { transfer.server with state := .done, byeCount := 0 } := by
        simp only [byeReceive]
        rw [if_pos ⟨by decide, flag, number⟩]
      have arrives : receive setup.serverHost stack transfer.toServer =
          some ((0, answer), []) := by
        rw [reply]
        exact receives
      have steps : step setup (.serverReceive stack) transfer = some { transfer with
          server := { transfer.server with state := .done, byeCount := 0 }
          toServer := []
          toClient := transfer.toClient ++ [].map .intact } := by
        simp only [step, if_pos (And.intro state counted), serverReceive, arrives, answers,
          Option.bind_eq_bind, Option.bind_some, afterServer]
      refine ⟨_, _, steps, ?less, .closed count ?closed⟩
      case less =>
        simp only [closingRank, reduceCtorEq, if_false, reply, List.length_singleton,
          List.length_nil]
        omega
      case closed =>
        exact ⟨closed.output, closed.eofIndex, (List.append_nil _).trans closed.toClient, .inr rfl,
          .ended client ended rfl rfl⟩

theorem Closed.receives {count : Nat} (small : setup.Small) (closed : Closed setup count transfer)
    (going : transfer.client ≠ .done) (nonempty : transfer.toClient ≠ []) :
    Advances setup (closingRank transfer.server + 6 * count + 4 * transfer.toServer.length)
      transfer (.clientReceive stack control) := by
  have positive := setup.windowSize_pos
  unfold Setup.Small at small
  cases closed.closing with
  | answered done => exact absurd done going
  | ended done => exact absurd done going
  | telling client _ silent =>
      cases count with
      | zero => exact absurd closed.toClient nonempty
      | succ count =>
          obtain ⟨packet, receives, sequence, flag, _⟩ := receive_arrives setup.serverHost
            setup.clientHost stack (UInt32.ofInt (setup.numChunks + 1)) Flag.endOfFile.code []
            (Nat.zero_le _) (List.replicate count setup.closing)
          have number : packet.number = setup.numChunks + 1 := by
            rw [Packet.number, sequence, ofInt_toNat _ (by omega) (by omega)]
          have arrives : receive setup.clientHost stack transfer.toClient =
              some ((0, packet), List.replicate count setup.closing) := by
            rw [closed.toClient, List.replicate_succ]
            exact receives
          have steps : clientStep transfer.window (some (0, packet)) transfer.client =
              some (.done, transfer.window, [.rr (asInt32 (setup.numChunks + 1 + 1))]) := by
            simp only [client, clientStep, recvData, flag, number]
            rfl
          refine ⟨_, _, step_receive setup transfer stack control arrives steps, ?less, .closed count
            ?closed⟩
          case less =>
            rw [silent]
            simp only [List.nil_append, List.length_nil]
            change _ + _ + 4 * 1 < _
            omega
          case closed =>
            constructor
            case output => exact (List.append_nil _).trans closed.output
            case eofIndex => exact closed.eofIndex
            case toClient => rfl
            case byes => exact closed.byes
            case closing =>
              refine .answered rfl ?_ ?_
              · simp [acceptsEnd, flag, crcError]
              · rw [silent]
                rfl

end

/-! Whole transfers. -/

section

variable {setup : Setup} {transfer : Transfer} {rank : Nat} {event : Event}

theorem Nudge.state {rest : Nat} (nudge : Nudge setup transfer rest) :
    transfer.server.state = .waitOnAck ∨ transfer.server.state = .process := by
  cases nudge with
  | sent state => exact .inl state
  | answered state => exact .inl state
  | heard state => exact .inr state

theorem Stage.advances (small : setup.Small) (fills : setup.windowSize ≤ setup.numChunks)
    (agreed : Agreed setup transfer) (stage : Stage setup rank transfer)
    (enabled : Enabled transfer event) {next : Transfer}
    (faultless : Faultless transfer event next) : Advances setup rank transfer event := by
  cases stage with
  | flowing acked written sent flowing harmless place =>
      have states := place.state
      cases event with
      | serverSend readFails arrived =>
          obtain rfl : readFails = false := faultless
          cases place with
          | sending state => exact flowing.sends small agreed harmless state arrived
          | waiting other => exact absurd (enabled.symm.trans other) (by decide)
          | processing other => exact absurd (enabled.symm.trans other) (by decide)
      | serverProcess stack =>
          obtain ⟨state, heard⟩ := enabled
          cases place with
          | sending other => exact absurd (state.symm.trans other) (by decide)
          | waiting other => exact absurd (state.symm.trans other) (by decide)
          | processing => exact flowing.processes small agreed harmless state heard stack
      | serverWait arrived =>
          obtain ⟨state, heard⟩ := enabled
          cases place with
          | sending other => exact absurd (state.symm.trans other) (by decide)
          | waiting _ room =>
              exact flowing.waits agreed fills harmless state room arrived heard faultless
          | processing other => exact absurd (state.symm.trans other) (by decide)
      | serverBye packet =>
          rw [show transfer.server.state = .bye from enabled] at states
          simp at states
      | serverReceive stack =>
          rw [enabled.1] at states
          simp at states
      | clientReceive stack control =>
          have below : written ≠ sent := by
            rw [ne_eq, ← span_eq_nil_iff setup.dataFlight flowing.written_le, ← flowing.toClient]
            exact enabled.2
          have ahead := flowing.written_le
          have behind := flowing.acked_le
          obtain ⟨next, steps, flows, same⟩ :=
            flowing.receives stack control small agreed (by omega)
          exact ⟨_, _, steps, by omega, .flowing _ _ _ flows (same ▸ harmless) (same ▸ place)⟩
      | _ => cases faultless
  | nudged nudged nudge =>
      have states := nudge.state
      cases event with
      | serverSend readFails arrived =>
          rw [show transfer.server.state = .sendData from enabled] at states
          simp at states
      | serverProcess stack => exact nudged.processes small agreed nudge enabled.1 stack
      | serverWait arrived =>
          exact nudged.waits agreed nudge enabled.1 arrived enabled.2 faultless
      | serverBye packet =>
          rw [show transfer.server.state = .bye from enabled] at states
          simp at states
      | serverReceive stack =>
          rw [enabled.1] at states
          simp at states
      | clientReceive stack control =>
          exact nudged.receives stack control small agreed nudge enabled.2
      | _ => cases faultless
  | closed _ closed =>
      have states : transfer.server.state = .bye ∨ transfer.server.state = .done :=
        closed.byes.imp_left And.left
      cases event with
      | serverSend readFails arrived =>
          rw [show transfer.server.state = .sendData from enabled] at states
          simp at states
      | serverProcess stack =>
          rw [enabled.1] at states
          simp at states
      | serverWait arrived =>
          rw [enabled.1] at states
          simp at states
      | serverBye packet => exact closed.byes_alone enabled packet
      | serverReceive stack => exact closed.hears stack small enabled.1 enabled.2.1 enabled.2.2
      | clientReceive stack control =>
          exact closed.receives stack control small enabled.1 enabled.2
      | _ => cases faultless

theorem Stage.completes (small : setup.Small) (fills : setup.windowSize ≤ setup.numChunks)
    (agreed : Agreed setup transfer) (stage : Stage setup rank transfer)
    (stopped : Stopped setup transfer) : Complete setup transfer := by
  have stuck (event : Event) (enabled : Enabled transfer event)
      (faultless : ∀ next, Faultless transfer event next) : Complete setup transfer := by
    obtain ⟨next, _, taken, _⟩ := stage.advances small fills agreed enabled (faultless transfer)
    exact absurd (faultless next) (stopped event next taken)
  cases stage with
  | flowing acked written sent flowing _ place =>
      cases place with
      | sending state => exact stuck (.serverSend false false) state fun _ => rfl
      | waiting state =>
          by_cases heard : transfer.toServer = []
          · by_cases silent : transfer.toClient = []
            · exact stuck (.serverWait false) ⟨state, by simp⟩ fun _ _ => ⟨heard, silent⟩
            · exact stuck (.clientReceive Packet.zero Packet.zero)
                ⟨by simp [flowing.client], silent⟩ fun _ => trivial
          · exact stuck (.serverWait true) ⟨state, fun _ => heard⟩ fun _ => by simp [Faultless]
      | processing state below =>
          by_cases heard : transfer.toServer = []
          · refine stuck (.clientReceive Packet.zero Packet.zero) ⟨by simp [flowing.client], ?_⟩
              fun _ => trivial
            rw [flowing.toServer, span_eq_nil_iff _ flowing.acked_le] at heard
            rw [flowing.toClient, ne_eq, span_eq_nil_iff _ flowing.written_le]
            omega
          · exact stuck (.serverProcess Packet.zero) ⟨state, heard⟩ fun _ => trivial
  | nudged nudged nudge =>
      cases nudge with
      | sent _ _ toClient =>
          exact stuck (.clientReceive Packet.zero Packet.zero)
            ⟨by simp [nudged.client], by simp [toClient]⟩ fun _ => trivial
      | answered state _ _ toServer =>
          exact stuck (.serverWait true) ⟨state, fun _ => by simp [toServer]⟩
            fun _ => by simp [Faultless]
      | heard state _ toServer =>
          exact stuck (.serverProcess Packet.zero) ⟨state, by simp [toServer]⟩ fun _ => trivial
  | closed _ closed =>
      rcases closed.byes with ⟨state, _⟩ | done
      · exact stuck (.serverBye Packet.zero) state fun _ => trivial
      · have whole : transfer.output.flatten = setup.file := by
          rw [closed.output, setup.chunks_complete]
        cases closed.closing with
        | telling client _ _ more =>
            refine stuck (.clientReceive Packet.zero Packet.zero) ⟨by simp [client], ?_⟩
              fun _ => trivial
            rw [closed.toClient, ne_eq, List.replicate_eq_nil_iff]
            exact more done
        | answered _ ended => exact ⟨ended, whole, done⟩
        | ended _ ended => exact ⟨ended, whole, done⟩

theorem stopped_of_exited (exited : transfer.server.state = .exited)
    (silent : transfer.toClient = []) : Stopped setup transfer := by
  intro event next taken faultless
  have enabled := step_enabled taken
  cases event with
  | clientReceive => exact enabled.2 silent
  | serverSend => exact absurd (exited.symm.trans enabled) (by decide)
  | serverProcess => exact absurd (exited.symm.trans enabled.1) (by decide)
  | serverWait => exact absurd (exited.symm.trans enabled.1) (by decide)
  | serverBye => exact absurd (exited.symm.trans enabled) (by decide)
  | serverReceive => exact absurd (exited.symm.trans enabled.1) (by decide)
  | _ => cases faultless

theorem ranked_step (small : setup.Small) (fills : setup.windowSize ≤ setup.numChunks)
    {next : Transfer} (ranked : Agreed setup transfer ∧ Stage setup rank transfer)
    (taken : step setup event transfer = some next) (faultless : Faultless transfer event next) :
    ∃ lower, lower < rank ∧ Agreed setup next ∧ Stage setup lower next := by
  obtain ⟨agreed, stage⟩ := ranked
  obtain ⟨after, lower, steps, less, later⟩ :=
    stage.advances small fills agreed (step_enabled taken) faultless
  obtain rfl := Option.some.inj (steps.symm.trans taken)
  exact ⟨lower, less, step_agreed small agreed taken, later⟩

theorem started_flowing (setup : Setup) (packet : Packet) (eofIndex : Int) :
    Flowing setup 0 0 0 (started setup packet eofIndex 0) := by
  constructor
  case recent => exact fun number positive none => absurd positive (by omega)
  all_goals first
    | exact Nat.le_refl 0
    | exact Nat.zero_le _
    | rfl

theorem initWindow_stored (size seqNum : Int) :
    (initWindow size).stored seqNum = Packet.zero := by
  simp only [Window.stored, Ring.read, initWindow, List.getD_eq_getElem?_getD,
    List.getElem?_replicate]
  split <;> rfl

structure Prompt (setup : Setup) (count : Nat) (transfer : Transfer) : Prop where
  agreed : Agreed setup transfer
  flowing : Flowing setup count count count transfer
  state : transfer.server.state = .sendData
  unread : transfer.server.eofIndex < 2 ∨ setup.numChunks + 1 < transfer.server.eofIndex
  vacant : transfer.server.window.stored (setup.numChunks + 1) = Packet.zero

theorem Prompt.round {count : Nat} (small : setup.Small)
    (short : (setup.numChunks : Int) < setup.windowSize) (prompt : Prompt setup count transfer)
    (more : count < setup.numChunks) :
    Leads (step setup) Faultless (Prompt setup (count + 1)) [.serverSend false true,
      .clientReceive Packet.zero Packet.zero, .serverProcess Packet.zero] transfer := by
  obtain ⟨sent, sends, flowing, goes, index, others⟩ := prompt.flowing.sends_next small
    prompt.agreed prompt.state more (by omega) true
  have agreed := step_agreed small prompt.agreed sends
  obtain ⟨written, receives, flows, same⟩ :=
    flowing.receives Packet.zero Packet.zero small agreed (Nat.lt_succ_self count)
  have later := step_agreed small agreed receives
  have unread := prompt.unread
  obtain ⟨heard, hears, ends, state, still, kept⟩ := flows.hears small later (same ▸ goes)
    (Nat.lt_succ_self count) (by rw [same, index]; omega) Packet.zero
  refine ⟨sent, sends, rfl, written, receives, trivial, heard, hears, trivial, ?_⟩
  constructor
  case agreed => exact step_agreed small later hears
  case flowing => exact ends
  case state => exact state
  case unread => rwa [still, same, index]
  case vacant =>
    rw [kept, same, others _ (by omega) (by omega)]
    exact prompt.vacant

theorem Prompt.exits (small : setup.Small) (short : (setup.numChunks : Int) < setup.windowSize)
    (prompt : Prompt setup setup.numChunks transfer) :
    Leads (step setup) Faultless (fun final => final.server.state = .exited ∧
      final.toClient = [] ∧ final.ended = false) [.serverSend false false, .serverWait false]
        transfer := by
  have agreed := prompt.agreed
  have flowing := prompt.flowing
  have bottom := flowing.bottom
  have middle := flowing.middle
  have sizeEq := agreed.serverSize
  have top := agreed.serverWindow.top_eq
  have nothing : transfer.toServer = [] := by
    rw [flowing.toServer, span_eq_nil_iff _ (Nat.le_refl _)]
  have silent : transfer.toClient = [] := by
    rw [flowing.toClient, span_eq_nil_iff _ (Nat.le_refl _)]
  obtain ⟨packet, readZero, sends⟩ :=
    agreed.reads_end small prompt.state (by omega) (by omega) false
  have later := step_agreed small agreed sends
  obtain ⟨⟨last, nudges⟩, taken, _⟩ := waitOnAck_sized later.sized setup.windowSize_pos false
  have waits := step_wait setup _ rfl (by simp) taken
  refine ⟨_, sends, rfl, _, waits, fun _ => ⟨nothing, silent⟩, ?_⟩
  rcases waitOnAck_cases later.serverWindow taken with ⟨tired, _⟩ | ⟨_, heard, _⟩ |
    ⟨_, _, _, ⟨_, made, rfl⟩ | ⟨datagram, resends, _⟩⟩
  · simp only [flowing.waitCount] at tired
    omega
  · cases heard
  · exact ⟨by rw [made], by simp [silent], flowing.ended⟩
  · have blank : sendPacket2 (transfer.server.window.stored transfer.server.window.bottom) =
        some datagram := resends
    rw [bottom, prompt.vacant] at blank
    cases blank

theorem started_prompt (setup : Setup) (small : setup.Small) (packet : Packet) (eofIndex : Int)
    (unread : eofIndex < 2 ∨ setup.numChunks + 1 < eofIndex) :
    Prompt setup 0 (started setup packet eofIndex 0) := by
  constructor
  case agreed => exact initial_agreed small ⟨packet, eofIndex, 0, rfl⟩
  case flowing => exact started_flowing setup packet eofIndex
  case state => rfl
  case unread => exact unread
  case vacant => exact initWindow_stored _ _

/-- Without faults the sliding-window copy of a file always ends, and well, exactly when the file
has at least as many chunks as the window has slots. -/
theorem transfer_succeeds_iff (setup : Setup) (small : setup.Small) (packet : Packet)
    (eofIndex : Int) (unread : eofIndex < 2 ∨ setup.numChunks + 1 < eofIndex) :
    Succeeds setup (started setup packet eofIndex 0) ↔ setup.windowSize ≤ setup.numChunks := by
  constructor
  · rintro ⟨limit, bounded⟩
    by_contra short
    have rounds := Leads.rounds (Prompt setup)
      (fun count _ more prompt => Prompt.round small (by omega) prompt more)
      (Nat.le_refl setup.numChunks) (started_prompt setup small packet eofIndex unread)
    obtain ⟨final, executed, allowed, exited, silent, running⟩ :=
      (rounds.append fun _ prompt => Prompt.exits small (by omega) prompt).run
    have ended := ((bounded _ final executed allowed).2 (stopped_of_exited exited silent)).1
    rw [running] at ended
    cases ended
  · intro fills
    obtain ⟨limit, first⟩ : ∃ rank, Stage setup rank (started setup packet eofIndex 0) :=
      ⟨_, .flowing 0 0 0 (started_flowing setup packet eofIndex)
        (by simp only [Setup.Harmless, started]; omega) (.sending rfl)⟩
    refine ⟨limit, fun events final executed allowed => ?_⟩
    obtain ⟨short, rest, agreed, stage⟩ := run_bounded
      (fun rank transfer => Agreed setup transfer ∧ Stage setup rank transfer)
      (fun _ _ _ _ => ranked_step small fills)
      ⟨initial_agreed small ⟨packet, eofIndex, 0, rfl⟩, first⟩ executed allowed
    exact ⟨short, stage.completes small fills agreed⟩

theorem transfer_succeeds_iff_twoChunks :
    Succeeds twoChunks (started twoChunks Packet.zero 0 0) :=
  (transfer_succeeds_iff twoChunks (by decide +kernel) Packet.zero 0 (.inl (by decide))).mpr
    (by decide +kernel)

end

end RemoteCopy
