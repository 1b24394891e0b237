import Cpe464.Chat.ClientSteps
import Cpe464.Chat.SessionCore

/-!
One connection of a session: how far the exchange of requests and replies has come, and
what a step of the client or the arrival of a message changes.
-/

namespace Chat

/-! Requests with their replies. -/

def Mode.before : Mode → Mode
  | .requestListLength => .communicate
  | .janitor => .communicate
  | mode => mode

def listing (index length : Int) : Mode :=
  if index < length then .requestHandle index length else .communicate

/-- The requests of a client with the replies to them: the length of the list, then a handle, or
that there is none, for each index below it; at last the acknowledgement of the exit. -/
inductive Transcript : List (Message × Message) → Mode → Prop
  | start : Transcript [] .communicate
  | length {exchanges request reply value} : Transcript exchanges .communicate →
      request.flag = 10 → reply.flag = 11 → loadInt reply.text = some value →
      Transcript (exchanges ++ [(request, reply)]) (listing 0 (asInt value))
  | handle {exchanges index length request reply} :
      Transcript exchanges (.requestHandle index length) →
      request.flag = 12 → request.text = intText index → reply.flag = 13 ∨ reply.flag = 14 →
      Transcript (exchanges ++ [(request, reply)]) (listing (index + 1) length)
  | exit {exchanges request reply} : Transcript exchanges .communicate →
      request.flag = 8 → reply.flag = 9 → Transcript (exchanges ++ [(request, reply)]) .closed

theorem listing_running (index length : Int) (exception : Exception) :
    listing index length ≠ .failed exception := by
  unfold listing
  split <;> simp

theorem Transcript.running {exchanges : List (Message × Message)} {mode : Mode}
    (transcript : Transcript exchanges mode.before) (exception : Exception) :
    mode ≠ .failed exception := by
  rintro rfl
  generalize same : (Mode.failed exception).before = mode at transcript
  cases transcript with
  | start => cases same
  | length => exact listing_running _ _ exception same.symm
  | handle => exact listing_running _ _ exception same.symm
  | exit => cases same

def answered (fd : Int) (exchange : Message × Message) : Message × List (Int × List UInt8) :=
  (exchange.1, [(fd, exchange.2.bytes)])

def Output.isDisplay : Output → Bool
  | .handle _ => false
  | _ => true

structure History (peer : Peer) (exchanges : List (Message × Message)) : Prop where
  transcript : Transcript exchanges peer.client.mode.before
  obtained : peer.obtained = exchanges.map Prod.snd
  shown : peer.shown.filter Output.isDisplay = peer.received.filterMap display

/-! What is in flight. -/

def Mail (message : Message) : Prop :=
  message.flag = 6 ∧ message.toHandle.bytes.length ≤ 100

def Delivery (message : Message) : Prop :=
  message.flag = 6 ∨ (message.flag = 7 ∧ message.toHandle.bytes.length ≤ 100)

def Carries (kind : Message → Prop) (queue : List (List UInt8)) : Prop :=
  ∀ bytes ∈ queue, ∃ message : Message, bytes = message.bytes ∧ kind message

def Asks : Mode → Message → Prop
  | .requestListLength, request => request.flag = 10
  | .requestHandle index _, request => request.flag = 12 ∧ request.text = intText index
  | .janitor, request => request.flag = 8
  | _, _ => False

/-- Either no request is open, or the last one is behind all mail on its way to the server, or its
reply is before all mail on its way back, or the client has left. -/
inductive Phase (connected : Prop) (fd : Int) (peer : Peer)
    (exchanges : List (Message × Message)) : Prop
  | idle (isConnected : connected) (mode : peer.client.mode = .communicate)
      (sent : Carries Mail peer.toServer) (delivered : Carries Delivery peer.fromServer)
      (asked : peer.asked = exchanges.map Prod.fst)
      (handled : peer.answered = exchanges.map (answered fd))
  | asking (request : Message) (mail : List (List UInt8)) (isConnected : connected)
      (asks : Asks peer.client.mode request) (sent : Carries Mail mail)
      (toServer : peer.toServer = mail ++ [request.bytes]) (fromServer : peer.fromServer = [])
      (asked : peer.asked = exchanges.map Prod.fst ++ [request])
      (handled : peer.answered = exchanges.map (answered fd))
  | replied (request reply : Message) (mail : List (List UInt8))
      (leaves : connected ↔ peer.client.mode ≠ .janitor)
      (asks : Asks peer.client.mode request) (answers : Answers request reply)
      (toServer : peer.toServer = []) (fromServer : peer.fromServer = reply.bytes :: mail)
      (delivered : Carries Delivery mail) (last : ¬connected → mail = [])
      (asked : peer.asked = exchanges.map Prod.fst ++ [request])
      (handled : peer.answered = exchanges.map (answered fd) ++ [answered fd (request, reply)])
  | ended (left : ¬connected) (mode : peer.client.mode = .closed)
      (toServer : peer.toServer = []) (fromServer : peer.fromServer = [])
      (asked : peer.asked = exchanges.map Prod.fst)
      (handled : peer.answered = exchanges.map (answered fd))

theorem Answers.plain {request reply : Message} (answers : Answers request reply) :
    display reply = none := by
  rcases answers with ⟨_, flag⟩ | ⟨_, flag, _⟩ | ⟨_, ⟨flag, _⟩ | flag⟩ <;> simp [display, flag]

theorem Carries.nil (kind : Message → Prop) : Carries kind [] := by
  intro bytes member
  cases member

theorem Carries.cons {kind : Message → Prop} {bytes : List UInt8} {rest : List (List UInt8)}
    (carries : Carries kind (bytes :: rest)) :
    (∃ message : Message, bytes = message.bytes ∧ kind message) ∧ Carries kind rest := by
  exact ⟨carries bytes List.mem_cons_self, fun other member =>
    carries other (List.mem_cons_of_mem _ member)⟩

theorem Carries.append {kind : Message → Prop} {first second : List (List UInt8)}
    (carries : Carries kind first) (further : Carries kind second) :
    Carries kind (first ++ second) := by
  intro bytes member
  rcases List.mem_append.mp member with old | new
  · exact carries bytes old
  · exact further bytes new

theorem Carries.singleton {kind : Message → Prop} {message : Message} (holds : kind message) :
    Carries kind [message.bytes] := by
  intro bytes member
  exact ⟨message, List.mem_singleton.mp member, holds⟩

theorem Asks.isRequest {mode : Mode} {request : Message} (asks : Asks mode request) :
    isRequest request = true := by
  cases mode <;> simp_all [Asks, Chat.isRequest]

theorem Asks.awaits {mode : Mode} {request : Message} (asks : Asks mode request) :
    mode.awaits = true := by
  cases mode <;> first | rfl | exact asks.elim

theorem Asks.leaves {mode : Mode} {request : Message} (asks : Asks mode request) :
    request.flag ≠ 8 ↔ mode ≠ .janitor := by
  cases mode <;> simp_all [Asks]

theorem Asks.loads {mode : Mode} {request : Message} (asks : Asks mode request)
    (flag : request.flag = 12) : ∃ value, loadInt request.text = some value := by
  cases mode with
  | requestHandle index length =>
      have loads := loadInt_htonl (UInt32.ofInt index) []
      rw [List.append_nil] at loads
      rw [asks.2]
      exact ⟨_, loads⟩
  | requestListLength => exact absurd (flag.symm.trans asks) (by decide)
  | janitor => exact absurd (flag.symm.trans asks) (by decide)
  | confirmHandle | communicate | closed | failed => exact asks.elim

theorem Mail.isRequest {message : Message} (mail : Mail message) :
    isRequest message = false := by
  simp [Chat.isRequest, mail.1]

theorem requests_sent (message : Message) :
    ([message.bytes].filterMap unpack).filter isRequest =
      if isRequest message then [message] else [] := by
  rw [List.filterMap_cons, unpack_bytes, List.filterMap_nil]
  by_cases request : isRequest message <;> simp [request]

/-! Steps of the client. -/

section

variable {connected : Prop} {fd : Int} {peer : Peer} {exchanges : List (Message × Message)}

theorem Phase.request {client : Client} {mode : Mode} {request : Message} {shown : List Output}
    (isConnected : connected) (sent : Carries Mail peer.toServer)
    (asked : peer.asked = exchanges.map Prod.fst)
    (handled : peer.answered = exchanges.map (answered fd)) (quiet : peer.fromServer = [])
    (asks : Asks mode request) (turns : client.mode = mode) :
    Phase connected fd (peer.turn ⟨client, [request.bytes], shown⟩) exchanges := by
  refine .asking request peer.toServer isConnected (turns ▸ asks) sent rfl quiet ?_ handled
  rw [Peer.turn, requests_sent, if_pos asks.isRequest, asked]

theorem History.turn {turn : Turn} (history : History peer exchanges)
    (silent : turn.shown.filter Output.isDisplay = [])
    (mode : turn.client.mode.before = peer.client.mode.before) :
    History (peer.turn turn) exchanges := by
  constructor
  · rw [Peer.turn, mode]
    exact history.transcript
  · exact history.obtained
  · rw [Peer.turn, List.filter_append, silent, List.append_nil]
    exact history.shown

theorem Phase.enter (peer : Peer) (isConnected : connected) (sent : Carries Mail peer.toServer)
    (delivered : Carries Delivery peer.fromServer) (asked : peer.asked = exchanges.map Prod.fst)
    (handled : peer.answered = exchanges.map (answered fd)) (shown : List Output) :
    Phase connected fd (peer.turn (peer.client.enter .communicate shown)) exchanges := by
  refine .idle isConnected rfl ?_ delivered ?_ handled
  · simpa only [Peer.turn, Client.enter, List.append_nil] using sent
  · simpa only [Peer.turn, Client.enter, List.filterMap_nil, List.filter_nil, List.append_nil]
      using asked

theorem Phase.text (isConnected : connected) (sent : Carries Mail peer.toServer)
    (delivered : Carries Delivery peer.fromServer)
    (asked : peer.asked = exchanges.map Prod.fst)
    (handled : peer.answered = exchanges.map (answered fd)) (toHandle : Handle)
    (short : toHandle.bytes.length ≤ 100) (text : List UInt8) :
    Phase connected fd (peer.turn (peer.client.sendText false toHandle text)) exchanges := by
  unfold Client.sendText
  split
  · exact .enter peer isConnected sent delivered asked handled []
  · have mail : Mail (peer.client.fill
        { Message.new with flag := 6, toHandle, text := text ++ [0] }) := ⟨rfl, short⟩
    refine .idle isConnected rfl (sent.append (.singleton mail)) delivered ?_ handled
    rw [Peer.turn, Client.post, Client.send, requests_sent, mail.isRequest, asked]
    simp

theorem Phase.command (phase : Phase connected fd peer exchanges)
    (history : History peer exchanges) (mode : peer.client.mode = .communicate)
    (command : Command)
    (quiet : command = .list ∨ command = .exit → peer.fromServer = []) :
    Phase connected fd (peer.turn (peer.client.processUserInput false command)) exchanges ∧
      History (peer.turn (peer.client.processUserInput false command)) exchanges := by
  have before : peer.client.mode.before = .communicate := by
    rw [mode]
    rfl
  cases phase with
  | idle isConnected _ sent delivered asked handled =>
      cases command with
      | message destination text =>
          refine ⟨.text isConnected sent delivered asked handled _ destination.short text, ?_⟩
          apply history.turn <;> simp only [Client.processUserInput, Client.sendText, before]
          · split <;> rfl
          · split <;> rfl
      | broadcast text =>
          refine ⟨.text isConnected sent delivered asked handled _ (Nat.zero_le _) text, ?_⟩
          apply history.turn <;> simp only [Client.processUserInput, Client.sendText, before]
          · split <;> rfl
          · split <;> rfl
      | list =>
          refine ⟨.request isConnected sent asked handled (quiet (.inl rfl)) ?_ rfl,
            history.turn rfl before.symm⟩
          rfl
      | exit =>
          refine ⟨.request isConnected sent asked handled (quiet (.inr rfl)) ?_ rfl,
            history.turn rfl before.symm⟩
          rfl
      | help =>
          exact ⟨.enter peer isConnected sent delivered asked handled [], history.turn rfl before.symm⟩
  | asking request mail _ asks =>
      rw [mode] at asks
      exact asks.elim
  | replied request reply mail _ asks =>
      rw [mode] at asks
      exact asks.elim
  | ended _ closed =>
      rw [mode] at closed
      cases closed

theorem listHandles_mode (client : Client) (index length : Int) :
    (client.listHandles false index length).client.mode = listing index length := by
  unfold Client.listHandles listing
  split <;> rfl

theorem listing_before (index length : Int) :
    (listing index length).before = listing index length := by
  unfold listing
  split <;> rfl

theorem Phase.listHandles (peer : Peer) (isConnected : connected) (nothing : peer.toServer = [])
    (delivered : Carries Delivery peer.fromServer) (asked : peer.asked = exchanges.map Prod.fst)
    (handled : peer.answered = exchanges.map (answered fd)) (index length : Int)
    (quiet : index < length → peer.fromServer = []) (shown : List Output) :
    Phase connected fd
      (peer.turn { peer.client.listHandles false index length with shown }) exchanges := by
  have sent : Carries Mail peer.toServer := nothing ▸ .nil Mail
  unfold Client.listHandles
  split
  · rename_i more
    have asks : Asks (.requestHandle index length) (peer.client.fill
        { Message.new with flag := 12, text := intText index }) := ⟨rfl, rfl⟩
    exact .request isConnected sent asked handled (quiet more) asks rfl
  · exact .enter peer isConnected sent delivered asked handled shown

theorem History.reply {turn : Turn} {request reply : Message} (history : History peer exchanges)
    (waits : peer.client.mode ≠ .communicate) (plain : display reply = none)
    (silent : turn.shown.filter Output.isDisplay = [])
    (transcript : Transcript (exchanges ++ [(request, reply)]) turn.client.mode.before)
    (rest : List (List UInt8)) :
    History ((peer.take reply rest).turn turn) (exchanges ++ [(request, reply)]) := by
  refine ⟨transcript, ?_, ?_⟩
  · rw [Peer.turn, Peer.take, if_neg waits, List.map_append, history.obtained]
    rfl
  · simp only [Peer.turn, Peer.take, List.filter_append, silent, List.append_nil,
      List.filterMap_append, List.filterMap_cons, plain, List.filterMap_nil]
    exact history.shown

theorem display_isDisplay {message : Message} {output : Output}
    (displays : display message = some output) : output.isDisplay = true := by
  unfold display at displays
  split at displays
  · rw [← Option.some.inj displays]
    rfl
  · split at displays
    · rw [← Option.some.inj displays]
      rfl
    · cases displays

theorem Phase.receiveDelivery (history : History peer exchanges) (isConnected : connected)
    (mode : peer.client.mode = .communicate) (sent : Carries Mail peer.toServer)
    {message : Message} {rest : List (List UInt8)} (delivery : Delivery message)
    (behind : Carries Delivery rest) (asked : peer.asked = exchanges.map Prod.fst)
    (handled : peer.answered = exchanges.map (answered fd)) :
    ∃ turn, peer.client.handleMessage false message = some turn ∧
      Phase connected fd ((peer.take message rest).turn turn) exchanges ∧
      History ((peer.take message rest).turn turn) exchanges := by
  obtain ⟨output, displays, shows⟩ := processMessage_shows peer.client message delivery
  have entered : Phase connected fd
      ((peer.take message rest).turn (peer.client.enter .communicate [output])) exchanges :=
    .enter (peer.take message rest) isConnected sent behind asked handled [output]
  refine ⟨_, ?_, entered, ?_, ?_, ?_⟩
  · rw [Client.handleMessage, mode]
    exact shows
  · have transcript := history.transcript
    rw [mode] at transcript
    exact transcript
  · rw [Peer.turn, Peer.take, if_pos mode]
    exact history.obtained
  · simp only [Peer.turn, Peer.take, Client.enter, List.filter_append, List.filterMap_append,
      List.filterMap_cons, List.filterMap_nil, displays, history.shown]
    rw [List.filter_cons_of_pos (display_isDisplay displays), List.filter_nil]

theorem Phase.receiveListing (history : History peer exchanges) (isConnected : connected)
    {request reply : Message} {index length : Int} {rest : List (List UInt8)}
    (waits : peer.client.mode ≠ .communicate) (plain : display reply = none)
    (nothing : peer.toServer = []) (behind : Carries Delivery rest)
    (quiet : index < length → rest = [])
    (asked : peer.asked = exchanges.map Prod.fst ++ [request])
    (handled : peer.answered = exchanges.map (answered fd) ++ [answered fd (request, reply)])
    (lists : Lists peer.client false index length (peer.client.handleMessage false reply))
    (transcript : Transcript (exchanges ++ [(request, reply)]) (listing index length)) :
    ∃ turn, peer.client.handleMessage false reply = some turn ∧
      Phase connected fd ((peer.take reply rest).turn turn) (exchanges ++ [(request, reply)]) ∧
      History ((peer.take reply rest).turn turn) (exchanges ++ [(request, reply)]) := by
  obtain ⟨printed, lists⟩ := lists
  have taken : Phase connected fd ((peer.take reply rest).turn
      { peer.client.listHandles false index length with shown := printed.map Output.handle })
      (exchanges ++ [(request, reply)]) := by
    refine .listHandles (peer.take reply rest) isConnected nothing behind ?_ ?_ index length quiet _
    · rw [List.map_append]
      exact asked
    · rw [List.map_append]
      exact handled
  refine ⟨_, lists, taken, history.reply waits plain ?_ ?_ rest⟩
  · rw [List.filter_eq_nil_iff]
    intro output member
    obtain ⟨handle, _, rfl⟩ := List.mem_map.mp member
    simp [Output.isDisplay]
  · rw [listHandles_mode, listing_before]
    exact transcript

theorem Phase.receiveReply (history : History peer exchanges) {request reply : Message}
    {rest : List (List UInt8)} (leaves : connected ↔ peer.client.mode ≠ .janitor)
    (asks : Asks peer.client.mode request) (answers : Answers request reply)
    (nothing : peer.toServer = []) (behind : Carries Delivery rest)
    (quiet : peer.client.mode.continues → rest = [])
    (asked : peer.asked = exchanges.map Prod.fst ++ [request])
    (handled : peer.answered = exchanges.map (answered fd) ++ [answered fd (request, reply)])
    (last : ¬connected → rest = []) :
    ∃ turn, peer.client.handleMessage false reply = some turn ∧
      Phase connected fd ((peer.take reply rest).turn turn) (exchanges ++ [(request, reply)]) ∧
      History ((peer.take reply rest).turn turn) (exchanges ++ [(request, reply)]) := by
  have transcript := history.transcript
  have waits : peer.client.mode ≠ .communicate := by
    intro mode
    rw [mode] at asks
    exact asks.elim
  cases mode : peer.client.mode with
  | requestListLength =>
      rw [mode] at asks leaves quiet transcript
      have handles : peer.client.handleMessage false reply =
          peer.client.receiveListLength false reply := by
        rw [Client.handleMessage, mode]
      obtain ⟨flag, value, loads⟩ := answers.listLength asks
      have lists := receiveListLength_lists peer.client false reply value flag loads
      exact Phase.receiveListing history (leaves.mpr (by simp)) waits answers.plain nothing behind
        (fun _ => quiet rfl) asked handled (handles ▸ lists) (.length transcript asks flag loads)
  | requestHandle index length =>
      rw [mode] at asks leaves quiet transcript
      have handles : peer.client.handleMessage false reply =
          peer.client.receiveHandle false index length reply := by
        rw [Client.handleMessage, mode]
      have handle := answers.handle asks.1
      have lists := receiveHandle_lists peer.client false index length reply handle
      have flags : reply.flag = 13 ∨ reply.flag = 14 := handle.imp And.left id
      exact Phase.receiveListing history (leaves.mpr (by simp)) waits answers.plain nothing behind
        (fun more => quiet (decide_eq_true more)) asked handled (handles ▸ lists)
        (.handle transcript asks.1 asks.2 flags)
  | janitor =>
      rw [mode] at asks leaves transcript
      have flag := answers.exit asks
      have left : ¬connected := fun stays => leaves.mp stays rfl
      have handles : peer.client.handleMessage false reply =
          some (peer.client.enter .closed []) := by
        rw [Client.handleMessage, mode]
        exact congrArg some (if_pos flag)
      refine ⟨_, handles, .ended left rfl ?_ (last left) ?_ ?_,
        history.reply waits answers.plain rfl (.exit transcript asks flag) rest⟩
      · rw [Peer.turn, Peer.take, Client.enter, List.append_nil]
        exact nothing
      · rw [Peer.turn, Peer.take, Client.enter, List.map_append]
        simpa using asked
      · rw [List.map_append]
        exact handled
  | confirmHandle | communicate | closed | failed =>
      rw [mode] at asks
      exact asks.elim

theorem Phase.receive (phase : Phase connected fd peer exchanges)
    (history : History peer exchanges) {bytes : List UInt8} {rest : List (List UInt8)}
    (inbox : peer.fromServer = bytes :: rest)
    (quiet : peer.client.mode.continues → rest = []) :
    ∃ message turn exchanges, unpack bytes = some message ∧
      peer.client.receive false (some bytes) = some turn ∧
      Phase connected fd ((peer.take message rest).turn turn) exchanges ∧
      History ((peer.take message rest).turn turn) exchanges := by
  cases phase with
  | idle isConnected mode sent delivered asked handled =>
      rw [inbox] at delivered
      obtain ⟨⟨message, rfl, delivery⟩, behind⟩ := delivered.cons
      obtain ⟨turn, handles, known⟩ :=
        Phase.receiveDelivery history isConnected mode sent delivery behind asked handled
      exact ⟨message, turn, _, unpack_bytes message, (receive_bytes _ _ _).trans handles, known⟩
  | asking request mail _ _ _ _ fromServer =>
      rw [inbox] at fromServer
      cases fromServer
  | replied request reply mail leaves asks answers toServer fromServer delivered last asked
      handled =>
      rw [inbox, List.cons.injEq] at fromServer
      obtain ⟨rfl, rfl⟩ := fromServer
      obtain ⟨turn, handles, known⟩ :=
        Phase.receiveReply history leaves asks answers toServer delivered quiet asked handled
          last
      exact ⟨reply, turn, _, unpack_bytes reply, (receive_bytes _ _ _).trans handles, known⟩
  | ended _ _ _ fromServer =>
      rw [inbox] at fromServer
      cases fromServer

/-! Steps of the server. -/

theorem Phase.deliver (phase : Phase connected fd peer exchanges) {messages : List (List UInt8)}
    (deliveries : Carries Delivery messages) (receives : messages ≠ [] → connected)
    (free : messages ≠ [] → peer.client.mode.awaits → peer.fromServer ≠ []) :
    Phase connected fd (peer.deliver messages) exchanges := by
  by_cases none : messages = []
  · subst none
    rw [Peer.deliver, List.append_nil]
    exact phase
  cases phase with
  | idle isConnected mode sent delivered asked handled =>
      exact .idle isConnected mode sent (delivered.append deliveries) asked handled
  | asking request mail _ asks _ _ fromServer =>
      exact absurd fromServer (free none asks.awaits)
  | replied request reply mail leaves asks answers toServer fromServer delivered last asked
      handled =>
      refine .replied request reply (mail ++ messages) leaves asks answers toServer ?_
        (delivered.append deliveries) ?_ asked handled
      · rw [Peer.deliver, fromServer, List.cons_append]
      · intro left
        exact absurd (receives none) left
  | ended left =>
      exact absurd (receives none) left

theorem History.deliver (history : History peer exchanges) (messages : List (List UInt8)) :
    History (peer.deliver messages) exchanges := by
  exact ⟨history.transcript, history.obtained, history.shown⟩

theorem History.serve (history : History peer exchanges) (message : Message)
    (rest : List (List UInt8)) (sends : List (Int × List UInt8)) :
    History (peer.serve message rest sends) exchanges := by
  exact ⟨history.transcript, history.obtained, history.shown⟩

theorem Phase.outbox (phase : Phase connected fd peer exchanges) {bytes : List UInt8}
    {rest : List (List UInt8)} (outbox : peer.toServer = bytes :: rest) :
    connected ∧ ∃ message : Message, bytes = message.bytes ∧
      ((Mail message ∧ ∀ sends, Phase connected fd (peer.serve message rest sends) exchanges) ∨
        (Asks peer.client.mode message ∧ ∀ (remains : Prop) (reply : Message),
          (remains ↔ peer.client.mode ≠ .janitor) → Answers message reply →
          Phase remains fd ((peer.serve message rest [(fd, reply.bytes)]).deliver [reply.bytes])
            exchanges)) := by
  cases phase with
  | idle isConnected mode sent delivered asked handled =>
      rw [outbox] at sent
      obtain ⟨⟨message, rfl, mail⟩, behind⟩ := sent.cons
      refine ⟨isConnected, message, rfl, .inl ⟨mail, ?_⟩⟩
      intro sends
      refine .idle isConnected mode behind delivered asked ?_
      rw [Peer.serve, mail.isRequest]
      exact handled
  | asking request mail isConnected asks sent toServer fromServer asked handled =>
      rw [outbox] at toServer
      cases mail with
      | nil =>
          rw [List.nil_append, List.cons.injEq] at toServer
          obtain ⟨rfl, rfl⟩ := toServer
          refine ⟨isConnected, request, rfl, .inr ⟨asks, ?_⟩⟩
          intro remains reply leaves answers
          refine .replied request reply [] leaves asks answers rfl ?_ (.nil _) (fun _ => rfl) asked ?_
          · rw [Peer.deliver, Peer.serve, fromServer, List.nil_append]
          · rw [Peer.deliver, Peer.serve, if_pos asks.isRequest, handled]
            rfl
      | cons first mail =>
          rw [List.cons_append, List.cons.injEq] at toServer
          obtain ⟨rfl, rfl⟩ := toServer
          obtain ⟨⟨message, rfl, typed⟩, behind⟩ := sent.cons
          refine ⟨isConnected, message, rfl, .inl ⟨typed, ?_⟩⟩
          intro sends
          refine .asking request mail isConnected asks behind rfl fromServer asked ?_
          rw [Peer.serve, typed.isRequest]
          exact handled
  | replied request reply mail _ _ _ toServer =>
      rw [outbox] at toServer
      cases toServer
  | ended _ _ toServer =>
      rw [outbox] at toServer
      cases toServer

end

end Chat
