import Cpe464.Chat.SessionSteps

/-!
Whole sessions: whatever order the clients and the server act in, every client gets the
replies to its own requests, as long as no message comes between.
-/

namespace Chat

open Effects Mailbox

def Connected (connections : List Entry) (fd : Int) : Prop :=
  ∃ connection ∈ connections, connection.1 = fd

/-! Steps of the server on its connections. -/

theorem routes_recipient {entries connections : List Entry} (same : entries.Perm connections)
    {fd : Int} (connected : Connected connections fd) {message : Message} (mail : Mail message)
    (server : Server) (send : Int × List UInt8)
    (member : send ∈ routes server entries fd message message.bytes) :
    Connected connections send.1 ∧ Recipient connections fd message send.1 ∧
      ∃ forwarded : Message, send.2 = forwarded.bytes ∧ Delivery forwarded := by
  unfold routes at member
  unfold Recipient
  by_cases toAll : message.toHandle.bytes.length = 0
  · rw [if_pos toAll] at member ⊢
    obtain ⟨entry, kept, rfl⟩ := List.mem_map.mp member
    obtain ⟨inside, other⟩ := List.mem_filter.mp kept
    have opened := same.mem_iff.mp inside
    exact ⟨⟨entry, opened, rfl⟩, ⟨entry, opened, rfl, by simpa using other⟩, message, rfl,
      .inl mail.1⟩
  · rw [if_neg toAll] at member ⊢
    cases found : entries.find? fun entry => entry.2 == cString message.toHandle.bytes with
    | some entry =>
        rw [found] at member
        obtain rfl := List.mem_singleton.mp member
        have string : entry.2 = cString message.toHandle.bytes := by
          simpa using List.find?_some found
        have opened := same.mem_iff.mp (List.mem_of_find?_eq_some found)
        rw [if_pos ⟨entry, opened, string⟩, ← string]
        exact ⟨⟨entry, opened, rfl⟩, opened, message, rfl, .inl mail.1⟩
    | none =>
        rw [found] at member
        obtain rfl := List.mem_singleton.mp member
        have unknown : ¬∃ connection ∈ connections,
            connection.2 = cString message.toHandle.bytes := by
          rintro ⟨connection, opened, string⟩
          have missing := List.find?_eq_none.mp found connection (same.mem_iff.mpr opened)
          exact missing (by simpa using string)
        rw [if_neg unknown]
        exact ⟨connected, rfl, _, rfl, .inr ⟨rfl, mail.2⟩⟩

theorem Consistent.serves_mail [Allocator] {service : Service} (consistent : Consistent service)
    {fd : Int} (connected : Connected service.connections fd) {message : Message}
    (mail : Mail message) :
    ∃ next sends, Returns (processPacket reliable fd (some message.bytes)) ⟨service.server, []⟩
        next sends ∧
      Consistent ⟨next, service.connections⟩ ∧
      fd ∈ service.server.openSockets.take service.server.numOpen ∧
      ∀ send ∈ sends, Connected service.connections send.1 ∧
        Recipient service.connections fd message send.1 ∧
        ∃ forwarded : Message, send.2 = forwarded.bytes ∧ Delivery forwarded := by
  obtain ⟨entries, index, old, represents, same, known, found, listed⟩ :=
    consistent.entry connected
  have initial : Represents (Machine.mk service.server []).server entries := represents
  obtain ⟨next, returns, after, _⟩ := initial.messagePacket_returns fd message message.bytes
  have processes : processPacket reliable fd (some message.bytes) ⟨service.server, []⟩ =
      messagePacket reliable fd message message.bytes ⟨service.server, []⟩ := by
    rw [processPacket_message (unpack_bytes message)]
    simp only [handleMessage, dispatch, mail.1]
    rfl
  exact ⟨next, _, processes.trans returns, ⟨consistent.distinct, entries, after, same⟩, listed,
    routes_recipient same connected mail service.server⟩

theorem Consistent.serves_request [Allocator] {service : Service}
    (consistent : Consistent service) {fd : Int} (connected : Connected service.connections fd)
    {request : Message}
    (isRequest : isRequest request = true)
    (closable : request.flag = 8 → service.server.Closable fd)
    (listed : request.flag = 12 → ∃ value, loadInt request.text = some value ∧
      asInt value ≠ service.server.numOpen) :
    ∃ next reply, Returns (processPacket reliable fd (some request.bytes)) ⟨service.server, []⟩
        next [(fd, Message.bytes reply)] ∧
      Answers request reply ∧
      Consistent ⟨next, afterMessage service.connections fd request⟩ ∧
      fd ∈ service.server.openSockets.take service.server.numOpen := by
  obtain ⟨entries, index, old, represents, same, known, found, inside⟩ :=
    consistent.entry connected
  have initial : Represents (Machine.mk service.server []).server entries := represents
  obtain ⟨next, reply, after, answers, left, changed, outcome⟩ :=
    initial.request_returns known.nodup found request request.bytes isRequest closable (by
      intro list
      obtain ⟨value, loads, other⟩ := listed list
      exact initial.listRequest_returns known.short list loads other fd request.bytes)
  have register : request.flag ≠ 1 := by
    intro flag
    simp [Chat.isRequest, flag] at isRequest
  refine ⟨next, { reply with sequenceNumber := service.server.sequenceNumber }, ?_, answers,
    ⟨consistent.distinct.afterMessage fd request (fun flag => absurd flag register), after, left,
      changed.trans (afterMessage_perm same fd request)⟩, inside⟩
  exact (processPacket_message (unpack_bytes request) reliable fd _).trans
    ((outcome reliable).1 rfl)

theorem connected_afterMessage {request : Message} (isRequest : isRequest request = true)
    (connections : List Entry) (fd other : Int) :
    Connected (afterMessage connections fd request) other ↔
      Connected connections other ∧ (request.flag = 8 → other ≠ fd) := by
  have register : request.flag ≠ 1 := by
    intro flag
    simp [Chat.isRequest, flag] at isRequest
  rw [afterMessage, if_neg register]
  by_cases leave : request.flag = 8
  · rw [if_pos leave]
    constructor
    · rintro ⟨connection, member, rfl⟩
      obtain ⟨inside, different⟩ := List.mem_filter.mp member
      exact ⟨⟨connection, inside, rfl⟩, fun _ => by simpa using different⟩
    · rintro ⟨⟨connection, inside, rfl⟩, different⟩
      exact ⟨connection, List.mem_filter.mpr ⟨inside, by simpa using different leave⟩, rfl⟩
  · rw [if_neg leave]
    exact ⟨fun connected => ⟨connected, fun flag => absurd flag leave⟩, And.left⟩

/-! Whole sessions. -/

def Tracked (connected : Prop) (fd : Int) (peer : Peer) : Prop :=
  ∃ exchanges, Phase connected fd peer exchanges ∧ History peer exchanges

theorem Tracked.deliver {connected : Prop} {fd : Int} {peer : Peer}
    (tracked : Tracked connected fd peer) {messages : List (List UInt8)}
    (deliveries : Carries Delivery messages) (receives : messages ≠ [] → connected)
    (free : messages ≠ [] → peer.client.mode.awaits → peer.fromServer ≠ []) :
    Tracked connected fd (peer.deliver messages) := by
  obtain ⟨exchanges, phase, history⟩ := tracked
  exact ⟨exchanges, phase.deliver deliveries receives free, history.deliver messages⟩

structure Orderly (participates : Int → Prop) (session : Session) : Prop where
  consistent : Consistent session.service
  known : ∀ fd, Connected session.service.connections fd → participates fd
  tracked : ∀ fd, participates fd →
    Tracked (Connected session.service.connections fd) fd (session.peers fd)
  absent : ∀ fd, ¬participates fd →
    (session.peers fd).client.mode = .closed ∧ (session.peers fd).toServer = []

def Ready (session : Session) : SessionEvent → Prop
  | .command fd _ => (session.peers fd).client.mode = .communicate
  | .clientReceives fd =>
      (session.peers fd).fromServer ≠ [] ∧ (session.peers fd).client.mode ≠ .closed
  | .serverReceives fd => (session.peers fd).toServer ≠ []

section

variable {participates : Int → Prop} {session : Session}

theorem Orderly.update (orderly : Orderly participates session) {fd : Int}
    (participant : participates fd) {peer : Peer}
    (tracked : Tracked (Connected session.service.connections fd) fd peer) :
    Orderly participates { session with peers := Function.update session.peers fd peer } := by
  refine ⟨orderly.consistent, orderly.known, ?_, ?_⟩
  · intro other inside
    by_cases same : other = fd
    · subst same
      simpa only [Function.update_self] using tracked
    · simpa only [Function.update_of_ne same] using orderly.tracked other inside
  · intro other outside
    have different : other ≠ fd := by
      rintro rfl
      exact outside participant
    simpa only [Function.update_of_ne different] using orderly.absent other outside

theorem Orderly.participant (orderly : Orderly participates session) {fd : Int}
    (acts : (session.peers fd).client.mode ≠ .closed ∨ (session.peers fd).toServer ≠ []) :
    participates fd := by
  by_contra outside
  obtain ⟨closed, empty⟩ := orderly.absent fd outside
  rcases acts with running | sent
  · exact running closed
  · exact sent empty

theorem Orderly.command (orderly : Orderly participates session) (fd : Int) (command : Command)
    (ready : (session.peers fd).client.mode = .communicate)
    (quiet : command = .list ∨ command = .exit → (session.peers fd).fromServer = []) :
    ∃ next, session.command fd command = some next ∧ Orderly participates next := by
  have running : (session.peers fd).client.mode ≠ .closed := by simp [ready]
  have participant := orderly.participant (.inl running)
  obtain ⟨exchanges, phase, history⟩ := orderly.tracked fd participant
  obtain ⟨after, known⟩ := phase.command history ready command quiet
  exact ⟨_, if_pos ready, orderly.update participant ⟨exchanges, after, known⟩⟩

theorem Orderly.clientReceives (orderly : Orderly participates session) (fd : Int)
    (inbox : (session.peers fd).fromServer ≠ [])
    (running : (session.peers fd).client.mode ≠ .closed)
    (quiet : (session.peers fd).client.mode.continues →
      (session.peers fd).fromServer.tail = []) :
    ∃ next, session.clientReceives fd = some next ∧ Orderly participates next := by
  have participant := orderly.participant (.inl running)
  obtain ⟨exchanges, phase, history⟩ := orderly.tracked fd participant
  obtain ⟨bytes, rest, queued⟩ := List.exists_cons_of_ne_nil inbox
  rw [queued, List.tail_cons] at quiet
  obtain ⟨message, turn, exchanges, unpacks, receives, after, known⟩ :=
    phase.receive history queued quiet
  refine ⟨_, ?_, orderly.update participant ⟨exchanges, after, known⟩⟩
  simp only [Session.clientReceives, queued, unpacks, receives, Option.bind_eq_bind,
    Option.bind_some]

variable [Allocator]

theorem serverReceives_eq {fd : Int} {message : Message} {rest : List (List UInt8)}
    {next : Server} {sends : List (Int × List UInt8)}
    (outbox : (session.peers fd).toServer = message.bytes :: rest)
    (listed : fd ∈ session.service.server.openSockets.take session.service.server.numOpen)
    (returns : Returns (processPacket reliable fd (some message.bytes))
      ⟨session.service.server, []⟩ next sends) :
    session.serverReceives fd = some {
      service := ⟨next, afterMessage session.service.connections fd message⟩
      peers := fun other => (Function.update session.peers fd
        ((session.peers fd).serve message rest sends) other).deliver (addressed sends other) } := by
  rw [Returns] at returns
  simp only [Session.serverReceives, outbox, unpack_bytes, Option.bind_eq_bind, Option.bind_some,
    if_pos listed, returns, List.nil_append]

theorem Orderly.forwards (orderly : Orderly participates session) {fd : Int}
    (participant : participates fd) {message : Message} {rest : List (List UInt8)}
    (outbox : (session.peers fd).toServer = message.bytes :: rest)
    (connected : Connected session.service.connections fd) (mail : Mail message)
    (served : ∀ sends,
      Tracked (Connected session.service.connections fd) fd
        ((session.peers fd).serve message rest sends))
    (free : ∀ other, Connected session.service.connections other →
      Recipient session.service.connections fd message other →
        (session.peers other).client.mode.awaits → (session.peers other).fromServer ≠ []) :
    ∃ next, session.serverReceives fd = some next ∧ Orderly participates next := by
  obtain ⟨next, sends, returns, consistent, listed, recipients⟩ :=
    orderly.consistent.serves_mail connected mail
  have same : afterMessage session.service.connections fd message =
      session.service.connections := by
    simp [afterMessage, mail.1]
  refine ⟨_, serverReceives_eq outbox listed returns, ?_⟩
  rw [same]
  have arrives (other : Int) (arrived : addressed sends other ≠ []) :
      Connected session.service.connections other ∧
        Recipient session.service.connections fd message other := by
    obtain ⟨bytes, member⟩ := List.exists_mem_of_ne_nil _ arrived
    obtain ⟨isConnected, recipient, _⟩ := recipients _ (mem_addressed.mp member)
    exact ⟨isConnected, recipient⟩
  have deliveries (other : Int) : Carries Delivery (addressed sends other) := by
    intro bytes member
    obtain ⟨_, _, carried⟩ := recipients _ (mem_addressed.mp member)
    exact carried
  have updated := orderly.update participant (served sends)
  have kept (other : Int) :
      (Function.update session.peers fd ((session.peers fd).serve message rest sends)
        other).client = (session.peers other).client ∧
      (Function.update session.peers fd ((session.peers fd).serve message rest sends)
        other).fromServer = (session.peers other).fromServer := by
    by_cases here : other = fd
    · subst here
      rw [Function.update_self]
      exact ⟨rfl, rfl⟩
    · rw [Function.update_of_ne here]
      exact ⟨rfl, rfl⟩
  refine ⟨consistent, orderly.known, ?_, updated.absent⟩
  intro other inside
  apply (updated.tracked other inside).deliver (deliveries other)
  · intro arrived
    exact (arrives other arrived).1
  · intro arrived awaits
    obtain ⟨isConnected, recipient⟩ := arrives other arrived
    rw [(kept other).1] at awaits
    rw [(kept other).2]
    exact free other isConnected recipient awaits

theorem Orderly.answers (orderly : Orderly participates session) {fd : Int}
    (participant : participates fd) {request : Message} {rest : List (List UInt8)}
    {exchanges : List (Message × Message)}
    (outbox : (session.peers fd).toServer = request.bytes :: rest)
    (connected : Connected session.service.connections fd)
    (asks : Asks (session.peers fd).client.mode request)
    (history : History (session.peers fd) exchanges)
    (replies : ∀ (remains : Prop) (reply : Message),
      (remains ↔ (session.peers fd).client.mode ≠ .janitor) → Answers request reply →
      Phase remains fd
        (((session.peers fd).serve request rest [(fd, reply.bytes)]).deliver [reply.bytes]) exchanges)
    (closable : request.flag = 8 → session.service.server.Closable fd)
    (listed : request.flag = 12 → ∃ value, loadInt request.text = some value ∧
      asInt value ≠ session.service.server.numOpen) :
    ∃ next, session.serverReceives fd = some next ∧ Orderly participates next := by
  obtain ⟨next, reply, returns, answers, consistent, inside⟩ :=
    orderly.consistent.serves_request connected asks.isRequest closable listed
  have remaining := connected_afterMessage asks.isRequest session.service.connections fd
  refine ⟨_, serverReceives_eq outbox inside returns, consistent, ?_, ?_, ?_⟩
  · intro other isConnected
    exact orderly.known other ((remaining other).mp isConnected).1
  · intro other inside
    by_cases here : other = fd
    · subst here
      have leaves : Connected (afterMessage session.service.connections other request) other ↔
          (session.peers other).client.mode ≠ .janitor := by
        rw [remaining, ← asks.leaves]
        exact ⟨fun remains leave => remains.2 leave rfl,
          fun stays => ⟨connected, fun leave => absurd leave stays⟩⟩
      simp only [Function.update_self, addressed_singleton, if_true]
      exact ⟨exchanges, replies _ reply leaves answers, (history.serve _ _ _).deliver _⟩
    · have same : Connected (afterMessage session.service.connections fd request) other =
          Connected session.service.connections other :=
        propext ((remaining other).trans ⟨And.left, fun still => ⟨still, fun _ => here⟩⟩)
      simp only [Function.update_of_ne here, addressed_singleton,
        if_neg (Ne.symm here), same, Peer.deliver, List.append_nil]
      exact orderly.tracked other inside
  · intro other outside
    have different : other ≠ fd := by
      rintro rfl
      exact outside participant
    simp only [Function.update_of_ne different]
    exact orderly.absent other outside

theorem Orderly.serverReceives (orderly : Orderly participates session) (fd : Int)
    (outbox : (session.peers fd).toServer ≠ [])
    (undisturbed : Undisturbed session (.serverReceives fd)) :
    ∃ next, session.serverReceives fd = some next ∧ Orderly participates next := by
  have participant := orderly.participant (.inr outbox)
  obtain ⟨exchanges, phase, history⟩ := orderly.tracked fd participant
  obtain ⟨bytes, rest, queued⟩ := List.exists_cons_of_ne_nil outbox
  obtain ⟨connected, message, rfl, sent⟩ := phase.outbox queued
  have head : message ∈ (session.peers fd).toServer.head?.bind unpack := by
    rw [queued, List.head?_cons, Option.bind_some, unpack_bytes]
    rfl
  obtain ⟨free, other, closable⟩ := undisturbed message head
  rcases sent with ⟨mail, served⟩ | ⟨asks, replies⟩
  · refine orderly.forwards participant queued connected mail ?_ ?_
    · intro sends
      exact ⟨exchanges, served sends, history.serve _ _ _⟩
    · rintro _ ⟨connection, inside, rfl⟩ recipient
      exact free mail.1 connection inside recipient
  · refine orderly.answers participant queued connected asks history replies closable ?_
    intro flag
    obtain ⟨value, loads⟩ := asks.loads flag
    exact ⟨value, loads, other flag value loads⟩

theorem Orderly.step (orderly : Orderly participates session) (event : SessionEvent)
    (ready : Ready session event) (undisturbed : Undisturbed session event) :
    ∃ next, Session.step event session = some next ∧ Orderly participates next := by
  cases event with
  | command fd command => exact orderly.command fd command ready undisturbed
  | clientReceives fd => exact orderly.clientReceives fd ready.1 ready.2 undisturbed
  | serverReceives fd => exact orderly.serverReceives fd ready undisturbed

theorem ready_of_step {next : Session} {event : SessionEvent}
    (taken : Session.step event session = some next) : Ready session event := by
  cases event with
  | command fd command =>
      simp only [Session.step, Session.command] at taken
      split at taken
      · assumption
      · cases taken
  | clientReceives fd =>
      simp only [Session.step, Session.clientReceives] at taken
      split at taken
      · cases taken
      · rename_i bytes rest queued
        refine ⟨by simp [queued], ?_⟩
        intro closed
        simp only [Option.bind_eq_bind, Option.bind_eq_some_iff] at taken
        obtain ⟨message, unpacks, turn, receives, _⟩ := taken
        rw [← bytes_unpack unpacks, receive_bytes, Client.handleMessage, closed] at receives
        cases receives
  | serverReceives fd =>
      simp only [Session.step, Session.serverReceives] at taken
      split at taken
      · cases taken
      · rename_i bytes rest queued
        simp [Ready, queued]

end

theorem Started.orderly {session : Session} (started : Started session) :
    Orderly (Connected session.service.connections) session := by
  refine ⟨started.consistent, fun _ => id, ?_, ?_⟩
  · rintro _ ⟨connection, member, rfl⟩
    obtain ⟨mode, _⟩ := started.client connection member
    obtain ⟨client, quiet⟩ := started.quiet connection.1
    rw [quiet] at mode ⊢
    have transcript : Transcript [] client.mode.before := by
      rw [show client.mode = .communicate from mode]
      exact .start
    exact ⟨[], .idle ⟨connection, member, rfl⟩ mode (.nil _) (.nil _) rfl rfl, transcript, rfl, rfl⟩
  · intro fd outside
    obtain ⟨client, quiet⟩ := started.quiet fd
    refine ⟨started.absent fd ?_, by rw [quiet]⟩
    intro connection member same
    exact outside ⟨connection, member, same⟩

/-- The client has got the replies that the server sent for its own requests, one for each and in
their order, and every other message that it received was shown. -/
structure Matched (fd : Int) (peer : Peer) (exchanges : List (Message × Message)) : Prop where
  running : ∀ exception, peer.client.mode ≠ .failed exception
  transcript : Transcript exchanges peer.client.mode.before
  asked : exchanges.map Prod.fst <+: peer.asked
  obtained : peer.obtained = exchanges.map Prod.snd
  answered : exchanges.map (answered fd) <+: peer.answered
  shown : peer.shown.filter Output.isDisplay = peer.received.filterMap display

theorem Phase.matched {connected : Prop} {fd : Int} {peer : Peer}
    {exchanges : List (Message × Message)} (phase : Phase connected fd peer exchanges)
    (history : History peer exchanges) : Matched fd peer exchanges := by
  have records : exchanges.map Prod.fst <+: peer.asked ∧
      exchanges.map (answered fd) <+: peer.answered := by
    cases phase with
    | idle _ _ _ _ asked handled => exact ⟨asked ▸ List.prefix_rfl, handled ▸ List.prefix_rfl⟩
    | asking request _ _ _ _ _ _ asked handled =>
        exact ⟨asked ▸ List.prefix_append _ _, handled ▸ List.prefix_rfl⟩
    | replied _ _ _ _ _ _ _ _ _ _ asked handled =>
        exact ⟨asked ▸ List.prefix_append _ _, handled ▸ List.prefix_append _ _⟩
    | ended _ _ _ _ asked handled => exact ⟨asked ▸ List.prefix_rfl, handled ▸ List.prefix_rfl⟩
  exact ⟨history.transcript.running, history.transcript, records.1, history.obtained, records.2,
    history.shown⟩

theorem Phase.helped {connected : Prop} {fd : Int} {peer : Peer}
    {exchanges : List (Message × Message)} (phase : Phase connected fd peer exchanges)
    (awaits : peer.client.mode.awaits) : peer.toServer ≠ [] ∨ peer.fromServer ≠ [] := by
  cases phase with
  | idle _ mode =>
      rw [mode] at awaits
      cases awaits
  | asking request mail _ _ _ toServer =>
      rw [toServer]
      exact .inl (by simp)
  | replied request reply mail _ _ _ _ fromServer =>
      rw [fromServer]
      exact .inr (by simp)
  | ended _ mode =>
      rw [mode] at awaits
      cases awaits

/-- In every run whose steps disturb no request, the clients get the replies to their own requests
and show the other messages, a client that waits is never stuck, and no step fails. -/
theorem replies_matched [Allocator] (start session : Session) (started : Started start)
    (reach : Transition.Reach (· = start) Session.step
      (fun session event _ => Undisturbed session event) session) :
    (∀ fd, Connected start.service.connections fd →
      (∃ exchanges, Matched fd (session.peers fd) exchanges) ∧
      ((session.peers fd).client.mode.awaits →
        Ready session (.serverReceives fd) ∨ Ready session (.clientReceives fd))) ∧
    ∀ event, Ready session event → Undisturbed session event →
      ∃ next, Session.step event session = some next := by
  have orderly : Orderly (Connected start.service.connections) session := by
    refine reach.invariant ?_ ?_
    · rintro _ rfl
      exact started.orderly
    · intro before event next holds taken undisturbed
      obtain ⟨after, same, kept⟩ := holds.step event (ready_of_step taken) undisturbed
      rw [same, Option.some.injEq] at taken
      exact taken ▸ kept
  refine ⟨?_, ?_⟩
  · intro fd participant
    obtain ⟨exchanges, phase, history⟩ := orderly.tracked fd participant
    refine ⟨⟨exchanges, phase.matched history⟩, ?_⟩
    intro awaits
    refine (phase.helped awaits).imp id ?_
    intro waiting
    refine ⟨waiting, ?_⟩
    intro closed
    rw [closed] at awaits
    cases awaits
  · intro event ready undisturbed
    obtain ⟨next, taken, _⟩ := orderly.step event ready undisturbed
    exact ⟨next, taken⟩

/-! Two clients, with the handles "A" and "B". -/

section

attribute [local instance] roundedBlocks

def registerEvents : List Event :=
  [.accept 4, .accept 5, .packet 4 (registerAs (handleOf 65)).bytes,
    .packet 5 (registerAs (handleOf 66)).bytes]

def twoClients : Session where
  service := (Transition.run (Service.step reliable) registerEvents (Service.start 3)).getD
    (Service.start 3)
  peers fd :=
    let client : Client :=
      if fd = 4 then ⟨handleOf 65, 1, .communicate⟩
      else if fd = 5 then ⟨handleOf 66, 1, .communicate⟩
      else ⟨Handle.empty, 0, .closed⟩
    ⟨client, [], [], [], [], [], [], []⟩

theorem registerEvents_reach : ∃ service,
    Transition.run (Service.step reliable) registerEvents (Service.start 3) = some service ∧
      service.connections = [(4, [65]), (5, [66])] ∧
      Transition.Reach (· = Service.start 3) (Service.step reliable)
        (fun service event _ => Allowed service event) service := by
  have registers : (Transition.run (Service.step reliable) registerEvents (Service.start 3)).map
      Service.connections = some [(4, [65]), (5, [66])] := by
    decide +kernel
  have allowed : Transition.Permitted (Service.step reliable)
      (fun service event _ => Allowed service event) registerEvents (Service.start 3) := by
    decide +kernel
  obtain ⟨service, executed, connections⟩ := Option.map_eq_some_iff.mp registers
  exact ⟨service, executed, connections, .run registerEvents (.start rfl) executed allowed⟩

theorem twoClients_started : Started twoClients := by
  obtain ⟨service, executed, connections, reach⟩ := registerEvents_reach
  have same : twoClients.service = service := by
    rw [twoClients, executed, Option.getD_some]
  constructor
  · rw [same]
    exact reach_consistent reach
  · rw [same, connections]
    decide
  · rw [same, connections]
    decide
  · rw [same, connections]
    intro fd others
    have first : fd ≠ 4 := fun here => others (4, [65]) (by simp) here.symm
    have second : fd ≠ 5 := fun here => others (5, [66]) (by simp) here.symm
    simp only [twoClients, if_neg first, if_neg second]
  · intro fd
    exact ⟨_, rfl⟩

def listedEvents : List SessionEvent :=
  [.command 4 .list, .serverReceives 4, .clientReceives 4, .serverReceives 4,
    .command 5 (.broadcast [104, 105]), .clientReceives 4, .serverReceives 4, .serverReceives 5,
    .clientReceives 4, .clientReceives 4, .command 4 .exit, .serverReceives 4, .clientReceives 4]

theorem replies_matched_listed : ∃ session,
    Transition.run Session.step listedEvents twoClients = some session ∧
      (session.peers 4).obtained.map Message.flag = [11, 13, 13, 9] ∧
      (session.peers 4).client.mode = .closed ∧
      ∃ exchanges, Matched 4 (session.peers 4) exchanges := by
  have served : (Transition.run Session.step listedEvents twoClients).map (fun session =>
      ((session.peers 4).obtained.map Message.flag, (session.peers 4).client.mode)) =
        some ([11, 13, 13, 9], .closed) := by
    decide +kernel
  have undisturbed : Transition.Permitted Session.step
      (fun session event _ => Undisturbed session event) listedEvents twoClients := by
    decide +kernel
  have connected : ∃ connection ∈ twoClients.service.connections, connection.1 = 4 := by
    decide +kernel
  obtain ⟨session, executed, same⟩ := Option.map_eq_some_iff.mp served
  obtain ⟨flags, mode⟩ := Prod.mk.inj same
  have matched := (replies_matched twoClients session twoClients_started
    (.run listedEvents (.start rfl) executed undisturbed)).1 4 connected
  exact ⟨session, executed, flags, mode, matched.1⟩

def disturbedEvents : List SessionEvent :=
  [.command 5 (.broadcast [104, 101, 121]), .command 4 .list, .serverReceives 5,
    .clientReceives 4]

theorem replies_mismatched : Started twoClients ∧ ∃ session,
    Transition.run Session.step disturbedEvents twoClients = some session ∧
      (session.peers 4).client.mode = .failed .listEx ∧
      (session.peers 4).received.filterMap display ≠ [] ∧ (session.peers 4).shown = [] ∧
      ¬∃ exchanges, Matched 4 (session.peers 4) exchanges := by
  have served : (Transition.run Session.step disturbedEvents twoClients).map (fun session =>
      ((session.peers 4).client.mode, (session.peers 4).received.filterMap display,
        (session.peers 4).shown)) =
        some (.failed .listEx, [.message [66] [104, 101, 121, 0]], []) := by
    decide +kernel
  obtain ⟨session, executed, same⟩ := Option.map_eq_some_iff.mp served
  obtain ⟨mode, same⟩ := Prod.mk.inj same
  obtain ⟨received, shown⟩ := Prod.mk.inj same
  refine ⟨twoClients_started, session, executed, mode, by simp [received], shown, ?_⟩
  rintro ⟨exchanges, matched⟩
  exact matched.running _ mode

end

end Chat
