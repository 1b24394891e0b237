import Cpe464.Chat.Listing
import Cpe464.Chat.Session

/-!
Listings from end to end. While nobody leaves and no message comes between a request and its
reply, every listing prints the handles that the server has, all of them and in its order.
-/

namespace Chat

open Bytes Effects Mailbox

def line (reply : Message) : Option (List UInt8) :=
  if reply.flag = 13 then
    reply.text.head?.map fun length => (reply.text.drop 1).take length.toNat
  else none

def Output.line : Output → Option (List UInt8)
  | .handle bytes => some bytes
  | _ => none

def asksListing (fd : Int) : SessionEvent → Bool
  | .command other command => other = fd ∧ command = .list
  | _ => false

/-- Nobody leaves. Requests are only sent while no message is on its way to the client, and the
server forwards no message to a client whose reply it has not sent yet. -/
def Calm (session : Session) (event : SessionEvent) : Prop :=
  match event with
  | .command fd command =>
      command ≠ .exit ∧ (command = .list → (session.peers fd).fromServer = [])
  | .clientReceives fd =>
      (session.peers fd).client.mode.continues → (session.peers fd).fromServer.tail = []
  | .serverReceives fd => ∀ message ∈ (session.peers fd).toServer.head?.bind unpack,
      message.flag = 6 → ∀ connection ∈ session.service.connections,
        Recipient session.service.connections fd message connection.1 →
          (session.peers connection.1).client.mode.awaits →
            (session.peers connection.1).fromServer ≠ []

instance (session : Session) : (event : SessionEvent) → Decidable (Calm session event)
  | .command _ _ => inferInstanceAs (Decidable (_ ∧ _))
  | .clientReceives _ => inferInstanceAs (Decidable (_ → _))
  | .serverReceives _ => inferInstanceAs (Decidable (∀ message ∈ _, _ → _))

inductive Listed (handles : List (List UInt8)) : Mode → Nat → List (List UInt8) → Prop
  | idle (complete : Nat) :
      Listed handles .communicate complete (List.replicate complete handles).flatten
  | asksLength (complete : Nat) : Listed handles .requestListLength (complete + 1)
      (List.replicate complete handles).flatten
  | asksHandle (complete index : Nat) : index < handles.length →
      Listed handles (.requestHandle index handles.length) (complete + 1)
        ((List.replicate complete handles).flatten ++ handles.take index)

/-! Requests with the right replies. -/

def Rightly (handles : List (List UInt8)) (request reply : Message) : Prop :=
  (request.flag = 10 ∧ reply.flag = 11 ∧ reply.text = intText handles.length) ∨
    (request.flag = 12 ∧ ∃ (index : Nat) (handle : List UInt8), request.text = intText index ∧
      handles[index]? = some handle ∧ line reply = some handle)

def Truthful (handles : List (List UInt8)) (record : Message × List (Int × List UInt8)) : Prop :=
  ∃ fd reply, record.2 = [(fd, Message.bytes reply)] ∧ Rightly handles record.1 reply

theorem intText_loads (number : Int) : loadInt (intText number) = some (UInt32.ofInt number) := by
  have loads := loadInt_htonl (UInt32.ofInt number) []
  rwa [List.append_nil] at loads

theorem asInt_ofInt (number : Nat) (small : number < 2 ^ 31) :
    asInt (UInt32.ofInt number) = number := by
  have value := ofInt_toNat number (by omega) (by omega)
  unfold asInt
  split <;> omega

theorem intText_inj {first second : Nat} (small : first < 2 ^ 31) (little : second < 2 ^ 31)
    (same : intText first = intText second) : first = second := by
  have loads := congrArg loadInt same
  rw [intText_loads, intText_loads, Option.some.injEq] at loads
  have numbers := congrArg asInt loads
  rw [asInt_ofInt first small, asInt_ofInt second little] at numbers
  omega

theorem bytes_inj {first second : Message} (same : first.bytes = second.bytes) : first = second := by
  have unpacked := congrArg unpack same
  rwa [unpack_bytes, unpack_bytes, Option.some.injEq] at unpacked

theorem Truthful.exchange {handles : List (List UInt8)} {fd : Int} {exchange : Message × Message}
    (truthful : Truthful handles (answered fd exchange)) :
    Rightly handles exchange.1 exchange.2 := by
  obtain ⟨_, reply, sends, rightly⟩ := truthful
  simp only [answered, List.cons.injEq, Prod.mk.injEq, and_true] at sends
  rwa [bytes_inj sends.2]

section

variable {handles : List (List UInt8)} {request reply : Message}

theorem Rightly.length (rightly : Rightly handles request reply) (flag : request.flag = 10) :
    line reply = none ∧ reply.text = intText handles.length := by
  rcases rightly with ⟨_, answer, text⟩ | ⟨other, _⟩
  · exact ⟨if_neg (by rw [answer]; decide), text⟩
  · exact absurd (flag.symm.trans other) (by decide)

theorem Rightly.handle (rightly : Rightly handles request reply) (few : handles.length < 2 ^ 31)
    {index : Nat} (inside : index < handles.length) (flag : request.flag = 12)
    (text : request.text = intText index) : line reply = some handles[index] := by
  rcases rightly with ⟨other, _⟩ | ⟨_, place, handle, asked, found, answer⟩
  · exact absurd (flag.symm.trans other) (by decide)
  · obtain ⟨bound, same⟩ := List.getElem?_eq_some_iff.mp found
    obtain rfl := intText_inj (by omega) (by omega) (text.symm.trans asked)
    rw [answer, same]

theorem listed_at (complete index : Nat) (reached : index ≤ handles.length) :
    Listed handles (listing index handles.length) (complete + 1)
      ((List.replicate complete handles).flatten ++ handles.take index) := by
  unfold listing
  split
  · exact .asksHandle complete index (by omega)
  · have whole : (List.replicate complete handles).flatten ++ handles.take index =
        (List.replicate (complete + 1) handles).flatten := by
      rw [List.take_of_length_le (by omega), List.replicate_succ', List.flatten_append,
        List.flatten_singleton]
    rw [whole]
    exact .idle (complete + 1)

theorem Transcript.listed (few : handles.length < 2 ^ 31) {exchanges : List (Message × Message)}
    {mode : Mode} (transcript : Transcript exchanges mode)
    (rightly : ∀ exchange ∈ exchanges, Rightly handles exchange.1 exchange.2) :
    Listed handles mode (exchanges.countP fun exchange => exchange.1.flag = 10)
      (exchanges.filterMap fun exchange => line exchange.2) := by
  induction transcript with
  | start => exact .idle 0
  | @length exchanges request reply value before flag answer loads ih =>
      have listed := ih fun exchange member => rightly exchange (List.mem_append_left _ member)
      obtain ⟨silent, text⟩ := (rightly (request, reply) (by simp)).length flag
      rw [text, intText_loads, Option.some.injEq] at loads
      obtain rfl := loads
      have further := listed_at (exchanges.countP fun exchange => exchange.1.flag = 10) 0
        (Nat.zero_le handles.length)
      rw [List.take_zero, List.append_nil] at further
      simp only [List.countP_append, List.countP_singleton, flag, decide_true, if_true,
        List.filterMap_append, List.filterMap_cons, silent, List.filterMap_nil, List.append_nil,
        asInt_ofInt _ few]
      generalize counted : (exchanges.countP fun exchange => exchange.1.flag = 10) = complete
        at listed further ⊢
      generalize printed : (exchanges.filterMap fun exchange => line exchange.2) = lines
        at listed ⊢
      cases listed with
      | idle => exact further
  | @handle exchanges index length request reply before flag text answer ih =>
      have listed := ih fun exchange member => rightly exchange (List.mem_append_left _ member)
      have right := rightly (request, reply) (by simp)
      simp only [List.countP_append, List.countP_singleton, flag, List.filterMap_append,
        List.filterMap_cons, List.filterMap_nil]
      generalize counted : (exchanges.countP fun exchange => exchange.1.flag = 10) = complete
        at listed ⊢
      generalize printed : (exchanges.filterMap fun exchange => line exchange.2) = lines
        at listed ⊢
      cases listed with
      | asksHandle complete index inside =>
          rw [right.handle few inside flag text]
          have further := listed_at complete (index + 1) (by omega : index + 1 ≤ handles.length)
          rw [List.take_succ_eq_append_getElem inside, ← List.append_assoc] at further
          simpa using further
  | @exit exchanges request reply before flag answer ih =>
      rcases rightly (request, reply) (by simp) with ⟨other, _⟩ | ⟨other, _⟩
      · exact absurd (flag.symm.trans other) (by decide)
      · exact absurd (flag.symm.trans other) (by decide)

end

/-! What a client prints and asks. -/

theorem line_other {reply : Message} (other : reply.flag ≠ 13) : line reply = none := if_neg other

theorem handleMessage_prints {client : Client} {message : Message} {turn : Turn}
    (handles : client.handleMessage false message = some turn)
    (running : ∀ exception, turn.client.mode ≠ .failed exception) :
    turn.shown.filterMap Output.line =
      if client.mode = .communicate then [] else (line message).toList := by
  unfold Client.handleMessage at handles
  cases mode : client.mode with
  | communicate =>
      simp only [mode, Client.processMessage] at handles
      split at handles
      · cases handles
        rfl
      · split at handles
        · split at handles <;> cases handles
          rfl
        · cases handles
          rfl
  | confirmHandle =>
      simp only [mode, Client.confirmHandle, Option.some.injEq] at handles
      subst handles
      split at running
      · rename_i flag
        rw [line_other (by rw [flag]; decide), if_pos flag]
        rfl
      · split at running
        · exact absurd rfl (running .handleEx)
        · exact absurd rfl (running .mysteryEx)
  | requestListLength =>
      simp only [mode, Client.receiveListLength, Option.bind_eq_bind,
        Option.bind_eq_some_iff] at handles
      obtain ⟨value, loads, handles⟩ := handles
      split at handles
      · cases handles
        exact absurd rfl (running .listEx)
      · rename_i flag
        rw [ne_eq, not_not] at flag
        cases handles
        rw [line_other (by rw [flag]; decide), listHandles_shown]
        rfl
  | requestHandle index length =>
      simp only [mode, Client.receiveHandle] at handles
      split at handles
      · rename_i flag
        simp only [Option.bind_eq_bind, Option.bind_eq_some_iff] at handles
        obtain ⟨handleLength, head, handles⟩ := handles
        split at handles
        · cases handles
          rw [listHandles_shown, line, if_pos flag, head]
          rfl
        · cases handles
      · rename_i other
        rw [line_other other]
        split at handles
        · cases handles
          rw [listHandles_shown]
          rfl
        · cases handles
          exact absurd rfl (running .listEx)
  | janitor =>
      simp only [mode, Client.receiveExit, Option.some.injEq] at handles
      subst handles
      split at running
      · rename_i flag
        rw [line_other (by rw [flag]; decide), if_pos flag]
        rfl
      · exact absurd rfl (running .exitEx)
  | closed | failed =>
      simp only [mode] at handles
      cases handles

theorem handleMessage_asks {client : Client} {message : Message} {turn : Turn}
    (handles : client.handleMessage false message = some turn) :
    ∀ request ∈ turn.sends.filterMap unpack, request.flag = 12 := by
  intro request member
  cases handleMessage_follows handles with
  | enters mode shown => cases member
  | lists index length shown =>
      unfold Client.listHandles at member
      split at member
      · simp only [Client.requestHandle, Client.post, Client.send, List.filterMap_cons, unpack_bytes,
          List.filterMap_nil, List.mem_singleton] at member
        rw [member]
        rfl
      · cases member

/-! The history of one client. -/

structure Consults (listings : Nat) (peer : Peer) : Prop where
  asked : peer.asked.countP (fun request => request.flag = 10) = listings
  stays : ∀ request ∈ peer.asked, request.flag ≠ 8
  printed : peer.shown.filterMap Output.line = peer.obtained.filterMap line

section

variable {listings : Nat} {peer : Peer}

theorem Consults.turn (consults : Consults listings peer) {turn : Turn} {requests : List Message}
    (asks : (turn.sends.filterMap unpack).filter isRequest = requests)
    (stays : ∀ request ∈ requests, request.flag ≠ 8)
    (silent : turn.shown.filterMap Output.line = []) :
    Consults (listings + requests.countP fun request => request.flag = 10) (peer.turn turn) := by
  constructor
  · rw [Peer.turn, asks, List.countP_append, consults.asked]
  · intro request member
    rw [Peer.turn, asks, List.mem_append] at member
    exact member.elim (consults.stays request) (stays request)
  · rw [Peer.turn, List.filterMap_append, silent, List.append_nil]
    exact consults.printed

theorem Consults.command (consults : Consults listings peer) {command : Command}
    (stays : command ≠ .exit) :
    Consults (listings + if command = .list then 1 else 0)
      (peer.turn (peer.client.processUserInput false command)) := by
  have quiet {turn : Turn} (asks : (turn.sends.filterMap unpack).filter isRequest = [])
      (silent : turn.shown.filterMap Output.line = []) : Consults listings (peer.turn turn) :=
    consults.turn asks (by simp) silent
  have text (toHandle : Handle) (text : List UInt8) :
      Consults listings (peer.turn (peer.client.sendText false toHandle text)) := by
    unfold Client.sendText
    split
    · exact quiet rfl rfl
    · exact quiet (requests_sent _) rfl
  cases command with
  | message destination words => exact text destination.handle words
  | broadcast words => exact text Handle.empty words
  | list =>
      have asks : (((peer.client.processUserInput false .list).sends.filterMap unpack).filter
          isRequest) = [peer.client.fill { Message.new with flag := 10 }] := requests_sent _
      refine consults.turn asks ?_ rfl
      intro request member
      rw [List.mem_singleton.mp member]
      exact (by decide : (10 : UInt8) ≠ 8)
  | exit => exact absurd rfl stays
  | help => exact quiet rfl rfl

theorem Consults.receives (consults : Consults listings peer) {message : Message} {turn : Turn}
    (handles : peer.client.handleMessage false message = some turn)
    (running : ∀ exception, turn.client.mode ≠ .failed exception) (rest : List (List UInt8)) :
    Consults listings ((peer.take message rest).turn turn) := by
  have asks := handleMessage_asks handles
  have prints := handleMessage_prints handles running
  have further (request : Message)
      (member : request ∈ (turn.sends.filterMap unpack).filter isRequest) : request.flag = 12 :=
    asks request (List.mem_of_mem_filter member)
  constructor
  · have none : ((turn.sends.filterMap unpack).filter isRequest).countP
        (fun request => request.flag = 10) = 0 := by
      rw [List.countP_eq_zero]
      intro request member
      simp [further request member]
    simp only [Peer.turn, Peer.take, List.countP_append, none, Nat.add_zero]
    exact consults.asked
  · intro request member
    rcases List.mem_append.mp member with old | new
    · exact consults.stays request old
    · rw [further request new]
      decide
  · simp only [Peer.turn, Peer.take, List.filterMap_append, prints, consults.printed]
    split
    · rw [List.append_nil]
    · rw [List.filterMap_append]
      cases printed : line message <;> simp [printed]

end

/-! The replies of the server. -/

theorem handleAnswer_line {client : HandleBuffer} (short : client.string.length ≤ maxHandleSize)
    (sequenceNumber : UInt32) :
    line { handleAnswer client with sequenceNumber } = some client.string := by
  have length : (UInt8.ofNat client.string.length).toNat = client.string.length := by
    rw [UInt8.toNat_ofNat']
    exact Nat.mod_eq_of_lt (Nat.lt_of_le_of_lt short (by decide))
  change some ((client.string).take (UInt8.ofNat client.string.length).toNat) = some client.string
  rw [length, List.take_length]

theorem Represents.replies [Allocator] {server : Server} {entries : List Entry}
    (represents : Represents server entries)
    (short : ∀ entry ∈ entries, entry.2.length ≤ maxHandleSize) (few : entries.length < 2 ^ 31)
    (fd : Int) {request : Message} (asks : request.flag = 10 ∨ request.flag = 12 ∧
      ∃ index : Nat, index < entries.length ∧ request.text = intText index) :
    ∃ next reply, Returns (processPacket reliable fd (some request.bytes)) ⟨server, []⟩ next
        [(fd, Message.bytes reply)] ∧
      Represents next entries ∧ Rightly (entries.map Prod.snd) request reply := by
  rcases asks with flag | ⟨flag, index, inside, text⟩
  · let answer : Message := { Message.new with flag := 11, text := intText server.numOpen }
    have dispatched : handleMessage reliable fd request request.bytes =
        listLengthResponse reliable fd := by
      simp only [handleMessage, dispatch, flag]
      rfl
    refine ⟨_, { answer with sequenceNumber := server.sequenceNumber }, ?_, represents.numbered,
      .inl ⟨flag, rfl, ?_⟩⟩
    · rw [Returns, processPacket_message (unpack_bytes request), dispatched]
      exact respond_apply reliable fd answer ⟨server, []⟩
    · rw [List.length_map, ← represents.numOpen_eq]
  · obtain ⟨⟨other, handle⟩, found⟩ : ∃ entry, entries[index]? = some entry :=
      ⟨_, List.getElem?_eq_getElem inside⟩
    obtain ⟨client, entry, _, string⟩ := represents.client index other handle found
    have fits : client.string.length ≤ maxHandleSize := by
      rw [string]
      exact short _ (List.mem_of_getElem? found)
    have number : asInt (UInt32.ofInt index) = index := asInt_ofInt index (by omega)
    have requested : requestedIndex request = some (index : Int) := by
      rw [requestedIndex, text, intText_loads, Option.map_some, number]
    have within : ¬((index : Int) < 0 ∨ (index : Int) > server.numOpen) := by
      rw [represents.numOpen_eq]
      omega
    refine ⟨_, { handleAnswer client with sequenceNumber := server.sequenceNumber }, ?_,
      represents.numbered, .inr ⟨flag, index, handle, text, ?_, ?_⟩⟩
    · rw [Returns, processPacket_inside flag requested within entry fits]
      exact respond_apply reliable fd (handleAnswer client) ⟨server, []⟩
    · rw [List.getElem?_map, found, Option.map_some]
    · rw [handleAnswer_line fits, string]

/-! Whole sessions. -/

theorem Listed.asking {handles : List (List UInt8)} {mode : Mode} {complete : Nat}
    {lines : List (List UInt8)} (listed : Listed handles mode.before complete lines)
    {request : Message} (asks : Asks mode request) (stays : request.flag ≠ 8) :
    Listed handles mode (complete + if request.flag = 10 then 1 else 0) lines := by
  cases mode with
  | requestListLength =>
      rw [if_pos (show request.flag = 10 from asks)]
      cases listed with
      | idle => exact .asksLength complete
  | requestHandle index length =>
      rw [if_neg (by rw [asks.1]; decide)]
      exact listed
  | janitor => exact absurd asks stays
  | confirmHandle | communicate | closed | failed => exact asks.elim

structure Informed (connections entries : List Entry) (listings : Int → Nat) (session : Session) :
    Prop where
  orderly : Orderly (Connected connections) session
  unchanged : session.service.connections = connections
  table : Represents session.service.server entries
  consults : ∀ fd, Connected connections fd → Consults (listings fd) (session.peers fd)
  truthful : ∀ fd, Connected connections fd → ∀ record ∈ (session.peers fd).answered,
    Truthful (entries.map Prod.snd) record

section

variable {connections entries : List Entry} {listings : Int → Nat} {session : Session}

theorem Informed.listed (informed : Informed connections entries listings session)
    (few : entries.length < 2 ^ 31) {fd : Int} (participant : Connected connections fd) :
    Listed (entries.map Prod.snd) (session.peers fd).client.mode (listings fd)
      ((session.peers fd).shown.filterMap Output.line) := by
  obtain ⟨exchanges, phase, history⟩ := informed.orderly.tracked fd participant
  obtain ⟨asked, stays, printed⟩ := informed.consults fd participant
  have matched := phase.matched history
  have rightly (exchange : Message × Message) (member : exchange ∈ exchanges) :
      Rightly (entries.map Prod.snd) exchange.1 exchange.2 := by
    have record : answered fd exchange ∈ (session.peers fd).answered :=
      matched.answered.subset (List.mem_map_of_mem member)
    exact (informed.truthful fd participant _ record).exchange
  have listed := history.transcript.listed (by rwa [List.length_map]) rightly
  have lines : (session.peers fd).shown.filterMap Output.line =
      exchanges.filterMap fun exchange => line exchange.2 := by
    rw [printed, history.obtained, List.filterMap_map]
    rfl
  have counts (requests : List Message)
      (same : (session.peers fd).asked = exchanges.map Prod.fst ++ requests) :
      listings fd = (exchanges.countP fun exchange => exchange.1.flag = 10) +
        requests.countP fun request => request.flag = 10 := by
    rw [← asked, same, List.countP_append, List.countP_map]
    rfl
  have waits (request : Message) (asks : Asks (session.peers fd).client.mode request)
      (same : (session.peers fd).asked = exchanges.map Prod.fst ++ [request]) :
      Listed (entries.map Prod.snd) (session.peers fd).client.mode (listings fd)
        ((session.peers fd).shown.filterMap Output.line) := by
    have stay := stays request (by rw [same]; simp)
    rw [lines, counts [request] same, List.countP_singleton]
    simpa only [decide_eq_true_eq] using listed.asking asks stay
  cases phase with
  | idle _ mode _ _ same =>
      rw [mode] at listed ⊢
      rw [lines, counts [] (by rw [same, List.append_nil])]
      exact listed
  | asking request _ _ asks _ _ _ same => exact waits request asks same
  | replied request _ _ _ asks _ _ _ _ _ same => exact waits request asks same
  | ended _ mode =>
      rw [mode] at listed
      generalize exchanges.countP _ = complete at listed
      generalize exchanges.filterMap _ = lines at listed
      cases listed

theorem Informed.settled (informed : Informed connections entries listings session)
    (few : entries.length < 2 ^ 31) {fd : Int} (participant : Connected connections fd)
    (sent : (session.peers fd).toServer = []) (received : (session.peers fd).fromServer = []) :
    (session.peers fd).shown.filterMap Output.line =
      (List.replicate (listings fd) (entries.map Prod.snd)).flatten := by
  obtain ⟨exchanges, phase, history⟩ := informed.orderly.tracked fd participant
  have listed := informed.listed few participant
  have rests : ¬(session.peers fd).client.mode.awaits := by
    intro awaits
    exact (phase.helped awaits).elim (fun busy => busy sent) (fun busy => busy received)
  generalize (session.peers fd).client.mode = mode at listed rests
  generalize (session.peers fd).shown.filterMap Output.line = lines at listed ⊢
  generalize listings fd = count at listed ⊢
  cases listed with
  | idle => rfl
  | asksLength => exact absurd rfl rests
  | asksHandle => exact absurd rfl rests

theorem Informed.asks (informed : Informed connections entries listings session)
    (few : entries.length < 2 ^ 31) {fd : Int} (participant : Connected connections fd)
    {request : Message} (asks : Asks (session.peers fd).client.mode request) :
    request.flag = 10 ∨ request.flag = 12 ∧
      ∃ index : Nat, index < entries.length ∧ request.text = intText index := by
  have listed := informed.listed few participant
  generalize (session.peers fd).client.mode = mode at asks listed
  generalize (session.peers fd).shown.filterMap Output.line = lines at listed
  generalize listings fd = count at listed
  cases listed with
  | idle => exact asks.elim
  | asksLength => exact .inl asks
  | asksHandle complete index inside =>
      rw [List.length_map] at inside
      exact .inr ⟨asks.1, index, inside, asks.2⟩

theorem Informed.undisturbed [Allocator] (informed : Informed connections entries listings session)
    (few : entries.length < 2 ^ 31) {event : SessionEvent} (calm : Calm session event) :
    Undisturbed session event := by
  cases event with
  | command fd command =>
      rintro (list | exit)
      · exact calm.2 list
      · exact absurd exit calm.1
  | clientReceives fd => exact calm
  | serverReceives fd =>
      intro message head
      cases queued : (session.peers fd).toServer with
      | nil =>
          rw [queued] at head
          cases head
      | cons bytes rest =>
          have participant : Connected connections fd :=
            informed.orderly.participant (.inr (by simp [queued]))
          obtain ⟨exchanges, phase, history⟩ := informed.orderly.tracked fd participant
          obtain ⟨connected, sent, rfl, kinds⟩ := phase.outbox queued
          refine ⟨calm message head, ?_⟩
          rw [queued, List.head?_cons, Option.bind_some, unpack_bytes, Option.mem_some_iff] at head
          subst head
          rcases kinds with ⟨mail, _⟩ | ⟨asks, _⟩
          · simp [mail.1]
          · rcases informed.asks few participant asks with other | ⟨flag, index, inside, text⟩
            · simp [other]
            · refine ⟨?_, fun leave => absurd (flag.symm.trans leave) (by decide)⟩
              intro _ value loads same
              rw [text, intText_loads, Option.mem_some_iff] at loads
              rw [← loads, asInt_ofInt index (by omega), informed.table.numOpen_eq] at same
              omega

theorem Informed.update (informed : Informed connections entries listings session) {fd : Int}
    {peer : Peer} {more : Int → Nat} (kept : ∀ other, other ≠ fd → more other = listings other)
    (orderly : Orderly (Connected connections)
      { session with peers := Function.update session.peers fd peer })
    (consults : Connected connections fd → Consults (more fd) peer)
    (answered : peer.answered = (session.peers fd).answered) :
    Informed connections entries more
      { session with peers := Function.update session.peers fd peer } := by
  refine ⟨orderly, informed.unchanged, informed.table, ?_, ?_⟩
  · intro other participant
    by_cases here : other = fd
    · subst here
      simpa only [Function.update_self] using consults participant
    · rw [kept other here]
      simpa only [Function.update_of_ne here] using informed.consults other participant
  · intro other participant
    by_cases here : other = fd
    · subst here
      simpa only [Function.update_self, answered] using informed.truthful other participant
    · simpa only [Function.update_of_ne here] using informed.truthful other participant

theorem Informed.serve [Allocator] (informed : Informed connections entries listings session)
    (few : entries.length < 2 ^ 31) (same : entries.Perm connections) {fd : Int} {next : Session}
    (taken : session.serverReceives fd = some next)
    (orderly : Orderly (Connected connections) next) :
    Informed connections entries listings next := by
  have outbox : Ready session (.serverReceives fd) := ready_of_step taken
  have participant := informed.orderly.participant (.inr outbox)
  obtain ⟨exchanges, phase, history⟩ := informed.orderly.tracked fd participant
  obtain ⟨bytes, rest, queued⟩ := List.exists_cons_of_ne_nil outbox
  obtain ⟨connected, message, rfl, kinds⟩ := phase.outbox queued
  have short : ∀ entry ∈ entries, entry.2.length ≤ maxHandleSize := by
    intro entry member
    refine informed.orderly.consistent.distinct.short entry ?_
    rw [informed.unchanged]
    exact same.mem_iff.mp member
  obtain ⟨_, _, _, _, _, _, _, listed⟩ := informed.orderly.consistent.entry connected
  have served {server : Server} {sends : List (Int × List UInt8)}
      (returns : Returns (processPacket reliable fd (some message.bytes))
        ⟨session.service.server, []⟩ server sends)
      (table : Represents server entries) (stays : message.flag ≠ 1 ∧ message.flag ≠ 8)
      (truthful : isRequest message = true →
        Truthful (entries.map Prod.snd) (message, sends)) :
      Informed connections entries listings next := by
    obtain rfl := Option.some.inj ((serverReceives_eq queued listed returns).symm.trans taken)
    refine ⟨orderly, ?_, table, ?_, ?_⟩
    · simp only [afterMessage, if_neg stays.1, if_neg stays.2, informed.unchanged]
    · intro other inside
      obtain ⟨asked, stays, printed⟩ := informed.consults other inside
      by_cases here : other = fd
      · subst here
        simp only [Function.update_self]
        exact ⟨asked, stays, printed⟩
      · simp only [Function.update_of_ne here]
        exact ⟨asked, stays, printed⟩
    · intro other inside record member
      by_cases here : other = fd
      · subst here
        simp only [Function.update_self, Peer.deliver, Peer.serve] at member
        split at member
        · rcases List.mem_append.mp member with old | new
          · exact informed.truthful other inside record old
          · rw [List.mem_singleton.mp new]
            exact truthful ‹_›
        · exact informed.truthful other inside record member
      · simp only [Function.update_of_ne here] at member
        exact informed.truthful other inside record member
  rcases kinds with ⟨mail, _⟩ | ⟨asks, _⟩
  · have initial : Represents (Machine.mk session.service.server []).server entries :=
      informed.table
    obtain ⟨server, returns, table, _⟩ := initial.messagePacket_returns fd message message.bytes
    have processes : processPacket reliable fd (some message.bytes) ⟨session.service.server, []⟩ =
        messagePacket reliable fd message message.bytes ⟨session.service.server, []⟩ := by
      rw [processPacket_message (unpack_bytes message)]
      simp only [handleMessage, dispatch, mail.1]
      rfl
    refine served (processes.trans returns) table (by simp [mail.1]) ?_
    intro request
    rw [mail.isRequest] at request
    cases request
  · have kinds := informed.asks few participant asks
    obtain ⟨server, reply, returns, table, rightly⟩ := informed.table.replies short few fd kinds
    refine served returns table ?_ fun _ => ⟨fd, reply, rfl, rightly⟩
    rcases kinds with flag | ⟨flag, _⟩ <;> simp [flag]

theorem Informed.step [Allocator] (informed : Informed connections entries listings session)
    (few : entries.length < 2 ^ 31) (same : entries.Perm connections) {event : SessionEvent}
    {next : Session} (calm : Calm session event)
    (taken : Session.step event session = some next) :
    Informed connections entries
      (fun fd => listings fd + if asksListing fd event then 1 else 0) next := by
  obtain ⟨after, moves, orderly⟩ :=
    informed.orderly.step event (ready_of_step taken) (informed.undisturbed few calm)
  obtain rfl := Option.some.inj (moves.symm.trans taken)
  cases event with
  | command fd command =>
      simp only [Session.step, Session.command] at taken
      split at taken
      · obtain rfl := Option.some.inj taken
        refine informed.update ?_ orderly ?_ rfl
        · intro other different
          simp [asksListing, Ne.symm different]
        · intro participant
          have consults := (informed.consults fd participant).command calm.1
          simpa only [asksListing, true_and, decide_eq_true_eq] using consults
      · cases taken
  | clientReceives fd =>
      simp only [Session.step, Session.clientReceives] at taken
      split at taken
      · cases taken
      · rename_i bytes rest queued
        simp only [Option.bind_eq_bind, Option.bind_eq_some_iff] at taken
        obtain ⟨message, unpacks, turn, receives, result⟩ := taken
        obtain rfl := Option.some.inj result
        rw [← bytes_unpack unpacks, receive_bytes] at receives
        refine informed.update (fun _ _ => rfl) orderly ?_ rfl
        intro participant
        obtain ⟨exchanges, phase, history⟩ := orderly.tracked fd participant
        have running := (phase.matched history).running
        simp only [Function.update_self] at running
        exact (informed.consults fd participant).receives receives running rest
  | serverReceives fd => exact informed.serve few same taken orderly

theorem Informed.run [Allocator] (informed : Informed connections entries listings session)
    (few : entries.length < 2 ^ 31) (same : entries.Perm connections)
    {events : List SessionEvent} {final : Session}
    (executed : Transition.run Session.step events session = some final)
    (calm : Transition.Permitted Session.step (fun session event _ => Calm session event) events
      session) :
    Informed connections entries
      (fun fd => listings fd + events.countP (asksListing fd)) final := by
  induction events generalizing session listings with
  | nil =>
      obtain rfl := Option.some.inj executed
      exact informed
  | cons event rest ih =>
      simp only [Transition.run, Option.bind_eq_some_iff] at executed
      obtain ⟨next, taken, remaining⟩ := executed
      obtain ⟨allowed, later⟩ := calm next taken
      have further := ih (informed.step few same allowed taken) remaining later
      simpa only [List.countP_cons, Nat.add_assoc, Nat.add_comm (List.countP _ rest)] using further

end

/-- Whatever order the parties act in, every client has printed all handles of the server in the
order of its table for each listing that its user has asked for, less what is still to come of the
last one, and nothing is to come when nothing of the client is on its way. -/
theorem listings_shown [Allocator] (start session : Session) (events : List SessionEvent)
    (started : Started start) (few : start.service.connections.length < 2 ^ 31)
    (executed : Transition.run Session.step events start = some session)
    (calm : Transition.Permitted Session.step (fun session event _ => Calm session event) events
      start) :
    ∃ entries, Represents start.service.server entries ∧
      entries.Perm start.service.connections ∧ Represents session.service.server entries ∧
      ∀ fd, Connected start.service.connections fd →
        let printed := (session.peers fd).shown.filterMap Output.line
        Listed (entries.map Prod.snd) (session.peers fd).client.mode
          (events.countP (asksListing fd)) printed ∧
        ((session.peers fd).toServer = [] → (session.peers fd).fromServer = [] →
          printed = (List.replicate (events.countP (asksListing fd))
            (entries.map Prod.snd)).flatten) := by
  obtain ⟨distinct, entries, table, same⟩ := started.consistent
  rw [← same.length_eq] at few
  have informed : Informed start.service.connections entries (fun _ => 0) start := by
    refine ⟨started.orderly, rfl, table, ?_, ?_⟩
    · intro fd _
      obtain ⟨client, quiet⟩ := started.quiet fd
      rw [quiet]
      exact ⟨rfl, by simp, rfl⟩
    · intro fd _ record member
      obtain ⟨client, quiet⟩ := started.quiet fd
      rw [quiet] at member
      cases member
  have final := informed.run few same executed calm
  simp only [Nat.zero_add] at final
  exact ⟨entries, table, same, final.table, fun fd participant =>
    ⟨final.listed few participant, final.settled few participant⟩⟩

section

attribute [local instance] roundedBlocks

def togetherEvents : List SessionEvent :=
  [.command 4 .list, .command 5 .list, .serverReceives 5, .serverReceives 4, .clientReceives 4,
    .clientReceives 5, .serverReceives 4, .serverReceives 5, .clientReceives 5, .clientReceives 4,
    .serverReceives 4, .clientReceives 4]

theorem listings_shown_together : ∃ session entries,
    Transition.run Session.step togetherEvents twoClients = some session ∧
      Represents twoClients.service.server entries ∧
      (session.peers 4).shown.filterMap Output.line = entries.map Prod.snd ∧
      Listed (entries.map Prod.snd) (.requestHandle 1 2) 1
        ((session.peers 5).shown.filterMap Output.line) := by
  have runs : (Transition.run Session.step togetherEvents twoClients).map (fun session =>
      ((session.peers 4).toServer, (session.peers 4).fromServer,
        (session.peers 5).client.mode)) = some ([], [], .requestHandle 1 2) := by
    decide +kernel
  have calm : Transition.Permitted Session.step (fun session event _ => Calm session event)
      togetherEvents twoClients := by
    decide +kernel
  obtain ⟨session, executed, same⟩ := Option.map_eq_some_iff.mp runs
  obtain ⟨sent, rest⟩ := Prod.mk.inj same
  obtain ⟨received, mode⟩ := Prod.mk.inj rest
  obtain ⟨entries, table, _, _, shown⟩ := listings_shown twoClients session togetherEvents
    twoClients_started (by decide +kernel) executed calm
  have connected (fd : Int) (member : fd ∈ twoClients.service.connections.map Prod.fst) :
      Connected twoClients.service.connections fd := by
    obtain ⟨connection, inside, rfl⟩ := List.mem_map.mp member
    exact ⟨connection, inside, rfl⟩
  have first := (shown 4 (connected 4 (by decide +kernel))).2 sent received
  have second := (shown 5 (connected 5 (by decide +kernel))).1
  rw [mode] at second
  refine ⟨session, entries, executed, table, first.trans ?_, second⟩
  rw [show togetherEvents.countP (asksListing 4) = 1 from rfl, List.replicate_one,
    List.flatten_singleton]

end

end Chat
