import Cpe464.Chat.Session
import Cpe464.Chat.MailCore

/-!
In every session the messages that one user writes to another arrive as they were written, once and
in their order, whatever the clients make of them.
-/

namespace Chat

open Effects Mailbox

/-! What a client sends. -/

structure Letter (handle : Handle) (message : Message) : Prop where
  sender : message.fromHandle = handle
  flag : message.flag = 6 ∨ isRequest message = true

structure Signs (client : Client) (turn : Turn) : Prop where
  handle : turn.client.handle = client.handle
  letters : Carries (Letter client.handle) turn.sends

theorem enter_signs (client : Client) (mode : Mode) (shown : List Output) :
    Signs client (client.enter mode shown) :=
  ⟨rfl, .nil _⟩

theorem post_signs (client : Client) (fails : Bool) (mode : Mode) {message : Message}
    (flag : message.flag = 6 ∨ isRequest message = true) :
    Signs client (client.post fails mode message) := by
  exact ⟨rfl, .singleton ⟨rfl, flag⟩⟩

theorem sendText_signs (client : Client) (fails : Bool) (toHandle : Handle) (text : List UInt8) :
    Signs client (client.sendText fails toHandle text) := by
  rw [Client.sendText]
  split
  · exact enter_signs client _ _
  · exact post_signs client fails _ (.inl rfl)

theorem listHandles_signs (client : Client) (fails : Bool) (index length : Int) :
    Signs client (client.listHandles fails index length) := by
  rw [Client.listHandles]
  split
  · exact post_signs client fails _ (.inr rfl)
  · exact enter_signs client _ _

theorem processUserInput_signs (client : Client) (fails : Bool) (command : Command) :
    Signs client (client.processUserInput fails command) := by
  cases command with
  | message destination text => exact sendText_signs client fails _ text
  | broadcast text => exact sendText_signs client fails _ text
  | list => exact post_signs client fails _ (.inr rfl)
  | exit => exact ⟨rfl, .singleton ⟨rfl, .inr rfl⟩⟩
  | help => exact enter_signs client _ _

theorem handleMessage_signs {client : Client} {fails : Bool} {message : Message} {turn : Turn}
    (handles : client.handleMessage fails message = some turn) : Signs client turn := by
  cases handleMessage_follows handles with
  | enters mode shown => exact enter_signs client mode shown
  | lists index length shown =>
      obtain ⟨handle, letters⟩ := listHandles_signs client fails index length
      exact ⟨handle, letters⟩

theorem receive_signs {client : Client} {fails : Bool} {message : Message} {turn : Turn}
    (receives : client.receive fails (some message.bytes) = some turn) : Signs client turn := by
  rw [receive_bytes] at receives
  exact handleMessage_signs receives

/-! What the server does with it. -/

theorem listRequest_answered [Allocator] {fd : Int} {request : Message} {bytes : List UInt8}
    {machine : Machine} {outcome : Except Exception Unit × Machine} (flag : request.flag = 12)
    (handles : handleMessage reliable fd request bytes machine = some outcome) :
    AnswersListing machine fd request bytes := by
  cases loads : loadInt request.text with
  | none =>
      rw [listRequest_short flag loads] at handles
      cases handles
  | some value =>
      apply listRequest_answers flag loads
      intro inside
      cases entry : machine.server.client (asInt value).toNat with
      | none =>
          rw [listRequest_null flag loads inside entry] at handles
          cases handles
      | some client =>
          refine ⟨client, rfl, ?_⟩
          by_contra long
          rw [listRequest_long flag loads inside entry (Nat.not_le.mp long)] at handles
          cases handles

structure Forwards (connections : List Entry) (message : Message)
    (sends : List (Int × List UInt8)) : Prop where
  open' : ∀ receiver ∈ connections,
    ((addressed sends receiver.1).filterMap unpack).filter (·.flag = 6) =
      if For receiver.2 message then [message] else []
  closed : ∀ fd, ¬Connected connections fd → addressed sends fd = []

theorem reply_forwards {connections : List Entry} {fd : Int} (connected : Connected connections fd)
    {message reply : Message} (request : message.flag ≠ 6) (plain : reply.flag ≠ 6) :
    Forwards connections message [(fd, reply.bytes)] := by
  constructor
  · intro receiver _
    have other : For receiver.2 message = false := by simp [For, request]
    rw [addressed_singleton]
    split
    · simp [unpack_bytes, plain, other]
    · simp [other]
  · intro other left
    rw [addressed_singleton, if_neg]
    rintro rfl
    exact left connected

theorem forwarded_forwards {connections : List Entry} (nodup : (connections.map Prod.fst).Nodup)
    {message : Message} (mail : message.flag = 6) (chosen : List Entry)
    (distinct : (chosen.map Prod.fst).Nodup)
    (recipients : ∀ entry, entry ∈ chosen ↔ entry ∈ connections ∧ For entry.2 message) :
    Forwards connections message (chosen.map fun entry => (entry.1, message.bytes)) := by
  have targets : (chosen.map fun entry => (entry.1, message.bytes)).map Prod.fst =
      chosen.map Prod.fst := by
    rw [List.map_map]
    rfl
  constructor
  · intro receiver inside
    by_cases wanted : For receiver.2 message = true
    · have sent : (receiver.1, message.bytes) ∈ chosen.map fun entry => (entry.1, message.bytes) :=
        List.mem_map.mpr ⟨receiver, (recipients receiver).mpr ⟨inside, wanted⟩, rfl⟩
      rw [addressed_eq_singleton (targets ▸ distinct) sent, if_pos wanted]
      simp [unpack_bytes, mail]
    · have nothing : addressed (chosen.map fun entry => (entry.1, message.bytes)) receiver.1 = [] := by
        apply addressed_eq_nil
        intro send member same
        obtain ⟨entry, isChosen, rfl⟩ := List.mem_map.mp member
        obtain ⟨opened, also⟩ := (recipients entry).mp isChosen
        obtain rfl : entry = receiver := List.inj_on_of_nodup_map nodup opened inside same
        exact wanted also
      rw [nothing, if_neg wanted]
      rfl
  · intro fd left
    apply addressed_eq_nil
    intro send member same
    obtain ⟨entry, isChosen, rfl⟩ := List.mem_map.mp member
    exact left ⟨entry, ((recipients entry).mp isChosen).1, same⟩

theorem routes_forwards {entries connections : List Entry} (same : entries.Perm connections)
    (distinct : Distinct connections) (registered : ∀ connection ∈ connections, connection.2 ≠ [])
    {fd : Int} (connected : Connected connections fd) {message : Message} (mail : message.flag = 6)
    (server : Server) :
    Forwards connections message (routes server entries fd message message.bytes) := by
  have nodup : (entries.map Prod.fst).Nodup := (same.map _).nodup_iff.mpr distinct.nodup
  unfold routes
  by_cases toAll : message.toHandle.bytes.length = 0
  · rw [if_pos toAll]
    apply forwarded_forwards distinct.nodup mail _
    · exact nodup.sublist (List.filter_sublist.map Prod.fst)
    · intro entry
      rw [List.mem_filter, same.mem_iff]
      simp only [For, mail, toAll, decide_true, Bool.true_and, if_true, decide_eq_true_eq]
      exact and_congr_right fun _ => ⟨Ne.symm, Ne.symm⟩
  · rw [if_neg toAll]
    cases found : entries.find? fun entry => entry.2 == cString message.toHandle.bytes with
    | some target =>
        have string : target.2 = cString message.toHandle.bytes := by
          simpa using List.find?_some found
        have opened := same.mem_iff.mp (List.mem_of_find?_eq_some found)
        apply forwarded_forwards distinct.nodup mail [target]
        · exact List.nodup_singleton _
        · intro entry
          simp only [List.mem_singleton, For, mail, toAll, decide_true, Bool.true_and, if_false,
            decide_eq_true_eq, ← string]
          constructor
          · rintro rfl
            exact ⟨opened, rfl⟩
          · rintro ⟨inside, handle⟩
            have one := distinct.named target opened entry inside (registered target opened) handle
            exact List.inj_on_of_nodup_map distinct.nodup inside opened one.symm
    | none =>
        have unknown (receiver : Entry) (inside : receiver ∈ connections) :
            For receiver.2 message = false := by
          have missing := List.find?_eq_none.mp found receiver (same.mem_iff.mpr inside)
          simp only [For, mail, toAll, decide_true, Bool.true_and, if_false, decide_eq_false_iff_not]
          intro handle
          exact missing (by simp [handle])
        constructor
        · intro receiver inside
          rw [unknown receiver inside, addressed_singleton]
          split
          · simp [Server.response, unpack_bytes]
          · simp
        · intro other left
          rw [addressed_singleton, if_neg]
          rintro rfl
          exact left connected

theorem processPacket_forwards [Allocator] {service : Service} (consistent : Consistent service)
    (registered : ∀ connection ∈ service.connections, connection.2 ≠ []) {fd : Int}
    (listed : fd ∈ service.server.openSockets.take service.server.numOpen) {handle : Handle}
    {message : Message} (letter : Letter handle message)
    (closable : message.flag = 8 → service.server.Closable fd) {result : Unit} {machine : Machine}
    (processes : processPacket reliable fd (some message.bytes) ⟨service.server, []⟩ =
      some (.ok result, machine)) :
    Connected service.connections fd ∧
      Forwards service.connections message machine.sends ∧
      Consistent ⟨machine.server, afterMessage service.connections fd message⟩ := by
  obtain ⟨entries, represents, same⟩ := consistent.table
  have connected : Connected service.connections fd := by
    rw [represents.sockets_eq] at listed
    obtain ⟨entry, member, rfl⟩ := List.mem_map.mp listed
    exact ⟨entry, same.mem_iff.mp member, rfl⟩
  have known : (entries.map Prod.fst).Nodup := (same.map _).nodup_iff.mpr consistent.distinct.nodup
  obtain ⟨entry, opened, rfl⟩ := connected
  obtain ⟨index, found⟩ := List.mem_iff_getElem?.mp (same.mem_iff.mpr opened)
  have connected : Connected service.connections entry.1 := ⟨entry, opened, rfl⟩
  have initial : Represents (Machine.mk service.server []).server entries := represents
  have handles := (processPacket_message (unpack_bytes message) reliable entry.1 _).symm.trans
    processes
  have register : message.flag ≠ 1 := by
    rcases letter.flag with mail | request
    · simp [mail]
    · intro flag
      simp [Chat.isRequest, flag] at request
  have after := consistent.distinct.afterMessage entry.1 message fun flag => absurd flag register
  rcases letter.flag with mail | request
  · obtain ⟨next, returns, left, _⟩ :=
      initial.messagePacket_returns entry.1 message message.bytes
    have dispatched : handleMessage reliable entry.1 message message.bytes =
        messagePacket reliable entry.1 message message.bytes := by
      simp only [handleMessage, dispatch, mail]
      rfl
    rw [dispatched, returns, Option.some.injEq, Prod.mk.injEq] at handles
    obtain ⟨-, rfl⟩ := handles
    have stays : afterMessage service.connections entry.1 message = service.connections := by
      simp [afterMessage, mail]
    rw [stays] at after ⊢
    exact ⟨connected, routes_forwards same consistent.distinct registered connected mail _, after,
      entries, left, same⟩
  · obtain ⟨next, reply, entriesAfter, answers, left, changed, returns⟩ :=
      initial.request_returns known found message message.bytes request closable
        fun flag => listRequest_answered flag handles
    have made := (returns reliable).1 rfl
    rw [Returns] at made
    rw [made, Option.some.injEq, Prod.mk.injEq] at handles
    obtain ⟨-, rfl⟩ := handles
    have request' : message.flag ≠ 6 := by
      intro flag
      simp [Chat.isRequest, flag] at request
    have plain : reply.flag ≠ 6 := by
      intro flag
      have shown := answers.plain
      rw [display, if_pos flag] at shown
      cases shown
    exact ⟨connected, reply_forwards connected request' plain, after, entriesAfter, left,
      changed.trans (afterMessage_perm same entry.1 message)⟩

/-! The invariant. -/

@[simp] theorem mailFor_append (handle : List UInt8) (first second : List (List UInt8)) :
    mailFor handle (first ++ second) = mailFor handle first ++ mailFor handle second := by
  rw [mailFor, List.filterMap_append, List.filter_append]
  rfl

theorem mailFor_cons (handle : List UInt8) (message : Message) (rest : List (List UInt8)) :
    mailFor handle (message.bytes :: rest) =
      (if For handle message then [message] else []) ++ mailFor handle rest := by
  rw [mailFor, List.filterMap_cons, unpack_bytes, List.filter_cons]
  split <;> rfl

theorem mailFrom_append (handle : List UInt8) (first second : List Message) :
    mailFrom handle (first ++ second) = mailFrom handle first ++ mailFrom handle second :=
  List.filter_append _ _

theorem mailFrom_filter (handle : List UInt8) (inbox : List Message) :
    mailFrom handle inbox = mailFrom handle (inbox.filter (·.flag = 6)) := by
  rw [mailFrom, mailFrom, List.filter_filter]
  congr 1
  funext message
  by_cases mail : message.flag = 6 <;> simp [From, mail]

structure Delivered (correspondence : Correspondence) (sender receiver : Entry) : Prop where
  all : receiver ∈ correspondence.session.service.connections →
    mailFrom sender.2 (correspondence.session.peers receiver.1).inbox ++
        mailFor receiver.2 (correspondence.session.peers sender.1).toServer =
      mailFor receiver.2 (correspondence.posted sender.1)
  part : mailFrom sender.2 (correspondence.session.peers receiver.1).inbox <+:
    mailFor receiver.2 (correspondence.posted sender.1)

structure Mailed (start : Session) (correspondence : Correspondence) : Prop where
  consistent : Consistent correspondence.session.service
  remaining : correspondence.session.service.connections ⊆ start.service.connections
  signed : ∀ connection ∈ start.service.connections,
    cString (correspondence.session.peers connection.1).client.handle.bytes = connection.2 ∧
      Carries (Letter (correspondence.session.peers connection.1).client.handle)
        (correspondence.session.peers connection.1).toServer
  absent : ∀ fd, ¬Connected start.service.connections fd →
    (correspondence.session.peers fd).client.mode = .closed ∧
      (correspondence.session.peers fd).toServer = []
  known : ∀ fd, ∀ message ∈ (correspondence.session.peers fd).inbox, message.flag = 6 →
    ∃ sender ∈ start.service.connections, cString message.fromHandle.bytes = sender.2
  delivered : ∀ sender ∈ start.service.connections, ∀ receiver ∈ start.service.connections,
    Delivered correspondence sender receiver

theorem Started.mailed {start : Session} (started : Started start) :
    Mailed start ⟨start, fun _ => []⟩ := by
  have inbox (fd : Int) : (start.peers fd).inbox = [] := by
    obtain ⟨client, quiet⟩ := started.quiet fd
    rw [quiet]
    rfl
  have outbox (fd : Int) : (start.peers fd).toServer = [] := by
    obtain ⟨client, quiet⟩ := started.quiet fd
    rw [quiet]
  refine ⟨started.consistent, List.Subset.refl _, ?_, ?_, ?_, ?_⟩
  · intro connection member
    rw [outbox]
    exact ⟨(started.client connection member).2, .nil _⟩
  · intro fd outside
    refine ⟨started.absent fd ?_, outbox fd⟩
    intro connection member same
    exact outside ⟨connection, member, same⟩
  · intro fd message member
    rw [inbox] at member
    cases member
  · intro sender _ receiver _
    constructor
    · intro _
      rw [inbox, outbox]
      rfl
    · rw [inbox]
      exact List.prefix_rfl

section

variable {start : Session} {correspondence : Correspondence}

theorem Mailed.turn (mailed : Mailed start correspondence) {fd : Int}
    (participant : Connected start.service.connections fd) (peer : Peer)
    (client : peer.client = (correspondence.session.peers fd).client)
    (inbox : peer.inbox = (correspondence.session.peers fd).inbox)
    (toServer : peer.toServer = (correspondence.session.peers fd).toServer) {turn : Turn}
    (signs : Signs peer.client turn) :
    Mailed start (correspondence.post fd { correspondence.session with
      peers := Function.update correspondence.session.peers fd (peer.turn turn) }) := by
  let next := correspondence.post fd { correspondence.session with
    peers := Function.update correspondence.session.peers fd (peer.turn turn) }
  -- Only what is under way to the server grows, and with it what has been sent.
  have same (other : Int) : (next.session.peers other).inbox =
      (correspondence.session.peers other).inbox := by
    by_cases here : other = fd
    · subst here
      simp only [next, Correspondence.post, Function.update_self]
      exact inbox
    · simp only [next, Correspondence.post, Function.update_of_ne here]
  have grows (other : Int) : ∃ more,
      (next.session.peers other).toServer =
        (correspondence.session.peers other).toServer ++ more ∧
      next.posted other = correspondence.posted other ++ more ∧
      Carries (Letter (correspondence.session.peers other).client.handle) more := by
    by_cases here : other = fd
    · subst here
      refine ⟨turn.sends, ?_, ?_, client ▸ signs.letters⟩
      · simp only [next, Correspondence.post, Function.update_self, Peer.turn, toServer]
      · simp only [next, Correspondence.post, Function.update_self, Peer.turn, toServer,
          List.drop_left]
    · refine ⟨[], ?_, ?_, .nil _⟩
      · simp only [next, Correspondence.post, Function.update_of_ne here, List.append_nil]
      · simp only [next, Correspondence.post, Function.update_of_ne here, List.append_nil]
  have handle (other : Int) : (next.session.peers other).client.handle =
      (correspondence.session.peers other).client.handle := by
    by_cases here : other = fd
    · subst here
      simp only [next, Correspondence.post, Function.update_self, Peer.turn, signs.handle, client]
    · simp only [next, Correspondence.post, Function.update_of_ne here]
  refine ⟨mailed.consistent, mailed.remaining, ?_, ?_, ?_, ?_⟩
  · intro connection member
    obtain ⟨string, letters⟩ := mailed.signed connection member
    obtain ⟨more, sent, -, further⟩ := grows connection.1
    rw [handle, sent]
    exact ⟨string, letters.append further⟩
  · intro other outside
    have here : other ≠ fd := by
      rintro rfl
      exact outside participant
    simp only [Correspondence.post, Function.update_of_ne here]
    exact mailed.absent other outside
  · intro other message member
    rw [same] at member
    exact mailed.known other message member
  · intro sender sends receiver receives
    obtain ⟨all, part⟩ := mailed.delivered sender sends receiver receives
    obtain ⟨more, sent, posted, -⟩ := grows sender.1
    constructor
    · intro connected
      rw [same, sent, posted, mailFor_append, mailFor_append, ← List.append_assoc, all connected]
    · rw [same, posted, mailFor_append]
      exact part.trans (List.prefix_append _ _)

/-! The peers when the server has handled a message of one of them. -/

def forwarded (peers : Int → Peer) (fd : Int) (message : Message) (rest : List (List UInt8))
    (sends : List (Int × List UInt8)) (other : Int) : Peer :=
  (Function.update peers fd ((peers fd).serve message rest sends) other).deliver
    (addressed sends other)

section

variable (peers : Int → Peer) (fd : Int) (message : Message) (rest : List (List UInt8))
  (sends : List (Int × List UInt8)) (other : Int)

theorem forwarded_inbox : (forwarded peers fd message rest sends other).inbox =
    (peers other).inbox ++ (addressed sends other).filterMap unpack := by
  by_cases here : other = fd
  · subst here
    simp only [forwarded, Function.update_self, Peer.deliver, Peer.serve, Peer.inbox,
      List.filterMap_append, List.append_assoc]
  · simp only [forwarded, Function.update_of_ne here, Peer.deliver, Peer.inbox,
      List.filterMap_append, List.append_assoc]

theorem forwarded_client :
    (forwarded peers fd message rest sends other).client = (peers other).client := by
  by_cases here : other = fd
  · subst here
    simp only [forwarded, Function.update_self, Peer.deliver, Peer.serve]
  · simp only [forwarded, Function.update_of_ne here, Peer.deliver]

theorem forwarded_toServer_self : (forwarded peers fd message rest sends fd).toServer = rest := by
  simp only [forwarded, Function.update_self, Peer.deliver, Peer.serve]

theorem forwarded_toServer_of_ne {other : Int} (here : other ≠ fd) :
    (forwarded peers fd message rest sends other).toServer = (peers other).toServer := by
  simp only [forwarded, Function.update_of_ne here, Peer.deliver]

end

theorem serverReceives_cases [Allocator] {session next : Session} {fd : Int}
    (taken : session.serverReceives fd = some next) :
    ∃ message rest result machine, (session.peers fd).toServer = message.bytes :: rest ∧
      fd ∈ session.service.server.openSockets.take session.service.server.numOpen ∧
      processPacket reliable fd (some message.bytes) ⟨session.service.server, []⟩ =
        some (.ok result, machine) ∧
      next = {
        service := ⟨machine.server, afterMessage session.service.connections fd message⟩
        peers := forwarded session.peers fd message rest machine.sends } := by
  simp only [Session.serverReceives] at taken
  split at taken
  · cases taken
  · rename_i bytes rest queued
    simp only [Option.bind_eq_bind, Option.bind_eq_some_iff] at taken
    obtain ⟨message, unpacks, taken⟩ := taken
    split at taken
    · rename_i listed
      split at taken
      · rename_i result machine processes
        rw [← bytes_unpack unpacks] at queued processes
        exact ⟨message, rest, result, machine, queued, listed, processes,
          (Option.some.inj taken).symm⟩
      · cases taken
    · cases taken

theorem afterMessage_subset {connections : List Entry} {message : Message}
    (register : message.flag ≠ 1) (fd : Int) :
    afterMessage connections fd message ⊆ connections := by
  rw [afterMessage, if_neg register]
  split
  · exact List.filter_subset_self _
  · exact List.Subset.refl _

theorem Forwards.mailFrom {connections : List Entry} {message : Message}
    {sends : List (Int × List UInt8)} (forwards : Forwards connections message sends)
    {receiver : Entry} (opened : receiver ∈ connections) (handle : List UInt8) :
    mailFrom handle ((addressed sends receiver.1).filterMap unpack) =
      if For receiver.2 message ∧ cString message.fromHandle.bytes = handle then [message]
      else [] := by
  rw [mailFrom_filter, forwards.open' receiver opened]
  by_cases wanted : For receiver.2 message = true
  · have mail : message.flag = 6 := by
      simp only [For, Bool.and_eq_true, decide_eq_true_eq] at wanted
      exact wanted.1
    by_cases sender : cString message.fromHandle.bytes = handle
    · simp [Chat.mailFrom, From, wanted, mail, sender]
    · simp [Chat.mailFrom, From, wanted, mail, sender]
  · simp [Chat.mailFrom, wanted]

theorem Mailed.forwards_delivered (mailed : Mailed start correspondence)
    (distinct : Distinct start.service.connections)
    (registered : ∀ connection ∈ start.service.connections, connection.2 ≠ []) {writer : Entry}
    (writes : writer ∈ start.service.connections) {message : Message} {rest : List (List UInt8)}
    (queued : (correspondence.session.peers writer.1).toServer = message.bytes :: rest)
    (origin : cString message.fromHandle.bytes = writer.2)
    {sends : List (Int × List UInt8)}
    (forwards : Forwards correspondence.session.service.connections message sends)
    {service : Service} (remaining : service.connections ⊆
      correspondence.session.service.connections) {sender receiver : Entry}
    (sent : sender ∈ start.service.connections) (received : receiver ∈ start.service.connections) :
    Delivered { correspondence with session :=
      ⟨service, forwarded correspondence.session.peers writer.1 message rest sends⟩ }
      sender receiver := by
  have one {first second : Entry} (firstIn : first ∈ start.service.connections)
      (secondIn : second ∈ start.service.connections) (same : first.1 = second.1) :
      first = second := List.inj_on_of_nodup_map distinct.nodup firstIn secondIn same
  obtain ⟨all, part⟩ := mailed.delivered sender sent receiver received
  have further (opened : receiver ∈ correspondence.session.service.connections) :
      mailFrom sender.2
          (forwarded correspondence.session.peers writer.1 message rest sends receiver.1).inbox ++
        mailFor receiver.2
          (forwarded correspondence.session.peers writer.1 message rest sends sender.1).toServer =
        mailFor receiver.2 (correspondence.posted sender.1) := by
    rw [← all opened, forwarded_inbox, mailFrom_append, forwards.mailFrom opened, List.append_assoc]
    congr 1
    by_cases here : sender.1 = writer.1
    · obtain rfl := one sent writes here
      rw [forwarded_toServer_self, queued, mailFor_cons]
      simp only [origin, and_true]
    · have different : ¬cString message.fromHandle.bytes = sender.2 := by
        rw [origin]
        intro same
        exact here (distinct.named writer writes sender sent (registered writer writes) same).symm
      rw [forwarded_toServer_of_ne _ _ _ _ _ here, if_neg fun both => different both.2]
      rfl
  constructor
  · intro opened
    exact further (remaining opened)
  · by_cases opened : receiver ∈ correspondence.session.service.connections
    · exact ⟨_, further opened⟩
    · have unconnected : ¬Connected correspondence.session.service.connections receiver.1 := by
        rintro ⟨other, inside, same⟩
        exact opened (one (mailed.remaining inside) received same ▸ inside)
      rw [forwarded_inbox, forwards.closed _ unconnected]
      simpa using part

theorem Mailed.forwards (mailed : Mailed start correspondence)
    (distinct : Distinct start.service.connections)
    (registered : ∀ connection ∈ start.service.connections, connection.2 ≠ []) {writer : Entry}
    (writes : writer ∈ start.service.connections) {message : Message} {rest : List (List UInt8)}
    (queued : (correspondence.session.peers writer.1).toServer = message.bytes :: rest)
    (origin : cString message.fromHandle.bytes = writer.2) (register : message.flag ≠ 1)
    {sends : List (Int × List UInt8)} {server : Server}
    (forwards : Forwards correspondence.session.service.connections message sends)
    (consistent : Consistent
      ⟨server, afterMessage correspondence.session.service.connections writer.1 message⟩) :
    Mailed start { correspondence with session := {
      service := ⟨server, afterMessage correspondence.session.service.connections writer.1 message⟩
      peers := forwarded correspondence.session.peers writer.1 message rest sends } } := by
  have remaining := @afterMessage_subset correspondence.session.service.connections _ register writer.1
  refine ⟨consistent, List.Subset.trans remaining mailed.remaining, ?_, ?_, ?_, ?_⟩
  · intro connection member
    obtain ⟨string, letters⟩ := mailed.signed connection member
    rw [forwarded_client]
    refine ⟨string, ?_⟩
    by_cases here : connection.1 = writer.1
    · rw [here, queued] at letters
      rw [here, forwarded_toServer_self]
      exact letters.cons.2
    · rw [forwarded_toServer_of_ne _ _ _ _ _ here]
      exact letters
  · intro fd outside
    have here : fd ≠ writer.1 := by
      rintro rfl
      exact outside ⟨writer, writes, rfl⟩
    rw [forwarded_client, forwarded_toServer_of_ne _ _ _ _ _ here]
    exact mailed.absent fd outside
  · intro fd other member mail
    rw [forwarded_inbox, List.mem_append] at member
    rcases member with old | new
    · exact mailed.known fd other old mail
    · by_cases connected : Connected correspondence.session.service.connections fd
      · obtain ⟨receiver, opened, rfl⟩ := connected
        have kept : other ∈ ((addressed sends receiver.1).filterMap unpack).filter (·.flag = 6) :=
          List.mem_filter.mpr ⟨new, decide_eq_true mail⟩
        rw [forwards.open' receiver opened] at kept
        split at kept
        · obtain rfl := List.mem_singleton.mp kept
          exact ⟨writer, writes, origin⟩
        · cases kept
      · rw [forwards.closed fd connected] at new
        cases new
  · intro sender sent receiver received
    exact mailed.forwards_delivered distinct registered writes queued origin forwards remaining
      sent received

theorem Mailed.serve [Allocator] (mailed : Mailed start correspondence)
    (distinct : Distinct start.service.connections)
    (registered : ∀ connection ∈ start.service.connections, connection.2 ≠ []) {fd : Int}
    {next : Session} (spares : Spares correspondence (.serverReceives fd) correspondence)
    (taken : correspondence.session.serverReceives fd = some next) :
    Mailed start { correspondence with session := next } := by
  obtain ⟨message, rest, result, machine, queued, listed, processes, rfl⟩ :=
    serverReceives_cases taken
  have participant : Connected start.service.connections fd := by
    by_contra outside
    rw [(mailed.absent fd outside).2] at queued
    cases queued
  obtain ⟨writer, writes, rfl⟩ := participant
  obtain ⟨string, letters⟩ := mailed.signed writer writes
  rw [queued] at letters
  obtain ⟨⟨letter, same, isLetter⟩, -⟩ := letters.cons
  obtain rfl : message = letter := by
    have unpacks := unpack_bytes message
    rw [same, unpack_bytes, Option.some.injEq] at unpacks
    exact unpacks.symm
  have origin : cString message.fromHandle.bytes = writer.2 := by rw [isLetter.sender, string]
  have register : message.flag ≠ 1 := by
    rcases isLetter.flag with mail | request
    · simp [mail]
    · intro flag
      simp [Chat.isRequest, flag] at request
  have closable : message.flag = 8 →
      correspondence.session.service.server.Closable writer.1 := by
    apply spares
    rw [queued, List.head?_cons, Option.bind_some, unpack_bytes]
    rfl
  obtain ⟨-, forwards, consistent⟩ := processPacket_forwards mailed.consistent
    (fun connection member => registered _ (mailed.remaining member)) listed isLetter closable
    processes
  exact mailed.forwards distinct registered writes queued origin register forwards consistent

theorem Mailed.step [Allocator] (mailed : Mailed start correspondence)
    (distinct : Distinct start.service.connections)
    (registered : ∀ connection ∈ start.service.connections, connection.2 ≠ [])
    {event : SessionEvent} {next : Correspondence}
    (taken : Correspondence.step event correspondence = some next)
    (spares : Spares correspondence event next) : Mailed start next := by
  simp only [Correspondence.step, Option.bind_eq_bind, Option.bind_eq_some_iff] at taken
  obtain ⟨session, moves, result⟩ := taken
  have participant {fd : Int}
      (running : (correspondence.session.peers fd).client.mode ≠ .closed) :
      Connected start.service.connections fd := by
    by_contra outside
    exact running (mailed.absent fd outside).1
  cases event with
  | command fd command =>
      obtain rfl := Option.some.inj result
      simp only [Session.step, Session.command] at moves
      split at moves
      · rename_i mode
        obtain rfl := Option.some.inj moves
        exact mailed.turn (participant (by simp [mode])) _ rfl rfl rfl
          (processUserInput_signs _ false command)
      · cases moves
  | clientReceives fd =>
      obtain rfl := Option.some.inj result
      have ready := ready_of_step moves
      simp only [Session.step, Session.clientReceives] at moves
      split at moves
      · cases moves
      · rename_i bytes rest queued
        simp only [Option.bind_eq_bind, Option.bind_eq_some_iff] at moves
        obtain ⟨message, unpacks, turn, receives, same⟩ := moves
        obtain rfl := Option.some.inj same
        rw [← bytes_unpack unpacks] at receives
        refine mailed.turn (participant ready.2) ((correspondence.session.peers fd).take message rest)
          rfl ?_ rfl (receive_signs receives)
        simp only [Peer.take, Peer.inbox, queued, List.filterMap_cons, unpacks, List.append_assoc,
          List.singleton_append]
  | serverReceives fd =>
      obtain rfl := Option.some.inj result
      exact mailed.serve distinct registered spares moves

end

section

attribute [local instance] roundedBlocks

end

end Chat
