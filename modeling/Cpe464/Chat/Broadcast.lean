import Cpe464.Chat.LobbyCore
import Cpe464.Chat.Session

/-!
Broadcasts and the clients that are not registered yet. A broadcast reaches every connection
with another handle, and an accepted connection has the empty one until it registers.
-/

namespace Chat

open Effects Mailbox

/-! One broadcast. -/

def OtherClient (connections : List Entry) (fd recipient : Int) : Prop :=
  recipient ≠ fd ∧ ∃ connection ∈ connections, connection.1 = recipient ∧ connection.2 ≠ []

instance (connections : List Entry) (fd recipient : Int) :
    Decidable (OtherClient connections fd recipient) :=
  inferInstanceAs (Decidable (_ ∧ _))

def BroadcastsTo [Allocator] (service : Service) (fd : Int) (message : Message) : Prop :=
  ∃ next sends, Returns (processPacket reliable fd (some message.bytes)) ⟨service.server, []⟩ next
      sends ∧
    ∀ recipient, addressed sends recipient =
      if OtherClient service.connections fd recipient then [message.bytes] else []

theorem Consistent.broadcast_returns [Allocator] {service : Service}
    (consistent : Consistent service) (fd : Int) {message : Message} (flag : message.flag = 6)
    (toAll : message.toHandle.bytes.length = 0) :
    ∃ next sends, Returns (processPacket reliable fd (some message.bytes)) ⟨service.server, []⟩
        next sends ∧
      Consistent ⟨next, service.connections⟩ ∧ (sends.map Prod.fst).Nodup ∧
      ∀ send, send ∈ sends ↔ send.2 = message.bytes ∧ ∃ connection ∈ service.connections,
        connection.1 = send.1 ∧ connection.2 ≠ cString message.fromHandle.bytes := by
  obtain ⟨distinct, entries, represents, same⟩ := consistent
  have initial : Represents (Machine.mk service.server []).server entries := represents
  obtain ⟨next, returns, after, _⟩ := initial.messagePacket_returns fd message message.bytes
  have processes : processPacket reliable fd (some message.bytes) ⟨service.server, []⟩ =
      messagePacket reliable fd message message.bytes ⟨service.server, []⟩ := by
    rw [processPacket_message (unpack_bytes message)]
    simp only [handleMessage, dispatch, flag]
    rfl
  rw [routes, if_pos toAll] at returns
  refine ⟨next, _, processes.trans returns, ⟨distinct, entries, after, same⟩, ?_, ?_⟩
  · have nodup : (entries.map Prod.fst).Nodup := (same.map _).nodup_iff.mpr distinct.nodup
    rw [List.map_map]
    exact nodup.sublist (List.filter_sublist.map Prod.fst)
  · rintro ⟨recipient, bytes⟩
    simp only [List.mem_map, List.mem_filter, decide_eq_true_eq, Prod.mk.injEq]
    constructor
    · rintro ⟨entry, ⟨inside, other⟩, rfl, rfl⟩
      exact ⟨rfl, entry, same.mem_iff.mp inside, rfl, other⟩
    · rintro ⟨rfl, connection, member, rfl, other⟩
      exact ⟨connection, ⟨same.mem_iff.mpr member, other⟩, rfl, rfl⟩

theorem Consistent.broadcastsTo_iff [Allocator] {service : Service}
    (consistent : Consistent service) {fd : Int} {name : List UInt8}
    (registered : (fd, name) ∈ service.connections)
    (named : name ≠ []) {message : Message} (flag : message.flag = 6)
    (toAll : message.toHandle.bytes.length = 0) (own : cString message.fromHandle.bytes = name) :
    BroadcastsTo service fd message ↔ ∀ connection ∈ service.connections, connection.2 ≠ [] := by
  obtain ⟨next, sends, returns, _, nodup, sent⟩ := consistent.broadcast_returns fd flag toAll
  rw [own] at sent
  have distinct := consistent.distinct
  constructor
  · rintro ⟨other, calls, same, right⟩ connection member unnamed
    obtain ⟨_, rfl⟩ : next = other ∧ sends = calls := by
      simpa [Returns] using returns.symm.trans same
    have wrongly : message.bytes ∈ addressed sends connection.1 := by
      rw [mem_addressed, sent]
      exact ⟨rfl, connection, member, rfl, fun equal => named (equal.symm.trans unnamed)⟩
    rw [right, if_neg] at wrongly
    · cases wrongly
    · rintro ⟨_, second, inside, sameFd, registeredToo⟩
      have equal := List.inj_on_of_nodup_map distinct.nodup inside member sameFd
      exact registeredToo (equal ▸ unnamed)
  · intro settled
    refine ⟨next, sends, returns, ?_⟩
    intro recipient
    by_cases client : OtherClient service.connections fd recipient
    · obtain ⟨different, connection, member, rfl, _⟩ := client
      rw [if_pos ⟨different, connection, member, rfl, settled connection member⟩]
      apply addressed_eq_singleton nodup
      rw [sent]
      refine ⟨rfl, connection, member, rfl, ?_⟩
      intro equal
      exact different (distinct.named connection member _ registered
        (settled connection member) equal)
    · rw [if_neg client]
      apply addressed_eq_nil
      intro send member equal
      obtain ⟨_, connection, inside, sameFd, other⟩ := (sent send).mp member
      refine client ⟨?_, connection, inside, sameFd.trans equal, settled connection inside⟩
      rintro rfl
      have entry := List.inj_on_of_nodup_map distinct.nodup inside registered (sameFd.trans equal)
      exact other (congrArg Prod.snd entry)

/-! The stages of a connection. -/

def Announcement (message : Message) : Prop := message.flag = 6

def AnnouncedBy (handle : Handle) (message : Message) : Prop :=
  message.flag = 6 ∧ message.toHandle.bytes.length = 0 ∧ message.fromHandle = handle

def AnswersClient (flag : UInt8) (client : Client) (reply : Message) : Prop :=
  reply.flag = flag ∧ reply.toHandle = client.handle

inductive Stage (connections : List Entry) (fd : Int) (call : Call) : Prop
  | registering (request : Message) (waits : call.client.mode = .confirmHandle)
      (flag : request.flag = 1) (own : request.fromHandle = call.client.handle)
      (short : call.client.handle.bytes.length ≤ maxHandleSize)
      (unnamed : (fd, []) ∈ connections) (toServer : call.toServer = [request.bytes])
      (fromServer : call.fromServer = []) (received : call.received = [])
  | confirmed (reply : Message) (mail : List (List UInt8))
      (waits : call.client.mode = .confirmHandle) (answers : AnswersClient 2 call.client reply)
      (named : (fd, cString call.client.handle.bytes) ∈ connections)
      (registered : cString call.client.handle.bytes ≠ []) (toServer : call.toServer = [])
      (fromServer : call.fromServer = reply.bytes :: mail) (announced : Carries Announcement mail)
      (received : call.received = [])
  | running (reply : Message) (earlier : List Message) (runs : call.client.mode = .communicate)
      (answers : AnswersClient 2 call.client reply)
      (named : (fd, cString call.client.handle.bytes) ∈ connections)
      (registered : cString call.client.handle.bytes ≠ [])
      (sent : Carries (AnnouncedBy call.client.handle) call.toServer)
      (announced : Carries Announcement call.fromServer)
      (received : call.received = reply :: earlier)

inductive Refused (call : Call) : Prop
  | replied (reply : Message) (waits : call.client.mode = .confirmHandle)
      (answers : AnswersClient 3 call.client reply) (toServer : call.toServer = [])
      (fromServer : call.fromServer = [reply.bytes]) (received : call.received = [])
  | ended (reply : Message) (failed : call.client.mode = .failed .handleEx)
      (answers : AnswersClient 3 call.client reply) (toServer : call.toServer = [])
      (fromServer : call.fromServer = []) (received : call.received = [reply])

/-- Only the latest connection of a descriptor may still be open. -/
def Tracks (connections : List Entry) (fd : Int) : List Call → Prop
  | [] => ¬Connected connections fd
  | call :: earlier => (Stage connections fd call ∨ (Refused call ∧ ¬Connected connections fd)) ∧
      ∀ call ∈ earlier, Refused call

section

variable {connections : List Entry} {fd : Int} {call : Call}

theorem Stage.connected (stage : Stage connections fd call) : Connected connections fd := by
  cases stage with
  | registering _ _ _ _ _ unnamed => exact ⟨_, unnamed, rfl⟩
  | confirmed _ _ _ _ named => exact ⟨_, named, rfl⟩
  | running _ _ _ _ named => exact ⟨_, named, rfl⟩

theorem Connected.keeps {after : List Entry} {changed : Int}
    (keeps : KeepsOthers changed connections after) (other : fd ≠ changed) :
    Connected after fd ↔ Connected connections fd := by
  constructor
  · rintro ⟨entry, member, rfl⟩
    exact ⟨entry, (keeps entry other).mp member, rfl⟩
  · rintro ⟨entry, member, rfl⟩
    exact ⟨entry, (keeps entry other).mpr member, rfl⟩

theorem Stage.keeps {after : List Entry} {changed : Int}
    (keeps : KeepsOthers changed connections after) (other : fd ≠ changed)
    (stage : Stage connections fd call) : Stage after fd call := by
  cases stage with
  | registering request waits flag own short unnamed toServer fromServer received =>
      exact .registering request waits flag own short ((keeps _ other).mpr unnamed) toServer
        fromServer received
  | confirmed reply mail waits answers named registered toServer fromServer announced received =>
      exact .confirmed reply mail waits answers ((keeps _ other).mpr named) registered toServer
        fromServer announced received
  | running reply earlier runs answers named registered sent announced received =>
      exact .running reply earlier runs answers ((keeps _ other).mpr named) registered sent
        announced received

theorem Tracks.keeps {after : List Entry} {changed : Int} {calls : List Call}
    (keeps : KeepsOthers changed connections after) (other : fd ≠ changed)
    (tracks : Tracks connections fd calls) : Tracks after fd calls := by
  cases calls with
  | nil => exact fun connected => tracks ((Connected.keeps keeps other).mp connected)
  | cons call earlier =>
      refine ⟨?_, tracks.2⟩
      rcases tracks.1 with stage | ⟨refused, closed⟩
      · exact .inl (stage.keeps keeps other)
      · exact .inr ⟨refused, fun connected => closed ((Connected.keeps keeps other).mp connected)⟩

theorem Stage.deliver (stage : Stage connections fd call) {messages : List (List UInt8)}
    (announced : Carries Announcement messages) (settled : (fd, []) ∉ connections) :
    Stage connections fd (call.deliver messages) := by
  cases stage with
  | registering _ _ _ _ _ unnamed => exact absurd unnamed settled
  | confirmed reply mail waits answers named registered toServer fromServer before received =>
      refine .confirmed reply (mail ++ messages) waits answers named registered toServer ?_
        (before.append announced) received
      rw [Call.deliver, fromServer, List.cons_append]
  | running reply earlier runs answers named registered sent before received =>
      exact .running reply earlier runs answers named registered sent (before.append announced)
        received

theorem deliverLatest_nil (calls : List Call) : deliverLatest [] calls = calls := by
  cases calls with
  | nil => rfl
  | cons call earlier => simp only [deliverLatest, Call.deliver, List.append_nil]

theorem Tracks.deliver {calls : List Call} (tracks : Tracks connections fd calls)
    {messages : List (List UInt8)} (announced : Carries Announcement messages)
    (settled : (fd, []) ∉ connections) (receives : messages ≠ [] → Connected connections fd) :
    Tracks connections fd (deliverLatest messages calls) := by
  by_cases nothing : messages = []
  · rw [nothing, deliverLatest_nil]
    exact tracks
  have connected := receives nothing
  cases calls with
  | nil => exact absurd connected tracks
  | cons call earlier =>
      rcases tracks.1 with stage | ⟨_, closed⟩
      · exact ⟨.inl (stage.deliver announced settled), tracks.2⟩
      · exact absurd connected closed

theorem Stage.receive (stage : Stage connections fd call) {bytes : List UInt8}
    {rest : List (List UInt8)} (queued : call.fromServer = bytes :: rest) :
    ∃ message turn, unpack bytes = some message ∧
      call.client.receive false (some bytes) = some turn ∧
      Stage connections fd ((call.take message rest).turn turn) := by
  cases stage with
  | registering _ _ _ _ _ _ _ fromServer =>
      rw [fromServer] at queued
      cases queued
  | confirmed reply mail waits answers named registered toServer fromServer announced received =>
      rw [fromServer, List.cons.injEq] at queued
      obtain ⟨rfl, rfl⟩ := queued
      refine ⟨reply, call.client.enter .communicate [], unpack_bytes reply, ?_, ?_⟩
      · rw [receive_bytes, Client.handleMessage, waits]
        exact congrArg some (if_pos answers.1)
      · refine .running reply [] rfl answers named registered ?_ announced ?_
        · simp only [Call.turn, Call.take, toServer, Client.enter, List.append_nil]
          exact Carries.nil _
        · simp only [Call.turn, Call.take, received, List.nil_append]
  | running reply earlier runs answers named registered sent announced received =>
      rw [queued] at announced
      obtain ⟨⟨message, rfl, flag⟩, later⟩ := announced.cons
      refine ⟨message, call.client.enter .communicate [.message message.fromHandle.bytes message.text],
        unpack_bytes message, ?_, ?_⟩
      · rw [receive_bytes, Client.handleMessage, runs]
        exact if_pos flag
      · refine .running reply (earlier ++ [message]) rfl answers named registered ?_ later ?_
        · simpa only [Call.turn, Call.take, Client.enter, List.append_nil] using sent
        · simp only [Call.turn, Call.take, received, List.cons_append]

theorem Refused.receive (refused : Refused call) {bytes : List UInt8}
    {rest : List (List UInt8)} (queued : call.fromServer = bytes :: rest) :
    ∃ message turn, unpack bytes = some message ∧
      call.client.receive false (some bytes) = some turn ∧
      Refused ((call.take message rest).turn turn) := by
  cases refused with
  | replied reply waits answers toServer fromServer received =>
      rw [fromServer, List.cons.injEq] at queued
      obtain ⟨rfl, rfl⟩ := queued
      refine ⟨reply, call.client.fail .handleEx, unpack_bytes reply, ?_, ?_⟩
      · rw [receive_bytes, Client.handleMessage, waits]
        have other : reply.flag ≠ 2 := by
          rw [answers.1]
          decide
        simp only [Client.confirmHandle, if_neg other, if_pos answers.1]
      · refine .ended reply rfl answers ?_ rfl ?_
        · simp only [Call.turn, Call.take, toServer, Client.fail, Client.enter, List.append_nil]
        · simp only [Call.turn, Call.take, received, List.nil_append]
  | ended _ _ _ _ fromServer =>
      rw [fromServer] at queued
      cases queued

theorem Stage.broadcast (stage : Stage connections fd call)
    (ready : call.client.mode = .communicate) (text : List UInt8) :
    Stage connections fd (call.turn (call.client.processUserInput false (.broadcast text))) := by
  cases stage with
  | registering _ waits => simp [waits] at ready
  | confirmed _ _ waits => simp [waits] at ready
  | running reply earlier runs answers named registered sent announced received =>
      simp only [Client.processUserInput, Client.sendText]
      split
      · refine .running reply earlier rfl answers named registered ?_ announced received
        simpa only [Call.turn, Client.enter, List.append_nil] using sent
      · refine .running reply earlier rfl answers named registered ?_ announced received
        exact sent.append (Carries.singleton ⟨rfl, rfl, rfl⟩)

end

/-! Runs of the server and its clients. -/

structure Greets (lobby : Lobby) : Prop where
  consistent : Consistent lobby.service
  tracks : ∀ fd, Tracks lobby.service.connections fd (lobby.calls fd)

theorem Consistent.serves_registration [Allocator] {service : Service}
    (consistent : Consistent service) {fd : Int} (connected : Connected service.connections fd)
    {request : Message}
    (flag : request.flag = 1) (named : 1 ≤ request.fromHandle.bytes.length)
    (short : request.fromHandle.bytes.length ≤ maxHandleSize)
    (closable : ¬Free service.connections (cString request.fromHandle.bytes) →
      service.server.Closable fd) :
    ∃ next, Returns (processPacket reliable fd (some request.bytes)) ⟨service.server, []⟩ next
        [(fd, service.server.response (registration service.connections request.fromHandle))] ∧
      Consistent ⟨next, afterMessage service.connections fd request⟩ := by
  obtain ⟨entries, index, old, represents, same, known, found, _⟩ := consistent.entry connected
  have initial : Represents (Machine.mk service.server []).server entries := represents
  obtain ⟨next, after, returns, left, changed⟩ :=
    initial.initialPacket_returns known.nodup found request named
      (fun taken => closable (fun free => taken ((free_perm same _).mpr free)))
  have dispatched : handleMessage reliable fd request request.bytes =
      initialPacket reliable fd request := by
    simp only [handleMessage, dispatch, flag]
    rfl
  have answer : registration entries request.fromHandle =
      registration service.connections request.fromHandle := by
    simp only [registration, free_perm same]
  have table : after.Perm (afterMessage service.connections fd request) := by
    refine changed.trans (.trans (.of_eq ?_) (afterMessage_perm same fd request))
    rw [afterMessage, if_pos flag]
  refine ⟨next, ?_, consistent.distinct.afterMessage fd request (fun _ => short), after, left, table⟩
  rw [Returns, processPacket_message (unpack_bytes request), dispatched, ← answer]
  exact returns reliable (.inr rfl)

section

variable {lobby next : Lobby} {fd : Int}

theorem Greets.broadcast (greets : Greets lobby) (text : List UInt8)
    (taken : lobby.broadcast fd text = some next) : Greets next := by
  rw [Lobby.broadcast] at taken
  have before := greets.tracks fd
  cases calls : lobby.calls fd with
  | nil => simp [calls] at taken
  | cons call earlier =>
      rw [calls] at before
      simp only [calls] at taken
      split at taken
      · rename_i ready
        obtain rfl := Option.some.inj taken
        refine ⟨greets.consistent, ?_⟩
        intro other
        by_cases same : other = fd
        · subst same
          simp only [Function.update_self]
          refine ⟨.inl ?_, before.2⟩
          rcases before.1 with stage | ⟨refused, _⟩
          · exact stage.broadcast ready text
          · cases refused with
            | replied _ waits => simp [waits] at ready
            | ended _ failed => simp [failed] at ready
        · simpa only [Function.update_of_ne same] using greets.tracks other
      · cases taken

theorem Greets.clientReceives (greets : Greets lobby) (age : Nat)
    (taken : lobby.clientReceives fd age = some next) : Greets next := by
  simp only [Lobby.clientReceives, Option.bind_eq_bind, Option.bind_eq_some_iff] at taken
  obtain ⟨call, found, taken⟩ := taken
  have before := greets.tracks fd
  cases queued : call.fromServer with
  | nil => simp [queued] at taken
  | cons bytes rest =>
      simp only [queued, Option.bind_eq_some_iff, Option.some.injEq] at taken
      obtain ⟨message, unpacks, turn, receives, rfl⟩ := taken
      refine ⟨greets.consistent, ?_⟩
      intro other
      by_cases same : other = fd
      · subst same
        simp only [Function.update_self]
        cases calls : lobby.calls other with
        | nil => simp [calls] at found
        | cons latest earlier =>
            rw [calls] at found before
            have refusedCase (refused : Refused call) :
                Refused ((call.take message rest).turn turn) := by
              obtain ⟨known, same, defined, reacts, after⟩ := refused.receive queued
              rw [unpacks, Option.some.injEq] at defined
              rw [receives, Option.some.injEq] at reacts
              rw [defined, reacts]
              exact after
            cases age with
            | zero =>
                obtain rfl := Option.some.inj found
                rw [List.set_cons_zero]
                refine ⟨?_, before.2⟩
                rcases before.1 with stage | ⟨refused, closed⟩
                · obtain ⟨known, same, defined, reacts, after⟩ := stage.receive queued
                  rw [unpacks, Option.some.injEq] at defined
                  rw [receives, Option.some.injEq] at reacts
                  rw [defined, reacts]
                  exact .inl after
                · exact .inr ⟨refusedCase refused, closed⟩
            | succ age =>
                rw [List.set_cons_succ]
                refine ⟨before.1, ?_⟩
                intro past member
                rcases List.mem_or_eq_of_mem_set member with old | rfl
                · exact before.2 past old
                · exact refusedCase (before.2 call (List.mem_of_getElem? found))
      · simpa only [Function.update_of_ne same] using greets.tracks other

variable [Allocator]

theorem Greets.accept (greets : Greets lobby) (handle : Handle)
    (room : lobby.service.server.numOpen + 2 ≠ lobby.service.server.capacity)
    (taken : lobby.accept fd handle = some next) : Greets next := by
  rw [Lobby.accept] at taken
  split at taken
  · rename_i guard
    obtain ⟨short, valid, fresh⟩ := guard
    obtain ⟨service, accepts, consistent⟩ :=
      greets.consistent.serves (.accept fd) ⟨valid, fresh, room⟩ trivial
    simp only [accepts, Option.bind_eq_bind, Option.bind_some, Option.some.injEq] at taken
    subst taken
    have connections : service.connections = lobby.service.connections ++ [(fd, [])] := by
      rw [Service.step, Option.map_eq_some_iff] at accepts
      obtain ⟨_, _, rfl⟩ := accepts
      rfl
    have keeps : KeepsOthers fd lobby.service.connections service.connections := by
      intro entry other
      rw [connections, List.mem_append, List.mem_singleton]
      constructor
      · rintro (member | rfl)
        · exact member
        · exact absurd rfl other
      · exact .inl
    refine ⟨consistent, ?_⟩
    intro other
    by_cases same : other = fd
    · subst same
      simp only [Function.update_self]
      have before := greets.tracks other
      have closed : ¬Connected lobby.service.connections other := by
        rintro ⟨entry, member, equal⟩
        exact fresh entry member equal
      refine ⟨.inl (.registering _ rfl rfl rfl short ?_ rfl rfl rfl), ?_⟩
      · rw [connections]
        exact List.mem_append_right _ (List.mem_singleton.mpr rfl)
      · cases calls : lobby.calls other with
        | nil => simp
        | cons call earlier =>
            rw [calls] at before
            intro past member
            rcases List.mem_cons.mp member with rfl | older
            · rcases before.1 with stage | ⟨refused, _⟩
              · exact absurd stage.connected closed
              · exact refused
            · exact before.2 past older
    · simp only [Function.update_of_ne same]
      exact (greets.tracks other).keeps keeps same
  · cases taken

theorem Lobby.serverReceives_eq {call : Call} {earlier : List Call} {message : Message}
    {rest : List (List UInt8)} {server : Server} {sends : List (Int × List UInt8)}
    (calls : lobby.calls fd = call :: earlier) (queued : call.toServer = message.bytes :: rest)
    (returns : Returns (processPacket reliable fd (some message.bytes)) ⟨lobby.service.server, []⟩
      server sends) (taken : lobby.serverReceives fd = some next) :
    next = {
      service := ⟨server, afterMessage lobby.service.connections fd message⟩
      calls := fun other => deliverLatest (addressed sends other)
        (Function.update lobby.calls fd ({ call with toServer := rest } :: earlier) other) } := by
  rw [Returns, List.nil_append] at returns
  simp only [Lobby.serverReceives, calls, queued, unpack_bytes, returns, Option.bind_eq_bind,
    Option.bind_some] at taken
  split at taken
  · exact (Option.some.inj taken).symm
  · cases taken

theorem Greets.serverRegisters (greets : Greets lobby) {call : Call} {earlier : List Call}
    {request : Message} (calls : lobby.calls fd = call :: earlier)
    (waits : call.client.mode = .confirmHandle) (flag : request.flag = 1)
    (own : request.fromHandle = call.client.handle)
    (short : call.client.handle.bytes.length ≤ maxHandleSize)
    (unnamed : (fd, []) ∈ lobby.service.connections) (toServer : call.toServer = [request.bytes])
    (fromServer : call.fromServer = []) (received : call.received = [])
    (closable : Departs lobby.service.connections request → lobby.service.server.Closable fd)
    (taken : lobby.serverReceives fd = some next) : Greets next := by
  have named : 1 ≤ request.fromHandle.bytes.length := by
    by_contra nameless
    have fails : processPacket reliable fd (some request.bytes) ⟨lobby.service.server, []⟩ = none := by
      rw [processPacket_message (unpack_bytes request)]
      simp only [handleMessage, dispatch, flag]
      exact initialPacket_nameless (List.length_eq_zero_iff.mp (by omega))
    simp [Lobby.serverReceives, calls, toServer, unpack_bytes, fails] at taken
  obtain ⟨server, returns, consistent⟩ := greets.consistent.serves_registration ⟨_, unnamed, rfl⟩
    flag named (own ▸ short) (fun known => closable (.inr ⟨flag, known⟩))
  rw [Lobby.serverReceives_eq calls toServer returns taken]
  refine ⟨consistent, ?_⟩
  intro other
  by_cases same : other = fd
  · subst same
    have before := greets.tracks other
    rw [calls] at before
    simp only [addressed_singleton, if_true, Function.update_self, deliverLatest, Call.deliver,
      fromServer, List.nil_append]
    refine ⟨?_, before.2⟩
    rw [afterMessage, if_pos flag]
    by_cases free : Free lobby.service.connections (cString request.fromHandle.bytes)
    · rw [if_pos free, own]
      rw [own] at free
      have member : (other, cString call.client.handle.bytes) ∈
          rename lobby.service.connections other (cString call.client.handle.bytes) :=
        List.mem_map.mpr ⟨_, unnamed, if_pos rfl⟩
      exact .inl (.confirmed _ [] waits ⟨if_pos free, rfl⟩ member free.1 rfl rfl (Carries.nil _)
        received)
    · rw [if_neg free]
      refine .inr ⟨.replied _ waits ⟨if_neg free, own⟩ rfl rfl received, ?_⟩
      rintro ⟨entry, member, equal⟩
      have left := (List.mem_filter.mp member).2
      simp [equal] at left
  · simp only [addressed_singleton, if_neg (Ne.symm same), Function.update_of_ne same,
      deliverLatest_nil]
    exact (greets.tracks other).keeps keepsOthers_afterMessage same

theorem Greets.serverBroadcasts (greets : Greets lobby) {call : Call} {earlier : List Call}
    {message : Message} {rest : List (List UInt8)} (calls : lobby.calls fd = call :: earlier)
    (stage : Stage lobby.service.connections fd { call with toServer := rest })
    (announced : AnnouncedBy call.client.handle message)
    (toServer : call.toServer = message.bytes :: rest)
    (settled : ∀ connection ∈ lobby.service.connections, connection.2 ≠ [])
    (taken : lobby.serverReceives fd = some next) : Greets next := by
  obtain ⟨flag, toAll, _⟩ := announced
  obtain ⟨server, sends, returns, consistent, _, sent⟩ :=
    greets.consistent.broadcast_returns fd flag toAll
  have unchanged : afterMessage lobby.service.connections fd message =
      lobby.service.connections := by
    simp [afterMessage, flag]
  rw [Lobby.serverReceives_eq calls toServer returns taken, unchanged]
  refine ⟨consistent, ?_⟩
  intro other
  have tracks : Tracks lobby.service.connections other
      (Function.update lobby.calls fd ({ call with toServer := rest } :: earlier) other) := by
    have before := greets.tracks other
    by_cases same : other = fd
    · subst same
      rw [calls] at before
      rw [Function.update_self]
      exact ⟨.inl stage, before.2⟩
    · rwa [Function.update_of_ne same]
  apply tracks.deliver
  · intro bytes member
    exact ⟨message, ((sent _).mp (mem_addressed.mp member)).1, flag⟩
  · intro unnamed
    exact settled _ unnamed rfl
  · intro receives
    obtain ⟨bytes, member⟩ := List.exists_mem_of_ne_nil _ receives
    obtain ⟨_, connection, inside, equal, _⟩ := (sent _).mp (mem_addressed.mp member)
    exact ⟨connection, inside, equal⟩

theorem Greets.serverReceives (greets : Greets lobby)
    (settled : Settled lobby (.serverReceives fd) next)
    (taken : lobby.serverReceives fd = some next) : Greets next := by
  have before := greets.tracks fd
  cases calls : lobby.calls fd with
  | nil => simp [Lobby.serverReceives, calls] at taken
  | cons call earlier =>
      rw [calls] at before
      have waiting : call.toServer ≠ [] := by
        intro nothing
        simp [Lobby.serverReceives, calls, nothing] at taken
      rcases before.1 with stage | ⟨refused, _⟩
      · cases stage with
        | registering request waits flag own short unnamed toServer fromServer received =>
            have nextIs : lobby.nextMessage fd = some request := by
              simp only [Lobby.nextMessage, calls, toServer, List.head?_cons, Option.bind_some,
                unpack_bytes]
            exact greets.serverRegisters calls waits flag own short unnamed toServer fromServer
              received (settled request nextIs).2 taken
        | confirmed _ _ _ _ _ _ toServer => exact absurd toServer waiting
        | running reply others runs answers named registered sent announced received =>
            obtain ⟨bytes, rest, queued⟩ := List.exists_cons_of_ne_nil waiting
            rw [queued] at sent
            obtain ⟨⟨message, rfl, broadcast⟩, later⟩ := sent.cons
            have nextIs : lobby.nextMessage fd = some message := by
              simp only [Lobby.nextMessage, calls, queued, List.head?_cons, Option.bind_some,
                unpack_bytes]
            have remaining : Stage lobby.service.connections fd { call with toServer := rest } :=
              .running reply others runs answers named registered later announced received
            exact greets.serverBroadcasts calls remaining broadcast queued
              ((settled message nextIs).1 broadcast.1) taken
      · cases refused with
        | replied _ _ _ toServer => exact absurd toServer waiting
        | ended _ _ _ toServer => exact absurd toServer waiting

theorem Greets.step (greets : Greets lobby) (event : LobbyEvent)
    (taken : lobby.step event = some next) (settled : Settled lobby event next) : Greets next := by
  cases event with
  | accept fd handle => exact greets.accept handle settled taken
  | broadcast fd text => exact greets.broadcast text taken
  | clientReceives fd age => exact greets.clientReceives age taken
  | serverReceives fd => exact greets.serverReceives settled taken

end

theorem start_greets (answeringMachine : Int) : Greets (Lobby.start answeringMachine) := by
  refine ⟨start_consistent answeringMachine, ?_⟩
  rintro fd ⟨connection, member, _⟩
  cases member

def FirstAnswered (call : Call) : Prop :=
  (∀ first ∈ call.received.head?,
    (first.flag = 2 ∨ first.flag = 3) ∧ first.toHandle = call.client.handle) ∧
  call.client.mode ≠ .failed .mysteryEx

instance (call : Call) : Decidable (FirstAnswered call) := by
  unfold FirstAnswered
  infer_instance

theorem Refused.firstAnswered {call : Call} (refused : Refused call) : FirstAnswered call := by
  cases refused with
  | replied _ waits _ _ _ received => simp [FirstAnswered, received, waits]
  | ended reply failed answers _ _ received =>
      simp [FirstAnswered, received, failed, answers.1, answers.2]

theorem Stage.firstAnswered {connections : List Entry} {fd : Int} {call : Call}
    (stage : Stage connections fd call) : FirstAnswered call := by
  cases stage with
  | registering _ waits _ _ _ _ _ _ received => simp [FirstAnswered, received, waits]
  | confirmed _ _ waits _ _ _ _ _ _ received => simp [FirstAnswered, received, waits]
  | running reply _ runs answers _ _ _ _ received =>
      simp [FirstAnswered, received, runs, answers.1, answers.2]

/-- In every reachable state a broadcast of a registered client is right exactly when every
connection is registered, and no handle is moved into a block that is too small; in every run in
which both are so whenever it matters, every client gets the answer to its registration first. -/
theorem broadcast_settled [Allocator] (answeringMachine : Int) :
    (∀ service, Transition.Reach (· = Service.start answeringMachine) (Service.step reliable)
        (fun service event _ => Allowed service event) service →
      (∀ event, ¬Movable service event → Service.step reliable event service = none) ∧
      ∀ fd name, (fd, name) ∈ service.connections → name ≠ [] → ∀ message : Message,
        message.flag = 6 → message.toHandle.bytes.length = 0 →
        cString message.fromHandle.bytes = name →
        (BroadcastsTo service fd message ↔
          ∀ connection ∈ service.connections, connection.2 ≠ [])) ∧
    ∀ lobby, Transition.Reach (· = Lobby.start answeringMachine) Lobby.step Settled lobby →
      ∀ fd, ∀ call ∈ lobby.calls fd, FirstAnswered call := by
  constructor
  · intro service reach
    have consistent := reach_consistent reach
    refine ⟨fun event stuck => consistent.undefined stuck, ?_⟩
    intro fd name registered named message flag toAll own
    exact consistent.broadcastsTo_iff registered named flag toAll own
  · intro lobby reach fd call member
    have greets : Greets lobby := by
      apply reach.invariant
      · rintro _ rfl
        exact start_greets answeringMachine
      · intro state event next before taken settled
        exact before.step event taken settled
    have tracks := greets.tracks fd
    cases calls : lobby.calls fd with
    | nil =>
        rw [calls] at member
        cases member
    | cons latest earlier =>
        rw [calls] at member tracks
        rcases List.mem_cons.mp member with rfl | older
        · rcases tracks.1 with stage | ⟨refused, _⟩
          · exact stage.firstAnswered
          · exact refused.firstAnswered
        · exact (tracks.2 call older).firstAnswered

/-! Two clients, with the handles "A" and "B". -/

section

attribute [local instance] roundedBlocks

def settledEvents : List LobbyEvent :=
  [.accept 4 (handleOf 65), .serverReceives 4, .clientReceives 4 0, .accept 5 (handleOf 66),
    .serverReceives 5, .broadcast 4 [104, 105], .serverReceives 4, .clientReceives 5 0,
    .clientReceives 5 0]

theorem broadcast_settled_twoClients :
    (∃ service, service.connections = [(4, [65]), (5, [66])] ∧
      BroadcastsTo service 4 { Message.new with flag := 6, fromHandle := handleOf 65 }) ∧
    ∃ lobby, Transition.run Lobby.step settledEvents (Lobby.start 3) = some lobby ∧
      (lobby.calls 5).map (fun call => call.received.map Message.flag) = [[2, 6]] ∧
      ∀ call ∈ lobby.calls 5, FirstAnswered call := by
  obtain ⟨broadcasts, greets⟩ := broadcast_settled 3
  constructor
  · obtain ⟨service, _, connections, reach⟩ := registerEvents_reach
    refine ⟨service, connections,
      ((broadcasts service reach).2 4 [65] ?_ (by decide) _ rfl rfl rfl).mpr ?_⟩
    · rw [connections]
      decide
    · rw [connections]
      decide
  · have served : (Transition.run Lobby.step settledEvents (Lobby.start 3)).map (fun lobby =>
        (lobby.calls 5).map fun call => call.received.map Message.flag) = some [[2, 6]] := by
      decide +kernel
    have settled : Transition.Permitted Lobby.step Settled settledEvents (Lobby.start 3) := by
      decide +kernel
    obtain ⟨lobby, executed, flags⟩ := Option.map_eq_some_iff.mp served
    exact ⟨lobby, executed, flags,
      greets lobby (.run settledEvents (.start rfl) executed settled) 5⟩

def unsettledEvents : List LobbyEvent :=
  [.accept 4 (handleOf 65), .serverReceives 4, .clientReceives 4 0, .accept 5 (handleOf 66),
    .broadcast 4 [104, 105], .serverReceives 4, .clientReceives 5 0]

theorem broadcast_unsettled : ∃ lobby,
    Transition.run Lobby.step unsettledEvents (Lobby.start 3) = some lobby ∧
      (lobby.calls 5).map (fun call => (call.client.mode, call.received.map Message.flag)) =
        [(.failed .mysteryEx, [6])] ∧
      ¬∀ call ∈ lobby.calls 5, FirstAnswered call := by
  have served : (Transition.run Lobby.step unsettledEvents (Lobby.start 3)).map (fun lobby =>
      (lobby.calls 5).map fun call => (call.client.mode, call.received.map Message.flag)) =
        some [(.failed .mysteryEx, [6])] := by
    decide +kernel
  obtain ⟨lobby, executed, outcome⟩ := Option.map_eq_some_iff.mp served
  refine ⟨lobby, executed, outcome, ?_⟩
  intro answered
  obtain ⟨call, calls, modes⟩ := List.map_eq_singleton_iff.mp outcome
  rw [calls] at answered
  exact (answered call List.mem_cons_self).2 (Prod.mk.inj modes).1

end

end Chat
