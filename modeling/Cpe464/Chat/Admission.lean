import Cpe464.Chat.Framing
import Cpe464.Chat.Table

/-!
Whether a message that the client admits reaches the server in one piece. The limits on
the handles and on the text are those of the client; the buffer is the server's.
-/

namespace Chat

open Effects

def Command.addressed : Command → Option (Handle × List UInt8)
  | .message destination text => some (destination.handle, text)
  | .broadcast text => some (Handle.empty, text)
  | _ => none

def Addressee (connections : List Entry) (message : Message) (connection : Entry) : Prop :=
  connection ∈ connections ∧ connection.2 ≠ [] ∧
    if message.toHandle.bytes.length = 0 then connection.2 ≠ cString message.fromHandle.bytes
    else connection.2 = cString message.toHandle.bytes

structure Received (receiver : Receiver) (message : Message) (chunks : List (List UInt8)) :
    Prop where
  segments : Segments receiver (written [message]) chunks
  whole : message.bytes.length ≤ receiver.bufferSize → chunks = [message.bytes]

structure Arrives [Allocator] (message : Message) : Prop where
  fits : message.bytes.length ≤ Receiver.server.bufferSize
  dispatched : ∀ chunks, Received .server message chunks →
    dispatched chunks = some [message] ∧
      ∀ service fd, Consistent service → (∃ connection ∈ service.connections, connection.1 = fd) →
        ∃ next sends, Returns (serverReceives reliable fd chunks) ⟨service.server, []⟩ next sends ∧
          ∀ connection, Addressee service.connections message connection →
            (connection.1, message.bytes) ∈ sends

theorem routes_addressee {entries connections : List Entry} (same : entries.Perm connections)
    (distinct : Distinct connections) (server : Server) (fd : Int) (message : Message)
    (bytes : List UInt8) {connection : Entry}
    (addressee : Addressee connections message connection) :
    (connection.1, bytes) ∈ routes server entries fd message bytes := by
  obtain ⟨member, named, meant⟩ := addressee
  have inside := same.mem_iff.mpr member
  unfold routes
  by_cases toAll : message.toHandle.bytes.length = 0
  · rw [if_pos toAll] at meant ⊢
    exact List.mem_map.mpr ⟨connection, List.mem_filter.mpr ⟨inside, by simpa using meant⟩, rfl⟩
  · rw [if_neg toAll] at meant ⊢
    cases found : entries.find? fun entry => entry.2 == cString message.toHandle.bytes with
    | none =>
        have missing := List.find?_eq_none.mp found connection inside
        exact absurd (beq_iff_eq.mpr meant) missing
    | some entry =>
        have string : entry.2 = cString message.toHandle.bytes := by
          simpa using List.find?_some found
        have known := same.mem_iff.mp (List.mem_of_find?_eq_some found)
        rw [distinct.named connection member entry known named (meant.trans string.symm)]
        exact List.mem_singleton.mpr rfl

theorem serverReceives_single [Allocator] {fd : Int} {message : Message} {machine : Machine}
    {next : Server} {sends : List (Int × List UInt8)}
    (handles : Returns (handleMessage reliable fd message message.bytes) machine next sends) :
    Returns (serverReceives reliable fd [message.bytes]) machine next sends := by
  have ends : Returns (serverHandles reliable fd []) ⟨next, machine.sends ++ sends⟩ next [] := by
    rw [Returns, List.append_nil]
    rfl
  have both := handles.andThen ends
  rw [List.append_nil] at both
  have received := serverReceives_bytes reliable fd [message]
  rw [List.map_cons, List.map_nil] at received
  rw [received]
  exact both

theorem serverReceives_whole [Allocator] (fd : Int) {message : Message}
    (flag : message.flag = 6) {service : Service} (consistent : Consistent service) :
    ∃ next sends, Returns (serverReceives reliable fd [message.bytes]) ⟨service.server, []⟩
        next sends ∧
      ∀ connection, Addressee service.connections message connection →
        (connection.1, message.bytes) ∈ sends := by
  obtain ⟨distinct, entries, represents, same⟩ := consistent
  have initial : Represents (Machine.mk service.server []).server entries := represents
  obtain ⟨next, returns, _⟩ := initial.messagePacket_returns fd message message.bytes
  have handles : Returns (handleMessage reliable fd message message.bytes) ⟨service.server, []⟩
      next (routes service.server entries fd message message.bytes) := by
    simp only [handleMessage, dispatch, flag]
    exact returns
  exact ⟨next, _, serverReceives_single handles, fun connection addressee =>
    routes_addressee same distinct service.server fd message message.bytes addressee⟩

theorem arrives_iff [Allocator] {message : Message} (flag : message.flag = 6) :
    Arrives message ↔ message.bytes.length ≤ Receiver.server.bufferSize := by
  constructor
  · exact Arrives.fits
  · intro fits
    refine ⟨fits, ?_⟩
    intro chunks received
    rw [received.whole fits]
    refine ⟨dispatched_bytes [message], ?_⟩
    intro service fd consistent _
    exact serverReceives_whole fd flag consistent

/-- A message that the client admits arrives exactly when the handles and the text together
leave room for eight bytes more, and is never dispatched as one message when they do not. -/
theorem admitted_arrives_iff [Allocator] (client : Client) (command : Command)
    (toHandle : Handle) (text : List UInt8) (addressed : command.addressed = some (toHandle, text))
    (admitted : text.length ≤ maxMessageSize) :
    ∃ message, (client.processUserInput false command).sends = [message.bytes] ∧
      message.flag = 6 ∧ message.toHandle = toHandle ∧ message.fromHandle = client.handle ∧
      message.text = text ++ [0] ∧
      (Arrives message ↔
        client.handle.bytes.length + toHandle.bytes.length + text.length + 8 ≤ bufferSize) ∧
      (bufferSize < client.handle.bytes.length + toHandle.bytes.length + text.length + 8 →
        ∀ chunks, Segments .server (written [message]) chunks →
          dispatched chunks ≠ some [message]) := by
  have turn : client.processUserInput false command = client.sendText false toHandle text := by
    cases command <;> cases addressed <;> rfl
  let message := client.fill { Message.new with flag := 6, toHandle, text := text ++ [0] }
  have length : message.bytes.length =
      client.handle.bytes.length + toHandle.bytes.length + text.length + 8 := by
    have total : (text ++ [0]).length = text.length + 1 := List.length_append
    simp only [bytes_length, message, Client.fill, total]
    omega
  refine ⟨message, ?_, rfl, rfl, rfl, rfl, ?_, ?_⟩
  · rw [turn, Client.sendText, if_neg (Nat.not_lt.mpr admitted)]
    rfl
  · rw [arrives_iff rfl, length]
    rfl
  · intro long chunks segments whole
    have lengths := (dispatched_iff_whole .server [message] chunks segments).1.mp whole
    obtain ⟨chunk, rfl⟩ : ∃ chunk, chunks = [chunk] :=
      List.length_eq_one_iff.mp (by simpa using congrArg List.length lengths)
    have bound := (segments.received chunk List.mem_cons_self).2
    simp only [List.map_cons, List.map_nil, List.cons.injEq, and_true] at lengths
    simp only [Receiver.bufferSize, bufferSize] at bound long
    omega

def namedClient (length : Nat) (short : length < 256) : Client where
  handle := ⟨List.replicate length 97, List.length_replicate.trans_lt short⟩
  sequenceNumber := 0
  mode := .communicate

section

attribute [local instance] roundedBlocks

theorem admitted_arrives_short : ∃ message,
    ((namedClient 8 (by decide)).processUserInput false
      (.broadcast (List.replicate 1000 104))).sends = [message.bytes] ∧ Arrives message := by
  obtain ⟨message, sends, _, _, _, _, arrives, _⟩ := admitted_arrives_iff (namedClient 8 (by decide))
    (.broadcast (List.replicate 1000 104)) Handle.empty (List.replicate 1000 104) rfl
    List.length_replicate.le
  exact ⟨message, sends, arrives.mpr (by rw [List.length_replicate]; decide)⟩

def farHandle : Destination where
  handle := ⟨List.replicate 100 98, by decide⟩
  short := List.length_replicate.le

def longMessage : Message where
  sequenceNumber := 0
  flag := 6
  toHandle := farHandle.handle
  fromHandle := (namedClient 100 (by decide)).handle
  text := List.replicate 1000 8 ++ [0]

/-- The text is admitted, and its end is taken for a request to exit. -/
theorem admitted_cut :
    ((namedClient 100 (by decide)).processUserInput false
      (.message farHandle (List.replicate 1000 8))).sends = [longMessage.bytes] ∧
    ¬Arrives longMessage ∧
    Segments .server (written [longMessage])
      [longMessage.bytes.take 1024, longMessage.bytes.drop 1024] ∧
    ∃ first second : Message, dispatched
        [longMessage.bytes.take 1024, longMessage.bytes.drop 1024] = some [first, second] ∧
      second.flag = 8 := by
  have length : longMessage.bytes.length = 1208 := by decide +kernel
  have first : (longMessage.bytes.take 1024).length = 1024 := by rw [List.length_take, length]; rfl
  have second : (longMessage.bytes.drop 1024).length = 184 := by rw [List.length_drop, length]
  refine ⟨by decide +kernel, ?_, ⟨?_, ?_⟩, { longMessage with text := List.replicate 817 8 }, {
    sequenceNumber := 134744072
    flag := 8
    toHandle := ⟨List.replicate 8 8, by decide⟩
    fromHandle := ⟨List.replicate 8 8, by decide⟩
    text := List.replicate 160 8 ++ [0] }, by decide +kernel, rfl⟩
  · intro arrives
    have fits := arrives.fits
    rw [length] at fits
    exact absurd fits (by decide)
  · simp only [List.flatten_cons, List.flatten_nil, List.append_nil, List.take_append_drop, written,
      List.map_cons, List.map_nil]
  · intro chunk member
    simp only [List.mem_cons, List.not_mem_nil, or_false] at member
    rcases member with same | same <;> rw [same]
    · exact ⟨List.ne_nil_of_length_pos (by omega), first.le⟩
    · exact ⟨List.ne_nil_of_length_pos (by omega), second.le.trans (by decide)⟩

end

end Chat
