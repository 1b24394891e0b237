import Cpe464.Chat.ClientSteps

/-!
Messages on a connection. TCP keeps the bytes in order, but cuts and joins them as it
likes, and both programs take the result of one `recv` for one message.
-/

namespace Chat

open Effects

inductive Receiver
  | server
  | client

def Receiver.bufferSize : Receiver → Nat
  | .server => 1024
  | .client => 2000

def written (messages : List Message) : List UInt8 := (messages.map Message.bytes).flatten

structure Segments (receiver : Receiver) (stream : List UInt8) (chunks : List (List UInt8)) :
    Prop where
  joined : chunks.flatten = stream
  received : ∀ chunk ∈ chunks, chunk ≠ [] ∧ chunk.length ≤ receiver.bufferSize

def dispatched (chunks : List (List UInt8)) : Option (List Message) := chunks.mapM unpack

def serverReceives [Allocator] (fails : Int → Bool) (fd : Int) (chunks : List (List UInt8)) :
    Handler Unit :=
  chunks.forM fun chunk => processPacket fails fd (some chunk)

def serverHandles [Allocator] (fails : Int → Bool) (fd : Int) (messages : List Message) :
    Handler Unit :=
  messages.forM fun message => handleMessage fails fd message message.bytes

def turns {Input : Type} (react : Client → Input → Option Turn) :
    List Input → Client → Option (List Turn)
  | [], _ => some []
  | input :: rest, client => do
      let turn ← react client input
      let later ← turns react rest turn.client
      some (turn :: later)

def clientReceives (fails : Bool) : List (List UInt8) → Client → Option (List Turn) :=
  turns fun client chunk => client.receive fails (some chunk)

def clientHandles (fails : Bool) : List Message → Client → Option (List Turn) :=
  turns fun client message => client.handleMessage fails message

theorem dispatched_bytes (messages : List Message) :
    dispatched (messages.map Message.bytes) = some messages := by
  induction messages with
  | nil => rfl
  | cons message rest ih =>
      rw [dispatched] at ih
      rw [List.map_cons, dispatched, List.mapM_cons, unpack_bytes, ih]
      rfl

theorem bytes_dispatched {chunks : List (List UInt8)} {messages : List Message}
    (taken : dispatched chunks = some messages) : messages.map Message.bytes = chunks := by
  induction chunks generalizing messages with
  | nil =>
      rw [dispatched, List.mapM_nil, Option.pure_def, Option.some.injEq] at taken
      subst taken
      rfl
  | cons chunk rest ih =>
      simp only [dispatched, List.mapM_cons, Option.bind_eq_bind, Option.bind_eq_some_iff,
        Option.pure_def, Option.some.injEq] at taken
      obtain ⟨message, unpacks, others, remaining, rfl⟩ := taken
      rw [List.map_cons, bytes_unpack unpacks, ih remaining]

theorem serverReceives_bytes [Allocator] (fails : Int → Bool) (fd : Int)
    (messages : List Message) :
    serverReceives fails fd (messages.map Message.bytes) = serverHandles fails fd messages := by
  induction messages with
  | nil => rfl
  | cons message rest ih =>
      have first : processPacket fails fd (some message.bytes) =
          handleMessage fails fd message message.bytes := by
        funext machine
        exact processPacket_message (unpack_bytes message) fails fd machine
      simp only [serverReceives, serverHandles, List.forM_eq_forM] at ih ⊢
      rw [List.map_cons, List.forM_cons, List.forM_cons, first, ih]

theorem clientReceives_bytes (fails : Bool) (messages : List Message) (client : Client) :
    clientReceives fails (messages.map Message.bytes) client =
      clientHandles fails messages client := by
  induction messages generalizing client with
  | nil => rfl
  | cons message rest ih =>
      simp only [clientReceives, clientHandles] at ih
      simp only [clientReceives, clientHandles, List.map_cons, turns, receive_bytes, ih]

/-- The messages that were written are dispatched, in order and each with its own bytes, exactly
when every `recv` returns as many bytes as the next message has. In any case each result of
`recv` is handled as one message that is made of exactly its bytes. -/
theorem dispatched_iff_whole [Allocator] (receiver : Receiver) (messages : List Message)
    (chunks : List (List UInt8)) (segments : Segments receiver (written messages) chunks) :
    (dispatched chunks = some messages ↔
      chunks.map List.length = messages.map fun message => message.bytes.length) ∧
    ∀ parts, dispatched chunks = some parts → parts.map Message.bytes = chunks ∧
      (∀ fails fd, serverReceives fails fd chunks = serverHandles fails fd parts) ∧
      ∀ fails client, clientReceives fails chunks client = clientHandles fails parts client := by
  refine ⟨⟨?_, ?_⟩, ?_⟩
  · intro taken
    rw [← bytes_dispatched taken, List.map_map]
    rfl
  · intro lengths
    have whole : chunks = messages.map Message.bytes := by
      refine List.eq_iff_flatten_eq.mpr ⟨segments.joined, ?_⟩
      rw [lengths, List.map_map]
      rfl
    rw [whole]
    exact dispatched_bytes messages
  · intro parts taken
    have same := bytes_dispatched taken
    refine ⟨same, ?_, ?_⟩
    · intro fails fd
      rw [← same, serverReceives_bytes]
    · intro fails client
      rw [← same, clientReceives_bytes]

def greeting : Message := { Message.new with flag := 6, text := [104, 105, 0] }

def farewell : Message := { Message.new with sequenceNumber := 1, flag := 8 }

section

attribute [local instance] roundedBlocks

theorem dispatched_apart : dispatched [greeting.bytes, farewell.bytes] =
    some [greeting, farewell] := by
  have segments : Segments .server (written [greeting, farewell])
      [greeting.bytes, farewell.bytes] := ⟨rfl, by decide⟩
  exact (dispatched_iff_whole .server [greeting, farewell] _ segments).1.mpr rfl

end

/-- When TCP joins the two messages, the second one ends up in the text of the first one. -/
theorem dispatched_joined :
    Segments .server (written [greeting, farewell]) [greeting.bytes ++ farewell.bytes] ∧
      Segments .client (written [greeting, farewell]) [greeting.bytes ++ farewell.bytes] ∧
      dispatched [greeting.bytes ++ farewell.bytes] =
        some [{ greeting with text := greeting.text ++ farewell.bytes }] ∧
      dispatched [greeting.bytes ++ farewell.bytes] ≠ some [greeting, farewell] := by
  exact ⟨⟨rfl, by decide⟩, ⟨rfl, by decide⟩, by decide, by decide⟩

end Chat
