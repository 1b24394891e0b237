import Cpe464.Chat.ServerSteps
import Cpe464.Chat.ClientCore

/-!
What a client does with the messages that it may get, one lemma for each place it waits in, and
with any message at all.
-/

namespace Chat

def display (message : Message) : Option Output :=
  if message.flag = 6 then some (.message message.fromHandle.bytes message.text)
  else if message.flag = 7 then some (.unknownHandle (cString message.toHandle.bytes))
  else none

theorem receive_bytes (fails : Bool) (client : Client) (message : Message) :
    client.receive fails (some message.bytes) = client.handleMessage fails message := by
  have unpacks := unpack_bytes message
  cases bytes : message.bytes with
  | nil =>
      rw [bytes] at unpacks
      cases unpacks
  | cons first rest =>
      rw [bytes] at unpacks
      rw [Client.receive, unpacks]
      · rfl
      · simp

theorem processMessage_shows (client : Client) (message : Message)
    (delivery : message.flag = 6 ∨
      (message.flag = 7 ∧ message.toHandle.bytes.length ≤ 100)) :
    ∃ output, display message = some output ∧
      client.processMessage message = some (client.enter .communicate [output]) := by
  unfold display Client.processMessage
  rcases delivery with flag | ⟨flag, short⟩
  · exact ⟨_, if_pos flag, if_pos flag⟩
  · have other : message.flag ≠ 6 := by
      rw [flag]
      decide
    rw [if_neg other, if_neg other, if_pos flag, if_pos flag, if_pos short]
    exact ⟨_, rfl, rfl⟩

theorem listHandles_shown (client : Client) (fails : Bool) (index length : Int) :
    (client.listHandles fails index length).shown = [] := by
  unfold Client.listHandles
  split <;> rfl

def Lists (client : Client) (fails : Bool) (index length : Int) (result : Option Turn) : Prop :=
  ∃ printed : List (List UInt8), result = some { client.listHandles fails index length with
    shown := printed.map Output.handle }

theorem receiveListLength_lists (client : Client) (fails : Bool) (reply : Message) (value : UInt32)
    (flag : reply.flag = 11) (loads : loadInt reply.text = some value) :
    Lists client fails 0 (asInt value) (client.receiveListLength fails reply) := by
  refine ⟨[], ?_⟩
  rw [Client.receiveListLength, loads, Option.bind_eq_bind, Option.bind_some,
    if_neg (not_not_intro flag), List.map_nil, ← listHandles_shown client fails 0 (asInt value)]

theorem receiveHandle_lists (client : Client) (fails : Bool) (index length : Int)
    (reply : Message) (answers : AnswersHandle reply) :
    Lists client fails (index + 1) length (client.receiveHandle fails index length reply) := by
  have silent := listHandles_shown client fails (index + 1) length
  unfold Client.receiveHandle
  rcases answers with ⟨flag, handleLength, head, within⟩ | flag
  · rw [if_pos flag, head, Option.bind_eq_bind, Option.bind_some, if_pos within]
    refine ⟨[(reply.text.drop 1).take handleLength.toNat], ?_⟩
    simp only [silent]
    rfl
  · have other : reply.flag ≠ 13 := by
      rw [flag]
      decide
    rw [if_neg other, if_pos flag]
    refine ⟨[], ?_⟩
    rw [List.map_nil, ← silent]

inductive Follows (client : Client) (fails : Bool) : Turn → Prop
  | enters (mode : Mode) (shown : List Output) : Follows client fails (client.enter mode shown)
  | lists (index length : Int) (shown : List Output) :
      Follows client fails { client.listHandles fails index length with shown }

section

variable {client : Client} {fails : Bool} {message : Message} {turn : Turn}

theorem confirmHandle_follows : Follows client fails (client.confirmHandle message) := by
  unfold Client.confirmHandle
  split
  · exact .enters _ _
  · split <;> exact .enters _ _

theorem processMessage_follows (taken : client.processMessage message = some turn) :
    Follows client fails turn := by
  unfold Client.processMessage at taken
  split at taken
  · exact Option.some.inj taken ▸ .enters _ _
  · split at taken
    · split at taken
      · exact Option.some.inj taken ▸ .enters _ _
      · cases taken
    · exact Option.some.inj taken ▸ .enters _ _

theorem receiveListLength_follows (taken : client.receiveListLength fails message = some turn) :
    Follows client fails turn := by
  simp only [Client.receiveListLength, Option.bind_eq_bind, Option.bind_eq_some_iff] at taken
  obtain ⟨value, _, taken⟩ := taken
  split at taken
  · exact Option.some.inj taken ▸ .enters _ _
  · exact Option.some.inj taken ▸ .lists 0 (asInt value) _

theorem receiveHandle_follows {index length : Int}
    (taken : client.receiveHandle fails index length message = some turn) :
    Follows client fails turn := by
  unfold Client.receiveHandle at taken
  split at taken
  · simp only [Option.bind_eq_bind, Option.bind_eq_some_iff] at taken
    obtain ⟨handleLength, _, taken⟩ := taken
    split at taken
    · exact Option.some.inj taken ▸ .lists (index + 1) length _
    · cases taken
  · split at taken
    · exact Option.some.inj taken ▸ .lists (index + 1) length _
    · exact Option.some.inj taken ▸ .enters _ _

theorem receiveExit_follows : Follows client fails (client.receiveExit message) := by
  unfold Client.receiveExit
  split <;> exact .enters _ _

theorem handleMessage_follows (taken : client.handleMessage fails message = some turn) :
    Follows client fails turn := by
  unfold Client.handleMessage at taken
  split at taken
  · exact Option.some.inj taken ▸ confirmHandle_follows
  · exact processMessage_follows taken
  · exact receiveListLength_follows taken
  · exact receiveHandle_follows taken
  · exact Option.some.inj taken ▸ receiveExit_follows
  · cases taken
  · cases taken

end

end Chat
