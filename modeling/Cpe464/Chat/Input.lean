import Cpe464.Chat.Message
import Cpe464.Chat.TableSteps
import Cpe464.Chat.InputCore

/-!
Which lines with a message are sent as they are typed.
-/

namespace Chat

open Bytes Scanning

theorem fgets_line {size : Nat} {front : List UInt8} (single : 10 ∉ front)
    (fits : front.length + 1 < size) (later : List UInt8) :
    fgets size (front ++ 10 :: later) = some (front ++ [10]) := by
  have taken : ∀ byte ∈ front, decide (byte ≠ 10) = true := by
    intro byte member
    rw [decide_eq_true_eq]
    rintro rfl
    exact single member
  have stops : (front ++ 10 :: later).takeWhile (· ≠ 10) = front := by
    rw [List.takeWhile_append_of_pos taken]
    exact List.append_nil _
  rw [fgets, if_neg (by simp), stops, if_pos (by simp),
    List.take_of_length_le (by rw [List.length_append, List.length_singleton]; omega)]

theorem scanMessage_text {line : List UInt8} {command : Command}
    (scans : scanMessage line = some command) :
    ∃ destination text, command = .message destination text ∧ text <:+ line := by
  simp only [scanMessage] at scans
  split at scans
  · cases scans
  · simp only [Option.bind_eq_bind, Option.bind_eq_some_iff] at scans
    obtain ⟨found, _, scans⟩ := scans
    split at scans
    · cases scans
      exact ⟨_, _, rfl, List.drop_suffix _ _⟩
    · cases scans

theorem parseInput_text {line : List UInt8} {destination : Destination} {text : List UInt8}
    (parses : parseInput line = some (.message destination text)) : text <:+ line := by
  simp only [parseInput] at parses
  split at parses
  · split at parses
    · obtain ⟨_, _, same, ends⟩ := scanMessage_text parses
      cases same
      exact ends
    · split at parses
      · simp only [scanBroadcast] at parses
        split at parses
        · cases parses
        · split at parses <;> cases parses
      · split at parses
        · cases parses
        · split at parses <;> cases parses
  · cases parses

theorem processUserInput_typed {client : Client} {fails : Bool} {command : Command}
    {handle text : List UInt8} (named : handle ≠ [])
    (typed : SentAsTyped handle text (some (client.processUserInput fails command))) :
    ∃ destination : Destination, command = .message destination text ∧
      destination.handle.bytes = handle := by
  obtain ⟨_, sent, message, made, sends, unpacks, flag, recipient, texted⟩ := typed
  obtain rfl := Option.some.inj made
  have posted (toHandle : Handle) (other : List UInt8)
      (sends : (client.sendText fails toHandle other).sends = [sent]) :
      toHandle.bytes = handle ∧ other = text := by
    simp only [Client.sendText] at sends
    split at sends
    · cases sends
    · obtain rfl := List.head_eq_of_cons_eq sends
      rw [Client.fill, unpack_bytes] at unpacks
      obtain rfl := Option.some.inj unpacks
      exact ⟨recipient, List.append_cancel_right texted⟩
  cases command with
  | message destination other =>
      obtain ⟨same, rfl⟩ := posted destination.handle other sends
      exact ⟨destination, rfl, same⟩
  | broadcast other =>
      obtain ⟨same, _⟩ := posted Handle.empty other sends
      exact absurd same.symm named
  | list =>
      obtain rfl := List.head_eq_of_cons_eq sends
      rw [Client.fill, unpack_bytes] at unpacks
      obtain rfl := Option.some.inj unpacks
      cases flag
  | exit =>
      obtain rfl := List.head_eq_of_cons_eq sends
      rw [unpack_bytes] at unpacks
      obtain rfl := Option.some.inj unpacks
      cases flag
  | help => cases sends

theorem sendText_typed (client : Client) (fails : Bool) (destination : Destination)
    {text : List UInt8} (small : text.length ≤ 1000) : SentAsTyped destination.handle.bytes text
      (some (client.processUserInput fails (.message destination text))) := by
  have sends : client.processUserInput fails (.message destination text) =
      client.post fails .communicate
        { Message.new with flag := 6, toHandle := destination.handle, text := text ++ [0] } :=
    if_neg (Nat.not_lt.mpr small)
  rw [sends]
  exact ⟨_, _, _, rfl, rfl, unpack_bytes _, rfl, rfl, rfl⟩

theorem parseInput_line {command : List UInt8} (selects : SelectsMessage command)
    (handle text : List UInt8) : parseInput (command ++ 32 :: (handle ++ 32 :: text)) =
    scanMessage (command ++ 32 :: (handle ++ 32 :: text)) := by
  obtain ⟨letter, rest, choice, same⟩ := selects
  have long : (command ++ 32 :: (handle ++ 32 :: text)).length > 1 := by
    rcases same with rfl | rfl <;> simp only [List.length_append, List.length_cons] <;> omega
  have selected : selector (command ++ 32 :: (handle ++ 32 :: text)) = letter := by
    have other : letter ≠ 37 := by
      rcases choice with rfl | rfl <;> decide
    rcases same with rfl | rfl
    · exact if_neg other
    · exact if_pos rfl
  simp only [parseInput, if_pos long, selected, if_pos choice]

section

variable {command handle text : List UInt8} (selects : SelectsMessage command)
  (token : ∀ byte ∈ command, isBlank byte = false) (short : command.length < 100)
  (named : handle ≠ []) (fits : handle.length ≤ 100)
  (plain : ∀ byte ∈ handle, isBlank byte = false)

include selects token short named fits plain

theorem scanMessage_line : ∃ (found : Nat) (destination : Destination),
    destination.handle.bytes = handle ∧
    handle <+: (command ++ 32 :: (handle ++ 32 :: text)).drop found ∧
    (∀ position, handle <+: (command ++ 32 :: (handle ++ 32 :: text)).drop position →
      found ≤ position) ∧
    handle <+: (command ++ 32 :: (handle ++ 32 :: text)).drop (command.length + 1) ∧
    scanMessage (command ++ 32 :: (handle ++ 32 :: text)) = some (.message destination
      ((command ++ 32 :: (handle ++ 32 :: text)).drop (found + handle.length + 1))) := by
  have nonempty : command ≠ [] := by
    obtain ⟨letter, rest, _, rfl | rfl⟩ := selects <;> exact List.cons_ne_nil _ _
  have garbage := word_append token nonempty (by decide : isBlank 32 = true) (handle ++ 32 :: text)
  have behind := behindWord_append token nonempty (by decide : isBlank 32 = true)
    (handle ++ 32 :: text)
  have scanned : (destination (word isBlank (behindWord isBlank
      (command ++ 32 :: (handle ++ 32 :: text))))).handle.bytes = handle := by
    rw [behind, word_cons (by decide), word_append plain named (by decide)]
    exact List.take_of_length_le fits
  have there : handle <+: (command ++ 32 :: (handle ++ 32 :: text)).drop (command.length + 1) := by
    rw [← List.drop_drop, List.drop_left, List.drop_one, List.tail_cons]
    exact List.prefix_append _ _
  obtain ⟨found, early, finds, occurs⟩ := firstMatch_le _ _ _ there
  refine ⟨found, _, scanned, occurs, ?_, there, ?_⟩
  · intro position other
    obtain ⟨least, before, again, _⟩ := firstMatch_le _ _ _ other
    rw [finds, Option.some.injEq] at again
    exact again ▸ before
  simp only [scanMessage, garbage, scanned]
  rw [if_neg (by simp only [nonempty, named, or_false, false_or]; omega), finds]
  simp only [Option.bind_eq_bind, Option.bind_some]
  rw [if_pos (by simp only [List.length_append, List.length_cons]; omega)]

theorem typed_iff (client : Client) (fails : Bool) (small : text.length ≤ 1000) :
    SentAsTyped handle text ((parseInput (command ++ 32 :: (handle ++ 32 :: text))).map
      (client.processUserInput fails)) ↔ ¬handle <:+: command := by
  obtain ⟨found, destination, bytes, occurs, least, there, scans⟩ :=
    @scanMessage_line command handle text selects token short named fits plain
  have early := least _ there
  have separated : (32 : UInt8) ∉ handle := by
    intro member
    exact absurd (plain 32 member) (by decide)
  have start : found = command.length + 1 ↔ ¬handle <:+: command := by
    rw [infix_iff_early separated (handle ++ 32 :: text)]
    constructor
    · rintro same ⟨position, inside, other⟩
      have before := least position other
      omega
    · intro late
      by_contra different
      exact late ⟨found, by omega, occurs⟩
  rw [parseInput_line selects, scans, Option.map_some, ← start]
  constructor
  · intro typed
    obtain ⟨_, same, _⟩ := processUserInput_typed named typed
    have length := congrArg List.length (Command.message.inj same).2
    simp only [List.length_drop, List.length_append, List.length_cons] at length
    omega
  · rintro rfl
    have behind : (command ++ 32 :: (handle ++ 32 :: text)).drop
        (command.length + 1 + handle.length + 1) = text := by
      have layout : command ++ 32 :: (handle ++ 32 :: text) =
          (command ++ [32] ++ handle ++ [32]) ++ text := by simp
      rw [layout]
      exact List.drop_left' (by simp; omega)
    rw [behind, ← bytes]
    exact sendText_typed client fails destination small

end

theorem cString_line {front : List UInt8} (single : 10 ∉ front)
    (reaches : 10 ∈ cString (front ++ [10])) : cString (front ++ [10]) = front ++ [10] := by
  obtain ⟨behind, same⟩ := cString_prefix (front ++ [10])
  cases behind using List.reverseRecOn with
  | nil => rwa [List.append_nil] at same
  | append_singleton most last =>
      rw [← List.append_assoc] at same
      have inside : cString (front ++ [10]) ++ most = front := List.append_inj_left' same rfl
      refine absurd ?_ single
      rw [← inside]
      exact List.mem_append_left _ reaches

/-- A message is sent as it was typed exactly when its handle does not occur within the command
token, and the line has no NUL. -/
theorem message_asTyped_iff (client : Client) (fails : Bool)
    (command handle body later : List UInt8) (selects : SelectsMessage command)
    (token : ∀ byte ∈ command, isBlank byte = false) (short : command.length < 100)
    (named : 1 ≤ handle.length) (fits : handle.length ≤ 100)
    (plain : ∀ byte ∈ handle, isBlank byte = false) (single : 10 ∉ body)
    (small : (body ++ [10]).length ≤ 1000) :
    SentAsTyped handle (body ++ [10]) (client.readUserInput fails
      (command ++ [32] ++ handle ++ [32] ++ body ++ [10] ++ later)) ↔
        ¬handle <:+: command ∧ 0 ∉ command ++ handle ++ body := by
  have nonempty : handle ≠ [] := by
    rintro rfl
    exact absurd named (by decide)
  let front := command ++ 32 :: (handle ++ 32 :: body)
  have unbroken : 10 ∉ front := by
    simp only [front, List.mem_append, List.mem_cons, not_or]
    exact ⟨fun member => absurd (token 10 member) (by decide), by decide,
      fun member => absurd (plain 10 member) (by decide), by decide, single⟩
  have line : front ++ [10] = command ++ 32 :: (handle ++ 32 :: (body ++ [10])) := by
    simp [front]
  have reads : client.readUserInput fails
      (command ++ [32] ++ handle ++ [32] ++ body ++ [10] ++ later) =
        (parseInput (cString (front ++ [10]))).map (client.processUserInput fails) := by
    have typed : command ++ [32] ++ handle ++ [32] ++ body ++ [10] ++ later =
        front ++ 10 :: later := by
      simp [front]
    have room : front.length + 1 < inputSize := by
      simp only [front, inputSize, List.length_append, List.length_cons, List.length_nil] at small ⊢
      omega
    rw [Client.readUserInput, typed, fgets_line unbroken room, Option.map_eq_bind]
    rfl
  have whole : cString (front ++ [10]) = front ++ [10] ↔ 0 ∉ command ++ handle ++ body := by
    rw [cString_eq_self_iff]
    simp [front]
  rw [reads, ← whole]
  constructor
  · intro typed
    obtain ⟨made, _, _, makes, _⟩ := id typed
    obtain ⟨parsed, parses, _⟩ := Option.map_eq_some_iff.mp makes
    rw [parses] at typed
    obtain ⟨destination, rfl, _⟩ := processUserInput_typed nonempty typed
    have same := cString_line unbroken ((parseInput_text parses).mem (by simp))
    rw [← parses, same, line] at typed
    exact ⟨(typed_iff selects token short nonempty fits plain client fails small).mp typed, same⟩
  · rintro ⟨free, same⟩
    rw [same, line]
    exact (typed_iff selects token short nonempty fits plain client fails small).mpr free

def alice : Client := ⟨⟨[97], by decide⟩, 0, .communicate⟩

theorem message_asTyped_bob : SentAsTyped [98, 111, 98] [104, 105, 10] (alice.readUserInput false
    ([109] ++ [32] ++ [98, 111, 98] ++ [32] ++ [104, 105] ++ [10] ++ [])) := by
  have token : ∀ byte ∈ [(109 : UInt8)], isBlank byte = false := by simp [isBlank]
  have plain : ∀ byte ∈ [(98 : UInt8), 111, 98], isBlank byte = false := by simp [isBlank]
  exact (message_asTyped_iff alice false [109] [98, 111, 98] [104, 105] [] ⟨109, [], by decide⟩
    token (by decide) (by decide) (by decide) plain (by decide) (by decide)).mpr (by decide)

/-- The line `%m m hi` is sent to `m` with the text `m hi`. -/
theorem message_repeated : ∃ made sent, alice.readUserInput false
      [37, 109, 32, 109, 32, 104, 105, 10] = some made ∧ made.sends = [sent] ∧
    (unpack sent).map Message.text = some [109, 32, 104, 105, 10, 0] ∧
    ¬SentAsTyped [109] [104, 105, 10]
      (alice.readUserInput false [37, 109, 32, 109, 32, 104, 105, 10]) := by
  have reads : alice.readUserInput false [37, 109, 32, 109, 32, 104, 105, 10] =
      some (alice.sendText false ⟨[109], by decide⟩ [109, 32, 104, 105, 10]) := by
    decide +kernel
  rw [reads]
  refine ⟨_, _, rfl, rfl, by decide +kernel, ?_⟩
  intro typed
  obtain ⟨_, same, _⟩ := @processUserInput_typed alice false
    (.message (destination [109]) [109, 32, 104, 105, 10]) _ _ (by decide) typed
  cases same

end Chat
