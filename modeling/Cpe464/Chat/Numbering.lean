import Mathlib.Data.List.Nodup
import Cpe464.Library.Transition
import Cpe464.Chat.ClientSteps
import Cpe464.Chat.Message

/-!
The sequence numbers of the messages that a client puts on the wire, from its registration on.
-/

namespace Chat

open Bytes Transition

/-- A client, and what it has put on the wire. A call of `send` that returns -1 puts nothing
there. -/
structure Wire where
  client : Client
  sent : List (List UInt8)

inductive ClientEvent
  | recv (result : Option (List UInt8)) (fails : Bool)
  | command (command : Command) (fails : Bool)
deriving DecidableEq

def Mode.ended : Mode → Bool
  | .closed => true
  | .failed _ => true
  | _ => false

/-- There is no result where `sequence_number++` overflows. -/
def Wire.turn (wire : Wire) (fails : Bool) (turn : Turn) : Option Wire :=
  if turn.client.sequenceNumber < 2 ^ 31 then
    some ⟨turn.client, if fails then wire.sent else wire.sent ++ turn.sends⟩
  else none

def Wire.start (handle : Handle) (fails : Bool) : Option Wire :=
  let client : Client := ⟨handle, 0, .confirmHandle⟩
  Wire.turn ⟨client, []⟩ fails (client.init fails)

def Wire.step (event : ClientEvent) (wire : Wire) : Option Wire :=
  match event with
  | .recv result fails =>
      if wire.client.mode.ended then none
      else do
        let turn ← wire.client.receive fails result
        wire.turn fails turn
  | .command command fails =>
      if wire.client.mode = .communicate then
        wire.turn fails (wire.client.processUserInput fails command)
      else none

def Numbered (sent : List (List UInt8)) : Prop :=
  ∀ k bytes, sent[k]? = some bytes → (loadInt bytes).map UInt32.toNat = some k

def Leaves (events : List ClientEvent) : Prop := .command .exit false ∈ events

instance (events : List ClientEvent) : Decidable (Leaves events) :=
  inferInstanceAs (Decidable (_ ∈ _))

/-! What a turn puts on the wire. -/

inductive Numbers (client : Client) (fails : Bool) (turn : Turn) : Prop
  | quiet : turn.sends = [] → turn.client.sequenceNumber = client.sequenceNumber →
      Numbers client fails turn
  | posts (message : Message) : turn.sends = [(client.fill message).bytes] →
      turn.client.sequenceNumber = client.sequenceNumber + 1 →
      (fails = true → turn.client.mode.ended = true) → Numbers client fails turn

section

variable (client : Client) (fails : Bool)

theorem enter_numbers (mode : Mode) (shown : List Output) :
    Numbers client fails (client.enter mode shown) := by
  exact .quiet rfl rfl

theorem post_numbers (mode : Mode) (message : Message) :
    Numbers client fails (client.post fails mode message) := by
  refine .posts message rfl rfl ?_
  rintro rfl
  rfl

theorem sendText_numbers (toHandle : Handle) (text : List UInt8) :
    Numbers client fails (client.sendText fails toHandle text) := by
  unfold Client.sendText
  split
  · exact enter_numbers client fails _ _
  · exact post_numbers client fails _ _

theorem listHandles_numbers (index length : Int) :
    Numbers client fails (client.listHandles fails index length) := by
  unfold Client.listHandles
  split
  · exact post_numbers client fails _ _
  · exact enter_numbers client fails _ _

theorem Numbers.shows {client : Client} {fails : Bool} {turn : Turn}
    (numbers : Numbers client fails turn) (shown : List Output) :
    Numbers client fails { turn with shown } := by
  cases numbers with
  | quiet sends number => exact .quiet sends number
  | posts message sends number ends => exact .posts message sends number ends

variable {client fails}

theorem processUserInput_numbers {command : Command} (stays : command ≠ .exit) :
    Numbers client fails (client.processUserInput fails command) := by
  cases command with
  | message destination text => exact sendText_numbers client fails _ text
  | broadcast text => exact sendText_numbers client fails _ text
  | list => exact post_numbers client fails _ _
  | exit => exact absurd rfl stays
  | help => exact enter_numbers client fails _ _

theorem handleMessage_numbers {message : Message} {turn : Turn}
    (taken : client.handleMessage fails message = some turn) : Numbers client fails turn := by
  cases handleMessage_follows taken with
  | enters mode shown => exact enter_numbers client fails mode shown
  | lists index length shown => exact (listHandles_numbers client fails index length).shows shown

theorem receive_numbers {result : Option (List UInt8)} {turn : Turn}
    (taken : client.receive fails result = some turn) : Numbers client fails turn := by
  cases result with
  | none => cases taken
  | some bytes =>
      cases bytes with
      | nil =>
          obtain rfl := Option.some.inj taken
          exact enter_numbers client fails _ _
      | cons first rest =>
          simp only [Client.receive, Option.bind_eq_bind, Option.bind_eq_some_iff] at taken
          obtain ⟨message, _, taken⟩ := taken
          exact handleMessage_numbers taken

end

theorem Wire.turn_inverts {wire next : Wire} {fails : Bool} {turn : Turn}
    (taken : wire.turn fails turn = some next) :
    turn.client.sequenceNumber < 2 ^ 31 ∧
      next = ⟨turn.client, if fails then wire.sent else wire.sent ++ turn.sends⟩ := by
  unfold Wire.turn at taken
  split at taken
  · rename_i small
    exact ⟨small, (Option.some.inj taken).symm⟩
  · cases taken

/-! The counter and the messages stay in step. -/

theorem bytes_number (message : Message) : loadInt message.bytes = some message.sequenceNumber := by
  exact loadInt_htonl message.sequenceNumber _

theorem Numbered.append {sent : List (List UInt8)} (numbered : Numbered sent) {bytes : List UInt8}
    (number : (loadInt bytes).map UInt32.toNat = some sent.length) :
    Numbered (sent ++ [bytes]) := by
  intro k other found
  obtain ⟨inside, _⟩ := List.getElem?_eq_some_iff.mp found
  rw [List.length_append, List.length_singleton] at inside
  by_cases before : k < sent.length
  · rw [List.getElem?_append_left before] at found
    exact numbered k other found
  · obtain rfl : k = sent.length := by omega
    rw [List.getElem?_append_right (Nat.le_refl _), Nat.sub_self, List.getElem?_cons_zero,
      Option.some.injEq] at found
    exact found ▸ number

theorem Numbered.nodup {sent : List (List UInt8)} (numbered : Numbered sent) :
    (sent.map loadInt).Nodup := by
  rw [List.nodup_iff_getElem?_ne_getElem?]
  intro i j before inside same
  rw [List.length_map] at inside
  rw [List.getElem?_map, List.getElem?_map, List.getElem?_eq_getElem (by omega),
    List.getElem?_eq_getElem inside, Option.map_some, Option.map_some, Option.some.injEq] at same
  have first := numbered i _ (List.getElem?_eq_getElem (by omega))
  have second := numbered j _ (List.getElem?_eq_getElem inside)
  rw [same, second] at first
  have equal := Option.some.inj first
  omega

structure Counted (wire : Wire) : Prop where
  numbered : Numbered wire.sent
  counts : wire.client.mode.ended = false → wire.client.sequenceNumber = wire.sent.length
  begun : wire.client.mode.ended = false → wire.sent ≠ []

theorem counted_posts {wire next : Wire} {fails : Bool} {turn : Turn} {message : Message}
    (numbered : Numbered wire.sent) (counts : wire.client.sequenceNumber = wire.sent.length)
    (sends : turn.sends = [(wire.client.fill message).bytes])
    (number : turn.client.sequenceNumber = wire.client.sequenceNumber + 1)
    (ends : fails = true → turn.client.mode.ended = true)
    (taken : wire.turn fails turn = some next) : Counted next := by
  obtain ⟨small, rfl⟩ := Wire.turn_inverts taken
  cases fails with
  | true =>
      have ended := ends rfl
      refine ⟨numbered, ?_, ?_⟩
      · exact fun going => absurd (ended.symm.trans going) (by decide)
      · exact fun going => absurd (ended.symm.trans going) (by decide)
  | false =>
      have value := ofInt_toNat wire.client.sequenceNumber (by omega) (by omega)
      refine ⟨?_, fun _ => ?_, fun _ => ?_⟩
      · simp only [Bool.false_eq_true, if_false, sends]
        apply numbered.append
        rw [bytes_number, Option.map_some, Option.some.injEq]
        simp only [Client.fill]
        omega
      · simp only [Bool.false_eq_true, if_false, sends, List.length_append, List.length_singleton]
        omega
      · simp [sends]

theorem Counted.turn {wire next : Wire} (counted : Counted wire)
    (going : wire.client.mode.ended = false) {fails : Bool} {turn : Turn}
    (numbers : Numbers wire.client fails turn) (taken : wire.turn fails turn = some next) :
    Counted next := by
  cases numbers with
  | quiet sends number =>
      obtain ⟨_, rfl⟩ := Wire.turn_inverts taken
      rw [sends, List.append_nil, ite_self]
      exact ⟨counted.numbered, fun _ => number.trans (counted.counts going),
        fun _ => counted.begun going⟩
  | posts message sends number ends =>
      exact counted_posts counted.numbered (counted.counts going) sends number ends taken

theorem start_counted {handle : Handle} {fails : Bool} {wire : Wire}
    (starts : Wire.start handle fails = some wire) : Counted wire := by
  have empty : Numbered [] := by
    intro k bytes found
    cases found
  refine counted_posts empty rfl rfl rfl ?_ starts
  rintro rfl
  rfl

/-! The message to exit. -/

structure Departed (wire : Wire) : Prop where
  left : wire.client.mode = .janitor ∨ wire.client.mode.ended = true
  unnumbered : ¬Numbered wire.sent
  repeated : ¬(wire.sent.map loadInt).Nodup

theorem Counted.departs {wire next : Wire} (counted : Counted wire)
    (going : wire.client.mode.ended = false)
    (taken : wire.turn false (wire.client.janitor false) = some next) : Departed next := by
  obtain ⟨_, rfl⟩ := Wire.turn_inverts taken
  obtain ⟨first, rest, sent⟩ := List.exists_cons_of_ne_nil (counted.begun going)
  let bytes := Message.bytes { Message.new with flag := 8, fromHandle := wire.client.handle }
  have zero : loadInt bytes = some 0 := bytes_number _
  have sends : (wire.client.janitor false).sends = [bytes] := rfl
  refine ⟨.inl rfl, ?_, ?_⟩
  · simp only [Bool.false_eq_true, if_false, sends, sent]
    intro numbered
    have last := numbered (first :: rest).length bytes
      (by rw [List.getElem?_append_right (Nat.le_refl _), Nat.sub_self]; rfl)
    rw [zero] at last
    cases last
  · have begins := counted.numbered 0 first (by rw [sent]; rfl)
    obtain ⟨number, reads, value⟩ := Option.map_eq_some_iff.mp begins
    obtain rfl : number = 0 := UInt32.toNat_inj.mp value
    simp [sends, sent, reads, zero]

theorem receive_janitor {client : Client} (waits : client.mode = .janitor) {fails : Bool}
    {result : Option (List UInt8)} {turn : Turn}
    (taken : client.receive fails result = some turn) :
    turn.sends = [] ∧ turn.client.mode.ended = true := by
  cases result with
  | none => cases taken
  | some bytes =>
      cases bytes with
      | nil =>
          obtain rfl := Option.some.inj taken
          exact ⟨rfl, rfl⟩
      | cons first rest =>
          simp only [Client.receive, Option.bind_eq_bind, Option.bind_eq_some_iff,
            Client.handleMessage, waits] at taken
          obtain ⟨message, _, taken⟩ := taken
          obtain rfl := Option.some.inj taken
          unfold Client.receiveExit
          split <;> exact ⟨rfl, rfl⟩

theorem Departed.step {wire next : Wire} (departed : Departed wire) {event : ClientEvent}
    (taken : wire.step event = some next) : Departed next := by
  cases event with
  | recv result fails =>
      simp only [Wire.step, Option.bind_eq_bind] at taken
      split at taken
      · cases taken
      · rename_i going
        rw [Option.bind_eq_some_iff] at taken
        obtain ⟨turn, received, taken⟩ := taken
        obtain ⟨sends, ended⟩ := receive_janitor (departed.left.resolve_right going) received
        obtain ⟨_, rfl⟩ := Wire.turn_inverts taken
        rw [sends, List.append_nil, ite_self]
        exact ⟨.inr ended, departed.unnumbered, departed.repeated⟩
  | command command fails =>
      simp only [Wire.step] at taken
      split at taken
      · rename_i reads
        rcases departed.left with waits | ended
        · exact absurd (waits.symm.trans reads) (by decide)
        · rw [reads] at ended
          cases ended
      · cases taken

/-! Whole sessions. -/

theorem Counted.step {wire next : Wire} (counted : Counted wire) {event : ClientEvent}
    (stays : event ≠ .command .exit false) (taken : wire.step event = some next) :
    Counted next := by
  cases event with
  | recv result fails =>
      simp only [Wire.step, Option.bind_eq_bind] at taken
      split at taken
      · cases taken
      · rename_i going
        rw [Option.bind_eq_some_iff] at taken
        obtain ⟨turn, received, taken⟩ := taken
        exact counted.turn (Bool.eq_false_iff.mpr going) (receive_numbers received) taken
  | command command fails =>
      simp only [Wire.step] at taken
      split at taken
      · rename_i reads
        have going : wire.client.mode.ended = false := by
          rw [reads]
          rfl
        by_cases leaves : command = .exit
        · subst leaves
          cases fails with
          | false => exact absurd rfl stays
          | true =>
              obtain ⟨_, rfl⟩ := Wire.turn_inverts taken
              refine ⟨counted.numbered, ?_, ?_⟩
              · intro going
                cases going
              · intro going
                cases going
        · exact counted.turn going (processUserInput_numbers leaves) taken
      · cases taken

theorem Counted.run {wire final : Wire} (counted : Counted wire) {events : List ClientEvent}
    (executed : run Wire.step events wire = some final) :
    (¬Leaves events ∧ Counted final) ∨ (Leaves events ∧ Departed final) := by
  induction events generalizing wire with
  | nil =>
      obtain rfl := Option.some.inj executed
      exact .inl ⟨List.not_mem_nil, counted⟩
  | cons event rest ih =>
      simp only [Transition.run, Option.bind_eq_some_iff] at executed
      obtain ⟨next, taken, remaining⟩ := executed
      by_cases leaves : event = .command .exit false
      · subst leaves
        have reads : wire.client.mode = .communicate := by
          by_contra other
          simp only [Wire.step, if_neg other] at taken
          cases taken
        have going : wire.client.mode.ended = false := by
          rw [reads]
          rfl
        simp only [Wire.step, if_pos reads] at taken
        exact .inr ⟨List.mem_cons_self, run_keeps (fun _ _ _ departed => departed.step)
          (counted.departs going taken) remaining⟩
      · have same : Leaves (event :: rest) ↔ Leaves rest := by
          rw [Leaves, List.mem_cons]
          exact or_iff_right fun same => leaves same.symm
        rw [same]
        exact ih (counted.step leaves taken) remaining

/-- The messages of a session are numbered from 0 on, and no number comes twice, exactly when none
of them is the one to exit. -/
theorem session_numbered_iff (handle : Handle) (fails : Bool) (events : List ClientEvent)
    (first final : Wire) (starts : Wire.start handle fails = some first)
    (executed : run Wire.step events first = some final) :
    (Numbered final.sent ↔ ¬Leaves events) ∧
      ((final.sent.map loadInt).Nodup ↔ ¬Leaves events) := by
  rcases (start_counted starts).run executed with ⟨stays, counted⟩ | ⟨leaves, departed⟩
  · exact ⟨iff_of_true counted.numbered stays, iff_of_true counted.numbered.nodup stays⟩
  · exact ⟨iff_of_false departed.unnumbered (not_not_intro leaves),
      iff_of_false departed.repeated (not_not_intro leaves)⟩

def alone : Handle := handleOf 97

def confirmation : ClientEvent :=
  .recv (some { Message.new with flag := 2, toHandle := alone }.bytes) false

def listingEvents : List ClientEvent :=
  [confirmation, .command .list false,
    .recv (some { Message.new with flag := 11, text := intText 1 }.bytes) false,
    .recv (some { Message.new with flag := 13, text := [1, 97] }.bytes) false,
    .command (.broadcast [104, 105]) false]

theorem session_numbered_listing : ∃ wire,
    (Wire.start alone false).bind (run Wire.step listingEvents) = some wire ∧
      wire.sent.length = 4 ∧ Numbered wire.sent ∧ (wire.sent.map loadInt).Nodup := by
  have executes : ((Wire.start alone false).bind fun first =>
      (run Wire.step listingEvents first).map fun wire => wire.sent.length) = some 4 := by
    decide +kernel
  obtain ⟨first, starts, executes⟩ := Option.bind_eq_some_iff.mp executes
  obtain ⟨wire, executed, length⟩ := Option.map_eq_some_iff.mp executes
  have stays : ¬Leaves listingEvents := by decide
  have numbered := session_numbered_iff alone false listingEvents first wire starts executed
  exact ⟨wire, by rw [starts, Option.bind_some, executed], length, numbered.1.mpr stays,
    numbered.2.mpr stays⟩

/-- A client registers and exits: both of its messages carry the number 0. -/
theorem session_exit_unnumbered : ∃ wire,
    (Wire.start alone false).bind (run Wire.step [confirmation, .command .exit false]) =
      some wire ∧
    wire.sent = [[0, 0, 0, 0, 1, 0, 1, 97], [0, 0, 0, 0, 8, 0, 1, 97]] ∧
    ¬Numbered wire.sent ∧ ¬(wire.sent.map loadInt).Nodup := by
  have executes : ((Wire.start alone false).bind (run Wire.step
      [confirmation, .command .exit false])).map Wire.sent =
        some [[0, 0, 0, 0, 1, 0, 1, 97], [0, 0, 0, 0, 8, 0, 1, 97]] := by
    decide +kernel
  obtain ⟨wire, executed, sent⟩ := Option.map_eq_some_iff.mp executes
  refine ⟨wire, executed, sent, ?_, ?_⟩
  · rw [sent]
    intro numbered
    have second := numbered 1 _ rfl
    cases second
  · rw [sent]
    decide

end Chat
