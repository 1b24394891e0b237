import Cpe464.Errors.Settings
import Cpe464.Original.Exact
import Cpe464.Original.HookedCore

/-!
What the libraries do to the copy, the network could have done. So the output is right as well when
the programs send through them.
-/

namespace Original

open Bytes Channel Transition
open Errors (Draw Draws PacketManager sendtoErr sendAll Used)
open RemoteCopy (Setup Direction errorFlipBits)

theorem flipped_ne (byte : UInt8) : byte ^^^ 255 ≠ byte := by
  intro same
  have zero : byte ^^^ (byte ^^^ 255) = byte ^^^ byte := by rw [same]
  rw [← UInt8.xor_assoc, UInt8.xor_self, UInt8.zero_xor] at zero
  exact absurd zero (by decide)

section

variable {Rate : Type} {strtof : List Char → Option Rate} {atMost : Draw → Rate → Bool}
  {zero : Rate} {library last : PacketManager Rate}

theorem passed_cases {next : PacketManager Rate} {draws : Draws} {datagram : List UInt8}
    {out : Option (List UInt8)} (used : Used strtof atMost zero library)
    (sends : sendtoErr atMost library draws datagram = some (next, out)) :
    passed datagram out = [.intact datagram] ∨ passed datagram out = [] ∨
      ∃ damage worse, Damage.spoiled damage (.intact datagram) = some worse ∧
        passed datagram out = [worse] := by
  rcases used.transmits strtof zero atMost sends with rfl | rfl | ⟨index, inside, rfl⟩
  · exact .inl (by simp [passed])
  · exact .inr (.inl rfl)
  · have byte := List.getElem?_eq_getElem inside
    have flips : errorFlipBits datagram index = datagram.set index (datagram[index] ^^^ 255) := by
      rw [errorFlipBits, List.modify_eq_set, byte, Option.getD_some]
    have differs : errorFlipBits datagram index ≠ datagram := by
      intro same
      have at' : (errorFlipBits datagram index)[index]? = some (datagram[index] ^^^ 255) := by
        rw [flips, List.getElem?_set_self inside]
      rw [same, byte, Option.some.injEq] at at'
      exact flipped_ne _ at'.symm
    refine .inr (.inr ⟨⟨index, datagram[index] ^^^ 255⟩, .changed (errorFlipBits datagram index),
      ?_, ?_⟩)
    · have other : ¬datagram[index] = datagram[index] ^^^ 255 := fun same => flipped_ne _ same.symm
      simp [Damage.spoiled, byte, other, flips]
    · rw [passed, if_neg differs]

theorem sendAll_disturbs {holds : List Flight → Prop}
    (plain : ∀ channel fault after, fault.Plain → holds channel →
      disturb Damage.spoiled channel fault = some after → holds after)
    (used : Used strtof atMost zero library) {messages : List (Draws × List UInt8)}
    {sent : List (Option (List UInt8))}
    (sends : sendAll atMost library messages = some (last, sent)) (front : List Flight)
    (begins : holds (front ++ (messages.map Prod.snd).map .intact)) :
    Used strtof atMost zero last ∧
      holds (front ++ (List.zipWith passed (messages.map Prod.snd) sent).flatten) := by
  induction messages generalizing library sent front with
  | nil =>
      obtain ⟨rfl, rfl⟩ := Prod.mk.inj (Option.some.inj sends)
      exact ⟨used, begins⟩
  | cons message rest ih =>
      obtain ⟨draws, datagram⟩ := message
      simp only [sendAll, Option.bind_eq_bind, Option.bind_eq_some_iff] at sends
      obtain ⟨⟨next, out⟩, first, ⟨⟨final, others⟩, remaining, same⟩⟩ := sends
      obtain ⟨rfl, rfl⟩ := Prod.mk.inj (Option.some.inj same)
      have through : holds (front ++ passed datagram out ++ (rest.map Prod.snd).map .intact) := by
        rw [List.append_assoc]
        rcases passed_cases used first with same | same | ⟨damage, worse, spoils, same⟩
        · rw [same]
          exact begins
        · rw [same]
          exact plain _ (.lose front.length) _ trivial begins (disturb_lose front _ _)
        · rw [same]
          exact plain _ (.spoil front.length damage) _ trivial begins (disturb_spoil front _ spoils)
      have after := ih (used.next strtof zero atMost first) remaining _ through
      rw [List.append_assoc] at after
      exact after

theorem hook_disturbs (holds : List Flight → Prop)
    (plain : ∀ channel fault after, fault.Plain → holds channel →
      disturb Damage.spoiled channel fault = some after → holds after)
    (used : Used strtof atMost zero library) {draws : List Draws} {before : List Flight}
    {datagrams : List (List UInt8)} {channel : List Flight}
    (hooks : hook atMost library draws before (before ++ datagrams.map .intact) =
      some (last, channel))
    (begins : holds (before ++ datagrams.map .intact)) :
    Used strtof atMost zero last ∧ holds channel := by
  have added : (List.drop before.length (before ++ datagrams.map .intact)).map Flight.datagram =
      datagrams := by
    rw [List.drop_left, List.map_map]
    exact List.map_id _
  simp only [hook, added] at hooks
  split at hooks
  · rename_i enough
    simp only [Option.bind_eq_bind, Option.bind_eq_some_iff] at hooks
    obtain ⟨⟨final, sent⟩, sends, same⟩ := hooks
    obtain ⟨rfl, rfl⟩ := Prod.mk.inj (Option.some.inj same)
    have zipped : (draws.zip datagrams).map Prod.snd = datagrams :=
      List.map_snd_zip (Nat.le_of_eq enough.symm)
    have after := sendAll_disturbs plain used sends before (by rwa [zipped])
    rwa [zipped] at after
  · cases hooks

/-! A step. -/

theorem step_server {setup : Setup} {event : Event} {copy next : Copy}
    (sender : (∃ readFails unset, event = .serverSend readFails unset) ∨ event = .serverTimeout)
    (taken : Copy.step setup event copy = some next) :
    ∃ datagrams : List (List UInt8), next.toClient = copy.toClient ++ datagrams.map .intact := by
  rcases sender with ⟨readFails, unset, rfl⟩ | rfl
  · simp only [Copy.step] at taken
    split at taken
    · simp only [serverSend, Option.bind_eq_bind, Option.bind_eq_some_iff,
        Option.some.injEq] at taken
      obtain ⟨⟨server, sent⟩, _, rfl⟩ := taken
      exact ⟨sent, rfl⟩
    · cases taken
  · simp only [Copy.step] at taken
    split at taken
    · obtain rfl := Option.some.inj taken
      exact ⟨_, rfl⟩
    · cases taken

theorem clientReceive_sends {setup : Setup} {stale packet : Buffer maxLen} {copy next : Copy}
    (taken : clientReceive setup stale packet copy = some next) :
    ∃ datagrams : List (List UInt8), next.toServer = copy.toServer ++ datagrams.map .intact := by
  rw [clientReceive] at taken
  split at taken
  · cases taken
  · split at taken
    · obtain rfl := Option.some.inj taken
      exact ⟨[], (List.append_nil _).symm⟩
    · cases taken
    · simp only [Option.bind_eq_bind, Option.bind_eq_some_iff, Option.some.injEq] at taken
      obtain ⟨⟨client, written, sent⟩, _, rfl⟩ := taken
      exact ⟨sent, rfl⟩
    · cases taken

def Hooked.Permitted (setup : Setup) (permitted : Copy → Event → Copy → Prop)
    (hooked : Hooked Rate) (event : Event × List Draws) (_ : Hooked Rate) : Prop :=
  ∀ next, Copy.step setup event.1 hooked.copy = some next → permitted hooked.copy event.1 next

instance [∀ copy event next, Decidable (permitted copy event next)] (setup : Setup)
    (hooked : Hooked Rate) (event : Event × List Draws) (after : Hooked Rate) :
    Decidable (Hooked.Permitted setup permitted hooked event after) :=
  match taken : Copy.step setup event.1 hooked.copy with
  | none => isTrue (by
      intro next reached
      rw [taken] at reached
      cases reached)
  | some next => decidable_of_iff (permitted hooked.copy event.1 next) (by
      rw [Hooked.Permitted, taken]
      simp)

abbrev Faults (setup : Setup) (first : Copy) : Copy → Prop :=
  Reach (· = first) (Copy.step setup) fun _ event _ =>
    ∃ direction fault, event = .disturb direction fault ∧ Fault.Plain fault

structure Hooked.Sound (strtof : List Char → Option Rate) (atMost : Draw → Rate → Bool)
    (zero : Rate) (setup : Setup) (permitted : Copy → Event → Copy → Prop) (hooked : Hooked Rate) :
    Prop where
  reach : Reach (Original.Initial setup) (Copy.step setup) permitted hooked.copy
  server : Used strtof atMost zero hooked.serverLibrary
  client : Used strtof atMost zero hooked.clientLibrary

section

variable {setup : Setup} {permitted : Copy → Event → Copy → Prop} {hooked after : Hooked Rate}
  {next : Copy} {draws : List Draws}

theorem hook_faults (direction : Direction) (put : List Flight → Copy)
    (puts : ∀ channel fault, disturbed direction fault (put channel) =
      (disturb Damage.spoiled channel fault).map put)
    (used : Used strtof atMost zero library) {before channel through : List Flight}
    {datagrams : List (List UInt8)} (sent : channel = before ++ datagrams.map .intact)
    (hooks : hook atMost library draws before channel = some (last, through)) :
    Used strtof atMost zero last ∧ Faults setup (put channel) (put through) := by
  subst sent
  refine hook_disturbs (fun channel => Faults setup _ (put channel)) ?_ used hooks (.start rfl)
  intro channel fault after plain faults disturbs
  refine .step (.disturb direction fault) faults ?_ ⟨_, _, rfl, plain⟩
  rw [Copy.step, puts, disturbs, Option.map_some]

theorem Hooked.step_refines {event : Event × List Draws}
    (server : Used strtof atMost zero hooked.serverLibrary)
    (client : Used strtof atMost zero hooked.clientLibrary)
    (taken : Hooked.step atMost setup event hooked = some after) :
    ∃ next, Copy.step setup event.1 hooked.copy = some next ∧ Faults setup next after.copy ∧
      Used strtof atMost zero after.serverLibrary ∧
      Used strtof atMost zero after.clientLibrary := by
  obtain ⟨event, draws⟩ := event
  simp only [Hooked.step, Option.bind_eq_bind, Option.bind_eq_some_iff] at taken
  obtain ⟨next, moves, result⟩ := taken
  refine ⟨next, moves, ?_⟩
  have byServer {datagrams : List (List UInt8)}
      (sent : next.toClient = hooked.copy.toClient ++ datagrams.map .intact)
      (result : hookServer atMost draws hooked next = some after) :
      Faults setup next after.copy ∧ Used strtof atMost zero after.serverLibrary ∧
        Used strtof atMost zero after.clientLibrary := by
    simp only [hookServer, Option.bind_eq_bind, Option.bind_eq_some_iff] at result
    obtain ⟨⟨library, toClient⟩, hooks, same⟩ := result
    obtain rfl := Option.some.inj same
    obtain ⟨used, faults⟩ :=
      hook_faults .toClient ({ next with toClient := · }) (fun _ _ => rfl) server sent hooks
    exact ⟨faults, used, client⟩
  have alone (result : some { hooked with copy := next } = some after) :
      Faults setup next after.copy ∧ Used strtof atMost zero after.serverLibrary ∧
        Used strtof atMost zero after.clientLibrary := by
    obtain rfl := Option.some.inj result
    exact ⟨.start rfl, server, client⟩
  cases event with
  | serverSend readFails unset =>
      obtain ⟨datagrams, sent⟩ := step_server (.inl ⟨_, _, rfl⟩) moves
      exact byServer sent result
  | serverTimeout =>
      obtain ⟨datagrams, sent⟩ := step_server (.inr rfl) moves
      exact byServer sent result
  | clientReceive stale packet =>
      obtain ⟨datagrams, sent⟩ := clientReceive_sends moves
      simp only [hookClient, Option.bind_eq_bind, Option.bind_eq_some_iff] at result
      obtain ⟨⟨library, toServer⟩, hooks, same⟩ := result
      obtain rfl := Option.some.inj same
      obtain ⟨used, faults⟩ :=
        hook_faults .toServer ({ next with toServer := · }) (fun _ _ => rfl) client sent hooks
      exact ⟨faults, server, used⟩
  | serverWait arrived => exact alone result
  | clientTimeout => exact alone result
  | disturb direction fault => exact alone result

variable (plain : ∀ copy direction fault after, fault.Plain →
  permitted copy (.disturb direction fault) after)

include plain

theorem Faults.reach {first copy : Copy} (faults : Faults setup first copy)
    (reach : Reach (Original.Initial setup) (Copy.step setup) permitted first) :
    Reach (Original.Initial setup) (Copy.step setup) permitted copy := by
  apply faults.invariant
  · rintro begins rfl
    exact reach
  · rintro before _ after reached taken ⟨direction, fault, rfl, isPlain⟩
    exact .step _ reached taken (plain _ _ _ _ isPlain)

theorem start_hooked (initial : Hooked.Initial atMost strtof zero setup hooked) :
    hooked.Sound strtof atMost zero setup permitted := by
  obtain ⟨packet, behind, library, draws, toClient, server, client, hooks, same⟩ := initial
  have sent : (Copy.start setup packet behind).toClient = [] ++ [_].map .intact := rfl
  obtain ⟨used, faults⟩ := hook_faults .toClient
    ({ Copy.start setup packet behind with toClient := · }) (fun _ _ => rfl) server sent hooks
  exact ⟨same ▸ faults.reach plain (.start ⟨packet, behind, rfl⟩), used, client⟩

theorem Hooked.Sound.step {event : Event × List Draws}
    (sound : hooked.Sound strtof atMost zero setup permitted)
    (taken : Hooked.step atMost setup event hooked = some after)
    (allowed : Hooked.Permitted setup permitted hooked event after) :
    after.Sound strtof atMost zero setup permitted := by
  obtain ⟨next, moves, faults, server, client⟩ :=
    Hooked.step_refines sound.server sound.client taken
  exact ⟨faults.reach plain (sound.reach.step event.1 moves (allowed next moves)), server, client⟩

theorem reach_hooked
    (reach : Reach (Hooked.Initial atMost strtof zero setup) (Hooked.step atMost setup)
      (Hooked.Permitted setup permitted) hooked) :
    hooked.Sound strtof atMost zero setup permitted := by
  apply reach.invariant
  · exact fun _ initial => start_hooked plain initial
  · exact fun _ event _ sound taken allowed => sound.step plain taken allowed

end

end

/-! The whole system. -/

/-- Whatever events the libraries have, and whatever they draw: what rcopy has written is the start
of the file, and it only stops at END_OF_FILE when the server has read the whole file. Every step is
one without libraries, behind which the network loses datagrams and changes them. -/
theorem hooked_sound {Rate : Type} (strtof : List Char → Option Rate) (atMost : Draw → Rate → Bool)
    (zero : Rate) (setup : Setup) (fits : setup.bufSize ≤ 1392) (hooked : Hooked Rate)
    (reach : Reach (Hooked.Initial atMost strtof zero setup) (Hooked.step atMost setup)
      (fun _ _ _ => True) hooked) :
    hooked.copy.output.flatten <+: setup.file ∧
      (hooked.copy.ended = true →
        hooked.copy.finished = true ∧ hooked.copy.server.offset = setup.file.length) ∧
      hooked.copy.server.state ≠ .exited ∧
      ∀ event after, Hooked.step atMost setup event hooked = some after →
        ∃ next, Copy.step setup event.1 hooked.copy = some next ∧
          Faults setup next after.copy := by
  have sound : hooked.Sound strtof atMost zero setup fun _ _ _ => True :=
    reach_hooked (fun _ _ _ _ _ => trivial) (reach.mono fun _ _ _ _ _ _ => trivial)
  obtain ⟨count, written⟩ := Reachable.sound fits sound.reach
  obtain ⟨start, -, ended, stays⟩ := written.output
  refine ⟨start, ended, stays, fun event after taken => ?_⟩
  obtain ⟨next, moves, faults, _⟩ := Hooked.step_refines sound.server sound.client taken
  exact ⟨next, moves, faults⟩

def withinRate (draw : Draw) (rate : Nat) : Bool := draw.val ≤ rate

def halfLibrary : PacketManager Nat :=
  Errors.started (fun _ => none) 0 ⟨none, none, none⟩ (2 ^ 47) true true

def dropping : Draws := fun _ => 0

def flipping : Draws := fun index => if index = 0 then dropping index else ⟨2 ^ 47, by decide⟩

def calm : Draws := fun _ => ⟨2 ^ 48 - 1, by decide⟩

def hookedStart : Option (Hooked Nat) := do
  let copy := Copy.start twoChunks (Buffer.zero maxLen) 0
  let (serverLibrary, toClient) ← hook withinRate halfLibrary [calm] [] copy.toClient
  some ⟨{ copy with toClient }, serverLibrary, halfLibrary⟩

theorem hookedStart_initial {hooked : Hooked Nat} (starts : hookedStart = some hooked) :
    Hooked.Initial withinRate (fun _ => none) 0 twoChunks hooked := by
  simp only [hookedStart, Option.bind_eq_bind, Option.bind_eq_some_iff] at starts
  obtain ⟨⟨library, toClient⟩, hooks, same⟩ := starts
  obtain rfl := Option.some.inj same
  have used : Used (fun _ => none) withinRate 0 halfLibrary :=
    ⟨⟨none, none, none⟩, 2 ^ 47, true, true, [], [], rfl⟩
  exact ⟨_, 0, halfLibrary, [calm], toClient, used, used, hooks, rfl⟩

def erroneous : List (Event × List Draws) :=
  let zero := Buffer.zero maxLen
  [(.clientReceive zero zero, []), (.serverSend false 0, [dropping]), (.serverWait none, []),
    (.serverTimeout, [flipping]), (.clientReceive zero zero, []), (.serverWait none, []),
    (.serverTimeout, [calm]), (.clientReceive zero zero, [calm]), (.serverWait (some zero), []),
    (.serverSend false 0, [calm]), (.clientReceive zero zero, [dropping]), (.serverWait none, []),
    (.serverTimeout, [calm]), (.clientReceive zero zero, [calm]), (.serverWait (some zero), []),
    (.serverSend false 0, [calm]), (.clientReceive zero zero, [calm])]

theorem hooked_sound_erroneous : ∃ hooked,
    hookedStart.bind (run (Hooked.step withinRate twoChunks) erroneous) = some hooked ∧
    hooked.copy.ended = true ∧ hooked.copy.server.offset = twoChunks.file.length := by
  have ends : (hookedStart.bind (run (Hooked.step withinRate twoChunks) erroneous)).map
      (fun hooked => hooked.copy.ended) = some true := by decide +kernel
  obtain ⟨hooked, executed, ended⟩ := Option.map_eq_some_iff.mp ends
  obtain ⟨first, starts, runs⟩ := Option.bind_eq_some_iff.mp executed
  have reach := Reach.run erroneous (.start (hookedStart_initial starts)) runs
    (Permitted.of_forall (fun _ _ _ => trivial) _ _)
  exact ⟨hooked, executed, ended,
    ((hooked_sound _ _ 0 twoChunks (by decide) hooked reach).2.1 ended).2⟩

/-- When the server only times out with nothing under way, the errors of the libraries do no harm:
rcopy has the whole file at END_OF_FILE. -/
theorem hooked_exact {Rate : Type} (strtof : List Char → Option Rate) (atMost : Draw → Rate → Bool)
    (zero : Rate) (setup : Setup) (fits : setup.bufSize ≤ 1392) (hooked : Hooked Rate)
    (reach : Reach (Hooked.Initial atMost strtof zero setup) (Hooked.step atMost setup)
      (Hooked.Permitted setup Timely) hooked) :
    hooked.copy.server.seqNum ≤ hooked.copy.output.length + 2 ∧
      (hooked.copy.ended = true ∨ hooked.copy.finished = true →
        hooked.copy.output.flatten = setup.file) := by
  have sound : hooked.Sound strtof atMost zero setup Timely :=
    reach_hooked (fun _ _ _ _ isPlain => isPlain) reach
  obtain ⟨count, sound, inStep⟩ := reach_inStep fits sound.reach
  exact inStep.output sound

theorem hooked_exact_erroneous : ∃ hooked,
    hookedStart.bind (run (Hooked.step withinRate twoChunks) erroneous) = some hooked ∧
    hooked.copy.ended = true ∧ hooked.copy.output.flatten = twoChunks.file := by
  have ends : (hookedStart.bind (run (Hooked.step withinRate twoChunks) erroneous)).map
      (fun hooked => hooked.copy.ended) = some true := by decide +kernel
  obtain ⟨hooked, executed, ended⟩ := Option.map_eq_some_iff.mp ends
  obtain ⟨first, starts, runs⟩ := Option.bind_eq_some_iff.mp executed
  have timely : ∀ first ∈ hookedStart,
      Permitted (Hooked.step withinRate twoChunks) (Hooked.Permitted twoChunks Timely) erroneous
        first := by
    decide +kernel
  have reach := Reach.run erroneous (.start (hookedStart_initial starts)) runs (timely first starts)
  exact ⟨hooked, executed, ended,
    (hooked_exact _ _ 0 twoChunks (by decide) hooked reach).2 (.inl ended)⟩

end Original
