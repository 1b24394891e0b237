import Cpe464.Chat.ServeCore
import Cpe464.Chat.Table

/-!
The loop of `serve` while connections are removed from the table: which entries are visited, and
what is left for the next iteration.
-/

namespace Chat

open Effects SwapRemove Transition

theorem Tabled.length_listed {answeringMachine : Int} {server : Server}
    (tabled : Tabled answeringMachine server) : server.listed.length = server.numOpen := by
  have length := tabled.length
  have room := tabled.room
  rw [Server.listed, List.length_take]
  omega

/-! One call of `process_packet`. -/

structure Handles (answeringMachine : Int) (round : Round) (current : Int) (after : Round) :
    Prop where
  tabled : Tabled answeringMachine after.server
  within : ∀ fd ∈ after.server.listed, fd ∈ round.server.listed
  ahead : ∀ fd ∈ after.server.listed.drop (round.i + 1),
    fd ∈ round.server.listed.drop (round.i + 1)
  opened : ∀ fd ∈ after.server.listed, fd ∈ after.descriptors
  others : after.progress = .running → ∀ fd ∈ round.server.listed, fd ≠ current →
    fd ∈ after.server.listed ∧ after.unread fd = round.unread fd
  proceeds : after.progress ≠ .stalled
  count : after.server.numOpen ≤ round.server.numOpen
  i_eq : after.i = round.i

theorem Tabled.settled {answeringMachine : Int} {server next : Server}
    (tabled : Tabled answeringMachine server) (capacity : next.capacity = server.capacity)
    (highestFd : next.highestFd = server.highestFd)
    (length : next.openSockets.length = server.openSockets.length)
    (count : next.numOpen ≤ server.numOpen) (nodup : next.listed.Nodup)
    (within : ∀ fd ∈ next.listed, fd ∈ server.listed) : Tabled answeringMachine next := by
  have room := tabled.room
  constructor
  · rw [length, capacity]
    exact tabled.length
  · omega
  · rw [capacity]
    exact tabled.large
  · exact nodup
  · exact fun member => tabled.listens (within _ member)
  · intro fd member
    rw [highestFd]
    exact tabled.watched fd (within fd member)

section

variable {answeringMachine : Int} {round : Round} {current : Int} {next : Server}
  {unread : Int → List (Option (List UInt8))} (tabled : Tabled answeringMachine round.server)
  (opened : ∀ fd ∈ round.server.listed, fd ∈ round.descriptors)
  (untouched : ∀ fd ≠ current, unread fd = round.unread fd)
  (running : round.progress = .running)

include tabled opened

theorem handles_left : Handles answeringMachine round current
    { round with unread := unread, progress := .left } := by
  refine ⟨tabled, fun _ member => member, fun _ member => member, opened, ?_, ?_, Nat.le_refl _,
    rfl⟩
  · intro progress
    cases progress
  · intro progress
    cases progress

include untouched running

omit tabled in
theorem handles_kept (after : Tabled answeringMachine next)
    (same : next.listed = round.server.listed) (count : next.numOpen = round.server.numOpen) :
    Handles answeringMachine round current { round with unread := unread, server := next } := by
  have proceeds : round.progress ≠ .stalled := by
    rw [running]
    decide
  have within : ∀ fd ∈ next.listed, fd ∈ round.server.listed := fun fd member => same ▸ member
  refine ⟨after, within, fun fd member => same ▸ member, ?_, ?_, proceeds, count.le, rfl⟩
  · exact fun fd member => opened fd (within fd member)
  · exact fun _ fd member other => ⟨same ▸ member, untouched fd other⟩

theorem handles_removed (found : round.server.listed[round.i]? = some current)
    (after : Tabled answeringMachine next)
    (removed : next.listed = swapRemove round.server.listed round.i)
    (count : next.numOpen ≤ round.server.numOpen) :
    Handles answeringMachine round current { round with
      unread := unread, server := next, descriptors := round.descriptors.erase current } := by
  have proceeds : round.progress ≠ .stalled := by
    rw [running]
    decide
  obtain ⟨inside, entry⟩ := List.getElem?_eq_some_iff.mp found
  have members (fd : Int) : fd ∈ next.listed ↔ fd ∈ round.server.listed ∧ fd ≠ current := by
    rw [removed, mem_swapRemove tabled.nodup inside, entry]
  refine ⟨after, fun fd member => ((members fd).mp member).1, ?_, ?_, ?_, proceeds, count, rfl⟩
  · simp only [removed, drop_swapRemove]
    intro fd member
    rw [List.dropLast_eq_take, List.drop_take] at member
    exact List.mem_of_mem_take member
  · intro fd member
    obtain ⟨old, other⟩ := (members fd).mp member
    exact (List.mem_erase_of_ne other).mpr (opened fd old)
  · exact fun _ fd member other => ⟨(members fd).mpr ⟨member, other⟩, untouched fd other⟩

omit untouched

theorem process_handles [Allocator] (found : round.server.listed[round.i]? = some current)
    (fails : Int → Bool) (waiting : round.unread current ≠ []) :
    Handles answeringMachine round current (round.process fails current) := by
  have room := tabled.room
  have covered : round.server.numOpen ≤ round.server.openSockets.length := by
    rw [tabled.length]
    omega
  obtain ⟨received, rest, unread⟩ := List.exists_cons_of_ne_nil waiting
  have untouched (fd : Int) (other : fd ≠ current) :
      Function.update round.unread current rest fd = round.unread fd :=
    Function.update_of_ne other _ _
  simp only [Round.process, unread]
  split
  · rename_i machine handles
    obtain ⟨capacity, highestFd, length⟩ := processPacket_fixed handles
    rcases processPacket_sockets handles covered with
      ⟨same, count⟩ | ⟨index, position, removed, count⟩
    · have after := tabled.settled capacity highestFd length count.le (same ▸ tabled.nodup)
        (fun fd member => same ▸ member)
      simp only [if_neg (Nat.not_lt.mpr count.ge)]
      exact handles_kept opened untouched running after same count
    · have closed : machine.server.numOpen < round.server.numOpen := Nat.lt_of_succ_le count.le
      have first := findIdx?_socket current round.server.listed round.i tabled.nodup found
      obtain rfl : index = round.i := Option.some.inj (position.symm.trans first)
      have inside := (List.getElem?_eq_some_iff.mp found).1
      have after := tabled.settled capacity highestFd length closed.le
        (removed ▸ nodup_swapRemove tabled.nodup _ inside) (by
          intro fd member
          rw [removed, mem_swapRemove tabled.nodup inside] at member
          exact member.1)
      simp only [if_pos closed]
      exact handles_removed tabled opened untouched running found after removed closed.le
  · exact handles_left tabled opened

end

/-! The loop. -/

structure Going (answeringMachine : Int) (readable : List Int) (begun round : Round)
    (calls : List PacketCall) : Prop where
  tabled : Tabled answeringMachine round.server
  inSet : ∀ fd ∈ round.server.listed, InFdSet fd
  known : ∀ fd ∈ round.server.listed, fd ∈ begun.descriptors
  opened : ∀ fd ∈ round.server.listed, fd ∈ round.descriptors
  ahead : ∀ fd ∈ round.server.listed.drop round.i, fd ∉ calls.map PacketCall.fd
  sound : SoundRound readable begun round calls

section

variable {answeringMachine : Int} {readable : List Int} {begun round : Round}
  {calls : List PacketCall} (going : Going answeringMachine readable begun round calls)

include going

theorem Going.skip :
    Going answeringMachine readable begun { round with i := round.i + 1 } calls := by
  refine ⟨going.tabled, going.inSet, going.known, going.opened, ?_, ?_⟩
  · intro fd member
    simp only [← List.tail_drop] at member
    exact going.ahead fd (List.mem_of_mem_tail member)
  · exact ⟨going.sound.once, going.sound.reported, going.sound.opened, going.sound.proceeds,
      going.sound.remains⟩

theorem Going.call {current : Int} {after : Round}
    (found : round.server.listed[round.i]? = some current) (reported : current ∈ readable)
    (running : round.progress = .running) (handles : Handles answeringMachine round current after) :
    Going answeringMachine readable begun { after with i := round.i + 1 }
      (calls ++ [⟨current, round.descriptors⟩]) := by
  obtain ⟨inside, entry⟩ := List.getElem?_eq_some_iff.mp found
  have split : round.server.listed.drop round.i =
      current :: round.server.listed.drop (round.i + 1) := by
    rw [List.drop_eq_getElem_cons inside, entry]
  have apart : (current :: round.server.listed.drop (round.i + 1)).Nodup := by
    rw [← split]
    exact going.tabled.nodup.sublist (List.drop_sublist _ _)
  have ahead := going.ahead
  rw [split] at ahead
  let made : PacketCall := ⟨current, round.descriptors⟩
  have handled (fd : Int) : fd ∈ (calls ++ [made]).map PacketCall.fd ↔
      fd ∈ calls.map PacketCall.fd ∨ fd = current := by
    rw [List.map_append, List.mem_append, List.map_singleton, List.mem_singleton]
  have each (holds : PacketCall → Prop) (before : ∀ call ∈ calls, holds call)
      (last : holds made) : ∀ call ∈ calls ++ [made], holds call := by
    simpa [or_imp, forall_and] using ⟨before, last⟩
  refine ⟨handles.tabled, fun fd member => going.inSet fd (handles.within fd member),
    fun fd member => going.known fd (handles.within fd member), handles.opened, ?_, ?_, ?_, ?_,
    handles.proceeds, ?_⟩
  · intro fd member
    have behind := handles.ahead fd member
    rw [handled]
    rintro (earlier | rfl)
    · exact ahead fd (List.mem_cons_of_mem _ behind) earlier
    · exact (List.nodup_cons.mp apart).1 behind
  · rw [List.map_append, List.nodup_append]
    refine ⟨going.sound.once, List.nodup_singleton _, ?_⟩
    intro fd earlier other last same
    rw [List.map_singleton, List.mem_singleton] at last
    rw [same, last] at earlier
    exact ahead current List.mem_cons_self earlier
  · exact each _ going.sound.reported reported
  · exact each _ going.sound.opened (going.opened current (List.mem_of_getElem? found))
  · intro progress fd member unhandled
    rw [handled, not_or] at unhandled
    obtain ⟨listed, _, unread⟩ := going.sound.remains running fd member unhandled.1
    obtain ⟨stays, same⟩ := handles.others progress fd listed unhandled.2
    exact ⟨stays, handles.tabled.watched fd stays, same.trans unread⟩

theorem Going.visit [Allocator] {reads : List Int}
    (reports : ∀ fd ∈ begun.descriptors, fd ∈ reads → fd ∈ readable ∧ begun.unread fd ≠ [])
    (continues : ¬round.Ended) (fails : Int → Bool) :
    ∃ next made, Round.visit reads fails round = some (next, made) ∧
      Going answeringMachine readable begun next (calls ++ made) ∧
      next.server.numOpen - next.i < round.server.numOpen - round.i := by
  simp only [Round.Ended, not_or, not_not, not_le] at continues
  obtain ⟨running, below⟩ := continues
  have inside : round.i < round.server.listed.length := by
    rw [going.tabled.length_listed]
    exact below
  obtain ⟨current, found⟩ : ∃ current, round.server.listed[round.i]? = some current :=
    ⟨_, List.getElem?_eq_getElem inside⟩
  have member := List.mem_of_getElem? found
  have read : round.server.openSockets[round.i]? = some current := by
    rwa [Server.listed, List.getElem?_take, if_pos below] at found
  have unhandled : current ∉ calls.map PacketCall.fd := by
    apply going.ahead
    rw [List.mem_iff_getElem?]
    exact ⟨0, by rwa [List.getElem?_drop, Nat.add_zero]⟩
  simp only [Round.visit, Option.bind_eq_bind, read, Option.bind_some,
    if_pos (going.inSet current member)]
  split
  · rename_i set
    obtain ⟨reported, waiting⟩ := reports current (going.known current member) set
    rw [← (going.sound.remains running current (going.known current member) unhandled).2.2]
      at waiting
    have handles := process_handles going.tabled going.opened running found fails waiting
    refine ⟨_, _, rfl, going.call found reported running handles, ?_⟩
    have count := handles.count
    simp only
    omega
  · refine ⟨_, _, rfl, ?_, ?_⟩
    · rw [List.append_nil]
      exact going.skip
    · simp only
      omega

theorem Going.keeps [Allocator] {reads : List Int}
    (reports : ∀ fd ∈ begun.descriptors, fd ∈ reads → fd ∈ readable ∧ begun.unread fd ≠ [])
    {count : Nat} {fails : Nat → Int → Bool} {last : Round} {made : List PacketCall}
    (executed : Transition.loop Round.Ended (Round.visit reads) count fails round =
      some (last, made)) : Going answeringMachine readable begun last (calls ++ made) := by
  refine loop_keeps ?_ going executed
  intro fails state past next made before continues taken
  obtain ⟨other, emitted, same, after, _⟩ := before.visit reports continues fails
  obtain ⟨rfl, rfl⟩ := Prod.mk.inj (Option.some.inj (same.symm.trans taken))
  exact after

theorem Going.loop [Allocator] {reads : List Int}
    (reports : ∀ fd ∈ begun.descriptors, fd ∈ reads → fd ∈ readable ∧ begun.unread fd ≠ [])
    (fails : Nat → Int → Bool) :
    ∃ count last made, Transition.loop Round.Ended (Round.visit reads) count fails round =
      some (last, made) ∧ last.Ended ∧
        Going answeringMachine readable begun last (calls ++ made) := by
  obtain ⟨count, last, made, executed, ended, _⟩ :=
    @loop_ends _ _ _ Round.Ended _ (Round.visit reads) (fun _ => True)
      (fun round => ∃ calls, Going answeringMachine readable begun round calls)
      (fun _ _ => True) (fun round => round.server.numOpen - round.i) (fun _ _ => trivial) (by
        rintro fails state _ ⟨past, going⟩ continues
        obtain ⟨next, made, taken, after, lower⟩ := going.visit reports continues fails
        exact ⟨next, made, taken, ⟨_, after⟩, lower, fun _ _ => trivial⟩)
      round ⟨calls, going⟩ fails (fun _ => trivial)
  exact ⟨count, last, made, executed, ended, going.keeps reports executed⟩

end

/-! The beginning of an iteration. -/

section

variable {answeringMachine : Int} {server : Server} (tabled : Tabled answeringMachine server)

include tabled

theorem Tabled.accept {fd : Int} (room : server.numOpen + 2 ≠ server.capacity)
    (fresh : Fresh answeringMachine (some fd) server) :
    Tabled answeringMachine (server.accepting fd) ∧
      (server.accepting fd).listed = server.listed ++ [fd] := by
  obtain ⟨_, listens, unused⟩ := fresh fd rfl
  have before := tabled.room
  have length := tabled.length
  have large := tabled.large
  have same : resize server = server := if_neg room
  have listed : (server.accepting fd).listed = server.listed ++ [fd] := by
    rw [accepting_listed fd (by rw [same]; omega), same]
  refine ⟨?_, listed⟩
  constructor
  · simp only [Server.accepting, same, List.length_set, length]
  · simp only [Server.accepting, same]
    omega
  · simp only [Server.accepting, same, large]
  · rw [listed, List.nodup_append]
    refine ⟨tabled.nodup, List.nodup_singleton _, ?_⟩
    intro old member other last
    rw [List.mem_singleton.mp last]
    rintro rfl
    exact unused member
  · rw [listed, List.mem_append, List.mem_singleton]
    rintro (member | rfl)
    · exact tabled.listens member
    · exact listens rfl
  · rw [listed]
    intro other member
    simp only [Server.accepting, same]
    rcases List.mem_append.mp member with old | last
    · exact Int.le_trans (tabled.watched other old) (Int.le_max_left _ _)
    · rw [List.mem_singleton.mp last]
      exact Int.le_max_right _ _

theorem Tabled.begin {accepted : Option Int} (fresh : Fresh answeringMachine accepted server)
    (servable : Servable answeringMachine accepted server) (readable : List Int)
    (unread : Int → List (Option (List UInt8))) :
    ∃ begun, server.beginRound answeringMachine accepted unread = some begun ∧
      begun.unread = unread ∧ begun.descriptors = server.listed ++ accepted.toList ∧
      Going answeringMachine readable begun begun [] := by
  obtain ⟨inSet, room⟩ := servable
  have covered : ∀ fd ∈ answeringMachine :: server.listed, InFdSet fd := by
    intro fd member
    exact inSet fd (List.mem_append_left _ member)
  have starts (next : Server) (after : Tabled answeringMachine next)
      (listed : next.listed = server.listed ++ accepted.toList) :
      Going answeringMachine readable ⟨next, server.listed ++ accepted.toList, unread, 0, .running⟩
        ⟨next, server.listed ++ accepted.toList, unread, 0, .running⟩ [] := by
    refine ⟨after, ?_, ?_, ?_, ?_, ?_⟩
    · rw [listed]
      intro fd member
      exact inSet fd (by simpa using List.mem_cons_of_mem answeringMachine member)
    · exact fun fd member => listed ▸ member
    · exact fun fd member => listed ▸ member
    · intro fd _ handled
      cases handled
    · refine ⟨List.nodup_nil, by simp, by simp, by simp, ?_⟩
      intro _ fd member _
      have member : fd ∈ next.listed := by
        rw [listed]
        exact member
      exact ⟨member, after.watched fd member, rfl⟩
  simp only [Server.beginRound, if_pos covered]
  cases accepted with
  | none =>
      refine ⟨_, rfl, rfl, (List.append_nil _).symm, ?_⟩
      have going := starts server tabled (List.append_nil _).symm
      rwa [Option.toList_none, List.append_nil] at going
  | some fd =>
      obtain ⟨after, listed⟩ := tabled.accept (room (by simp)) fresh
      have before := tabled.room
      have same : resize server = server := if_neg (room (by simp))
      have accepts := @answer_eq server [] fd (fresh fd rfl).1 (by rw [same]; omega)
      simp only [accepts]
      exact ⟨_, rfl, rfl, rfl, starts _ after listed⟩

theorem Tabled.beginReported {accepted : Option Int}
    (fresh : Fresh answeringMachine accepted server)
    (servable : Servable answeringMachine accepted server) {readable : List Int}
    {unread : Int → List (Option (List UInt8))} (reported : Reported server readable unread) :
    ∃ begun, server.beginRound answeringMachine accepted unread = some begun ∧
      Going answeringMachine readable begun begun [] ∧
      ∀ fd ∈ begun.descriptors, fd ∈ readSet answeringMachine accepted readable →
        fd ∈ readable ∧ begun.unread fd ≠ [] := by
  obtain ⟨begun, begins, same, descriptors, going⟩ :=
    tabled.begin fresh servable readable unread
  refine ⟨begun, begins, going, ?_⟩
  intro fd connected set
  have other : fd ≠ answeringMachine := by
    rintro rfl
    rw [descriptors, List.mem_append, Option.mem_toList] at connected
    rcases connected with member | accepts
    · exact tabled.listens member
    · exact (fresh fd accepts).2.1 rfl
  have member : fd ∈ readable := by
    simp only [readSet] at set
    split at set
    · exact (List.mem_cons.mp set).resolve_left other
    · exact set
  rw [same]
  exact ⟨member, (reported fd member).2⟩

theorem Tabled.serves [Allocator] {accepted : Option Int}
    (fresh : Fresh answeringMachine accepted server)
    (servable : Servable answeringMachine accepted server) :
    ServesSoundly answeringMachine accepted server := by
  intro readable unread fails reported
  obtain ⟨begun, begins, going, reports⟩ := tabled.beginReported fresh servable reported
  obtain ⟨count, last, calls, executed, ended, after⟩ := going.loop reports fails
  exact ⟨begun, count, last, calls, begins, executed, ended, after.sound⟩

theorem Tabled.iterate [Allocator] {iteration : Iteration} {next : Server}
    (taken : server.iterate answeringMachine iteration = some next)
    (served : Served answeringMachine server iteration next) : Tabled answeringMachine next := by
  obtain ⟨reported, fresh, servable⟩ := served
  obtain ⟨begun, begins, going, reports⟩ := tabled.beginReported fresh servable reported
  simp only [Server.iterate, begins, Option.bind_eq_bind, Option.bind_some,
    Option.bind_eq_some_iff] at taken
  obtain ⟨⟨last, calls⟩, executed, taken⟩ := taken
  split at taken
  · obtain rfl := Option.some.inj taken
    exact (going.keeps reports executed).tabled
  · cases taken

end

/-! What goes wrong otherwise. -/

theorem beginRound_inverts {answeringMachine : Int} {accepted : Option Int}
    {unread : Int → List (Option (List UInt8))} {server : Server} {begun : Round}
    (begins : server.beginRound answeringMachine accepted unread = some begun) :
    (∀ fd ∈ answeringMachine :: server.listed, InFdSet fd) ∧ ∀ fd ∈ accepted,
      begun = ⟨server.accepting fd, server.listed ++ [fd], unread, 0, .running⟩ := by
  simp only [Server.beginRound] at begins
  split at begins
  · rename_i inSet
    refine ⟨inSet, ?_⟩
    rintro fd ⟨⟩
    simp only at begins
    split at begins
    · rename_i machine accepts
      obtain ⟨_, rfl⟩ := answer_accepting accepts
      exact (Option.some.inj begins).symm
    · cases begins
  · cases begins

def ignoredMessage : List UInt8 := Message.new.bytes

theorem process_ignored [Allocator] {round : Round} {fd : Int} {rest : List (Option (List UInt8))}
    (unread : round.unread fd = some ignoredMessage :: rest) (fails : Int → Bool) :
    round.process fails fd = { round with unread := Function.update round.unread fd rest } := by
  have ignores : processPacket fails fd (some ignoredMessage) ⟨round.server, []⟩ =
      some (.ok (), ⟨round.server, []⟩) := by
    rw [ignoredMessage, processPacket_message (unpack_bytes _)]
    rfl
  simp only [Round.process, unread, ignores, Nat.lt_irrefl, if_false]

theorem visit_inverts [Allocator] {reads : List Int} {fails : Int → Bool} {round next : Round}
    {made : List PacketCall} (taken : Round.visit reads fails round = some (next, made)) :
    ∃ current, round.server.openSockets[round.i]? = some current ∧ InFdSet current ∧
      ((current ∈ reads ∧ next = { round.process fails current with i := round.i + 1 } ∧
          made = [⟨current, round.descriptors⟩]) ∨
        (current ∉ reads ∧ next = { round with i := round.i + 1 } ∧ made = [])) := by
  simp only [Round.visit, Option.bind_eq_bind, Option.bind_eq_some_iff] at taken
  obtain ⟨current, read, taken⟩ := taken
  split at taken
  · rename_i inside
    split at taken
    · rename_i member
      obtain ⟨rfl, rfl⟩ := Prod.mk.inj (Option.some.inj taken)
      exact ⟨current, read, inside, .inl ⟨member, rfl, rfl⟩⟩
    · rename_i other
      obtain ⟨rfl, rfl⟩ := Prod.mk.inj (Option.some.inj taken)
      exact ⟨current, read, inside, .inr ⟨other, rfl, rfl⟩⟩
  · cases taken

structure Ignoring (begun round : Round) (calls : List PacketCall) : Prop where
  server_eq : round.server = begun.server
  unread : ∀ fd, round.unread fd = [] ∨ round.unread fd = [some ignoredMessage]
  progress : round.progress ≠ .left
  within : ∀ call ∈ calls, call.fd ∈ begun.server.listed

theorem Ignoring.visit [Allocator] {begun round next : Round} {calls made : List PacketCall}
    (ignoring : Ignoring begun round calls) (continues : ¬round.Ended) {reads : List Int}
    {fails : Int → Bool} (taken : Round.visit reads fails round = some (next, made)) :
    Ignoring begun next (calls ++ made) := by
  simp only [Round.Ended, not_or, not_not, not_le] at continues
  obtain ⟨current, read, _, called | ⟨_, rfl, rfl⟩⟩ := visit_inverts taken
  · obtain ⟨_, rfl, rfl⟩ := called
    have member : current ∈ begun.server.listed := by
      rw [← ignoring.server_eq, List.mem_iff_getElem?]
      exact ⟨round.i, by rw [Server.listed, List.getElem?_take, if_pos continues.2, read]⟩
    have within : ∀ call ∈ calls ++ [⟨current, round.descriptors⟩],
        call.fd ∈ begun.server.listed := by
      simpa [or_imp, forall_and] using ⟨ignoring.within, member⟩
    rcases ignoring.unread current with empty | full
    · have stalls : round.process fails current = { round with progress := .stalled } := by
        simp only [Round.process, empty]
      rw [stalls]
      exact ⟨ignoring.server_eq, ignoring.unread, by simp, within⟩
    · rw [process_ignored full]
      refine ⟨ignoring.server_eq, ?_, ignoring.progress, within⟩
      intro fd
      by_cases same : fd = current
      · simp [same]
      · simp only [Function.update_of_ne same]
        exact ignoring.unread fd
  · rw [List.append_nil]
    exact ⟨ignoring.server_eq, ignoring.unread, ignoring.progress, ignoring.within⟩

structure Passing (server : Server) (count : Nat) (round : Round) (_ : List PacketCall) : Prop where
  server_eq : round.server = server
  running : round.progress = .running
  below : round.i ≤ count

section

variable {answeringMachine : Int} {server : Server}

theorem ServesSoundly.inSet [Allocator] {accepted : Option Int}
    (sound : ServesSoundly answeringMachine accepted server) :
    ∀ fd ∈ answeringMachine :: server.listed, InFdSet fd := by
  obtain ⟨begun, _, _, _, begins, _⟩ :=
    sound [] (fun _ => []) (fun _ => fun _ => false) (by simp [Reported])
  exact (beginRound_inverts begins).1

theorem forgotten_unsound [Allocator] {fd forgotten : Int} (listed : forgotten ∈ server.listed)
    (lost : forgotten ∉ (server.accepting fd).listed) :
    ¬ServesSoundly answeringMachine (some fd) server := by
  intro sound
  obtain ⟨begun, count, last, calls, begins, executed, _, round⟩ :=
    sound [forgotten] (fun _ => [some ignoredMessage]) (fun _ => fun _ => false)
      (by simp [Reported, listed])
  have starts := (beginRound_inverts begins).2 fd rfl
  have ignoring : Ignoring begun last ([] ++ calls) := by
    refine loop_keeps ?_ ?_ executed
    · intro fails state past next made before continues taken
      exact before.visit continues taken
    · rw [starts]
      exact ⟨rfl, fun _ => .inr rfl, by simp, by simp⟩
  have running : last.progress = .running := by
    cases progress : last.progress with
    | running => rfl
    | stalled => exact absurd progress round.proceeds
    | left => exact absurd progress ignoring.progress
  have absent : forgotten ∉ begun.server.listed := by
    rw [starts]
    exact lost
  have unhandled : forgotten ∉ calls.map PacketCall.fd := by
    intro handled
    obtain ⟨call, member, rfl⟩ := List.mem_map.mp handled
    exact absent (ignoring.within call member)
  have known : forgotten ∈ begun.descriptors := by
    rw [starts]
    exact List.mem_append_left _ listed
  obtain ⟨stays, _⟩ := round.remains running forgotten known unhandled
  rw [ignoring.server_eq] at stays
  exact absent stays

variable (tabled : Tabled answeringMachine server)

include tabled

theorem Tabled.forgets (fd : Int) (grown : server.numOpen + 2 = server.capacity)
    (fresh : Fresh answeringMachine (some fd) server) :
    ∃ forgotten ∈ server.listed, forgotten ∉ (server.accepting fd).listed := by
  have length := tabled.length_listed
  have sockets := tabled.length
  have large : 1024 ≤ server.capacity := tabled.large
  have behind : ∃ forgotten ∈ server.listed.drop (server.capacity / 4), forgotten ≠ 0 := by
    by_contra zero
    simp only [not_exists, not_and, not_not] at zero
    have first := zero (server.listed.get ⟨server.capacity / 4, by omega⟩) (by
      rw [List.mem_iff_getElem?]
      exact ⟨0, by simp⟩)
    have second := zero (server.listed.get ⟨server.capacity / 4 + 1, by omega⟩) (by
      rw [List.mem_iff_getElem?]
      exact ⟨1, by simp⟩)
    have same := (List.Nodup.get_inj_iff tabled.nodup).mp (first.trans second.symm)
    simp at same
  obtain ⟨forgotten, member, nonzero⟩ := behind
  have known := List.mem_of_mem_drop member
  have grows : (resize server).openSockets = server.openSockets.take (server.capacity / 4) ++
      List.replicate (2 * server.capacity - server.capacity / 4) 0 := by
    rw [resize, if_pos grown]
  have numOpen : (resize server).numOpen = server.numOpen := by
    rw [resize, if_pos grown]
  refine ⟨forgotten, known, ?_⟩
  rw [accepting_listed fd (by
    rw [numOpen, grows, List.length_append, List.length_take, List.length_replicate]
    omega), List.mem_append, List.mem_singleton]
  rintro (kept | rfl)
  · rw [Server.listed, numOpen, grows] at kept
    rcases List.mem_append.mp (List.mem_of_mem_take kept) with old | zero
    · have front : server.openSockets.take (server.capacity / 4) =
          server.listed.take (server.capacity / 4) := by
        rw [Server.listed, List.take_take, Nat.min_eq_left (by omega)]
      rw [front] at old
      exact List.disjoint_take_drop tabled.nodup (Nat.le_refl _) old member
    · exact nonzero (List.eq_of_mem_replicate zero)
  · exact (fresh _ rfl).2.2 known

theorem Tabled.accepted_inSet [Allocator] {fd : Int} (room : server.numOpen + 2 ≠ server.capacity)
    (fresh : Fresh answeringMachine (some fd) server)
    (sound : ServesSoundly answeringMachine (some fd) server) : InFdSet fd := by
  by_contra outside
  obtain ⟨begun, count, last, calls, begins, executed, ended, _⟩ :=
    sound [] (fun _ => []) (fun _ => fun _ => false) (by simp [Reported])
  have starts := (beginRound_inverts begins).2 fd rfl
  obtain ⟨after, listed⟩ := tabled.accept room fresh
  have length := tabled.length_listed
  have longer := after.length_listed
  rw [listed, List.length_append, List.length_singleton, length] at longer
  have passing : Passing (server.accepting fd) server.numOpen last ([] ++ calls) := by
    refine loop_keeps ?_ ?_ executed
    · intro fails state past next made passing continues taken
      simp only [Round.Ended, not_or, not_not, not_le] at continues
      obtain ⟨current, read, inside, step⟩ := visit_inverts taken
      have found : (server.listed ++ [fd])[state.i]? = some current := by
        rw [← listed, ← passing.server_eq, Server.listed, List.getElem?_take, if_pos continues.2,
          read]
      have before : state.i < server.numOpen := by
        by_contra atEnd
        rw [List.getElem?_append_right (by omega),
          show state.i - server.listed.length = 0 by have := passing.below; omega,
          List.getElem?_cons_zero, Option.some.injEq] at found
        exact outside (found ▸ inside)
      rw [List.getElem?_append_left (by omega)] at found
      rcases step with ⟨set, _, _⟩ | ⟨_, rfl, _⟩
      · rw [readSet, Option.isSome_some, if_pos rfl, List.mem_singleton] at set
        rw [set] at found
        exact absurd (List.mem_of_getElem? found) tabled.listens
      · exact ⟨passing.server_eq, passing.running, before⟩
    · rw [starts]
      exact ⟨rfl, rfl, Nat.zero_le _⟩
  rcases ended with stopped | beyond
  · exact stopped passing.running
  · rw [passing.server_eq] at beyond
    have below := passing.below
    omega

end

theorem setup_tabled (answeringMachine : Int) : Tabled answeringMachine (setup answeringMachine) := by
  have empty : (setup answeringMachine).listed = [] := rfl
  constructor
  · exact List.length_replicate
  · exact (by decide : 0 + 2 ≤ 1024)
  · exact Nat.le_refl _
  · rw [empty]
    exact List.nodup_nil
  · rw [empty]
    exact List.not_mem_nil
  · simp [empty]

theorem reach_tabled [Allocator] {answeringMachine : Int} {server : Server}
    (reach : Reach (· = setup answeringMachine) (Server.iterate answeringMachine)
      (Served answeringMachine) server) : Tabled answeringMachine server := by
  apply reach.invariant
  · rintro _ rfl
    exact setup_tabled answeringMachine
  · intro state iteration next tabled taken served
    exact tabled.iterate taken served

/-- The tables of a run are tables of distinct connections, and with such a table an iteration is
sound, whatever is reported and received in it, exactly when every descriptor fits into an `fd_set`
and the table does not grow. -/
theorem round_sound_iff [Allocator] (answeringMachine : Int) (server : Server)
    (accepted : Option Int) (tabled : Tabled answeringMachine server)
    (fresh : Fresh answeringMachine accepted server) :
    (∀ reached, Reach (· = setup answeringMachine) (Server.iterate answeringMachine)
      (Served answeringMachine) reached → Tabled answeringMachine reached) ∧
    (ServesSoundly answeringMachine accepted server ↔
      Servable answeringMachine accepted server) := by
  refine ⟨fun _ => reach_tabled, ?_, tabled.serves fresh⟩
  intro sound
  have room : accepted ≠ none → server.numOpen + 2 ≠ server.capacity := by
    intro accepts grown
    obtain ⟨fd, rfl⟩ := Option.ne_none_iff_exists'.mp accepts
    obtain ⟨forgotten, listed, lost⟩ := tabled.forgets fd grown fresh
    exact forgotten_unsound listed lost sound
  refine ⟨?_, room⟩
  intro fd member
  rcases List.mem_append.mp member with old | new
  · exact sound.inSet fd old
  · rw [Option.mem_toList] at new
    obtain rfl := Option.mem_def.mp new
    exact tabled.accepted_inSet (room (by simp)) fresh sound

section

attribute [local instance] roundedBlocks

theorem round_sound_two : ServesSoundly 3 (some 5) ((setup 3).accepting 4) := by
  have fresh : Fresh 3 (some 4) (setup 3) := by
    rintro fd ⟨⟩
    exact ⟨by decide, by decide, List.not_mem_nil⟩
  obtain ⟨tabled, listed⟩ := (setup_tabled 3).accept (by decide) fresh
  refine (round_sound_iff 3 _ (some 5) tabled ?_).2.mpr ⟨?_, fun _ => by decide⟩
  · rw [Fresh, listed]
    decide
  · rw [listed]
    decide

def afterAccepts : Nat → Server
  | 0 => setup 0
  | count + 1 => (afterAccepts count).accepting (count + 1)

theorem afterAccepts_tabled (count : Nat) (room : count ≤ 1022) :
    Tabled 0 (afterAccepts count) ∧ (afterAccepts count).capacity = 1024 ∧
      (afterAccepts count).listed = (List.range count).map fun i : Nat => (i : Int) + 1 := by
  induction count with
  | zero => exact ⟨setup_tabled 0, rfl, rfl⟩
  | succ count ih =>
      obtain ⟨tabled, capacity, listed⟩ := ih (by omega)
      have length := tabled.length_listed
      rw [listed, List.length_map, List.length_range] at length
      have roomy : (afterAccepts count).numOpen + 2 ≠ (afterAccepts count).capacity := by omega
      have fresh : Fresh 0 (some ((count : Int) + 1)) (afterAccepts count) := by
        rintro fd ⟨⟩
        refine ⟨by omega, by omega, ?_⟩
        rw [listed]
        intro member
        obtain ⟨i, inside, same⟩ := List.mem_map.mp member
        have below := List.mem_range.mp inside
        omega
      obtain ⟨after, longer⟩ := tabled.accept roomy fresh
      refine ⟨after, ?_, ?_⟩
      · rw [afterAccepts, Server.accepting, resize, if_neg roomy]
        exact capacity
      · rw [afterAccepts, longer, listed, List.range_succ, List.map_append, List.map_singleton]

/-- With every descriptor from 0 to 1023 in use, a connection gets lost that was reported. -/
theorem round_unsound_full : Tabled 0 (afterAccepts 1022) ∧
    Fresh 0 (some 1023) (afterAccepts 1022) ∧
    (∀ fd ∈ 0 :: (afterAccepts 1022).listed ++ [1023], InFdSet fd) ∧
    ¬ServesSoundly 0 (some 1023) (afterAccepts 1022) := by
  obtain ⟨tabled, capacity, listed⟩ := afterAccepts_tabled 1022 (Nat.le_refl _)
  have length := tabled.length_listed
  rw [listed, List.length_map, List.length_range] at length
  have members (fd : Int) (member : fd ∈ (afterAccepts 1022).listed) : 1 ≤ fd ∧ fd ≤ 1022 := by
    rw [listed] at member
    obtain ⟨i, inside, rfl⟩ := List.mem_map.mp member
    have below := List.mem_range.mp inside
    omega
  have fresh : Fresh 0 (some 1023) (afterAccepts 1022) := by
    rintro fd ⟨⟩
    refine ⟨by decide, by decide, ?_⟩
    intro member
    have bounds := members 1023 member
    omega
  refine ⟨tabled, fresh, ?_, ?_⟩
  · intro fd member
    simp only [List.cons_append, List.mem_cons, List.mem_append, List.not_mem_nil, or_false] at member
    rcases member with rfl | known | rfl
    · decide
    · have bounds := members fd known
      exact ⟨by omega, by simp only [fdSetSize]; omega⟩
    · decide
  · obtain ⟨forgotten, known, lost⟩ := tabled.forgets 1023 (by omega) fresh
    exact forgotten_unsound known lost

end

end Chat
