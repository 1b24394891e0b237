import Cpe464.RemoteCopy.ChildCore
import Cpe464.RemoteCopy.ServerSteps

/-!
Which control packets a server child tolerates. RR and SREJ numbers are used unchecked, so
the window keeps its meaning exactly as long as they stay in the range that rcopy uses.
-/

namespace RemoteCopy

open Bytes Transition

/-! The window operations on any window. -/

theorem clearValid_valid {window next : Window} {count : Nat} {first : Int}
    (clears : clearValid window count first = some next) :
    next = { window with valid := next.valid } := by
  induction count generalizing window first with
  | zero =>
      obtain rfl := Option.some.inj clears
      rfl
  | succ count ih =>
      simp only [clearValid, Option.bind_eq_bind, Option.bind_eq_some_iff] at clears
      obtain ⟨index, _, rest⟩ := clears
      exact (ih rest).trans rfl

theorem slide_fields {window next : Window} {newBottom : Int}
    (slides : slide window newBottom = some next) :
    next = { window with
      bottom := newBottom
      middle := max window.middle newBottom
      top := asInt32 (newBottom + window.size - 1)
      valid := next.valid } := by
  simp only [slide, Option.bind_eq_bind, Option.bind_eq_some_iff, Option.some.injEq] at slides
  obtain ⟨cleared, clears, rfl⟩ := slides
  rw [clearValid_valid clears]
  simp only [Window.mk.injEq, true_and, and_true]
  split <;> omega

theorem tmod_nonneg_iff (number size : Int) :
    0 ≤ number.tmod size ↔ 0 ≤ number ∨ size ∣ number := by
  constructor
  · intro remainder
    by_cases negative : number < 0
    · right
      rw [Int.dvd_iff_tmod_eq_zero]
      have opposite := Int.tmod_nonneg size (by omega : 0 ≤ -number)
      rw [Int.neg_tmod] at opposite
      omega
    · exact .inl (by omega)
  · rintro (natural | divides)
    · exact Int.tmod_nonneg size natural
    · rw [Int.dvd_iff_tmod_eq_zero.mp divides]

theorem getFromBuffer_isSome_iff {window : Window} (wellFormed : window.WellFormed)
    (seqNum : Int) : (∃ packet, getFromBuffer window seqNum = some packet) ↔
      0 ≤ asInt32 (seqNum - 1) ∨ window.size ∣ asInt32 (seqNum - 1) := by
  have positive := wellFormed.size_pos
  have length := wellFormed.buffer_length
  rw [← tmod_nonneg_iff]
  generalize numberEq : asInt32 (seqNum - 1) = number
  have below := Int.tmod_lt_of_pos number (by omega : 0 < window.size)
  simp only [getFromBuffer, slotIndex, numberEq, Option.bind_eq_bind]
  by_cases negative : number.tmod window.size < 0
  · rw [if_pos (by omega)]
    constructor
    · rintro ⟨packet, defined⟩
      cases defined
    · intro natural
      omega
  · rw [if_neg (by omega), Option.bind_some]
    constructor
    · intro _
      omega
    · intro _
      exact ⟨_, List.getElem?_eq_getElem (by omega)⟩

/-! The steps. -/

inductive ChildMoves (job : Job) (child next : Child) : ChildEvent → Prop
  | send {readFails arrived} (state : child.server.state = .sendData)
      (sends : childSend job readFails arrived child = some next) :
      ChildMoves job child next (.send readFails arrived)
  | process {stack datagram} (state : child.server.state = .process)
      (processes : childProcess job stack datagram child = some next) :
      ChildMoves job child next (.process stack datagram)
  | wait {arrived} (state : child.server.state = .waitOnAck)
      (waits : childWait arrived child = some next) :
      ChildMoves job child next (.wait arrived)
  | bye {packet received} (state : child.server.state = .bye)
      (ends : childBye job packet received child = some next) :
      ChildMoves job child next (.bye packet received)

theorem childStep_moves {job : Job} {child next : Child} {event : ChildEvent}
    (taken : childStep job event child = some next) : ChildMoves job child next event := by
  cases event with
  | send readFails arrived =>
      simp only [childStep] at taken
      split at taken
      · exact .send ‹_› taken
      · cases taken
  | process stack datagram =>
      simp only [childStep] at taken
      split at taken
      · exact .process ‹_› taken
      · cases taken
  | wait arrived =>
      simp only [childStep] at taken
      split at taken
      · exact .wait ‹_› taken
      · cases taken
  | bye packet received =>
      simp only [childStep] at taken
      split at taken
      · exact .bye ‹_› taken
      · cases taken

/-! The invariant. -/

def Job.position (job : Job) (count : Nat) : Nat := min (count * job.bufSize.toNat) job.file.length

/-- The window of the sender between two packets: `top` follows `bottom`, `middle` is the
number of the next data packet and of the chunk at the file offset, and `bottom` is not past it. -/
structure Sound (job : Job) (child : Child) : Prop where
  wellFormed : child.server.window.WellFormed
  lower : child.server.window.bottom ≤ child.server.window.middle
  upper : child.server.window.middle ≤ child.server.window.top + 1
  sent : child.server.window.bottom ≤ child.sent.length + 1
  numbered : child.server.window.middle = child.sent.length + 1
  position : child.server.offset = job.position child.sent.length

/-- An RR asks for no packet that has not been sent yet, and leaves room for the window; the slot
of an SREJ is inside the buffer. -/
def Tolerates (server : Server) (received : Int × Packet) : Prop :=
  let number := asInt32 received.2.number
  received.1 = crcError ∨
    ((received.2.flag = Flag.rr.code → number > server.window.bottom →
        number ≤ server.window.middle ∧ number + server.window.size ≤ 2 ^ 31) ∧
      (received.2.flag = Flag.srej.code →
        0 ≤ asInt32 (number - 1) ∨ server.window.size ∣ asInt32 (number - 1)))

instance (server : Server) (received : Int × Packet) : Decidable (Tolerates server received) :=
  inferInstanceAs (Decidable (_ ∨ ((_ → _ → _ ∧ _) ∧ (_ → _ ∨ _))))

def ToleratesDatagram (job : Job) (server : Server) (stack : Packet) (datagram : List UInt8) :
    Prop :=
  ∃ received, recvPacket job.host stack datagram = some received ∧ Tolerates server received

instance (job : Job) (server : Server) (stack : Packet) (datagram : List UInt8) :
    Decidable (ToleratesDatagram job server stack datagram) :=
  decidable_of_iff ((recvPacket job.host stack datagram).any fun received =>
    decide (Tolerates server received)) (by
      rw [Option.any_eq_true]
      simp only [ToleratesDatagram, decide_eq_true_eq])

section

variable {job : Job} {child : Child}

theorem Sound.of_same (sound : Sound job child) {next : Server}
    (window : next.window = child.server.window) (offset : next.offset = child.server.offset) :
    Sound job ⟨next, child.sent⟩ := by
  constructor
  · exact window ▸ sound.wellFormed
  · exact window ▸ sound.lower
  · exact window ▸ sound.upper
  · exact window ▸ sound.sent
  · exact window ▸ sound.numbered
  · exact offset.trans sound.position

theorem Sound.withState (sound : Sound job child) (state : ServerState) :
    Sound job ⟨{ child.server with state }, child.sent⟩ := sound.of_same rfl rfl

theorem Job.read_some {fails : Bool} {offset : Nat} {data : List UInt8}
    (reads : job.read fails offset = some (some data)) :
    data = (job.file.drop offset).take job.bufSize.toNat ∧ data.length ≤ maxPacketLength := by
  simp only [Job.read] at reads
  split at reads
  · cases reads
  · split at reads
    · cases reads
    · split at reads
      · rename_i short
        obtain rfl := Option.some.inj (Option.some.inj reads)
        exact ⟨rfl, short⟩
      · cases reads

theorem Job.position_succ (job : Job) (count : Nat) :
    job.position (count + 1) = job.position count +
      ((job.file.drop (job.position count)).take job.bufSize.toNat).length := by
  simp only [Job.position, List.length_take, List.length_drop, Nat.succ_mul]
  omega

theorem Sound.send (sound : Sound job child) {readFails arrived : Bool} {next : Child}
    (room : child.server.window.middle < 2 ^ 31 - 1)
    (taken : childSend job readFails arrived child = some next) : Sound job next := by
  simp only [childSend, Option.bind_eq_bind, Option.bind_eq_some_iff, Option.some.injEq] at taken
  obtain ⟨chunk, reads, ⟨server, sent⟩, sends, rfl⟩ := taken
  have positive := sound.wellFormed.bottom_pos
  have lower := sound.lower
  have numbered := sound.numbered
  have read (data : List UInt8) (same : chunk = some data) :
      data = (job.file.drop child.server.offset).take job.bufSize.toNat ∧
        data.length ≤ maxPacketLength := by
    rw [same, Child.read] at reads
    split at reads
    · cases reads
    · exact Job.read_some reads
  rcases sendData_cases sound.wellFormed (by omega) (fun data same => (read data same).2) sends with
    ⟨_, rfl, rfl⟩ | ⟨_, rfl, ⟨_, packet, rfl⟩ | ⟨_, packet, rfl⟩⟩ |
    ⟨opened, data, packet, datagram, same, _, _, _, _, rfl, rfl⟩
  · rw [List.append_nil]
    exact sound.of_same rfl rfl
  · rw [List.append_nil]
    exact sound.of_same rfl rfl
  · rw [List.append_nil]
    exact sound.of_same rfl rfl
  · have next := asInt32_eq (child.server.window.middle + 1) (by omega) (by omega)
    have total : (child.sent ++ [datagram]).length = child.sent.length + 1 := by simp
    constructor
    · exact put_wellFormed (withMiddle_wellFormed sound.wellFormed _) packet
    · simp only [Window.put, Window.withMiddle, next]
      omega
    · simp only [Window.put, Window.withMiddle, next]
      omega
    · simp only [Window.put, Window.withMiddle, total]
      have before := sound.sent
      omega
    · simp only [Window.put, Window.withMiddle, next, total]
      omega
    · simp only [total]
      rw [job.position_succ, sound.position, (read data same).1, sound.position]

theorem Sound.slide (sound : Sound job child) {newBottom : Int} {window : Window}
    (forward : newBottom > child.server.window.bottom)
    (slides : slide child.server.window newBottom = some window) (state : ServerState) :
    Sound job ⟨{ child.server with state, window }, child.sent⟩ ↔
      newBottom ≤ child.server.window.middle ∧ newBottom + child.server.window.size ≤ 2 ^ 31 := by
  have lower := sound.lower
  have numbered := sound.numbered
  have positive := sound.wellFormed.size_pos
  have bottom := sound.wellFormed.bottom_pos
  have fields := slide_fields slides
  constructor
  · intro after
    have topEq := after.wellFormed.top_eq
    have topBound := after.wellFormed.top_lt
    have number := after.numbered
    simp only at topEq topBound number
    rw [fields] at topEq topBound number
    simp only at topEq topBound number
    omega
  · rintro ⟨sent, small⟩
    have exact := slide_eq sound.wellFormed newBottom (by omega) small
    obtain rfl := Option.some.inj (slides.symm.trans exact)
    have topEq := sound.wellFormed.top_eq
    constructor
    · exact slid_wellFormed sound.wellFormed newBottom (by omega) small
    · simp only [Window.slid]
      omega
    · simp only [Window.slid]
      have upper := sound.upper
      omega
    · simp only [Window.slid]
      omega
    · simp only [Window.slid]
      omega
    · exact sound.position

theorem Sound.process_iff (sound : Sound job child) (received : Int × Packet) :
    (∃ step, process received child.server = some step ∧
      Sound job { child with server := step.1 }) ↔ Tolerates child.server received := by
  obtain ⟨code, incoming⟩ := received
  have different : Flag.rr.code ≠ Flag.srej.code := by decide
  simp only [Tolerates, process]
  by_cases rejected : code = crcError
  · simp only [if_pos rejected]
    exact ⟨fun _ => .inl rejected, fun _ => ⟨_, rfl, sound.withState _⟩⟩
  rw [or_iff_right rejected]
  simp only [if_neg rejected]
  by_cases rr : incoming.flag = Flag.rr.code
  · have notSrej : incoming.flag ≠ Flag.srej.code := by rwa [rr]
    simp only [if_pos rr]
    by_cases forward : asInt32 incoming.number > child.server.window.bottom
    · have width : asInt32 incoming.number < 2 ^ 31 := by
        unfold asInt32
        omega
      obtain ⟨window, slides⟩ := Option.isSome_iff_exists.mp
        (slide_isSome sound.wellFormed (asInt32 incoming.number) (by omega) (by omega))
      simp only [if_pos forward, slides, Option.bind_eq_bind, Option.bind_some]
      constructor
      · rintro ⟨step, taken, after⟩
        obtain rfl := Option.some.inj taken
        exact ⟨fun _ _ => (sound.slide forward slides _).mp after, fun srej => absurd srej notSrej⟩
      · rintro ⟨inRange, _⟩
        exact ⟨_, rfl, (sound.slide forward slides _).mpr (inRange rr forward)⟩
    · simp only [if_neg forward, Option.bind_eq_bind, Option.bind_some]
      constructor
      · intro _
        exact ⟨fun _ ahead => absurd ahead forward, fun srej => absurd srej notSrej⟩
      · intro _
        exact ⟨_, rfl, sound.withState _⟩
  simp only [if_neg rr]
  by_cases srej : incoming.flag = Flag.srej.code
  · simp only [if_pos srej]
    have inside := getFromBuffer_isSome_iff sound.wellFormed (asInt32 incoming.number)
    constructor
    · rintro ⟨step, taken, _⟩
      simp only [Option.bind_eq_bind, Option.bind_eq_some_iff] at taken
      obtain ⟨resend, found, _⟩ := taken
      exact ⟨fun asked => absurd asked rr, fun _ => inside.mp ⟨resend, found⟩⟩
    · rintro ⟨_, inBuffer⟩
      obtain ⟨resend, found⟩ := inside.mpr (inBuffer srej)
      simp only [found, Option.bind_eq_bind, Option.bind_some]
      cases sendPacket2 { resend with flag := Flag.resend.code } with
      | none => exact ⟨_, rfl, sound.withState _⟩
      | some datagram => exact ⟨_, rfl, sound.withState _⟩
  · simp only [if_neg srej]
    constructor
    · intro _
      exact ⟨fun asked => absurd asked rr, fun asked => absurd asked srej⟩
    · intro _
      exact ⟨_, rfl, sound.withState _⟩

theorem Sound.childProcess_iff (sound : Sound job child) (stack : Packet)
    (datagram : List UInt8) :
    (∃ next, childProcess job stack datagram child = some next ∧ Sound job next) ↔
      ToleratesDatagram job child.server stack datagram := by
  simp only [childProcess, Option.bind_eq_bind, Option.bind_eq_some_iff, ToleratesDatagram]
  constructor
  · rintro ⟨next, ⟨received, receives, step, taken, same⟩, after⟩
    obtain rfl := Option.some.inj same
    exact ⟨received, receives, (sound.process_iff received).mp ⟨step, taken, after⟩⟩
  · rintro ⟨received, receives, tolerable⟩
    obtain ⟨step, taken, after⟩ := (sound.process_iff received).mpr tolerable
    exact ⟨_, ⟨received, receives, step, taken, rfl⟩, after⟩

theorem Sound.wait (sound : Sound job child) {arrived : Bool} {next : Child}
    (taken : childWait arrived child = some next) : Sound job next := by
  simp only [childWait, Option.bind_eq_bind, Option.bind_eq_some_iff, Option.some.injEq] at taken
  obtain ⟨⟨server, sent⟩, waits, rfl⟩ := taken
  rcases waitOnAck_cases sound.wellFormed waits with
    ⟨_, _, rfl⟩ | ⟨_, _, _, rfl⟩ | ⟨_, _, _, ⟨_, same, _⟩ | ⟨_, _, same, _⟩⟩
  · exact sound.of_same rfl rfl
  · exact sound.of_same rfl rfl
  · rw [same]
    exact sound.of_same rfl rfl
  · rw [same]
    exact sound.of_same rfl rfl

theorem Sound.bye (sound : Sound job child) {packet : Packet}
    {received : Option (Packet × List UInt8)} {next : Child}
    (taken : childBye job packet received child = some next) : Sound job next := by
  simp only [childBye, Option.bind_eq_bind, Option.bind_eq_some_iff, Option.some.injEq] at taken
  obtain ⟨received, _, ⟨server, sent⟩, ends, rfl⟩ := taken
  obtain ⟨_, _, same⟩ := bye_cases ends
  rw [same]
  exact sound.of_same rfl rfl

end

/-! The runs. -/

theorem Job.start_sound (job : Job) (packet : Packet) (eofIndex : Int)
    (positive : 1 ≤ job.windowSize) (small : job.windowSize < 2 ^ 31) :
    Sound job (job.start packet eofIndex) := by
  constructor
  · exact initWindow_wellFormed job.windowSize positive small
  · exact Int.le_refl 1
  · simp only [Job.start, initWindow]
    omega
  · exact Int.le_refl 1
  · rfl
  · simp [Job.start, Job.position]

def Tolerable (job : Job) (child : Child) : ChildEvent → Child → Prop
  | .send _ _, _ => child.server.window.middle < 2 ^ 31 - 1
  | .process stack datagram, _ => ToleratesDatagram job child.server stack datagram
  | .wait _, _ => True
  | .bye _ _, _ => True

instance (job : Job) (child : Child) (event : ChildEvent) (next : Child) :
    Decidable (Tolerable job child event next) :=
  match event with
  | .send _ _ => inferInstanceAs (Decidable (_ < _))
  | .process stack datagram =>
      inferInstanceAs (Decidable (ToleratesDatagram job child.server stack datagram))
  | .wait _ => isTrue trivial
  | .bye _ _ => isTrue trivial

theorem Sound.step {job : Job} {child next : Child} {event : ChildEvent}
    (sound : Sound job child) (taken : childStep job event child = some next)
    (tolerable : Tolerable job child event next) : Sound job next := by
  cases childStep_moves taken with
  | send _ sends => exact sound.send tolerable sends
  | process _ processes =>
      obtain ⟨after, reached, kept⟩ := (sound.childProcess_iff _ _).mpr tolerable
      obtain rfl := Option.some.inj (processes.symm.trans reached)
      exact kept
  | wait _ waits => exact sound.wait waits
  | bye _ ends => exact sound.bye ends

theorem Job.reached_sound (job : Job) (packet : Packet) (eofIndex : Int)
    (positive : 1 ≤ job.windowSize) (small : job.windowSize < 2 ^ 31) (child : Child)
    (reach : Reach (· = job.start packet eofIndex) (childStep job) (Tolerable job) child) :
    Sound job child := by
  apply reach.invariant
  · rintro _ rfl
    exact job.start_sound packet eofIndex positive small
  · intro before event after sound taken tolerable
    exact sound.step taken tolerable

/-- A child that has only seen tolerable datagrams is sound, and the next datagram keeps it so
exactly when it is tolerable. -/
theorem process_tolerates_iff (job : Job) (packet : Packet) (eofIndex : Int)
    (positive : 1 ≤ job.windowSize) (small : job.windowSize < 2 ^ 31) (child : Child)
    (reach : Reach (· = job.start packet eofIndex) (childStep job) (Tolerable job) child) :
    Sound job child ∧ ∀ stack datagram, child.server.state = .process →
      ((∃ next, childStep job (.process stack datagram) child = some next ∧ Sound job next) ↔
        ToleratesDatagram job child.server stack datagram) := by
  have sound := job.reached_sound packet eofIndex positive small child reach
  refine ⟨sound, ?_⟩
  intro stack datagram state
  simp only [childStep, if_pos state]
  exact sound.childProcess_iff stack datagram

theorem toleratesDatagram_frame (job : Job) (server : Server) (stack : Packet) (host : ByteOrder)
    (seqNum : UInt32) (flag : UInt8) :
    ToleratesDatagram job server stack (frame host seqNum flag []) ↔
      (flag = Flag.rr.code → asInt32 seqNum.toNat > server.window.bottom →
        asInt32 seqNum.toNat ≤ server.window.middle ∧
          asInt32 seqNum.toNat + server.window.size ≤ 2 ^ 31) ∧
      (flag = Flag.srej.code → 0 ≤ asInt32 (asInt32 seqNum.toNat - 1) ∨
        server.window.size ∣ asInt32 (asInt32 seqNum.toNat - 1)) := by
  obtain ⟨packet, receives, sequence, kind, _⟩ :=
    recvPacket_frame host job.host stack seqNum flag [] (Nat.zero_le _)
  have accepted : (([] : List UInt8).length : Int) ≠ crcError := by decide
  simp only [ToleratesDatagram, receives, Option.some.injEq, exists_eq_left', Tolerates,
    or_iff_right accepted, Packet.number, sequence, kind]

def shortJob : Job where
  host := .little
  file := [104, 105, 10]
  bufSize := 400
  windowSize := 4

theorem shortJob_sends : ∃ child,
    Reach (· = shortJob.start Packet.zero 0) (childStep shortJob) (Tolerable shortJob) child ∧
    child.server.state = .process ∧ child.server.window.middle = 2 ∧
    child.server.window.bottom = 1 ∧ child.server.window.size = 4 := by
  have sends : (Transition.run (childStep shortJob) [.send false true]
      (shortJob.start Packet.zero 0)).map (fun child => (child.server.state,
        child.server.window.middle, child.server.window.bottom, child.server.window.size)) =
      some (.process, 2, 1, 4) := by
    decide +kernel
  obtain ⟨child, executed, values⟩ := Option.map_eq_some_iff.mp sends
  simp only [Prod.mk.injEq] at values
  exact ⟨child, .run _ (.start rfl) executed (by decide +kernel), values⟩

theorem process_tolerates_rr : ∃ child next, child.server.state = .process ∧
    childStep shortJob (.process Packet.zero (frame .big 2 Flag.rr.code [])) child = some next ∧
    Sound shortJob next := by
  obtain ⟨child, reach, state, middle, bottom, size⟩ := shortJob_sends
  have tolerable : ToleratesDatagram shortJob child.server Packet.zero
      (frame .big 2 Flag.rr.code []) := by
    rw [toleratesDatagram_frame, middle, size]
    exact ⟨fun _ _ => by decide, fun srej => by cases srej⟩
  obtain ⟨next, taken, sound⟩ := ((process_tolerates_iff shortJob Packet.zero 0 (by decide)
    (by decide) child reach).2 Packet.zero _ state).mpr tolerable
  exact ⟨child, next, state, taken, sound⟩

/-- The server has sent one packet: RR 5 moves the window behind packets it never sent, and the
slot of SREJ 0 has the index -1. -/
theorem process_intolerant : ∃ child,
    Reach (· = shortJob.start Packet.zero 0) (childStep shortJob) (fun _ _ _ => True) child ∧
    child.server.state = .process ∧
    (¬∃ next, childStep shortJob (.process Packet.zero (frame .big 5 Flag.rr.code [])) child =
      some next ∧ Sound shortJob next) ∧
    ¬∃ next, childStep shortJob (.process Packet.zero (frame .big 0 Flag.srej.code [])) child =
      some next ∧ Sound shortJob next := by
  obtain ⟨child, reach, state, middle, bottom, size⟩ := shortJob_sends
  have sound := shortJob.reached_sound Packet.zero 0 (by decide) (by decide) child reach
  refine ⟨child, reach.mono fun _ _ _ _ => trivial, state, ?_, ?_⟩
  · simp only [childStep, if_pos state]
    rw [sound.childProcess_iff, toleratesDatagram_frame, middle, bottom]
    rintro ⟨inRange, _⟩
    exact absurd (inRange rfl (by decide)).1 (by decide)
  · simp only [childStep, if_pos state]
    rw [sound.childProcess_iff, toleratesDatagram_frame, size]
    rintro ⟨_, inBuffer⟩
    exact absurd (inBuffer rfl) (by decide)

end RemoteCopy
