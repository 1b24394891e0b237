import Cpe464.RemoteCopy.Child

/-!
Which datagrams the main socket of the server may hand to a child. The request is used
unchecked, so a transfer starts as it should exactly on the requests that need no check.
Once started, neither its reads nor its window leave their arrays, whatever RRs arrive.
-/

namespace RemoteCopy

open Bytes Transition

theorem asInt32_lt (value : Int) : asInt32 value < 2 ^ 31 := by
  unfold asInt32
  omega

/-! Windows that rogue RRs may have moved. -/

/-- The arrays have one cell for each number of the window. Nothing is said of `middle` and `top`. -/
structure Window.Sized (window : Window) (size : Int) : Prop where
  size_eq : window.size = size
  bottom_pos : 1 ≤ window.bottom
  bottom_lt : window.bottom < 2 ^ 31
  buffer_length : window.buffer.length = size.toNat
  valid_length : window.valid.length = size.toNat

theorem initWindow_sized (size : Int) : (initWindow size).Sized size := by
  constructor
  · rfl
  · exact Int.le_refl 1
  · simp only [initWindow]
    omega
  · exact List.length_replicate
  · exact List.length_replicate

theorem clearValid_length {window next : Window} {count : Nat} {first : Int}
    (clears : clearValid window count first = some next) :
    next.valid.length = window.valid.length := by
  induction count generalizing window first with
  | zero =>
      obtain rfl := Option.some.inj clears
      rfl
  | succ count ih =>
      simp only [clearValid, Option.bind_eq_bind, Option.bind_eq_some_iff] at clears
      obtain ⟨index, _, rest⟩ := clears
      exact (ih rest).trans List.length_set

section

variable {window next : Window} {size : Int}

theorem Window.Sized.addToBuffer (sized : window.Sized size) {packet : Packet}
    (adds : addToBuffer window packet = some next) : next.Sized size := by
  simp only [RemoteCopy.addToBuffer, Option.bind_eq_bind, Option.bind_eq_some_iff,
    Option.some.injEq] at adds
  obtain ⟨index, _, rfl⟩ := adds
  constructor
  · exact sized.size_eq
  · exact sized.bottom_pos
  · exact sized.bottom_lt
  · exact List.length_set.trans sized.buffer_length
  · exact List.length_set.trans sized.valid_length

theorem Window.Sized.withMiddle (sized : window.Sized size) (middle : Int) :
    (window.withMiddle middle).Sized size := by
  constructor
  · exact sized.size_eq
  · exact sized.bottom_pos
  · exact sized.bottom_lt
  · exact sized.buffer_length
  · exact sized.valid_length

theorem Window.Sized.slide (sized : window.Sized size) {newBottom : Int}
    (forward : newBottom > window.bottom) (small : newBottom < 2 ^ 31)
    (slides : slide window newBottom = some next) : next.Sized size := by
  have bottom := sized.bottom_pos
  have fields := slide_fields slides
  simp only [RemoteCopy.slide, Option.bind_eq_bind, Option.bind_eq_some_iff,
    Option.some.injEq] at slides
  obtain ⟨cleared, clears, rfl⟩ := slides
  constructor
  · rw [fields]
    exact sized.size_eq
  · rw [fields]
    simp only
    omega
  · rw [fields]
    exact small
  · rw [fields]
    exact sized.buffer_length
  · exact (clearValid_length clears).trans sized.valid_length

theorem Window.Sized.addToBuffer_isSome (sized : window.Sized size) (positive : 1 ≤ size)
    (small : size < 2 ^ 31) (packet : Packet) :
    ∃ next, RemoteCopy.addToBuffer window packet = some next := by
  have length := sized.buffer_length
  have width := asUInt32_eq size (by omega) (by omega)
  have below := Int.emod_lt_of_pos (asUInt32 (packet.number - 1)) (by omega : 0 < size)
  simp only [RemoteCopy.addToBuffer, packetIndex, sized.size_eq, width]
  rw [if_neg (by omega)]
  exact ⟨_, rfl⟩

theorem Window.Sized.slotIndex_isSome (sized : window.Sized size) (positive : 1 ≤ size)
    (seqNum : Int) (lower : 1 ≤ seqNum) (upper : seqNum ≤ 2 ^ 31) :
    ∃ index, slotIndex window seqNum = some index ∧ index < size.toNat := by
  have length := sized.buffer_length
  have number := asInt32_eq (seqNum - 1) (by omega) (by omega)
  have natural := Int.tmod_nonneg size (by omega : 0 ≤ seqNum - 1)
  have below := Int.tmod_lt_of_pos (seqNum - 1) (by omega : 0 < size)
  simp only [slotIndex, sized.size_eq, number]
  rw [if_neg (by omega)]
  exact ⟨_, rfl, by omega⟩

theorem Window.Sized.getFromBuffer_isSome (sized : window.Sized size) (positive : 1 ≤ size)
    (seqNum : Int) (lower : 1 ≤ seqNum) (upper : seqNum ≤ 2 ^ 31) :
    ∃ packet, getFromBuffer window seqNum = some packet := by
  obtain ⟨index, found, inside⟩ := sized.slotIndex_isSome positive seqNum lower upper
  rw [← sized.buffer_length] at inside
  simp only [getFromBuffer, found, Option.bind_eq_bind, Option.bind_some]
  exact ⟨_, List.getElem?_eq_getElem inside⟩

end

theorem Window.Sized.clearValid_isSome {window : Window} {size : Int} (sized : window.Sized size)
    (positive : 1 ≤ size) (count : Nat) (first : Int) (lower : 1 ≤ first)
    (upper : first + count ≤ 2 ^ 31 + 1) : ∃ next, clearValid window count first = some next := by
  induction count generalizing window first with
  | zero => exact ⟨window, rfl⟩
  | succ count ih =>
      rw [Int.natCast_succ] at upper
      obtain ⟨index, found, _⟩ := sized.slotIndex_isSome positive first lower (by omega)
      simp only [clearValid, found, Option.bind_eq_bind, Option.bind_some]
      refine ih ?_ (first + 1) (by omega) (by omega)
      constructor
      · exact sized.size_eq
      · exact sized.bottom_pos
      · exact sized.bottom_lt
      · exact sized.buffer_length
      · exact List.length_set.trans sized.valid_length

theorem Window.Sized.slide_isSome {window : Window} {size : Int} (sized : window.Sized size)
    (positive : 1 ≤ size) (newBottom : Int) (forward : newBottom > window.bottom)
    (small : newBottom < 2 ^ 31) : ∃ next, RemoteCopy.slide window newBottom = some next := by
  have bottom := sized.bottom_pos
  obtain ⟨cleared, clears⟩ := sized.clearValid_isSome positive
    (newBottom - window.bottom).toNat window.bottom bottom (by omega)
  simp only [RemoteCopy.slide, clears, Option.bind_eq_bind, Option.bind_some]
  exact ⟨_, rfl⟩

/-! The state functions. -/

section

variable {server : Server} {size : Int}

theorem sendData_sized (sized : server.window.Sized size) (positive : 1 ≤ size)
    (small : size < 2 ^ 31) (host : ByteOrder) (chunk : Option (List UInt8)) (arrived : Bool) :
    ∃ step, sendData host chunk arrived server = some step ∧ step.1.window.Sized size := by
  unfold sendData
  split
  · exact ⟨_, rfl, sized⟩
  · cases chunk with
    | none => exact ⟨_, rfl, sized⟩
    | some data =>
        simp only
        split
        · exact ⟨_, rfl, sized⟩
        · split
          · exact ⟨_, rfl, sized⟩
          · have moved := sized.withMiddle (asInt32 (server.window.middle + 1))
            rename_i datagram sends
            obtain ⟨window, adds⟩ := moved.addToBuffer_isSome positive small (construct host
              { server.packet with
                payload := server.packet.payload.store 0 data
                seqNum := UInt32.ofInt server.window.middle
                size := UInt32.ofNat (headerLength + data.length)
                flag := Flag.data.code })
            have kept := moved.addToBuffer adds
            simp only [Window.withMiddle] at adds
            simp only [adds, Option.bind_eq_bind, Option.bind_some]
            exact ⟨_, rfl, kept⟩

theorem waitOnAck_sized (sized : server.window.Sized size) (positive : 1 ≤ size)
    (arrived : Bool) :
    ∃ step, waitOnAck arrived server = some step ∧ step.1.window.Sized size := by
  have bottom := sized.bottom_lt
  obtain ⟨packet, found⟩ := sized.getFromBuffer_isSome positive server.window.bottom
    sized.bottom_pos (by omega)
  unfold waitOnAck
  simp only [found, Option.bind_eq_bind, Option.bind_some]
  split
  · exact ⟨_, rfl, sized⟩
  · split
    · exact ⟨_, rfl, sized⟩
    · split
      · exact ⟨_, rfl, sized⟩
      · exact ⟨_, rfl, sized⟩

theorem process_fields {received : Int × Packet} {step : ServerStep}
    (taken : process received server = some step) :
    step.1.waitCount = server.waitCount ∧ step.1.byeCount = server.byeCount ∧
    (step.1.state = .waitOnAck ∨ step.1.state = .sendData ∨ step.1.state = .bye ∨
      step.1.state = .exited) ∧
    (step.1.window = server.window ∨ ∃ newBottom, newBottom > server.window.bottom ∧
      newBottom < 2 ^ 31 ∧ slide server.window newBottom = some step.1.window) := by
  obtain ⟨code, incoming⟩ := received
  obtain ⟨next, sent⟩ := step
  rcases process_inverts taken with ⟨_, rfl, _⟩ | ⟨_, _, _, window, moves, made⟩ |
    ⟨_, _, resend, _, counted, ⟨_, made, _⟩ | ⟨_, _, made, _⟩⟩ | ⟨_, _, _, rfl, _⟩
  · exact ⟨rfl, rfl, .inl rfl, .inl rfl⟩
  · have slides : window = server.window ∨ ∃ newBottom, newBottom > server.window.bottom ∧
        newBottom < 2 ^ 31 ∧ slide server.window newBottom = some window := by
      split at moves
      · rename_i forward
        exact .inr ⟨_, forward, asInt32_lt _, moves⟩
      · exact .inl (Option.some.inj moves).symm
    split at made
    · rw [made]
      exact ⟨rfl, rfl, .inr (.inr (.inl rfl)), slides⟩
    · rw [made]
      exact ⟨rfl, rfl, .inr (.inl rfl), slides⟩
  · rw [made]
    exact ⟨counted, rfl, .inr (.inr (.inr rfl)), .inl rfl⟩
  · rw [made]
    exact ⟨counted, rfl, .inr (.inl rfl), .inl rfl⟩
  · exact ⟨rfl, rfl, .inr (.inl rfl), .inl rfl⟩

theorem process_sized (sized : server.window.Sized size) {received : Int × Packet}
    {step : ServerStep} (taken : process received server = some step) :
    step.1.window.Sized size := by
  obtain ⟨_, _, _, same | ⟨newBottom, forward, small, slides⟩⟩ := process_fields taken
  · exact same ▸ sized
  · exact sized.slide forward small slides

theorem process_isSome (sized : server.window.Sized size) (positive : 1 ≤ size)
    (received : Int × Packet)
    (asked : received.2.flag = Flag.srej.code → 1 ≤ asInt32 received.2.number) :
    ∃ step, process received server = some step := by
  obtain ⟨code, incoming⟩ := received
  have width := asInt32_lt incoming.number
  simp only [process]
  by_cases rejected : code = crcError
  · rw [if_pos rejected]
    exact ⟨_, rfl⟩
  rw [if_neg rejected]
  by_cases rr : incoming.flag = Flag.rr.code
  · rw [if_pos rr]
    by_cases forward : asInt32 incoming.number > server.window.bottom
    · obtain ⟨window, slides⟩ := sized.slide_isSome positive _ forward width
      simp only [if_pos forward, slides, Option.bind_eq_bind, Option.bind_some]
      exact ⟨_, rfl⟩
    · simp only [if_neg forward, Option.bind_eq_bind, Option.bind_some]
      exact ⟨_, rfl⟩
  rw [if_neg rr]
  by_cases srej : incoming.flag = Flag.srej.code
  · obtain ⟨resend, found⟩ :=
      sized.getFromBuffer_isSome positive (asInt32 incoming.number) (asked srej) (by omega)
    simp only [if_pos srej, found, Option.bind_eq_bind, Option.bind_some]
    split
    · exact ⟨_, rfl⟩
    · exact ⟨_, rfl⟩
  · rw [if_neg srej]
    exact ⟨_, rfl⟩

end

/-! The run of a child. -/

structure Job.Usable (job : Job) : Prop where
  bufSize_pos : 1 ≤ job.bufSize
  bufSize_le : job.bufSize ≤ maxPacketLength
  windowSize_pos : 1 ≤ job.windowSize

def Child.Sized (job : Job) (child : Child) : Prop := child.server.window.Sized job.windowSize

/-- No window operation divides by zero, and the steps that the request decides on do not leave
their arrays. -/
structure Serviceable (job : Job) (child : Child) : Prop where
  size_pos : 1 ≤ child.server.window.size
  buffer_length : (child.server.window.buffer.length : Int) = child.server.window.size
  valid_length : (child.server.window.valid.length : Int) = child.server.window.size
  reads : ∀ readFails, ∃ chunk, child.read job readFails = some chunk
  sends : child.server.state = .sendData → ∀ readFails arrived,
    ∃ next, childStep job (.send readFails arrived) child = some next
  waits : child.server.state = .waitOnAck → ∀ arrived,
    ∃ next, childStep job (.wait arrived) child = some next
  processes : child.server.state = .process → ∀ stack datagram received,
    recvPacket job.host stack datagram = some received →
    (received.2.flag = Flag.srej.code → 1 ≤ asInt32 received.2.number) →
    ∃ next, childStep job (.process stack datagram) child = some next

section

variable {job : Job} {child : Child}

theorem Job.Usable.read (usable : job.Usable) (fails : Bool) (offset : Nat) :
    ∃ chunk, job.read fails offset = some chunk := by
  have lower := usable.bufSize_pos
  have upper := usable.bufSize_le
  simp only [Job.read]
  rw [if_neg (by omega)]
  split
  · exact ⟨_, rfl⟩
  · rw [if_pos (by
      simp only [List.length_take]
      omega)]
    exact ⟨_, rfl⟩

theorem Job.Usable.childRead (usable : job.Usable) (fails : Bool) :
    ∃ chunk, child.read job fails = some chunk := by
  unfold Child.read
  split
  · exact ⟨_, rfl⟩
  · exact usable.read fails _

theorem Job.Usable.send (usable : job.Usable) (small : job.windowSize < 2 ^ 31)
    (sized : Child.Sized job child) (readFails arrived : Bool) :
    ∃ next, childSend job readFails arrived child = some next ∧
      Child.Sized job next := by
  obtain ⟨chunk, reads⟩ : ∃ chunk, child.read job readFails = some chunk :=
    usable.childRead readFails
  obtain ⟨step, sends, after⟩ := sendData_sized sized usable.windowSize_pos small job.host chunk
    arrived
  refine ⟨⟨step.1, child.sent ++ step.2⟩, ?_, after⟩
  simp only [childSend, reads, sends, Option.bind_eq_bind, Option.bind_some]

theorem Job.Usable.wait (usable : job.Usable)
    (sized : Child.Sized job child) (arrived : Bool) :
    ∃ next, childWait arrived child = some next ∧ Child.Sized job next := by
  obtain ⟨step, waits, after⟩ := waitOnAck_sized sized usable.windowSize_pos arrived
  refine ⟨{ child with server := step.1 }, ?_, after⟩
  simp only [childWait, waits, Option.bind_eq_bind, Option.bind_some]

theorem Job.Usable.step (usable : job.Usable) (small : job.windowSize < 2 ^ 31)
    (sized : Child.Sized job child) {event : ChildEvent} {next : Child}
    (taken : childStep job event child = some next) :
    Child.Sized job next := by
  cases childStep_moves taken with
  | send _ sends =>
      obtain ⟨after, reached, kept⟩ := usable.send small sized _ _
      obtain rfl := Option.some.inj (reached.symm.trans sends)
      exact kept
  | process _ processes =>
      simp only [childProcess, Option.bind_eq_bind, Option.bind_eq_some_iff,
        Option.some.injEq] at processes
      obtain ⟨received, _, step, processes, rfl⟩ := processes
      exact process_sized sized processes
  | wait _ waits =>
      obtain ⟨after, reached, kept⟩ := usable.wait sized _
      obtain rfl := Option.some.inj (reached.symm.trans waits)
      exact kept
  | bye _ ends =>
      simp only [childBye, Option.bind_eq_bind, Option.bind_eq_some_iff,
        Option.some.injEq] at ends
      obtain ⟨received, _, ⟨server, sent⟩, ends, rfl⟩ := ends
      obtain ⟨_, _, same⟩ := bye_cases ends
      rw [same]
      exact sized

theorem Job.Usable.serviceable (usable : job.Usable) (small : job.windowSize < 2 ^ 31)
    (sized : Child.Sized job child) : Serviceable job child := by
  have positive := usable.windowSize_pos
  have size := sized.size_eq
  have buffer := sized.buffer_length
  have valid := sized.valid_length
  constructor
  · omega
  · omega
  · omega
  · exact usable.childRead
  · intro state readFails arrived
    obtain ⟨next, taken, _⟩ := usable.send small sized readFails arrived
    exact ⟨next, by simp only [childStep, if_pos state, taken]⟩
  · intro state arrived
    obtain ⟨next, taken, _⟩ := usable.wait sized arrived
    exact ⟨next, by simp only [childStep, if_pos state, taken]⟩
  · intro state stack datagram received receives asked
    obtain ⟨step, taken⟩ := process_isSome sized positive received asked
    exact ⟨{ child with server := step.1 }, by
      simp only [childStep, if_pos state, childProcess, receives, taken, Option.bind_eq_bind,
        Option.bind_some]⟩

theorem Job.Usable.run (usable : job.Usable) (small : job.windowSize < 2 ^ 31) (packet : Packet)
    (eofIndex : Int)
    (reach : Reach (· = job.start packet eofIndex) (childStep job) (fun _ _ _ => True) child) :
    Serviceable job child := by
  have sized : Child.Sized job child := by
    apply reach.invariant
    · rintro _ rfl
      exact initWindow_sized job.windowSize
    · intro before event after sized taken _
      exact usable.step small sized taken
  exact usable.serviceable small sized

end

/-! The request. -/

def Outcome.Proper (received : Int × Packet) : Outcome → Prop
  | ignored => True
  | refused => True
  | started job child => received.2.flag = Flag.fname.code ∧ 8 ≤ received.1 ∧
      0 ∈ received.2.copiedName received.1 ∧ job.Usable ∧
      ∀ later, Reach (· = child) (childStep job) (fun _ _ _ => True) later →
        Serviceable job later

/-- The packet holds two numbers and a name, and whoever names a file that opens has sent a
request with usable numbers. -/
def Answerable (host : ByteOrder) (opens : List UInt8 → Option (List UInt8))
    (received : Int × Packet) : Prop :=
  8 ≤ received.1 ∧ 0 ∈ received.2.copiedName received.1 ∧
    ∀ file, opens ((received.2.copiedName received.1).takeWhile (· ≠ 0)) = some file →
      received.2.flag = Flag.fname.code ∧
        (Job.mk host file (received.2.int32 host 0) (received.2.int32 host 4)).Usable

theorem filename_proper_iff (host : ByteOrder) (opens : List UInt8 → Option (List UInt8))
    (eofIndex : Int) (received : Int × Packet) :
    (∃ outcome, filename host opens eofIndex received.1 received.2 = some outcome ∧
      outcome.Proper received) ↔ Answerable host opens received := by
  unfold filename Answerable
  by_cases short : received.1 < 8
  · rw [if_pos short]
    constructor
    · rintro ⟨outcome, defined, _⟩
      cases defined
    · rintro ⟨long, _⟩
      omega
  rw [if_neg short]
  have long : 8 ≤ received.1 := by omega
  by_cases ended : 0 ∈ received.2.copiedName received.1
  · simp only [if_pos ended]
    cases found : opens ((received.2.copiedName received.1).takeWhile (· ≠ 0)) with
    | none =>
        constructor
        · intro _
          exact ⟨long, ended, fun file opened => by cases opened⟩
        · intro _
          exact ⟨.refused, rfl, trivial⟩
    | some file =>
        constructor
        · rintro ⟨outcome, same, proper⟩
          obtain rfl := Option.some.inj same
          obtain ⟨flag, _, _, usable, _⟩ := proper
          refine ⟨long, ended, ?_⟩
          intro other opened
          obtain rfl := Option.some.inj opened
          exact ⟨flag, usable⟩
        · rintro ⟨_, _, request⟩
          obtain ⟨flag, usable⟩ := request file rfl
          refine ⟨_, rfl, flag, long, ended, usable, ?_⟩
          intro later reach
          exact usable.run (asInt32_lt _) received.2 eofIndex reach
  · simp only [if_neg ended]
    constructor
    · rintro ⟨outcome, defined, _⟩
      cases defined
    · rintro ⟨_, holds, _⟩
      exact absurd holds ended

theorem mainLoop_receives {host : ByteOrder} {opens : List UInt8 → Option (List UInt8)}
    {eofIndex : Int} {packet : Packet} {datagram : List UInt8} {received : Int × Packet}
    (receives : recvPacket host packet datagram = some received) :
    mainLoop host opens eofIndex packet datagram =
      if received.1 = crcError then some .ignored
      else filename host opens eofIndex received.1 received.2 := by
  simp only [mainLoop, receives, Option.bind_eq_bind, Option.bind_some]

/-- A datagram on the main socket is ignored, refused or properly served exactly when it is
received without a fault and is corrupted or answerable. -/
theorem request_proper_iff (host : ByteOrder) (opens : List UInt8 → Option (List UInt8))
    (eofIndex : Int) (packet : Packet) (datagram : List UInt8) :
    (∃ received outcome, recvPacket host packet datagram = some received ∧
      mainLoop host opens eofIndex packet datagram = some outcome ∧ outcome.Proper received) ↔
    ∃ received, recvPacket host packet datagram = some received ∧
      (received.1 = crcError ∨ Answerable host opens received) := by
  constructor
  · rintro ⟨received, outcome, receives, served, proper⟩
    rw [mainLoop_receives receives] at served
    refine ⟨received, receives, ?_⟩
    by_cases rejected : received.1 = crcError
    · exact .inl rejected
    · rw [if_neg rejected] at served
      exact .inr ((filename_proper_iff host opens eofIndex received).mp ⟨outcome, served, proper⟩)
  · rintro ⟨received, receives, meets⟩
    by_cases rejected : received.1 = crcError
    · refine ⟨received, .ignored, receives, ?_, trivial⟩
      rw [mainLoop_receives receives, if_pos rejected]
    · obtain ⟨outcome, served, proper⟩ :=
        (filename_proper_iff host opens eofIndex received).mpr (meets.resolve_left rejected)
      refine ⟨received, outcome, receives, ?_, proper⟩
      rw [mainLoop_receives receives, if_neg rejected, served]

def windowless : List UInt8 :=
  frame .little 0 Flag.fname.code [144, 1, 0, 0, 0, 0, 0, 0, 97, 0]

/-- A transfer is started, and the first slot is computed modulo zero. -/
theorem windowless_improper : ∃ received job child,
    recvPacket .little Packet.zero windowless = some received ∧ received.1 ≠ crcError ∧
    mainLoop .little (fun _ => some []) 0 Packet.zero windowless = some (.started job child) ∧
    job.windowSize = 0 ∧
    getFromBuffer child.server.window child.server.window.bottom = none ∧
    ¬(Outcome.started job child).Proper received := by
  obtain ⟨packet, receives, _, _, _, payload⟩ := recvPacket_frame .little .little Packet.zero 0
    Flag.fname.code [144, 1, 0, 0, 0, 0, 0, 0, 97, 0] (by decide)
  have name : packet.copiedName 10 = [97, 0] := by
    rw [Packet.copiedName, payload]
    rfl
  have size : packet.int32 .little 4 = 0 := by
    simp only [Packet.int32, Buffer.fetch, payload]
    decide
  have received : recvPacket .little Packet.zero windowless = some (10, packet) := receives
  let job : Job := ⟨.little, [], packet.int32 .little 0, packet.int32 .little 4⟩
  refine ⟨(10, packet), job, job.start packet 0, received, (by decide : (10 : Int) ≠ crcError), ?_,
    size, ?_, ?_⟩
  · rw [mainLoop_receives received, if_neg (by decide : (10 : Int) ≠ crcError)]
    simp only [filename, name]
    rfl
  · simp only [Job.start, job, size]
    rfl
  · rintro ⟨_, _, _, usable, _⟩
    have positive := usable.windowSize_pos
    simp only [job, size] at positive
    omega

end RemoteCopy
