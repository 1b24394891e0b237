import Cpe464.RemoteCopy.RcopyCore
import Cpe464.RemoteCopy.Window

/-!
What one step of rcopy can do. Between two steps the window is `Settled`; from such a
window every step is one of the cases of `Receives`, and it leaves a settled window.
-/

namespace RemoteCopy

open Bytes

def Window.Quiet (window : Window) : Prop :=
  ∀ seqNum, window.bottom ≤ seqNum → seqNum ≤ window.top → window.isSet seqNum = false

structure Settled (state : ClientState) (window : Window) : Prop where
  wellFormed : window.WellFormed
  middle_eq : window.middle = window.bottom
  quiet : state = .recvData → window.Quiet
  gap : state = .missing → window.isSet window.bottom = false
  held : ∀ seqNum, window.bottom ≤ seqNum → seqNum ≤ window.top → window.isSet seqNum = true →
    (window.stored seqNum).number = seqNum

theorem Settled.centred {state : ClientState} {window : Window} (settled : Settled state window) :
    ({ window with middle := window.bottom } : Window) = window := by
  exact congrArg (fun middle => ({ window with middle } : Window)) settled.middle_eq.symm

theorem Settled.stopped {state : ClientState} {window : Window} (settled : Settled state window) :
    Settled .done window := by
  refine ⟨settled.wellFormed, settled.middle_eq, ?_, ?_, settled.held⟩
  · intro impossible
    cases impossible
  · intro impossible
    cases impossible

def flushWrites (window : Window) (dataLen : Int) : Nat → Int → List ClientAction
  | 0, _ => []
  | count + 1, first =>
      .write (window.stored first).payload dataLen :: flushWrites window dataLen count (first + 1)

def flushed (window : Window) (gap : Int) : Window :=
  ((window.withMiddle gap).unsetFrom (gap - window.bottom).toNat window.bottom).slid gap

@[simp] theorem flushed_bottom (window : Window) (gap : Int) : (flushed window gap).bottom = gap :=
  rfl

@[simp] theorem flushed_middle (window : Window) (gap : Int) :
    (flushed window gap).middle = gap := by
  simp [flushed, Window.slid, Window.withMiddle]

@[simp] theorem flushed_top (window : Window) (gap : Int) :
    (flushed window gap).top = gap + window.size - 1 := by
  simp [flushed, Window.slid, Window.withMiddle]

@[simp] theorem flushed_size (window : Window) (gap : Int) :
    (flushed window gap).size = window.size := by
  simp [flushed, Window.withMiddle]

structure Fits (window : Window) (outcome : Option (Int × Packet)) (after : Window) : Prop where
  data : ∀ length packet, outcome = some (length, packet) → length ≠ crcError →
    packet.flag ≠ Flag.endOfFile.code → window.bottom ≤ packet.number →
    packet.number ≤ window.top → window.top + 1 < 2 ^ 31
  flush : ∀ length packet, outcome = some (length, packet) → length ≠ crcError →
    packet.flag ≠ Flag.endOfFile.code → packet.number = window.bottom → ∀ gap,
    window.bottom < gap → gap ≤ window.top + 1 →
    (∀ seqNum, window.bottom < seqNum → seqNum < gap → window.isSet seqNum = true) →
    after.bottom = gap → gap + window.size ≤ 2 ^ 31

inductive Receives (window : Window) :
    ClientState → Option (Int × Packet) → ClientState → Window → List ClientAction → Prop
  | timeout {state} : Receives window state none .done window []
  | rejected {packet} : Receives window .recvData (some (crcError, packet)) .missing window
      [.srej window.bottom]
  | ignored {packet} : Receives window .missing (some (crcError, packet)) .missing window []
  | finished {length packet} : length ≠ crcError → packet.flag = Flag.endOfFile.code →
      Receives window .recvData (some (length, packet)) .done window
        [.rr (asInt32 (packet.number + 1))]
  | finishedGap {length packet} : length ≠ crcError → packet.flag = Flag.endOfFile.code →
      packet.number = window.bottom → Receives window .missing (some (length, packet)) .done window
        [.rr (asInt32 (window.bottom + 1))]
  | early {length packet} : length ≠ crcError → packet.flag = Flag.endOfFile.code →
      Receives window .missing (some (length, packet)) .missing window []
  | next {length packet} : length ≠ crcError → packet.flag ≠ Flag.endOfFile.code →
      packet.number = window.bottom →
      Receives window .recvData (some (length, packet)) .recvData (window.slid (window.bottom + 1))
        [.write packet.payload length, .rr (window.bottom + 1)]
  | duplicate {state length packet} : length ≠ crcError → packet.flag ≠ Flag.endOfFile.code →
      Receives window state (some (length, packet)) state window [.rr window.bottom]
  | outside {length packet} : length ≠ crcError → packet.flag ≠ Flag.endOfFile.code →
      window.top < packet.number → Receives window .recvData (some (length, packet)) .done window []
  | buffered {state length packet} : length ≠ crcError → packet.flag ≠ Flag.endOfFile.code →
      window.bottom < packet.number → packet.number ≤ window.top →
      Receives window state (some (length, packet)) .missing (window.put packet)
        [.rr window.bottom]
  | filled {length packet state} (gap : Int) : length ≠ crcError →
      packet.flag ≠ Flag.endOfFile.code → packet.number = window.bottom →
      window.bottom < gap → gap ≤ window.top + 1 →
      (∀ seqNum, window.bottom < seqNum → seqNum < gap → window.isSet seqNum = true) →
      (gap ≤ window.top → window.isSet gap = false) →
      (state = .recvData ∧ (flushed (window.put packet) gap).Quiet ∨ state = .missing) →
      Receives window .missing (some (length, packet)) state (flushed (window.put packet) gap)
        ((if gap ≤ window.top then [.srej gap] else []) ++
          flushWrites (window.put packet) length (gap - window.bottom).toNat window.bottom ++
          [.rr gap])

/-! The window after a flush. -/

section

variable {window : Window} (wellFormed : window.WellFormed)

include wellFormed

theorem flushed_wellFormed (gap : Int) (forward : window.bottom ≤ gap)
    (small : gap + window.size ≤ 2 ^ 31) : (flushed window gap).WellFormed := by
  have moved := unsetFrom_wellFormed (withMiddle_wellFormed wellFormed gap)
    (gap - window.bottom).toNat window.bottom
  rw [flushed]
  rw [Window.unsetFrom_eq] at moved ⊢
  exact slid_wellFormed moved gap forward small

theorem flushed_isSet_kept (gap seqNum : Int) (forward : window.bottom ≤ gap)
    (lower : gap ≤ seqNum) (upper : seqNum ≤ window.top) :
    (flushed window gap).isSet seqNum = window.isSet seqNum := by
  have started := withMiddle_wellFormed wellFormed gap
  have moved := unsetFrom_wellFormed started (gap - window.bottom).toNat window.bottom
  have top := wellFormed.top_eq
  have kept := unsetFrom_isSet_of_ne started (gap - window.bottom).toNat window.bottom seqNum
    (by omega) (by simp only [Window.withMiddle]; omega)
  rw [flushed]
  rw [Window.unsetFrom_eq] at moved kept ⊢
  exact (slid_isSet_kept moved gap seqNum forward lower upper).trans kept

theorem flushed_isSet_entering (gap seqNum : Int) (lower : window.top < seqNum)
    (upper : seqNum < gap + window.size) : (flushed window gap).isSet seqNum = false := by
  have moved := unsetFrom_wellFormed (withMiddle_wellFormed wellFormed gap)
    (gap - window.bottom).toNat window.bottom
  rw [flushed]
  rw [Window.unsetFrom_eq] at moved ⊢
  exact slid_isSet_entering moved gap seqNum lower upper

end

theorem flushed_stored (window : Window) (gap seqNum : Int) :
    (flushed window gap).stored seqNum = window.stored seqNum := by
  rw [flushed, Window.slid_stored, Window.unsetFrom_eq]
  rfl

theorem slid_quiet {window : Window} (wellFormed : window.WellFormed) (gap : Int)
    (lower : window.bottom ≤ gap) (quiet : gap ≤ window.top → window.Quiet) :
    (window.slid gap).Quiet := by
  intro seqNum above below
  simp only [Window.slid] at above below
  by_cases kept : seqNum ≤ window.top
  · rw [slid_isSet_kept wellFormed gap seqNum lower above kept]
    exact quiet (by omega) seqNum (by omega) kept
  · exact slid_isSet_entering wellFormed gap seqNum (by omega) (by omega)

/-! The loops of `missing`. -/

theorem scanMissing_succ (count : Nat) (first : Int) (window : Window)
    (wellFormed : window.WellFormed) (lower : 1 ≤ first) (upper : first ≤ 2 ^ 31) :
    scanMissing window (count + 1) first =
      if window.isSet first = true then
        if first + 1 < 2 ^ 31 then scanMissing (window.withMiddle first) count (first + 1)
        else none
      else some (window.withMiddle first,
        if first ≠ window.bottom ∧ first ≠ asInt32 (window.top + 1) then [.srej first] else []) := by
  have valid := isValid_eq (withMiddle_wellFormed wellFormed first) first lower upper
  rw [scanMissing]
  change (isValid (window.withMiddle first) first).bind _ = _
  rw [valid, Option.bind_some]
  change (if window.isSet first = true then _ else _) = _
  congr 1
  change (if first ≠ window.bottom ∧ first ≠ asInt32 (window.top + 1) then _ else _) = _
  split <;> rfl

theorem scanMissing_cases (count : Nat) (first : Int) (window next : Window)
    (actions : List ClientAction) (wellFormed : window.WellFormed) (lower : 1 ≤ first)
    (upper : first ≤ 2 ^ 31)
    (scanned : scanMissing window (count + 1) first = some (next, actions)) :
    ∃ gap, first ≤ gap ∧ gap ≤ first + count ∧ next = window.withMiddle gap ∧
      (∀ seqNum, first ≤ seqNum → seqNum < gap → window.isSet seqNum = true) ∧
      ((window.isSet gap = false ∧ actions =
          if gap ≠ window.bottom ∧ gap ≠ asInt32 (window.top + 1) then [.srej gap] else []) ∨
        (gap = first + count ∧ window.isSet gap = true ∧ actions = [])) := by
  induction count generalizing first window with
  | zero =>
      rw [scanMissing_succ 0 first window wellFormed lower upper] at scanned
      refine ⟨first, Int.le_refl _, by omega, ?_⟩
      by_cases set : window.isSet first = true
      · rw [if_pos set] at scanned
        split at scanned
        · simp only [scanMissing, Option.some.injEq, Prod.mk.injEq] at scanned
          exact ⟨scanned.1.symm, by omega, Or.inr ⟨by simp, set, scanned.2.symm⟩⟩
        · cases scanned
      · rw [if_neg set, Option.some.injEq, Prod.mk.injEq] at scanned
        exact ⟨scanned.1.symm, by omega, Or.inl ⟨by simpa using set, scanned.2.symm⟩⟩
  | succ count ih =>
      rw [scanMissing_succ (count + 1) first window wellFormed lower upper] at scanned
      by_cases set : window.isSet first = true
      · rw [if_pos set] at scanned
        split at scanned
        · obtain ⟨gap, above, below, nextEq, passed, ending⟩ := ih (first + 1)
            (window.withMiddle first) (withMiddle_wellFormed wellFormed first) (by omega)
            (by omega) scanned
          refine ⟨gap, by omega, by omega, nextEq, ?_, ?_⟩
          · intro seqNum lower upper
            by_cases same : seqNum = first
            · rw [same]
              exact set
            · exact passed seqNum (by omega) upper
          · rcases ending with found | ⟨last, full⟩
            · exact Or.inl found
            · exact Or.inr ⟨by omega, full⟩
        · cases scanned
      · rw [if_neg set, Option.some.injEq, Prod.mk.injEq] at scanned
        refine ⟨first, Int.le_refl _, by omega, scanned.1.symm, by omega, ?_⟩
        exact Or.inl ⟨by simpa using set, scanned.2.symm⟩

theorem flushWrites_congr (left right : Window) (dataLen : Int) (count : Nat) (first : Int)
    (same : ∀ seqNum, left.stored seqNum = right.stored seqNum) :
    flushWrites left dataLen count first = flushWrites right dataLen count first := by
  induction count generalizing first with
  | zero => rfl
  | succ count ih => rw [flushWrites, flushWrites, same, ih]

theorem flushMissing_eq (dataLen : Int) (count : Nat) (first : Int) (window : Window)
    (wellFormed : window.WellFormed) (lower : 1 ≤ first) (upper : first + count ≤ window.top + 1) :
    flushMissing dataLen window count first =
      some (window.unsetFrom count first, flushWrites window dataLen count first) := by
  induction count generalizing first window with
  | zero => rfl
  | succ count ih =>
      have bound := wellFormed.top_lt
      rw [Int.natCast_succ] at upper
      have rest := ih (first + 1) (window.unset first) (unset_wellFormed wellFormed first)
        (by omega) (by simp only [Window.unset]; omega)
      rw [flushMissing, if_pos (by omega)]
      simp only [removeFromBuffer_eq wellFormed first lower (by omega), Option.bind_eq_bind,
        Option.bind_some, rest]
      rw [flushWrites_congr (window.unset first) window dataLen count (first + 1) (fun _ => rfl)]
      rfl

theorem leaveMissing_cases (gap : Int) (window after : Window) (state : ClientState)
    (actions made : List ClientAction) (wellFormed : window.WellFormed)
    (middle : window.middle = gap) (lower : window.bottom ≤ gap)
    (small : after.bottom = gap → gap + window.size ≤ 2 ^ 31)
    (left : leaveMissing window made = some (state, after, actions)) :
    actions = made ∧
      ((state = .recvData ∧ after = window.slid gap ∧ (gap ≤ window.top → window.Quiet)) ∨
        (state = .missing ∧ window.bottom < gap ∧ after = window.slid gap) ∨
        (state = .missing ∧ gap = window.bottom ∧ after = window)) := by
  obtain ⟨all, accounted, quiet⟩ : ∃ all, allAccounted window = some all ∧
      (all = true → gap ≤ window.top → window.Quiet) := by
    cases accounts : allAccounted window with
    | none => simp [leaveMissing, accounts] at left
    | some all =>
        refine ⟨all, rfl, ?_⟩
        rintro rfl inside
        rw [allAccounted, isClosed, middle, if_neg (by simpa using inside)] at accounts
        exact emptyBuffer_quiet wellFormed accounts
  have slides (next : Window) (slides : slide window gap = some next) (same : next = after) :
      after = window.slid gap := by
    have room := small (same ▸ slide_bottom window next gap slides)
    rw [slide_eq wellFormed gap lower room, Option.some.injEq] at slides
    exact (slides.trans same).symm
  simp only [leaveMissing, accounted, middle, Option.bind_eq_bind, Option.bind_some] at left
  by_cases done : all = true
  · simp only [if_pos done, Option.bind_eq_some_iff, Option.some.injEq, Prod.mk.injEq] at left
    obtain ⟨next, moved, rfl, same, rfl⟩ := left
    exact ⟨rfl, Or.inl ⟨rfl, slides next moved same, quiet done⟩⟩
  · rw [if_neg done] at left
    by_cases forward : gap > window.bottom
    · simp only [if_pos forward, Option.bind_eq_some_iff, Option.some.injEq, Prod.mk.injEq] at left
      obtain ⟨next, moved, rfl, same, rfl⟩ := left
      exact ⟨rfl, Or.inr (Or.inl ⟨rfl, forward, slides next moved same⟩)⟩
    · rw [if_neg forward, Option.some.injEq, Prod.mk.injEq, Prod.mk.injEq] at left
      obtain ⟨rfl, rfl, rfl⟩ := left
      exact ⟨rfl, Or.inr (Or.inr ⟨rfl, by omega, rfl⟩)⟩

/-! Every step is a case of `Receives`. -/

section

variable {window : Window} {state next : ClientState} {outcome : Option (Int × Packet)}
  {after : Window} {actions : List ClientAction}

theorem recvData_receives (settled : Settled .recvData window) (fits : Fits window outcome after)
    (taken : recvData window outcome = some (next, after, actions)) :
    Receives window .recvData outcome next after actions := by
  have wellFormed := settled.wellFormed
  have bottom := wellFormed.bottom_pos
  have top := wellFormed.top_eq
  have topBound := wellFormed.top_lt
  have positive := wellFormed.size_pos
  have centred := settled.centred
  rcases outcome with _ | ⟨length, packet⟩
  · simp only [recvData, Option.some.injEq, Prod.mk.injEq] at taken
    obtain ⟨rfl, rfl, rfl⟩ := taken
    exact .timeout
  · have unsignedBottom := asUInt32_eq window.bottom (by omega) (by omega)
    have unsignedTop := asUInt32_eq window.top (by omega) (by omega)
    simp only [recvData, unsignedBottom, unsignedTop, centred] at taken
    by_cases rejected : length = crcError
    · rw [if_pos rejected, Option.some.injEq, Prod.mk.injEq, Prod.mk.injEq] at taken
      obtain ⟨rfl, rfl, rfl⟩ := taken
      rw [rejected]
      exact .rejected
    rw [if_neg rejected] at taken
    by_cases ends : packet.flag = Flag.endOfFile.code
    · rw [if_pos ends, Option.some.injEq, Prod.mk.injEq, Prod.mk.injEq] at taken
      obtain ⟨rfl, rfl, rfl⟩ := taken
      exact .finished rejected ends
    rw [if_neg ends] at taken
    by_cases expected : packet.number = window.bottom
    · have room := fits.data length packet rfl rejected ends (by omega) (by omega)
      have slides := slide_eq wellFormed (window.bottom + 1) (by omega) (by omega)
      rw [if_pos expected, asInt32_eq (window.bottom + 1) (by omega) (by omega), slides] at taken
      simp only [Option.bind_eq_bind, Option.bind_some, Option.some.injEq, Prod.mk.injEq] at taken
      obtain ⟨rfl, rfl, rfl⟩ := taken
      exact .next rejected ends expected
    rw [if_neg expected] at taken
    by_cases old : packet.number < window.bottom
    · rw [if_pos old, Option.some.injEq, Prod.mk.injEq, Prod.mk.injEq] at taken
      obtain ⟨rfl, rfl, rfl⟩ := taken
      exact .duplicate rejected ends
    rw [if_neg old] at taken
    by_cases beyond : packet.number > window.top
    · rw [if_pos beyond, Option.some.injEq, Prod.mk.injEq, Prod.mk.injEq] at taken
      obtain ⟨rfl, rfl, rfl⟩ := taken
      exact .outside rejected ends beyond
    · have adds := addToBuffer_eq wellFormed packet (by omega)
      have kept : (window.put packet).withMiddle window.bottom = window.put packet := by
        rw [← settled.middle_eq]
        rfl
      rw [if_neg beyond, adds] at taken
      simp only [Option.bind_eq_bind, Option.bind_some, Option.some.injEq, Prod.mk.injEq] at taken
      obtain ⟨rfl, rfl, rfl⟩ := taken
      change Receives window _ _ _ ((window.put packet).withMiddle window.bottom) _
      rw [kept]
      exact .buffered rejected ends (by omega) (by omega)

theorem storeMissing_eq (wellFormed : window.WellFormed) (length : Int) (packet : Packet)
    (lower : window.bottom ≤ packet.number) (room : window.top + 1 < 2 ^ 31) (gap : Int)
    (srej : List ClientAction) (above : window.bottom ≤ gap) (below : gap ≤ window.top + 1)
    (scanned : scanMissing (window.put packet) (window.size.toNat + 1) window.bottom =
      some ((window.put packet).withMiddle gap, srej)) :
    storeMissing window length packet =
      leaveMissing (((window.put packet).withMiddle gap).unsetFrom (gap - window.bottom).toNat
        window.bottom) (srej ++ flushWrites (window.put packet) length
          (gap - window.bottom).toNat window.bottom ++ [.rr gap]) := by
  have bottom := wellFormed.bottom_pos
  have top := wellFormed.top_eq
  have loops : (asInt32 (window.top + 1) - window.bottom + 1).toNat = window.size.toNat + 1 := by
    rw [asInt32_eq (window.top + 1) (by omega) (by omega)]
    omega
  have flushes := flushMissing_eq length (gap - window.bottom).toNat window.bottom
    ((window.put packet).withMiddle gap)
    (withMiddle_wellFormed (put_wellFormed wellFormed packet) gap) bottom
    (by simp only [Window.put, Window.withMiddle]; omega)
  rw [flushWrites_congr ((window.put packet).withMiddle gap) (window.put packet) _ _ _
    (fun _ => rfl)] at flushes
  simp only [storeMissing, addToBuffer_eq wellFormed packet (by omega), Option.bind_eq_bind,
    Option.bind_some, Window.put_top, Window.put_bottom, loops, scanned,
    show ((window.put packet).withMiddle gap).middle = gap from rfl,
    show ((window.put packet).withMiddle gap).bottom = window.bottom from rfl, flushes,
    Window.unsetFrom_middle]

theorem storeMissing_waits (settled : Settled .missing window) (length : Int) (packet : Packet)
    (lower : window.bottom < packet.number) (upper : packet.number ≤ window.top)
    (room : window.top + 1 < 2 ^ 31)
    (taken : storeMissing window length packet = some (next, after, actions)) :
    next = .missing ∧ after = window.put packet ∧ actions = [.rr window.bottom] := by
  have wellFormed := settled.wellFormed
  have bottom := wellFormed.bottom_pos
  have positive := wellFormed.size_pos
  have top := wellFormed.top_eq
  have topBound := wellFormed.top_lt
  have added := put_wellFormed wellFormed packet
  have clear : (window.put packet).isSet window.bottom = false := by
    rw [put_isSet_of_ne wellFormed packet window.bottom (by omega) (by omega) (by omega)]
    exact settled.gap rfl
  have scanned : scanMissing (window.put packet) (window.size.toNat + 1) window.bottom =
      some ((window.put packet).withMiddle window.bottom, []) := by
    rw [scanMissing_succ _ _ _ added bottom (by omega), clear, if_neg Bool.false_ne_true,
      if_neg (by simp)]
  rw [storeMissing_eq wellFormed length packet (by omega) room window.bottom [] (Int.le_refl _)
    (by omega) scanned] at taken
  have whole : ((window.put packet).withMiddle window.bottom).unsetFrom
      (window.bottom - window.bottom).toNat window.bottom = window.put packet := by
    rw [Int.sub_self]
    exact congrArg (fun middle => (window.put packet).withMiddle middle) settled.middle_eq.symm
  rw [whole, Int.sub_self] at taken
  obtain ⟨rfl, outcomes⟩ := leaveMissing_cases window.bottom _ after next actions _ added
    settled.middle_eq (Int.le_refl _) (by simp only [Window.put_size]; omega) taken
  rcases outcomes with ⟨_, _, quiet⟩ | ⟨_, moved, _⟩ | ⟨rfl, _, rfl⟩
  · have waits := put_isSet_self wellFormed packet
    rw [quiet (by simp only [Window.put_top]; omega) packet.number (by
      simp only [Window.put_bottom]
      omega) upper] at waits
    cases waits
  · exact absurd moved (Int.lt_irrefl _)
  · exact ⟨rfl, rfl, rfl⟩

theorem storeMissing_fills (settled : Settled .missing window) (length : Int) (packet : Packet)
    (expected : packet.number = window.bottom) (accepted : length ≠ crcError)
    (data : packet.flag ≠ Flag.endOfFile.code) (outcomeEq : outcome = some (length, packet))
    (fits : Fits window outcome after)
    (taken : storeMissing window length packet = some (next, after, actions)) :
    Receives window .missing outcome next after actions := by
  have wellFormed := settled.wellFormed
  have bottom := wellFormed.bottom_pos
  have positive := wellFormed.size_pos
  have top := wellFormed.top_eq
  have topBound := wellFormed.top_lt
  have room := fits.data length packet outcomeEq accepted data (by omega) (by omega)
  have added := put_wellFormed wellFormed packet
  have filled : (window.put packet).isSet window.bottom = true := by
    rw [← expected]
    exact put_isSet_self wellFormed packet
  have others (seqNum : Int) (lower : window.bottom < seqNum) (upper : seqNum ≤ window.top) :
      (window.put packet).isSet seqNum = window.isSet seqNum := by
    exact put_isSet_of_ne wellFormed packet seqNum (by omega) (by omega) (by omega)
  -- The scan runs one number too far, to the cell that `bottom` has just filled.
  have aliased : (window.put packet).isSet (window.top + 1) = true := by
    rw [← filled, show window.top + 1 = window.bottom + (window.put packet).size by
      simp only [Window.put_size]
      omega, Window.isSet_add_size]
  obtain ⟨⟨scan, srej⟩, scanned⟩ : ∃ scan, scanMissing (window.put packet)
      (window.size.toNat + 1) window.bottom = some scan := by
    cases scans : scanMissing (window.put packet) (window.size.toNat + 1) window.bottom with
    | some scan => exact ⟨scan, rfl⟩
    | none =>
        have loops : (asInt32 (window.top + 1) - window.bottom + 1).toNat =
            window.size.toNat + 1 := by
          rw [asInt32_eq (window.top + 1) (by omega) (by omega)]
          omega
        simp only [storeMissing, addToBuffer_eq wellFormed packet (by omega), Option.bind_eq_bind,
          Option.bind_some, Window.put_top, Window.put_bottom, loops, scans, Option.bind_none] at taken
        cases taken
  obtain ⟨gap, above, below, rfl, passed, ending⟩ :=
    scanMissing_cases window.size.toNat window.bottom (window.put packet) scan srej added bottom
      (by omega) scanned
  have lower : window.bottom < gap := by
    rcases ending with ⟨unset, _⟩ | ⟨last, _⟩
    · by_contra different
      rw [show gap = window.bottom by omega, filled] at unset
      cases unset
    · omega
  have srejs : srej = if gap ≤ window.top then [.srej gap] else [] := by
    rcases ending with ⟨unset, sent⟩ | ⟨last, _, sent⟩
    · have inner : gap ≤ window.top := by
        by_contra outer
        rw [show gap = window.top + 1 by omega, aliased] at unset
        cases unset
      rw [sent, if_pos inner, if_pos]
      simp only [Window.put_top, Window.put_bottom,
        asInt32_eq (window.top + 1) (by omega) (by omega)]
      omega
    · rw [sent, if_neg (by omega)]
  have run (seqNum : Int) (above : window.bottom < seqNum) (before : seqNum < gap) :
      window.isSet seqNum = true := by
    rw [← others seqNum above (by omega)]
    exact passed seqNum (by omega) before
  have cleared := unsetFrom_wellFormed (withMiddle_wellFormed added gap)
    (gap - window.bottom).toNat window.bottom
  rw [storeMissing_eq wellFormed length packet (by omega) room gap srej above (by omega)
    scanned] at taken
  obtain ⟨rfl, outcomes⟩ := leaveMissing_cases gap _ after next actions _ cleared
    (Window.unsetFrom_middle _ _ _) (by simpa [Window.put, Window.withMiddle] using above)
    (by
      simp only [Window.unsetFrom_size]
      exact fits.flush length packet outcomeEq accepted data expected gap lower (by omega) run) taken
  have moved : after = flushed (window.put packet) gap ∧
      (next = .recvData ∧ after.Quiet ∨ next = .missing) := by
    rcases outcomes with ⟨rfl, rfl, quiet⟩ | ⟨rfl, _, rfl⟩ | ⟨_, same, _⟩
    · exact ⟨rfl, Or.inl ⟨rfl, slid_quiet cleared gap
        (by simpa [Window.put, Window.withMiddle] using above) quiet⟩⟩
    · exact ⟨rfl, Or.inr rfl⟩
    · simp only [Window.unsetFrom_bottom, Window.withMiddle, Window.put] at same
      omega
  obtain ⟨rfl, state⟩ := moved
  rw [srejs, outcomeEq]
  refine .filled gap accepted data expected lower (by omega) run ?_ state
  intro inner
  rcases ending with ⟨unset, _⟩ | ⟨last, _⟩
  · exact (others gap lower inner).symm.trans unset
  · omega

theorem missing_receives (settled : Settled .missing window) (fits : Fits window outcome after)
    (taken : missing window outcome = some (next, after, actions)) :
    Receives window .missing outcome next after actions := by
  have wellFormed := settled.wellFormed
  have bottom := wellFormed.bottom_pos
  have top := wellFormed.top_eq
  have topBound := wellFormed.top_lt
  have positive := wellFormed.size_pos
  rcases outcome with _ | ⟨length, packet⟩
  · simp only [missing, Option.some.injEq, Prod.mk.injEq] at taken
    obtain ⟨rfl, rfl, rfl⟩ := taken
    exact .timeout
  rw [missing] at taken
  by_cases rejected : length = crcError
  · rw [if_pos rejected, Option.some.injEq, Prod.mk.injEq, Prod.mk.injEq] at taken
    obtain ⟨rfl, rfl, rfl⟩ := taken
    rw [rejected]
    exact .ignored
  rw [if_neg rejected] at taken
  by_cases ends : packet.flag = Flag.endOfFile.code
  · rw [if_pos ends, asUInt32_eq window.bottom (by omega) (by omega)] at taken
    by_cases expected : window.bottom = packet.number
    · rw [if_pos expected, Option.some.injEq, Prod.mk.injEq, Prod.mk.injEq] at taken
      obtain ⟨rfl, rfl, rfl⟩ := taken
      exact .finishedGap rejected ends expected.symm
    · rw [if_neg expected, Option.some.injEq, Prod.mk.injEq, Prod.mk.injEq] at taken
      obtain ⟨rfl, rfl, rfl⟩ := taken
      exact .early rejected ends
  rw [if_neg ends] at taken
  by_cases inside : isInWindow window (asInt32 packet.number) = true
  · have signed : asInt32 packet.number = packet.number := by
      have width := packet.seqNum.toNat_lt
      simp only [isInWindow, Bool.and_eq_true, decide_eq_true_eq] at inside
      unfold asInt32 Packet.number at *
      omega
    rw [if_pos inside] at taken
    simp only [isInWindow, signed, Bool.and_eq_true, decide_eq_true_eq] at inside
    by_cases expected : packet.number = window.bottom
    · exact storeMissing_fills settled length packet expected rejected ends rfl fits taken
    · have room := fits.data length packet rfl rejected ends inside.1 inside.2
      obtain ⟨rfl, rfl, rfl⟩ :=
        storeMissing_waits settled length packet (by omega) inside.2 room taken
      exact .buffered rejected ends (by omega) inside.2
  · rw [if_neg inside, Option.some.injEq, Prod.mk.injEq, Prod.mk.injEq] at taken
    obtain ⟨rfl, rfl, rfl⟩ := taken
    rw [settled.middle_eq]
    exact .duplicate rejected ends

theorem clientStep_receives (settled : Settled state window) (fits : Fits window outcome after)
    (taken : clientStep window outcome state = some (next, after, actions)) :
    (state = .recvData ∨ state = .missing) ∧
      Receives window state outcome next after actions := by
  cases state with
  | recvData => exact ⟨Or.inl rfl, recvData_receives settled fits taken⟩
  | missing => exact ⟨Or.inr rfl, missing_receives settled fits taken⟩
  | done => cases taken
  | filename => cases taken
  | fileOk => cases taken
  | close => cases taken

theorem clientStep_timeout (taken : clientStep window none state = some (next, after, actions)) :
    (state = .recvData ∨ state = .missing) ∧ next = .done ∧ after = window := by
  cases state with
  | recvData =>
      cases taken
      exact ⟨Or.inl rfl, rfl, rfl⟩
  | missing =>
      cases taken
      exact ⟨Or.inr rfl, rfl, rfl⟩
  | done => cases taken
  | filename => cases taken
  | fileOk => cases taken
  | close => cases taken

theorem Receives.size_eq (received : Receives window state outcome next after actions) :
    after.size = window.size := by
  cases received with
  | next => exact Window.slid_size _ _
  | filled gap =>
      simp only [flushed, Window.slid_size, Window.unsetFrom_size]
      rfl
  | _ => rfl

theorem Receives.bottom_le (received : Receives window state outcome next after actions) :
    window.bottom ≤ after.bottom := by
  cases received with
  | next =>
      simp only [Window.slid]
      omega
  | filled gap _ _ _ forward =>
      simp only [flushed, Window.slid]
      omega
  | _ => exact Int.le_refl _

theorem Settled.bottom_clear (settled : Settled state window)
    (active : state = .recvData ∨ state = .missing) : window.isSet window.bottom = false := by
  have positive := settled.wellFormed.size_pos
  have top := settled.wellFormed.top_eq
  rcases active with rfl | rfl
  · exact settled.quiet rfl window.bottom (Int.le_refl _) (by omega)
  · exact settled.gap rfl

theorem Receives.cell (settled : Settled state window)
    (received : Receives window state outcome next after actions) (seqNum : Int)
    (lower : after.bottom ≤ seqNum) (upper : seqNum ≤ after.top)
    (set : after.isSet seqNum = true) :
    (∃ length packet, outcome = some (length, packet) ∧ length ≠ crcError ∧
      packet.flag ≠ Flag.endOfFile.code ∧ packet.number = seqNum ∧
      after.stored seqNum = packet) ∨
    (seqNum ≤ window.top ∧ window.isSet seqNum = true ∧
      after.stored seqNum = window.stored seqNum) := by
  have wellFormed := settled.wellFormed
  have top := wellFormed.top_eq
  have positive := wellFormed.size_pos
  cases received with
  | next =>
      exfalso
      rw [slid_quiet wellFormed (window.bottom + 1) (by omega) (fun _ => settled.quiet rfl) seqNum
        lower upper] at set
      cases set
  | @buffered _ length packet accepted data above below =>
      simp only [Window.put_bottom, Window.put_top] at lower upper
      by_cases same : packet.number = seqNum
      · left
        refine ⟨length, packet, rfl, accepted, data, same, ?_⟩
        rw [← same, put_stored_self wellFormed packet]
      · right
        rw [put_isSet_of_ne wellFormed packet seqNum (by omega) (by omega) same] at set
        exact ⟨upper, set, put_stored_of_ne wellFormed packet seqNum (by omega) (by omega) same⟩
  | @filled length packet _ gap accepted data expected forward bound =>
      have added := put_wellFormed wellFormed packet
      simp only [flushed_bottom, flushed_top, Window.put_size] at lower upper
      right
      by_cases inner : seqNum ≤ window.top
      · rw [flushed_isSet_kept added gap seqNum (by simp only [Window.put_bottom]; omega) lower
          inner, put_isSet_of_ne wellFormed packet seqNum (by omega) (by omega) (by omega)] at set
        refine ⟨inner, set, ?_⟩
        rw [flushed_stored, put_stored_of_ne wellFormed packet seqNum (by omega) (by omega)
          (by omega)]
      · rw [flushed_isSet_entering added gap seqNum (by simp only [Window.put_top]; omega)
          (by simp only [Window.put_size]; omega)] at set
        cases set
  | _ => exact Or.inr ⟨upper, set, rfl⟩

theorem Receives.gap (settled : Settled state window)
    (active : state = .recvData ∨ state = .missing)
    (received : Receives window state outcome .missing after actions) :
    after.isSet after.bottom = false := by
  have wellFormed := settled.wellFormed
  have top := wellFormed.top_eq
  have positive := wellFormed.size_pos
  have clear := settled.bottom_clear active
  cases received with
  | @buffered _ _ packet =>
      rw [Window.put_bottom, put_isSet_of_ne wellFormed packet window.bottom (by omega) (by omega)
        (by omega)]
      exact clear
  | @filled _ packet _ gap _ _ expected forward bound _ unset =>
      have added := put_wellFormed wellFormed packet
      rw [flushed_bottom]
      by_cases inner : gap ≤ window.top
      · rw [flushed_isSet_kept added gap gap (by simp only [Window.put_bottom]; omega)
          (Int.le_refl _) inner, put_isSet_of_ne wellFormed packet gap (by omega) (by omega)
          (by omega)]
        exact unset inner
      · exact flushed_isSet_entering added gap gap (by simp only [Window.put_top]; omega)
          (by simp only [Window.put_size]; omega)
  | _ => exact clear

theorem Receives.quiet (settled : Settled state window)
    (received : Receives window state outcome .recvData after actions) : after.Quiet := by
  cases received with
  | duplicate => exact settled.quiet rfl
  | next =>
      exact slid_quiet settled.wellFormed (window.bottom + 1) (by omega)
        (fun _ => settled.quiet rfl)
  | filled gap _ _ _ _ _ _ _ ends =>
      rcases ends with ⟨_, quiet⟩ | impossible
      · exact quiet
      · cases impossible

theorem receives_settled (settled : Settled state window) (fits : Fits window outcome after)
    (active : state = .recvData ∨ state = .missing)
    (received : Receives window state outcome next after actions) : Settled next after := by
  have wellFormed := settled.wellFormed
  have top := wellFormed.top_eq
  have positive := wellFormed.size_pos
  have shape : after.WellFormed ∧ after.middle = after.bottom := by
    cases received with
    | @next length packet accepted data expected =>
        have room := fits.data length packet rfl accepted data (by omega) (by omega)
        refine ⟨slid_wellFormed wellFormed (window.bottom + 1) (by omega) (by omega), ?_⟩
        simp only [Window.slid, settled.middle_eq]
        omega
    | @buffered _ _ packet => exact ⟨put_wellFormed wellFormed packet, settled.middle_eq⟩
    | @filled length packet _ gap accepted data expected forward bound run =>
        have small := fits.flush length packet rfl accepted data expected gap forward bound run rfl
        exact ⟨flushed_wellFormed (put_wellFormed wellFormed packet) gap
          (by simp only [Window.put_bottom]; omega) small, flushed_middle _ gap⟩
    | _ => exact ⟨wellFormed, settled.middle_eq⟩
  refine ⟨shape.1, shape.2, ?_, ?_, ?_⟩
  · rintro rfl
    exact received.quiet settled
  · rintro rfl
    exact received.gap settled active
  · intro seqNum lower upper set
    rcases received.cell settled seqNum lower upper set with
      ⟨length, packet, _, _, _, same, stored⟩ | ⟨inner, old, stored⟩
    · rw [stored, same]
    · rw [stored]
      have forward := received.bottom_le
      exact settled.held seqNum (by omega) inner old

/-! No step leaves the arrays of the window. -/

theorem scanMissing_isSome (count : Nat) (first : Int) (window : Window)
    (wellFormed : window.WellFormed) (lower : 1 ≤ first) (upper : first + count < 2 ^ 31) :
    (scanMissing window count first).isSome = true := by
  induction count generalizing first window with
  | zero => rfl
  | succ count ih =>
      rw [Int.natCast_succ] at upper
      rw [scanMissing_succ count first window wellFormed lower (by omega)]
      by_cases set : window.isSet first = true
      · rw [if_pos set, if_pos (by omega)]
        exact ih (first + 1) _ (withMiddle_wellFormed wellFormed first) (by omega) (by omega)
      · rw [if_neg set]
        rfl

theorem leaveMissing_isSome (window : Window) (made : List ClientAction)
    (wellFormed : window.WellFormed) (lower : window.bottom ≤ window.middle)
    (upper : window.middle ≤ 2 ^ 31) (room : window.top + 1 < 2 ^ 31) :
    (leaveMissing window made).isSome = true := by
  obtain ⟨empty, evaluates⟩ := Option.isSome_iff_exists.mp (emptyBuffer_isSome wellFormed room)
  obtain ⟨next, slides⟩ := Option.isSome_iff_exists.mp
    (slide_isSome wellFormed window.middle lower upper)
  have accounted : ∃ all, allAccounted window = some all := by
    by_cases closed : isClosed window = true
    · exact ⟨true, by rw [allAccounted, if_pos closed]⟩
    · exact ⟨empty, by rw [allAccounted, if_neg closed, evaluates]⟩
  obtain ⟨all, accounted⟩ := accounted
  simp only [leaveMissing, accounted, slides, Option.bind_eq_bind, Option.bind_some]
  split
  · rfl
  · split <;> rfl

theorem storeMissing_isSome (wellFormed : window.WellFormed) (length : Int) (packet : Packet)
    (lower : window.bottom ≤ packet.number) (room : window.top + 2 < 2 ^ 31) :
    (storeMissing window length packet).isSome = true := by
  have bottom := wellFormed.bottom_pos
  have top := wellFormed.top_eq
  have positive := wellFormed.size_pos
  have added := put_wellFormed wellFormed packet
  obtain ⟨⟨scan, srej⟩, scanned⟩ := Option.isSome_iff_exists.mp
    (scanMissing_isSome (window.size.toNat + 1) window.bottom (window.put packet) added bottom
      (by omega))
  obtain ⟨gap, above, below, rfl, _⟩ := scanMissing_cases window.size.toNat window.bottom
    (window.put packet) scan srej added bottom (by omega) scanned
  rw [storeMissing_eq wellFormed length packet lower (by omega) gap srej above (by omega) scanned]
  apply leaveMissing_isSome
  · exact unsetFrom_wellFormed (withMiddle_wellFormed added gap) _ _
  · rw [Window.unsetFrom_bottom, Window.unsetFrom_middle]
    exact above
  · rw [Window.unsetFrom_middle]
    simp only [Window.withMiddle]
    omega
  · rw [Window.unsetFrom_top]
    simp only [Window.withMiddle, Window.put_top]
    omega

end

end RemoteCopy
