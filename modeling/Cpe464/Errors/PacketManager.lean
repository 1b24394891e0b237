import Cpe464.Errors.PacketManagerCore
import Mathlib.Data.List.Dedup
import Mathlib.Data.List.Perm.Basic

/-!
What the events of `libcpe464` can do to the messages of a program: a message is sent as it is, with
one byte changed, or not at all.
-/

namespace Errors

open Bytes
open RemoteCopy (errorFlipBits)

/-! The draws. -/

theorem roundDouble_lt (value : Nat) :
    roundDouble value < value + 2 ^ (Nat.log2 value - 52) := by
  have parts := Nat.div_add_mod' value (2 ^ (Nat.log2 value - 52))
  have positive : 0 < 2 ^ (Nat.log2 value - 52) := Nat.two_pow_pos _
  simp only [roundDouble]
  split
  · rename_i up
    rw [Nat.add_mul, Nat.one_mul]
    omega
  · omega

theorem Draw.pick_lt (draw : Draw) {count : Nat} (positive : 0 < count) :
    draw.pick count < count := by
  have product : count * draw.val + count ≤ count * 2 ^ 48 := by
    rw [← Nat.mul_succ]
    exact Nat.mul_le_mul_left count draw.isLt
  have rounded := roundDouble_lt (count * draw.val)
  -- A unit in the last place is less than what is missing to `count`.
  have unit : 2 ^ (Nat.log2 (count * draw.val) - 52) ≤ count := by
    by_cases short : Nat.log2 (count * draw.val) ≤ 52
    · rwa [Nat.sub_eq_zero_of_le short]
    · have nonzero : count * draw.val ≠ 0 := by
        intro zero
        rw [zero] at short
        exact short (by decide)
      have large := Nat.log2_self_le nonzero
      have parts : Nat.log2 (count * draw.val) = Nat.log2 (count * draw.val) - 52 + 52 := by omega
      rw [parts, Nat.pow_add] at large
      omega
  rw [pick, Nat.div_lt_iff_lt_mul (by decide)]
  omega

/-! The log. -/

def SeqNoInfo.add (info : SeqNoInfo) (seqNo : UInt32) : SeqNoInfo :=
  ⟨info.history ++ [seqNo], increment seqNo info.count⟩

structure SeqNoInfo.Counted (info : SeqNoInfo) : Prop where
  once : (info.count.map Prod.fst).Nodup
  logged : ∀ seqNo, seqNo ∈ info.count.map Prod.fst ↔ seqNo ∈ info.history
  number : ∀ seqNo, (info.count.lookup seqNo).getD 0 = UInt32.ofNat (info.history.count seqNo)

theorem increment_keys (seqNo : UInt32) (count : List (UInt32 × UInt32)) :
    (increment seqNo count).map Prod.fst =
      if seqNo ∈ count.map Prod.fst then count.map Prod.fst else count.map Prod.fst ++ [seqNo] := by
  induction count with
  | nil => rfl
  | cons pair rest ih =>
      obtain ⟨other, number⟩ := pair
      by_cases same : other = seqNo
      · simp [increment, same]
      · have differ : ¬seqNo = other := fun equal => same equal.symm
        by_cases later : seqNo ∈ rest.map Prod.fst
        · rw [if_pos later] at ih
          simp only [increment, if_neg same, List.map_cons, ih]
          rw [if_pos (List.mem_cons_of_mem _ later)]
        · rw [if_neg later] at ih
          simp only [increment, if_neg same, List.map_cons, ih]
          rw [if_neg (by simp only [List.mem_cons, not_or]; exact ⟨differ, later⟩), List.cons_append]

theorem increment_lookup (seqNo other : UInt32) (count : List (UInt32 × UInt32)) :
    ((increment seqNo count).lookup other).getD 0 =
      (count.lookup other).getD 0 + if other = seqNo then 1 else 0 := by
  induction count with
  | nil =>
      by_cases same : other = seqNo
      · simp [increment, same]
      · simp [increment, same, beq_eq_false_iff_ne.mpr same]
  | cons pair rest ih =>
      obtain ⟨key, number⟩ := pair
      by_cases here : key = seqNo
      · by_cases same : other = seqNo
        · simp [increment, here, same]
        · simp [increment, here, same, List.lookup_cons, beq_eq_false_iff_ne.mpr same]
      · by_cases found : other = key
        · simp [increment, here, found]
        · simp [increment, here, List.lookup_cons, beq_eq_false_iff_ne.mpr found, ih]

theorem SeqNoInfo.Counted.add {info : SeqNoInfo} (counted : info.Counted) (seqNo : UInt32) :
    (info.add seqNo).Counted := by
  have keys := increment_keys seqNo info.count
  constructor
  · rw [SeqNoInfo.add, keys]
    split
    · exact counted.once
    · rename_i fresh
      exact List.nodup_append.mpr ⟨counted.once, List.nodup_singleton _, by
        rintro key member _ single rfl
        exact fresh (List.mem_singleton.mp single ▸ member)⟩
  · intro other
    have before := counted.logged other
    simp only [SeqNoInfo.add, keys, List.mem_append, List.mem_singleton, ← before]
    split
    · rename_i known
      constructor
      · exact .inl
      · rintro (old | rfl)
        · exact old
        · exact known
    · rw [List.mem_append, List.mem_singleton]
  · intro other
    rw [SeqNoInfo.add, increment_lookup, counted.number, List.count_append, List.count_singleton]
    split
    · rename_i same
      simp [same]
    · rename_i differ
      have apart : (seqNo == other) = false := beq_eq_false_iff_ne.mpr fun same => differ same.symm
      simp [apart]

theorem SeqNoInfo.Counted.report {info : SeqNoInfo} (counted : info.Counted) :
    info.report = (info.history.length, info.history.dedup.length) := by
  have perm : (info.count.map Prod.fst).Perm info.history.dedup := by
    rw [List.perm_ext_iff_of_nodup counted.once info.history.nodup_dedup]
    intro seqNo
    rw [counted.logged, List.mem_dedup]
  rw [SeqNoInfo.report, ← perm.length_eq, List.length_map]

/-! One message. -/

/-- The events of a program that has called `sendErr_init` once: a list of messages to drop, if it
is not empty, the log, and random events. -/
structure Configured {Rate : Type} (drops : List UInt32) (info : SeqNoInfo)
    (manager : PacketManager Rate) : Prop where
  constant : manager.constant =
    (if drops = [] then [] else [.errorDrop false drops]) ++ [.infoSeqNo info]
  chance : ∀ event ∈ manager.chance, event = .errorDrop true [] ∨ event = .errorFlipBits

def SeqNoInfo.after (info : SeqNoInfo) (drops : List UInt32) (msgNo : UInt32) (buf : List UInt8) :
    SeqNoInfo :=
  if msgNo ∈ drops then info else info.add (seqNo buf)

theorem runMsgEvents_configured (drops : List UInt32) (info : SeqNoInfo) (msgNo : UInt32)
    (draws : Draws) (buf : List UInt8) (long : 7 ≤ buf.length) :
    let lists : List MsgEvent := if drops = [] then [] else [.errorDrop false drops]
    runMsgEvents msgNo (lists ++ [.infoSeqNo info]) draws buf false =
      some (lists ++ [.infoSeqNo (info.after drops msgNo buf)],
        if msgNo ∈ drops then .dropped else .unchanged, buf, draws) := by
  intro lists
  have enough : 4 ≤ buf.length := Nat.le_trans (by decide) long
  by_cases empty : drops = []
  · simp [lists, empty, runMsgEvents, MsgEvent.run, enough, SeqNoInfo.add, SeqNoInfo.after]
  · by_cases listed : msgNo ∈ drops
    · simp [lists, empty, runMsgEvents, MsgEvent.run, enough, listed, SeqNoInfo.after]
    · simp [lists, empty, runMsgEvents, MsgEvent.run, enough, listed, SeqNoInfo.add, SeqNoInfo.after]

section

variable {Rate : Type} (atMost : Draw → Rate → Bool) {drops : List UInt32} {info : SeqNoInfo}
  {manager : PacketManager Rate}

theorem runChance_configured (configured : Configured drops info manager)
    (nonempty : manager.chance ≠ []) (draws : Draws) (buf : List UInt8) (long : 7 ≤ buf.length) :
    ∃ outcome sent, runChance manager draws buf = some (manager.chance, outcome, sent) ∧
      ((.errorDrop true [] ∈ manager.chance ∧ outcome = .dropped) ∨
        ∃ index, .errorFlipBits ∈ manager.chance ∧ index < buf.length ∧ outcome = .changed ∧
          sent = errorFlipBits buf index) := by
  have enough : 4 ≤ buf.length := Nat.le_trans (by decide) long
  have inside := (draws 0).pick_lt (List.length_pos_iff.mpr nonempty)
  have found := List.getElem?_eq_getElem inside
  have member := List.getElem_mem inside
  have kept : manager.chance.set ((draws 0).pick manager.chance.length)
      (manager.chance[(draws 0).pick manager.chance.length]) = manager.chance :=
    List.set_getElem_self inside
  simp only [runChance, found, Option.bind_eq_bind, Option.bind_some]
  rcases configured.chance _ member with drop | flip
  · rw [drop] at kept member ⊢
    exact ⟨.dropped, buf, by simp [MsgEvent.run, enough, kept], .inl ⟨member, rfl⟩⟩
  · rw [flip] at kept member ⊢
    exact ⟨.changed, _, by simp [MsgEvent.run, enough, kept],
      .inr ⟨_, member, (draws.rest 0).pick_lt (by omega), rfl, rfl⟩⟩

def PacketManager.Random (manager : PacketManager Rate) (draws : Draws) (event : MsgEvent) : Prop :=
  event ∈ manager.chance ∧ atMost (draws 0) manager.errorRate

inductive Sent (drops : List UInt32) (random : MsgEvent → Prop) (msgNo : UInt32)
    (buf : List UInt8) : Option (List UInt8) → Prop
  | listed : msgNo ∈ drops → Sent drops random msgNo buf none
  | whole : msgNo ∉ drops → ¬(1 < msgNo ∧ ∃ event, random event) →
      Sent drops random msgNo buf (some buf)
  | dropped : msgNo ∉ drops → 1 < msgNo → random (.errorDrop true []) →
      Sent drops random msgNo buf none
  | flipped (index : Nat) : msgNo ∉ drops → 1 < msgNo → random .errorFlipBits →
      index < buf.length → Sent drops random msgNo buf (some (errorFlipBits buf index))

theorem processEvents_configured (configured : Configured drops info manager) (draws : Draws)
    (buf : List UInt8) (long : 7 ≤ buf.length) :
    ∃ constant outcome sent,
      processEvents atMost manager draws buf = some ({ manager with constant }, outcome, sent) ∧
      Configured drops (info.after drops manager.msgNo buf) { manager with constant } ∧
      Sent drops (manager.Random atMost draws) manager.msgNo buf
        (if outcome = .dropped then none else some sent) := by
  have events := runMsgEvents_configured drops info manager.msgNo draws buf long
  simp only [← configured.constant] at events
  generalize constantEq : (if drops = [] then [] else [MsgEvent.errorDrop false drops]) ++
    [.infoSeqNo (info.after drops manager.msgNo buf)] = constant at events
  have next : Configured drops (info.after drops manager.msgNo buf) { manager with constant } :=
    ⟨constantEq.symm, configured.chance⟩
  refine ⟨constant, ?_⟩
  simp only [processEvents, events, Option.bind_eq_bind, Option.bind_some]
  by_cases random : manager.msgNo > 1 ∧ manager.chance ≠ [] ∧ atMost (draws 0) manager.errorRate
  · obtain ⟨outcome, sent, runs, result⟩ := runChance_configured next random.2.1 draws.rest buf long
    rw [if_pos random, runs]
    refine ⟨_, _, rfl, next, ?_⟩
    by_cases listed : manager.msgNo ∈ drops
    · simp only [listed, if_true]
      exact .listed listed
    · simp only [listed, if_false, reduceCtorEq]
      rcases result with ⟨member, rfl⟩ | ⟨index, member, inside, rfl, rfl⟩
      · exact .dropped listed random.1 ⟨member, random.2.2⟩
      · exact .flipped index listed random.1 ⟨member, random.2.2⟩ inside
  · rw [if_neg random]
    refine ⟨_, _, rfl, next, ?_⟩
    by_cases listed : manager.msgNo ∈ drops
    · simp only [listed, if_true]
      exact .listed listed
    · simp only [listed, if_false, reduceCtorEq]
      refine .whole listed ?_
      rintro ⟨later, event, member, drawn⟩
      exact random ⟨later, List.ne_nil_of_mem member, drawn⟩

theorem sendtoErr_configured (configured : Configured drops info manager) (draws : Draws)
    (buf : List UInt8) (long : 7 ≤ buf.length) :
    ∃ next sent, sendtoErr atMost manager draws buf = some (next, sent) ∧
      next.msgNo = manager.msgNo + 1 ∧ next.chance = manager.chance ∧
      next.errorRate = manager.errorRate ∧
      Configured drops (info.after drops (manager.msgNo + 1) buf) next ∧
      Sent drops (manager.Random atMost draws) (manager.msgNo + 1) buf sent := by
  have numbered : Configured drops info { manager with msgNo := manager.msgNo + 1 } :=
    ⟨configured.constant, configured.chance⟩
  obtain ⟨constant, outcome, sent, runs, next, result⟩ :=
    processEvents_configured atMost numbered draws buf long
  refine ⟨{ manager with msgNo := manager.msgNo + 1, constant }, _, ?_, rfl, rfl, rfl, next, result⟩
  simp only [sendtoErr, if_neg (Nat.not_lt.mpr long), runs, Option.bind_eq_bind, Option.bind_some]

/-! A program. -/

def SeqNoInfo.afterAll (drops : List UInt32) (info : SeqNoInfo) :
    UInt32 → List (Draws × List UInt8) → SeqNoInfo
  | _, [] => info
  | msgNo, (_, buf) :: rest =>
      SeqNoInfo.afterAll drops (info.after drops (msgNo + 1) buf) (msgNo + 1) rest

theorem SeqNoInfo.Counted.afterAll (drops : List UInt32) {info : SeqNoInfo}
    (counted : info.Counted) (msgNo : UInt32) (messages : List (Draws × List UInt8)) :
    (SeqNoInfo.afterAll drops info msgNo messages).Counted := by
  induction messages generalizing info msgNo with
  | nil => exact counted
  | cons message rest ih =>
      refine ih ?_ _
      rw [SeqNoInfo.after]
      split
      · exact counted
      · exact counted.add _

def loggedFrom (drops : List UInt32) (first : Nat) (messages : List (List UInt8)) : List UInt32 :=
  (messages.zipIdx first).filterMap fun message =>
    if UInt32.ofNat message.2 ∈ drops then none else some (seqNo message.1)

theorem SeqNoInfo.afterAll_history (drops : List UInt32) (info : SeqNoInfo) (count : Nat)
    (messages : List (Draws × List UInt8)) :
    (SeqNoInfo.afterAll drops info (UInt32.ofNat count) messages).history =
      info.history ++ loggedFrom drops (count + 1) (messages.map Prod.snd) := by
  induction messages generalizing info count with
  | nil => exact (List.append_nil _).symm
  | cons message rest ih =>
      obtain ⟨draws, buf⟩ := message
      have number : UInt32.ofNat count + 1 = UInt32.ofNat (count + 1) := (UInt32.ofNat_add _ _).symm
      rw [SeqNoInfo.afterAll, number, ih, SeqNoInfo.after, List.map_cons]
      simp only [loggedFrom, List.zipIdx_cons, List.filterMap_cons]
      split
      · rfl
      · rw [SeqNoInfo.add, List.append_assoc]
        rfl

theorem sendAll_configured (configured : Configured drops info manager)
    (messages : List (Draws × List UInt8)) (long : ∀ message ∈ messages, 7 ≤ message.2.length) :
    ∃ last sent, sendAll atMost manager messages = some (last, sent) ∧
      Configured drops (SeqNoInfo.afterAll drops info manager.msgNo messages) last ∧
      sent.length = messages.length ∧ ∀ index draws buf, messages[index]? = some (draws, buf) →
        ∃ out, sent[index]? = some out ∧ Sent drops (manager.Random atMost draws)
          (manager.msgNo + UInt32.ofNat (index + 1)) buf out := by
  induction messages generalizing info manager with
  | nil => exact ⟨manager, [], rfl, configured, rfl, fun _ _ _ found => by cases found⟩
  | cons message rest ih =>
      obtain ⟨draws, buf⟩ := message
      obtain ⟨next, out, sends, number, chance, rate, after, first⟩ :=
        sendtoErr_configured atMost configured draws buf (long _ List.mem_cons_self)
      obtain ⟨last, sent, others, ends, length, each⟩ :=
        ih after fun message member => long message (List.mem_cons_of_mem _ member)
      refine ⟨last, out :: sent, ?_, ?_, by rw [List.length_cons, length, List.length_cons], ?_⟩
      · simp only [sendAll, sends, others, Option.bind_eq_bind, Option.bind_some]
      · rw [number] at ends
        exact ends
      · intro index draws' buf' found
        cases index with
        | zero =>
            obtain ⟨rfl, rfl⟩ := Prod.mk.inj (Option.some.inj found)
            exact ⟨out, rfl, first⟩
        | succ index =>
            obtain ⟨later, at', result⟩ := each index draws' buf' found
            refine ⟨later, at', ?_⟩
            have same : next.Random atMost draws' = manager.Random atMost draws' := by
              funext event
              simp only [PacketManager.Random, chance, rate]
            rw [number, same] at result
            have shift : manager.msgNo + 1 + UInt32.ofNat (index + 1) =
                manager.msgNo + UInt32.ofNat (index + 1 + 1) := by
              apply UInt32.toNat_inj.mp
              simp only [UInt32.toNat_add, UInt32.toNat_ofNat', UInt32.toNat_one]
              omega
            rwa [shift] at result

theorem sendAll_append {middle last : PacketManager Rate} {front back : List (Draws × List UInt8)}
    {first second : List (Option (List UInt8))}
    (begins : sendAll atMost manager front = some (middle, first))
    (ends : sendAll atMost middle back = some (last, second)) :
    sendAll atMost manager (front ++ back) = some (last, first ++ second) := by
  induction front generalizing manager first with
  | nil =>
      obtain ⟨rfl, rfl⟩ := Prod.mk.inj (Option.some.inj begins)
      exact ends
  | cons message rest ih =>
      obtain ⟨draws, buf⟩ := message
      simp only [sendAll, Option.bind_eq_bind, Option.bind_eq_some_iff] at begins
      obtain ⟨⟨next, out⟩, sends, ⟨⟨final, others⟩, remaining, same⟩⟩ := begins
      obtain ⟨rfl, rfl⟩ := Prod.mk.inj (Option.some.inj same)
      simp only [List.cons_append, sendAll, sends, ih remaining, Option.bind_eq_bind,
        Option.bind_some]

theorem sendAll_long {last : PacketManager Rate} {messages : List (Draws × List UInt8)}
    {sent : List (Option (List UInt8))}
    (sends : sendAll atMost manager messages = some (last, sent)) :
    ∀ message ∈ messages, 7 ≤ message.2.length := by
  induction messages generalizing manager sent with
  | nil => exact fun _ member => by cases member
  | cons message rest ih =>
      obtain ⟨draws, buf⟩ := message
      simp only [sendAll, Option.bind_eq_bind, Option.bind_eq_some_iff] at sends
      obtain ⟨⟨next, out⟩, first, ⟨⟨final, others⟩, remaining, same⟩⟩ := sends
      obtain ⟨rfl, -⟩ := Prod.mk.inj (Option.some.inj same)
      intro other member
      rcases List.mem_cons.mp member with rfl | later
      · rw [sendtoErr] at first
        split at first
        · cases first
        · rename_i long
          exact Nat.not_lt.mp long
      · exact ih remaining other later

end

end Errors
