import Cpe464.Errors.PacketManager
import Cpe464.Errors.SettingsCore
import Mathlib.Data.List.TakeWhile

/-!
What the environment and the arguments of `sendErr_init` make of the library, and so what happens to
the messages of a program.
-/

namespace Errors

open Bytes

/-! Texts of numbers. -/

def decimal (value : Int) : List Char :=
  let digits := Nat.toDigits 10 value.natAbs
  if value < 0 then '-' :: digits else digits

def listText (values : List Int) : List Char := [','].intercalate (values.map decimal)

theorem plain_of_isDigit {char : Char} (digit : char.isDigit) :
    isSpace char = false ∧ char ≠ '-' ∧ char ≠ '+' ∧ char ≠ ',' := by
  refine ⟨?_, ?_, ?_, ?_⟩
  · simp only [isSpace, Bool.or_eq_false_iff, decide_eq_false_iff_not]
    refine ⟨⟨⟨⟨⟨?_, ?_⟩, ?_⟩, ?_⟩, ?_⟩, ?_⟩ <;> (rintro rfl; cases digit)
  all_goals (rintro rfl; cases digit)

theorem digits_of_natAbs (value : Int) : ∀ char ∈ Nat.toDigits 10 value.natAbs, char.isDigit :=
  fun _ => Nat.isDigit_of_mem_toDigits (by decide) (by decide)

theorem decimal_comma (value : Int) : ',' ∉ decimal value := by
  have plain : ',' ∉ Nat.toDigits 10 value.natAbs := fun member =>
    (plain_of_isDigit (digits_of_natAbs value _ member)).2.2.2 rfl
  rw [decimal]
  split
  · exact fun member => plain (List.mem_of_ne_of_mem (by decide) member)
  · exact plain

theorem decimal_ne_nil (value : Int) : decimal value ≠ [] := by
  rw [decimal]
  split
  · exact List.cons_ne_nil _ _
  · exact Nat.toDigits_ne_nil

theorem strtol_decimal (value : Int) :
    strtol (decimal value) = some (max (-longMax - 1) (min longMax value)) := by
  have digits := digits_of_natAbs value
  have nonempty : Nat.toDigits 10 value.natAbs ≠ [] := Nat.toDigits_ne_nil
  have number : Nat.ofDigitChars 10 (Nat.toDigits 10 value.natAbs) 0 = value.natAbs :=
    Nat.ofDigitChars_ten_toDigits
  have all : (Nat.toDigits 10 value.natAbs).takeWhile Char.isDigit = Nat.toDigits 10 value.natAbs :=
    List.takeWhile_eq_self_iff.mpr digits
  rw [decimal]
  split
  · rename_i negative
    have magnitude : -(value.natAbs : Int) = value := by omega
    generalize value.natAbs = size at *
    simp [strtol, isSpace, all, nonempty, number, magnitude]
  · rename_i negative
    have magnitude : (value.natAbs : Int) = value := by omega
    obtain ⟨first, rest, parts⟩ := List.exists_cons_of_ne_nil nonempty
    obtain ⟨space, minus, plus, _⟩ := plain_of_isDigit (digits first (parts ▸ List.mem_cons_self))
    rw [parts] at all number ⊢
    simp [strtol, space, minus, plus, all, number, magnitude]

theorem tokens_listText (values : List Int) : tokens (listText values) = values.map decimal := by
  by_cases empty : values = []
  · subst values
    decide
  · rw [tokens, listText, List.splitOn_intercalate]
    · rw [List.filter_eq_self]
      rintro token member
      obtain ⟨value, _, rfl⟩ := List.mem_map.mp member
      simp [decimal_ne_nil]
    · rintro token member
      obtain ⟨value, _, rfl⟩ := List.mem_map.mp member
      exact decimal_comma value
    · simpa using empty

theorem numbers_decimal (values : List Int) :
    numbers (values.map decimal) =
      values.map fun value => max (-longMax - 1) (min longMax value) := by
  induction values with
  | nil => rfl
  | cons value rest ih => simp only [List.map_cons, numbers, strtol_decimal, ih]

/-- A list of numbers is read back, each up to the bounds of a `long`. -/
theorem parser2ListLong_listText (values : List Int) :
    parser2ListLong (listText values) =
      values.map fun value => max (-longMax - 1) (min longMax value) := by
  rw [parser2ListLong, tokens_listText, numbers_decimal]

def dropText (drops : List UInt32) : List Char := listText (drops.map fun number => number.toNat)

theorem numbers_of_dropText (drops : List UInt32) :
    parserLong2Uint32 (numbers (tokens (dropText drops))) = drops := by
  rw [dropText, tokens_listText, numbers_decimal, List.map_map, parserLong2Uint32]
  induction drops with
  | nil => rfl
  | cons number rest ih =>
      have below := number.toNat_lt
      have inside : max (-longMax - 1) (min longMax (number.toNat : Int)) = number.toNat := by
        simp only [longMax]
        omega
      have same : UInt32.ofInt number.toNat = number := by
        apply UInt32.toNat_inj.mp
        simp only [UInt32.ofInt, UInt32.toNat_ofNat']
        omega
      simp only [List.map_cons, Function.comp_apply, inside]
      rw [List.filter_cons_of_pos (by simp), List.map_cons, ih, same]

/-! The environment and the flags. -/

def Environment.drops (environment : Environment) : List UInt32 :=
  match environment.errDrop with
  | none => []
  | some text => parserLong2Uint32 (parser2ListLong text)

def asksRandom (setting : Option (List Char)) (flag : Bool) : Bool :=
  match setting with
  | none => flag
  | some text => parserLong2Uint32 (parser2ListLong text) = []

section

variable {Rate : Type} (strtof : List Char → Option Rate) (environment : Environment)

theorem loadErrRate_eq (library : Library Rate) :
    loadErrRate strtof environment library =
      ({ library.1 with
          errRate := library.1.errRate || (environment.errRate.bind strtof).isSome },
        { library.2 with
          errorRate := (environment.errRate.bind strtof).getD library.2.errorRate }) := by
  rw [loadErrRate]
  cases environment.errRate.bind strtof with
  | none => simp
  | some rate => simp

theorem loadErrDrop_eq (library : Library Rate) :
    loadErrDrop environment library =
      ({ library.1 with errDrop := library.1.errDrop || environment.errDrop.isSome },
        { library.2 with
          constant := library.2.constant ++
            if environment.drops = [] then [] else [.errorDrop false environment.drops]
          chance := library.2.chance ++
            if asksRandom environment.errDrop false then [.errorDrop true []] else [] }) := by
  cases found : environment.errDrop with
  | none => simp [loadErrDrop, Environment.drops, asksRandom, found]
  | some text =>
      by_cases empty : parserLong2Uint32 (parser2ListLong text) = []
      · simp [loadErrDrop, Environment.drops, asksRandom, found, empty]
      · simp [loadErrDrop, Environment.drops, asksRandom, found, empty]

theorem loadErrFlip_eq (library : Library Rate) :
    loadErrFlip environment library =
      ({ library.1 with errFlip := library.1.errFlip || environment.errFlip.isSome },
        { library.2 with chance := library.2.chance ++
            if asksRandom environment.errFlip false then [.errorFlipBits] else [] }) := by
  cases found : environment.errFlip with
  | none => simp [loadErrFlip, asksRandom, found]
  | some text =>
      by_cases empty : parserLong2Uint32 (parser2ListLong text) = []
      · simp [loadErrFlip, asksRandom, found, empty]
      · simp [loadErrFlip, asksRandom, found, empty]

theorem asksRandom_flag (setting : Option (List Char)) (flag : Bool) :
    asksRandom setting flag =
      (asksRandom setting false || decide (setting.isSome = false ∧ flag)) := by
  cases setting with
  | none => simp [asksRandom]
  | some text => simp [asksRandom]

variable (zero errorRate : Rate) (dropFlag flipFlag : Bool)

theorem started_chance (event : MsgEvent) :
    event ∈ (started strtof zero environment errorRate dropFlag flipFlag).chance ↔
      event = .errorDrop true [] ∧ asksRandom environment.errDrop dropFlag ∨
        event = .errorFlipBits ∧ asksRandom environment.errFlip flipFlag := by
  rw [asksRandom_flag _ dropFlag, asksRandom_flag _ flipFlag]
  simp only [started, sendErrInit, load, loadErrRate_eq, loadErrDrop_eq, loadErrFlip_eq,
    List.nil_append, List.mem_append, List.mem_ite_nil_right, List.mem_singleton, Bool.false_or,
    Bool.or_eq_true, decide_eq_true_eq]
  tauto

theorem started_configured :
    Configured environment.drops ⟨[], []⟩
      (started strtof zero environment errorRate dropFlag flipFlag) := by
  constructor
  · simp only [started, sendErrInit, load, loadErrRate_eq, loadErrDrop_eq, loadErrFlip_eq,
      List.nil_append]
  · intro event member
    rw [started_chance] at member
    exact member.imp And.left And.left

theorem started_errorRate :
    (started strtof zero environment errorRate dropFlag flipFlag).errorRate =
      (environment.errRate.bind strtof).getD errorRate := by
  simp only [started, sendErrInit, load, loadErrRate_eq, loadErrDrop_eq, loadErrFlip_eq,
    Bool.false_or]
  cases environment.errRate.bind strtof with
  | none => rfl
  | some rate => rfl

theorem started_msgNo :
    (started strtof zero environment errorRate dropFlag flipFlag).msgNo = 0 := by
  simp only [started, sendErrInit, load, loadErrRate_eq, loadErrDrop_eq, loadErrFlip_eq]

/-! A program. -/

variable (atMost : Draw → Rate → Bool)

def Environment.Random (draws : Draws) (event : MsgEvent) : Prop :=
  (event = .errorDrop true [] ∧ asksRandom environment.errDrop dropFlag ∨
    event = .errorFlipBits ∧ asksRandom environment.errFlip flipFlag) ∧
  atMost (draws 0) ((environment.errRate.bind strtof).getD errorRate)

theorem started_random (draws : Draws) :
    (started strtof zero environment errorRate dropFlag flipFlag).Random atMost draws =
      environment.Random strtof errorRate dropFlag flipFlag atMost draws := by
  funext event
  rw [PacketManager.Random, Environment.Random, started_chance, started_errorRate]

theorem SeqNoInfo.Counted.empty : SeqNoInfo.Counted ⟨[], []⟩ where
  once := List.nodup_nil
  logged _ := Iff.rfl
  number _ := rfl

theorem sendAll_started (messages : List (Draws × List UInt8))
    (long : ∀ message ∈ messages, 7 ≤ message.2.length) :
    ∃ last sent info,
      sendAll atMost (started strtof zero environment errorRate dropFlag flipFlag) messages =
        some (last, sent) ∧ sent.length = messages.length ∧
      (∀ index draws buf, messages[index]? = some (draws, buf) →
        ∃ out, sent[index]? = some out ∧ Sent environment.drops
          (environment.Random strtof errorRate dropFlag flipFlag atMost draws)
          (UInt32.ofNat (index + 1)) buf out) ∧
      last.constant.getLast? = some (.infoSeqNo info) ∧ info.Counted ∧
      info.history = loggedFrom environment.drops 1 (messages.map Prod.snd) := by
  obtain ⟨last, sent, sends, ends, length, each⟩ := sendAll_configured atMost
    (started_configured strtof environment zero errorRate dropFlag flipFlag) messages long
  have history := SeqNoInfo.afterAll_history environment.drops ⟨[], []⟩ 0 messages
  rw [started_msgNo] at ends each
  refine ⟨last, sent, _, sends, length, ?_, ?_, SeqNoInfo.Counted.empty.afterAll _ 0 messages,
    history⟩
  · intro index draws buf found
    obtain ⟨out, at', result⟩ := each index draws buf found
    rw [started_random, UInt32.zero_add] at result
    exact ⟨out, at', result⟩
  · rw [ends.constant]
    exact List.getLast?_concat

/-- Whatever the environment, the flags and the draws are, a message goes out as it is, with one
byte complemented, or not at all, and the report counts the messages that the list leaves. -/
theorem program_sends (messages : List (Draws × List UInt8))
    (long : ∀ message ∈ messages, 7 ≤ message.2.length) :
    ∃ last sent info,
      sendAll atMost (started strtof zero environment errorRate dropFlag flipFlag) messages =
        some (last, sent) ∧ sent.length = messages.length ∧
      (∀ index draws buf, messages[index]? = some (draws, buf) →
        ∃ out, sent[index]? = some out ∧ Sent environment.drops
          (environment.Random strtof errorRate dropFlag flipFlag atMost draws)
          (UInt32.ofNat (index + 1)) buf out) ∧
      last.constant.getLast? = some (.infoSeqNo info) ∧
      info.history = loggedFrom environment.drops 1 (messages.map Prod.snd) ∧
      info.report = (info.history.length, info.history.dedup.length) := by
  obtain ⟨last, sent, info, sends, length, each, log, counted, history⟩ := sendAll_started
    strtof environment zero errorRate dropFlag flipFlag atMost messages long
  exact ⟨last, sent, info, sends, length, each, log, history, counted.report⟩

theorem program_sends_two :
    ∃ last sent info,
      sendAll (fun draw rate => decide (draw.val ≤ rate))
        (started (fun _ => none) 0 ⟨none, none, none⟩ 5 true false)
        [(fun _ => 3, List.replicate 7 0), (fun _ => 9, List.replicate 8 1)] = some (last, sent) ∧
      sent.length = 2 ∧ last.constant.getLast? = some (.infoSeqNo info) ∧ info.report = (2, 2) := by
  obtain ⟨last, sent, info, sends, length, _, log, history, report⟩ := program_sends
    (fun _ => none) ⟨none, none, none⟩ 0 5 true false (fun draw rate => decide (draw.val ≤ rate))
    [(fun _ => 3, List.replicate 7 0), (fun _ => 9, List.replicate 8 1)] (by decide)
  have logged : info.history = [0, 0x01010101] := history.trans (by decide)
  rw [logged] at report
  exact ⟨last, sent, info, sends, length, log, report⟩

/-- A list in the environment decides alone which messages are dropped, and the flag for random
drops is ignored. -/
theorem program_drops (drops : List UInt32) (nonempty : drops ≠ [])
    (listed : environment.errDrop = some (dropText drops))
    (noFlip : asksRandom environment.errFlip flipFlag = false)
    (messages : List (Draws × List UInt8)) (long : ∀ message ∈ messages, 7 ≤ message.2.length) :
    ∃ last, sendAll atMost (started strtof zero environment errorRate dropFlag flipFlag) messages =
      some (last, (messages.zipIdx 1).map fun message =>
        if UInt32.ofNat message.2 ∈ drops then none else some message.1.2) := by
  obtain ⟨last, sent, info, sends, length, each, -⟩ := sendAll_started
    strtof environment zero errorRate dropFlag flipFlag atMost messages long
  have read : parserLong2Uint32 (parser2ListLong (dropText drops)) = drops :=
    numbers_of_dropText drops
  have same : environment.drops = drops := by simp only [Environment.drops, listed, read]
  have noDrop : asksRandom environment.errDrop dropFlag = false := by
    simp only [asksRandom, listed, read, nonempty, decide_false]
  refine ⟨last, ?_⟩
  rw [sends]
  congr 2
  apply List.ext_getElem?
  intro index
  rw [List.getElem?_map, List.getElem?_zipIdx]
  cases found : messages[index]? with
  | none =>
      rw [List.getElem?_eq_none_iff] at found
      exact List.getElem?_eq_none (length ▸ found)
  | some message =>
      obtain ⟨out, at', result⟩ := each index message.1 message.2 found
      have spared (event : MsgEvent) :
          ¬environment.Random strtof errorRate dropFlag flipFlag atMost message.1 event := by
        rintro ⟨⟨_, asked⟩ | ⟨_, asked⟩, _⟩
        · exact absurd asked (by simp [noDrop])
        · exact absurd asked (by simp [noFlip])
      rw [same] at result
      rw [at', Option.map_some, Option.map_some, Nat.add_comm 1]
      congr 1
      cases result with
      | listed member => rw [if_pos member]
      | whole other _ => rw [if_neg other]
      | dropped other _ random => exact absurd random (spared _)
      | flipped index other _ random _ => exact absurd random (spared _)

theorem program_drops_second :
    dropText [2, 10] = "2,10".toList ∧
      ∃ last, sendAll (fun _ _ => true)
        (started (fun _ => none) 0 ⟨none, some (dropText [2, 10]), none⟩ 5 true false)
        [(fun _ => 3, List.replicate 7 0), (fun _ => 9, List.replicate 8 1),
          (fun _ => 4, List.replicate 9 2)] =
        some (last, [some (List.replicate 7 0), none, some (List.replicate 9 2)]) :=
  ⟨by decide, program_drops (fun _ => none) ⟨none, some (dropText [2, 10]), none⟩ 0 5 true false
    (fun _ _ => true) [2, 10] (by decide) rfl rfl
    [(fun _ => 3, List.replicate 7 0), (fun _ => 9, List.replicate 8 1),
      (fun _ => 4, List.replicate 9 2)] (by decide)⟩

/-! A library in use. -/

theorem Used.next {library next : PacketManager Rate} {draws : Draws} {buf : List UInt8}
    {out : Option (List UInt8)} (used : Used strtof atMost zero library)
    (sends : sendtoErr atMost library draws buf = some (next, out)) :
    Used strtof atMost zero next := by
  obtain ⟨environment, errorRate, dropFlag, flipFlag, messages, sent, before⟩ := used
  refine ⟨environment, errorRate, dropFlag, flipFlag, messages ++ [(draws, buf)], sent ++ [out],
    sendAll_append atMost before ?_⟩
  simp only [sendAll, sends, Option.bind_eq_bind, Option.bind_some]

theorem Used.transmits {library next : PacketManager Rate} {draws : Draws} {buf : List UInt8}
    {out : Option (List UInt8)} (used : Used strtof atMost zero library)
    (sends : sendtoErr atMost library draws buf = some (next, out)) :
    out = some buf ∨ out = none ∨
      ∃ index, index < buf.length ∧ out = some (RemoteCopy.errorFlipBits buf index) := by
  have long : 7 ≤ buf.length := by
    have single : sendAll atMost library [(draws, buf)] = some (next, [out]) := by
      simp only [sendAll, sends, Option.bind_eq_bind, Option.bind_some]
    exact sendAll_long atMost single _ List.mem_cons_self
  obtain ⟨environment, errorRate, dropFlag, flipFlag, messages, sent, before⟩ := used
  obtain ⟨last, others, sent', configured, -⟩ := sendAll_configured atMost
    (started_configured strtof environment zero errorRate dropFlag flipFlag) messages
    (sendAll_long atMost before)
  rw [before] at sent'
  obtain ⟨rfl, -⟩ := Prod.mk.inj (Option.some.inj sent')
  obtain ⟨after, out', sends', -, -, -, -, result⟩ :=
    sendtoErr_configured atMost configured draws buf long
  rw [sends] at sends'
  obtain ⟨-, rfl⟩ := Prod.mk.inj (Option.some.inj sends')
  cases result with
  | listed _ => exact .inr (.inl rfl)
  | whole _ _ => exact .inl rfl
  | dropped _ _ _ => exact .inr (.inl rfl)
  | flipped index _ _ _ inside => exact .inr (.inr ⟨index, inside, rfl⟩)

end

end Errors
