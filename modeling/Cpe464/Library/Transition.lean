import Mathlib.Data.List.Basic

/-!
Machines whose events are handled by a partial function, the states they reach,
and the induction rules for them. A loop takes a machine through rounds with an input
and an output each, and ends where a rank says so. Nothing here depends on a
particular machine.
-/

namespace Transition

variable {State Event : Type*}

def run (step : Event → State → Option State) : List Event → State → Option State
  | [], state => some state
  | event :: rest, state => (step event state).bind (run step rest)

inductive Reach (initial : State → Prop) (step : Event → State → Option State)
    (permitted : State → Event → State → Prop) : State → Prop
  | start {state} : initial state → Reach initial step permitted state
  | step {state next} (event : Event) : Reach initial step permitted state →
      step event state = some next → permitted state event next →
      Reach initial step permitted next

variable {initial : State → Prop} {step : Event → State → Option State}
  {permitted weaker : State → Event → State → Prop}

theorem Reach.mono {state : State} (reach : Reach initial step permitted state)
    (implied : ∀ state event next, permitted state event next → weaker state event next) :
    Reach initial step weaker state := by
  induction reach with
  | start first => exact .start first
  | step event _ taken allowed ih => exact .step event ih taken (implied _ _ _ allowed)

/-- An invariant holds initially and is preserved by every permitted step. -/
theorem Reach.invariant {state : State} {invariant : State → Prop}
    (reach : Reach initial step permitted state)
    (first : ∀ state, initial state → invariant state)
    (preserved : ∀ state event next, invariant state → step event state = some next →
      permitted state event next → invariant next) : invariant state := by
  induction reach with
  | start begins => exact first _ begins
  | step event _ taken allowed ih => exact preserved _ event _ ih taken allowed

/-- An invariant whose step uses facts already known of every reachable state. -/
theorem Reach.invariantWith {state : State} {known invariant : State → Prop}
    (reach : Reach initial step permitted state)
    (established : ∀ state, Reach initial step permitted state → known state)
    (first : ∀ state, initial state → invariant state)
    (preserved : ∀ state event next, known state → invariant state →
      step event state = some next → permitted state event next → invariant next) :
    invariant state := by
  induction reach with
  | start begins => exact first _ begins
  | step event before taken allowed ih =>
      exact preserved _ event _ (established _ before) ih taken allowed

def Permitted (step : Event → State → Option State)
    (permitted : State → Event → State → Prop) : List Event → State → Prop
  | [], _ => True
  | event :: rest, state => ∀ next, step event state = some next →
      permitted state event next ∧ Permitted step permitted rest next

instance Permitted.decidable [∀ state event next, Decidable (permitted state event next)]
    (events : List Event) (state : State) : Decidable (Permitted step permitted events state) :=
  match events with
  | [] => isTrue trivial
  | event :: rest =>
      match taken : step event state with
      | none => isTrue (by
          intro next reached
          rw [taken] at reached
          cases reached)
      | some after =>
          have := Permitted.decidable rest after
          decidable_of_iff (permitted state event after ∧ Permitted step permitted rest after) (by
            constructor
            · intro allowed next reached
              rw [taken, Option.some.injEq] at reached
              exact reached ▸ allowed
            · intro allowed
              exact allowed after taken)

theorem Permitted.of_forall (always : ∀ state event next, permitted state event next)
    (events : List Event) (state : State) : Permitted step permitted events state := by
  induction events generalizing state with
  | nil => trivial
  | cons event rest ih =>
      intro next _
      exact ⟨always state event next, ih next⟩

theorem Reach.run {state final : State} (events : List Event)
    (reach : Reach initial step permitted state)
    (executed : Transition.run step events state = some final)
    (allowed : Permitted step permitted events state) :
    Reach initial step permitted final := by
  induction events generalizing state with
  | nil =>
      simp only [Transition.run, Option.some.injEq] at executed
      subst final
      exact reach
  | cons event rest ih =>
      simp only [Transition.run, Option.bind_eq_some_iff] at executed
      obtain ⟨next, taken, remaining⟩ := executed
      have permission := allowed next taken
      exact ih (.step event reach taken permission.1) remaining permission.2

/-- The events can be taken one after the other, and lead to such a state. -/
def Leads (step : Event → State → Option State) (permitted : State → Event → State → Prop)
    (after : State → Prop) : List Event → State → Prop
  | [], state => after state
  | event :: rest, state => ∃ next, step event state = some next ∧ permitted state event next ∧
      Leads step permitted after rest next

theorem Leads.run {after : State → Prop} {events : List Event} {state : State}
    (leads : Leads step permitted after events state) :
    ∃ final, Transition.run step events state = some final ∧
      Permitted step permitted events state ∧ after final := by
  induction events generalizing state with
  | nil => exact ⟨state, rfl, trivial, leads⟩
  | cons event rest ih =>
      obtain ⟨next, taken, allowed, remaining⟩ := leads
      obtain ⟨final, executed, permission, ends⟩ := ih remaining
      refine ⟨final, by rw [Transition.run, taken, Option.bind_some, executed], ?_, ends⟩
      intro other reached
      obtain rfl := Option.some.inj (taken.symm.trans reached)
      exact ⟨allowed, permission⟩

theorem Leads.imp {after weaker : State → Prop} {events : List Event} {state : State}
    (leads : Leads step permitted after events state)
    (implied : ∀ state, after state → weaker state) :
    Leads step permitted weaker events state := by
  induction events generalizing state with
  | nil => exact implied state leads
  | cons event others ih =>
      obtain ⟨next, taken, allowed, remaining⟩ := leads
      exact ⟨next, taken, allowed, ih remaining⟩

theorem Leads.append {between after : State → Prop} {events rest : List Event} {state : State}
    (leads : Leads step permitted between events state)
    (further : ∀ state, between state → Leads step permitted after rest state) :
    Leads step permitted after (events ++ rest) state := by
  induction events generalizing state with
  | nil => exact further state leads
  | cons event others ih =>
      obtain ⟨next, taken, allowed, remaining⟩ := leads
      exact ⟨next, taken, allowed, ih remaining⟩

theorem Leads.mono {after : State → Prop} {events : List Event} {state : State}
    (leads : Leads step permitted after events state)
    (implied : ∀ state event next, permitted state event next → weaker state event next) :
    Leads step weaker after events state := by
  induction events generalizing state with
  | nil => exact leads
  | cons event others ih =>
      obtain ⟨next, taken, allowed, remaining⟩ := leads
      exact ⟨next, taken, implied _ _ _ allowed, ih remaining⟩

theorem Leads.rounds (stage : Nat → State → Prop) {events : List Event} {limit : Nat}
    (round : ∀ count state, count < limit → stage count state →
      Leads step permitted (stage (count + 1)) events state)
    {count : Nat} (within : count ≤ limit) {state : State} (begins : stage 0 state) :
    Leads step permitted (stage count) (List.replicate count events).flatten state := by
  induction count with
  | zero => exact begins
  | succ count ih =>
      rw [List.replicate_succ', List.flatten_append, List.flatten_singleton]
      exact (ih (Nat.le_of_succ_le within)).append fun next => round count next within

theorem run_keeps {invariant : State → Prop}
    (preserved : ∀ state event next, invariant state → step event state = some next →
      invariant next) {events : List Event} {state final : State} (holds : invariant state)
    (executed : run step events state = some final) : invariant final := by
  induction events generalizing state with
  | nil => exact Option.some.inj executed ▸ holds
  | cons event rest ih =>
      simp only [run, Option.bind_eq_some_iff] at executed
      obtain ⟨next, taken, remaining⟩ := executed
      exact ih (preserved state event next holds taken) remaining

/-- A run has no more steps than the rank of the state it begins in, when every permitted step
lowers the rank. -/
theorem run_bounded (ranked : Nat → State → Prop)
    (lowers : ∀ rank state event next, ranked rank state → step event state = some next →
      permitted state event next → ∃ lower, lower < rank ∧ ranked lower next)
    {events : List Event} {rank : Nat} {state final : State} (begins : ranked rank state)
    (executed : run step events state = some final)
    (allowed : Permitted step permitted events state) :
    events.length ≤ rank ∧ ∃ rest, ranked rest final := by
  induction events generalizing rank state with
  | nil => exact ⟨Nat.zero_le _, rank, Option.some.inj executed ▸ begins⟩
  | cons event later ih =>
      simp only [run, Option.bind_eq_some_iff] at executed
      obtain ⟨next, taken, remaining⟩ := executed
      obtain ⟨permission, further⟩ := allowed next taken
      obtain ⟨lower, less, stays⟩ := lowers rank state event next begins taken permission
      obtain ⟨short, ends⟩ := ih stays remaining further
      refine ⟨?_, ends⟩
      rw [List.length_cons]
      omega

/-! Loops. -/

section

variable {Input Output : Type*}

def loop (halts : State → Prop) [DecidablePred halts]
    (round : Input → State → Option (State × List Output)) :
    Nat → (Nat → Input) → State → Option (State × List Output)
  | 0, _, state => some (state, [])
  | count + 1, inputs, state =>
      if halts state then some (state, [])
      else do
        let (next, emitted) ← round (inputs 0) state
        let (last, rest) ← loop halts round count (fun index => inputs (index + 1)) next
        some (last, emitted ++ rest)

variable {halts : State → Prop} [DecidablePred halts]
  {round : Input → State → Option (State × List Output)}

theorem loop_succ {state next : State} {emitted : List Output} (going : ¬halts state)
    {inputs : Nat → Input} (taken : round (inputs 0) state = some (next, emitted)) (count : Nat) :
    loop halts round (count + 1) inputs state =
      (loop halts round count (fun index => inputs (index + 1)) next).map fun result =>
        (result.1, emitted ++ result.2) := by
  rw [loop, if_neg going, taken, Option.bind_eq_bind, Option.bind_some, Option.map_eq_bind]
  rfl

theorem loop_keeps {holds : State → List Output → Prop}
    (rounds : ∀ input state past next emitted, holds state past → ¬halts state →
      round input state = some (next, emitted) → holds next (past ++ emitted))
    {count : Nat} {inputs : Nat → Input} {state last : State} {past emitted : List Output}
    (begins : holds state past)
    (executed : loop halts round count inputs state = some (last, emitted)) :
    holds last (past ++ emitted) := by
  induction count generalizing state inputs past emitted with
  | zero =>
      obtain ⟨rfl, rfl⟩ := Prod.mk.inj (Option.some.inj executed)
      rwa [List.append_nil]
  | succ count ih =>
      rw [loop] at executed
      split at executed
      · obtain ⟨rfl, rfl⟩ := Prod.mk.inj (Option.some.inj executed)
        rwa [List.append_nil]
      · rename_i going
        simp only [Option.bind_eq_bind, Option.bind_eq_some_iff] at executed
        obtain ⟨⟨next, first⟩, taken, ⟨⟨final, rest⟩, remaining, same⟩⟩ := executed
        obtain ⟨rfl, rfl⟩ := Prod.mk.inj (Option.some.inj same)
        rw [← List.append_assoc]
        exact ih (rounds (inputs 0) state past next first begins going taken) remaining

/-- A loop ends, within its budget, when every round is defined, keeps the invariant, lowers the
rank and leaves a budget for the rest. -/
theorem loop_ends (allowed : Input → Prop) {invariant : State → Prop}
    {budget : State → List Output → Prop} (rank : State → Nat)
    (ended : ∀ state, halts state → budget state [])
    (rounds : ∀ input state, allowed input → invariant state → ¬halts state →
      ∃ next emitted, round input state = some (next, emitted) ∧ invariant next ∧
        rank next < rank state ∧ ∀ rest, budget next rest → budget state (emitted ++ rest))
    {state : State} (holds : invariant state) {inputs : Nat → Input}
    (valid : ∀ index, allowed (inputs index)) :
    ∃ count last emitted, loop halts round count inputs state = some (last, emitted) ∧
      halts last ∧ budget state emitted := by
  induction measure : rank state using Nat.strongRecOn generalizing state inputs with
  | ind size ih =>
      by_cases atEnd : halts state
      · exact ⟨0, state, [], rfl, atEnd, ended state atEnd⟩
      obtain ⟨next, emitted, taken, kept, lower, spends⟩ :=
        rounds (inputs 0) state (valid 0) holds atEnd
      obtain ⟨count, last, rest, executed, stopped, within⟩ :=
        ih (rank next) (measure ▸ lower) kept (fun index => valid (index + 1)) rfl
      refine ⟨count + 1, last, emitted ++ rest, ?_, stopped, spends rest within⟩
      rw [loop_succ atEnd taken, executed, Option.map_some]

theorem loop_emits (feeds : Input → Prop) {busy : State → Prop}
    (going : ∀ state, busy state → ¬halts state)
    (rounds : ∀ input state next emitted, feeds input → busy state →
      round input state = some (next, emitted) → busy next ∧ emitted ≠ [])
    {count : Nat} {inputs : Nat → Input} (fed : ∀ index < count, feeds (inputs index))
    {state : State} (begins : busy state) {taken : Nat} {last : State} {emitted : List Output}
    (executed : loop halts round taken inputs state = some (last, emitted)) (stopped : halts last) :
    count ≤ emitted.length := by
  induction count generalizing state inputs taken emitted with
  | zero => exact Nat.zero_le _
  | succ count ih =>
      cases taken with
      | zero =>
          obtain ⟨rfl, _⟩ := Prod.mk.inj (Option.some.inj executed)
          exact absurd stopped (going state begins)
      | succ taken =>
          rw [loop, if_neg (going state begins)] at executed
          simp only [Option.bind_eq_bind, Option.bind_eq_some_iff] at executed
          obtain ⟨⟨next, first⟩, step, ⟨⟨final, rest⟩, remaining, same⟩⟩ := executed
          obtain ⟨rfl, rfl⟩ := Prod.mk.inj (Option.some.inj same)
          obtain ⟨stays, puts⟩ := rounds (inputs 0) state next first (fed 0 (by omega)) begins step
          have more := ih (fun index below => fed (index + 1) (by omega)) stays remaining
          have positive := List.length_pos_iff.mpr puts
          simp only [List.length_append]
          omega

end

end Transition
