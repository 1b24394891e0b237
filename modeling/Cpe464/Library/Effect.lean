import Mathlib.Data.List.Basic

/-!
Computations on a state that may throw. An exception keeps the state that was reached, as
it does in C++, and there is no result where the behaviour of the program is undefined.
-/

namespace Effects

def Effect (State Exception Result : Type) : Type :=
  State → Option (Except Exception Result × State)

variable {State Exception Result Next : Type}

instance : Monad (Effect State Exception) where
  pure value := fun state => some (.ok value, state)
  bind action next := fun state =>
    match action state with
    | none => none
    | some (.error exception, state) => some (.error exception, state)
    | some (.ok value, state) => next value state

instance : MonadExceptOf Exception (Effect State Exception) where
  throw exception := fun state => some (.error exception, state)
  tryCatch action handler := fun state =>
    match action state with
    | some (.error exception, state) => handler exception state
    | other => other

instance : MonadStateOf State (Effect State Exception) where
  get := fun state => some (.ok state, state)
  set state := fun _ => some (.ok (), state)
  modifyGet change := fun state => some (.ok (change state).1, (change state).2)

def defined (value : Option Result) : Effect State Exception Result := fun state =>
  value.map fun value => (.ok value, state)

section

variable (state : State)

@[simp] theorem pure_apply (value : Result) :
    (pure value : Effect State Exception Result) state = some (.ok value, state) := rfl

@[simp] theorem throw_apply (exception : Exception) :
    (throw exception : Effect State Exception Result) state = some (.error exception, state) := rfl

@[simp] theorem get_apply :
    (get : Effect State Exception State) state = some (.ok state, state) := rfl

@[simp] theorem modify_apply (change : State → State) :
    (modify change : Effect State Exception PUnit) state = some (.ok (), change state) := rfl

@[simp] theorem defined_some (value : Result) :
    (defined (some value) : Effect State Exception Result) state = some (.ok value, state) := rfl

@[simp] theorem defined_none :
    (defined none : Effect State Exception Result) state = none := rfl

@[simp] theorem choose_apply (condition : Prop) [Decidable condition]
    (first second : Effect State Exception Result) :
    (if condition then first else second) state =
      if condition then first state else second state := by
  split <;> rfl

theorem bind_ok {action : Effect State Exception Result} {state next : State} {value : Result}
    (runs : action state = some (.ok value, next))
    (rest : Result → Effect State Exception Next) : (action >>= rest) state = rest value next := by
  simp only [bind, runs]

theorem bind_error {action : Effect State Exception Result} {state next : State}
    {exception : Exception} (runs : action state = some (.error exception, next))
    (rest : Result → Effect State Exception Next) :
    (action >>= rest) state = some (.error exception, next) := by
  simp only [bind, runs]

theorem tryCatch_ok {action : Effect State Exception Result} {state next : State} {value : Result}
    (runs : action state = some (.ok value, next))
    (handler : Exception → Effect State Exception Result) :
    (tryCatch action handler) state = some (.ok value, next) := by
  simp only [tryCatch, tryCatchThe, MonadExceptOf.tryCatch, runs]

theorem tryCatch_error {action : Effect State Exception Result} {state next : State}
    {exception : Exception} (runs : action state = some (.error exception, next))
    (handler : Exception → Effect State Exception Result) :
    (tryCatch action handler) state = handler exception next := by
  simp only [tryCatch, tryCatchThe, MonadExceptOf.tryCatch, runs]

end

/-! What an action leaves as it is, however it ends. -/

def Preserves {Part : Type} (part : State → Part) (action : Effect State Exception Result) : Prop :=
  ∀ state outcome next, action state = some (outcome, next) → part next = part state

section

variable {Part : Type} {part : State → Part}

theorem preserves_pure (value : Result) :
    Preserves part (pure value : Effect State Exception Result) := by
  rintro state outcome next ends
  cases ends
  rfl

theorem preserves_throw (exception : Exception) :
    Preserves part (throw exception : Effect State Exception Result) := by
  rintro state outcome next ends
  cases ends
  rfl

theorem preserves_get : Preserves part (get : Effect State Exception State) := by
  rintro state outcome next ends
  cases ends
  rfl

theorem preserves_modify {change : State → State} (same : ∀ state, part (change state) = part state) :
    Preserves part (modify change : Effect State Exception PUnit) := by
  rintro state outcome next ends
  cases ends
  exact same state

theorem preserves_defined (value : Option Result) :
    Preserves part (defined value : Effect State Exception Result) := by
  rintro state outcome next ends
  cases value with
  | none => cases ends
  | some value =>
      cases ends
      rfl

theorem preserves_choose {condition : Prop} [Decidable condition]
    {first second : Effect State Exception Result} (holds : condition → Preserves part first)
    (fails : ¬condition → Preserves part second) :
    Preserves part (if condition then first else second) := by
  split
  · exact holds (by assumption)
  · exact fails (by assumption)

theorem preserves_bind {action : Effect State Exception Result}
    {rest : Result → Effect State Exception Next} (before : Preserves part action)
    (after : ∀ value, Preserves part (rest value)) : Preserves part (action >>= rest) := by
  intro state outcome next ends
  cases runs : action state with
  | none =>
      simp only [bind, runs] at ends
      cases ends
  | some reached =>
      obtain ⟨result, middle⟩ := reached
      cases result with
      | error exception =>
          rw [bind_error runs] at ends
          cases ends
          exact before state _ _ runs
      | ok value =>
          rw [bind_ok runs] at ends
          exact (after value middle outcome next ends).trans (before state _ middle runs)

theorem preserves_tryCatch {action : Effect State Exception Result}
    {handler : Exception → Effect State Exception Result} (before : Preserves part action)
    (after : ∀ exception, Preserves part (handler exception)) :
    Preserves part (tryCatch action handler) := by
  intro state outcome next ends
  cases runs : action state with
  | none =>
      simp only [tryCatch, tryCatchThe, MonadExceptOf.tryCatch, runs] at ends
      cases ends
  | some reached =>
      obtain ⟨result, middle⟩ := reached
      cases result with
      | error exception =>
          rw [tryCatch_error runs] at ends
          exact (after exception middle outcome next ends).trans (before state _ middle runs)
      | ok value =>
          rw [tryCatch_ok runs] at ends
          cases ends
          exact before state _ _ runs

/-! What an action may change, however it ends. -/

variable {first second whole : Part → Part → Prop}

def Relates (relation : Part → Part → Prop) (part : State → Part)
    (action : Effect State Exception Result) : Prop :=
  ∀ state outcome next, action state = some (outcome, next) → relation (part state) (part next)

theorem relates_preserved {action : Effect State Exception Result} (same : Preserves part action)
    (refl : ∀ before, whole before before) : Relates whole part action := by
  intro state outcome next ends
  rw [same state outcome next ends]
  exact refl _

theorem relates_mono {action : Effect State Exception Result} (relates : Relates first part action)
    (implied : ∀ before after, first before after → whole before after) :
    Relates whole part action := by
  intro state outcome next ends
  exact implied _ _ (relates state outcome next ends)

theorem relates_bind {action : Effect State Exception Result}
    {rest : Result → Effect State Exception Next} (before : Relates first part action)
    (after : ∀ value, Relates second part (rest value))
    (early : ∀ before after, first before after → whole before after)
    (both : ∀ before middle after, first before middle → second middle after → whole before after) :
    Relates whole part (action >>= rest) := by
  intro state outcome next ends
  cases runs : action state with
  | none =>
      simp only [bind, runs] at ends
      cases ends
  | some reached =>
      obtain ⟨result, middle⟩ := reached
      have begins := before state result middle runs
      cases result with
      | error exception =>
          rw [bind_error runs] at ends
          cases ends
          exact early _ _ begins
      | ok value =>
          rw [bind_ok runs] at ends
          exact both _ _ _ begins (after value middle outcome next ends)

theorem relates_after {action : Effect State Exception Result}
    {rest : Result → Effect State Exception Next} (same : Preserves part action)
    (refl : ∀ before, whole before before) (after : ∀ value, Relates whole part (rest value)) :
    Relates whole part (action >>= rest) := by
  have unchanged : Relates Eq part action := relates_preserved same (fun _ => rfl)
  refine relates_bind unchanged after ?_ ?_
  · rintro before _ rfl
    exact refl before
  · rintro before _ after rfl relates
    exact relates

theorem relates_tryCatch {action : Effect State Exception Result}
    {handler : Exception → Effect State Exception Result} (before : Relates first part action)
    (after : ∀ exception, Relates second part (handler exception))
    (early : ∀ before after, first before after → whole before after)
    (both : ∀ before middle after, first before middle → second middle after → whole before after) :
    Relates whole part (tryCatch action handler) := by
  intro state outcome next ends
  cases runs : action state with
  | none =>
      simp only [tryCatch, tryCatchThe, MonadExceptOf.tryCatch, runs] at ends
      cases ends
  | some reached =>
      obtain ⟨result, middle⟩ := reached
      have begins := before state result middle runs
      cases result with
      | error exception =>
          rw [tryCatch_error runs] at ends
          exact both _ _ _ begins (after exception middle outcome next ends)
      | ok value =>
          rw [tryCatch_ok runs] at ends
          cases ends
          exact early _ _ begins

end

end Effects
