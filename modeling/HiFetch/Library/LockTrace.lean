import Mathlib.Data.List.Induction

/-!
# Lock traces

A call is a function of the state that may not return, and otherwise gives its result, the state and
the trace of its events: it acquires and releases mutexes, writes data that a mutex guards, and does
other things that a client may want to see.

`Disciplined` is the law: no mutex is acquired while the call holds one, a mutex is released by the
call that holds it, guarded data is written by the call that holds its mutex, and in the end
everything has been released.  `Runs` follows a call with the mutex that it holds before and after
and with the other things that it does.  Its rules execute a call step by step, so a call is
disciplined if it can be followed from holding none to holding none.
-/

namespace HiFetch.LockTrace

inductive Event (Mutex Action : Type) where
  | acquire (mutex : Mutex)
  | release (mutex : Mutex)
  /-- Data guarded by the mutex is modified. -/
  | write (mutex : Mutex)
  | act (action : Action)
deriving DecidableEq

variable {Mutex Action State α β : Type}

/-! ## Following a trace -/

section Follow

variable [DecidableEq Mutex]

/-- The mutex held after an event; there is none when the event breaks the law. -/
def advance : Option Mutex → Event Mutex Action → Option (Option Mutex)
  | none, .acquire mutex => some (some mutex)
  | some _, .acquire _ => none
  | held, .release mutex => if held = some mutex then some none else none
  | held, .write mutex => if held = some mutex then some held else none
  | held, .act _ => some held

/-- The mutex held after a trace. -/
def follow (held : Option Mutex) (trace : List (Event Mutex Action)) : Option (Option Mutex) :=
  trace.foldlM advance held

theorem follow_append (held : Option Mutex) (first second : List (Event Mutex Action)) :
    follow held (first ++ second) = (follow held first).bind (follow · second) :=
  List.foldlM_append

/-- A trace that can be followed has been followed up to each of its events. -/
theorem follow_split {held final : Option Mutex} {before after : List (Event Mutex Action)}
    {event : Event Mutex Action} (h : follow held (before ++ event :: after) = some final) :
    ∃ between next, follow held before = some between ∧ advance between event = some next := by
  rw [follow_append] at h
  obtain ⟨between, hbefore, hafter⟩ := Option.bind_eq_some_iff.1 h
  obtain ⟨next, hnext, -⟩ := Option.bind_eq_some_iff.1 hafter
  exact ⟨between, next, hbefore, hnext⟩

end Follow

/-- What the trace does beside locking and writing. -/
def actions (trace : List (Event Mutex Action)) : List Action :=
  trace.filterMap fun
    | .act action => some action
    | _ => none

theorem actions_append (first second : List (Event Mutex Action)) :
    actions (first ++ second) = actions first ++ actions second :=
  List.filterMap_append

/-! ## The law -/

section Law

variable [DecidableEq Mutex] [DecidableEq Action]

/-- After these events the mutex is held. -/
def Held (trace : List (Event Mutex Action)) (mutex : Mutex) : Prop :=
  trace.count (.acquire mutex) = trace.count (.release mutex) + 1

/-- After these events the mutex has been released as often as it was acquired. -/
def Released (trace : List (Event Mutex Action)) (mutex : Mutex) : Prop :=
  trace.count (.acquire mutex) = trace.count (.release mutex)

structure Disciplined (trace : List (Event Mutex Action)) : Prop where
  /-- A mutex is acquired only while none is held. -/
  acquire : ∀ {before mutex after}, trace = before ++ .acquire mutex :: after →
    ∀ other, Released before other
  release : ∀ {before mutex after}, trace = before ++ .release mutex :: after → Held before mutex
  write : ∀ {before mutex after}, trace = before ++ .write mutex :: after → Held before mutex
  released : ∀ mutex, Released trace mutex

/-- The mutex held is the one that was acquired once more than it was released. -/
theorem count_of_follow {trace : List (Event Mutex Action)} {held : Option Mutex}
    (h : follow none trace = some held) (mutex : Mutex) :
    trace.count (.acquire mutex) =
      trace.count (.release mutex) + if held = some mutex then 1 else 0 := by
  induction trace using List.reverseRecOn generalizing held with
  | nil =>
    obtain rfl := Option.some.inj h
    rfl
  | append_singleton front event ih =>
    rw [follow_append] at h
    obtain ⟨between, hfront, hlast⟩ := Option.bind_eq_some_iff.1 h
    obtain ⟨next, hnext, hheld⟩ := Option.bind_eq_some_iff.1 hlast
    obtain rfl := Option.some.inj hheld
    rw [List.count_append, List.count_append, ih hfront]
    cases event with
    | acquire other =>
      cases between with
      | some mutex => simp [advance] at hnext
      | none =>
        obtain rfl := Option.some.inj hnext
        by_cases hother : other = mutex <;> simp [hother]
    | release other =>
      by_cases hbetween : between = some other
      · obtain rfl : none = next := by simpa [advance, hbetween] using hnext
        by_cases hother : other = mutex <;> simp [hbetween, hother]
      · simp [advance, hbetween] at hnext
    | write other =>
      by_cases hbetween : between = some other
      · obtain rfl : some other = next := by simpa [advance, hbetween] using hnext
        simp [hbetween]
      · simp [advance, hbetween] at hnext
    | act action =>
      obtain rfl : between = next := by simpa [advance] using hnext
      simp

theorem count_act (trace : List (Event Mutex Action)) (action : Action) :
    trace.count (.act action) = (actions trace).count action := by
  induction trace with
  | nil => rfl
  | cons event rest ih =>
    rw [List.count_cons, ih]
    cases event <;> simp [actions, List.count_cons]

theorem held_of_follow {trace : List (Event Mutex Action)} {mutex : Mutex}
    (h : follow none trace = some (some mutex)) : Held trace mutex := by
  have hcount := count_of_follow h mutex
  rwa [if_pos rfl] at hcount

theorem released_of_follow {trace : List (Event Mutex Action)}
    (h : follow none trace = some none) (mutex : Mutex) : Released trace mutex := by
  have hcount := count_of_follow h mutex
  rwa [if_neg (by simp)] at hcount

/-- A trace that can be followed from holding none to holding none keeps the law. -/
theorem disciplined_of_follow {trace : List (Event Mutex Action)}
    (h : follow none trace = some none) : Disciplined trace := by
  constructor
  · rintro before mutex after rfl
    obtain ⟨between, next, hbefore, hnext⟩ := follow_split h
    cases between with
    | none => exact released_of_follow hbefore
    | some other => simp [advance] at hnext
  · rintro before mutex after rfl
    obtain ⟨between, next, hbefore, hnext⟩ := follow_split h
    by_cases hbetween : between = some mutex
    · exact held_of_follow (hbetween ▸ hbefore)
    · simp [advance, hbetween] at hnext
  · rintro before mutex after rfl
    obtain ⟨between, next, hbefore, hnext⟩ := follow_split h
    by_cases hbetween : between = some mutex
    · exact held_of_follow (hbetween ▸ hbefore)
    · simp [advance, hbetween] at hnext
  · exact released_of_follow h

end Law

/-! ## Calls -/

/-- A call.  It has no result when it does not return. -/
def Traced (Mutex Action State α : Type) : Type :=
  State → Option (α × State × List (Event Mutex Action))

namespace Traced

instance : Monad (Traced Mutex Action State) where
  pure result state := some (result, state, [])
  bind call continuation state :=
    (call state).bind fun (result, between, first) ↦
      (continuation result between).map fun (last, after, second) ↦ (last, after, first ++ second)

def get : Traced Mutex Action State State := fun state ↦ some (state, state, [])

def lock (mutex : Mutex) : Traced Mutex Action State Unit :=
  fun state ↦ some ((), state, [.acquire mutex])

def unlock (mutex : Mutex) : Traced Mutex Action State Unit :=
  fun state ↦ some ((), state, [.release mutex])

/-- Modify data guarded by the mutex. -/
def write (mutex : Mutex) (change : State → State) : Traced Mutex Action State Unit :=
  fun state ↦ some ((), change state, [.write mutex])

/-- Modify data that no mutex guards. -/
def update (change : State → State) : Traced Mutex Action State Unit :=
  fun state ↦ some ((), change state, [])

def act (action : Action) : Traced Mutex Action State Unit :=
  fun state ↦ some ((), state, [.act action])

/-- A loop that does not end. -/
def diverge : Traced Mutex Action State α := fun _ ↦ none

variable [DecidableEq Mutex]

/-- The call returns, its trace leads from one mutex held to another, and it has done exactly these
other things. -/
def Runs (call : Traced Mutex Action State α) (before : State) (held : Option Mutex) (result : α)
    (after : State) (held' : Option Mutex) (done : List Action) : Prop :=
  ∃ trace, call before = some (result, after, trace) ∧ follow held trace = some held' ∧
    actions trace = done

/-! ### The rules -/

section Rules

variable {before between after : State} {held held' held'' : Option Mutex} {mutex : Mutex}
  {done done' : List Action} {first : α} {last : β} {call : Traced Mutex Action State α}
  {continuation : α → Traced Mutex Action State β}

@[simp]
theorem runs_pure (result : α) :
    Runs (pure result : Traced Mutex Action State α) before held first after held' done ↔
      result = first ∧ before = after ∧ held = held' ∧ done = [] := by
  constructor
  · rintro ⟨trace, hrun, hfollow, hdone⟩
    cases hrun
    exact ⟨rfl, rfl, Option.some.inj hfollow, hdone.symm⟩
  · rintro ⟨rfl, rfl, rfl, rfl⟩
    exact ⟨[], rfl, rfl, rfl⟩

@[simp]
theorem runs_update {change : State → State} :
    Runs (update change : Traced Mutex Action State Unit) before held () after held' done ↔
      change before = after ∧ held = held' ∧ done = [] := by
  constructor
  · rintro ⟨trace, hrun, hfollow, hdone⟩
    cases hrun
    exact ⟨rfl, Option.some.inj hfollow, hdone.symm⟩
  · rintro ⟨rfl, rfl, rfl⟩
    exact ⟨[], rfl, rfl, rfl⟩

omit [DecidableEq Mutex] in
theorem bind_apply {trace : List (Event Mutex Action)}
    (hcall : call before = some (first, between, trace)) :
    (call >>= continuation) before = (continuation first between).map
      fun (last, after, later) ↦ (last, after, trace ++ later) := by
  change (call before).bind _ = _
  simp only [hcall, Option.bind_some]

/-- The rule of sequence. -/
theorem Runs.bind (hcall : Runs call before held first between held' done)
    (hrest : Runs (continuation first) between held' last after held'' done') :
    Runs (call >>= continuation) before held last after held'' (done ++ done') := by
  obtain ⟨trace, hrun, hfollow, rfl⟩ := hcall
  obtain ⟨later, hlater, hfollow', rfl⟩ := hrest
  refine ⟨trace ++ later, ?_, ?_, actions_append trace later⟩
  · simp only [bind_apply hrun, hlater, Option.map_some]
  · rw [follow_append, hfollow]
    exact hfollow'

/-- What comes after a step that is known. -/
theorem runs_bind_iff {trace : List (Event Mutex Action)}
    (hstep : call before = some (first, between, trace)) (hfollow : follow held trace = some held')
    (hdone : actions trace = done) :
    Runs (call >>= continuation) before held last after held'' (done ++ done') ↔
      Runs (continuation first) between held' last after held'' done' := by
  constructor
  · rintro ⟨whole, hrun, hwhole, hactions⟩
    rw [bind_apply hstep] at hrun
    obtain ⟨⟨other, final, later⟩, hlater, heq⟩ := Option.map_eq_some_iff.1 hrun
    cases heq
    rw [follow_append, hfollow] at hwhole
    rw [actions_append, hdone] at hactions
    exact ⟨later, hlater, hwhole, List.append_cancel_left hactions⟩
  · exact Runs.bind ⟨trace, hstep, hfollow, hdone⟩

/-- What comes after a step that only locks or writes. -/
theorem runs_quiet_bind_iff {trace : List (Event Mutex Action)}
    (hstep : call before = some (first, between, trace)) (hfollow : follow held trace = some held')
    (hdone : actions trace = []) :
    Runs (call >>= continuation) before held last after held'' done ↔
      Runs (continuation first) between held' last after held'' done := by
  have hiff : Runs (call >>= continuation) before held last after held'' ([] ++ done) ↔
      Runs (continuation first) between held' last after held'' done :=
    runs_bind_iff hstep hfollow hdone
  exact hiff

@[simp]
theorem runs_get_bind {continuation : State → Traced Mutex Action State β} :
    Runs (get >>= continuation) before held last after held' done ↔
      Runs (continuation before) before held last after held' done :=
  runs_quiet_bind_iff rfl rfl rfl

variable {rest : Unit → Traced Mutex Action State β}

@[simp]
theorem runs_lock_bind : Runs (lock mutex >>= rest) before none last after held' done ↔
    Runs (rest ()) before (some mutex) last after held' done :=
  runs_quiet_bind_iff rfl rfl rfl

@[simp]
theorem runs_unlock_bind : Runs (unlock mutex >>= rest) before (some mutex) last after held' done ↔
    Runs (rest ()) before none last after held' done :=
  runs_quiet_bind_iff rfl (by simp [follow, advance]) rfl

@[simp]
theorem runs_write_bind {change : State → State} :
    Runs (write mutex change >>= rest) before (some mutex) last after held' done ↔
      Runs (rest ()) (change before) (some mutex) last after held' done :=
  runs_quiet_bind_iff rfl (by simp [follow, advance]) rfl

@[simp]
theorem runs_update_bind {change : State → State} :
    Runs (update change >>= rest) before held last after held' done ↔
      Runs (rest ()) (change before) held last after held' done :=
  runs_quiet_bind_iff rfl rfl rfl

@[simp]
theorem runs_act_bind {action : Action} :
    Runs (act action >>= rest) before held last after held' (action :: done) ↔
      Runs (rest ()) before held last after held' done := by
  have hfollow : follow held [.act action] = some held := by
    cases held <;> rfl
  have hdone : actions [(.act action : Event Mutex Action)] = [action] := rfl
  exact runs_bind_iff rfl hfollow hdone

end Rules

/-- A call that runs from holding none to holding none keeps the law. -/
theorem Runs.disciplined [DecidableEq Action] {call : Traced Mutex Action State α}
    {before after : State} {result : α} {done : List Action}
    (h : Runs call before none result after none done) :
    ∃ trace, call before = some (result, after, trace) ∧ Disciplined trace := by
  obtain ⟨trace, hrun, hfollow, -⟩ := h
  exact ⟨trace, hrun, disciplined_of_follow hfollow⟩

end Traced

end HiFetch.LockTrace
