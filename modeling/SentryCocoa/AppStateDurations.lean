import SentryCocoa.AppStateFile
import Mathlib.Algebra.Order.Group.Int

/-! How long an app was active or in the background since its launch. Three handlers count the
time behind one moment, the last transition, and do not move it. -/
namespace SentryCocoa.AppStateMonitor
open SentryCocoa.JSONCodec SentryCocoa.Library.Machine SentryCocoa.Library.Simulation

variable {δ : Type}

/-- Doubles that are added and subtracted without rounding. -/
def exactArithmetic [AddCommGroup δ] (doubles : Doubles δ) (ofInt64 : Int64 → δ) :
    Arithmetic δ where
  toDoubles := doubles
  zero := 0
  add := (· + ·)
  sub := (· - ·)
  ofInt64 := ofInt64

/-- A launch from its enable on. When it was enabled, and until when the time was counted, is
not in the source. -/
structure Launch (δ : Type) where
  monitor : Monitor δ
  now : δ
  enabledAt : δ
  countedUntil : δ

/-- The state is read, or a call is made. Both take place at some time. -/
inductive Notice (δ : Type) where
  | currentState (now : δ)
  | notify (call : Call) (now : δ)

def Notice.now : Notice δ → δ
  | .currentState now => now
  | .notify _ now => now

/-- The calls that add to the durations since the launch. -/
def Call.counts (call : Call) (state : AppState δ) : Bool :=
  match call with
  | .notifyAppActive isActive => !isActive
  | .notifyAppInForeground isInForeground => isInForeground
  | .notifyAppCrash => state.applicationIsActive || !state.applicationIsInForeground
  | _ => false

section

variable [AddCommGroup δ] [LinearOrder δ]
variable (doubles : Doubles δ) (ofInt64 : Int64 → δ)

def observe (launch : Launch δ) (notice : Notice δ) : Option (Launch δ) :=
  if launch.now ≤ notice.now then
    match notice with
    | .currentState now => some { launch with now := now }
    | .notify call now => some { launch with
        monitor := (launch.monitor.call (exactArithmetic doubles ofInt64) now call).1
        now := now
        countedUntil :=
          if call.counts launch.monitor.state then now else launch.countedUntil }
  else none

/-- The monitor is enabled behind whatever its file says. -/
def Launch.enabled (stateFile : Option Bytes) (initializeTime enabledAt : δ) : Launch δ where
  monitor := ((crashstateInitialize (exactArithmetic doubles ofInt64) stateFile
    initializeTime).call (exactArithmetic doubles ofInt64) enabledAt .setEnabled).1
  now := enabledAt
  enabledAt := enabledAt
  countedUntil := enabledAt

/-- The time that was counted is not more than the time since the launch. -/
def Launch.WithinWallTime (launch : Launch δ) : Prop :=
  launch.monitor.state.activeDurationSinceLaunch +
      launch.monitor.state.backgroundDurationSinceLaunch ≤ launch.now - launch.enabledAt ∧
    0 ≤ launch.monitor.state.activeDurationSinceLaunch ∧
    0 ≤ launch.monitor.state.backgroundDurationSinceLaunch

/-- A call that counts finds a transition that is not older than the launch, and behind which
nothing was counted yet. -/
def Notice.Fresh (launch : Launch δ) : Notice δ → Prop
  | .notify call _ => call.counts launch.monitor.state = true →
      launch.countedUntil ≤ launch.monitor.state.appStateTransitionTime
  | .currentState _ => True

/-! What the calls do to the durations. -/

/-- Since the launch. -/
def AppState.durationSinceLaunch (state : AppState δ) : δ :=
  state.activeDurationSinceLaunch + state.backgroundDurationSinceLaunch

/-- A call that counts adds a duration to that of one of the two. -/
structure AppState.Adds (state state' : AppState δ) (duration now : δ) : Prop where
  transition : state'.appStateTransitionTime = now ∨
    state'.appStateTransitionTime = state.appStateTransitionTime
  active : state'.activeDurationSinceLaunch = state.activeDurationSinceLaunch ∨
    state'.activeDurationSinceLaunch = state.activeDurationSinceLaunch + duration
  background : state'.backgroundDurationSinceLaunch = state.backgroundDurationSinceLaunch ∨
    state'.backgroundDurationSinceLaunch = state.backgroundDurationSinceLaunch + duration
  both : state'.durationSinceLaunch = state.durationSinceLaunch + duration

omit [LinearOrder δ] in
theorem AppState.Adds.none {state state' : AppState δ} {now : δ}
    (htransition : state'.appStateTransitionTime = now ∨
      state'.appStateTransitionTime = state.appStateTransitionTime)
    (hactive : state'.activeDurationSinceLaunch = state.activeDurationSinceLaunch)
    (hbackground : state'.backgroundDurationSinceLaunch = state.backgroundDurationSinceLaunch) :
    state.Adds state' 0 now := by
  refine ⟨htransition, Or.inl hactive, Or.inl hbackground, ?_⟩
  rw [durationSinceLaunch, hactive, hbackground, add_zero]
  rfl

omit [LinearOrder δ] in
theorem AppState.Adds.toActive {state state' : AppState δ} {duration now : δ}
    (htransition : state'.appStateTransitionTime = state.appStateTransitionTime)
    (hactive : state'.activeDurationSinceLaunch = state.activeDurationSinceLaunch + duration)
    (hbackground : state'.backgroundDurationSinceLaunch = state.backgroundDurationSinceLaunch) :
    state.Adds state' duration now := by
  refine ⟨Or.inr htransition, Or.inr hactive, Or.inl hbackground, ?_⟩
  rw [durationSinceLaunch, durationSinceLaunch, hactive, hbackground]
  exact add_right_comm _ _ _

omit [LinearOrder δ] in
theorem AppState.Adds.toBackground {state state' : AppState δ} {duration now : δ}
    (htransition : state'.appStateTransitionTime = state.appStateTransitionTime)
    (hactive : state'.activeDurationSinceLaunch = state.activeDurationSinceLaunch)
    (hbackground : state'.backgroundDurationSinceLaunch =
      state.backgroundDurationSinceLaunch + duration) :
    state.Adds state' duration now := by
  refine ⟨Or.inr htransition, Or.inl hactive, Or.inr hbackground, ?_⟩
  rw [durationSinceLaunch, durationSinceLaunch, hactive, hbackground]
  exact (add_assoc _ _ _).symm

/-- What is added is the time behind the last transition. -/
def Call.duration (call : Call) (state : AppState δ) (now : δ) : δ :=
  if call.counts state then now - state.appStateTransitionTime else 0

omit [LinearOrder δ] in
theorem Monitor.call_adds {monitor : Monitor δ} (henabled : monitor.isEnabled = true)
    (call : Call) (now : δ) :
    (monitor.call (exactArithmetic doubles ofInt64) now call).1.isEnabled = true ∧
      monitor.state.Adds (monitor.call (exactArithmetic doubles ofInt64) now call).1.state
        (call.duration monitor.state now) now := by
  cases call with
  | setEnabled =>
    unfold Monitor.call
    dsimp only
    rw [if_pos henabled]
    exact ⟨henabled, AppState.Adds.none (Or.inr rfl) rfl rfl⟩
  | notifyAppActive isActive =>
    unfold Monitor.call
    dsimp only
    rw [if_pos henabled]
    refine ⟨henabled, ?_⟩
    cases isActive with
    | true => exact AppState.Adds.none (Or.inl rfl) rfl rfl
    | false => exact AppState.Adds.toActive rfl rfl rfl
  | notifyAppInForeground isInForeground =>
    unfold Monitor.call
    dsimp only
    rw [if_pos henabled]
    refine ⟨henabled, ?_⟩
    cases isInForeground with
    | true => exact AppState.Adds.toBackground rfl rfl rfl
    | false => exact AppState.Adds.none (Or.inl rfl) rfl rfl
  | notifyAppTerminate =>
    unfold Monitor.call
    dsimp only
    rw [if_pos henabled]
    exact ⟨henabled, AppState.Adds.none (Or.inr rfl) rfl rfl⟩
  | notifyAppCrash =>
    unfold Monitor.call Call.duration Call.counts crashState
    dsimp only
    rw [if_pos henabled]
    refine ⟨henabled, ?_⟩
    cases hactive : monitor.state.applicationIsActive with
    | true => exact AppState.Adds.toActive rfl rfl rfl
    | false =>
      cases hforeground : monitor.state.applicationIsInForeground with
      | true => exact AppState.Adds.none (Or.inr rfl) rfl rfl
      | false => exact AppState.Adds.toBackground rfl rfl rfl

omit [AddCommGroup δ] [LinearOrder δ] in
/-- The file tells nothing of a transition. -/
theorem loadState_transition (arithmetic : Arithmetic δ) (stateFile : Option Bytes)
    (state : AppState δ) : (loadState arithmetic stateFile state).appStateTransitionTime =
      state.appStateTransitionTime := by
  let same : AppState δ → AppState δ → Prop := fun before after =>
    after.appStateTransitionTime = before.appStateTransitionTime
  have hrefl : ∀ s, same s s := fun _ => rfl
  have htrans : ∀ s t u, same s t → same t u → same s u := fun _ _ _ hst htu => htu.trans hst
  have hfloating : ∀ name value, Keeps same (onFloatingPointElement name value) := by
    intro name value
    cases name with
    | none => exact Keeps.throw hrefl _
    | some name =>
      apply Keeps.modify
      intro s
      split
      · rfl
      · split
        · rfl
        · split
          · rfl
          · rfl
  have hcallback : ∀ pair : Option Bytes × Event δ,
      Keeps same (callbacks arithmetic pair.1 pair.2) := by
    rintro ⟨name, event⟩
    cases event with
    | booleanElement value =>
      cases name with
      | none => exact Keeps.throw hrefl _
      | some name =>
        apply Keeps.modify
        intro s
        split
        · rfl
        · rfl
    | floatingPointElement value => exact hfloating name value
    | integerElement value =>
      cases name with
      | none => exact Keeps.throw hrefl _
      | some name =>
        change Keeps same (onIntegerElement arithmetic (some name) value)
        unfold onIntegerElement
        dsimp only
        split
        · split
          · exact Keeps.throw hrefl _
          · exact hfloating (some name) (arithmetic.ofInt64 value)
        · refine Keeps.bind htrans (Keeps.modify ?_) fun _ =>
            hfloating (some name) (arithmetic.ofInt64 value)
          intro s
          split
          · rfl
          · split
            · rfl
            · rfl
    | _ => exact Keeps.pure hrefl _
  cases stateFile with
  | none => rfl
  | some file =>
    unfold loadState
    dsimp only
    rw [endState_decode _ _ (fun _ => rfl)]
    exact Keeps.forM hrefl htrans hcallback _ state

/-! Runs. -/

/-- What was counted lies between the launch and the last call that counted. -/
structure Launch.Invariant (launch : Launch δ) : Prop where
  enabled : launch.monitor.isEnabled = true
  counted : launch.monitor.state.durationSinceLaunch ≤ launch.countedUntil - launch.enabledAt
  countedUntil : launch.countedUntil ≤ launch.now
  transition : launch.monitor.state.appStateTransitionTime ≤ launch.now
  active : 0 ≤ launch.monitor.state.activeDurationSinceLaunch
  background : 0 ≤ launch.monitor.state.backgroundDurationSinceLaunch

theorem invariant_enabled (stateFile : Option Bytes) (initializeTime : δ) {enabledAt : δ}
    (henabledAt : 0 ≤ enabledAt) :
    (Launch.enabled doubles ofInt64 stateFile initializeTime enabledAt).Invariant := by
  have htransition := loadState_transition (exactArithmetic doubles ofInt64) stateFile
    (AppState.cleared (exactArithmetic doubles ofInt64))
  have hreset : ∀ state : AppState δ,
      (resetState (exactArithmetic doubles ofInt64) state).activeDurationSinceLaunch = 0 ∧
        (resetState (exactArithmetic doubles ofInt64) state).backgroundDurationSinceLaunch = 0 ∧
        (resetState (exactArithmetic doubles ofInt64) state).appStateTransitionTime =
          state.appStateTransitionTime := by
    intro state
    unfold resetState
    dsimp only
    split
    · exact ⟨rfl, rfl, rfl⟩
    · exact ⟨rfl, rfl, rfl⟩
  obtain ⟨hactive, hbackground, hsame⟩ :=
    hreset (crashstateInitialize (exactArithmetic doubles ofInt64) stateFile initializeTime).state
  refine ⟨rfl, ?_, le_refl _, ?_, hactive.ge, hbackground.ge⟩
  · change AppState.activeDurationSinceLaunch (resetState _ _) +
      AppState.backgroundDurationSinceLaunch (resetState _ _) ≤ enabledAt - enabledAt
    rw [hactive, hbackground, add_zero, sub_self]
  · exact (hsame.trans htransition).le.trans henabledAt

variable [IsOrderedAddMonoid δ]

theorem invariant_observe (launch : Launch δ) (notice : Notice δ) (launch' : Launch δ)
    (h : launch.Invariant) (hfresh : notice.Fresh launch)
    (hstep : observe doubles ofInt64 launch notice = some launch') : launch'.Invariant := by
  unfold observe at hstep
  split at hstep
  · rename_i hnow
    cases notice with
    | currentState now =>
      cases hstep
      exact ⟨h.enabled, h.counted, h.countedUntil.trans hnow, h.transition.trans hnow, h.active,
        h.background⟩
    | notify call now =>
      cases hstep
      obtain ⟨henabled, hadds⟩ := Monitor.call_adds doubles ofInt64 h.enabled call now
      have hduration : 0 ≤ call.duration launch.monitor.state now := by
        unfold Call.duration
        split
        · exact sub_nonneg.mpr (h.transition.trans hnow)
        · exact le_refl 0
      refine ⟨henabled, ?_, ?_, ?_, ?_, ?_⟩
      · rw [hadds.both]
        unfold Call.duration
        dsimp only
        split
        · rename_i hcounts
          calc launch.monitor.state.durationSinceLaunch +
                (now - launch.monitor.state.appStateTransitionTime)
              ≤ (launch.countedUntil - launch.enabledAt) + (now - launch.countedUntil) :=
                add_le_add h.counted (sub_le_sub_left (hfresh hcounts) now)
            _ = now - launch.enabledAt :=
              sub_add_sub_cancel' _ _ _
        · rw [add_zero]
          exact h.counted
      · dsimp only
        split
        · exact le_refl now
        · exact h.countedUntil.trans hnow
      · rcases hadds.transition with hmoved | hsame
        · exact hmoved.le
        · exact hsame.le.trans (h.transition.trans hnow)
      · rcases hadds.active with hsame | hmore
        · exact h.active.trans hsame.ge
        · exact (add_nonneg h.active hduration).trans hmore.ge
      · rcases hadds.background with hsame | hmore
        · exact h.background.trans hsame.ge
        · exact (add_nonneg h.background hduration).trans hmore.ge
  · cases hstep

theorem Launch.Invariant.withinWallTime {launch : Launch δ} (h : launch.Invariant) :
    launch.WithinWallTime :=
  ⟨h.counted.trans (sub_le_sub_right h.countedUntil _), h.active, h.background⟩

/-- In every order of calls at times that do not go back, no more time is counted than has
passed since the launch, if each call that counts comes behind a transition of its own. -/
theorem always_withinWallTime (stateFile : Option Bytes) (initializeTime enabledAt : δ)
    (henabledAt : 0 ≤ enabledAt) (notices : List (Notice δ))
    (hfresh : Allowed (observe doubles ofInt64) (fun launch notice => notice.Fresh launch)
      (Launch.enabled doubles ofInt64 stateFile initializeTime enabledAt) notices) :
    Always (observe doubles ofInt64) Launch.WithinWallTime
      (Launch.enabled doubles ofInt64 stateFile initializeTime enabledAt) notices :=
  always_of_allowed (fun _ h => h.withinWallTime)
    (fun launch notice launch' h => invariant_observe doubles ofInt64 launch notice launch' h)
    (invariant_enabled doubles ofInt64 stateFile initializeTime henabledAt) hfresh

end

/-- Doubles that are whole numbers. -/
def wholeDoubles : Doubles Int where
  isnan _ := false
  snprintf value := signedDecimal value
  sscanf _ := 0
  negate value := -value

/-- An app that is active for two seconds and then in the background for three. -/
theorem always_withinWallTime_example :
    Always (observe wholeDoubles Int64.toInt) Launch.WithinWallTime
      (Launch.enabled wholeDoubles Int64.toInt none 100 100)
      [.notify (.notifyAppActive true) 101, .notify (.notifyAppActive false) 103,
        .notify (.notifyAppInForeground false) 103, .notify (.notifyAppInForeground true) 106,
        .currentState 107] := by
  apply always_withinWallTime wholeDoubles Int64.toInt none 100 100 (by decide)
  rintro _ ⟨⟩
  refine ⟨fun hcounts => (nomatch hcounts), ?_⟩
  rintro _ ⟨⟩
  refine ⟨fun _ => (by decide), ?_⟩
  rintro _ ⟨⟩
  refine ⟨fun hcounts => (nomatch hcounts), ?_⟩
  rintro _ ⟨⟩
  refine ⟨fun _ => (by decide), ?_⟩
  rintro _ ⟨⟩
  exact ⟨trivial, trivial⟩

/-- The first call to an app that comes to the foreground counts from the zero of the clock. -/
theorem first_foreground_counts_from_zero :
    ¬Always (observe wholeDoubles Int64.toInt) Launch.WithinWallTime
      (Launch.enabled wholeDoubles Int64.toInt none 100 100)
      [.notify (.notifyAppInForeground true) 101] := by
  intro h
  have hcounted := (h.2 _ rfl).1
  revert hcounted
  decide

end SentryCocoa.AppStateMonitor
