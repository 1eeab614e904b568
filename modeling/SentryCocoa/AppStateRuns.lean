import SentryCocoa.AppStateFile

/-! The launches of an app. Each of them reads the state file and counts itself in it, until it
is killed. A kill in the middle of a save leaves a file that is cut, and of what was not written
the next launch knows nothing. -/
namespace SentryCocoa.AppStateMonitor
open SentryCocoa.JSONCodec SentryCocoa.Library.Machine

variable {δ : Type} (arithmetic : Arithmetic δ)

/-- The file, the monitor of the launch that runs, and for each launch that was enabled whether
it was told of a crash, the last one first. The launches are not in the source. -/
structure Device (δ : Type) where
  stateFile : Option Bytes
  monitor : Option (Monitor δ)
  launches : List Bool

/-- Each call reads the time, and once more when it saves. A kill comes between two calls, or
inside of a save: before the file is emptied, or when some of the bytes are written. -/
inductive Input (δ : Type) where
  | launch (now : δ)
  | perform (call : Call) (now later : δ)
  | kill
  | killInSave (call : Call) (now later : δ) (written : Option Nat)

/-- Enabling the monitor makes a launch of it, and a crash marks the launch. -/
def Call.launches (call : Call) (monitor : Monitor δ) (launches : List Bool) : List Bool :=
  match call with
  | .setEnabled => if monitor.isEnabled then launches else false :: launches
  | .notifyAppCrash => if monitor.isEnabled then true :: launches.tail else launches
  | _ => launches

def step (device : Device δ) : Input δ → Option (Device δ)
  | .launch now =>
    match device.monitor with
    | some _ => none
    | none => some { device with
        monitor := some (crashstateInitialize arithmetic device.stateFile now) }
  | .perform call now later =>
    device.monitor.map fun monitor =>
      let called := monitor.call arithmetic now call
      { stateFile := if called.2 then
            some (saveState arithmetic called.1.state called.1.initializeTime later)
          else device.stateFile
        monitor := some called.1
        launches := call.launches monitor device.launches }
  | .kill => device.monitor.map fun _ => { device with monitor := none }
  | .killInSave call now later written =>
    device.monitor.bind fun monitor =>
      let called := monitor.call arithmetic now call
      if called.2 then some
        { stateFile := match written with
            | none => device.stateFile
            | some count =>
              some ((saveState arithmetic called.1.state called.1.initializeTime later).take count)
          monitor := none
          launches := call.launches monitor device.launches }
      else none

/-- The launches since the last one that crashed. -/
def sinceLastCrash (launches : List Bool) : Nat := (launches.takeWhile (!·)).length

/-- A launch that is enabled knows whether the one before crashed, and which launch it is since
the last crash. -/
def Device.TellsLaunches (device : Device δ) : Prop :=
  ∀ monitor, device.monitor = some monitor → monitor.isEnabled = true →
    monitor.state.crashedLastLaunch = (device.launches.tail.head? == some true) ∧
      monitor.state.launchesSinceLastCrash =
        Int32.ofNat (sinceLastCrash device.launches.tail + 1)

/-- A save writes durations that are finite or no numbers. A kill in a save comes after what the
next launch needs was written, or else before the file is emptied, when the launch and its crash
were written before. -/
def Input.Harmless (device : Device δ) : Input δ → Prop
  | .perform call now later =>
    ∀ monitor, device.monitor = some monitor → (monitor.call arithmetic now call).2 = true →
      Durations arithmetic (monitor.call arithmetic now call).1.state
        (monitor.call arithmetic now call).1.initializeTime later
  | .killInSave call now later written =>
    ∀ monitor, device.monitor = some monitor →
      match written with
      | none => call ≠ .setEnabled ∧ call ≠ .notifyAppCrash
      | some count =>
        Durations arithmetic (monitor.call arithmetic now call).1.state
            (monitor.call arithmetic now call).1.initializeTime later ∧
          recordedLength arithmetic (monitor.call arithmetic now call).1.state
            (monitor.call arithmetic now call).1.initializeTime later ≤ count
  | _ => True

/-! What is known. -/

/-- A state that knows the launches that are over. -/
structure Knows (state : AppState δ) (launches : List Bool) : Prop where
  crashed : state.crashedLastLaunch = (launches.head? == some true)
  launches : state.crashedLastLaunch = false →
    state.launchesSinceLastCrash = Int32.ofNat (sinceLastCrash launches)

/-- The state of a launch that is enabled. -/
structure Counts (state : AppState δ) (launches earlier : List Bool) : Prop where
  current : launches = state.crashedThisLaunch :: earlier
  crashed : state.crashedLastLaunch = (earlier.head? == some true)
  launches : state.launchesSinceLastCrash = Int32.ofNat (sinceLastCrash earlier + 1)

theorem knows_cleared : Knows (AppState.cleared arithmetic) [] := ⟨rfl, fun _ => rfl⟩

/-- Enabling counts the launch. -/
theorem Knows.counts {state : AppState δ} {launches : List Bool} (h : Knows state launches) :
    Counts (resetState arithmetic state) (false :: launches) launches := by
  refine ⟨rfl, ?_, ?_⟩
  · rw [← h.crashed]
    unfold resetState
    dsimp only
    split
    · rfl
    · rfl
  · have hcrashed := h.crashed
    have hlaunches := h.launches
    unfold resetState
    dsimp only
    by_cases hlast : state.crashedLastLaunch = true
    · rw [if_pos hlast]
      rw [hlast] at hcrashed
      cases launches with
      | nil => cases hcrashed
      | cons crashed earlier =>
        have htrue : crashed = true := by simpa using hcrashed.symm
        rw [htrue]
        rfl
    · rw [if_neg hlast]
      dsimp only
      rw [hlaunches (Bool.eq_false_iff.mpr hlast), Int32.ofNat_add]
      rfl

/-- What was saved, or enough of it, tells of the launch. -/
theorem Counts.knows {state : AppState δ} {launches earlier : List Bool}
    (h : Counts state launches earlier) {initializeTime later : δ}
    (hdurations : Durations arithmetic state initializeTime later)
    {count : Nat} (hcount : recordedLength arithmetic state initializeTime later ≤ count)
    (before : AppState δ) :
    Knows (loadState arithmetic
      (some ((saveState arithmetic state initializeTime later).take count)) before) launches := by
  unfold recordedLength at hcount
  by_cases hcrashed : state.crashedThisLaunch = true
  · rw [if_pos hcrashed] at hcount
    have hknown := crash_known arithmetic hdurations hcount before
    rw [hcrashed] at hknown
    refine ⟨?_, fun hnot => ?_⟩
    · rw [hknown, h.current, hcrashed]
      rfl
    · rw [hknown] at hnot
      cases hnot
  · rw [if_neg hcrashed] at hcount
    have hknown := launches_known arithmetic hdurations hcount before
    rw [Bool.not_eq_true] at hcrashed
    rw [AppState.known, Prod.mk.injEq, hcrashed] at hknown
    refine ⟨?_, fun _ => ?_⟩
    · rw [hknown.1, h.current, hcrashed]
      rfl
    · rw [hknown.2, h.launches, h.current, hcrashed]
      rfl

/-! The steps. -/

theorem Counts.keep {state state' : AppState δ} {launches earlier : List Bool}
    (h : Counts state launches earlier)
    (hthis : state'.crashedThisLaunch = state.crashedThisLaunch)
    (hlast : state'.crashedLastLaunch = state.crashedLastLaunch)
    (hlaunches : state'.launchesSinceLastCrash = state.launchesSinceLastCrash) :
    Counts state' launches earlier :=
  ⟨by rw [hthis, h.current], by rw [hlast, h.crashed], by rw [hlaunches, h.launches]⟩

/-- The monitor of a launch, before it is enabled and after. -/
def Monitor.Tells (monitor : Monitor δ) (launches : List Bool) : Prop :=
  if monitor.isEnabled then Counts monitor.state launches launches.tail
  else Knows monitor.state launches

theorem Monitor.tells_enabled {monitor : Monitor δ} (h : monitor.isEnabled = true)
    {launches : List Bool} :
    monitor.Tells launches ↔ Counts monitor.state launches launches.tail := by
  unfold Monitor.Tells
  rw [if_pos h]

theorem Counts.active {state : AppState δ} {launches earlier : List Bool}
    (h : Counts state launches earlier) (isActive : Bool) (now : δ) :
    Counts (activeState arithmetic state isActive now) launches earlier := by
  cases isActive with
  | false => exact h.keep rfl rfl rfl
  | true => exact h.keep rfl rfl rfl

theorem Counts.foreground {state : AppState δ} {launches earlier : List Bool}
    (h : Counts state launches earlier) (isInForeground : Bool) (now : δ) :
    Counts (foregroundState arithmetic state isInForeground now) launches earlier := by
  cases isInForeground with
  | false => exact h.keep rfl rfl rfl
  | true => exact h.keep rfl rfl rfl

theorem Counts.crash {state : AppState δ} {launches earlier : List Bool}
    (h : Counts state launches earlier) (now : δ) :
    Counts (crashState arithmetic state now) (true :: earlier) earlier := by
  unfold crashState
  dsimp only
  refine ⟨rfl, ?_, ?_⟩
  · rw [← h.crashed]
    split
    · rfl
    · split
      · rfl
      · rfl
  · rw [← h.launches]
    split
    · rfl
    · split
      · rfl
      · rfl

/-- What a call does to what the monitor knows. A call that saves is one of a launch that is
enabled, and one that does not save makes no launch and no crash. -/
theorem Monitor.Tells.call {monitor : Monitor δ} {launches : List Bool}
    (h : monitor.Tells launches) (now : δ) (call : Call) :
    (monitor.call arithmetic now call).1.Tells (call.launches monitor launches) ∧
      ((monitor.call arithmetic now call).2 = true →
        (monitor.call arithmetic now call).1.isEnabled = true) ∧
      ((monitor.call arithmetic now call).2 = false →
        call.launches monitor launches = launches) := by
  cases henabled : monitor.isEnabled with
  | false =>
    have hknows : Knows monitor.state launches := by
      unfold Monitor.Tells at h
      rwa [henabled] at h
    cases call with
    | setEnabled =>
      unfold Monitor.call Call.launches
      dsimp only
      rw [henabled, if_neg Bool.false_ne_true, if_neg Bool.false_ne_true]
      exact ⟨hknows.counts arithmetic, fun _ => rfl, fun hnot => (nomatch hnot)⟩
    | _ =>
      unfold Monitor.call Call.launches
      dsimp only
      rw [henabled, if_neg Bool.false_ne_true]
      exact ⟨h, fun hnot => (nomatch hnot), fun _ => rfl⟩
  | true =>
    have hcounts : Counts monitor.state launches launches.tail :=
      (Monitor.tells_enabled henabled).mp h
    cases call with
    | setEnabled =>
      unfold Monitor.call Call.launches
      dsimp only
      rw [henabled, if_pos rfl, if_pos rfl]
      exact ⟨h, fun hnot => (nomatch hnot), fun _ => rfl⟩
    | notifyAppActive isActive =>
      unfold Monitor.call Call.launches
      dsimp only
      rw [henabled, if_pos rfl]
      exact ⟨(Monitor.tells_enabled rfl).mpr (hcounts.active arithmetic isActive now),
        fun _ => rfl, fun _ => rfl⟩
    | notifyAppInForeground isInForeground =>
      unfold Monitor.call Call.launches
      dsimp only
      rw [henabled, if_pos rfl]
      exact ⟨(Monitor.tells_enabled rfl).mpr (hcounts.foreground arithmetic isInForeground now),
        fun _ => rfl, fun _ => rfl⟩
    | notifyAppTerminate =>
      unfold Monitor.call Call.launches
      dsimp only
      rw [henabled, if_pos rfl]
      exact ⟨(Monitor.tells_enabled rfl).mpr (hcounts.keep rfl rfl rfl),
        fun _ => rfl, fun _ => rfl⟩
    | notifyAppCrash =>
      unfold Monitor.call Call.launches
      dsimp only
      rw [henabled, if_pos rfl, if_pos rfl]
      exact ⟨(Monitor.tells_enabled rfl).mpr (hcounts.crash arithmetic now),
        fun _ => rfl, fun hnot => (nomatch hnot)⟩

/-- The file tells the next launch of those before, and so does the monitor that runs. -/
structure Invariant (device : Device δ) : Prop where
  stateFile : Knows (loadState arithmetic device.stateFile (AppState.cleared arithmetic))
    device.launches
  monitor : ∀ monitor, device.monitor = some monitor → monitor.Tells device.launches

theorem invariant_step (device : Device δ) (input : Input δ) (device' : Device δ)
    (h : Invariant arithmetic device)
    (hharmless : input.Harmless arithmetic device)
    (hstep : step arithmetic device input = some device') : Invariant arithmetic device' := by
  cases input with
  | launch now =>
    unfold step at hstep
    dsimp only at hstep
    split at hstep
    · cases hstep
    · cases hstep
      refine ⟨h.stateFile, fun monitor hmonitor => ?_⟩
      cases hmonitor
      exact h.stateFile
  | perform call now later =>
    obtain ⟨monitor, hmonitor, rfl⟩ := Option.map_eq_some_iff.mp hstep
    obtain ⟨htells, hsaves, hunsaved⟩ := (h.monitor monitor hmonitor).call arithmetic now call
    refine ⟨?_, fun called hcalled => ?_⟩
    · dsimp only
      split
      · rename_i hsave
        have hcounts := (Monitor.tells_enabled (hsaves hsave)).mp htells
        have hlength := recordedLength_le arithmetic (monitor.call arithmetic now call).1.state
          (monitor.call arithmetic now call).1.initializeTime later
        have hknows := hcounts.knows arithmetic (hharmless monitor hmonitor hsave)
          hlength (AppState.cleared arithmetic)
        rwa [List.take_length] at hknows
      · rename_i hsave
        rw [hunsaved (Bool.eq_false_iff.mpr hsave)]
        exact h.stateFile
    · cases hcalled
      exact htells
  | kill =>
    obtain ⟨monitor, -, rfl⟩ := Option.map_eq_some_iff.mp hstep
    exact ⟨h.stateFile, fun _ hnone => nomatch hnone⟩
  | killInSave call now later written =>
    obtain ⟨monitor, hmonitor, hsome⟩ := Option.bind_eq_some_iff.mp hstep
    obtain ⟨htells, hsaves, -⟩ := (h.monitor monitor hmonitor).call arithmetic now call
    have hwritten := hharmless monitor hmonitor
    dsimp only at hsome
    split at hsome
    · rename_i hsave
      cases hsome
      refine ⟨?_, fun _ hnone => nomatch hnone⟩
      dsimp only
      cases written with
      | none =>
        have hlaunches : call.launches monitor device.launches = device.launches := by
          cases call with
          | setEnabled => exact absurd rfl hwritten.1
          | notifyAppCrash => exact absurd rfl hwritten.2
          | _ => rfl
        rw [hlaunches]
        exact h.stateFile
      | some count =>
        exact ((Monitor.tells_enabled (hsaves hsave)).mp htells).knows arithmetic hwritten.1
          hwritten.2 (AppState.cleared arithmetic)
    · cases hsome

/-- Before the first launch there is no file. -/
def Device.unused : Device δ := ⟨none, none, []⟩

theorem invariant_unused : Invariant arithmetic (Device.unused : Device δ) :=
  ⟨knows_cleared arithmetic, fun _ hnone => nomatch hnone⟩

theorem Invariant.tellsLaunches {device : Device δ} (h : Invariant arithmetic device) :
    device.TellsLaunches := by
  intro monitor hmonitor henabled
  have hcounts := (Monitor.tells_enabled henabled).mp (h.monitor monitor hmonitor)
  exact ⟨hcounts.crashed, hcounts.launches⟩

/-- In every order of launches, calls and kills, a launch that is enabled knows of those before,
if each kill inside of a save comes after what the next launch needs was written. -/
theorem always_tellsLaunches (inputs : List (Input δ))
    (hharmless : Allowed (step arithmetic) (fun device input => input.Harmless arithmetic device)
      Device.unused inputs) :
    Always (step arithmetic) Device.TellsLaunches Device.unused inputs :=
  always_of_allowed (fun _ h => h.tellsLaunches arithmetic)
    (fun device input device' h => invariant_step arithmetic device input device' h)
    (invariant_unused arithmetic) hharmless

/-- Doubles that are all zero. -/
def exampleArithmetic : Arithmetic Unit where
  toDoubles := exampleDoubles
  zero := ()
  add _ _ := ()
  sub _ _ := ()
  ofInt64 _ := ()

theorem exampleArithmetic_durations (state : AppState Unit) (initializeTime now : Unit) :
    Durations exampleArithmetic state initializeTime now := by
  have hshort : (ascii "0").length < 50 := by decide
  intro field _
  cases field.2 with
  | floatingPoint value => exact fun _ => ⟨48, [], rfl, rfl, Or.inl rfl, hshort⟩
  | _ => trivial

/-- A launch that crashes, and then one that is killed behind the last byte of a save. -/
theorem always_tellsLaunches_example :
    Always (step exampleArithmetic) Device.TellsLaunches Device.unused
      [.launch (), .perform .setEnabled () (), .perform .notifyAppCrash () (), .kill,
        .launch (), .perform .setEnabled () (),
        .killInSave .notifyAppTerminate () () (some 50000), .launch (),
        .perform .setEnabled () ()] := by
  apply always_tellsLaunches exampleArithmetic
  apply Allowed.of_forall
  intro input hinput device
  cases input with
  | perform call now later => exact fun _ _ _ => exampleArithmetic_durations _ _ _
  | killInSave call now later written =>
    simp only [List.mem_cons, reduceCtorEq, false_or, List.not_mem_nil, or_false,
      Input.killInSave.injEq] at hinput
    obtain ⟨-, -, -, rfl⟩ := hinput
    intro monitor _
    have hdurations := exampleArithmetic_durations
      (monitor.call exampleArithmetic now call).1.state
      (monitor.call exampleArithmetic now call).1.initializeTime later
    exact ⟨hdurations, (recordedLength_le exampleArithmetic _ _ _).trans
      (saveState_length_le exampleArithmetic hdurations)⟩
  | _ => trivial

/-- A crash is not told when the launch is killed as soon as the file was emptied. -/
theorem crash_untold :
    ¬Always (step exampleArithmetic) Device.TellsLaunches Device.unused
      [.launch (), .perform .setEnabled () (), .killInSave .notifyAppCrash () () (some 0),
        .launch (), .perform .setEnabled () ()] := by
  intro h
  have hlost : (exec (step exampleArithmetic) Device.unused
      [.launch (), .perform .setEnabled () (), .killInSave .notifyAppCrash () () (some 0),
        .launch (), .perform .setEnabled () ()]).any (fun device =>
          device.launches.tail.head? == some true && device.monitor.any fun monitor =>
            monitor.isEnabled && !monitor.state.crashedLastLaunch) = true := by
    decide +kernel
  obtain ⟨device, hrun, hdevice⟩ := (Option.any_eq_true _ _).mp hlost
  rw [Bool.and_eq_true, Option.any_eq_true] at hdevice
  obtain ⟨hcrashed, monitor, hmonitor, hflags⟩ := hdevice
  rw [Bool.and_eq_true, Bool.not_eq_true'] at hflags
  have htells := (h.exec hrun monitor hmonitor hflags.1).1
  rw [hcrashed, hflags.2] at htells
  cases htells

end SentryCocoa.AppStateMonitor
