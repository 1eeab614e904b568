import SentryCocoa.AppStateManager
import SentryCocoa.EnvelopeRoundTrip

/-! What is stored when no update waits. The updates that a start finds in the queue run on the
state that it stores, so the state is right exactly when they do not show in it. -/
namespace SentryCocoa.AppStateManager
open SentryCocoa.Foundation SentryCocoa.Library.Machine
open SentryCocoa.Serialization (exampleDates)

/-- What happened since the current start. -/
structure SinceStart where
  built : SentryAppState
  /-- The updates that the start found in the queue. -/
  queued : List Update
  activity : List Bool
  wasTerminated : Bool
  isANROngoing : Option Bool

/-- The manager, the last word of the tracker of app hangs, and what happened since the start. -/
structure Run where
  manager : SentryAppStateManager
  isANROngoing : Option Bool
  sinceStart : Option SinceStart

def SinceStart.begin (device : Device) (queued : List Update) : SinceStart where
  built := SentryAppStateManager.buildCurrentAppState device
  queued := queued
  activity := []
  wasTerminated := false
  isANROngoing := none

namespace Run
variable (dates : NSDateFormatter)

/-- An app that did not start yet, whatever its file holds. -/
def init (file : Option (NSDictionary Value)) : Run where
  manager := ⟨0, [], file⟩
  isANROngoing := none
  sinceStart := none

/-- A manager that is stopped has no current start. -/
def since (s : Run) (change : SinceStart → SinceStart) : Run :=
  { s with
    sinceStart := if s.manager.startCount = 0 then s.sinceStart else s.sinceStart.map change }

/-- A manager that is started stays with its start. -/
def begin (s : Run) (device : Device) : Run :=
  { s with
    sinceStart :=
      if s.manager.startCount = 0 then some (.begin device s.manager.dispatchQueue)
      else s.sinceStart }

def told (s : Run) : Event → Run
  | .start device => s.begin device
  | .didBecomeActive => s.since fun h => { h with activity := h.activity ++ [true] }
  | .willResignActive => s.since fun h => { h with activity := h.activity ++ [false] }
  | .willTerminate => s.since fun h => { h with wasTerminated := true }
  | .anrDetectedWithType =>
    { s.since fun h => { h with isANROngoing := some true } with isANROngoing := some true }
  | .anrStopped =>
    { s.since fun h => { h with isANROngoing := some false } with isANROngoing := some false }
  | _ => s

def step (s : Run) (event : Event) : Option Run :=
  (s.manager.step dates event).map fun manager => { s.told event with manager := manager }

/-- A started manager without an update that waits. -/
def Settled (s : Run) : Prop := s.manager.startCount ≠ 0 ∧ s.manager.dispatchQueue = []

/-- The state that should be stored. -/
def expected (s : Run) (h : SinceStart) : SentryAppState :=
  { h.built with
    isActive := h.activity.getLast?.getD false
    wasTerminated := h.wasTerminated
    isANROngoing := s.isANROngoing.getD false
    isSDKRunning := true }

def Correct (s : Run) : Prop :=
  s.Settled → ∃ h, s.sinceStart = some h ∧ s.manager.readAppState dates = some (s.expected h)

end Run

def Update.activity : Update → Option Bool
  | .isActive value => some value
  | _ => none

def lastActivity (updates : List Update) : Option Bool :=
  (updates.filterMap Update.activity).getLast?

/-- Nothing from before the start shows in the state: the vendor is known, no end of the SDK was
queued, the last activity queued was the end of one or there was another since, and a hang has not
begun before the start. -/
structure SinceStart.Fresh (h : SinceStart) (isANROngoing : Option Bool) : Prop where
  vendorId : h.built.vendorId.isSome
  isSDKRunning : .isSDKRunning false ∉ h.queued
  isActive : h.activity = [] → lastActivity h.queued ≠ some true
  isANROngoing : h.isANROngoing = none → isANROngoing ≠ some true

def Run.Fresh (s : Run) : Prop :=
  s.Settled → ∀ h, s.sinceStart = some h → h.Fresh s.isANROngoing

/-! Updates in the queue. -/

/-- What the manager puts into the queue. -/
def Update.Background : Update → Prop
  | .isActive _ => True
  | .isSDKRunning value => value = false
  | _ => False

theorem lastActivity_cons (block : Update) (rest : List Update) :
    lastActivity (block :: rest) = (lastActivity rest).or block.activity := by
  unfold lastActivity
  cases hblock : block.activity with
  | none => rw [List.filterMap_cons_none hblock, Option.or_none]
  | some value =>
    rw [List.filterMap_cons_some hblock, List.getLast?_cons]
    cases (rest.filterMap Update.activity).getLast? <;> rfl

theorem foldl_apply {updates : List Update} (h : ∀ block ∈ updates, block.Background)
    (state : SentryAppState) : updates.foldl Update.apply state =
      { state with
        isActive := (lastActivity updates).getD state.isActive
        isSDKRunning := state.isSDKRunning && !updates.contains (.isSDKRunning false) } := by
  induction updates generalizing state with
  | nil => simp [lastActivity]
  | cons block rest ih =>
    rw [List.foldl_cons, ih (fun block hblock => h block (List.mem_cons_of_mem _ hblock)),
      lastActivity_cons]
    have hblock := h block List.mem_cons_self
    cases block with
    | isActive value =>
      cases hrest : lastActivity rest <;> simp [Update.activity, Update.apply]
    | isSDKRunning value =>
      obtain rfl : value = false := hblock
      simp [Update.activity, Update.apply]
    | wasTerminated value => exact hblock.elim
    | isANROngoing value => exact hblock.elim

/-- What the manager does at once. -/
def Update.Immediate : Update → Prop
  | .wasTerminated _ => True
  | .isANROngoing _ => True
  | _ => False

/-- The fields are not those of the queue, so the order makes no difference. -/
theorem foldl_apply_apply {updates : List Update} (h : ∀ block ∈ updates, block.Background)
    {block : Update} (hblock : block.Immediate) (state : SentryAppState) :
    updates.foldl Update.apply (block.apply state) =
      block.apply (updates.foldl Update.apply state) := by
  rw [foldl_apply h, foldl_apply h]
  cases block with
  | isActive value => exact hblock.elim
  | isSDKRunning value => exact hblock.elim
  | wasTerminated value => rfl
  | isANROngoing value => rfl

namespace SentryAppStateManager
variable {dates : NSDateFormatter} {manager : SentryAppStateManager}

theorem readAppState_storeAppState (state : SentryAppState) :
    (manager.storeAppState dates state).readAppState dates =
      if state.vendorId.isSome then some state else none :=
  SentryAppState.initWithJSONObject_serialize dates state

theorem readAppState_vendorId {state : SentryAppState}
    (h : manager.readAppState dates = some state) : state.vendorId.isSome := by
  obtain ⟨jsonObject, -, hread⟩ := Option.bind_eq_some_iff.mp h
  exact SentryAppState.initWithJSONObject_vendorId dates hread

@[simp] theorem readAppState_updateAppState (block : Update) :
    (manager.updateAppState dates block).readAppState dates =
      (manager.readAppState dates).map block.apply := by
  unfold updateAppState
  cases hread : manager.readAppState dates with
  | none => exact hread
  | some state =>
    have hvendor := readAppState_vendorId hread
    dsimp only
    rw [readAppState_storeAppState, if_pos (by rwa [Update.apply_vendorId]), Option.map_some]

@[simp] theorem updateAppState_startCount (block : Update) :
    (manager.updateAppState dates block).startCount = manager.startCount := by
  unfold updateAppState
  split <;> rfl

@[simp] theorem updateAppState_dispatchQueue (block : Update) :
    (manager.updateAppState dates block).dispatchQueue = manager.dispatchQueue := by
  unfold updateAppState
  split <;> rfl

/-- The state that is stored once the queue is empty. -/
def drained (dates : NSDateFormatter) (manager : SentryAppStateManager) : Option SentryAppState :=
  (manager.readAppState dates).map (manager.dispatchQueue.foldl Update.apply)

theorem drained_of_nil (h : manager.dispatchQueue = []) :
    manager.drained dates = manager.readAppState dates := by
  unfold drained
  rw [h]
  exact congrFun Option.map_id _

theorem drained_updateAppStateInBackground (block : Update) :
    (manager.updateAppStateInBackground block).drained dates =
      (manager.drained dates).map block.apply := by
  change (manager.readAppState dates).map ((manager.dispatchQueue ++ [block]).foldl Update.apply) =
    ((manager.readAppState dates).map _).map _
  rw [Option.map_map]
  congr 1
  funext state
  exact List.foldl_append

theorem drained_updateAppState (h : ∀ block ∈ manager.dispatchQueue, block.Background)
    {block : Update} (hblock : block.Immediate) :
    (manager.updateAppState dates block).drained dates =
      (manager.drained dates).map block.apply := by
  unfold drained
  rw [readAppState_updateAppState, updateAppState_dispatchQueue, Option.map_map, Option.map_map]
  congr 1
  funext state
  exact foldl_apply_apply h hblock state

theorem drained_dispatch {block : Update} {rest : List Update}
    (h : manager.dispatchQueue = block :: rest) :
    ({ manager with dispatchQueue := rest }.updateAppState dates block).drained dates =
      manager.drained dates := by
  unfold drained
  rw [readAppState_updateAppState, updateAppState_dispatchQueue, Option.map_map, h]
  rfl

end SentryAppStateManager

/-! What the queue makes of the state that a start stores. -/

namespace SinceStart

def ended (h : SinceStart) : SentryAppState :=
  { h.built with
    isActive := (h.activity.getLast?.or (lastActivity h.queued)).getD false
    wasTerminated := h.wasTerminated
    isANROngoing := h.isANROngoing.getD false
    isSDKRunning := !h.queued.contains (.isSDKRunning false) }

/-- The end of a state that no vendor is known for is not read. -/
def kept (h : SinceStart) : Option SentryAppState :=
  if h.built.vendorId.isSome then some h.ended else none

end SinceStart

theorem drained_storeCurrentAppState {dates : NSDateFormatter} {manager : SentryAppStateManager}
    (h : ∀ block ∈ manager.dispatchQueue, block.Background) (device : Device) :
    (manager.storeCurrentAppState dates device).drained dates =
      (SinceStart.begin device manager.dispatchQueue).kept := by
  unfold SentryAppStateManager.drained SentryAppStateManager.storeCurrentAppState
  rw [SentryAppStateManager.readAppState_storeAppState]
  have hbuilt : (SinceStart.begin device manager.dispatchQueue).built =
      SentryAppStateManager.buildCurrentAppState device := rfl
  unfold SinceStart.kept
  rw [hbuilt]
  split
  · exact congrArg some (foldl_apply h _)
  · rfl

/-- What happens since the start shows in the state as an update of it. -/
theorem SinceStart.kept_change {change : SinceStart → SinceStart} {block : Update}
    {h : SinceStart} (hbuilt : (change h).built = h.built)
    (hended : (change h).ended = block.apply h.ended) :
    (change h).kept = h.kept.map block.apply := by
  unfold kept
  rw [hbuilt, hended]
  split <;> rfl

namespace Run
variable {dates : NSDateFormatter} {s s' : Run}

structure Inv (dates : NSDateFormatter) (s : Run) : Prop where
  background : ∀ block ∈ s.manager.dispatchQueue, block.Background
  kept : s.manager.startCount ≠ 0 → ∃ h, s.sinceStart = some h ∧
    s.manager.drained dates = h.kept ∧
    (h.isANROngoing = none ∨ h.isANROngoing = s.isANROngoing)

theorem Inv.init (file : Option (NSDictionary Value)) : (init file).Inv dates where
  background := List.forall_mem_nil _
  kept hstarted := absurd rfl hstarted

/-- A step that shows in what happened since the start as it does in the state. -/
theorem Inv.since (inv : s.Inv dates) {manager : SentryAppStateManager} {word : Option Bool}
    {change : SinceStart → SinceStart} (block : Update)
    (hcount : manager.startCount = s.manager.startCount)
    (hqueue : ∀ block ∈ manager.dispatchQueue, block.Background)
    (hdrained : manager.drained dates = (s.manager.drained dates).map block.apply)
    (hchange : ∀ h, (change h).built = h.built ∧ (change h).ended = block.apply h.ended)
    (hword : ∀ h : SinceStart, h.isANROngoing = none ∨ h.isANROngoing = s.isANROngoing →
      (change h).isANROngoing = none ∨ (change h).isANROngoing = word) :
    Inv dates { s.since change with manager := manager, isANROngoing := word } where
  background := hqueue
  kept := by
    intro hstarted
    change manager.startCount ≠ 0 at hstarted
    rw [hcount] at hstarted
    obtain ⟨h, hsince, hkept, hsame⟩ := inv.kept hstarted
    refine ⟨change h, ?_, ?_, hword h hsame⟩
    · change (if s.manager.startCount = 0 then s.sinceStart else s.sinceStart.map change) = _
      rw [if_neg hstarted, hsince, Option.map_some]
    · change manager.drained dates = _
      rw [hdrained, hkept, SinceStart.kept_change (hchange h).1 (hchange h).2]

theorem Inv.background_append (inv : s.Inv dates) {block : Update} (hblock : block.Background) :
    ∀ other ∈ (s.manager.updateAppStateInBackground block).dispatchQueue, other.Background :=
  List.forall_mem_append.mpr ⟨inv.background, List.forall_mem_singleton.mpr hblock⟩

/-- An update of a field that the queue does not assign. -/
theorem Inv.immediate (inv : s.Inv dates) {word : Option Bool}
    {change : SinceStart → SinceStart} {block : Update} (hblock : block.Immediate)
    (hchange : ∀ h, (change h).built = h.built ∧ (change h).ended = block.apply h.ended)
    (hword : ∀ h : SinceStart, h.isANROngoing = none ∨ h.isANROngoing = s.isANROngoing →
      (change h).isANROngoing = none ∨ (change h).isANROngoing = word) :
    Inv dates { s.since change with
      manager := s.manager.updateAppState dates block
      isANROngoing := word } := by
  apply inv.since block (SentryAppStateManager.updateAppState_startCount block) ?_
    (SentryAppStateManager.drained_updateAppState inv.background hblock) hchange hword
  rw [SentryAppStateManager.updateAppState_dispatchQueue]
  exact inv.background

/-- An activity notification waits behind everything that is in the queue. -/
theorem Inv.activity (inv : s.Inv dates) (value : Bool) :
    Inv dates { s.since fun h => { h with activity := h.activity ++ [value] } with
      manager := s.manager.updateAppStateInBackground (.isActive value) } := by
  have hchange : ∀ h : SinceStart,
      SinceStart.ended { h with activity := h.activity ++ [value] } =
        (Update.isActive value).apply h.ended := by
    intro h
    unfold SinceStart.ended
    rw [List.getLast?_concat]
    rfl
  exact inv.since (.isActive value) rfl (inv.background_append trivial)
    (SentryAppStateManager.drained_updateAppStateInBackground _)
    (fun h => ⟨rfl, hchange h⟩) (fun _ hsame => hsame)

theorem Inv.observe_stopped (inv : s.Inv dates) {change : SinceStart → SinceStart}
    (hstopped : s.manager.startCount = 0) :
    Inv dates { s.since change with manager := s.manager } where
  background := inv.background
  kept hstarted := absurd hstopped hstarted

theorem Inv.start (inv : s.Inv dates) (device : Device) :
    Inv dates { s.begin device with manager := s.manager.start dates device } := by
  unfold begin SentryAppStateManager.start
  by_cases hstopped : s.manager.startCount = 0
  · rw [if_pos hstopped, if_pos hstopped]
    exact ⟨inv.background, fun _ => ⟨.begin device s.manager.dispatchQueue, rfl,
      drained_storeCurrentAppState inv.background device, .inl rfl⟩⟩
  · rw [if_neg hstopped, if_neg hstopped]
    exact ⟨inv.background, fun _ => inv.kept hstopped⟩

theorem Inv.stopWithForce (inv : s.Inv dates) (forceStop : Bool) :
    Inv dates { s with manager := s.manager.stopWithForce forceStop } := by
  unfold SentryAppStateManager.stopWithForce
  by_cases hstopped : s.manager.startCount = 0
  · rw [if_pos hstopped]
    exact inv
  · rw [if_neg hstopped]
    cases forceStop with
    | true => exact ⟨inv.background_append rfl, fun hstarted => absurd rfl hstarted⟩
    | false => exact ⟨inv.background, fun _ => inv.kept hstopped⟩

theorem Inv.dispatch (inv : s.Inv dates) {block : Update} {rest : List Update}
    (hqueue : s.manager.dispatchQueue = block :: rest) :
    Inv dates { s with
      manager := { s.manager with dispatchQueue := rest }.updateAppState dates block } where
  background other hother := by
    change other ∈ (_ : SentryAppStateManager).dispatchQueue at hother
    rw [SentryAppStateManager.updateAppState_dispatchQueue] at hother
    apply inv.background
    rw [hqueue]
    exact List.mem_cons_of_mem block hother
  kept hstarted := by
    change (_ : SentryAppStateManager).startCount ≠ 0 at hstarted
    rw [SentryAppStateManager.updateAppState_startCount] at hstarted
    obtain ⟨h, hsince, hkept, hsame⟩ := inv.kept hstarted
    exact ⟨h, hsince, (SentryAppStateManager.drained_dispatch hqueue).trans hkept, hsame⟩

/-- One step keeps the invariant. -/
theorem Inv.step (event : Event) (inv : s.Inv dates) (hstep : s.step dates event = some s') :
    s'.Inv dates := by
  obtain ⟨manager, hmanager, rfl⟩ := Option.map_eq_some_iff.mp hstep
  unfold SentryAppStateManager.step at hmanager
  cases event with
  | start device =>
    cases hmanager
    exact inv.start device
  | stop =>
    cases hmanager
    exact inv.stopWithForce false
  | stopWithForce forceStop =>
    cases hmanager
    exact inv.stopWithForce forceStop
  | didBecomeActive =>
    cases hmanager
    unfold SentryAppStateManager.observe
    split
    · exact inv.observe_stopped ‹_›
    · exact inv.activity true
  | willResignActive =>
    cases hmanager
    unfold SentryAppStateManager.observe
    split
    · exact inv.observe_stopped ‹_›
    · exact inv.activity false
  | willTerminate =>
    cases hmanager
    unfold SentryAppStateManager.observe
    split
    · exact inv.observe_stopped ‹_›
    · exact inv.immediate trivial (fun h => ⟨rfl, rfl⟩) (fun _ hsame => hsame)
  | anrDetectedWithType =>
    cases hmanager
    exact inv.immediate trivial (fun h => ⟨rfl, rfl⟩) (fun _ _ => .inr rfl)
  | anrStopped =>
    cases hmanager
    exact inv.immediate trivial (fun h => ⟨rfl, rfl⟩) (fun _ _ => .inr rfl)
  | dispatch =>
    dsimp only at hmanager
    split at hmanager
    · cases hmanager
    · cases hmanager
      exact inv.dispatch ‹_›

theorem ended_eq_expected_iff {h : SinceStart}
    (hsame : h.isANROngoing = none ∨ h.isANROngoing = s.isANROngoing) :
    h.ended = s.expected h ↔ .isSDKRunning false ∉ h.queued ∧
      (h.activity = [] → lastActivity h.queued ≠ some true) ∧
      (h.isANROngoing = none → s.isANROngoing ≠ some true) := by
  have hactive : (h.activity.getLast?.or (lastActivity h.queued)).getD false =
      h.activity.getLast?.getD false ↔
        (h.activity = [] → lastActivity h.queued ≠ some true) := by
    cases hlast : h.activity.getLast? with
    | none =>
      rw [List.getLast?_eq_none_iff] at hlast
      cases hqueued : lastActivity h.queued <;> simp [hlast]
    | some value =>
      have hne : h.activity ≠ [] := by
        intro hnil
        rw [hnil] at hlast
        cases hlast
      simp [hne]
  have hhang : h.isANROngoing.getD false = s.isANROngoing.getD false ↔
      (h.isANROngoing = none → s.isANROngoing ≠ some true) := by
    rcases hsame with hnone | hsame
    · cases hword : s.isANROngoing <;> simp [hnone]
    · rw [hsame]
      simp only [true_iff]
      intro hnone
      rw [hnone]
      exact Option.some_ne_none true |>.symm
  unfold SinceStart.ended expected
  simp only [SentryAppState.mk.injEq, true_and, hactive, hhang, Bool.not_eq_true',
    List.contains_eq_mem, decide_eq_false_iff_not]
  constructor
  · rintro ⟨hactivity, hword, hrunning⟩
    exact ⟨hrunning, hactivity, hword⟩
  · rintro ⟨hrunning, hactivity, hword⟩
    exact ⟨hactivity, hword, hrunning⟩

/-- In a settled state what is stored is what was kept since the start. -/
theorem Inv.correct_iff (inv : s.Inv dates) : s.Correct dates ↔ s.Fresh := by
  apply imp_congr_right
  intro hsettled
  obtain ⟨h, hsince, hkept, hsame⟩ := inv.kept hsettled.1
  rw [SentryAppStateManager.drained_of_nil hsettled.2] at hkept
  have hfresh : h.kept = some (s.expected h) ↔ h.Fresh s.isANROngoing := by
    unfold SinceStart.kept
    split
    · rename_i hvendor
      rw [Option.some_inj, ended_eq_expected_iff hsame]
      exact ⟨fun ⟨hrunning, hactive, hword⟩ => ⟨hvendor, hrunning, hactive, hword⟩,
        fun hfresh => ⟨hfresh.isSDKRunning, hfresh.isActive, hfresh.isANROngoing⟩⟩
    · rename_i hvendor
      exact ⟨fun hnone => (nomatch hnone), fun hfresh => absurd hfresh.vendorId hvendor⟩
  rw [hsince, hkept]
  simp [hfresh]

/-- In every state of every run, the stored state is right exactly when nothing from before the
current start shows in it. -/
theorem always_correct_iff (dates : NSDateFormatter) (file : Option (NSDictionary Value))
    (events : List Event) :
    Always (step dates) (Correct dates) (init file) events ↔
      Always (step dates) Fresh (init file) events :=
  always_congr (fun _ inv => inv.correct_iff) (fun _ event _ inv hstep => inv.step event hstep)
    (Inv.init file) events

def exampleDevice : Device where
  releaseName := some "1.0"
  systemVersion := "17.5"
  identifierForVendor := some "vendor"
  isBeingTraced := false
  systemBootTimestamp := 0

/-- The SDK is closed and started again before the queue runs: the state says that it does not
run. -/
theorem restarted_not_correct :
    ¬Always (step exampleDates) (Correct exampleDates) (init none)
      [.start exampleDevice, .stopWithForce true, .start exampleDevice, .dispatch] := by
  intro h
  obtain ⟨s, hrun, hsettled, hread⟩ : ∃ s, exec (step exampleDates) (init none)
      [.start exampleDevice, .stopWithForce true, .start exampleDevice, .dispatch] = some s ∧
        s.Settled ∧ (s.manager.readAppState exampleDates).map (·.isSDKRunning) = some false :=
    ⟨_, rfl, ⟨by decide +kernel, by decide +kernel⟩, by decide +kernel⟩
  obtain ⟨since, -, hcorrect⟩ := h.exec hrun hsettled
  rw [hcorrect] at hread
  cases hread

end Run

end SentryCocoa.AppStateManager
