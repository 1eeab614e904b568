import SentryCocoa.Library.Machine
import Mathlib.Data.Finset.Card

/-! The trackers of app hangs, which differ only in what their thread does between two looks at
the state. The thread and the calls take the lock of the state in turn; a call holds the lock of
the listeners from its start to its end. -/
namespace SentryCocoa.ANRTracker
open SentryCocoa.Library.Machine

/-- `SentryANRTrackerState`. -/
inductive TrackerState where
  | notRunning
  | running
  | starting
  | stopping
  deriving DecidableEq, Repr

/-- Where a thread stands in `detectANRs`: before its first look at the state, in the loop, or
behind it. -/
inductive DetectANRs where
  | begins
  | detects
  | ends
  deriving DecidableEq, Repr

/-- What a call still has to do under the lock of the state. -/
inductive Pending (L : Type) where
  | start (listener : L)
  | stop
  deriving DecidableEq

structure Tracker (L : Type) where
  listeners : Finset L
  state : TrackerState
  threads : List DetectANRs
  call : Option (Pending L)

def Tracker.init (L : Type) : Tracker L := ⟨∅, .notRunning, [], none⟩

variable {L : Type}

/-- A listener is held weakly, so it can go at any time, unless a call holds it. -/
inductive Input (L : Type) where
  | addListener (listener : L)
  | removeListener (listener : L)
  | clear
  | lockState
  | dealloc (listener : L)
  | thread (index : Nat)

/-- The rest of a call. -/
def Tracker.lockState (tracker : Tracker L) : Option (Tracker L) :=
  match tracker.call with
  | none => none
  | some (.start _) =>
    if tracker.listeners.card > 0 ∧ tracker.state = .notRunning then
      some { tracker with
        state := .starting
        threads := tracker.threads ++ [.begins]
        call := none }
    else some { tracker with call := none }
  | some .stop => some { tracker with state := .stopping, call := none }

/-- A thread takes the lock of the state. -/
def Tracker.detectANRs (tracker : Tracker L) (index : Nat) : Option (Tracker L) :=
  match tracker.threads[index]? with
  | none => none
  | some .begins =>
    if tracker.state ≠ .starting then
      some { tracker with threads := tracker.threads.eraseIdx index }
    else
      some { tracker with state := .running, threads := tracker.threads.set index .detects }
  | some .detects =>
    if tracker.state ≠ .running then
      some { tracker with threads := tracker.threads.set index .ends }
    else some tracker
  | some .ends =>
    some { tracker with state := .notRunning, threads := tracker.threads.eraseIdx index }

variable [DecidableEq L]

def step (tracker : Tracker L) : Input L → Option (Tracker L)
  | .addListener listener =>
    match tracker.call with
    | some _ => none
    | none => some { tracker with
        listeners := insert listener tracker.listeners
        call := some (.start listener) }
  | .removeListener listener =>
    match tracker.call with
    | some _ => none
    | none => some { tracker with
        listeners := tracker.listeners.erase listener
        call := if (tracker.listeners.erase listener).card = 0 then some .stop else none }
  | .clear =>
    match tracker.call with
    | some _ => none
    | none => some { tracker with listeners := ∅, call := some .stop }
  | .lockState => tracker.lockState
  | .dealloc listener =>
    if tracker.call = some (.start listener) then none
    else some { tracker with listeners := tracker.listeners.erase listener }
  | .thread index => tracker.detectANRs index

/-- A thread detects, or it is about to. -/
def Tracker.Detects (tracker : Tracker L) : Prop :=
  tracker.state = .starting ∧ .begins ∈ tracker.threads ∨
    tracker.state = .running ∧ .detects ∈ tracker.threads

/-- Between two calls, a tracker with a listener detects, or its threads alone get it there. -/
def Tracker.Attended (tracker : Tracker L) : Prop :=
  tracker.call = none → tracker.listeners ≠ ∅ →
    ∃ (turns : List Nat) (tracker' : Tracker L), exec step tracker (turns.map .thread) = some tracker' ∧ tracker'.Detects

/-- A call that adds a listener does not meet a tracker that stops. -/
def Input.Timely (tracker : Tracker L) : Input L → Prop
  | .lockState => tracker.state = .stopping → tracker.call = some .stop
  | _ => True

/-! The threads. -/

/-- The threads that there are in each state: never more than one. -/
def TrackerState.Runs : TrackerState → List DetectANRs → Prop
  | .notRunning, threads => threads = []
  | .starting, threads => threads = [.begins]
  | .running, threads => threads = [.detects]
  | .stopping, threads => threads.length ≤ 1

theorem TrackerState.Runs.length_le {state : TrackerState} {threads : List DetectANRs}
    (h : state.Runs threads) : threads.length ≤ 1 := by
  cases state with
  | notRunning => exact (congrArg List.length h).trans_le (Nat.zero_le 1)
  | starting => exact (congrArg List.length h).le
  | running => exact (congrArg List.length h).le
  | stopping => exact h

theorem TrackerState.Runs.single {state : TrackerState} {threads : List DetectANRs}
    (h : state.Runs threads) {index : Nat} {thread : DetectANRs}
    (hthread : threads[index]? = some thread) : index = 0 ∧ threads = [thread] := by
  have hlength := h.length_le
  obtain ⟨hindex, hget⟩ := List.getElem?_eq_some_iff.mp hthread
  have hone : threads.length = 1 := by omega
  obtain ⟨only, rfl⟩ := List.length_eq_one_iff.mp hone
  have hzero : index = 0 := Nat.lt_one_iff.mp hindex
  subst hzero
  exact ⟨rfl, congrArg (fun thread => [thread]) hget⟩

/-- Who is not served waits for a call. -/
structure Invariant (tracker : Tracker L) : Prop where
  threads : tracker.state.Runs tracker.threads
  start : ∀ listener, tracker.call = some (.start listener) → listener ∈ tracker.listeners
  stop : tracker.call = some .stop → tracker.listeners = ∅
  served : tracker.state = .notRunning ∨ tracker.state = .stopping → tracker.listeners = ∅ ∨
    ∃ listener, tracker.call = some (.start listener)

omit [DecidableEq L] in
theorem invariant_init : Invariant (Tracker.init L) :=
  ⟨rfl, fun _ h => (nomatch h), fun h => (nomatch h), fun _ => Or.inl rfl⟩

omit [DecidableEq L] in
theorem Invariant.detects {tracker : Tracker L} (h : Invariant tracker)
    (hcall : tracker.call = none) (hlisteners : tracker.listeners ≠ ∅) : tracker.Detects := by
  have hthreads := h.threads
  have hserved : ¬(tracker.state = .notRunning ∨ tracker.state = .stopping) := by
    intro hidle
    rcases h.served hidle with hempty | ⟨listener, hstart⟩
    · exact hlisteners hempty
    · rw [hcall] at hstart
      cases hstart
  cases hstate : tracker.state with
  | notRunning => exact absurd (Or.inl hstate) hserved
  | stopping => exact absurd (Or.inr hstate) hserved
  | starting =>
    rw [hstate] at hthreads
    exact Or.inl ⟨hstate, hthreads ▸ List.mem_singleton_self _⟩
  | running =>
    rw [hstate] at hthreads
    exact Or.inr ⟨hstate, hthreads ▸ List.mem_singleton_self _⟩

theorem Invariant.attended {tracker : Tracker L} (h : Invariant tracker) : tracker.Attended :=
  fun hcall hlisteners => ⟨[], tracker, rfl, h.detects hcall hlisteners⟩

omit [DecidableEq L] in
theorem Invariant.detectANRs {tracker tracker' : Tracker L} (h : Invariant tracker) {index : Nat}
    (hstep : tracker.detectANRs index = some tracker') : Invariant tracker' := by
  obtain ⟨listeners, state, threads, call⟩ := tracker
  have hthreads := h.threads
  have hserved := h.served
  dsimp only at hthreads hserved
  unfold Tracker.detectANRs at hstep
  dsimp only at hstep
  cases hthread : threads[index]? with
  | none =>
    rw [hthread] at hstep
    cases hstep
  | some thread =>
    obtain ⟨rfl, rfl⟩ := hthreads.single hthread
    cases thread with
    | begins =>
      -- A thread that does not find the tracker starting returns, and leaves it stopping.
      cases state with
      | starting =>
        cases hstep
        exact ⟨rfl, h.start, h.stop, fun hidle => by simp at hidle⟩
      | stopping =>
        cases hstep
        exact ⟨Nat.zero_le 1, h.start, h.stop, h.served⟩
      | notRunning => cases hthreads
      | running => cases hthreads
    | detects =>
      cases state with
      | running =>
        cases hstep
        exact h
      | stopping =>
        cases hstep
        exact ⟨le_refl 1, h.start, h.stop, h.served⟩
      | notRunning => cases hthreads
      | starting => cases hthreads
    | ends =>
      cases state with
      | stopping =>
        cases hstep
        exact ⟨rfl, h.start, h.stop, fun _ => hserved (Or.inr rfl)⟩
      | notRunning => cases hthreads
      | starting => cases hthreads
      | running => cases hthreads

omit [DecidableEq L] in
theorem Invariant.lockState {tracker tracker' : Tracker L} (h : Invariant tracker)
    (htimely : Input.lockState.Timely tracker) (hstep : tracker.lockState = some tracker') :
    Invariant tracker' := by
  obtain ⟨listeners, state, threads, call⟩ := tracker
  have hthreads := h.threads
  cases call with
  | none => cases hstep
  | some pending =>
    cases pending with
    | stop =>
      cases hstep
      have hempty := h.stop rfl
      exact ⟨hthreads.length_le, fun _ hnone => (nomatch hnone), fun hnone => (nomatch hnone),
        fun _ => Or.inl hempty⟩
    | start listener =>
      have hmem := h.start listener rfl
      have hcard : listeners.card > 0 := Finset.card_pos.mpr ⟨listener, hmem⟩
      unfold Tracker.lockState at hstep
      dsimp only at hstep hthreads
      by_cases hidle : state = .notRunning
      · subst hidle
        have hnone : threads = [] := hthreads
        subst hnone
        rw [if_pos ⟨hcard, rfl⟩] at hstep
        cases hstep
        exact ⟨rfl, fun _ hnone => (nomatch hnone), fun hnone => (nomatch hnone),
          fun hidle => by simp at hidle⟩
      · rw [if_neg fun hboth => hidle hboth.2] at hstep
        cases hstep
        refine ⟨hthreads, fun _ hnone => (nomatch hnone), fun hnone => (nomatch hnone), ?_⟩
        rintro (hrunning | hstopping)
        · exact absurd hrunning hidle
        · cases htimely hstopping

theorem invariant_step (tracker : Tracker L) (input : Input L) (tracker' : Tracker L)
    (h : Invariant tracker) (htimely : input.Timely tracker)
    (hstep : step tracker input = some tracker') : Invariant tracker' := by
  cases input with
  | addListener listener =>
    unfold step at hstep
    dsimp only at hstep
    split at hstep
    · cases hstep
    · cases hstep
      refine ⟨h.threads, fun other hother => ?_, fun hstop => (nomatch hstop),
        fun _ => Or.inr ⟨listener, rfl⟩⟩
      cases hother
      exact Finset.mem_insert_self _ _
  | removeListener listener =>
    unfold step at hstep
    dsimp only at hstep
    split at hstep
    · cases hstep
    · rename_i hcall
      cases hstep
      refine ⟨h.threads, fun other hother => ?_, fun hstop => ?_, fun hidle => ?_⟩
      · dsimp only at hother
        split at hother
        · cases hother
        · cases hother
      · dsimp only at hstop
        split at hstop
        · rename_i hcard
          exact Finset.card_eq_zero.mp hcard
        · cases hstop
      · rcases h.served hidle with hempty | ⟨other, hother⟩
        · left
          dsimp only
          rw [hempty, Finset.erase_empty]
        · rw [hcall] at hother
          cases hother
  | clear =>
    unfold step at hstep
    dsimp only at hstep
    split at hstep
    · cases hstep
    · cases hstep
      exact ⟨h.threads, fun _ hstart => (nomatch hstart), fun _ => rfl, fun _ => Or.inl rfl⟩
  | lockState => exact h.lockState htimely hstep
  | dealloc listener =>
    unfold step at hstep
    dsimp only at hstep
    split at hstep
    · cases hstep
    · rename_i hheld
      cases hstep
      refine ⟨h.threads, fun other hother => ?_, fun hstop => ?_, fun hidle => ?_⟩
      · have hne : other ≠ listener := by
          rintro rfl
          exact hheld hother
        exact Finset.mem_erase.mpr ⟨hne, h.start other hother⟩
      · dsimp only
        rw [h.stop hstop, Finset.erase_empty]
      · rcases h.served hidle with hempty | hstart
        · left
          dsimp only
          rw [hempty, Finset.erase_empty]
        · exact Or.inr hstart
  | thread index => exact h.detectANRs hstep

/-! A tracker that stops does not start by itself. -/

def Tracker.Idle (tracker : Tracker L) : Prop :=
  tracker.state = .stopping ∨ tracker.state = .notRunning

omit [DecidableEq L] in
theorem Tracker.Idle.detectANRs {tracker tracker' : Tracker L} (h : tracker.Idle) {index : Nat}
    (hstep : tracker.detectANRs index = some tracker') : tracker'.Idle := by
  have hstarting : tracker.state ≠ .starting := by
    rcases h with h | h
    · simp [h]
    · simp [h]
  have hrunning : tracker.state ≠ .running := by
    rcases h with h | h
    · simp [h]
    · simp [h]
  unfold Tracker.detectANRs at hstep
  split at hstep
  · cases hstep
  · rw [if_pos hstarting] at hstep
    cases hstep
    exact h
  · rw [if_pos hrunning] at hstep
    cases hstep
    exact h
  · cases hstep
    exact Or.inr rfl

theorem Tracker.Idle.turns {tracker tracker' : Tracker L} (h : tracker.Idle) {turns : List Nat}
    (hrun : exec step tracker (turns.map .thread) = some tracker') : tracker'.Idle := by
  induction turns generalizing tracker with
  | nil =>
    cases hrun
    exact h
  | cons index rest ih =>
    obtain ⟨next, hstep, hrest⟩ := exec_cons_eq_some.mp hrun
    exact ih (h.detectANRs hstep) hrest

omit [DecidableEq L] in
theorem Tracker.Idle.not_detects {tracker : Tracker L} (h : tracker.Idle) :
    ¬tracker.Detects := by
  rintro (⟨hstarting, -⟩ | ⟨hrunning, -⟩)
  · rcases h with h | h
    · simp [h] at hstarting
    · simp [h] at hstarting
  · rcases h with h | h
    · simp [h] at hrunning
    · simp [h] at hrunning

/-- The listener that is added to a tracker that stops is never served. -/
theorem not_attended (tracker : Tracker L) (input : Input L) (tracker' : Tracker L)
    (h : Invariant tracker) (hlate : ¬input.Timely tracker)
    (hstep : step tracker input = some tracker') : ¬tracker'.Attended := by
  cases input with
  | lockState =>
    obtain ⟨hstopping, hcall⟩ := Classical.not_imp.mp hlate
    unfold step Tracker.lockState at hstep
    dsimp only at hstep
    split at hstep
    · cases hstep
    · rename_i listener hstart
      have hbusy : ¬(tracker.listeners.card > 0 ∧ tracker.state = .notRunning) := by
        simp [hstopping]
      rw [if_neg hbusy] at hstep
      cases hstep
      intro hattended
      have hmem := h.start listener hstart
      obtain ⟨turns, tracker', hrun, hdetects⟩ :=
        hattended rfl (Finset.ne_empty_of_mem hmem)
      have hidle : Tracker.Idle { tracker with call := none } := Or.inl hstopping
      exact (hidle.turns hrun).not_detects hdetects
    · rename_i hstop
      exact absurd hstop hcall
  | _ => exact absurd trivial hlate

/-- In every interleaving of calls and threads, a listener is served as soon as no call runs, if
and only if no listener is added while the tracker is stopping. -/
theorem always_attended_iff (inputs : List (Input L)) :
    Always step Tracker.Attended (Tracker.init L) inputs ↔
      Allowed step (fun tracker input => input.Timely tracker) (Tracker.init L) inputs :=
  always_iff_allowed (fun _ h => h.attended) invariant_step not_attended invariant_init inputs

/-- A tracker that is cleared before its thread began is stopping for ever. -/
theorem cleared_tracker_never_detects :
    ¬Always step Tracker.Attended (Tracker.init Bool)
      [.addListener true, .lockState, .clear, .lockState, .thread 0, .addListener false,
        .lockState] := by
  intro h
  have hrun : exec step (Tracker.init Bool)
      [.addListener true, .lockState, .clear, .lockState, .thread 0, .addListener false,
        .lockState] = some ⟨{false}, .stopping, [], none⟩ := rfl
  obtain ⟨turns, tracker', hturns, hdetects⟩ := h.exec hrun rfl (Finset.singleton_ne_empty false)
  have hidle : (⟨{false}, .stopping, [], none⟩ : Tracker Bool).Idle := Or.inl rfl
  exact (hidle.turns hturns).not_detects hdetects

end SentryCocoa.ANRTracker
