import Mathlib.Data.List.Basic

/-! Machines that take one input at a time and may refuse it. A run is the
list of its inputs, so a concrete run is evaluated and a property of every run
is an induction over that list. -/
namespace SentryCocoa.Library.Machine

variable {σ ι : Type*}

/-- Run the inputs in order; a refused input ends the run without a state. -/
def exec (step : σ → ι → Option σ) : σ → List ι → Option σ
  | s, [] => some s
  | s, i :: rest => (step s i).bind fun s' => exec step s' rest

/-- Every input that the run takes is allowed in the state that it meets. -/
def Allowed (step : σ → ι → Option σ) (ok : σ → ι → Prop) : σ → List ι → Prop
  | _, [] => True
  | s, i :: rest => ∀ s', step s i = some s' → ok s i ∧ Allowed step ok s' rest

/-- The property holds in every state of the run. -/
def Always (step : σ → ι → Option σ) (holds : σ → Prop) : σ → List ι → Prop
  | s, [] => holds s
  | s, i :: rest => holds s ∧ ∀ s', step s i = some s' → Always step holds s' rest

@[simp] theorem exec_nil (step : σ → ι → Option σ) (s : σ) : exec step s [] = some s := rfl

theorem exec_cons (step : σ → ι → Option σ) (s : σ) (i : ι) (rest : List ι) :
    exec step s (i :: rest) = (step s i).bind fun s' => exec step s' rest := rfl

theorem exec_cons_eq_some {step : σ → ι → Option σ} {s t : σ} {i : ι} {rest : List ι} :
    exec step s (i :: rest) = some t ↔ ∃ s', step s i = some s' ∧ exec step s' rest = some t := by
  rw [exec_cons, Option.bind_eq_some_iff]

theorem exec_append (step : σ → ι → Option σ) (s : σ) (first second : List ι) :
    exec step s (first ++ second) = (exec step s first).bind fun s' => exec step s' second := by
  induction first generalizing s with
  | nil => rfl
  | cons i rest ih =>
    simp only [List.cons_append, exec_cons, Option.bind_assoc]
    congr 1
    funext s'
    exact ih s'

theorem exec_single (step : σ → ι → Option σ) (s : σ) (i : ι) : exec step s [i] = step s i := by
  simp [exec_cons]

theorem Always.head {step : σ → ι → Option σ} {holds : σ → Prop} {s : σ} {inputs : List ι}
    (h : Always step holds s inputs) : holds s := by
  cases inputs with
  | nil => exact h
  | cons i rest => exact h.1

theorem Always.exec {step : σ → ι → Option σ} {holds : σ → Prop} {s t : σ} {inputs : List ι}
    (h : Always step holds s inputs) (run : exec step s inputs = some t) : holds t := by
  induction inputs generalizing s with
  | nil => exact Option.some.inj run ▸ h
  | cons i rest ih =>
    obtain ⟨s', hstep, hrest⟩ := exec_cons_eq_some.mp run
    exact ih (h.2 s' hstep) hrest

theorem Always.append {step : σ → ι → Option σ} {holds : σ → Prop} {s : σ} {first second : List ι}
    (h : Always step holds s first)
    (hnext : ∀ t, Machine.exec step s first = some t → Always step holds t second) :
    Always step holds s (first ++ second) := by
  induction first generalizing s with
  | nil => exact hnext s rfl
  | cons i rest ih =>
    refine ⟨h.1, fun s' hstep => ih (h.2 s' hstep) fun t hrun => hnext t ?_⟩
    exact exec_cons_eq_some.mpr ⟨s', hstep, hrun⟩

/-- An invariant that every allowed step keeps holds in every state of an allowed run. -/
theorem always_of_allowed {step : σ → ι → Option σ} {ok : σ → ι → Prop} {inv holds : σ → Prop}
    (sound : ∀ s, inv s → holds s)
    (keep : ∀ s i s', inv s → ok s i → step s i = some s' → inv s')
    {s : σ} (hs : inv s) {inputs : List ι} (allowed : Allowed step ok s inputs) :
    Always step holds s inputs := by
  induction inputs generalizing s with
  | nil => exact sound s hs
  | cons i rest ih =>
    refine ⟨sound s hs, fun s' hstep => ?_⟩
    obtain ⟨hok, hrest⟩ := allowed s' hstep
    exact ih (keep s i s' hs hok hstep) hrest

/-- When every step that is not allowed breaks the property at once, the allowed
runs are exactly the runs on which the property always holds. -/
theorem always_iff_allowed {step : σ → ι → Option σ} {ok : σ → ι → Prop} {inv holds : σ → Prop}
    (sound : ∀ s, inv s → holds s)
    (keep : ∀ s i s', inv s → ok s i → step s i = some s' → inv s')
    (spoil : ∀ s i s', inv s → ¬ ok s i → step s i = some s' → ¬ holds s')
    {s : σ} (hs : inv s) (inputs : List ι) :
    Always step holds s inputs ↔ Allowed step ok s inputs := by
  induction inputs generalizing s with
  | nil => exact ⟨fun _ => trivial, fun _ => sound s hs⟩
  | cons i rest ih =>
    constructor
    · intro always s' hstep
      have hrest := always.2 s' hstep
      have hok : ok s i := by
        by_contra hno
        exact spoil s i s' hs hno hstep hrest.head
      exact ⟨hok, (ih (keep s i s' hs hok hstep)).mp hrest⟩
    · exact always_of_allowed sound keep hs

/-- What holds of every allowed step in a state of the invariant holds along an allowed run. -/
theorem Allowed.imp {step : σ → ι → Option σ} {ok ok' : σ → ι → Prop} (inv : σ → Prop)
    (keep : ∀ s i s', inv s → ok s i → step s i = some s' → inv s')
    (sound : ∀ s i, inv s → ok s i → ok' s i) {s : σ} (hs : inv s) {inputs : List ι}
    (allowed : Allowed step ok s inputs) : Allowed step ok' s inputs := by
  induction inputs generalizing s with
  | nil => trivial
  | cons i rest ih =>
    intro s' hstep
    obtain ⟨hok, hrest⟩ := allowed s' hstep
    exact ⟨sound s i hs hok, ih (keep s i s' hs hok hstep) hrest⟩

theorem Allowed.of_forall {step : σ → ι → Option σ} {ok : σ → ι → Prop} {s : σ} {inputs : List ι}
    (h : ∀ i ∈ inputs, ∀ s, ok s i) : Allowed step ok s inputs := by
  induction inputs generalizing s with
  | nil => trivial
  | cons i rest ih =>
    exact fun s' _ => ⟨h i List.mem_cons_self s, ih fun j hj => h j (List.mem_cons_of_mem i hj)⟩

/-- A concrete run can be checked. -/
instance decidableAllowed {step : σ → ι → Option σ} {ok : σ → ι → Prop}
    [∀ s i, Decidable (ok s i)] : ∀ s inputs, Decidable (Allowed step ok s inputs)
  | _, [] => .isTrue trivial
  | s, i :: rest =>
    match h : step s i with
    | none => .isTrue fun s' hs' => by rw [h] at hs'; cases hs'
    | some s' =>
      have : Decidable (Allowed step ok s' rest) := decidableAllowed s' rest
      decidable_of_iff (ok s i ∧ Allowed step ok s' rest)
        ⟨fun hok t ht => by rw [h] at ht; cases ht; exact hok, fun hall => hall s' h⟩

theorem allowed_congr {step : σ → ι → Option σ} {ok ok' : σ → ι → Prop}
    (h : ∀ s i, ok s i ↔ ok' s i) (s : σ) (inputs : List ι) :
    Allowed step ok s inputs ↔ Allowed step ok' s inputs := by
  have heq : ok = ok' := by
    ext s i
    exact h s i
  rw [heq]

/-- Two conditions that agree on the inputs of a run, under an invariant, allow the same. -/
theorem allowed_congr_of_invariant {step : σ → ι → Option σ} {ok ok' : σ → ι → Prop}
    {inv : σ → Prop} (keep : ∀ s i s', inv s → step s i = some s' → inv s') {s : σ} (hs : inv s)
    {inputs : List ι} (agree : ∀ s, inv s → ∀ i ∈ inputs, (ok s i ↔ ok' s i)) :
    Allowed step ok s inputs ↔ Allowed step ok' s inputs := by
  induction inputs generalizing s with
  | nil => exact Iff.rfl
  | cons i rest ih =>
    refine forall₂_congr fun s' hstep => and_congr (agree s hs i List.mem_cons_self) ?_
    exact ih (keep s i s' hs hstep) fun t ht j hj => agree t ht j (List.mem_cons_of_mem i hj)

/-- Without a condition on the steps an invariant holds in every state. -/
theorem always_of_invariant {step : σ → ι → Option σ} {inv holds : σ → Prop}
    (sound : ∀ s, inv s → holds s) (keep : ∀ s i s', inv s → step s i = some s' → inv s')
    {s : σ} (hs : inv s) (inputs : List ι) : Always step holds s inputs := by
  induction inputs generalizing s with
  | nil => exact sound s hs
  | cons i rest ih => exact ⟨sound s hs, fun s' hstep => ih (keep s i s' hs hstep)⟩

/-- Two properties that agree under an invariant hold in the same runs. -/
theorem always_congr {step : σ → ι → Option σ} {inv holds holds' : σ → Prop}
    (agree : ∀ s, inv s → (holds s ↔ holds' s))
    (keep : ∀ s i s', inv s → step s i = some s' → inv s') {s : σ} (hs : inv s)
    (inputs : List ι) : Always step holds s inputs ↔ Always step holds' s inputs := by
  induction inputs generalizing s with
  | nil => exact agree s hs
  | cons i rest ih =>
    apply and_congr (agree s hs)
    exact forall₂_congr fun s' hstep => ih (keep s i s' hs hstep)

/-- States at the end of a run from a start state. -/
def Reachable (step : σ → ι → Option σ) (start : σ → Prop) (s : σ) : Prop :=
  ∃ s₀ inputs, start s₀ ∧ exec step s₀ inputs = some s

theorem Reachable.start {step : σ → ι → Option σ} {start : σ → Prop} {s : σ} (h : start s) :
    Reachable step start s := ⟨s, [], h, rfl⟩

theorem Reachable.exec {step : σ → ι → Option σ} {start : σ → Prop} {s t : σ} {inputs : List ι}
    (h : Reachable step start s) (run : Machine.exec step s inputs = some t) :
    Reachable step start t := by
  obtain ⟨s₀, before, h₀, hbefore⟩ := h
  refine ⟨s₀, before ++ inputs, h₀, ?_⟩
  rw [exec_append, hbefore]
  exact run

theorem Reachable.step {step : σ → ι → Option σ} {start : σ → Prop} {s t : σ} {i : ι}
    (h : Reachable step start s) (hstep : step s i = some t) : Reachable step start t :=
  h.exec ((exec_single step s i).trans hstep)

end SentryCocoa.Library.Machine
