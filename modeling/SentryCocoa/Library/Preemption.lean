import SentryCocoa.Library.Machine

/-! Programs that can be stopped between any two of their statements. A property that a reader
needs at such a point has to hold at every boundary, not only when a program is done. -/
namespace SentryCocoa.Library.Preemption

open Library.Machine

variable {σ τ π : Type*}

/-- A state, and the statements of the running program that are still to be executed. -/
structure Process (σ τ : Type*) where
  state : σ
  todo : List τ

inductive Input (π : Type*) where
  | start (request : π)
  | tick

/-- A program starts when none is running, and each tick executes one statement. -/
def step (run : σ → τ → σ) (program : σ → π → List τ) (p : Process σ τ) :
    Input π → Option (Process σ τ)
  | .start request =>
    if p.todo.isEmpty then some { p with todo := program p.state request } else none
  | .tick =>
    match p.todo with
    | [] => none
    | statement :: rest => some ⟨run p.state statement, rest⟩

/-- The condition on the statement that the input executes. -/
def Meets (ok : σ → τ → Prop) (p : Process σ τ) : Input π → Prop
  | .start _ => True
  | .tick => ∀ statement, p.todo.head? = some statement → ok p.state statement

/-- The property holds at every boundary of the statements, and at the end the second one too. -/
def Leads (run : σ → τ → σ) (ok : σ → τ → Prop) (safe post : σ → Prop) : List τ → σ → Prop
  | [], s => safe s ∧ post s
  | statement :: rest, s =>
    safe s ∧ (ok s statement → Leads run ok safe post rest (run s statement))

section Rules

variable {run : σ → τ → σ} {ok : σ → τ → Prop} {safe post : σ → Prop}

theorem Leads.head {statements : List τ} {s : σ} (h : Leads run ok safe post statements s) :
    safe s := by
  cases statements with
  | nil => exact h.1
  | cons statement rest => exact h.1

theorem Leads.append {mid : σ → Prop} {first second : List τ} {s : σ}
    (h : Leads run ok safe mid first s)
    (hnext : ∀ t, mid t → Leads run ok safe post second t) :
    Leads run ok safe post (first ++ second) s := by
  induction first generalizing s with
  | nil => exact hnext s h.2
  | cons statement rest ih => exact ⟨h.1, fun hok => ih (h.2 hok)⟩

/-- An invariant that each of the statements keeps holds at every boundary. -/
theorem Leads.of_invariant {inv : σ → Prop} (sound : ∀ s, inv s → safe s) {statements : List τ}
    (keep : ∀ statement ∈ statements, ∀ s, inv s → inv (run s statement)) {s : σ} (hs : inv s) :
    Leads run ok safe inv statements s := by
  induction statements generalizing s with
  | nil => exact ⟨sound s hs, hs⟩
  | cons statement rest ih =>
    refine ⟨sound s hs, fun _ => ih (fun st hst => keep st (List.mem_cons_of_mem _ hst)) ?_⟩
    exact keep statement List.mem_cons_self s hs

theorem Leads.mono {post' : σ → Prop} (h : ∀ s, post s → post' s) {statements : List τ} {s : σ}
    (hs : Leads run ok safe post statements s) : Leads run ok safe post' statements s := by
  induction statements generalizing s with
  | nil => exact ⟨hs.1, h s hs.2⟩
  | cons statement rest ih => exact ⟨hs.1, fun hok => ih (hs.2 hok)⟩

/-- A stronger condition on the statements and a weaker property. -/
theorem Leads.imp {ok' : σ → τ → Prop} {safe' : σ → Prop} (hsafe : ∀ s, safe s → safe' s)
    {statements : List τ} (hok : ∀ statement ∈ statements, ∀ s, ok' s statement → ok s statement)
    {s : σ} (hs : Leads run ok safe post statements s) :
    Leads run ok' safe' post statements s := by
  induction statements generalizing s with
  | nil => exact ⟨hsafe s hs.1, hs.2⟩
  | cons statement rest ih =>
    refine ⟨hsafe s hs.1, fun hok' => ih (fun st hst => hok st (List.mem_cons_of_mem _ hst)) ?_⟩
    exact hs.2 (hok statement List.mem_cons_self s hok')

end Rules

/-- When each program leads from an idle state to an idle state, and a statement that breaks its
condition breaks the property at once, the property holds at every boundary of exactly the runs
that meet the condition. -/
theorem always_iff_meets {run : σ → τ → σ} {program : σ → π → List τ} {ok : σ → τ → Prop}
    {safe idle : σ → Prop}
    (leads : ∀ s request, idle s → Leads run ok safe idle (program s request) s)
    (spoil : ∀ s statement, ¬ ok s statement → ¬ safe (run s statement))
    {s : σ} (hs : idle s) (hsafe : safe s) (inputs : List (Input π)) :
    Always (step run program) (fun p => safe p.state) ⟨s, []⟩ inputs ↔
      Allowed (step run program) (Meets ok) ⟨s, []⟩ inputs := by
  have sound (p : Process σ τ) (hp : Leads run ok safe idle p.todo p.state) : safe p.state :=
    hp.head
  have hstart : Leads run ok safe idle [] s := ⟨hsafe, hs⟩
  refine always_iff_allowed sound ?_ ?_ hstart inputs
  · intro p i p' hp hok hstep
    cases i with
    | start request =>
      obtain ⟨state, todo⟩ := p
      cases todo with
      | nil =>
        cases hstep
        exact leads state request hp.2
      | cons statement rest => cases hstep
    | tick =>
      obtain ⟨state, todo⟩ := p
      cases todo with
      | nil => cases hstep
      | cons statement rest =>
        cases hstep
        exact hp.2 (hok statement rfl)
  · intro p i p' _ hno hstep
    cases i with
    | start request => exact absurd trivial hno
    | tick =>
      obtain ⟨state, todo⟩ := p
      cases todo with
      | nil => cases hstep
      | cons statement rest =>
        cases hstep
        refine spoil state statement fun hok => hno ?_
        intro other hother
        cases hother
        exact hok

end SentryCocoa.Library.Preemption
