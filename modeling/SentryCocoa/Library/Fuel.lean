import Mathlib.Data.List.Basic

/-! Computations that run on fuel and have no result when it runs out. What is proved of two
fuels at once is that both suffice and give one result, so a recursion is followed once for its
termination and for what it computes. -/
namespace SentryCocoa.Library.Fuel

universe u
variable {σ α β : Type u}

/-- Both computations end alike, in a state that meets the condition. -/
def Agree (first second : StateT σ Option α) (s : σ) (post : α → σ → Prop) : Prop :=
  ∃ a t, first s = some (a, t) ∧ second s = some (a, t) ∧ post a t

theorem Agree.imp {first second : StateT σ Option α} {s : σ} {post post' : α → σ → Prop}
    (h : Agree first second s post) (himp : ∀ a t, post a t → post' a t) :
    Agree first second s post' := by
  obtain ⟨a, t, hfirst, hsecond, hpost⟩ := h
  exact ⟨a, t, hfirst, hsecond, himp a t hpost⟩

theorem agree_pure {a : α} {s : σ} {post : α → σ → Prop} (h : post a s) :
    Agree (pure a) (pure a) s post :=
  ⟨a, s, rfl, rfl, h⟩

theorem agree_modify {f : σ → σ} {s : σ} {post : PUnit → σ → Prop} (h : post ⟨⟩ (f s)) :
    Agree (modify f) (modify f) s post :=
  ⟨⟨⟩, f s, rfl, rfl, h⟩

theorem agree_get {s : σ} {post : σ → σ → Prop} (h : post s s) :
    Agree (get : StateT σ Option σ) get s post :=
  ⟨s, s, rfl, rfl, h⟩

theorem Agree.bind {first second : StateT σ Option α} {next next' : α → StateT σ Option β} {s : σ}
    {mid : α → σ → Prop} {post : β → σ → Prop} (h : Agree first second s mid)
    (hnext : ∀ a t, mid a t → Agree (next a) (next' a) t post) :
    Agree (first >>= next) (second >>= next') s post := by
  obtain ⟨a, t, hfirst, hsecond, hmid⟩ := h
  obtain ⟨b, u, hnext₁, hnext₂, hpost⟩ := hnext a t hmid
  refine ⟨b, u, ?_, ?_, hpost⟩
  · change (first s).bind _ = _
    rw [hfirst]
    exact hnext₁
  · change (second s).bind _ = _
    rw [hsecond]
    exact hnext₂

theorem agree_modify_bind {f : σ → σ} {next next' : PUnit → StateT σ Option β} {s : σ}
    {post : β → σ → Prop} (h : Agree (next ⟨⟩) (next' ⟨⟩) (f s) post) :
    Agree (modify f >>= next) (modify f >>= next') s post :=
  h

theorem agree_ite {p : Prop} [Decidable p] {first first' second second' : StateT σ Option α} {s : σ}
    {post : α → σ → Prop} (hpos : p → Agree first first' s post)
    (hneg : ¬ p → Agree second second' s post) :
    Agree (if p then first else second) (if p then first' else second') s post := by
  by_cases h : p
  · rw [if_pos h, if_pos h]
    exact hpos h
  · rw [if_neg h, if_neg h]
    exact hneg h

/-- A loop, with what holds after so many rounds. -/
theorem agree_forM (inv : Nat → σ → Prop) {f f' : α → StateT σ Option PUnit} {xs : List α}
    (hstep : ∀ x ∈ xs, ∀ i s, inv i s → Agree (f x) (f' x) s fun _ t => inv (i + 1) t)
    {start : Nat} {s : σ} (h : inv start s) :
    Agree (xs.forM f) (xs.forM f') s fun _ t => inv (start + xs.length) t := by
  induction xs generalizing start s with
  | nil => exact agree_pure h
  | cons x xs ih =>
    have hx := hstep x List.mem_cons_self start s h
    refine hx.bind fun _ t ht => ?_
    rw [List.length_cons, Nat.add_comm xs.length 1, ← Nat.add_assoc]
    exact ih (fun y hy => hstep y (List.mem_cons_of_mem x hy)) ht

/-- Where any two sufficient fuels agree, all of them give one result. -/
theorem exists_result {run : Nat → StateT σ Option α} {s : σ} {least : Nat} {post : α → σ → Prop}
    (h : ∀ fuel fuel', least < fuel → least < fuel' → Agree (run fuel) (run fuel') s post) :
    ∃ a t, (∀ fuel, least < fuel → run fuel s = some (a, t)) ∧ post a t := by
  obtain ⟨a, t, hleast, -, hpost⟩ :=
    h (least + 1) (least + 1) (Nat.lt_succ_self least) (Nat.lt_succ_self least)
  refine ⟨a, t, fun fuel hfuel => ?_, hpost⟩
  obtain ⟨a', t', hfirst, hsecond, -⟩ := h (least + 1) fuel (Nat.lt_succ_self least) hfuel
  rw [hsecond, ← hfirst, hleast]

end SentryCocoa.Library.Fuel
