import Mathlib.Control.Basic

/-! Relations between the computations of two monads with errors. A program that is written
for any such monad runs in both, and when its parameters are related so are its runs. -/
namespace SentryCocoa.Library.Simulation

variable {ε : Type}

/-- What the operations of the monads keep. -/
structure MonadSimulation (ε : Type) (m n : Type → Type) [Monad m] [MonadExceptOf ε m]
    [Monad n] [MonadExceptOf ε n] where
  Rel : {α : Type} → m α → n α → Prop
  pure : ∀ {α : Type} (a : α), Rel (Pure.pure a : m α) (Pure.pure a : n α)
  bind : ∀ {α β : Type} {x : m α} {y : n α} {f : α → m β} {g : α → n β}, Rel x y →
    (∀ a, Rel (f a) (g a)) → Rel (x >>= f) (y >>= g)
  throw : ∀ {α : Type} (e : ε), Rel (throw e : m α) (throw e : n α)

variable {m n : Type → Type} [Monad m] [MonadExceptOf ε m] [Monad n] [MonadExceptOf ε n]

theorem MonadSimulation.liftExcept (simulation : MonadSimulation ε m n) {α : Type}
    (x : Except ε α) :
    simulation.Rel (liftExcept x : m α) (liftExcept x : n α) := by
  cases x with
  | ok a => exact simulation.pure a
  | error e => exact simulation.throw e

/-! A state that outlives an error. -/

variable {σ α β : Type}

theorem run_bind_ok {x : EStateM ε σ α} {f : α → EStateM ε σ β} {s s' : σ} {a : α}
    (h : x s = .ok a s') : (x >>= f) s = f a s' := by
  change EStateM.bind x f s = _
  rw [EStateM.bind, h]

theorem run_bind_error {x : EStateM ε σ α} {f : α → EStateM ε σ β} {s s' : σ} {e : ε}
    (h : x s = .error e s') : (x >>= f) s = .error e s' := by
  change EStateM.bind x f s = _
  rw [EStateM.bind, h]

theorem run_bind_eq_ok_iff {x : EStateM ε σ α} {f : α → EStateM ε σ β} {s s'' : σ} {b : β} :
    (x >>= f) s = .ok b s'' ↔ ∃ a s', x s = .ok a s' ∧ f a s' = .ok b s'' := by
  cases hx : x s with
  | ok a s' =>
    rw [run_bind_ok hx]
    exact ⟨fun h => ⟨a, s', rfl, h⟩, fun ⟨_, _, hrun, h⟩ => by cases hrun; exact h⟩
  | error e s' =>
    rw [run_bind_error hx]
    exact ⟨fun h => (nomatch h), fun ⟨_, _, hrun, _⟩ => (nomatch hrun)⟩

def endState : EStateM.Result ε σ α → σ
  | .ok _ s => s
  | .error _ s => s

def isOk : EStateM.Result ε σ α → Bool
  | .ok _ _ => true
  | .error _ _ => false

/-- Whether it fails or not, the computation takes each state to a related one. -/
def Keeps (R : σ → σ → Prop) (x : EStateM ε σ α) : Prop := ∀ s, R s (endState (x s))

theorem Keeps.pure {R : σ → σ → Prop} (hrefl : ∀ s, R s s) (a : α) :
    Keeps R (Pure.pure a : EStateM ε σ α) := fun s => hrefl s

theorem Keeps.throw {R : σ → σ → Prop} (hrefl : ∀ s, R s s) (e : ε) :
    Keeps R (MonadExcept.throw e : EStateM ε σ α) := fun s => hrefl s

theorem Keeps.bind {R : σ → σ → Prop} (htrans : ∀ s t u, R s t → R t u → R s u)
    {x : EStateM ε σ α} {f : α → EStateM ε σ β} (hx : Keeps R x) (hf : ∀ a, Keeps R (f a)) :
    Keeps R (x >>= f) := by
  intro s
  have hs := hx s
  cases h : x s with
  | ok a t =>
    rw [h] at hs
    rw [run_bind_ok h]
    exact htrans s t _ hs (hf a t)
  | error e t =>
    rw [h] at hs
    rw [run_bind_error h]
    exact hs

theorem Keeps.modify {R : σ → σ → Prop} {f : σ → σ} (hf : ∀ s, R s (f s)) :
    Keeps R (modify f : EStateM ε σ PUnit) := hf

theorem Keeps.forM {R : σ → σ → Prop} (hrefl : ∀ s, R s s)
    (htrans : ∀ s t u, R s t → R t u → R s u) {f : α → EStateM ε σ PUnit}
    (hf : ∀ a, Keeps R (f a)) (list : List α) : Keeps R (list.forM f) := by
  induction list with
  | nil => exact Keeps.pure hrefl _
  | cons a rest ih => exact Keeps.bind htrans (hf a) fun _ => ih

end SentryCocoa.Library.Simulation
