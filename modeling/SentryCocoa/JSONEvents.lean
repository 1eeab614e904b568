import SentryCocoa.JSONDecoder
import SentryCocoa.Library.Simulation

/-! The events that the decoder finds. What the callbacks do with them does not change which
ones they are, unless a callback fails: a run of the decoder is the run of the callbacks on the
events of the buffer. A reader may refill the buffer behind each of them. -/
namespace SentryCocoa.JSONCodec
open SentryCocoa.Library.Simulation

variable {δ ρ σ : Type}

/-- An event, and the buffer behind it. -/
structure Fired (δ : Type) where
  name : Option Bytes
  event : Event δ
  bufferPtr : Bytes

/-- Events that are found before there is a result. -/
def Parse (ρ δ α : Type) : Type := ρ → List (Fired δ) × Except JSONError (α × ρ)

namespace Parse

instance : Monad (Parse ρ δ) where
  pure a := fun reader => ([], .ok (a, reader))
  bind x f := fun reader =>
    match x reader with
    | (fired, .error e) => (fired, Except.error e)
    | (fired, .ok (a, reader)) => (fired ++ (f a reader).1, (f a reader).2)

instance : MonadExceptOf JSONError (Parse ρ δ) where
  throw e := fun _ => ([], Except.error e)
  tryCatch x handle := fun reader =>
    match x reader with
    | (fired, .error e) => (fired ++ (handle e reader).1, (handle e reader).2)
    | (fired, .ok result) => (fired, .ok result)

theorem pure_apply {α : Type} (a : α) (reader : ρ) :
    (pure a : Parse ρ δ α) reader = ([], .ok (a, reader)) := rfl

theorem bind_ok {α β : Type} {x : Parse ρ δ α} {f : α → Parse ρ δ β} {reader reader' : ρ}
    {fired : List (Fired δ)} {a : α} (h : x reader = (fired, .ok (a, reader'))) :
    (x >>= f) reader = (fired ++ (f a reader').1, (f a reader').2) := by
  change (match x reader with
    | (fired, .error e) => (fired, Except.error e)
    | (fired, .ok (a, reader)) => (fired ++ (f a reader).1, (f a reader).2)) = _
  rw [h]

theorem bind_error {α β : Type} {x : Parse ρ δ α} {f : α → Parse ρ δ β} {reader : ρ}
    {fired : List (Fired δ)} {e : JSONError} (h : x reader = (fired, .error e)) :
    (x >>= f) reader = (fired, .error e) := by
  change (match x reader with
    | (fired, .error e) => (fired, Except.error e)
    | (fired, .ok (a, reader)) => (fired ++ (f a reader).1, (f a reader).2)) = _
  rw [h]

/-- The callback that only notes the event. -/
def note (update : Bytes → ρ → Bytes × ρ) (name : Option Bytes) (event : Event δ)
    (bufferPtr : Bytes) : Parse ρ δ Bytes :=
  fun reader => ([⟨name, event, bufferPtr⟩], .ok (update bufferPtr reader))

end Parse

/-- The callbacks run on the events, until one fails. -/
def replay (act : Option Bytes → Event δ → EStateM JSONError σ Unit) :
    List (Fired δ) → EStateM JSONError σ Unit
  | [] => pure ()
  | fired :: rest => do
    act fired.name fired.event
    replay act rest

theorem replay_append (act : Option Bytes → Event δ → EStateM JSONError σ Unit)
    (first second : List (Fired δ)) :
    replay act (first ++ second) = replay act first >>= fun _ => replay act second := by
  induction first with
  | nil => simp [replay]
  | cons fired first ih => simp [replay, ih]

/-! One decoder in two monads. -/

section

variable {m n : Type → Type} [Monad m] [MonadExceptOf JSONError m]
variable [Monad n] [MonadExceptOf JSONError n]
variable (doubles : Doubles δ) (buffers : DecodeBuffers)

theorem decode_rel (simulation : MonadSimulation JSONError m n)
    {callback : Option Bytes → Event δ → Bytes → m Bytes}
    {callback' : Option Bytes → Event δ → Bytes → n Bytes}
    (hcallback : ∀ name event bufferPtr,
      simulation.Rel (callback name event bufferPtr) (callback' name event bufferPtr))
    (fuel : Nat) :
    (∀ name bufferPtr, simulation.Rel (decodeElement doubles buffers callback fuel name bufferPtr)
      (decodeElement doubles buffers callback' fuel name bufferPtr)) ∧
    (∀ bufferPtr, simulation.Rel (decodeArray doubles buffers callback fuel bufferPtr)
      (decodeArray doubles buffers callback' fuel bufferPtr)) ∧
    (∀ bufferPtr, simulation.Rel (decodeObject doubles buffers callback fuel bufferPtr)
      (decodeObject doubles buffers callback' fuel bufferPtr)) := by
  induction fuel with
  | zero =>
    refine ⟨fun name bufferPtr => ?_, fun bufferPtr => ?_, fun bufferPtr => ?_⟩
    · exact simulation.throw _
    · exact simulation.throw _
    · exact simulation.throw _
  | succ fuel ih =>
    obtain ⟨helement, harray, hobject⟩ := ih
    refine ⟨fun name bufferPtr => ?_, fun bufferPtr => ?_, fun bufferPtr => ?_⟩
    · rw [decodeElement, decodeElement]
      cases skipWhitespace bufferPtr with
      | nil => exact simulation.throw _
      | cons c rest =>
        dsimp only
        split
        · exact simulation.bind (hcallback _ _ _) harray
        · split
          · exact simulation.bind (hcallback _ _ _) hobject
          · exact simulation.bind (simulation.liftExcept _) fun _ => hcallback _ _ _
    · rw [decodeArray, decodeArray]
      cases skipWhitespace bufferPtr with
      | nil => exact simulation.throw _
      | cons c rest =>
        dsimp only
        split
        · exact hcallback _ _ _
        · exact simulation.bind (helement _ _) fun _ =>
            simulation.bind (simulation.liftExcept _) harray
    · rw [decodeObject, decodeObject]
      cases skipWhitespace bufferPtr with
      | nil => exact simulation.throw _
      | cons c rest =>
        dsimp only
        split
        · exact hcallback _ _ _
        · exact simulation.bind (simulation.liftExcept _) fun _ =>
            simulation.bind (helement _ _) fun _ =>
              simulation.bind (simulation.liftExcept _) hobject

end

/-! Events and callbacks. -/

variable (act : Option Bytes → Event δ → EStateM JSONError σ Unit)

/-- The callbacks run on the events that are found, and then there is the result. -/
def outcome {α : Type} (x : Parse ρ δ α) (reader : ρ) : EStateM JSONError σ (α × ρ) := do
  replay act (x reader).1
  liftExcept (x reader).2

theorem outcome_bind {α β : Type} (x : Parse ρ δ α) (f : α → Parse ρ δ β) (reader : ρ) :
    outcome act (x >>= f) reader =
      outcome act x reader >>= fun result => outcome act (f result.1) result.2 := by
  unfold outcome
  cases h : x reader with
  | mk fired result =>
    cases result with
    | error e =>
      rw [Parse.bind_error h, bind_assoc]
      rfl
    | ok result =>
      obtain ⟨a, reader'⟩ := result
      rw [Parse.bind_ok h, replay_append, bind_assoc, bind_assoc]
      rfl

theorem outcome_note (update : Bytes → ρ → Bytes × ρ) (name : Option Bytes) (event : Event δ)
    (bufferPtr : Bytes) (reader : ρ) :
    outcome act (Parse.note update name event bufferPtr) reader =
      act name event >>= fun _ => pure (update bufferPtr reader) := by
  unfold outcome Parse.note
  simp only [replay, bind_assoc, pure_bind]
  rfl

/-- A callback that leaves the buffer where it is. -/
def memoryCallback (name : Option Bytes) (event : Event δ) (bufferPtr : Bytes) :
    EStateM JSONError σ Bytes := do
  act name event
  return bufferPtr

def memorySimulation : MonadSimulation JSONError (Parse Unit δ) (EStateM JSONError σ) where
  Rel x y := y = Prod.fst <$> outcome act x ()
  pure a := rfl
  bind := by
    intro α β x y f g hx hf
    rw [hx, outcome_bind, map_bind, bind_map_left]
    congr 1
    funext result
    exact hf result.1
  throw e := rfl

/-- A callback that has the reader refill the buffer, whether or not it fails. -/
def fileCallback (update : Bytes → ρ → Bytes × ρ) (name : Option Bytes) (event : Event δ)
    (bufferPtr : Bytes) : EStateM JSONError (ρ × σ) Bytes := fun context =>
  let updated := update bufferPtr context.1
  match act name event context.2 with
  | .ok _ userData => .ok updated.1 (updated.2, userData)
  | .error e userData => .error e (updated.2, userData)

/-- The reader is part of a result only. -/
def withoutReader {α : Type} (x : EStateM JSONError (ρ × σ) α) (reader : ρ) :
    EStateM JSONError σ (α × ρ) := fun userData =>
  match x (reader, userData) with
  | .ok a context => .ok (a, context.1) context.2
  | .error e context => .error e context.2

theorem withoutReader_bind {α β : Type} (x : EStateM JSONError (ρ × σ) α)
    (f : α → EStateM JSONError (ρ × σ) β) (reader : ρ) :
    withoutReader (x >>= f) reader =
      withoutReader x reader >>= fun result => withoutReader (f result.1) result.2 := by
  funext userData
  cases h : x (reader, userData) with
  | ok a context =>
    have hx : withoutReader x reader userData = .ok (a, context.1) context.2 := by
      rw [withoutReader, h]
    rw [run_bind_ok hx, withoutReader, withoutReader, run_bind_ok h]
  | error e context =>
    have hx : withoutReader x reader userData = .error e context.2 := by
      rw [withoutReader, h]
    rw [run_bind_error hx, withoutReader, run_bind_error h]

def fileSimulation : MonadSimulation JSONError (Parse ρ δ) (EStateM JSONError (ρ × σ)) where
  Rel x y := ∀ reader, withoutReader y reader = outcome act x reader
  pure a := fun reader => rfl
  bind := by
    intro α β x y f g hx hf reader
    rw [withoutReader_bind, outcome_bind, hx]
    congr 1
    funext result
    exact hf result.1 result.2
  throw e := fun reader => rfl

end SentryCocoa.JSONCodec
