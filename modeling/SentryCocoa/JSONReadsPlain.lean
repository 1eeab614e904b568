import SentryCocoa.JSONReadsInside

/-! The decoder with its reads and the one without. Where nothing is read outside, they call back
for the same events and end with the same result. -/
namespace SentryCocoa.JSONCodec
open Checked SentryCocoa.Library.Simulation

variable {δ σ α : Type}

def failingRun : EStateM.Result JSONError σ α → EStateM.Result Stop σ α
  | .ok a userData => .ok a userData
  | .error e userData => .error (.failed e) userData

/-- The run without the reads, or one that ends with a read outside. -/
def RunReads (checked : EStateM.Result Stop σ α) (plain : EStateM.Result JSONError σ α) : Prop :=
  checked = failingRun plain ∨
    ∃ stop userData, checked = .error stop userData ∧ stop.isOutside = true

theorem runReads_failed (e : JSONError) (userData : σ) :
    RunReads (α := α) (.error (.failed e) userData) (.error e userData) := .inl rfl

theorem runReads_pure (a : α) (userData : σ) :
    RunReads ((pure a : EStateM Stop σ α) userData) ((pure a : EStateM JSONError σ α) userData) :=
  .inl rfl

theorem runReads_callBack {callbacks : Option Bytes → Event δ → EStateM JSONError σ Unit}
    {name : Option Bytes} {event : Event δ} {next : EStateM Stop σ α}
    {next' : EStateM JSONError σ α} (h : ∀ userData, RunReads (next userData) (next' userData)) (userData : σ) :
    RunReads ((do callBack callbacks name event; next) userData)
      ((do callbacks name event; next') userData) := by
  cases hcallback : callbacks name event userData with
  | ok _ userData' =>
    have hrun : callBack callbacks name event userData = .ok () userData' := by
      rw [callBack, hcallback]
    rw [run_bind_ok hrun, run_bind_ok hcallback]
    exact h userData'
  | error e userData' =>
    have hrun : callBack callbacks name event userData = .error (.failed e) userData' := by
      rw [callBack, hcallback]
    rw [run_bind_error hrun, run_bind_error hcallback]
    exact runReads_failed e userData'

/-- What follows a token. -/
theorem Reads.runReads {β : Type} {checked : Except Stop (β × Bytes)}
    {plain : Except JSONError (β × Bytes)} {written : Bytes → Prop} {outside : Prop}
    (hreads : Reads checked plain written outside) {next : β × Bytes → EStateM Stop σ α}
    {next' : β × Bytes → EStateM JSONError σ α}
    (h : ∀ value rest userData, written rest →
      RunReads (next (value, rest) userData) (next' (value, rest) userData)) (userData : σ) :
    RunReads ((do next (← liftExcept checked)) userData)
      ((do next' (← liftExcept plain)) userData) := by
  rcases hreads with ⟨rfl, hwritten⟩ | ⟨-, stop, rfl, hstop⟩
  · cases plain with
    | error e => exact runReads_failed e userData
    | ok found => exact h found.1 found.2 userData (hwritten found.1 found.2 rfl)
  · exact .inr ⟨stop, userData, rfl, hstop⟩

section

variable (doubles : Doubles δ) (buffers : DecodeBuffers)
variable (callbacks : Option Bytes → Event δ → EStateM JSONError σ Unit)

def plainPart (fuel : Nat) (name : Option Bytes) (text : Bytes) : Part → EStateM JSONError σ Bytes
  | .element => JSONCodec.decodeElement doubles buffers (memoryCallback callbacks) fuel name text
  | .inside false => JSONCodec.decodeArray doubles buffers (memoryCallback callbacks) fuel text
  | .inside true => JSONCodec.decodeObject doubles buffers (memoryCallback callbacks) fuel text

def plainIntroduction (nameBufferLength : Nat) (isObject : Bool) (bufferPtr : Bytes) :
    Except JSONError (Option Bytes × Bytes) :=
  if isObject then
    (fun found => (some found.1, found.2)) <$> JSONCodec.decodeName nameBufferLength bufferPtr
  else pure (none, bufferPtr)

variable {doubles buffers callbacks}

theorem plainPart_nil (fuel : Nat) (name : Option Bytes) {text : Bytes}
    (h : skipWhitespace text = []) (part : Part) :
    plainPart doubles buffers callbacks (fuel + 1) name text part = throw .incomplete := by
  match part with
  | .element => rw [plainPart, JSONCodec.decodeElement, h]
  | .inside false => rw [plainPart, JSONCodec.decodeArray, h]
  | .inside true => rw [plainPart, JSONCodec.decodeObject, h]

theorem plainPart_element (fuel : Nat) (name : Option Bytes) {text rest : Bytes} {c : UInt8}
    (h : skipWhitespace text = c :: rest) :
    plainPart doubles buffers callbacks (fuel + 1) name text .element =
      (if c = '['.toUInt8 then do
        callbacks name .beginArray
        plainPart doubles buffers callbacks fuel none rest (.inside false)
      else if c = '\x7b'.toUInt8 then do
        callbacks name .beginObject
        plainPart doubles buffers callbacks fuel none rest (.inside true)
      else do
        let found ← liftExcept
          (JSONCodec.decodeScalar doubles buffers.stringBufferLength c rest)
        callbacks name found.1
        pure found.2) := by
  rw [plainPart, JSONCodec.decodeElement, h]
  dsimp only
  unfold memoryCallback
  simp only [bind_assoc, pure_bind]
  rfl

theorem plainPart_inside (fuel : Nat) (name : Option Bytes) {text rest : Bytes} {c : UInt8}
    (h : skipWhitespace text = c :: rest) (isObject : Bool) :
    plainPart doubles buffers callbacks (fuel + 1) name text (.inside isObject) =
      (if c = closingBracket isObject then do
        callbacks none .endContainer
        pure rest
      else do
        let found ← liftExcept (plainIntroduction buffers.nameBufferLength isObject (c :: rest))
        let behind ← plainPart doubles buffers callbacks fuel found.1 found.2 .element
        let next ← liftExcept (JSONCodec.skipComma behind)
        plainPart doubles buffers callbacks fuel none next (.inside isObject)) := by
  cases isObject with
  | false =>
    rw [plainPart, JSONCodec.decodeArray, h]
    rfl
  | true =>
    rw [plainPart, JSONCodec.decodeObject, h, plainIntroduction, if_pos rfl]
    dsimp only
    cases JSONCodec.decodeName buffers.nameBufferLength (c :: rest) with
    | error e => rfl
    | ok found => rfl

theorem reads_plainIntroduction (length : Nat) (isObject : Bool) {text rest : Bytes} {c : UInt8}
    (h : skipWhitespace text = c :: rest) :
    Reads (decodeIntroduction length isObject (c :: rest))
      (plainIntroduction length isObject (c :: rest)) (Introduced isObject text)
      (isObject = true ∧ UnsafeString (skipWhitespace text)) := by
  cases isObject with
  | false =>
    refine reads_plain rfl fun value behind hplain => ?_
    cases hplain
    rw [← h]
    exact .value text
  | true =>
    refine (reads_name length c rest).map some (fun value hname => ?_) fun hunread => ?_
    · exact .entry (h ▸ hname)
    · exact ⟨rfl, h ▸ hunread⟩

theorem runReads_decodePart (fuel : Nat) (part : Part) (name : Option Bytes) (text : Bytes)
    (userData : σ) (hfuel : partFuel text.length part ≤ fuel) :
    RunReads (decodePart doubles buffers callbacks fuel name text part userData)
      (plainPart doubles buffers callbacks fuel name text part userData) := by
  induction fuel generalizing part name text userData with
  | zero => cases part <;> exact absurd hfuel (Nat.not_succ_le_zero _)
  | succ fuel ih =>
    cases hskip : skipWhitespace text with
    | nil =>
      rw [decodePart_nil fuel name hskip part, plainPart_nil fuel name hskip part]
      exact runReads_failed .incomplete userData
    | cons c rest =>
      have hlength := skipWhitespace_cons_length hskip
      cases part with
      | element =>
        have hinside := partFuel_inside hfuel hlength
        rw [decodePart_element fuel name hskip, plainPart_element fuel name hskip]
        by_cases harray : c = '['.toUInt8
        · rw [if_pos harray, if_pos harray]
          exact runReads_callBack (fun userData => ih _ none rest userData (hinside false)) userData
        rw [if_neg harray, if_neg harray]
        by_cases hobject : c = '\x7b'.toUInt8
        · rw [if_pos hobject, if_pos hobject]
          exact runReads_callBack (fun userData => ih _ none rest userData (hinside true)) userData
        rw [if_neg hobject, if_neg hobject]
        apply (reads_scalar doubles buffers.stringBufferLength c rest).runReads
        intro event behind userData _
        exact runReads_callBack (runReads_pure _) userData
      | inside isObject =>
        rw [decodePart_inside fuel name hskip isObject, plainPart_inside fuel name hskip isObject]
        by_cases hclosing : c = closingBracket isObject
        · rw [if_pos hclosing, if_pos hclosing]
          exact runReads_callBack (runReads_pure _) userData
        rw [if_neg hclosing, if_neg hclosing]
        apply (reads_plainIntroduction buffers.nameBufferLength isObject hskip).runReads
        intro name' value userData hintroduced
        have hvalue := hintroduced.length_le
        have hvalueFuel := partFuel_value hfuel hvalue
        rcases ih .element name' value userData hvalueFuel with
          hsame | ⟨stop, userData', hrun, hstop⟩
        · cases hplain : plainPart doubles buffers callbacks fuel name' value .element userData with
          | error e userData' =>
            rw [hplain] at hsame
            rw [run_bind_error hsame, run_bind_error hplain]
            exact runReads_failed e userData'
          | ok behind userData' =>
            rw [hplain] at hsame
            have hends :=
              (sound_decodePart fuel .element name' value userData hvalueFuel).ok _ _ hsame
            rw [run_bind_ok hsame, run_bind_ok hplain, checked_skipComma]
            cases hcomma : JSONCodec.skipComma behind with
            | error e => exact runReads_failed e userData'
            | ok next =>
              have hnext := hends.next_length_lt hintroduced (separated_of_skipComma hcomma)
              exact ih (.inside isObject) none next userData' (partFuel_next hfuel hnext)
        · rw [run_bind_error hrun]
          exact .inr ⟨stop, userData', rfl, hstop⟩

end

/-- Where the text comes to no unsafe token, the decoder does what it does without the reads. -/
theorem decode_eq_of_readsInside {doubles : Doubles δ} {data : Bytes}
    (h : ¬ComesToUnsafe .element data)
    (callbacks : Option Bytes → Event δ → EStateM JSONError σ Unit) (stringBufferLength : Nat)
    (userData : σ) :
    Checked.decode doubles callbacks data stringBufferLength userData =
      failingRun (JSONCodec.decode doubles callbacks data stringBufferLength userData) := by
  have hend (userData : σ) : callBack callbacks none .endData userData =
      failingRun (callbacks none .endData userData) := by
    rw [callBack]
    cases callbacks none .endData userData <;> rfl
  have hpart : RunReads (decodePart doubles (splitBuffer stringBufferLength) callbacks
        (decodeFuel data.length) none data .element userData)
      (plainPart doubles (splitBuffer stringBufferLength) callbacks (decodeFuel data.length) none
        data .element userData) :=
    runReads_decodePart _ .element none data userData (Nat.le_refl _)
  rcases hpart with hsame | ⟨stop, userData', hrun, hstop⟩
  · change (do
      let _ ← decodePart doubles (splitBuffer stringBufferLength) callbacks
        (decodeFuel data.length) none data .element
      callBack callbacks none .endData) userData = failingRun ((do
        let _ ← plainPart doubles (splitBuffer stringBufferLength) callbacks
          (decodeFuel data.length) none data .element
        callbacks none .endData) userData)
    cases hplain : plainPart doubles (splitBuffer stringBufferLength) callbacks
        (decodeFuel data.length) none data .element userData with
    | error e userData' =>
      rw [hplain] at hsame
      rw [run_bind_error hsame, run_bind_error hplain]
      rfl
    | ok rest userData' =>
      rw [hplain] at hsame
      rw [run_bind_ok hsame, run_bind_ok hplain]
      exact hend userData'
  · exact absurd ((decode_error (decode_stops hrun)).2 hstop) h

end SentryCocoa.JSONCodec
