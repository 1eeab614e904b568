import SentryCocoa.JSONStreaming

/-! A document that is cut. What is decoded of it are the first events of the whole document. -/
namespace SentryCocoa.JSONCodec
open SentryCocoa.Library.Simulation

variable {δ : Type}

/-- What is decoded of the start of a buffer, and of all of it. -/
structure CutParse (more : Bytes) (cut full : List (Fired δ) × Except JSONError (Bytes × Unit)) :
    Prop where
  first : cut.1.map Fired.pair <+: full.1.map Fired.pair
  whole : ∀ rest, cut.2 = .ok (rest, ()) →
    full.2 = .ok (rest ++ more, ()) ∧ full.1.map Fired.pair = cut.1.map Fired.pair

theorem cutParse_error {more : Bytes} {full : List (Fired δ) × Except JSONError (Bytes × Unit)}
    (e : JSONError) : CutParse more ([], .error e) full :=
  ⟨List.nil_prefix, fun _ h => nomatch h⟩

theorem cutParse_single {more : Bytes} (name : Option Bytes) (event : Event δ) (rest : Bytes) :
    CutParse more ([⟨name, event, rest⟩], .ok (rest, ()))
      ([⟨name, event, rest ++ more⟩], .ok (rest ++ more, ())) := by
  refine ⟨List.prefix_rfl, fun rest' h => ?_⟩
  cases h
  exact ⟨rfl, rfl⟩

/-- One event in front of the others. -/
theorem CutParse.fired {more : Bytes} {name : Option Bytes} {event : Event δ}
    {rest rest' : Bytes} {cut full : List (Fired δ) × Except JSONError (Bytes × Unit)}
    (h : CutParse more cut full) :
    CutParse more (⟨name, event, rest⟩ :: cut.1, cut.2) (⟨name, event, rest'⟩ :: full.1, full.2) := by
  refine ⟨?_, fun last hok => ?_⟩
  · rw [List.map_cons, List.map_cons]
    exact (List.prefix_cons_inj _).mpr h.first
  · obtain ⟨hfull, hpairs⟩ := h.whole last hok
    refine ⟨hfull, ?_⟩
    rw [List.map_cons, List.map_cons, hpairs]
    rfl

theorem skipComma_cut {bufferPtr rest : Bytes} (h : skipComma bufferPtr = .ok rest)
    (more : Bytes) : skipComma (bufferPtr ++ more) = .ok (rest ++ more) := by
  unfold skipComma at h ⊢
  have hne : skipWhitespace bufferPtr ≠ [] := by
    intro hnil
    rw [hnil] at h
    cases h
  rw [skipWhitespace_append_of_ne hne]
  cases hskip : skipWhitespace bufferPtr with
  | nil => exact absurd hskip hne
  | cons c behind =>
    rw [hskip] at h
    cases h
    rw [List.cons_append]
    dsimp only
    split
    · rfl
    · rfl

theorem CutParse.comma {more : Bytes} {cut full : List (Fired δ) × Except JSONError (Bytes × Unit)}
    (h : CutParse more cut full)
    {rest : Bytes → Unit → List (Fired δ) × Except JSONError (Bytes × Unit)}
    (hrest : ∀ bufferPtr, CutParse more (rest bufferPtr ()) (rest (bufferPtr ++ more) ())) :
    CutParse more (behindComma cut rest) (behindComma full rest) := by
  have hfirst : full.1.map Fired.pair <+: (behindComma full rest).1.map Fired.pair := by
    rcases full with ⟨fired, e | ⟨bufferPtr, _⟩⟩
    · exact List.prefix_rfl
    · unfold behindComma
      dsimp only
      cases skipComma bufferPtr with
      | error e => exact List.prefix_rfl
      | ok bufferPtr' =>
        dsimp only
        rw [List.map_append]
        exact List.prefix_append _ _
  rcases cut with ⟨fired, e | ⟨bufferPtr, _⟩⟩
  · exact ⟨h.first.trans hfirst, fun _ hok => nomatch hok⟩
  · obtain ⟨hfull, hpairs⟩ := h.whole bufferPtr rfl
    cases hcomma : skipComma bufferPtr with
    | error e =>
      have hcut : behindComma (fired, Except.ok (bufferPtr, ())) rest = (fired, .error e) := by
        unfold behindComma
        dsimp only
        rw [hcomma]
      rw [hcut]
      exact ⟨h.first.trans hfirst, fun _ hok => nomatch hok⟩
    | ok bufferPtr' =>
      have hmore := skipComma_cut hcomma more
      rcases full with ⟨fired', result⟩
      dsimp only at hfull hpairs
      subst hfull
      unfold behindComma
      dsimp only
      rw [hcomma, hmore]
      dsimp only
      obtain ⟨hfirst', hwhole⟩ := hrest bufferPtr'
      refine ⟨?_, fun last hok => ?_⟩
      · rw [List.map_append, List.map_append, hpairs]
        exact (List.prefix_append_right_inj _).mpr hfirst'
      · obtain ⟨hfull, hpairs'⟩ := hwhole last hok
        refine ⟨hfull, ?_⟩
        rw [List.map_append, List.map_append, hpairs, hpairs']

/-- The start of a buffer gives the first of its events. -/
theorem parse_cut (doubles : Doubles δ) (buffers : DecodeBuffers) (more : Bytes) (fuel : Nat) :
    (∀ name bufferPtr, CutParse more
      (parseElement doubles buffers Prod.mk fuel name bufferPtr ())
      (parseElement doubles buffers Prod.mk fuel name (bufferPtr ++ more) ())) ∧
    (∀ bufferPtr, CutParse more
      (parseArray doubles buffers Prod.mk fuel bufferPtr ())
      (parseArray doubles buffers Prod.mk fuel (bufferPtr ++ more) ())) ∧
    (∀ bufferPtr, CutParse more
      (parseObject doubles buffers Prod.mk fuel bufferPtr ())
      (parseObject doubles buffers Prod.mk fuel (bufferPtr ++ more) ())) := by
  induction fuel with
  | zero =>
    exact ⟨fun _ _ => cutParse_error _, fun _ => cutParse_error _, fun _ => cutParse_error _⟩
  | succ fuel ih =>
    obtain ⟨helement, harray, hobject⟩ := ih
    refine ⟨fun name bufferPtr => ?_, fun bufferPtr => ?_, fun bufferPtr => ?_⟩
    · rw [parseElement_succ, parseElement_succ]
      rcases skipWhitespace_append_cases bufferPtr more with hnil | ⟨c, rest, hskip, hskip'⟩
      · rw [hnil]
        exact cutParse_error _
      · rw [hskip, hskip']
        dsimp only
        split
        · exact (harray rest).fired
        · split
          · exact (hobject rest).fired
          · have hcut := decodeScalar_cut doubles buffers.stringBufferLength c rest more
            generalize decodeScalar doubles buffers.stringBufferLength c rest = cut at hcut
            generalize decodeScalar doubles buffers.stringBufferLength c (rest ++ more) = full
              at hcut
            cases hcut with
            | whole event behind _ => exact cutParse_single name event behind
            | failed e => exact cutParse_error e
            | short e _ _ _ => exact cutParse_error e
    · rw [parseArray_succ, parseArray_succ]
      rcases skipWhitespace_append_cases bufferPtr more with hnil | ⟨c, rest, hskip, hskip'⟩
      · rw [hnil]
        exact cutParse_error _
      · rw [hskip, hskip']
        dsimp only
        split
        · exact cutParse_single none .endContainer rest
        · exact (helement none (c :: rest)).comma harray
    · rw [parseObject_succ, parseObject_succ]
      rcases skipWhitespace_append_cases bufferPtr more with hnil | ⟨c, rest, hskip, hskip'⟩
      · rw [hnil]
        exact cutParse_error _
      · rw [hskip, hskip']
        dsimp only
        split
        · exact cutParse_single none .endContainer rest
        · have hcut := decodeColon_cut buffers.nameBufferLength (c :: rest) more
          rw [List.cons_append] at hcut
          rw [decodeName_eq, decodeName_eq]
          generalize decodeColon buffers.nameBufferLength (c :: rest) = cut at hcut
          generalize decodeColon buffers.nameBufferLength (c :: (rest ++ more)) = full at hcut
          cases hcut with
          | whole name behind _ =>
            dsimp only
            rw [parseElement_skip, parseElement_skip]
            exact (helement (some name) behind).comma hobject
          | failed e => exact cutParse_error e
          | short e _ _ _ => exact cutParse_error e

theorem parseDocument_cut (doubles : Doubles δ) (buffers : DecodeBuffers) (name : Option Bytes)
    (data more : Bytes) :
    CutParse more (parseDocument doubles buffers name data)
      (parseDocument doubles buffers name (data ++ more)) := by
  have hfuel : decodeFuel data.length ≤ decodeFuel (data ++ more).length := by
    unfold decodeFuel
    rw [List.length_append]
    omega
  have hparse := parseElement_of_le doubles buffers Prod.mk hfuel
    (fueled_parseDocument doubles buffers name data)
  have hcut := (parse_cut doubles buffers more (decodeFuel (data ++ more).length)).1 name data
  rw [hparse] at hcut
  exact hcut

/-- The callbacks run on the events, and then the decoder fails or ends. -/
theorem decode_eq_replay {σ : Type} (doubles : Doubles δ)
    (callbacks : Option Bytes → Event δ → EStateM JSONError σ Unit) (data : Bytes)
    (stringBufferLength : Nat) :
    decode doubles callbacks data stringBufferLength = (do
      replay callbacks (parseDocument doubles
        ⟨stringBufferLength / 4, stringBufferLength - stringBufferLength / 4⟩ none data).1
      let _ ← liftExcept (parseDocument doubles
        ⟨stringBufferLength / 4, stringBufferLength - stringBufferLength / 4⟩ none data).2
      callbacks none .endData) := by
  unfold decode
  dsimp only
  rw [decodeElement_memory]
  unfold outcome parseDocument
  simp only [map_bind, bind_assoc, bind_map_left]

/-- An error leaves what the callbacks did before it, and no trace of its own. -/
theorem endState_decode {σ : Type} (doubles : Doubles δ)
    (callbacks : Option Bytes → Event δ → EStateM JSONError σ Unit)
    (hend : ∀ state, callbacks none .endData state = .ok () state) (data : Bytes)
    (stringBufferLength : Nat) (state : σ) :
    endState (decode doubles callbacks data stringBufferLength state) =
      endState (((parseDocument doubles
        ⟨stringBufferLength / 4, stringBufferLength - stringBufferLength / 4⟩ none data).1.map
          Fired.pair).forM (fun event => callbacks event.1 event.2) state) := by
  rw [decode_eq_replay, ← replay_eq_forM]
  cases hreplay : replay callbacks (parseDocument doubles
      ⟨stringBufferLength / 4, stringBufferLength - stringBufferLength / 4⟩ none data).1 state with
  | error e state' => rw [run_bind_error hreplay]
  | ok _ state' =>
    rw [run_bind_ok hreplay]
    cases (parseDocument doubles
        ⟨stringBufferLength / 4, stringBufferLength - stringBufferLength / 4⟩ none data).2 with
    | error e => rfl
    | ok rest => exact congrArg endState (hend state')

end SentryCocoa.JSONCodec
