import SentryCocoa.JSONBuffers
import SentryCocoa.JSONRoundTrip

/-! Decoding from a file. Only a window of the file is in the buffer, and it is moved on between
the elements. What is decoded is the same as from memory exactly when each element ends in the
window as it is then. -/
namespace SentryCocoa.JSONCodec
open SentryCocoa.Library.Simulation

variable {δ ω ρ : Type}

/-- How much of the file is not in the buffer yet after a refill, when `left` bytes of it are
still to be decoded. -/
def refilled (unread left : Nat) : Nat := if left - unread < 500 then left - 1000 else unread

/-- The window runs over the file: each element must end in it, and a number before its end.
It is refilled behind each element, but only when less than half of it is left. -/
def window (unread : Nat) : List (Fired δ) → Option Nat
  | [] => some unread
  | fired :: rest =>
    if fired.bufferPtr.length < unread + fired.event.lookahead then none
    else window (refilled unread fired.bufferPtr.length) rest

theorem window_append (unread : Nat) (first second : List (Fired δ)) :
    window unread (first ++ second) =
      (window unread first).bind fun unread' => window unread' second := by
  induction first generalizing unread with
  | nil => rfl
  | cons fired first ih =>
    rw [List.cons_append, window, window]
    split
    · rfl
    · exact ih _

/-- The buffer is the start of what is left of the file, or goes on behind its end. -/
inductive Tracks (unread : Nat) (file bufferPtr : Bytes) (reader : FileReader) : Prop where
  | reading (heof : reader.isEOF = false) (hunread : reader.unread.length = unread)
    (hfile : file = bufferPtr ++ reader.unread) (hbuffer : reader.fileBuffer.length = 1000)
  | ended (stale : Bytes) (heof : reader.isEOF = true) (hunread : unread = 0)
    (hfile : bufferPtr = file ++ stale)

theorem Tracks.le_length {unread : Nat} {file bufferPtr : Bytes} {reader : FileReader}
    (h : Tracks unread file bufferPtr reader) : unread ≤ file.length := by
  cases h with
  | reading _ hunread hfile _ =>
    rw [hfile, List.length_append, hunread]
    exact Nat.le_add_left _ _
  | ended _ _ hunread _ =>
    rw [hunread]
    exact Nat.zero_le _

theorem Tracks.update {unread : Nat} {file bufferPtr : Bytes} {reader : FileReader}
    (h : Tracks unread file bufferPtr reader) :
    Tracks (refilled unread file.length) file (updateDecoderReadFile bufferPtr reader).1
      (updateDecoderReadFile bufferPtr reader).2 := by
  unfold updateDecoderReadFile refilled
  cases h with
  | reading heof hunread hfile hbuffer =>
    have hfileLength := congrArg List.length hfile
    rw [List.length_append, hunread] at hfileLength
    rw [heof]
    dsimp only
    rw [if_neg Bool.false_ne_true, hbuffer]
    by_cases hfew : bufferPtr.length < 1000 / 2
    · rw [if_pos hfew, if_pos (by omega)]
      by_cases hfill : unread < 1000 - bufferPtr.length
      · have htake : reader.unread.take (1000 - bufferPtr.length) = reader.unread :=
          List.take_of_length_le (by omega)
        refine Tracks.ended (reader.fileBuffer.drop (bufferPtr.length + unread)) ?_ (by omega) ?_
        · rw [htake, hunread]
          exact decide_eq_true hfill
        · rw [htake, hunread, ← hfile]
      · have htake : (reader.unread.take (1000 - bufferPtr.length)).length =
            1000 - bufferPtr.length := by
          rw [List.length_take]
          omega
        have hdrop : reader.fileBuffer.drop (bufferPtr.length + (1000 - bufferPtr.length)) = [] :=
          List.drop_eq_nil_of_le (by omega)
        rw [htake, hdrop, List.append_nil]
        refine Tracks.reading (decide_eq_false (Nat.lt_irrefl _)) ?_ ?_ ?_
        · rw [List.length_drop]
          omega
        · rw [List.append_assoc, List.take_append_drop]
          exact hfile
        · rw [List.length_append, htake]
          omega
    · rw [if_neg hfew, if_neg (by omega)]
      exact Tracks.reading heof hunread hfile hbuffer
  | ended stale heof hunread hfile =>
    rw [heof]
    rw [if_pos rfl]
    refine Tracks.ended stale heof ?_ hfile
    split
    · omega
    · exact hunread

/-- White space is skipped in the buffer as in the file, unless it goes on behind the buffer. -/
theorem Tracks.skip {unread : Nat} {file bufferPtr : Bytes} {reader : FileReader}
    (h : Tracks unread file bufferPtr reader) {c : UInt8} {rest : Bytes}
    (hskip : skipWhitespace file = c :: rest) :
    (∃ rest', skipWhitespace bufferPtr = c :: rest' ∧ Tracks unread rest rest' reader) ∨
      skipWhitespace bufferPtr = [] ∧ (c :: rest).length ≤ unread := by
  cases h with
  | reading heof hunread hfile hbuffer =>
    by_cases hnil : skipWhitespace bufferPtr = []
    · refine Or.inr ⟨hnil, ?_⟩
      rw [hfile, skipWhitespace_append_of_nil hnil] at hskip
      rw [← hskip, ← hunread]
      exact skipWhitespace_length reader.unread
    · left
      rw [hfile, skipWhitespace_append_of_ne hnil] at hskip
      cases hbehind : skipWhitespace bufferPtr with
      | nil => exact absurd hbehind hnil
      | cons d rest' =>
        rw [hbehind, List.cons_append, List.cons.injEq] at hskip
        rw [hskip.1]
        exact ⟨rest', rfl, Tracks.reading heof hunread hskip.2.symm hbuffer⟩
  | ended stale heof hunread hfile =>
    left
    have hne : skipWhitespace file ≠ [] := by simp [hskip]
    refine ⟨rest ++ stale, ?_, Tracks.ended stale heof hunread rfl⟩
    rw [hfile, skipWhitespace_append_of_ne hne, hskip]
    rfl

section

variable {α : Type} {lookahead : α → Nat} {token : Bytes → Except JSONError (α × Bytes)}
variable (hcut : ∀ bufferPtr more, Cut lookahead more (token bufferPtr) (token (bufferPtr ++ more)))
variable {unread : Nat} {file bufferPtr : Bytes} {reader : FileReader}

include hcut

/-- A token is decoded in the buffer as in the file, unless it goes on behind the buffer. -/
theorem Tracks.token_ok (h : Tracks unread file bufferPtr reader) {value : α} {file' : Bytes}
    (htoken : token file = .ok (value, file')) :
    (unread + lookahead value ≤ file'.length ∧ ∃ bufferPtr',
        token bufferPtr = .ok (value, bufferPtr') ∧ Tracks unread file' bufferPtr' reader) ∨
      file'.length < unread + lookahead value ∧ ∃ e, token bufferPtr = .error e := by
  cases h with
  | reading heof hunread hfile hbuffer =>
    have hread := hcut bufferPtr reader.unread
    rw [← hfile, htoken] at hread
    generalize token bufferPtr = cut at hread
    cases hread with
    | whole _ rest hlookahead =>
      left
      rw [List.length_append, hunread]
      exact ⟨by omega, rest, rfl, Tracks.reading heof hunread rfl hbuffer⟩
    | short e _ _ hshort =>
      right
      rw [← hunread]
      exact ⟨hshort value file' rfl, e, rfl⟩
  | ended stale heof hunread hfile =>
    have hread := hcut file stale
    rw [← hfile, htoken] at hread
    generalize token bufferPtr = full at hread
    cases hread with
    | whole _ _ hlookahead =>
      left
      exact ⟨by omega, file' ++ stale, rfl, Tracks.ended stale heof hunread rfl⟩

/-- What is too long in the file is not decoded in the buffer either. -/
theorem Tracks.token_tooLong (h : Tracks unread file bufferPtr reader)
    (htoken : token file = .error .dataTooLong) : ∃ e, token bufferPtr = .error e := by
  cases h with
  | reading _ _ hfile _ =>
    have hread := hcut bufferPtr reader.unread
    rw [← hfile, htoken] at hread
    generalize token bufferPtr = cut at hread
    cases hread with
    | failed _ => exact ⟨_, rfl⟩
    | short e _ _ _ => exact ⟨e, rfl⟩
  | ended stale _ _ hfile =>
    have hread := hcut file stale
    rw [← hfile, htoken] at hread
    generalize token bufferPtr = full at hread
    cases hread with
    | failed _ => exact ⟨_, rfl⟩
    | short _ _ hne _ => exact absurd rfl hne

end

theorem Tracks.cons {unread : Nat} {file bufferPtr : Bytes} {reader : FileReader}
    (h : Tracks unread file bufferPtr reader) (c : UInt8) :
    Tracks unread (c :: file) (c :: bufferPtr) reader := by
  cases h with
  | reading heof hunread hfile hbuffer =>
    exact Tracks.reading heof hunread (congrArg (c :: ·) hfile) hbuffer
  | ended stale heof hunread hfile =>
    exact Tracks.ended stale heof hunread (congrArg (c :: ·) hfile)

/-- A comma is skipped in the buffer as in the file. -/
theorem Tracks.comma {unread : Nat} {file bufferPtr : Bytes} {reader : FileReader}
    (h : Tracks unread file bufferPtr reader) {file' : Bytes}
    (hcomma : skipComma file = .ok file') :
    (∃ bufferPtr', skipComma bufferPtr = .ok bufferPtr' ∧
        Tracks unread file' bufferPtr' reader) ∨
      file'.length ≤ unread ∧ ∃ e, skipComma bufferPtr = .error e := by
  unfold skipComma at hcomma ⊢
  cases hskip : skipWhitespace file with
  | nil =>
    rw [hskip] at hcomma
    cases hcomma
  | cons c rest =>
    rw [hskip] at hcomma
    cases hcomma
    rcases h.skip hskip with ⟨rest', hbuffer, htracks⟩ | ⟨hbuffer, hlength⟩
    · left
      rw [hbuffer]
      refine ⟨_, rfl, ?_⟩
      split
      · exact htracks
      · exact htracks.cons c
    · right
      rw [hbuffer]
      refine ⟨?_, _, rfl⟩
      split
      · exact (Nat.le_succ _).trans hlength
      · exact hlength

/-! The elements. -/

/-- What is decoded from the window, and from the whole file. -/
structure Agrees (unread : Nat)
    (streamed : List (Fired δ) × Except JSONError (Bytes × FileReader))
    (parsed : List (Fired δ) × Except JSONError (Bytes × Unit)) : Prop where
  followed : ∀ file, parsed.2 = .ok (file, ()) → ∀ unread',
    window unread parsed.1 = some unread' → ∃ fired bufferPtr reader,
      streamed = (fired, .ok (bufferPtr, reader)) ∧
        fired.map Fired.pair = parsed.1.map Fired.pair ∧ Tracks unread' file bufferPtr reader
  lost : ∀ result, parsed.2 = .ok result → window unread parsed.1 = none →
    ∃ e, streamed.2 = .error e
  tooLong : parsed.2 = .error .dataTooLong → ∃ e, streamed.2 = .error e

theorem agrees_error {unread : Nat}
    {streamed : List (Fired δ) × Except JSONError (Bytes × FileReader)} {e : JSONError}
    (hstreamed : streamed.2 = .error e)
    {parsed : List (Fired δ) × Except JSONError (Bytes × Unit)}
    (hparsed : ∀ result, parsed.2 = .ok result → window unread parsed.1 = none) :
    Agrees unread streamed parsed where
  followed file hok unread' hwindow := by
    rw [hparsed _ hok] at hwindow
    cases hwindow
  lost _ _ _ := ⟨e, hstreamed⟩
  tooLong _ := ⟨e, hstreamed⟩

/-- An error that is no question of length may be repaired by what is behind the buffer. -/
theorem agrees_of_error {unread : Nat}
    {streamed : List (Fired δ) × Except JSONError (Bytes × FileReader)} {fired : List (Fired δ)}
    {e : JSONError} (he : e = .dataTooLong → ∃ e, streamed.2 = .error e) :
    Agrees unread streamed (fired, .error e) where
  followed _ hok := nomatch hok
  lost _ hok := nomatch hok
  tooLong h := he (Except.error.inj h)

/-- One event in front of the others. -/
theorem Agrees.fired {unread : Nat} {name : Option Bytes} {event : Event δ}
    {file bufferPtr : Bytes} (hlookahead : unread + event.lookahead ≤ file.length)
    {streamed : List (Fired δ) × Except JSONError (Bytes × FileReader)}
    {parsed : List (Fired δ) × Except JSONError (Bytes × Unit)}
    (h : Agrees (refilled unread file.length) streamed parsed) :
    Agrees unread (⟨name, event, bufferPtr⟩ :: streamed.1, streamed.2)
      (⟨name, event, file⟩ :: parsed.1, parsed.2) := by
  have hwindow : window unread (⟨name, event, file⟩ :: parsed.1) =
      window (refilled unread file.length) parsed.1 :=
    if_neg (Nat.not_lt.mpr hlookahead)
  refine ⟨fun file' hok unread' hsome => ?_, fun result hok hnone => ?_, h.tooLong⟩
  · obtain ⟨fired, bufferPtr', reader, hstreamed, hpairs, htracks⟩ :=
      h.followed file' hok unread' (hwindow.symm.trans hsome)
    rw [hstreamed]
    refine ⟨_, bufferPtr', reader, rfl, ?_, htracks⟩
    rw [List.map_cons, List.map_cons, hpairs]
    rfl
  · exact h.lost result hok (hwindow.symm.trans hnone)

/-- The first event ends behind the start of what is decoded. -/
def Moves (file : Bytes) (parsed : List (Fired δ) × Except JSONError (Bytes × Unit)) : Prop :=
  ∀ result, parsed.2 = .ok result →
    ∃ fired rest, parsed.1 = fired :: rest ∧ fired.bufferPtr.length < file.length

theorem Moves.window_eq_none {file : Bytes}
    {parsed : List (Fired δ) × Except JSONError (Bytes × Unit)} (h : Moves file parsed)
    {unread : Nat} (hunread : file.length ≤ unread) :
    ∀ result, parsed.2 = .ok result → window unread parsed.1 = none := by
  intro result hok
  obtain ⟨fired, rest, hfired, hlength⟩ := h result hok
  rw [hfired, window, if_pos (by omega)]

/-- What follows an element and a comma, in an array or an object. -/
def behindComma (first : List (Fired δ) × Except JSONError (Bytes × ρ))
    (rest : Bytes → ρ → List (Fired δ) × Except JSONError (Bytes × ρ)) :
    List (Fired δ) × Except JSONError (Bytes × ρ) :=
  match first with
  | (fired, .error e) => (fired, .error e)
  | (fired, .ok (bufferPtr, reader)) =>
    match skipComma bufferPtr with
    | .error e => (fired, .error e)
    | .ok bufferPtr => (fired ++ (rest bufferPtr reader).1, (rest bufferPtr reader).2)

theorem behindComma_error {first : List (Fired δ) × Except JSONError (Bytes × ρ)}
    (rest : Bytes → ρ → List (Fired δ) × Except JSONError (Bytes × ρ)) {e : JSONError}
    (h : first.2 = .error e) : (behindComma first rest).2 = .error e := by
  rcases first with ⟨fired, e' | found⟩
  · exact h
  · cases h

theorem Moves.mono {file file' : Bytes}
    {parsed : List (Fired δ) × Except JSONError (Bytes × Unit)} (h : Moves file parsed)
    (hle : file.length ≤ file'.length) : Moves file' parsed := by
  intro result hok
  obtain ⟨fired, rest, hfired, hlength⟩ := h result hok
  exact ⟨fired, rest, hfired, hlength.trans_le hle⟩

theorem Moves.comma {file : Bytes} {parsed : List (Fired δ) × Except JSONError (Bytes × Unit)}
    (h : Moves file parsed)
    (rest : Bytes → Unit → List (Fired δ) × Except JSONError (Bytes × Unit)) :
    Moves file (behindComma parsed rest) := by
  intro result hok
  rcases parsed with ⟨fired, e | ⟨file', _⟩⟩
  · cases hok
  · obtain ⟨first, others, hfired, hlength⟩ := h _ rfl
    unfold behindComma at hok ⊢
    dsimp only at hfired hok ⊢
    cases hcomma : skipComma file' with
    | error e =>
      rw [hcomma] at hok
      cases hok
    | ok file'' => exact ⟨first, _, congrArg (· ++ _) hfired, hlength⟩

/-- An element and a comma in front of the others. -/
theorem Agrees.comma {unread : Nat}
    {streamed : List (Fired δ) × Except JSONError (Bytes × FileReader)}
    {parsed : List (Fired δ) × Except JSONError (Bytes × Unit)} (h : Agrees unread streamed parsed)
    {rest : Bytes → FileReader → List (Fired δ) × Except JSONError (Bytes × FileReader)}
    {rest' : Bytes → Unit → List (Fired δ) × Except JSONError (Bytes × Unit)}
    (hrest : ∀ unread file bufferPtr reader, Tracks unread file bufferPtr reader →
      Agrees unread (rest bufferPtr reader) (rest' file ()))
    (hmoves : ∀ file, Moves file (rest' file ())) :
    Agrees unread (behindComma streamed rest) (behindComma parsed rest') := by
  rcases parsed with ⟨fired', e | ⟨file, _⟩⟩
  · refine agrees_of_error fun he => ?_
    subst he
    obtain ⟨e, he⟩ := h.tooLong rfl
    exact ⟨e, behindComma_error rest he⟩
  · unfold behindComma
    dsimp only
    cases hcomma : skipComma file with
    | error e =>
      refine agrees_of_error fun he => ?_
      subst he
      unfold skipComma at hcomma
      split at hcomma
      · cases hcomma
      · cases hcomma
    | ok file' =>
      dsimp only
      cases hwindow : window unread fired' with
      | none =>
        obtain ⟨e, he⟩ := h.lost _ rfl hwindow
        refine agrees_error (behindComma_error rest he) fun result _ => ?_
        dsimp only
        rw [window_append, hwindow]
        rfl
      | some unread' =>
        obtain ⟨fired, bufferPtr, reader, hstreamed, hpairs, htracks⟩ :=
          h.followed file rfl unread' hwindow
        subst hstreamed
        dsimp only
        have happend : window unread (fired' ++ (rest' file' ()).1) =
            window unread' (rest' file' ()).1 := by
          rw [window_append, hwindow]
          rfl
        rcases htracks.comma hcomma with ⟨bufferPtr', hbuffer, htracks'⟩ | ⟨hlength, e, hbuffer⟩
        · rw [hbuffer]
          have hagrees := hrest unread' file' bufferPtr' reader htracks'
          refine ⟨fun last hok unread'' hsome => ?_, fun result hok hnone => ?_, hagrees.tooLong⟩
          · obtain ⟨fired'', bufferPtr'', reader'', hstreamed, hpairs', htracks''⟩ :=
              hagrees.followed last hok unread'' (happend.symm.trans hsome)
            dsimp only
            rw [hstreamed]
            refine ⟨_, bufferPtr'', reader'', rfl, ?_, htracks''⟩
            rw [List.map_append, List.map_append, hpairs, hpairs']
          · exact hagrees.lost result hok (happend.symm.trans hnone)
        · rw [hbuffer]
          refine agrees_error rfl fun result hok => ?_
          rw [happend]
          exact (hmoves file').window_eq_none hlength result hok

theorem agrees_nil {unread : Nat} {file bufferPtr : Bytes} {reader : FileReader}
    (h : Tracks unread file bufferPtr reader) :
    Agrees unread (([], .ok (bufferPtr, reader)) : List (Fired δ) × _) ([], .ok (file, ())) := by
  refine ⟨fun file' hok unread' hsome => ?_, fun _ _ hnone => (nomatch hnone),
    fun hlong => (nomatch hlong)⟩
  cases hok
  cases hsome
  exact ⟨[], bufferPtr, reader, rfl, rfl, h⟩

section

variable (doubles : Doubles δ)

theorem parseElement_skip (buffers : DecodeBuffers) (update : Bytes → ρ → Bytes × ρ) (fuel : Nat)
    (name : Option Bytes) (bufferPtr : Bytes) (reader : ρ) :
    parseElement doubles buffers update fuel name (skipWhitespace bufferPtr) reader =
      parseElement doubles buffers update fuel name bufferPtr reader := by
  cases fuel with
  | zero => rfl
  | succ fuel =>
    rw [parseElement_succ, parseElement_succ, skipWhitespace_idem]

theorem parse_moves (buffers : DecodeBuffers) (fuel : Nat) :
    (∀ name file, Moves (skipWhitespace file)
      (parseElement doubles buffers Prod.mk fuel name file ())) ∧
    (∀ file, Moves (skipWhitespace file) (parseArray doubles buffers Prod.mk fuel file ())) ∧
    (∀ file, Moves (skipWhitespace file) (parseObject doubles buffers Prod.mk fuel file ())) := by
  induction fuel with
  | zero =>
    refine ⟨fun _ _ _ hok => ?_, fun _ _ hok => ?_, fun _ _ hok => ?_⟩
    · cases hok
    · cases hok
    · cases hok
  | succ fuel ih =>
    obtain ⟨helement, -, -⟩ := ih
    refine ⟨fun name file => ?_, fun file => ?_, fun file => ?_⟩
    · rw [parseElement_succ]
      cases skipWhitespace file with
      | nil => exact fun _ hok => nomatch hok
      | cons c rest =>
        dsimp only
        split
        · exact fun _ _ => ⟨_, _, rfl, Nat.lt_succ_self _⟩
        · split
          · exact fun _ _ => ⟨_, _, rfl, Nat.lt_succ_self _⟩
          · cases hscalar : decodeScalar doubles buffers.stringBufferLength c rest with
            | error e => exact fun _ hok => nomatch hok
            | ok found => exact fun _ _ => ⟨_, _, rfl, decodeScalar_length hscalar⟩
    · rw [parseArray_succ]
      cases skipWhitespace file with
      | nil => exact fun _ hok => nomatch hok
      | cons c rest =>
        dsimp only
        split
        · exact fun _ _ => ⟨_, _, rfl, Nat.lt_succ_self _⟩
        · exact ((helement none (c :: rest)).mono (skipWhitespace_length _)).comma _
    · rw [parseObject_succ]
      cases skipWhitespace file with
      | nil => exact fun _ hok => nomatch hok
      | cons c rest =>
        dsimp only
        split
        · exact fun _ _ => ⟨_, _, rfl, Nat.lt_succ_self _⟩
        · cases hname : decodeName buffers.nameBufferLength (c :: rest) with
          | error e => exact fun _ hok => nomatch hok
          | ok named =>
            have hlater := (skipWhitespace_length named.2).trans (decodeName_length hname).le
            exact ((helement (some named.1) named.2).mono hlater).comma _

/-- The window is what decides: where it holds each element, the same is decoded. -/
theorem stream_agrees (fuel : Nat) :
    (∀ unread name file bufferPtr reader, Tracks unread file bufferPtr reader →
      Agrees unread
        (parseElement doubles fileBuffers updateDecoderReadFile fuel name bufferPtr reader)
        (parseElement doubles fileBuffers Prod.mk fuel name file ())) ∧
    (∀ unread file bufferPtr reader, Tracks unread file bufferPtr reader →
      Agrees unread
        (parseArray doubles fileBuffers updateDecoderReadFile fuel bufferPtr reader)
        (parseArray doubles fileBuffers Prod.mk fuel file ())) ∧
    (∀ unread file bufferPtr reader, Tracks unread file bufferPtr reader →
      Agrees unread
        (parseObject doubles fileBuffers updateDecoderReadFile fuel bufferPtr reader)
        (parseObject doubles fileBuffers Prod.mk fuel file ())) := by
  induction fuel with
  | zero =>
    refine ⟨fun _ _ _ _ _ _ => ?_, fun _ _ _ _ _ => ?_, fun _ _ _ _ _ => ?_⟩
    · exact agrees_of_error fun h => nomatch h
    · exact agrees_of_error fun h => nomatch h
    · exact agrees_of_error fun h => nomatch h
  | succ fuel ih =>
    obtain ⟨helement, harray, hobject⟩ := ih
    obtain ⟨hmovesElement, hmovesArray, hmovesObject⟩ := parse_moves doubles fileBuffers (fuel + 1)
    refine ⟨fun unread name file bufferPtr reader h => ?_, fun unread file bufferPtr reader h => ?_,
      fun unread file bufferPtr reader h => ?_⟩
    · have hmoves := hmovesElement name file
      rw [parseElement_succ] at hmoves
      rw [parseElement_succ, parseElement_succ]
      cases hskip : skipWhitespace file with
      | nil => exact agrees_of_error fun h => nomatch h
      | cons c rest =>
        rw [hskip] at hmoves
        dsimp only at hmoves ⊢
        rcases h.skip hskip with ⟨rest', hbuffer, htracks⟩ | ⟨hbuffer, hlength⟩
        · rw [hbuffer]
          dsimp only
          split
          · exact Agrees.fired htracks.le_length (harray _ _ _ _ htracks.update)
          · split
            · exact Agrees.fired htracks.le_length (hobject _ _ _ _ htracks.update)
            · cases hscalar : decodeScalar doubles fileBuffers.stringBufferLength c rest with
              | error e =>
                refine agrees_of_error fun he => ?_
                subst he
                obtain ⟨e, he⟩ := htracks.token_tooLong
                  (decodeScalar_cut doubles fileBuffers.stringBufferLength c) hscalar
                exact ⟨e, by rw [he]⟩
              | ok found =>
                obtain ⟨event, file'⟩ := found
                rcases htracks.token_ok
                    (decodeScalar_cut doubles fileBuffers.stringBufferLength c) hscalar with
                  ⟨hlookahead, bufferPtr', hok, htracks'⟩ | ⟨hlookahead, e, he⟩
                · rw [hok]
                  exact Agrees.fired hlookahead (agrees_nil htracks'.update)
                · rw [he]
                  exact agrees_error rfl fun _ _ => if_pos hlookahead
        · rw [hbuffer]
          exact agrees_error rfl (hmoves.window_eq_none hlength)
    · have hmoves := hmovesArray file
      rw [parseArray_succ] at hmoves
      rw [parseArray_succ, parseArray_succ]
      cases hskip : skipWhitespace file with
      | nil => exact agrees_of_error fun h => nomatch h
      | cons c rest =>
        rw [hskip] at hmoves
        dsimp only at hmoves ⊢
        rcases h.skip hskip with ⟨rest', hbuffer, htracks⟩ | ⟨hbuffer, hlength⟩
        · rw [hbuffer]
          dsimp only
          split
          · exact Agrees.fired htracks.le_length (agrees_nil htracks.update)
          · exact (helement unread none _ _ reader (htracks.cons c)).comma harray fun file =>
              ((parse_moves doubles fileBuffers fuel).2.1 file).mono (skipWhitespace_length file)
        · rw [hbuffer]
          exact agrees_error rfl (hmoves.window_eq_none hlength)
    · have hmoves := hmovesObject file
      rw [parseObject_succ] at hmoves
      rw [parseObject_succ, parseObject_succ]
      cases hskip : skipWhitespace file with
      | nil => exact agrees_of_error fun h => nomatch h
      | cons c rest =>
        rw [hskip] at hmoves
        dsimp only at hmoves ⊢
        rcases h.skip hskip with ⟨rest', hbuffer, htracks⟩ | ⟨hbuffer, hlength⟩
        · rw [hbuffer]
          dsimp only
          split
          · exact Agrees.fired htracks.le_length (agrees_nil htracks.update)
          · cases hname : decodeColon fileBuffers.nameBufferLength (c :: rest) with
            | error e =>
              rw [decodeName_eq _ (c :: rest), hname]
              refine agrees_of_error fun he => ?_
              subst he
              obtain ⟨e, he⟩ := (htracks.cons c).token_tooLong
                (decodeColon_cut fileBuffers.nameBufferLength) hname
              exact ⟨e, by rw [decodeName_eq, he]⟩
            | ok named =>
              obtain ⟨name, file'⟩ := named
              rw [decodeName_eq _ (c :: rest), hname]
              dsimp only
              rcases (htracks.cons c).token_ok
                  (decodeColon_cut fileBuffers.nameBufferLength) hname with
                ⟨-, bufferPtr', hok, htracks'⟩ | ⟨hlength, e, he⟩
              · rw [decodeName_eq, hok]
                dsimp only
                rw [parseElement_skip, parseElement_skip]
                exact (helement unread (some name) _ _ reader htracks').comma hobject fun file =>
                  ((parse_moves doubles fileBuffers fuel).2.2 file).mono
                    (skipWhitespace_length file)
              · rw [decodeName_eq, he, parseElement_skip]
                refine agrees_error rfl ?_
                have helement' := (parse_moves doubles fileBuffers fuel).1 (some name) file'
                exact ((helement'.mono (skipWhitespace_length file')).comma _).window_eq_none
                  hlength.le
        · rw [hbuffer]
          exact agrees_error rfl (hmoves.window_eq_none hlength)

end

theorem tracks_openFile (file : Bytes) :
    Tracks (file.length - 1000) file (openFile file).1 (openFile file).2 := by
  have hopen : Tracks file.length file [] ⟨List.replicate 1000 0, file, false⟩ :=
    Tracks.reading rfl rfl rfl List.length_replicate
  have hrefill : refilled file.length file.length = file.length - 1000 :=
    if_pos (by omega)
  exact hrefill ▸ hopen.update

theorem parseFile_agrees (doubles : Doubles δ) (name : Option Bytes) (file : Bytes) :
    Agrees (file.length - 1000) (parseFile doubles name file)
      (parseDocument doubles fileBuffers name file) := by
  have hfuel : decodeFuel file.length ≤ decodeFuel (file.length + 2000) := by
    unfold decodeFuel
    omega
  have hparse := parseElement_of_le doubles fileBuffers Prod.mk hfuel
    (fueled_parseDocument doubles fileBuffers name file)
  have hagrees := (stream_agrees doubles (decodeFuel (file.length + 2000))).1 _ name _ _ _
    (tracks_openFile file)
  rw [hparse] at hagrees
  exact hagrees

/-! The encoder. -/

theorem replay_congr {σ : Type} (act : Option Bytes → Event δ → EStateM JSONError σ Unit)
    {fired fired' : List (Fired δ)} (h : fired.map Fired.pair = fired'.map Fired.pair) :
    replay act fired = replay act fired' := by
  rw [replay_eq_forM, h, ← replay_eq_forM]

/-- The events, and then the result of the decoder. -/
def played {α : Type} (act : Option Bytes → Event δ → Encode ω Unit) (fired : List (Fired δ))
    (result : Except JSONError α) : Encode ω Unit := do
  replay act fired
  let _ ← liftExcept result

theorem played_eq_ok {α : Type} (act : Option Bytes → Event δ → Encode ω Unit)
    (fired : List (Fired δ)) (result : Except JSONError α) (context after : EncodeContext ω) :
    played act fired result context = .ok () after ↔
      replay act fired context = .ok () after ∧ ∃ found, result = .ok found := by
  unfold played
  cases hreplay : replay act fired context with
  | error e context' =>
    rw [run_bind_error hreplay]
    simp
  | ok _ context' =>
    rw [run_bind_ok hreplay]
    cases result with
    | error e =>
      constructor
      · intro h
        cases h
      · intro h
        obtain ⟨-, found, hfound⟩ := h
        cases hfound
    | ok found =>
      constructor
      · intro h
        cases h
        exact ⟨rfl, found, rfl⟩
      · intro h
        cases h.1
        rfl

theorem finishElement_ok (closeLastContainer : Bool) (containerLevel : Nat)
    (result : EStateM.Result JSONError (EncodeContext ω) Unit) :
    (∃ after, finishElement closeLastContainer containerLevel result = .ok () after) ↔
      ∃ after, result = .ok () after := by
  cases result with
  | ok _ context => exact ⟨fun _ => ⟨context, rfl⟩, fun _ => ⟨_, rfl⟩⟩
  | error e context =>
    constructor
    · intro h
      obtain ⟨after, h⟩ := h
      cases h
    · intro h
      obtain ⟨after, h⟩ := h
      cases h

/-- An element from a file is the same as the one from memory when the decoder reads it to its
end with the buffers for a file, the encoder takes its events and the window holds each. -/
theorem addJSONFromFile_eq_addJSONElement_iff (doubles : Doubles δ) (name : Option Bytes)
    (file : Bytes) (closeLastContainer : Bool) (context : EncodeContext ω) :
    (∃ after, addJSONFromFile doubles name file closeLastContainer context = .ok () after ∧
        addJSONElement doubles name file closeLastContainer context = .ok () after) ↔
      (∃ rest, (parseDocument doubles fileBuffers name file).2 = .ok rest) ∧
        (∃ after, replay (addJSONFromFileOn doubles closeLastContainer)
          (parseDocument doubles fileBuffers name file).1 context = .ok () after) ∧
        (window (file.length - 1000) (parseDocument doubles fileBuffers name file).1).isSome := by
  have hagrees := parseFile_agrees doubles name file
  have hlarger : (parseDocument doubles fileBuffers name file).2 = .error .dataTooLong ∨
      parseDocument doubles fileBuffers name file =
        parseDocument doubles elementBuffers name file :=
    (parse_larger doubles (by decide : 500 ≤ 5000) Prod.mk (decodeFuel file.length)).1 name file ()
  have hfile := addJSONFromFile_eq doubles name file closeLastContainer context
  have hmemory := addJSONElement_eq doubles name file closeLastContainer context
  constructor
  · rintro ⟨after, hstreamed, hadded⟩
    obtain ⟨_, hplayed⟩ := (finishElement_ok _ _ _).mp ⟨after, hfile.symm.trans hstreamed⟩
    obtain ⟨-, found, hfound⟩ := (played_eq_ok _ _ _ _ _).mp hplayed
    obtain ⟨_, hplayed'⟩ := (finishElement_ok _ _ _).mp ⟨after, hmemory.symm.trans hadded⟩
    obtain ⟨hreplay, found', hfound'⟩ := (played_eq_ok _ _ _ _ _).mp hplayed'
    rcases hlarger with hlong | hsame
    · obtain ⟨e, he⟩ := hagrees.tooLong hlong
      rw [hfound] at he
      cases he
    · rw [← hsame] at hreplay hfound'
      refine ⟨⟨found', hfound'⟩, ⟨_, hreplay⟩, ?_⟩
      cases hwindow : window (file.length - 1000)
          (parseDocument doubles fileBuffers name file).1 with
      | some _ => rfl
      | none =>
        obtain ⟨e, he⟩ := hagrees.lost found' hfound' hwindow
        rw [hfound] at he
        cases he
  · rintro ⟨⟨⟨rest, _⟩, hok⟩, ⟨context', hreplay⟩, hwindow⟩
    obtain ⟨unread, hunread⟩ := Option.isSome_iff_exists.mp hwindow
    obtain ⟨fired, bufferPtr, reader, hstreamed, hpairs, -⟩ :=
      hagrees.followed rest hok unread hunread
    rcases hlarger with hlong | hsame
    · rw [hok] at hlong
      cases hlong
    · have hfilePlayed : played (addJSONFromFileOn doubles closeLastContainer)
          (parseFile doubles name file).1 (parseFile doubles name file).2 context =
            .ok () context' := by
        rw [played_eq_ok, hstreamed, replay_congr _ hpairs]
        exact ⟨hreplay, _, rfl⟩
      have hmemoryPlayed : played (addJSONFromFileOn doubles closeLastContainer)
          (parseDocument doubles elementBuffers name file).1
          (parseDocument doubles elementBuffers name file).2 context = .ok () context' := by
        rw [played_eq_ok, ← hsame]
        exact ⟨hreplay, _, hok⟩
      have hfile' := hfile.trans (congrArg _ hfilePlayed)
      have hmemory' := hmemory.trans (congrArg _ hmemoryPlayed)
      obtain ⟨after, hafter⟩ := (finishElement_ok closeLastContainer context.containerLevel
        (.ok () context')).mpr ⟨context', rfl⟩
      exact ⟨after, hfile'.trans hafter, hmemory'.trans hafter⟩

/-- Two strings; behind the first one the buffer is filled just enough not to be refilled. -/
def twoStrings : Bytes :=
  ascii "[\"" ++ List.replicate 497 'a'.toUInt8 ++ ascii "\",\"" ++
    List.replicate 499 'b'.toUInt8 ++ ascii "\"]"

/-- The second string fits into its buffer, and what is left of the window is too short. -/
theorem second_string_is_lost :
    isOk (addJSONElement exampleDoubles none twoStrings true exampleContext) = true ∧
      (parseDocument exampleDoubles fileBuffers none twoStrings).2.isOk = true ∧
      isOk (addJSONFromFile exampleDoubles none twoStrings true exampleContext) = false := by
  refine ⟨by decide +kernel, by decide +kernel, by decide +kernel⟩

end SentryCocoa.JSONCodec
