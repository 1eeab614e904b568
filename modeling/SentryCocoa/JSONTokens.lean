import Mathlib.Data.List.DropRight
import SentryCocoa.JSONProgress

/-! Tokens do not depend on what follows. A buffer that is cut behind a token gives the same
token, and one that is cut inside of it gives an error, never another token. A number needs one
character more than its own. -/
namespace SentryCocoa.JSONCodec

variable {δ ρ α : Type}

/-- What is read of a buffer, and what is read when there is more behind it: the same, or both
times the same error, or first an error because the token goes on behind the cut. -/
inductive Cut (lookahead : α → Nat) (more : Bytes) :
    Except JSONError (α × Bytes) → Except JSONError (α × Bytes) → Prop where
  | whole (value : α) (rest : Bytes) (h : lookahead value ≤ rest.length) :
    Cut lookahead more (.ok (value, rest)) (.ok (value, rest ++ more))
  | failed (e : JSONError) : Cut lookahead more (.error e) (.error e)
  | short (e : JSONError) (full : Except JSONError (α × Bytes)) (he : e ≠ .dataTooLong)
    (h : ∀ value rest, full = .ok (value, rest) → rest.length < more.length + lookahead value) :
    Cut lookahead more (.error e) full

theorem skipWhitespace_append_of_ne {bufferPtr : Bytes} (h : skipWhitespace bufferPtr ≠ [])
    (more : Bytes) : skipWhitespace (bufferPtr ++ more) = skipWhitespace bufferPtr ++ more := by
  unfold skipWhitespace at h ⊢
  rw [List.dropWhile_append, if_neg]
  rwa [List.isEmpty_iff]

/-- What follows a buffer only shows once the white space in it is skipped. -/
theorem skipWhitespace_append_cases (bufferPtr more : Bytes) : skipWhitespace bufferPtr = [] ∨
    ∃ c rest, skipWhitespace bufferPtr = c :: rest ∧
      skipWhitespace (bufferPtr ++ more) = c :: (rest ++ more) := by
  cases hskip : skipWhitespace bufferPtr with
  | nil => exact .inl rfl
  | cons c rest =>
    refine .inr ⟨c, rest, rfl, ?_⟩
    rw [skipWhitespace_append_of_ne (by rw [hskip]; exact List.cons_ne_nil c rest), hskip]
    rfl

theorem skipWhitespace_append_of_nil {bufferPtr : Bytes} (h : skipWhitespace bufferPtr = [])
    (more : Bytes) : skipWhitespace (bufferPtr ++ more) = skipWhitespace more := by
  unfold skipWhitespace at h ⊢
  rw [List.dropWhile_append, if_pos]
  rwa [List.isEmpty_iff]

theorem skipWhitespace_idem (bufferPtr : Bytes) :
    skipWhitespace (skipWhitespace bufferPtr) = skipWhitespace bufferPtr :=
  List.dropWhile_idempotent _ _

/-! Strings. -/

theorem scanString_cut (bufferPtr more : Bytes) :
    (∃ content rest, scanString bufferPtr = some (content, rest) ∧
        scanString (bufferPtr ++ more) = some (content, rest ++ more)) ∨
      scanString bufferPtr = none ∧ ∀ content rest,
        scanString (bufferPtr ++ more) = some (content, rest) → rest.length < more.length := by
  fun_induction scanString bufferPtr with
  | case1 =>
    refine Or.inr ⟨rfl, fun content rest h => ?_⟩
    have hlength := scanString_length h
    rw [List.nil_append] at hlength
    omega
  | case2 behind =>
    refine Or.inl ⟨[], behind, rfl, ?_⟩
    rw [List.cons_append, scanString.eq_def]
    exact if_pos rfl
  | case3 hquote =>
    refine Or.inr ⟨rfl, fun content rest h => ?_⟩
    rw [List.cons_append, List.nil_append, scanString.eq_def] at h
    dsimp only at h
    rw [if_neg hquote, if_pos rfl] at h
    cases more with
    | nil => cases h
    | cons d more =>
      obtain ⟨⟨content', rest'⟩, hfound, hmap⟩ := Option.map_eq_some_iff.mp h
      have hlength := scanString_length hfound
      simp only [Prod.mk.injEq] at hmap
      rw [← hmap.2, List.length_cons]
      omega
  | case4 d behind hquote ih =>
    have hstep : ∀ behind, scanString ('\\'.toUInt8 :: d :: behind) =
        (scanString behind).map fun found => ('\\'.toUInt8 :: d :: found.1, found.2) := by
      intro behind
      rw [scanString.eq_def]
      dsimp only
      rw [if_neg hquote, if_pos rfl]
    rw [List.cons_append, List.cons_append, hstep]
    rcases ih with ⟨content, rest, hscan, hscan'⟩ | ⟨hscan, hmore⟩
    · rw [hscan, hscan']
      exact Or.inl ⟨_, _, rfl, rfl⟩
    · rw [hscan]
      refine Or.inr ⟨rfl, fun content rest h => ?_⟩
      obtain ⟨⟨content', rest'⟩, hfound, hmap⟩ := Option.map_eq_some_iff.mp h
      simp only [Prod.mk.injEq] at hmap
      rw [← hmap.2]
      exact hmore content' rest' hfound
  | case5 c behind hquote hescape ih =>
    have hstep : ∀ behind, scanString (c :: behind) =
        (scanString behind).map fun found => (c :: found.1, found.2) := by
      intro behind
      rw [scanString.eq_def]
      dsimp only
      rw [if_neg hquote, if_neg hescape]
    rw [List.cons_append, hstep]
    rcases ih with ⟨content, rest, hscan, hscan'⟩ | ⟨hscan, hmore⟩
    · rw [hscan, hscan']
      exact Or.inl ⟨_, _, rfl, rfl⟩
    · rw [hscan]
      refine Or.inr ⟨rfl, fun content rest h => ?_⟩
      obtain ⟨⟨content', rest'⟩, hfound, hmap⟩ := Option.map_eq_some_iff.mp h
      simp only [Prod.mk.injEq] at hmap
      rw [← hmap.2]
      exact hmore content' rest' hfound

theorem decodeString_cut (dstBufferLength : Nat) (bufferPtr more : Bytes) :
    Cut (fun _ => 0) more (decodeString dstBufferLength bufferPtr)
      (decodeString dstBufferLength (bufferPtr ++ more)) := by
  cases bufferPtr with
  | nil =>
    refine Cut.short .invalidCharacter _ (by decide) fun string rest h => ?_
    have hlength := decodeString_length h
    rw [List.nil_append] at hlength
    omega
  | cons c behind =>
    unfold decodeString
    rw [List.cons_append, List.head?_cons, List.head?_cons, List.tail_cons, List.tail_cons]
    split
    · exact Cut.failed _
    · rcases scanString_cut behind more with ⟨content, rest, hscan, hscan'⟩ | ⟨hscan, hmore⟩
      · rw [hscan, hscan']
        dsimp only
        split
        · exact Cut.failed _
        · cases unescape content with
          | error e => exact Cut.failed e
          | ok dst => exact Cut.whole _ _ (Nat.zero_le _)
      · rw [hscan]
        refine Cut.short .incomplete _ (by decide) fun string rest h => ?_
        cases hfull : scanString (behind ++ more) with
        | none =>
          rw [hfull] at h
          cases h
        | some found =>
          obtain ⟨content, after⟩ := found
          rw [hfull] at h
          dsimp only at h
          split at h
          · cases h
          · cases hdst : unescape content with
            | error e =>
              rw [hdst] at h
              cases h
            | ok dst =>
              rw [hdst] at h
              cases h
              exact hmore content _ hfull

/-- `decodeName` up to the colon. -/
def decodeColon (nameBufferLength : Nat) (bufferPtr : Bytes) : Except JSONError (Bytes × Bytes) :=
  match decodeString nameBufferLength bufferPtr with
  | .error e => .error e
  | .ok (name, bufferPtr) =>
    match skipWhitespace bufferPtr with
    | [] => .error .incomplete
    | c :: rest => if c ≠ ':'.toUInt8 then .error .invalidCharacter else .ok (name, rest)

theorem decodeName_eq (nameBufferLength : Nat) (bufferPtr : Bytes) :
    decodeName nameBufferLength bufferPtr =
      match decodeColon nameBufferLength bufferPtr with
      | .error e => .error e
      | .ok (name, rest) => .ok (name, skipWhitespace rest) := by
  unfold decodeName decodeColon
  cases decodeString nameBufferLength bufferPtr with
  | error e => rfl
  | ok found =>
    change (match skipWhitespace found.2 with
      | [] => throw .incomplete
      | c :: rest => if c ≠ ':'.toUInt8 then throw .invalidCharacter
        else pure (found.1, skipWhitespace rest) : Except JSONError (Bytes × Bytes)) = _
    dsimp only
    cases skipWhitespace found.2 with
    | nil => rfl
    | cons c rest =>
      dsimp only
      split
      · rfl
      · rfl

theorem decodeColon_cut (nameBufferLength : Nat) (bufferPtr more : Bytes) :
    Cut (fun _ => 0) more (decodeColon nameBufferLength bufferPtr)
      (decodeColon nameBufferLength (bufferPtr ++ more)) := by
  unfold decodeColon
  have hcut := decodeString_cut nameBufferLength bufferPtr more
  generalize decodeString nameBufferLength bufferPtr = cut at hcut
  generalize decodeString nameBufferLength (bufferPtr ++ more) = full at hcut
  have hcolon : ∀ {name rest name' rest' : Bytes}, (match skipWhitespace rest with
        | [] => Except.error .incomplete
        | c :: rest =>
          if c ≠ ':'.toUInt8 then Except.error .invalidCharacter else Except.ok (name, rest)) =
          (Except.ok (name', rest') : Except JSONError (Bytes × Bytes)) →
      rest'.length < rest.length := by
    intro name rest name' rest' h
    have hlength := skipWhitespace_length rest
    cases hskip : skipWhitespace rest with
    | nil =>
      rw [hskip] at h
      cases h
    | cons c behind =>
      rw [hskip] at h hlength
      dsimp only at h
      split at h
      · cases h
      · cases h
        exact hlength
  cases hcut with
  | whole name rest _ =>
    dsimp only
    rcases skipWhitespace_append_cases rest more with hnil | ⟨c, behind, hskip, hskip'⟩
    · rw [hnil]
      refine Cut.short .incomplete _ (by decide) fun name' rest' h => ?_
      rw [skipWhitespace_append_of_nil hnil, ← skipWhitespace_idem] at h
      exact (hcolon h).trans_le (skipWhitespace_length more)
    · rw [hskip, hskip']
      dsimp only
      split
      · exact Cut.failed _
      · exact Cut.whole name behind (Nat.zero_le _)
  | failed e => exact Cut.failed e
  | short e _ he hshort =>
    refine Cut.short e _ he fun name' rest' h => ?_
    cases full with
    | error e => cases h
    | ok found =>
      exact (hcolon h).trans (hshort found.1 found.2 rfl)

/-! Numbers. -/

/-- The characters behind its own that the decoder needs to see. -/
def Event.lookahead : Event δ → Nat
  | .integerElement _ => 1
  | .uintegerElement _ => 1
  | .floatingPointElement _ => 1
  | _ => 0

theorem scanInteger_append (accum : Nat) (start more : Bytes) {c : UInt8} {rest : Bytes}
    {value : Nat} {isOverflow : Bool}
    (h : scanInteger accum start = (value, isOverflow, c :: rest)) :
    scanInteger accum (start ++ more) = (value, isOverflow, c :: (rest ++ more)) := by
  induction start generalizing accum with
  | nil => simp [scanInteger] at h
  | cons d start ih =>
    rw [scanInteger] at h
    rw [List.cons_append, scanInteger]
    split at h
    · rename_i hdigit
      rw [if_pos hdigit]
      split at h
      · rename_i hlarge
        rw [if_pos hlarge]
        simp only [Prod.mk.injEq, List.cons.injEq] at h
        obtain ⟨rfl, rfl, rfl, rfl⟩ := h
        rfl
      · rename_i hlarge
        rw [if_neg hlarge]
        dsimp only at h ⊢
        split at h
        · rename_i hoverflow
          rw [if_pos hoverflow]
          simp only [Prod.mk.injEq, List.cons.injEq] at h
          obtain ⟨rfl, rfl, rfl, rfl⟩ := h
          rfl
        · rename_i hoverflow
          rw [if_neg hoverflow]
          exact ih _ h
    · rename_i hdigit
      rw [if_neg hdigit]
      simp only [Prod.mk.injEq, List.cons.injEq] at h
      obtain ⟨rfl, rfl, rfl, rfl⟩ := h
      rfl

/-- A number that goes on up to the cut is not known to end there. -/
theorem scanInteger_append_of_nil (accum : Nat) (start more : Bytes) {value : Nat}
    {isOverflow : Bool} (h : scanInteger accum start = (value, isOverflow, [])) :
    scanInteger accum (start ++ more) = scanInteger value more := by
  induction start generalizing accum with
  | nil =>
    simp only [scanInteger, Prod.mk.injEq] at h
    rw [List.nil_append, h.1]
  | cons d start ih =>
    rw [scanInteger] at h
    rw [List.cons_append, scanInteger]
    split at h
    · rename_i hdigit
      rw [if_pos hdigit]
      split at h
      · simp at h
      · rename_i hlarge
        rw [if_neg hlarge]
        dsimp only at h ⊢
        split at h
        · simp at h
        · rename_i hoverflow
          rw [if_neg hoverflow]
          exact ih _ h
    · simp at h

theorem decodeNumber_lookahead {doubles : Doubles δ} {length : Nat} {negative : Bool}
    {start rest : Bytes} {event : Event δ}
    (h : decodeNumber doubles length negative start = .ok (event, rest)) :
    event.lookahead = 1 ∧ rest ≠ [] := by
  unfold decodeNumber at h
  split at h
  · cases h
  · split at h
    · cases h
      exact ⟨rfl, by simp⟩
    · split at h
      · cases h
        exact ⟨rfl, by simp⟩
      · split at h
        · cases h
        · dsimp only at h
          split at h
          · cases h
          · cases h
            exact ⟨rfl, by simp⟩

theorem decodeNumber_cut (doubles : Doubles δ) (length : Nat) (negative : Bool)
    (start more : Bytes) :
    Cut Event.lookahead more (decodeNumber doubles length negative start)
      (decodeNumber doubles length negative (start ++ more)) := by
  have hshort : ∀ e, e ≠ .dataTooLong → (scanInteger 0 (start ++ more)).2.2.length ≤ more.length →
      Cut Event.lookahead more (Except.error e)
        (decodeNumber doubles length negative (start ++ more)) := by
    intro e he hscan
    refine Cut.short e _ he fun event rest h => ?_
    have hlength := decodeNumber_length h
    rw [(decodeNumber_lookahead h).1]
    omega
  rcases hscan : scanInteger 0 start with ⟨accum, isOverflow, _ | ⟨c, behind⟩⟩
  · have hcut : decodeNumber doubles length negative start = .error .incomplete := by
      unfold decodeNumber
      rw [hscan]
      rfl
    rw [hcut]
    apply hshort _ (by decide)
    rw [scanInteger_append_of_nil 0 start more hscan]
    exact scanInteger_length accum more
  · have hfull := scanInteger_append 0 start more hscan
    unfold decodeNumber
    rw [hscan, hfull]
    dsimp only
    split
    · exact Cut.whole _ _ (by simp [Event.lookahead])
    · split
      · exact Cut.whole _ _ (by simp [Event.lookahead])
      · rcases hdrop : (c :: behind).dropWhile isFPChar with _ | ⟨d, rest⟩
        · have hmore : (c :: (behind ++ more)).dropWhile isFPChar = more.dropWhile isFPChar := by
            rw [← List.cons_append, List.dropWhile_append, hdrop]
            rfl
          rw [hmore]
          refine Cut.short _ _ (by decide) fun event after h => ?_
          have hsub : (more.dropWhile isFPChar).length ≤ more.length :=
            (List.dropWhile_sublist _).length_le
          cases hdrop' : more.dropWhile isFPChar with
          | nil =>
            rw [hdrop'] at h
            cases h
          | cons d' rest' =>
            rw [hdrop'] at h hsub
            dsimp only at h
            split at h
            · cases h
            · cases h
              exact Nat.lt_succ_of_le hsub
        · have hmore : (c :: (behind ++ more)).dropWhile isFPChar = d :: (rest ++ more) := by
            rw [← List.cons_append, List.dropWhile_append, hdrop]
            rfl
          have hlen : (start ++ more).length - (d :: (rest ++ more)).length =
              start.length - (d :: rest).length := by
            simp only [List.length_append, List.length_cons]
            omega
          have htake : (start ++ more).take (start.length - (d :: rest).length) =
              start.take (start.length - (d :: rest).length) := by
            rw [List.take_append_of_le_length (Nat.sub_le _ _)]
          rw [hmore]
          dsimp only
          rw [hlen, htake]
          split
          · exact Cut.failed _
          · exact Cut.whole _ (d :: rest) (by simp [Event.lookahead])

theorem decodeLiteral_cut (literal : Bytes) (event : Event δ) (hevent : event.lookahead = 0)
    (bufferPtr more : Bytes) :
    Cut Event.lookahead more (decodeLiteral literal event bufferPtr)
      (decodeLiteral literal event (bufferPtr ++ more)) := by
  unfold decodeLiteral
  split
  · rename_i hcut
    refine Cut.short _ _ (by decide) fun event' rest h => ?_
    split at h
    · cases h
    · split at h
      · cases h
      · cases h
        rw [List.length_drop, List.length_append, hevent]
        rename_i hfull _
        rw [List.length_append] at hfull
        omega
  · rename_i hlong
    have hlength : literal.length ≤ bufferPtr.length := Nat.le_of_not_lt hlong
    have hfull : ¬(bufferPtr ++ more).length < literal.length := by
      rw [List.length_append]
      omega
    rw [if_neg hfull, List.take_append_of_le_length hlength,
      List.drop_append_of_le_length hlength]
    split
    · exact Cut.failed _
    · refine Cut.whole event (bufferPtr.drop literal.length) ?_
      rw [hevent]
      exact Nat.zero_le _

theorem decodeScalar_cut (doubles : Doubles δ) (length : Nat) (c : UInt8) (rest more : Bytes) :
    Cut Event.lookahead more (decodeScalar doubles length c rest)
      (decodeScalar doubles length c (rest ++ more)) := by
  unfold decodeScalar
  split
  · have hcut := decodeString_cut length (c :: rest) more
    rw [List.cons_append] at hcut
    generalize decodeString length (c :: rest) = cut at hcut
    generalize decodeString length (c :: (rest ++ more)) = full at hcut
    cases hcut with
    | whole string behind _ => exact Cut.whole (Event.stringElement string) behind (Nat.zero_le _)
    | failed e => exact Cut.failed e
    | short e _ he hshort =>
      refine Cut.short e _ he fun event behind h => ?_
      cases full with
      | error e => cases h
      | ok found =>
        cases h
        exact hshort _ _ rfl
  · split
    · exact decodeLiteral_cut _ _ rfl (c :: rest) more
    · split
      · exact decodeLiteral_cut _ _ rfl (c :: rest) more
      · split
        · exact decodeLiteral_cut _ _ rfl (c :: rest) more
        · split
          · cases rest with
            | nil =>
              refine Cut.short _ _ (by decide) fun event behind h => ?_
              cases more with
              | nil => cases h
              | cons d more =>
                rw [List.nil_append] at h
                dsimp only at h
                split at h
                · have hlength := decodeNumber_length h
                  have hscan := scanInteger_length 0 (d :: more)
                  rw [(decodeNumber_lookahead h).1]
                  omega
                · cases h
            | cons d behind =>
              rw [List.cons_append]
              dsimp only
              split
              · exact decodeNumber_cut doubles length true (d :: behind) more
              · exact Cut.failed _
          · split
            · exact decodeNumber_cut doubles length false (c :: rest) more
            · exact Cut.failed _

/-! Buffers of different sizes. -/

theorem decodeString_larger {length length' : Nat} (hlength : length ≤ length')
    (bufferPtr : Bytes) :
    decodeString length bufferPtr = .error .dataTooLong ∨
      decodeString length bufferPtr = decodeString length' bufferPtr := by
  unfold decodeString
  split
  · exact Or.inr rfl
  · split
    · exact Or.inr rfl
    · split
      · exact Or.inl rfl
      · rename_i hshort
        rw [if_neg (by omega)]
        exact Or.inr rfl

theorem decodeNumber_larger {length length' : Nat} (hlength : length ≤ length')
    (doubles : Doubles δ) (negative : Bool) (start : Bytes) :
    decodeNumber doubles length negative start = .error .dataTooLong ∨
      decodeNumber doubles length negative start =
        decodeNumber doubles length' negative start := by
  unfold decodeNumber
  split
  · exact Or.inr rfl
  · split
    · exact Or.inr rfl
    · split
      · exact Or.inr rfl
      · split
        · exact Or.inr rfl
        · rename_i d rest hdrop
          dsimp only
          split
          · exact Or.inl rfl
          · rename_i hshort
            have hlong : ¬start.length - (d :: rest).length ≥ length' := by omega
            rw [if_neg hlong]
            exact Or.inr rfl

theorem decodeScalar_larger {length length' : Nat} (hlength : length ≤ length')
    (doubles : Doubles δ) (c : UInt8) (rest : Bytes) :
    decodeScalar doubles length c rest = .error .dataTooLong ∨
      decodeScalar doubles length c rest = decodeScalar doubles length' c rest := by
  unfold decodeScalar
  split
  · rcases decodeString_larger hlength (c :: rest) with h | h
    · rw [h]
      exact Or.inl rfl
    · rw [h]
      exact Or.inr rfl
  · split
    · exact Or.inr rfl
    · split
      · exact Or.inr rfl
      · split
        · exact Or.inr rfl
        · split
          · cases rest with
            | nil => exact Or.inr rfl
            | cons d behind =>
              dsimp only
              split
              · exact decodeNumber_larger hlength doubles true (d :: behind)
              · exact Or.inr rfl
          · split
            · exact decodeNumber_larger hlength doubles false (c :: rest)
            · exact Or.inr rfl

end SentryCocoa.JSONCodec
