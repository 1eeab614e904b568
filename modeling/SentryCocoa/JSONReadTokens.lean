import SentryCocoa.JSONReadStrings
import SentryCocoa.JSONDocuments

/-! What the decoder reads of a token. A token is well formed, or the decoder stops at it like
the one without the reads, or it is unsafe: the source reads outside of the buffer or of the
table. -/
namespace SentryCocoa.JSONCodec
open Checked

variable {δ α β : Type}

/-! The tokens. -/

/-- The string goes up to the rest. -/
inductive WrittenString : Bytes → Bytes → Prop
  | mk {content rest : Bytes} : Written content →
      WrittenString ('"'.toUInt8 :: (content ++ '"'.toUInt8 :: rest)) rest

/-- A string that is closed, with an unsafe escape. -/
inductive UnsafeString : Bytes → Prop
  | mk {content rest : Bytes} : Enclosed content → UnsafeContent content →
      UnsafeString ('"'.toUInt8 :: (content ++ '"'.toUInt8 :: rest))

/-- A number goes on up to the first byte that can be in none, and there has to be one. -/
inductive WrittenNumber : Bytes → Bytes → Prop
  | mk {digit c : UInt8} {body rest : Bytes} : isdigit digit = true →
      (∀ c ∈ body, isFPChar c = true) → isFPChar c = false →
      WrittenNumber (digit :: (body ++ c :: rest)) (c :: rest)

inductive WrittenScalar : Bytes → Bytes → Prop
  | string {text rest : Bytes} : WrittenString text rest → WrittenScalar text rest
  | literal {word : String} {rest : Bytes} : word ∈ ["false", "true", "null"] →
      WrittenScalar (ascii word ++ rest) rest
  | number {text rest : Bytes} : WrittenNumber text rest → WrittenScalar text rest
  | negative {text rest : Bytes} : WrittenNumber text rest →
      WrittenScalar ('-'.toUInt8 :: text) rest

inductive UnsafeScalar : Bytes → Prop
  | string {text : Bytes} : UnsafeString text → UnsafeScalar text
  | minus : UnsafeScalar ['-'.toUInt8]

/-- A name, the colon behind it and the blanks around that. -/
inductive WrittenName : Bytes → Bytes → Prop
  | mk {text behind value : Bytes} : WrittenString text behind →
      skipWhitespace behind = ':'.toUInt8 :: value → WrittenName text (skipWhitespace value)

/-! The decoder with the reads and the one without. -/

/-- A token is read as without the reads, and well formed if it is read to its end, or it is
unsafe. -/
def Reads (checked : Except Stop (α × Bytes)) (plain : Except JSONError (α × Bytes))
    (written : Bytes → Prop) (outside : Prop) : Prop :=
  checked = failing plain ∧ (∀ value rest, plain = .ok (value, rest) → written rest) ∨
    outside ∧ ∃ stop, checked = .error stop ∧ stop.isOutside = true

theorem reads_error {written : Bytes → Prop} {outside : Prop} (e : JSONError) :
    Reads (α := α) (throw (.failed e)) (throw e) written outside :=
  .inl ⟨rfl, fun _ _ h => nomatch h⟩

theorem Reads.map {checked : Except Stop (α × Bytes)} {plain : Except JSONError (α × Bytes)}
    {written : Bytes → Prop} {outside : Prop} (h : Reads checked plain written outside)
    (f : α → β) {written' : Bytes → Prop} {outside' : Prop}
    (hwritten : ∀ rest, written rest → written' rest) (houtside : outside → outside') :
    Reads ((fun found => (f found.1, found.2)) <$> checked)
      ((fun found => (f found.1, found.2)) <$> plain) written' outside' := by
  rcases h with ⟨rfl, hplain⟩ | ⟨h, stop, rfl, hstop⟩
  · refine .inl ⟨(failing_map _ _).symm, fun value rest hvalue => ?_⟩
    cases plain with
    | error e => cases hvalue
    | ok found =>
      cases hvalue
      exact hwritten _ (hplain found.1 found.2 rfl)
  · exact .inr ⟨houtside h, stop, rfl, hstop⟩

/-! Strings. -/

theorem Enclosed.written {content : Bytes} (h : Enclosed content)
    (hescape : '\\'.toUInt8 ∉ content) : Written content := by
  induction h with
  | nil => exact .nil
  | plain hquote hplain _ ih =>
    exact .cons (.plain hquote hplain) (ih fun hmem => hescape (List.mem_cons_of_mem _ hmem))
  | escaped _ _ => exact absurd List.mem_cons_self hescape

theorem reads_string (dstBufferLength : Nat) (c : UInt8) (bufferPtr : Bytes) :
    Reads (Checked.decodeString dstBufferLength (c :: bufferPtr))
      (decodeString dstBufferLength (c :: bufferPtr)) (WrittenString (c :: bufferPtr))
      (UnsafeString (c :: bufferPtr)) := by
  unfold Checked.decodeString decodeString
  rw [readAt_cons_zero, pure_bind, List.head?_cons, List.tail_cons, List.drop_succ_cons,
    List.drop_zero]
  by_cases hquote : c = '"'.toUInt8
  · rw [if_neg (not_not.2 hquote), if_neg (by rw [hquote]; exact fun hne => hne rfl)]
    cases hscan : scanString bufferPtr with
    | none => exact reads_error .incomplete
    | some found =>
      obtain ⟨content, rest⟩ := found
      obtain ⟨rfl, henclosed⟩ := scanString_eq_some_iff.1 hscan
      dsimp only
      by_cases hlong : content.length ≥ dstBufferLength
      · rw [if_pos hlong, if_pos hlong]
        exact reads_error .dataTooLong
      rw [if_neg hlong, if_neg hlong, hquote]
      by_cases hplain : '\\'.toUInt8 ∉ content
      · have hcopy := unescape_plain hplain []
        rw [List.append_nil, unescape] at hcopy
        have hunescape : unescape content = .ok content :=
          hcopy.trans (congrArg Except.ok (List.append_nil content))
        rw [if_pos hplain, hunescape]
        refine .inl ⟨rfl, fun value rest' h => ?_⟩
        cases h
        exact .mk (henclosed.written hplain)
      rw [if_neg hplain]
      rcases copiedWell_or_unsafe ('"'.toUInt8 :: rest) henclosed with ⟨hcopy, hwritten⟩ | hunread
      · rw [hcopy]
        cases hunescape : unescape content with
        | error e => exact reads_error e
        | ok dst =>
          refine .inl ⟨rfl, fun value rest' h => ?_⟩
          cases h
          exact .mk (hwritten dst hunescape)
      · rw [hunread.outside]
        exact .inr ⟨.mk henclosed hunread, .outsideTable, rfl, rfl⟩
  · rw [if_pos hquote, if_pos fun heq => hquote (Option.some.inj heq)]
    exact reads_error .invalidCharacter

theorem UnsafeContent.escape_mem {content : Bytes} (h : UnsafeContent content) :
    '\\'.toUInt8 ∈ content := by
  cases h with
  | mk _ hescape =>
    refine List.mem_append_right _ ?_
    cases hescape with
    | basic _ _ => exact List.mem_cons_self
    | trail _ _ _ => exact List.mem_cons_self

theorem decodeString_written {text rest : Bytes} (h : WrittenString text rest)
    {dstBufferLength : Nat} (hlength : text.length ≤ dstBufferLength) :
    ∃ string, Checked.decodeString dstBufferLength text = .ok (string, rest) := by
  cases h with
  | @mk content _ hwritten =>
    obtain ⟨dst, -, hcopy⟩ := hwritten.unescapes
    have hscan : scanString (content ++ '"'.toUInt8 :: rest) = some (content, rest) :=
      scanString_eq_some_iff.2 ⟨rfl, hwritten.enclosed⟩
    rw [List.length_cons, List.length_append] at hlength
    unfold Checked.decodeString
    rw [readAt_cons_zero, pure_bind, if_neg (fun hne => hne rfl), List.drop_succ_cons,
      List.drop_zero, hscan]
    dsimp only
    rw [if_neg (by omega), hcopy]
    split
    · exact ⟨_, rfl⟩
    · exact ⟨_, rfl⟩

theorem decodeString_unsafe {text : Bytes} (h : UnsafeString text) {dstBufferLength : Nat}
    (hlength : text.length ≤ dstBufferLength) :
    Checked.decodeString dstBufferLength text = .error .outsideTable := by
  cases h with
  | @mk content rest henclosed hunread =>
    have hscan : scanString (content ++ '"'.toUInt8 :: rest) = some (content, rest) :=
      scanString_eq_some_iff.2 ⟨rfl, henclosed⟩
    rw [List.length_cons, List.length_append] at hlength
    unfold Checked.decodeString
    rw [readAt_cons_zero, pure_bind, if_neg (fun hne => hne rfl), List.drop_succ_cons,
      List.drop_zero, hscan]
    dsimp only
    rw [if_neg (by omega), if_neg (not_not.2 hunread.escape_mem), hunread.outside]
    rfl

/-! Literals and numbers. -/

theorem readLetters_eq (letters : Bytes) {bufferPtr : Bytes} {index : Nat}
    (hlength : index + letters.length ≤ bufferPtr.length) :
    readLetters bufferPtr index letters =
      pure (decide ((bufferPtr.drop index).take letters.length = letters)) := by
  induction letters generalizing index with
  | nil => rfl
  | cons letter letters ih =>
    rw [List.length_cons] at hlength
    have hindex : index < bufferPtr.length := by omega
    rw [readLetters, readAt, List.getElem?_eq_getElem hindex]
    dsimp only
    rw [pure_bind, ih (by omega), List.drop_eq_getElem_cons hindex, List.length_cons,
      List.take_succ_cons]
    by_cases hletter : bufferPtr[index] = letter
    · simp [hletter]
    · simp [hletter]

theorem checked_decodeLiteral {letter : UInt8} (letters : Bytes) (event : Event δ)
    (bufferPtr : Bytes) :
    Checked.decodeLiteral (letter :: letters) event (letter :: bufferPtr) =
      failing (decodeLiteral (letter :: letters) event (letter :: bufferPtr)) := by
  unfold Checked.decodeLiteral decodeLiteral
  by_cases hshort : (letter :: bufferPtr).length < (letter :: letters).length
  · rw [if_pos hshort, if_pos hshort]
    rfl
  · rw [if_neg hshort, if_neg hshort, List.tail_cons]
    simp only [List.length_cons, Nat.not_lt] at hshort
    rw [readLetters_eq letters (by rw [List.length_cons]; omega), pure_bind, List.drop_succ_cons,
      List.drop_zero, List.length_cons, List.take_succ_cons]
    by_cases hfound : bufferPtr.take letters.length = letters
    · simp [hfound, failing, Except.mapError, pure, Except.pure]
    · simp [hfound, failing, Except.mapError]
      rfl

theorem checked_decodeNumber (doubles : Doubles δ) (length : Nat) (negative : Bool)
    (start : Bytes) :
    Checked.decodeNumber doubles length negative start =
      failing (decodeNumber doubles length negative start) := by
  unfold Checked.decodeNumber decodeNumber
  generalize scanInteger 0 start = scanned
  obtain ⟨accum, isOverflow, bufferPtr⟩ := scanned
  cases bufferPtr with
  | nil => rfl
  | cons c bufferPtr =>
    dsimp only
    rw [if_neg (by rw [List.length_cons]; omega), readAt_cons_zero, pure_bind]
    split
    · rfl
    · split
      · rfl
      · cases (c :: bufferPtr).dropWhile isFPChar with
        | nil => rfl
        | cons d rest =>
          dsimp only
          rw [if_neg (by rw [List.length_cons]; omega)]
          split
          · rfl
          · rfl

theorem decodeLiteral_written {literal bufferPtr : Bytes} {event value : Event δ} {rest : Bytes}
    (h : decodeLiteral literal event bufferPtr = .ok (value, rest)) :
    bufferPtr = literal ++ rest := by
  unfold decodeLiteral at h
  split at h
  · cases h
  · split at h
    · cases h
    · rename_i hfound
      cases h
      rw [not_not] at hfound
      have hsplit := List.take_append_drop literal.length bufferPtr
      rw [hfound] at hsplit
      exact hsplit.symm

/-- A number that goes on up to the end of the buffer is not read. -/
theorem decodeNumber_incomplete (doubles : Doubles δ) (length : Nat) (negative : Bool)
    {start : Bytes} (hstart : ∀ c ∈ start, isFPChar c = true) :
    decodeNumber doubles length negative start = .error .incomplete := by
  have hleft : ∀ c ∈ (scanInteger 0 start).2.2, isFPChar c = true :=
    fun c hc => hstart c ((scanInteger_suffix 0 start).subset hc)
  unfold decodeNumber
  generalize scanInteger 0 start = scanned at hleft
  obtain ⟨accum, isOverflow, bufferPtr⟩ := scanned
  cases bufferPtr with
  | nil => rfl
  | cons c bufferPtr =>
    have hc := hleft c List.mem_cons_self
    dsimp only
    rw [if_neg (fun h => h.1 hc), if_neg (fun h => h.1 hc), List.dropWhile_eq_nil_iff.2 hleft]
    rfl

theorem decodeNumber_written (doubles : Doubles δ) {length : Nat} {negative : Bool}
    {digit : UInt8} (hdigit : isdigit digit = true) {more : Bytes} {event : Event δ} {rest : Bytes}
    (h : decodeNumber doubles length negative (digit :: more) = .ok (event, rest)) :
    WrittenNumber (digit :: more) rest := by
  have hfirst : isFPChar digit = true := by rw [isFPChar, hdigit, Bool.true_or]
  have hbody : ∀ c ∈ more.takeWhile isFPChar, isFPChar c = true := fun c => List.mem_takeWhile_imp
  cases hbehind : more.dropWhile isFPChar with
  | nil =>
    have hall := List.dropWhile_eq_nil_iff.1 hbehind
    rw [decodeNumber_incomplete doubles length negative
      (List.forall_mem_cons.2 ⟨hfirst, hall⟩)] at h
    cases h
  | cons c behind =>
    have hc : isFPChar c = false := by
      have hhead := List.head_dropWhile_not isFPChar (l := more)
        (by rw [hbehind]; exact List.cons_ne_nil _ _)
      simpa only [hbehind, List.head_cons] using hhead
    have hsplit : digit :: more = (digit :: more.takeWhile isFPChar) ++ c :: behind := by
      rw [List.cons_append, ← hbehind, List.takeWhile_append_dropWhile]
    rcases decodeNumber_larger (Nat.le_add_right length (digit :: more).length.succ) doubles
      negative (digit :: more) with hlong | hsame
    · rw [hlong] at h
      cases h
    · rw [hsame, hsplit, decodeNumber_eq doubles negative (List.all_eq_true.2
        (List.forall_mem_cons.2 ⟨hfirst, hbody⟩)) (by rw [List.length_append]; omega) hc] at h
      cases h
      rw [hsplit]
      exact .mk hdigit hbody hc

/-! Elements that are no containers. -/

theorem reads_plain {checked : Except Stop (α × Bytes)} {plain : Except JSONError (α × Bytes)}
    {written : Bytes → Prop} {outside : Prop} (hchecked : checked = failing plain)
    (hwritten : ∀ value rest, plain = .ok (value, rest) → written rest) :
    Reads checked plain written outside :=
  .inl ⟨hchecked, hwritten⟩

theorem reads_literal {letter : UInt8} {word : String} {letters : Bytes}
    (hword : ascii word = letter :: letters) (hmem : word ∈ ["false", "true", "null"])
    (event : Event δ) (bufferPtr : Bytes) (outside : Prop) :
    Reads (Checked.decodeLiteral (ascii word) event (letter :: bufferPtr))
      (decodeLiteral (ascii word) event (letter :: bufferPtr))
      (WrittenScalar (letter :: bufferPtr)) outside := by
  refine reads_plain ?_ fun value rest h => ?_
  · rw [hword]
    exact checked_decodeLiteral letters event bufferPtr
  · rw [decodeLiteral_written h]
    exact .literal hmem

theorem reads_scalar (doubles : Doubles δ) (length : Nat) (c : UInt8) (bufferPtr : Bytes) :
    Reads (Checked.decodeScalar doubles length c (c :: bufferPtr))
      (decodeScalar doubles length c bufferPtr) (WrittenScalar (c :: bufferPtr))
      (UnsafeScalar (c :: bufferPtr)) := by
  unfold Checked.decodeScalar decodeScalar
  by_cases hquote : c = '"'.toUInt8
  · rw [if_pos hquote, if_pos hquote]
    have hstring := reads_string length c bufferPtr
    exact hstring.map Event.stringElement (fun _ => .string) .string
  rw [if_neg hquote, if_neg hquote]
  by_cases hfalse : c = 'f'.toUInt8
  · rw [if_pos hfalse, if_pos hfalse, hfalse]
    exact reads_literal rfl (by decide) _ bufferPtr _
  rw [if_neg hfalse, if_neg hfalse]
  by_cases htrue : c = 't'.toUInt8
  · rw [if_pos htrue, if_pos htrue, htrue]
    exact reads_literal rfl (by decide) _ bufferPtr _
  rw [if_neg htrue, if_neg htrue]
  by_cases hnull : c = 'n'.toUInt8
  · rw [if_pos hnull, if_pos hnull, hnull]
    exact reads_literal rfl (by decide) _ bufferPtr _
  rw [if_neg hnull, if_neg hnull]
  by_cases hminus : c = '-'.toUInt8
  · rw [if_pos hminus, if_pos hminus, hminus, readAt_cons_succ, List.drop_succ_cons,
      List.drop_zero]
    cases bufferPtr with
    | nil => exact .inr ⟨.minus, .beyondEnd, rfl, rfl⟩
    | cons d more =>
      rw [readAt_cons_zero, pure_bind]
      dsimp only
      by_cases hdigit : isdigit d = true
      · rw [if_pos hdigit, if_pos hdigit]
        exact reads_plain (checked_decodeNumber doubles length true _)
          fun value rest h => .negative (decodeNumber_written doubles hdigit h)
      · rw [if_neg hdigit, if_neg hdigit]
        exact reads_error .invalidCharacter
  rw [if_neg hminus, if_neg hminus]
  by_cases hdigit : isdigit c = true
  · rw [if_pos hdigit, if_pos hdigit]
    exact reads_plain (checked_decodeNumber doubles length false _)
      fun value rest h => .number (decodeNumber_written doubles hdigit h)
  · rw [if_neg hdigit, if_neg hdigit]
    exact reads_error .invalidCharacter

theorem Reads.eq_ok {checked : Except Stop (α × Bytes)} {plain : Except JSONError (α × Bytes)}
    {written : Bytes → Prop} {outside : Prop} (h : Reads checked plain written outside)
    (hinside : ¬outside) {value : α} {rest : Bytes} (hplain : plain = .ok (value, rest)) :
    checked = .ok (value, rest) := by
  rcases h with ⟨hchecked, -⟩ | ⟨houtside, -⟩
  · rw [hchecked, hplain]
    rfl
  · exact absurd houtside hinside

theorem not_unsafeScalar {c : UInt8} {bufferPtr : Bytes} (hquote : c ≠ '"'.toUInt8)
    (hminus : c ≠ '-'.toUInt8) : ¬UnsafeScalar (c :: bufferPtr) := by
  intro h
  cases h with
  | string h =>
    cases h
    exact hquote rfl
  | minus => exact hminus rfl

/-- The number is read, if the buffer for strings has room for it. -/
theorem decodeNumber_ok (doubles : Doubles δ) {length : Nat} (negative : Bool) {text rest : Bytes}
    (h : WrittenNumber text rest) (hlength : text.length ≤ length) :
    ∃ event, decodeNumber doubles length negative text = .ok (event, rest) := by
  cases h with
  | @mk digit c body rest hdigit hbody hc =>
    have hfirst : isFPChar digit = true := by rw [isFPChar, hdigit, Bool.true_or]
    have hall : (digit :: body).all isFPChar = true :=
      List.all_eq_true.2 (List.forall_mem_cons.2 ⟨hfirst, hbody⟩)
    rw [List.length_cons, List.length_append, List.length_cons] at hlength
    exact ⟨_, decodeNumber_eq doubles negative hall (by rw [List.length_cons]; omega) hc rest⟩

theorem decodeScalar_written (doubles : Doubles δ) {length : Nat} {c : UInt8}
    {bufferPtr rest : Bytes} (h : WrittenScalar (c :: bufferPtr) rest)
    (hlength : (c :: bufferPtr).length ≤ length) :
    ∃ event, Checked.decodeScalar doubles length c (c :: bufferPtr) = .ok (event, rest) := by
  have hreads := reads_scalar doubles length c bufferPtr
  generalize htext : c :: bufferPtr = text at h
  cases h with
  | string h =>
    rw [htext] at hlength
    obtain ⟨string, hstring⟩ := decodeString_written h hlength
    have hquote : c = '"'.toUInt8 := by
      cases h
      exact (List.cons.inj htext).1
    refine ⟨.stringElement string, ?_⟩
    rw [Checked.decodeScalar, if_pos hquote, hstring]
    rfl
  | literal hword =>
    obtain ⟨hfalse, htrue, hnull⟩ := decodeScalar_literal doubles length rest
    simp only [List.mem_cons, List.not_mem_nil, or_false] at hword
    rcases hword with rfl | rfl | rfl
    · cases htext
      exact ⟨_, hreads.eq_ok (not_unsafeScalar (by decide) (by decide)) hfalse⟩
    · cases htext
      exact ⟨_, hreads.eq_ok (not_unsafeScalar (by decide) (by decide)) htrue⟩
    · cases htext
      exact ⟨_, hreads.eq_ok (not_unsafeScalar (by decide) (by decide)) hnull⟩
  | number h =>
    obtain ⟨event, hevent⟩ := decodeNumber_ok doubles false h (htext ▸ hlength)
    have hdigit : isdigit c = true := by
      cases h with
      | mk hdigit _ _ =>
        rw [(List.cons.inj htext).1]
        exact hdigit
    obtain ⟨-, -, -, -, hquote, -, -, -, hminus⟩ := isdigit_spec c hdigit
    rw [← htext] at hevent ⊢
    rw [← decodeScalar_digit doubles length hdigit] at hevent
    exact ⟨event, hreads.eq_ok (not_unsafeScalar hquote hminus) hevent⟩
  | negative h =>
    obtain ⟨rfl, rfl⟩ := List.cons.inj htext
    obtain ⟨event, hevent⟩ := decodeNumber_ok doubles true h (Nat.le_of_succ_le hlength)
    cases h with
    | mk hdigit _ _ =>
      rw [← decodeScalar_minus doubles length hdigit] at hevent
      refine ⟨event, hreads.eq_ok (fun houtside => ?_) hevent⟩
      cases houtside with
      | string h => cases h

theorem decodeScalar_unsafe (doubles : Doubles δ) {length : Nat} {c : UInt8} {bufferPtr : Bytes}
    (h : UnsafeScalar (c :: bufferPtr)) (hlength : (c :: bufferPtr).length ≤ length) :
    ∃ stop, Checked.decodeScalar doubles length c (c :: bufferPtr) = .error stop ∧
      stop.isOutside = true := by
  cases h with
  | string h =>
    have hquote : c = '"'.toUInt8 := by
      cases h
      rfl
    refine ⟨.outsideTable, ?_, rfl⟩
    rw [Checked.decodeScalar, if_pos hquote, decodeString_unsafe h hlength]
    rfl
  | minus => exact ⟨.beyondEnd, rfl, rfl⟩

/-! Names and commas. -/

theorem checked_skipComma (bufferPtr : Bytes) :
    Checked.skipComma bufferPtr = failing (skipComma bufferPtr) := by
  unfold Checked.skipComma skipComma
  cases skipWhitespace bufferPtr with
  | nil => rfl
  | cons c rest => rfl

theorem reads_name (length : Nat) (c : UInt8) (bufferPtr : Bytes) :
    Reads (Checked.decodeName length (c :: bufferPtr)) (decodeName length (c :: bufferPtr))
      (WrittenName (c :: bufferPtr)) (UnsafeString (c :: bufferPtr)) := by
  unfold Checked.decodeName
  rcases reads_string length c bufferPtr with
    ⟨hchecked, hwritten⟩ | ⟨hunread, stop, hstop, houtside⟩
  · rw [hchecked]
    cases hstring : decodeString length (c :: bufferPtr) with
    | error e =>
      rw [decodeName_error hstring]
      exact reads_error e
    | ok found =>
      obtain ⟨name, behind⟩ := found
      have hname := hwritten name behind hstring
      rw [failing_ok, ok_bind]
      dsimp only
      cases hcolon : skipWhitespace behind with
      | nil =>
        rw [decodeName_end hstring hcolon]
        exact reads_error .incomplete
      | cons d value =>
        rw [decodeName_cons hstring hcolon]
        rw [if_neg (by rw [List.length_cons]; omega), readAt_cons_zero, pure_bind]
        by_cases hd : d ≠ ':'.toUInt8
        · rw [if_pos hd, if_pos hd]
          exact reads_error .invalidCharacter
        · rw [if_neg hd, if_neg hd]
          refine reads_plain rfl fun string rest h => ?_
          cases h
          rw [not_not] at hd
          exact .mk hname (hd ▸ hcolon)
  · rw [hstop]
    exact .inr ⟨hunread, stop, rfl, houtside⟩

end SentryCocoa.JSONCodec
