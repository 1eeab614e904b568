import SentryCocoa.JSONReadTokens

/-! All bytes that the decoder reads. The source reads outside of the buffer, or of the table of
the digits, exactly where the text comes to an unsafe token. -/
namespace SentryCocoa.JSONCodec
open Checked SentryCocoa.Library.Simulation

variable {δ σ : Type}

/-! The places that a text comes to. A comma between two elements may be missing, and one may
stand behind the last of them. -/

def openingBracket (isObject : Bool) : UInt8 := if isObject then '\x7b'.toUInt8 else '['.toUInt8

def closingBracket (isObject : Bool) : UInt8 := if isObject then '\x7d'.toUInt8 else ']'.toUInt8

/-- An element, or a container behind its opening bracket and behind each of its elements. -/
inductive Part where
  | element
  | inside (isObject : Bool)

/-- What stands in front of an element in a container. -/
inductive Introduced : Bool → Bytes → Bytes → Prop
  | value (text : Bytes) : Introduced false text (skipWhitespace text)
  | entry {text value : Bytes} : WrittenName (skipWhitespace text) value →
      Introduced true text value

/-- What stands behind it. -/
inductive Separated : Bytes → Bytes → Prop
  | comma {text rest : Bytes} : skipWhitespace text = ','.toUInt8 :: rest → Separated text rest
  | noComma {text rest : Bytes} {c : UInt8} : skipWhitespace text = c :: rest → c ≠ ','.toUInt8 →
      Separated text (c :: rest)

/-- The text of the part goes up to the rest. -/
inductive Spells : Part → Bytes → Bytes → Prop
  | scalar {text rest : Bytes} : WrittenScalar (skipWhitespace text) rest →
      Spells .element text rest
  | container {isObject : Bool} {text inside rest : Bytes} :
      skipWhitespace text = openingBracket isObject :: inside →
      Spells (.inside isObject) inside rest → Spells .element text rest
  | closing {isObject : Bool} {text rest : Bytes} :
      skipWhitespace text = closingBracket isObject :: rest → Spells (.inside isObject) text rest
  | next {isObject : Bool} {text value behind next rest : Bytes} :
      Introduced isObject text value → Spells .element value behind → Separated behind next →
      Spells (.inside isObject) next rest → Spells (.inside isObject) text rest

/-- The text of the part comes to an unsafe token. -/
inductive ComesToUnsafe : Part → Bytes → Prop
  | scalar {text : Bytes} : UnsafeScalar (skipWhitespace text) → ComesToUnsafe .element text
  | container {isObject : Bool} {text inside : Bytes} :
      skipWhitespace text = openingBracket isObject :: inside →
      ComesToUnsafe (.inside isObject) inside → ComesToUnsafe .element text
  | name {text : Bytes} : UnsafeString (skipWhitespace text) → ComesToUnsafe (.inside true) text
  | value {isObject : Bool} {text value : Bytes} : Introduced isObject text value →
      ComesToUnsafe .element value → ComesToUnsafe (.inside isObject) text
  | next {isObject : Bool} {text value behind next : Bytes} : Introduced isObject text value →
      Spells .element value behind → Separated behind next →
      ComesToUnsafe (.inside isObject) next → ComesToUnsafe (.inside isObject) text

/-! The text that is left. -/

theorem WrittenString.length_lt {text rest : Bytes} (h : WrittenString text rest) :
    rest.length < text.length := by
  cases h
  simp only [List.length_cons, List.length_append]
  omega

theorem WrittenNumber.length_lt {text rest : Bytes} (h : WrittenNumber text rest) :
    rest.length < text.length := by
  cases h
  simp only [List.length_cons, List.length_append]
  omega

theorem WrittenScalar.length_lt {text rest : Bytes} (h : WrittenScalar text rest) :
    rest.length < text.length := by
  cases h with
  | string h => exact h.length_lt
  | literal hword =>
    simp only [List.mem_cons, List.not_mem_nil, or_false] at hword
    rw [List.length_append]
    rcases hword with rfl | rfl | rfl
    · exact Nat.lt_add_of_pos_left (by decide)
    · exact Nat.lt_add_of_pos_left (by decide)
    · exact Nat.lt_add_of_pos_left (by decide)
  | number h => exact h.length_lt
  | negative h => exact h.length_lt.trans (Nat.lt_succ_self _)

theorem skipWhitespace_cons_length {text rest : Bytes} {c : UInt8}
    (h : skipWhitespace text = c :: rest) : rest.length < text.length := by
  have hlength := skipWhitespace_length text
  rw [h] at hlength
  exact hlength

theorem WrittenName.length_lt {text value : Bytes} (h : WrittenName text value) :
    value.length < text.length := by
  cases h with
  | mk hstring hcolon =>
    have hbehind := skipWhitespace_cons_length hcolon
    exact ((skipWhitespace_length _).trans_lt hbehind).trans hstring.length_lt

theorem Introduced.length_le {isObject : Bool} {text value : Bytes}
    (h : Introduced isObject text value) : value.length ≤ text.length := by
  cases h with
  | value => exact skipWhitespace_length text
  | entry hname => exact hname.length_lt.le.trans (skipWhitespace_length text)

theorem Separated.length_le {text rest : Bytes} (h : Separated text rest) :
    rest.length ≤ text.length := by
  cases h with
  | comma hcomma => exact (skipWhitespace_cons_length hcomma).le
  | noComma hnext _ => exact skipWhitespace_cons_length hnext

theorem Spells.length_lt {part : Part} {text rest : Bytes} (h : Spells part text rest) :
    rest.length < text.length := by
  induction h with
  | scalar h => exact h.length_lt.trans_le (skipWhitespace_length _)
  | container hopen _ ih => exact ih.trans (skipWhitespace_cons_length hopen)
  | closing hclose => exact skipWhitespace_cons_length hclose
  | next hintroduced _ hseparated _ ih ihRest =>
    exact ihRest.trans_le (hseparated.length_le.trans (ih.le.trans hintroduced.length_le))

/-- What an element leaves to the rest of its container. -/
theorem Spells.next_length_lt {isObject : Bool} {text value behind next : Bytes}
    (hvalue : Spells .element value behind) (hintroduced : Introduced isObject text value)
    (hseparated : Separated behind next) : next.length < text.length :=
  (hseparated.length_le.trans_lt hvalue.length_lt).trans_le hintroduced.length_le

/-! The tokens of a container. -/

namespace Checked

/-- The name, where the element has one, and the buffer behind it. -/
def decodeIntroduction (nameBufferLength : Nat) (isObject : Bool) (bufferPtr : Bytes) :
    Except Stop (Option Bytes × Bytes) :=
  if isObject then (fun found => (some found.1, found.2)) <$> decodeName nameBufferLength bufferPtr
  else pure (none, bufferPtr)

end Checked

theorem separated_of_skipComma {text rest : Bytes} (h : skipComma text = .ok rest) :
    Separated text rest := by
  unfold skipComma at h
  cases hskip : skipWhitespace text with
  | nil =>
    rw [hskip] at h
    cases h
  | cons c behind =>
    rw [hskip] at h
    by_cases hc : c = ','.toUInt8
    · cases h
      rw [if_pos hc]
      exact .comma (hc ▸ hskip)
    · cases h
      rw [if_neg hc]
      exact .noComma hskip hc

theorem Separated.skipComma {text rest : Bytes} (h : Separated text rest) :
    JSONCodec.skipComma text = .ok rest := by
  unfold JSONCodec.skipComma
  cases h with
  | comma hcomma =>
    rw [hcomma]
    rfl
  | noComma hnext hc =>
    rw [hnext]
    dsimp only
    rw [if_neg hc]
    rfl

section

variable (doubles : Doubles δ) (buffers : DecodeBuffers)
variable (callbacks : Option Bytes → Event δ → EStateM JSONError σ Unit)

def decodePart (fuel : Nat) (name : Option Bytes) (text : Bytes) : Part → EStateM Stop σ Bytes
  | .element => Checked.decodeElement doubles buffers callbacks fuel name text
  | .inside false => Checked.decodeArray doubles buffers callbacks fuel text
  | .inside true => Checked.decodeObject doubles buffers callbacks fuel text

/-- Each of the brackets of a container is behind at least one byte. -/
def partFuel (length : Nat) : Part → Nat
  | .element => 2 * length + 1
  | .inside _ => 2 * length + 2

theorem exists_fuel {length fuel : Nat} {part : Part} (h : partFuel length part ≤ fuel) :
    ∃ less, fuel = less + 1 := by
  cases fuel with
  | zero => cases part <;> exact absurd h (Nat.not_succ_le_zero _)
  | succ less => exact ⟨less, rfl⟩

/-- Behind a bracket. -/
theorem partFuel_inside {length length' fuel : Nat} (h : partFuel length .element ≤ fuel + 1)
    (hlt : length' < length) (isObject : Bool) : partFuel length' (.inside isObject) ≤ fuel := by
  simp only [partFuel] at h ⊢
  omega

/-- Behind the name of an entry, or at a value of an array. -/
theorem partFuel_value {length length' fuel : Nat} {isObject : Bool}
    (h : partFuel length (.inside isObject) ≤ fuel + 1) (hle : length' ≤ length) :
    partFuel length' .element ≤ fuel := by
  simp only [partFuel] at h ⊢
  omega

/-- Behind an element of a container. -/
theorem partFuel_next {length length' fuel : Nat} {isObject : Bool}
    (h : partFuel length (.inside isObject) ≤ fuel + 1) (hlt : length' < length) :
    partFuel length' (.inside isObject) ≤ fuel := by
  simp only [partFuel] at h ⊢
  omega

variable {doubles buffers callbacks}

theorem decodePart_nil (fuel : Nat) (name : Option Bytes) {text : Bytes}
    (h : skipWhitespace text = []) (part : Part) :
    decodePart doubles buffers callbacks (fuel + 1) name text part =
      throw (.failed .incomplete) := by
  have hlength : (skipWhitespace text).length = 0 := by rw [h]; rfl
  match part with
  | .element =>
    rw [decodePart, Checked.decodeElement]
    exact if_pos hlength
  | .inside false =>
    rw [decodePart, Checked.decodeArray]
    exact if_pos hlength
  | .inside true =>
    rw [decodePart, Checked.decodeObject]
    exact if_pos hlength

theorem decodePart_element (fuel : Nat) (name : Option Bytes) {text rest : Bytes} {c : UInt8}
    (h : skipWhitespace text = c :: rest) :
    decodePart doubles buffers callbacks (fuel + 1) name text .element =
      (if c = '['.toUInt8 then do
        callBack callbacks name .beginArray
        decodePart doubles buffers callbacks fuel none rest (.inside false)
      else if c = '\x7b'.toUInt8 then do
        callBack callbacks name .beginObject
        decodePart doubles buffers callbacks fuel none rest (.inside true)
      else do
        let found ← liftExcept
          (Checked.decodeScalar doubles buffers.stringBufferLength c (c :: rest))
        callBack callbacks name found.1
        pure found.2) := by
  rw [decodePart, Checked.decodeElement, h]
  rfl

theorem decodePart_inside (fuel : Nat) (name : Option Bytes) {text rest : Bytes} {c : UInt8}
    (h : skipWhitespace text = c :: rest) (isObject : Bool) :
    decodePart doubles buffers callbacks (fuel + 1) name text (.inside isObject) =
      (if c = closingBracket isObject then do
        callBack callbacks none .endContainer
        pure rest
      else do
        let found ← liftExcept (decodeIntroduction buffers.nameBufferLength isObject (c :: rest))
        let behind ← decodePart doubles buffers callbacks fuel found.1 found.2 .element
        let next ← liftExcept (Checked.skipComma behind)
        decodePart doubles buffers callbacks fuel none next (.inside isObject)) := by
  cases isObject with
  | false =>
    rw [decodePart, Checked.decodeArray, h]
    rfl
  | true =>
    rw [decodePart, Checked.decodeObject, h, decodeIntroduction, if_pos rfl]
    cases Checked.decodeName buffers.nameBufferLength (c :: rest) with
    | error stop => rfl
    | ok found => rfl

/-! What the decoder comes to, the text comes to. -/

/-- The result of a part: its text is spelled up to where the decoder stands, or it comes to an
unsafe token if the decoder reads outside. -/
structure Sound (part : Part) (text : Bytes) (result : EStateM.Result Stop σ Bytes) : Prop where
  ok : ∀ rest userData, result = .ok rest userData → Spells part text rest
  error : ∀ stop userData, result = .error stop userData →
    stop ≠ .outOfFuel ∧ (stop.isOutside = true → ComesToUnsafe part text)

variable {part part' : Part} {text text' : Bytes} {userData : σ}

theorem Sound.mono {result : EStateM.Result Stop σ Bytes} (h : Sound part text result)
    (hspells : ∀ rest, Spells part text rest → Spells part' text' rest)
    (hunread : ComesToUnsafe part text → ComesToUnsafe part' text') : Sound part' text' result where
  ok rest userData hresult := hspells rest (h.ok rest userData hresult)
  error stop userData hresult :=
    (h.error stop userData hresult).imp_right fun houtside hstop => hunread (houtside hstop)

theorem sound_error {stop : Stop} (hfuel : stop ≠ .outOfFuel)
    (houtside : stop.isOutside = true → ComesToUnsafe part text) :
    Sound part text (.error stop userData) where
  ok _ _ h := nomatch h
  error stop' userData' h := by
    cases h
    exact ⟨hfuel, houtside⟩

theorem sound_failed (e : JSONError) : Sound part text (.error (.failed e) userData) :=
  sound_error (fun h => nomatch h) fun h => nomatch h

theorem sound_callBack {name : Option Bytes} {event : Event δ} {next : EStateM Stop σ Bytes}
    (h : ∀ userData, Sound part text (next userData)) :
    Sound part text ((do callBack callbacks name event; next) userData) := by
  cases hcallback : callbacks name event userData with
  | ok _ userData' =>
    have hrun : callBack callbacks name event userData = .ok () userData' := by
      rw [callBack, hcallback]
    rw [run_bind_ok hrun]
    exact h userData'
  | error e userData' =>
    have hrun : callBack callbacks name event userData = .error (.failed e) userData' := by
      rw [callBack, hcallback]
    rw [run_bind_error hrun]
    exact sound_failed e

/-- What follows a token. -/
theorem Reads.sound {α : Type} {checked : Except Stop (α × Bytes)}
    {plain : Except JSONError (α × Bytes)} {written : Bytes → Prop} {outside : Prop}
    (hreads : Reads checked plain written outside) (houtside : outside → ComesToUnsafe part text)
    {next : α × Bytes → EStateM Stop σ Bytes}
    (h : ∀ value rest, written rest → Sound part text (next (value, rest) userData)) :
    Sound part text ((do next (← liftExcept checked)) userData) := by
  rcases hreads with ⟨rfl, hwritten⟩ | ⟨hunread, stop, rfl, hstop⟩
  · cases plain with
    | error e => exact sound_failed e
    | ok found => exact h found.1 found.2 (hwritten found.1 found.2 rfl)
  · refine sound_error (fun heq => ?_) fun _ => houtside hunread
    rw [heq] at hstop
    cases hstop

theorem reads_introduction (length : Nat) (isObject : Bool) {rest : Bytes} {c : UInt8}
    (h : skipWhitespace text = c :: rest) :
    ∃ plain, Reads (decodeIntroduction length isObject (c :: rest)) plain
      (Introduced isObject text) (isObject = true ∧ UnsafeString (skipWhitespace text)) := by
  cases isObject with
  | false =>
    refine ⟨pure (none, c :: rest), reads_plain rfl fun value behind hplain => ?_⟩
    cases hplain
    rw [← h]
    exact .value text
  | true =>
    refine ⟨_, (reads_name length c rest).map some (fun value hname => ?_) fun hunread => ?_⟩
    · exact .entry (h ▸ hname)
    · exact ⟨rfl, h ▸ hunread⟩

theorem sound_decodePart (fuel : Nat) (part : Part) (name : Option Bytes) (text : Bytes)
    (userData : σ) (hfuel : partFuel text.length part ≤ fuel) :
    Sound part text (decodePart doubles buffers callbacks fuel name text part userData) := by
  induction fuel generalizing part name text userData with
  | zero => cases part <;> exact absurd hfuel (Nat.not_succ_le_zero _)
  | succ fuel ih =>
    cases hskip : skipWhitespace text with
    | nil =>
      rw [decodePart_nil fuel name hskip part]
      exact sound_failed .incomplete
    | cons c rest =>
      have hlength := skipWhitespace_cons_length hskip
      cases part with
      | element =>
        have hinside := partFuel_inside hfuel hlength
        rw [decodePart_element fuel name hskip]
        by_cases harray : c = '['.toUInt8
        · rw [if_pos harray]
          rw [harray] at hskip
          exact sound_callBack fun userData => (ih _ none rest userData (hinside false)).mono
            (fun _ => .container hskip) (.container hskip)
        rw [if_neg harray]
        by_cases hobject : c = '\x7b'.toUInt8
        · rw [if_pos hobject]
          rw [hobject] at hskip
          exact sound_callBack fun userData => (ih _ none rest userData (hinside true)).mono
            (fun _ => .container hskip) (.container hskip)
        rw [if_neg hobject]
        apply (reads_scalar doubles buffers.stringBufferLength c rest).sound
        · exact fun hunread => .scalar (hskip ▸ hunread)
        · intro event behind hwritten
          apply sound_callBack
          intro userData
          refine ⟨fun rest' _ h => ?_, fun _ _ h => nomatch h⟩
          cases h
          exact .scalar (hskip ▸ hwritten)
      | inside isObject =>
        rw [decodePart_inside fuel name hskip isObject]
        by_cases hclosing : c = closingBracket isObject
        · rw [if_pos hclosing]
          apply sound_callBack
          intro userData
          refine ⟨fun rest' _ h => ?_, fun _ _ h => nomatch h⟩
          cases h
          exact .closing (hclosing ▸ hskip)
        rw [if_neg hclosing]
        obtain ⟨plain, hreads⟩ :=
          reads_introduction buffers.nameBufferLength isObject hskip
        apply hreads.sound
        · rintro ⟨rfl, hunread⟩
          exact .name hunread
        · intro name' value hintroduced
          have hvalue := hintroduced.length_le
          have helement := ih .element name' value userData (partFuel_value hfuel hvalue)
          cases hrun : decodePart doubles buffers callbacks fuel name' value .element userData with
          | error stop userData' =>
            rw [run_bind_error hrun]
            obtain ⟨hstop, houtside⟩ := helement.error stop userData' hrun
            exact sound_error hstop fun h => .value hintroduced (houtside h)
          | ok behind userData' =>
            rw [run_bind_ok hrun, checked_skipComma]
            have hspells := helement.ok behind userData' hrun
            cases hcomma : skipComma behind with
            | error e => exact sound_failed e
            | ok next =>
              have hseparated := separated_of_skipComma hcomma
              have hnext := hspells.next_length_lt hintroduced hseparated
              exact (ih (.inside isObject) none next userData' (partFuel_next hfuel hnext)).mono
                (fun _ => .next hintroduced hspells hseparated)
                (.next hintroduced hspells hseparated)

end

/-! What the text comes to, the decoder comes to, if its callbacks accept what they get. -/

def IsBracket (c : UInt8) : Prop := c ∈ ['[', ']', '\x7b', '\x7d'].map Char.toUInt8

theorem WrittenScalar.head {text rest : Bytes} (h : WrittenScalar text rest) :
    ∃ c more, text = c :: more ∧ ¬IsBracket c := by
  have hnumber {text : Bytes} (h : WrittenNumber text rest) :
      ∃ c more, text = c :: more ∧ ¬IsBracket c := by
    cases h with
    | @mk digit _ _ _ hdigit _ _ =>
      refine ⟨digit, _, rfl, fun hbracket => ?_⟩
      simp only [IsBracket, List.map_cons, List.map_nil, List.mem_cons, List.not_mem_nil,
        or_false] at hbracket
      rcases hbracket with rfl | rfl | rfl | rfl <;> exact absurd hdigit (by decide)
  cases h with
  | string h =>
    cases h
    exact ⟨_, _, rfl, by unfold IsBracket; decide⟩
  | literal hword =>
    simp only [List.mem_cons, List.not_mem_nil, or_false] at hword
    rcases hword with rfl | rfl | rfl
    · exact ⟨_, _, rfl, by unfold IsBracket; decide⟩
    · exact ⟨_, _, rfl, by unfold IsBracket; decide⟩
    · exact ⟨_, _, rfl, by unfold IsBracket; decide⟩
  | number h => exact hnumber h
  | negative h => exact ⟨_, _, rfl, by unfold IsBracket; decide⟩

theorem UnsafeScalar.head {text : Bytes} (h : UnsafeScalar text) :
    ∃ c more, text = c :: more ∧ ¬IsBracket c := by
  cases h with
  | string h =>
    cases h
    exact ⟨_, _, rfl, by unfold IsBracket; decide⟩
  | minus => exact ⟨_, _, rfl, by unfold IsBracket; decide⟩

theorem isBracket_closing (isObject : Bool) : IsBracket (closingBracket isObject) := by
  unfold IsBracket closingBracket
  cases isObject <;> decide

theorem opening_ne_closing (isObject isObject' : Bool) :
    openingBracket isObject ≠ closingBracket isObject' := by
  cases isObject <;> cases isObject' <;> decide

theorem isBracket_array : IsBracket '['.toUInt8 := by unfold IsBracket; decide

theorem isBracket_object : IsBracket '\x7b'.toUInt8 := by unfold IsBracket; decide

theorem ne_of_not_isBracket {c bracket : UInt8} (hc : ¬IsBracket c) (hbracket : IsBracket bracket) :
    c ≠ bracket :=
  fun heq => hc (heq ▸ hbracket)

/-- An element does not begin with the bracket that ends a container. -/
theorem Spells.head {text rest : Bytes} (h : Spells .element text rest) :
    ∃ c more, skipWhitespace text = c :: more ∧ ∀ isObject, c ≠ closingBracket isObject := by
  cases h with
  | scalar h =>
    obtain ⟨c, more, heq, hbracket⟩ := h.head
    exact ⟨c, more, heq, fun isObject => ne_of_not_isBracket hbracket (isBracket_closing isObject)⟩
  | container hopen _ => exact ⟨_, _, hopen, opening_ne_closing _⟩

theorem ComesToUnsafe.head {text : Bytes} (h : ComesToUnsafe .element text) :
    ∃ c more, skipWhitespace text = c :: more ∧ ∀ isObject, c ≠ closingBracket isObject := by
  cases h with
  | scalar h =>
    obtain ⟨c, more, heq, hbracket⟩ := h.head
    exact ⟨c, more, heq, fun isObject => ne_of_not_isBracket hbracket (isBracket_closing isObject)⟩
  | container hopen _ => exact ⟨_, _, hopen, opening_ne_closing _⟩

theorem Introduced.head {isObject : Bool} {text value : Bytes}
    (h : Introduced isObject text value)
    (hvalue : ∃ c more, skipWhitespace value = c :: more ∧
      ∀ isObject, c ≠ closingBracket isObject) :
    ∃ c more, skipWhitespace text = c :: more ∧ c ≠ closingBracket isObject := by
  cases h with
  | value =>
    obtain ⟨c, more, heq, hc⟩ := hvalue
    rw [skipWhitespace_idem] at heq
    exact ⟨c, more, heq, hc false⟩
  | entry hname =>
    generalize skipWhitespace text = behind at hname
    cases hname with
    | mk hstring _ =>
      cases hstring
      exact ⟨_, _, rfl, by decide⟩

section

variable {doubles : Doubles δ} {buffers : DecodeBuffers}
variable {callbacks : Option Bytes → Event δ → EStateM JSONError σ Unit}

/-- No callback fails, and the buffers for names and strings have room for all of the text. -/
structure Accepts (buffers : DecodeBuffers)
    (callbacks : Option Bytes → Event δ → EStateM JSONError σ Unit) (length : Nat) : Prop where
  callbacks : ∀ name event userData, ∃ userData', callbacks name event userData = .ok () userData'
  name : length ≤ buffers.nameBufferLength
  string : length ≤ buffers.stringBufferLength

theorem Accepts.mono {length length' : Nat} (h : Accepts buffers callbacks length)
    (hle : length' ≤ length) : Accepts buffers callbacks length' :=
  ⟨h.callbacks, hle.trans h.name, hle.trans h.string⟩

theorem Accepts.callBack {length : Nat} (h : Accepts buffers callbacks length)
    (name : Option Bytes) (event : Event δ) (userData : σ) :
    ∃ userData', ∀ {α : Type} (next : EStateM Stop σ α),
      (do Checked.callBack callbacks name event; next) userData = next userData' := by
  obtain ⟨userData', hcallback⟩ := h.callbacks name event userData
  refine ⟨userData', fun next => ?_⟩
  have hrun : Checked.callBack callbacks name event userData = .ok () userData' := by
    rw [Checked.callBack, hcallback]
  exact run_bind_ok hrun

theorem decodeIntroduction_introduced {length : Nat} {isObject : Bool} {text value : Bytes}
    (h : Introduced isObject text value) (hlength : (skipWhitespace text).length ≤ length) :
    ∃ name, decodeIntroduction length isObject (skipWhitespace text) = .ok (name, value) := by
  cases h with
  | value => exact ⟨none, rfl⟩
  | entry hname =>
    generalize skipWhitespace text = text' at hname hlength
    cases hname with
    | mk hstring hcolon =>
      obtain ⟨string, hdecode⟩ := decodeString_written hstring hlength
      refine ⟨some string, ?_⟩
      rw [decodeIntroduction, if_pos rfl, Checked.decodeName, hdecode, ok_bind]
      dsimp only
      rw [hcolon]
      rfl

/-- A container, as the decoder enters it. -/
theorem Accepts.enters {text inside : Bytes} {isObject : Bool}
    (h : Accepts buffers callbacks text.length)
    (hopen : skipWhitespace text = openingBracket isObject :: inside) (fuel : Nat)
    (name : Option Bytes) (userData : σ) :
    ∃ userData', decodePart doubles buffers callbacks (fuel + 1) name text .element userData =
      decodePart doubles buffers callbacks fuel none inside (.inside isObject) userData' := by
  rw [decodePart_element fuel name hopen]
  cases isObject with
  | false =>
    obtain ⟨userData', hrun⟩ := h.callBack name .beginArray userData
    exact ⟨userData', hrun _⟩
  | true =>
    obtain ⟨userData', hrun⟩ := h.callBack name .beginObject userData
    exact ⟨userData', hrun _⟩

/-- An element of a container, behind its name. -/
theorem Accepts.introduces {text value : Bytes} {isObject : Bool}
    (h : Accepts buffers callbacks text.length) (hintroduced : Introduced isObject text value)
    (hvalue : ∃ c more, skipWhitespace value = c :: more ∧
      ∀ isObject, c ≠ closingBracket isObject)
    (fuel : Nat) (name : Option Bytes) :
    ∃ name', decodePart doubles buffers callbacks (fuel + 1) name text (.inside isObject) = (do
      let behind ← decodePart doubles buffers callbacks fuel name' value .element
      let next ← liftExcept (Checked.skipComma behind)
      decodePart doubles buffers callbacks fuel none next (.inside isObject)) := by
  obtain ⟨c, more, hskip, hc⟩ := hintroduced.head hvalue
  obtain ⟨name', hname⟩ := decodeIntroduction_introduced hintroduced
    ((skipWhitespace_length text).trans h.name)
  refine ⟨name', ?_⟩
  rw [decodePart_inside fuel name hskip, if_neg hc, ← hskip, hname]
  rfl

/-- An element that is decoded, with what stands behind it. -/
theorem Accepts.passes {text value behind next : Bytes} {isObject : Bool}
    (h : Accepts buffers callbacks text.length) (hintroduced : Introduced isObject text value)
    (hvalue : Spells .element value behind) (hseparated : Separated behind next) {fuel : Nat}
    {userData : σ} (hdecodes : ∀ name', ∃ userData',
      decodePart doubles buffers callbacks fuel name' value .element userData = .ok behind userData')
    (name : Option Bytes) :
    ∃ userData', decodePart doubles buffers callbacks (fuel + 1) name text (.inside isObject)
        userData =
      decodePart doubles buffers callbacks fuel none next (.inside isObject) userData' := by
  obtain ⟨name', hrun⟩ := h.introduces hintroduced hvalue.head fuel name
  obtain ⟨userData', helement⟩ := hdecodes name'
  refine ⟨userData', ?_⟩
  rw [hrun, run_bind_ok helement, checked_skipComma, hseparated.skipComma]
  rfl

theorem Spells.decodes {part : Part} {text rest : Bytes} (h : Spells part text rest)
    (haccepts : Accepts buffers callbacks text.length) (fuel : Nat) (name : Option Bytes)
    (userData : σ) (hfuel : partFuel text.length part ≤ fuel) :
    ∃ userData', decodePart doubles buffers callbacks fuel name text part userData =
      .ok rest userData' := by
  induction h generalizing fuel name userData with
  | @scalar text rest hscalar =>
    obtain ⟨fuel, rfl⟩ := exists_fuel hfuel
    obtain ⟨c, more, heq, hbracket⟩ := hscalar.head
    have hlength := skipWhitespace_length text
    rw [heq] at hscalar hlength
    obtain ⟨event, hdecode⟩ :=
      decodeScalar_written doubles hscalar (hlength.trans haccepts.string)
    obtain ⟨userData', hrun⟩ := haccepts.callBack name event userData
    refine ⟨userData', ?_⟩
    rw [decodePart_element fuel name heq, if_neg (ne_of_not_isBracket hbracket isBracket_array),
      if_neg (ne_of_not_isBracket hbracket isBracket_object), hdecode]
    exact hrun _
  | @container isObject text inside rest hopen _ ih =>
    have hlength := skipWhitespace_cons_length hopen
    obtain ⟨fuel, rfl⟩ := exists_fuel hfuel
    obtain ⟨userData', henters⟩ := haccepts.enters hopen fuel name userData
    rw [henters]
    exact ih (haccepts.mono hlength.le) fuel none userData' (partFuel_inside hfuel hlength isObject)
  | @closing isObject text rest hclose =>
    obtain ⟨fuel, rfl⟩ := exists_fuel hfuel
    obtain ⟨userData', hrun⟩ := haccepts.callBack none .endContainer userData
    refine ⟨userData', ?_⟩
    rw [decodePart_inside fuel name hclose, if_pos rfl]
    exact hrun _
  | @next isObject text value behind next rest hintroduced hvalue hseparated _ ih ihRest =>
    have hlength := hvalue.next_length_lt hintroduced hseparated
    have hvalueLength := hintroduced.length_le
    obtain ⟨fuel, rfl⟩ := exists_fuel hfuel
    obtain ⟨userData', hpasses⟩ := haccepts.passes hintroduced hvalue hseparated
      (fun name' => ih (haccepts.mono hvalueLength) fuel name' userData
        (partFuel_value hfuel hvalueLength)) name
    rw [hpasses]
    exact ihRest (haccepts.mono hlength.le) fuel none userData' (partFuel_next hfuel hlength)

theorem ComesToUnsafe.stops {part : Part} {text : Bytes} (h : ComesToUnsafe part text)
    (haccepts : Accepts buffers callbacks text.length) (fuel : Nat) (name : Option Bytes)
    (userData : σ) (hfuel : partFuel text.length part ≤ fuel) :
    ∃ stop userData', decodePart doubles buffers callbacks fuel name text part userData =
      .error stop userData' ∧ stop.isOutside = true := by
  induction h generalizing fuel name userData with
  | @scalar text hscalar =>
    obtain ⟨fuel, rfl⟩ := exists_fuel hfuel
    obtain ⟨c, more, heq, hbracket⟩ := hscalar.head
    have hlength := skipWhitespace_length text
    rw [heq] at hscalar hlength
    obtain ⟨stop, hdecode, hstop⟩ :=
      decodeScalar_unsafe doubles hscalar (hlength.trans haccepts.string)
    refine ⟨stop, userData, ?_, hstop⟩
    rw [decodePart_element fuel name heq, if_neg (ne_of_not_isBracket hbracket isBracket_array),
      if_neg (ne_of_not_isBracket hbracket isBracket_object), hdecode]
    rfl
  | @container isObject text inside hopen _ ih =>
    have hlength := skipWhitespace_cons_length hopen
    obtain ⟨fuel, rfl⟩ := exists_fuel hfuel
    obtain ⟨userData', henters⟩ := haccepts.enters hopen fuel name userData
    rw [henters]
    exact ih (haccepts.mono hlength.le) fuel none userData' (partFuel_inside hfuel hlength isObject)
  | @name text hname =>
    obtain ⟨fuel, rfl⟩ := exists_fuel hfuel
    have hlength := (skipWhitespace_length text).trans haccepts.name
    have hdecode := decodeString_unsafe hname hlength
    obtain ⟨c, more, heq, hc⟩ : ∃ c more, skipWhitespace text = c :: more ∧
        c ≠ closingBracket true := by
      generalize skipWhitespace text = string at hname
      cases hname
      exact ⟨_, _, rfl, by decide⟩
    refine ⟨.outsideTable, userData, ?_, rfl⟩
    rw [decodePart_inside fuel name heq, if_neg hc, ← heq, decodeIntroduction, if_pos rfl,
      Checked.decodeName, hdecode]
    rfl
  | @value isObject text value hintroduced hvalue ih =>
    have hvalueLength := hintroduced.length_le
    obtain ⟨fuel, rfl⟩ := exists_fuel hfuel
    obtain ⟨name', hrun⟩ := haccepts.introduces hintroduced hvalue.head fuel name
    obtain ⟨stop, userData', helement, hstop⟩ := ih (haccepts.mono hvalueLength) fuel name'
      userData (partFuel_value hfuel hvalueLength)
    refine ⟨stop, userData', ?_, hstop⟩
    rw [hrun, run_bind_error helement]
  | @next isObject text value behind next hintroduced hvalue hseparated _ ihRest =>
    have hlength := hvalue.next_length_lt hintroduced hseparated
    have hvalueLength := hintroduced.length_le
    obtain ⟨fuel, rfl⟩ := exists_fuel hfuel
    obtain ⟨userData', hpasses⟩ := haccepts.passes hintroduced hvalue hseparated
      (fun name' => hvalue.decodes (haccepts.mono hvalueLength) fuel name' userData
        (partFuel_value hfuel hvalueLength)) name
    rw [hpasses]
    exact ihRest (haccepts.mono hlength.le) fuel none userData' (partFuel_next hfuel hlength)

end

/-! The whole data. -/

/-- The decoding ends, and nothing is read outside, whatever the callbacks do and however large
the buffers are. -/
def ReadsInside (doubles : Doubles δ) (data : Bytes) : Prop :=
  ∀ (σ : Type) (callbacks : Option Bytes → Event δ → EStateM JSONError σ Unit)
    (stringBufferLength : Nat) (userData : σ) (stop : Stop) (userData' : σ),
    Checked.decode doubles callbacks data stringBufferLength userData = .error stop userData' →
      stop ≠ .outOfFuel ∧ stop.isOutside = false

/-- The buffer for names is a quarter of what the caller has. -/
def splitBuffer (stringBufferLength : Nat) : DecodeBuffers :=
  ⟨stringBufferLength / 4, stringBufferLength - stringBufferLength / 4⟩

section

variable {doubles : Doubles δ} {callbacks : Option Bytes → Event δ → EStateM JSONError σ Unit}
variable {data : Bytes} {stringBufferLength : Nat} {userData userData' : σ} {stop : Stop}

theorem decode_stops
    (h : decodePart doubles (splitBuffer stringBufferLength) callbacks (decodeFuel data.length) none
      data .element userData = .error stop userData') :
    Checked.decode doubles callbacks data stringBufferLength userData = .error stop userData' :=
  run_bind_error h

/-- The decoder always ends, and where it reads outside the text comes to an unsafe token. -/
theorem decode_error
    (h : Checked.decode doubles callbacks data stringBufferLength userData =
      .error stop userData') :
    stop ≠ .outOfFuel ∧ (stop.isOutside = true → ComesToUnsafe .element data) := by
  have hsound : Sound .element data (decodePart doubles (splitBuffer stringBufferLength) callbacks
      (decodeFuel data.length) none data .element userData) :=
    sound_decodePart (decodeFuel data.length) .element none data userData (Nat.le_refl _)
  change (do
    let _ ← decodePart doubles (splitBuffer stringBufferLength) callbacks (decodeFuel data.length)
      none data .element
    callBack callbacks none .endData) userData = _ at h
  cases hrun : decodePart doubles (splitBuffer stringBufferLength) callbacks
      (decodeFuel data.length) none data .element userData with
  | error stop' userData'' =>
    rw [run_bind_error hrun] at h
    cases h
    exact hsound.error stop userData' hrun
  | ok rest userData'' =>
    rw [run_bind_ok hrun, callBack] at h
    cases hcallback : callbacks none .endData userData'' with
    | ok _ _ =>
      rw [hcallback] at h
      cases h
    | error e _ =>
      rw [hcallback] at h
      cases h
      exact ⟨fun heq => (nomatch heq), fun heq => (nomatch heq)⟩

theorem not_readsInside_of_comesToUnsafe (h : ComesToUnsafe .element data) :
    ¬ReadsInside doubles data := by
  intro hinside
  let callbacks : Option Bytes → Event δ → EStateM JSONError Unit Unit := fun _ _ => pure ()
  have haccepts : Accepts (splitBuffer (4 * data.length)) callbacks data.length := by
    refine ⟨fun _ _ userData => ⟨userData, rfl⟩, ?_, ?_⟩
    · change data.length ≤ 4 * data.length / 4
      omega
    · change data.length ≤ 4 * data.length - 4 * data.length / 4
      omega
  obtain ⟨stop, userData', hrun, hstop⟩ :=
    h.stops haccepts (decodeFuel data.length) none () (Nat.le_refl _)
  obtain ⟨-, houtside⟩ :=
    hinside Unit callbacks (4 * data.length) () stop userData' (decode_stops hrun)
  rw [houtside] at hstop
  cases hstop

end

theorem readsInside_iff (doubles : Doubles δ) (data : Bytes) :
    ReadsInside doubles data ↔ ¬ComesToUnsafe .element data := by
  constructor
  · exact fun hinside hunread => not_readsInside_of_comesToUnsafe hunread hinside
  · intro hsafe σ callbacks stringBufferLength userData stop userData' h
    obtain ⟨hfuel, houtside⟩ := decode_error h
    exact ⟨hfuel, Bool.eq_false_iff.2 fun hstop => hsafe (houtside hstop)⟩

/-- A minus sign that ends the data, and a byte with its highest bit set among the digits of an
escape. -/
theorem minus_and_high_digit_read_outside :
    ¬ReadsInside exampleDoubles (ascii "-") ∧
      ¬ReadsInside exampleDoubles (ascii "\"\\u00" ++ [0xC3, 0xA9] ++ ascii "\"") := by
  constructor
  · exact not_readsInside_of_comesToUnsafe (.scalar .minus)
  · have hdigits : ∃ c ∈ ascii "00" ++ [0xC3, 0xA9], ¬InTable c := ⟨0xC3, by decide, by decide⟩
    have hescape := @UnsafeEscape.basic (ascii "00" ++ [0xC3, 0xA9]) [] (by decide) hdigits
    have henclosed : Enclosed (ascii "\\u00" ++ [0xC3, 0xA9]) :=
      .escaped (.plain (by decide) (by decide) (.plain (by decide) (by decide)
        (.plain (by decide) (by decide) (.plain (by decide) (by decide) .nil))))
    have hstring := @UnsafeString.mk _ [] henclosed hescape.content
    exact not_readsInside_of_comesToUnsafe (.scalar (.string hstring))

end SentryCocoa.JSONCodec
