import SentryCocoa.JSONDocumentPaths

/-! What was read from a text that the encoder wrote is written and read again without a
change. For doubles this rests on the C library, whose texts have few enough digits to be read
and printed again as they were. -/
namespace SentryCocoa.JSONCodec

open Library.Unicode (forall_byte)

variable {δ : Type}

/-- A double that was read from what a double is printed as is itself printed so. The decoder
reads the sign on its own. -/
structure Doubles.Reprints (doubles : Doubles δ) : Prop where
  positive : ∀ value body, doubles.isnan value = false → doubles.snprintf value = body →
    body.head? ≠ some '-'.toUInt8 →
      doubles.isnan (doubles.sscanf body) = false ∧ doubles.snprintf (doubles.sscanf body) = body
  negative : ∀ value body, doubles.isnan value = false →
    doubles.snprintf value = '-'.toUInt8 :: body →
      doubles.isnan (doubles.negate (doubles.sscanf body)) = false ∧
        doubles.snprintf (doubles.negate (doubles.sscanf body)) = '-'.toUInt8 :: body

/-! The value of an integer. -/

theorem isdigit_value_le {c : UInt8} (h : isdigit c = true) : c.toNat - '0'.toNat ≤ 9 :=
  forall_byte (p := fun c => isdigit c = true → c.toNat - '0'.toNat ≤ 9) (by decide +kernel) c h

theorem scanInteger_lt (accum : Nat) (body : Bytes) (h : (scanInteger accum body).2.2 = []) :
    (scanInteger accum body).1 < (accum + 1) * 10 ^ body.length := by
  fun_induction scanInteger accum body with
  | case1 accum => simp
  | case2 => cases h
  | case3 => cases h
  | case4 accum c body hdigit hlarge next hover ih =>
    have hnext : next ≤ 9 := isdigit_value_le hdigit
    calc (scanInteger (accum * 10 + next) body).1
        < (accum * 10 + next + 1) * 10 ^ body.length := ih h
      _ ≤ ((accum + 1) * 10) * 10 ^ body.length := Nat.mul_le_mul_right _ (by omega)
      _ = (accum + 1) * 10 ^ (c :: body).length := by
        rw [List.length_cons, Nat.pow_succ, Nat.mul_assoc, Nat.mul_comm 10]
  | case5 => cases h

theorem scanInteger_le (accum : Nat) (body : Bytes) (haccum : accum ≤ ULLONG_MAX)
    (h : (scanInteger accum body).2.1 = false) :
    (scanInteger accum body).1 ≤ ULLONG_MAX := by
  fun_induction scanInteger accum body with
  | case1 accum => exact haccum
  | case2 => cases h
  | case3 => cases h
  | case4 accum c body hdigit hlarge next hover ih =>
    have hnext : next ≤ 9 := isdigit_value_le hdigit
    unfold ULLONG_MAX at *
    exact ih (by omega) h
  | case5 => exact haccum

/-! The leaf of a number. -/

def signed (negative : Bool) (body : Bytes) : Bytes :=
  if negative then '-'.toUInt8 :: body else body

def readDouble (doubles : Doubles δ) (negative : Bool) (body : Bytes) : δ :=
  if negative then doubles.negate (doubles.sscanf body) else doubles.sscanf body

theorem signed_length (negative : Bool) (body : Bytes) :
    (signed negative body).length = body.length + if negative then 1 else 0 := by
  unfold signed
  split
  · rfl
  · rfl

theorem signedDecimal_length_le {value : Int} {width : Nat} (hwidth : 0 < width)
    (h : value.natAbs < 10 ^ width) :
    (signedDecimal value).length ≤ width + if value < 0 then 1 else 0 := by
  have hdecimal := decimal_length_le hwidth h
  unfold signedDecimal
  split
  · rw [List.length_append, Nat.add_comm]
    exact Nat.add_le_add_right hdecimal 1
  · exact hdecimal

/-- An integer is written with no more bytes than it was read from. -/
theorem numberLeaf_cases (doubles : Doubles δ) (negative : Bool) {body : Bytes}
    (hbody : 0 < body.length) :
    (∃ value, numberLeaf doubles negative body = .integer value ∧
        (signedDecimal value.toInt).length ≤ (signed negative body).length) ∨
      (∃ value, numberLeaf doubles negative body = .uinteger value ∧
        ¬value.toNat ≤ 2 ^ 63 - 1 ∧
          (decimal value.toNat).length ≤ (signed negative body).length) ∨
      numberLeaf doubles negative body = .floatingPoint (readDouble doubles negative body) := by
  have hlt := scanInteger_lt 0 body
  have hle := scanInteger_le 0 body (by decide)
  unfold numberLeaf
  generalize scanInteger 0 body = scanned at *
  obtain ⟨accum, isOverflow, left⟩ := scanned
  rw [signed_length]
  dsimp only at *
  by_cases hwhole : left = [] ∧ isOverflow = false
  · have hdigits := hlt hwhole.1
    have hmax := hle hwhole.2
    rw [Nat.zero_add, Nat.one_mul] at hdigits
    by_cases hinteger : negative = true ∧ accum ≤ 2 ^ 63 ∨ accum ≤ 2 ^ 63 - 1
    · left
      refine ⟨_, if_pos ⟨hwhole, hinteger⟩, ?_⟩
      have hvalue : (Int64.ofInt (if negative then -accum else accum)).toInt =
          if negative then -(accum : Int) else accum := by
        apply Int64.toInt_ofInt_of_le
        · rcases hinteger with ⟨-, h⟩ | h
          · split <;> omega
          · split <;> omega
        · rcases hinteger with ⟨hnegative, h⟩ | h
          · rw [if_pos hnegative]
            omega
          · split <;> omega
      have hlength := @signedDecimal_length_le (if negative then -(accum : Int) else accum) _ hbody
        (by split <;> omega)
      rw [hvalue]
      refine hlength.trans (Nat.add_le_add_left ?_ _)
      cases negative with
      | true =>
        simp
        split <;> omega
      | false => simp
    · rw [if_neg fun h => hinteger h.2]
      cases negative with
      | true =>
        right
        right
        rw [if_neg fun h => h.2 rfl]
        rfl
      | false =>
        right
        left
        refine ⟨UInt64.ofNat accum, if_pos ⟨hwhole, Bool.false_ne_true⟩, ?_⟩
        have hvalue : (UInt64.ofNat accum).toNat = accum := by
          rw [UInt64.toNat_ofNat']
          unfold ULLONG_MAX at hmax
          omega
        rw [hvalue]
        exact ⟨fun h => hinteger (Or.inr h), decimal_length_le hbody hdigits⟩
  · right
    right
    rw [if_neg fun h => hwhole h.1, if_neg fun h => hwhole h.1]
    rfl

theorem readNumber_signed (doubles : Doubles δ) {text : Bytes} (h : NumberText text) :
    ∃ negative body, text = signed negative body ∧ 0 < body.length ∧
      body.head? ≠ some '-'.toUInt8 ∧
        readNumber doubles text = numberLeaf doubles negative body := by
  obtain ⟨c, more, hdigit, -, htext, -⟩ := h
  obtain ⟨-, -, -, -, -, -, -, -, hminus⟩ := isdigit_spec c hdigit
  have hhead : (c :: more).head? ≠ some '-'.toUInt8 := by simpa using hminus
  rcases htext with rfl | rfl
  · exact ⟨false, c :: more, rfl, Nat.succ_pos _, hhead, if_neg hminus⟩
  · have hread : readNumber doubles ('-'.toUInt8 :: c :: more) =
        numberLeaf doubles true (c :: more) := by
      rw [readNumber, if_pos rfl]
    exact ⟨true, c :: more, rfl, Nat.succ_pos _, hhead, hread⟩

theorem Doubles.Reprints.readDouble {doubles : Doubles δ} (h : doubles.Reprints) {value : δ}
    (hnan : doubles.isnan value = false) {negative : Bool} {body : Bytes}
    (htext : doubles.snprintf value = signed negative body)
    (hhead : body.head? ≠ some '-'.toUInt8) :
    doubles.isnan (readDouble doubles negative body) = false ∧
      doubles.snprintf (readDouble doubles negative body) = signed negative body := by
  cases negative with
  | true => exact h.negative value body hnan htext
  | false => exact h.positive value body hnan htext hhead

/-! The leaves. -/

/-- What was read of a leaf is written and read as it is, with no more bytes. -/
structure Reread (doubles : Doubles δ) (value read : Leaf δ) : Prop where
  stable : read.readBack doubles = read
  printed : read.Printed doubles
  shorter : (read.text doubles).length ≤ (value.text doubles).length

theorem reread_double {doubles : Doubles δ} (h : doubles.Reprints) {value : δ}
    (hnan : doubles.isnan value = false) (hprinted : NumberText (doubles.snprintf value)) :
    Reread doubles (.floatingPoint value) (readNumber doubles (doubles.snprintf value)) := by
  obtain ⟨negative, body, htext, hbody, hhead, hread⟩ := readNumber_signed doubles hprinted
  have hvalue : (Leaf.floatingPoint value).text doubles = signed negative body := by
    rw [Leaf.text, hnan, htext]
    rfl
  rw [hread]
  rcases numberLeaf_cases doubles negative hbody with ⟨integer, hleaf, hshort⟩ |
    ⟨integer, hleaf, hlarge, hshort⟩ | hleaf
  · rw [hleaf]
    exact ⟨rfl, trivial, hvalue ▸ hshort⟩
  · rw [hleaf]
    exact ⟨if_neg hlarge, trivial, hvalue ▸ hshort⟩
  · obtain ⟨hnan', htext'⟩ := h.readDouble hnan htext hhead
    have hsame : (Leaf.floatingPoint (readDouble doubles negative body)).text doubles =
        signed negative body := by
      rw [Leaf.text, hnan', htext']
      rfl
    rw [hleaf]
    constructor
    · rw [Leaf.readBack, hnan', htext', ← htext, hread, hleaf]
      rfl
    · intro _
      rw [htext', ← htext]
      exact hprinted
    · rw [hsame, hvalue]

theorem reread_leaf {doubles : Doubles δ} (h : doubles.Reprints) {value : Leaf δ}
    (hprinted : value.Printed doubles) : Reread doubles value (value.readBack doubles) := by
  cases value with
  | floatingPoint value =>
    cases hnan : doubles.isnan value with
    | true =>
      have hread : (Leaf.floatingPoint value).readBack doubles = .null := by
        rw [Leaf.readBack, hnan]
        rfl
      have htext : (Leaf.floatingPoint value).text doubles = ascii "null" := by
        rw [Leaf.text, hnan]
        rfl
      rw [hread]
      exact ⟨rfl, trivial, by rw [htext]; exact Nat.le_refl _⟩
    | false =>
      have hread : (Leaf.floatingPoint value).readBack doubles =
          readNumber doubles (doubles.snprintf value) := by
        rw [Leaf.readBack, hnan]
        rfl
      rw [hread]
      exact reread_double h hnan (hprinted hnan)
  | uinteger value =>
    rw [Leaf.readBack]
    split
    · rename_i hsmall
      have hvalue : (Int64.ofInt value.toNat).toInt = value.toNat :=
        Int64.toInt_ofInt_of_le (by omega) (by omega)
      refine ⟨rfl, trivial, ?_⟩
      rw [Leaf.text, hvalue, signedDecimal, if_neg (by omega), Int.natAbs_natCast]
      exact Nat.le_refl _
    · rename_i hlarge
      exact ⟨if_neg hlarge, trivial, Nat.le_refl _⟩
  | null => exact ⟨rfl, trivial, Nat.le_refl _⟩
  | boolean value => exact ⟨rfl, trivial, Nat.le_refl _⟩
  | integer value => exact ⟨rfl, trivial, Nat.le_refl _⟩
  | string value => exact ⟨rfl, hprinted, Nat.le_refl _⟩

/-- A number is not read as a string. -/
theorem fits_readBack (doubles : Doubles δ) (stringBufferLength : Nat) {value : Leaf δ}
    (h : value.fits stringBufferLength = true) :
    (value.readBack doubles).fits stringBufferLength = true := by
  have hnumber (negative : Bool) (body : Bytes) :
      (numberLeaf doubles negative body).fits stringBufferLength = true := by
    unfold numberLeaf
    dsimp only
    split
    · rfl
    · split
      · rfl
      · rfl
  cases value with
  | floatingPoint value =>
    rw [Leaf.readBack]
    split
    · rfl
    · cases doubles.snprintf value with
      | nil => rfl
      | cons c more =>
        rw [readNumber]
        split
        · exact hnumber true more
        · exact hnumber false (c :: more)
  | uinteger value =>
    rw [Leaf.readBack]
    split
    · rfl
    · rfl
  | null => rfl
  | boolean value => rfl
  | integer value => rfl
  | string value => exact h

/-! The documents. -/

namespace Document

theorem readBack_eq (doubles : Doubles δ) (document : Document δ) :
    document.readBack doubles = document.mapAt (fun _ _ => Leaf.readBack doubles) [] none :=
  (mapAt_const _ _ _ _).symm

/-- Every leaf is read as it is. -/
def Stable (doubles : Doubles δ) (value : Leaf δ) : Prop :=
  value.readBack doubles = value ∧ value.Printed doubles

section

variable {doubles : Doubles δ} {document : Document δ}

theorem readBack_stable (h : doubles.Reprints) (hprinted : document.All (Leaf.Printed doubles)) :
    (document.readBack doubles).All (Stable doubles) := by
  rw [readBack_eq]
  apply all_mapAt _ _ _ _ hprinted
  intro _ _ value hvalue
  exact ⟨(reread_leaf h hvalue).stable, (reread_leaf h hvalue).printed⟩

theorem readBack_length (h : doubles.Reprints) (hprinted : document.All (Leaf.Printed doubles))
    (prettyPrint : Bool) (level : Nat) :
    ((document.readBack doubles).text doubles prettyPrint level).length ≤
      (document.text doubles prettyPrint level).length := by
  have hgrows : document.AllAt (GrowsBy doubles (fun _ _ => Leaf.readBack doubles)
      fun _ _ _ => 0) [] none :=
    allAt_of_forall (fun _ _ _ hvalue => (reread_leaf h hvalue).shorter) [] none hprinted
  have hlength := text_mapAt_length _ doubles prettyPrint [] none hgrows level
  have hweight : document.weightAt (fun _ _ _ => 0) [] none = 0 :=
    @weightAt_eq_zero _ (fun _ => True) _ (fun _ _ _ => trivial) (fun _ _ _ _ => rfl) _ _ document
      trivial
  rw [hweight] at hlength
  rw [readBack_eq]
  exact hlength

theorem readBack_fits (doubles : Doubles δ) {buffers : DecodeBuffers} (hfits : document.fits buffers = true) :
    (document.readBack doubles).fits buffers = true := by
  rw [readBack_eq]
  exact fits_mapAt _ (fun _ _ _ => fits_readBack doubles _) _ _ hfits

theorem readBack_depth (doubles : Doubles δ) : (document.readBack doubles).depth = document.depth := by
  rw [readBack_eq, depth_mapAt]

theorem readBack_of_stable (h : document.All (Stable doubles)) :
    document.readBack doubles = document := by
  rw [readBack_eq]
  exact mapAt_eq_self (allAt_of_forall (fun _ _ _ hvalue => hvalue.1) [] none h)

theorem printed_of_stable (h : document.All (Stable doubles)) :
    document.All (Leaf.Printed doubles) :=
  all_mono (fun _ hvalue => hvalue.2) h

end

end Document

end SentryCocoa.JSONCodec
