import SentryCocoa.ReportFixer
import SentryCocoa.JSONDocuments

/-! The buffer of the fixer. As long as it has room, the encoder does with it what it does with
a handler that keeps all of the text. -/
namespace SentryCocoa.ReportFixer
open JSONCodec Library.Simulation

variable {α β δ : Type}

/-- The encoder with a buffer of the capacity in place of a text of any length. -/
def bounded (capacity : Nat) (context : EncodeContext Bytes) : EncodeContext Output where
  handler := addJSONData
  userData := ⟨context.userData, capacity - context.userData.length⟩
  isObject := context.isObject
  containerFirstEntry := context.containerFirstEntry
  prettyPrint := context.prettyPrint
  deepestLevel := context.deepestLevel

def boundedResult (capacity : Nat) :
    EStateM.Result JSONError (EncodeContext Bytes) α →
      EStateM.Result JSONError (EncodeContext Output) α
  | .ok a context => .ok a (bounded capacity context)
  | .error e context => .error e (bounded capacity context)

/-- The text only gets longer, and where it does not get too long the buffer has it too. -/
structure FitsAt (capacity : Nat) (unlimited : Encode Bytes α) (limited : Encode Output α)
    (context : EncodeContext Bytes) : Prop where
  handler : (endState (unlimited context)).handler = collect
  grows : context.userData <+: (endState (unlimited context)).userData
  same : (endState (unlimited context)).userData.length ≤ capacity →
    limited (bounded capacity context) = boundedResult capacity (unlimited context)

namespace FitsAt

variable {capacity : Nat} {context : EncodeContext Bytes}

theorem pure (hcollect : context.handler = collect) (a : α) :
    FitsAt capacity (pure a) (pure a) context :=
  ⟨hcollect, List.prefix_refl _, fun _ => rfl⟩

theorem throw (hcollect : context.handler = collect) (e : JSONError) :
    FitsAt capacity (throw e : Encode Bytes α) (throw e) context :=
  ⟨hcollect, List.prefix_refl _, fun _ => rfl⟩

theorem bind {x : Encode Bytes α} {y : Encode Output α} {f : α → Encode Bytes β}
    {g : α → Encode Output β} (h : FitsAt capacity x y context)
    (hnext : ∀ a context', context'.handler = collect → FitsAt capacity (f a) (g a) context') :
    FitsAt capacity (x >>= f) (y >>= g) context := by
  obtain ⟨hhandler, hgrows, hsame⟩ := h
  cases hx : x context with
  | ok a context' =>
    rw [hx] at hhandler hgrows hsame
    have hrest := hnext a context' hhandler
    constructor
    · rw [run_bind_ok hx]
      exact hrest.handler
    · rw [run_bind_ok hx]
      exact hgrows.trans hrest.grows
    · rw [run_bind_ok hx]
      intro hlength
      rw [run_bind_ok (hsame (hrest.grows.length_le.trans hlength)), hrest.same hlength]
  | error e context' =>
    rw [hx] at hhandler hgrows hsame
    constructor
    · rw [run_bind_error hx]
      exact hhandler
    · rw [run_bind_error hx]
      exact hgrows
    · rw [run_bind_error hx]
      intro hlength
      rw [run_bind_error (hsame hlength)]
      rfl

/-- A function that changes the containers only. -/
theorem change {x : Encode Bytes α} {y : Encode Output α} {a : α} {changed : EncodeContext Bytes}
    (hx : x context = .ok a changed)
    (hy : y (bounded capacity context) = .ok a (bounded capacity changed))
    (hhandler : changed.handler = collect) (huserData : changed.userData = context.userData) :
    FitsAt capacity x y context := by
  constructor
  · rw [hx]
    exact hhandler
  · rw [hx]
    change context.userData <+: changed.userData
    rw [huserData]
  · intro _
    rw [hx, hy]
    rfl

theorem failed {x : Encode Bytes Unit} {y : Encode Output Unit} (h : FitsAt capacity x y context) :
    FitsAt capacity (failed x) (failed y) context := by
  have hx := failed_run x context
  constructor
  · rw [hx]
    exact h.handler
  · rw [hx]
    exact h.grows
  · rw [hx]
    intro hlength
    rw [failed_run, h.same hlength]
    cases x context with
    | ok _ context' => rfl
    | error e context' => rfl

end FitsAt

section

variable (capacity : Nat) {context : EncodeContext Bytes} (hcollect : context.handler = collect)

include hcollect

theorem fitsAt_addJSONData (data : Bytes) :
    FitsAt capacity (JSONCodec.addJSONData data) (JSONCodec.addJSONData data) context := by
  have hrun := writes_addJSONData data context hcollect
  constructor
  · rw [hrun]
    exact hcollect
  · rw [hrun]
    exact List.prefix_append _ _
  · rw [hrun]
    intro hlength
    change (context.userData ++ data).length ≤ capacity at hlength
    rw [List.length_append] at hlength
    have hroom : ¬data.length > capacity - context.userData.length := by omega
    have hhandler : (bounded capacity context).handler data (bounded capacity context).userData =
        (true, ⟨context.userData ++ data, capacity - context.userData.length - data.length⟩) :=
      if_neg hroom
    unfold JSONCodec.addJSONData
    rw [hhandler]
    unfold boundedResult EncodeContext.write bounded
    dsimp only
    rw [List.length_append, Nat.sub_add_eq]

theorem fitsAt_appendEscapedString (string : Bytes) :
    FitsAt capacity (appendEscapedString string) (appendEscapedString string) context := by
  unfold appendEscapedString
  cases string.mapM escapeByte with
  | none => exact FitsAt.throw hcollect _
  | some escaped => exact fitsAt_addJSONData capacity hcollect _

theorem fitsAt_addEscapedString (string : Bytes) :
    FitsAt capacity (addEscapedString string) (addEscapedString string) context := by
  unfold addEscapedString
  generalize portions string.length string = pieces
  induction pieces generalizing context with
  | nil => exact FitsAt.pure hcollect _
  | cons piece pieces ih =>
    exact (fitsAt_appendEscapedString capacity hcollect piece).bind fun _ _ h => ih h

theorem fitsAt_addQuotedEscapedString (string : Bytes) :
    FitsAt capacity (addQuotedEscapedString string) (addQuotedEscapedString string) context := by
  unfold addQuotedEscapedString
  refine (fitsAt_addJSONData capacity hcollect _).bind fun _ _ hopen => ?_
  refine (fitsAt_addEscapedString capacity hopen string).failed.bind fun result _ hstring => ?_
  refine (fitsAt_addJSONData capacity hstring _).failed.bind fun closeResult _ hclose => ?_
  split
  · exact FitsAt.throw hclose _
  · exact FitsAt.pure hclose _

theorem fitsAt_addIndentation (level : Nat) :
    FitsAt capacity (addIndentation level) (addIndentation level) context := by
  induction level generalizing context with
  | zero => exact FitsAt.pure hcollect _
  | succ level ih => exact (fitsAt_addJSONData capacity hcollect _).bind fun _ _ h => ih h

theorem fitsAt_breakLine (prettyPrint : Bool) (level : Nat) :
    FitsAt capacity (breakLine prettyPrint level) (breakLine prettyPrint level) context := by
  unfold breakLine
  split
  · exact (fitsAt_addJSONData capacity hcollect _).bind fun _ _ h =>
      fitsAt_addIndentation capacity h level
  · exact FitsAt.pure hcollect _

theorem fitsAt_addName (prettyPrint : Bool) (containers : List Bool) (name : Option Bytes) :
    FitsAt capacity (addName prettyPrint containers name) (addName prettyPrint containers name)
      context := by
  unfold addName
  split
  · cases name with
    | none => exact FitsAt.throw hcollect _
    | some name =>
      exact (fitsAt_addQuotedEscapedString capacity hcollect name).bind fun _ _ h =>
        fitsAt_addJSONData capacity h _
  · exact FitsAt.pure hcollect _

theorem fitsAt_beginElement (name : Option Bytes) :
    FitsAt capacity (beginElement name) (beginElement name) context := by
  have hseparate : FitsAt capacity (separate context) (separate (bounded capacity context))
      context := by
    unfold separate
    change FitsAt capacity _ (if context.containerFirstEntry then _ else _) context
    split
    · exact FitsAt.change rfl rfl hcollect rfl
    · exact fitsAt_addJSONData capacity hcollect _
  have hrest := hseparate.bind fun _ _ h =>
    (fitsAt_breakLine capacity h (context.prettyPrint && context.containerLevel > 0)
      context.containerLevel).bind fun _ _ h =>
        fitsAt_addName capacity h context.prettyPrint context.isObject name
  constructor
  · rw [beginElement_eq]
    exact hrest.handler
  · rw [beginElement_eq]
    exact hrest.grows
  · rw [beginElement_eq, beginElement_eq]
    exact hrest.same

theorem fitsAt_addStringElement (name value : Option Bytes) :
    FitsAt capacity (addStringElement name value) (addStringElement name value) context := by
  unfold addStringElement addNullElement
  cases value with
  | none =>
    exact (fitsAt_beginElement capacity hcollect name).bind fun _ _ h =>
      fitsAt_addJSONData capacity h _
  | some value =>
    exact (fitsAt_beginElement capacity hcollect name).bind fun _ _ h =>
      fitsAt_addQuotedEscapedString capacity h value

theorem fitsAt_leaf (doubles : Doubles δ) (name : Option Bytes) (value : Leaf δ) :
    FitsAt capacity (value.add doubles name) (value.add doubles name) context := by
  have hdata (data : Bytes) : FitsAt capacity
      (do
        beginElement name
        JSONCodec.addJSONData data)
      (do
        beginElement name
        JSONCodec.addJSONData data) context :=
    (fitsAt_beginElement capacity hcollect name).bind fun _ _ h =>
      fitsAt_addJSONData capacity h data
  cases value with
  | null => exact hdata _
  | boolean value => exact hdata _
  | integer value => exact hdata _
  | uinteger value => exact hdata _
  | string value => exact fitsAt_addStringElement capacity hcollect name (some value.bytes)
  | floatingPoint value =>
    unfold Leaf.add addFloatingPointElement
    dsimp only
    split
    · exact hdata _
    · exact hdata _

theorem fitsAt_beginContainer (isObject : Bool) (bracket : Bytes) (name : Option Bytes) :
    FitsAt capacity (beginContainer isObject bracket name)
      (beginContainer isObject bracket name) context := by
  unfold beginContainer
  refine (fitsAt_beginElement capacity hcollect name).bind fun _ context' h => ?_
  refine FitsAt.bind ?_ fun _ _ h => fitsAt_addJSONData capacity h bracket
  exact FitsAt.change rfl rfl h rfl

theorem fitsAt_endContainer :
    FitsAt capacity endContainer endContainer context := by
  cases hcontainers : context.isObject with
  | nil =>
    constructor
    · rw [endContainer_nil context hcontainers]
      exact hcollect
    · rw [endContainer_nil context hcontainers]
      exact List.prefix_refl _
    · rw [endContainer_nil context hcontainers,
        endContainer_nil (bounded capacity context) hcontainers]
      intro _
      rfl
  | cons isObject containers =>
    have hclosing : FitsAt capacity
        (closing (context.prettyPrint && !context.containerFirstEntry) isObject
          containers.length)
        (closing (context.prettyPrint && !context.containerFirstEntry) isObject
          containers.length) { context with isObject := containers } := by
      unfold closing
      refine FitsAt.bind (fitsAt_breakLine capacity ?_ _ _) fun _ context' h => ?_
      · exact hcollect
      · refine FitsAt.bind ?_ fun _ _ h => fitsAt_addJSONData capacity h _
        exact FitsAt.change rfl rfl h rfl
    constructor
    · rw [endContainer_cons context isObject containers hcontainers]
      exact hclosing.handler
    · rw [endContainer_cons context isObject containers hcontainers]
      exact hclosing.grows
    · rw [endContainer_cons context isObject containers hcontainers,
        endContainer_cons (bounded capacity context) isObject containers hcontainers]
      exact hclosing.same

end

mutual

theorem fitsAt_document (capacity : Nat) (doubles : Doubles δ) (name : Option Bytes)
    (document : Document δ) {context : EncodeContext Bytes}
    (hcollect : context.handler = collect) :
    FitsAt capacity (document.encode doubles name) (document.encode doubles name) context := by
  cases document with
  | leaf value => exact fitsAt_leaf capacity hcollect doubles name value
  | array values =>
    refine (fitsAt_beginContainer capacity hcollect false _ name).bind fun _ _ hbegun => ?_
    refine (fitsAt_values capacity doubles values hbegun).bind fun _ _ hvalues => ?_
    exact fitsAt_endContainer capacity hvalues
  | object entries =>
    refine (fitsAt_beginContainer capacity hcollect true _ name).bind fun _ _ hbegun => ?_
    refine (fitsAt_entries capacity doubles entries hbegun).bind fun _ _ hentries => ?_
    exact fitsAt_endContainer capacity hentries

theorem fitsAt_values (capacity : Nat) (doubles : Doubles δ) (values : List (Document δ))
    {context : EncodeContext Bytes} (hcollect : context.handler = collect) :
    FitsAt capacity (Document.encodeValues doubles values) (Document.encodeValues doubles values)
      context := by
  cases values with
  | nil => exact FitsAt.pure hcollect ()
  | cons value rest =>
    refine (fitsAt_document capacity doubles none value hcollect).bind fun _ _ h => ?_
    exact fitsAt_values capacity doubles rest h

theorem fitsAt_entries (capacity : Nat) (doubles : Doubles δ)
    (entries : List (PlainString × Document δ)) {context : EncodeContext Bytes}
    (hcollect : context.handler = collect) :
    FitsAt capacity (Document.encodeEntries doubles entries)
      (Document.encodeEntries doubles entries) context := by
  cases entries with
  | nil => exact FitsAt.pure hcollect ()
  | cons entry rest =>
    refine (fitsAt_document capacity doubles (some entry.1.bytes) entry.2 hcollect).bind
      fun _ _ h => ?_
    exact fitsAt_entries capacity doubles rest h

end

/-- The fixer has its own buffer, and a document that fits in it is written there. -/
theorem encode_output_run (doubles : Doubles δ) (document : Document δ) {capacity : Nat}
    (hfits : (document.text doubles true 0).length ≤ capacity) :
    ∃ context, document.encode doubles none (beginEncode true addJSONData (Output.start capacity)) =
        .ok () context ∧
      context.userData.text = document.text doubles true 0 ∧ context.isObject = [] := by
  obtain ⟨context, hrun, hencoded⟩ := Document.encode_run doubles none document
    (beginEncode true collect []) rfl rfl
  have htext : context.userData = document.text doubles true 0 := hencoded.userData
  have hfitsAt : FitsAt capacity (document.encode doubles none) (document.encode doubles none)
      (beginEncode true collect []) := fitsAt_document capacity doubles none document rfl
  have hsame := hfitsAt.same
  rw [hrun] at hsame
  refine ⟨bounded capacity context, hsame ?_, htext, hencoded.isObject⟩
  change context.userData.length ≤ capacity
  rw [htext]
  exact hfits

end SentryCocoa.ReportFixer
