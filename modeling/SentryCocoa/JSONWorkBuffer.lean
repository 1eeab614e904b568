import Mathlib.Data.Vector.Basic
import SentryCocoa.JSONTree

/-! The work buffer in which the portions of a string are escaped. A string is a pointer with a
length, as the functions have it, and the buffer starts with what happens to be on the stack. -/
namespace SentryCocoa.JSONCodec.WorkBuffer
open SentryCocoa.Library.Simulation

variable {ω : Type}

/-- `SentryCrashJSONCODEC_WorkBufferSize` -/
def workBufferSize : Nat := 512

abbrev Stack := Vector UInt8 workBufferSize

/-- The buffer, with the index that `dst` points to. -/
structure Buffer where
  bytes : Stack
  dst : Nat

/-- A failure of the source, or a write behind the buffer. -/
inductive Failure where
  | invalidCharacter
  | pastBuffer
  deriving DecidableEq, Repr

/-- `*dst++ = c` -/
def Buffer.put (buffer : Buffer) (c : UInt8) : Except Failure Buffer :=
  if h : buffer.dst < workBufferSize then
    .ok ⟨buffer.bytes.set buffer.dst c h, buffer.dst + 1⟩
  else .error .pastBuffer

/-- The loop of the simple case, with the characters that are left. -/
def copyPlain : Bytes → Buffer → Except Failure (Bytes × Buffer)
  | [], buffer => .ok ([], buffer)
  | c :: rest, buffer =>
    if c ≠ '\\'.toUInt8 ∧ c ≠ '"'.toUInt8 ∧ ' '.toUInt8 ≤ c then do
      let buffer ← buffer.put c
      copyPlain rest buffer
    else .ok (c :: rest, buffer)

/-- The `switch` of the complicated case. -/
def escapeNext (c : UInt8) (buffer : Buffer) : Except Failure Buffer := do
  if c = '\\'.toUInt8 ∨ c = '"'.toUInt8 then
    let buffer ← buffer.put '\\'.toUInt8
    buffer.put c
  else if c = 0x08 then
    let buffer ← buffer.put '\\'.toUInt8
    buffer.put 'b'.toUInt8
  else if c = 0x0C then
    let buffer ← buffer.put '\\'.toUInt8
    buffer.put 'f'.toUInt8
  else if c = 0x0A then
    let buffer ← buffer.put '\\'.toUInt8
    buffer.put 'n'.toUInt8
  else if c = 0x0D then
    let buffer ← buffer.put '\\'.toUInt8
    buffer.put 'r'.toUInt8
  else if c = 0x09 then
    let buffer ← buffer.put '\\'.toUInt8
    buffer.put 't'.toUInt8
  else if c < ' '.toUInt8 then throw .invalidCharacter
  else buffer.put c

def escapeRest : Bytes → Buffer → Except Failure Buffer
  | [], buffer => .ok buffer
  | c :: rest, buffer => do
    let buffer ← escapeNext c buffer
    escapeRest rest buffer

/-- The characters from the pointer up to the length. -/
def bytesAt (string : Nat → UInt8) (length : Int) : Bytes := (List.range length.toNat).map string

/-- The buffer when both loops have run. -/
def fillBuffer (stack : Stack) (src : Bytes) : Except Failure Buffer := do
  let (src, buffer) ← copyPlain src ⟨stack, 0⟩
  escapeRest src buffer

/-- `none` is a write behind the buffer. -/
def appendEscapedString (stack : Stack) (string : Nat → UInt8) (length : Int)
    (context : EncodeContext ω) : Option (EStateM.Result JSONError (EncodeContext ω) Unit) :=
  match fillBuffer stack (bytesAt string length) with
  | .error .pastBuffer => none
  | .error .invalidCharacter => some (.error .invalidCharacter context)
  | .ok buffer => some (addJSONData (buffer.bytes.toList.take buffer.dst) context)

/-- The loop over the portions, from an offset on. What is on the stack may be different for each
of them. -/
def addEscapedFrom (stack : Nat → Stack) (string : Nat → UInt8) (length : Int) (offset : Nat)
    (context : EncodeContext ω) : Option (EStateM.Result JSONError (EncodeContext ω) Unit) :=
  if _h : offset < length then
    let toAdd : Int :=
      if length - offset > (workBufferSize / 2 : Nat) then (workBufferSize / 2 : Nat)
      else length - offset
    match appendEscapedString (stack offset) (fun i => string (offset + i)) toAdd context with
    | none => none
    | some (.error e context) => some (.error e context)
    | some (.ok _ context) => addEscapedFrom stack string length (offset + toAdd.toNat) context
  else some (.ok () context)
termination_by (length - offset).toNat
decreasing_by
  have hhalf : workBufferSize / 2 = 256 := rfl
  split <;> omega

def addEscapedString (stack : Nat → Stack) (string : Nat → UInt8) (length : Int)
    (context : EncodeContext ω) : Option (EStateM.Result JSONError (EncodeContext ω) Unit) :=
  addEscapedFrom stack string length 0 context

/-- The string is closed even when its content could not be written. -/
def addQuotedEscapedString (stack : Nat → Stack) (string : Nat → UInt8) (length : Int)
    (context : EncodeContext ω) : Option (EStateM.Result JSONError (EncodeContext ω) Unit) :=
  match addJSONData (ascii "\"") context with
  | .error e context => some (.error e context)
  | .ok _ context =>
    (addEscapedString stack string length context).map fun result =>
      let closeResult := addJSONData (ascii "\"") (endState result)
      if isOk result && isOk closeResult then .ok () (endState closeResult)
      else .error .invalidCharacter (endState closeResult)

/-! One portion. -/

/-- What has been written in the buffer. -/
structure Buffer.Holds (buffer : Buffer) (data : Bytes) : Prop where
  dst : buffer.dst = data.length
  bytes : buffer.bytes.toList.take buffer.dst = data

theorem holds_empty (stack : Stack) : Buffer.Holds ⟨stack, 0⟩ [] := ⟨rfl, rfl⟩

theorem Buffer.Holds.put {buffer : Buffer} {data : Bytes} (h : buffer.Holds data)
    (hspace : data.length < workBufferSize) (c : UInt8) :
    ∃ next, buffer.put c = .ok next ∧ next.Holds (data ++ [c]) := by
  have hlt : buffer.dst < workBufferSize := h.dst.trans_lt hspace
  refine ⟨⟨buffer.bytes.set buffer.dst c hlt, buffer.dst + 1⟩, dif_pos hlt, ?_, ?_⟩
  · rw [List.length_append, ← h.dst]
    rfl
  · have hsize : buffer.dst < (buffer.bytes.toList.set buffer.dst c).length := by
      rw [List.length_set, Vector.length_toList]
      exact hlt
    rw [Vector.toList_set, List.take_succ_eq_append_getElem hsize, List.getElem_set_self,
      List.take_set_of_le (Nat.le_refl _), h.bytes]

/-- An escape has two bytes at most. -/
theorem length_escapeByte_le {c : UInt8} {escaped : Bytes} (h : escapeByte c = some escaped) :
    escaped.length ≤ 2 := by
  unfold escapeByte at h
  repeat' split at h
  all_goals cases h
  case isTrue => exact Nat.le_refl 2
  all_goals first | decide | exact Nat.le_succ 1

theorem escapeNext_spec {buffer : Buffer} {data : Bytes} (h : buffer.Holds data)
    (hspace : data.length + 2 ≤ workBufferSize) (c : UInt8) :
    match escapeByte c with
    | none => escapeNext c buffer = .error .invalidCharacter
    | some escaped => ∃ next, escapeNext c buffer = .ok next ∧ next.Holds (data ++ escaped) := by
  have one (c : UInt8) : ∃ next, buffer.put c = .ok next ∧ next.Holds (data ++ [c]) :=
    h.put (by omega) c
  have two (first second : UInt8) : ∃ next,
      (do
        let buffer ← buffer.put first
        buffer.put second) = Except.ok next ∧ next.Holds (data ++ [first, second]) := by
    obtain ⟨middle, hfirst, hmiddle⟩ := one first
    have hroom : (data ++ [first]).length < workBufferSize := by
      rw [List.length_append, List.length_singleton]
      omega
    obtain ⟨next, hsecond, hnext⟩ := hmiddle.put hroom second
    refine ⟨next, ?_, ?_⟩
    · rw [hfirst]
      exact hsecond
    · rw [List.append_assoc] at hnext
      exact hnext
  unfold escapeNext escapeByte
  by_cases hquote : c = '\\'.toUInt8 ∨ c = '"'.toUInt8
  · rw [if_pos hquote, if_pos hquote]
    exact two '\\'.toUInt8 c
  rw [if_neg hquote, if_neg hquote]
  by_cases hb : c = 0x08
  · rw [if_pos hb, if_pos hb]
    exact two '\\'.toUInt8 'b'.toUInt8
  rw [if_neg hb, if_neg hb]
  by_cases hf : c = 0x0C
  · rw [if_pos hf, if_pos hf]
    exact two '\\'.toUInt8 'f'.toUInt8
  rw [if_neg hf, if_neg hf]
  by_cases hn : c = 0x0A
  · rw [if_pos hn, if_pos hn]
    exact two '\\'.toUInt8 'n'.toUInt8
  rw [if_neg hn, if_neg hn]
  by_cases hr : c = 0x0D
  · rw [if_pos hr, if_pos hr]
    exact two '\\'.toUInt8 'r'.toUInt8
  rw [if_neg hr, if_neg hr]
  by_cases ht : c = 0x09
  · rw [if_pos ht, if_pos ht]
    exact two '\\'.toUInt8 't'.toUInt8
  rw [if_neg ht, if_neg ht]
  by_cases hcontrol : c < ' '.toUInt8
  · rw [if_pos hcontrol, if_pos hcontrol]
    rfl
  · rw [if_neg hcontrol, if_neg hcontrol]
    exact one c

/-- Every character of a portion may need two bytes. -/
theorem escapeRest_spec (src : Bytes) {buffer : Buffer} {data : Bytes} (h : buffer.Holds data)
    (hspace : data.length + 2 * src.length ≤ workBufferSize) :
    match src.mapM escapeByte with
    | none => escapeRest src buffer = .error .invalidCharacter
    | some escaped =>
      ∃ next, escapeRest src buffer = .ok next ∧ next.Holds (data ++ escaped.flatten) := by
  induction src generalizing buffer data with
  | nil =>
    exact ⟨buffer, rfl, (List.append_nil data).symm ▸ h⟩
  | cons c rest ih =>
    rw [List.length_cons] at hspace
    have hnext := escapeNext_spec h (by omega) c
    rw [List.mapM_cons]
    cases hc : escapeByte c with
    | none =>
      rw [hc] at hnext
      change escapeRest (c :: rest) buffer = .error .invalidCharacter
      rw [escapeRest, hnext]
      rfl
    | some e =>
      rw [hc] at hnext
      obtain ⟨next, hrun, hholds⟩ := hnext
      have hlength := length_escapeByte_le hc
      have hrest := ih hholds (by rw [List.length_append]; omega)
      have hstep : escapeRest (c :: rest) buffer = escapeRest rest next := by
        rw [escapeRest, hrun]
        rfl
      rw [hstep]
      cases hmap : rest.mapM escapeByte with
      | none =>
        rw [hmap] at hrest
        exact hrest
      | some escaped =>
        rw [hmap] at hrest
        obtain ⟨last, hlast, hdata⟩ := hrest
        refine ⟨last, hlast, ?_⟩
        rw [List.flatten_cons, ← List.append_assoc]
        exact hdata

theorem escapeByte_plain {c : UInt8}
    (h : c ≠ '\\'.toUInt8 ∧ c ≠ '"'.toUInt8 ∧ ' '.toUInt8 ≤ c) : escapeByte c = some [c] := by
  obtain ⟨hbackslash, hquote, hspace⟩ := h
  have hcontrol {control : UInt8} (hlt : control < ' '.toUInt8) : c ≠ control := by
    rintro rfl
    exact absurd hspace (UInt8.not_le.2 hlt)
  unfold escapeByte
  rw [if_neg (not_or.2 ⟨hbackslash, hquote⟩), if_neg (hcontrol (by decide)),
    if_neg (hcontrol (by decide)), if_neg (hcontrol (by decide)), if_neg (hcontrol (by decide)),
    if_neg (hcontrol (by decide)), if_neg (UInt8.not_lt.2 hspace)]

/-- The simple case writes what the complicated one would write. -/
theorem copyPlain_spec (src : Bytes) {buffer : Buffer} {data : Bytes} (h : buffer.Holds data)
    (hspace : data.length + src.length ≤ workBufferSize) :
    ∃ plain rest next, src = plain ++ rest ∧ copyPlain src buffer = .ok (rest, next) ∧
      next.Holds (data ++ plain) ∧ plain.mapM escapeByte = some (plain.map fun c => [c]) := by
  induction src generalizing buffer data with
  | nil => exact ⟨[], [], buffer, rfl, rfl, (List.append_nil data).symm ▸ h, rfl⟩
  | cons c src ih =>
    rw [List.length_cons] at hspace
    rw [copyPlain]
    split
    · rename_i hplain
      obtain ⟨middle, hput, hmiddle⟩ := h.put (by omega) c
      obtain ⟨plain, rest, next, rfl, hrun, hholds, hmap⟩ :=
        ih hmiddle (by rw [List.length_append, List.length_singleton]; omega)
      refine ⟨c :: plain, rest, next, rfl, ?_, ?_, ?_⟩
      · rw [hput]
        exact hrun
      · rw [List.append_assoc] at hholds
        exact hholds
      · rw [List.mapM_cons, escapeByte_plain hplain, hmap]
        rfl
    · exact ⟨[], c :: src, buffer, rfl, rfl, (List.append_nil data).symm ▸ h, rfl⟩

/-- A portion of half the size of the buffer fits, whatever its characters are. -/
theorem fillBuffer_spec (stack : Stack) {src : Bytes} (h : src.length ≤ workBufferSize / 2) :
    match src.mapM escapeByte with
    | none => fillBuffer stack src = .error .invalidCharacter
    | some escaped =>
      ∃ buffer, fillBuffer stack src = .ok buffer ∧ buffer.Holds escaped.flatten := by
  have htwice : 2 * (workBufferSize / 2) = workBufferSize := rfl
  obtain ⟨plain, rest, middle, rfl, hcopy, hholds, hplain⟩ :=
    copyPlain_spec src (holds_empty stack) (by rw [List.length_nil]; omega)
  rw [List.length_append] at h
  have hrest := escapeRest_spec rest hholds (by rw [List.nil_append]; omega)
  have hfill : fillBuffer stack (plain ++ rest) = escapeRest rest middle := by
    unfold fillBuffer
    rw [hcopy]
    rfl
  rw [hfill, List.mapM_append, hplain]
  cases hescaped : rest.mapM escapeByte with
  | none =>
    rw [hescaped] at hrest
    exact hrest
  | some escaped =>
    rw [hescaped] at hrest
    obtain ⟨last, hrun, hlast⟩ := hrest
    refine ⟨last, hrun, ?_⟩
    have hcopied : (plain.map fun c => [c]).flatten = plain := by
      rw [← List.flatMap_def]
      exact List.flatMap_singleton' plain
    rw [List.flatten_append, hcopied]
    exact hlast

theorem appendEscapedString_eq (stack : Stack) (string : Nat → UInt8) {length : Int}
    (h : length.toNat ≤ workBufferSize / 2) (context : EncodeContext ω) :
    appendEscapedString stack string length context =
      some (JSONCodec.appendEscapedString (bytesAt string length) context) := by
  have hsize : (bytesAt string length).length ≤ workBufferSize / 2 := by
    rw [bytesAt, List.length_map, List.length_range]
    exact h
  have hfill := fillBuffer_spec stack hsize
  unfold appendEscapedString JSONCodec.appendEscapedString
  cases hescaped : (bytesAt string length).mapM escapeByte with
  | none =>
    rw [hescaped] at hfill
    dsimp only at hfill ⊢
    rw [hfill]
    rfl
  | some escaped =>
    rw [hescaped] at hfill
    obtain ⟨buffer, hrun, hholds⟩ := hfill
    rw [hrun]
    dsimp only
    rw [hholds.bytes]

/-! The whole string. -/

theorem length_bytesAt (string : Nat → UInt8) (length : Int) :
    (bytesAt string length).length = length.toNat := by
  rw [bytesAt, List.length_map, List.length_range]

theorem bytesAt_take (string : Nat → UInt8) (length : Int) (count : Nat) :
    (bytesAt string length).take count = bytesAt string (min length count) := by
  unfold bytesAt
  rw [← List.map_take, List.take_range]
  congr 2
  omega

theorem bytesAt_drop (string : Nat → UInt8) (length : Int) (count : Nat) :
    (bytesAt string length).drop count =
      bytesAt (fun i => string (count + i)) (length - count) := by
  apply List.ext_getElem
  · rw [List.length_drop, length_bytesAt, length_bytesAt]
    omega
  · intro i _ _
    simp [bytesAt]

/-- What is left when a portion is taken away, which is shorter than the others at the end only. -/
theorem bytesAt_rest (string : Nat → UInt8) (length : Int) (offset : Nat) :
    (bytesAt (fun i => string (offset + i)) (length - offset)).drop 256 =
      bytesAt (fun i => string (offset + (min (length - offset) 256).toNat + i))
        (length - (offset + (min (length - offset) 256).toNat : Nat)) := by
  have hdrop : (bytesAt (fun i => string (offset + i)) (length - offset)).drop 256 =
      (bytesAt (fun i => string (offset + i)) (length - offset)).drop
        (min (length - offset) 256).toNat := by
    by_cases hshort : length - offset ≤ 256
    · rw [min_eq_left hshort, List.drop_eq_nil_of_le, List.drop_eq_nil_of_le]
      · rw [length_bytesAt]
      · rw [length_bytesAt]
        omega
    · rw [min_eq_right (le_of_not_ge hshort)]
      rfl
  rw [hdrop, bytesAt_drop]
  congr 1
  · funext i
    rw [Nat.add_assoc]
  · omega

/-- From an offset on the loop takes the portions one after the other. -/
theorem addEscapedFrom_eq (stack : Nat → Stack) (string : Nat → UInt8) (length : Int)
    (count : Nat) {offset : Nat} (h : (length - offset).toNat ≤ count)
    (context : EncodeContext ω) :
    addEscapedFrom stack string length offset context =
      some ((portions count (bytesAt (fun i => string (offset + i)) (length - offset))).forM
        JSONCodec.appendEscapedString context) := by
  induction count generalizing offset context with
  | zero =>
    rw [addEscapedFrom, dif_neg (by omega)]
    rfl
  | succ count ih =>
    rw [addEscapedFrom, portions]
    split
    · rename_i hlt
      have hsome : (bytesAt (fun i => string (offset + i)) (length - offset)).length ≠ 0 := by
        rw [length_bytesAt]
        omega
      have htoAdd : (if length - offset > (workBufferSize / 2 : Nat) then
          ((workBufferSize / 2 : Nat) : Int) else length - offset) = min (length - offset) 256 := by
        have hhalf : workBufferSize / 2 = 256 := rfl
        rw [hhalf]
        split <;> omega
      have hhalf : (min (length - offset) 256).toNat ≤ workBufferSize / 2 := by
        have hhalf : workBufferSize / 2 = 256 := rfl
        omega
      rw [htoAdd, if_neg hsome, bytesAt_take, bytesAt_rest]
      dsimp only
      rw [appendEscapedString_eq _ _ hhalf]
      generalize bytesAt (fun i => string (offset + i)) (min (length - offset) 256) = portion
      cases hrun : JSONCodec.appendEscapedString portion context with
      | error e context' => exact congrArg some (run_bind_error hrun).symm
      | ok a context' =>
        have hnext := @ih (offset + (min (length - offset) 256).toNat) (by omega) context'
        refine hnext.trans (congrArg some ?_)
        generalize portions count _ = rest
        change _ = (JSONCodec.appendEscapedString portion >>= fun _ =>
          rest.forM JSONCodec.appendEscapedString) context
        rw [run_bind_ok hrun]
    · rename_i hge
      have hnone : (bytesAt (fun i => string (offset + i)) (length - offset)).length = 0 := by
        rw [length_bytesAt]
        omega
      rw [if_pos hnone]
      rfl

theorem addEscapedString_eq (stack : Nat → Stack) (string : Nat → UInt8) (length : Int)
    (context : EncodeContext ω) :
    addEscapedString stack string length context =
      some (JSONCodec.addEscapedString (bytesAt string length) context) := by
  have hzero : (fun i => string (0 + i)) = string := by
    funext i
    rw [Nat.zero_add]
  have hfrom := @addEscapedFrom_eq ω stack string length (bytesAt string length).length 0
    (by rw [length_bytesAt]; omega) context
  rw [hzero, Nat.cast_zero, Int.sub_zero] at hfrom
  exact hfrom

/-- With the work buffer the function does what it does on the bytes of the string. -/
theorem addQuotedEscapedString_eq (stack : Nat → Stack) (string : Nat → UInt8) (length : Int)
    (context : EncodeContext ω) :
    addQuotedEscapedString stack string length context =
      some (JSONCodec.addQuotedEscapedString (bytesAt string length) context) := by
  unfold addQuotedEscapedString JSONCodec.addQuotedEscapedString
  cases hopen : addJSONData (ascii "\"") context with
  | error e context' => exact congrArg some (run_bind_error hopen).symm
  | ok a opened =>
    rw [run_bind_ok hopen, run_bind_ok (failed_run _ _), run_bind_ok (failed_run _ _)]
    dsimp only
    rw [addEscapedString_eq, Option.map_some]
    generalize JSONCodec.addEscapedString (bytesAt string length) opened = result
    generalize addJSONData (ascii "\"") (endState result) = closeResult
    cases result <;> cases closeResult <;> rfl

/-- The characters that have no escape. -/
def Rejected (c : UInt8) : Prop :=
  c < 0x20 ∧ c ≠ 0x08 ∧ c ≠ 0x09 ∧ c ≠ 0x0A ∧ c ≠ 0x0C ∧ c ≠ 0x0D

theorem escapeByte_eq_none_iff (c : UInt8) : escapeByte c = none ↔ Rejected c := by
  unfold escapeByte Rejected
  constructor
  · intro h
    split_ifs at h with hquote hb hf hn hr ht hcontrol
    exact ⟨hcontrol, hb, ht, hn, hf, hr⟩
  · rintro ⟨hcontrol, hb, ht, hn, hf, hr⟩
    have hquote : ¬ (c = '\\'.toUInt8 ∨ c = '"'.toUInt8) := by
      rintro (rfl | rfl)
      · exact absurd hcontrol (by decide)
      · exact absurd hcontrol (by decide)
    rw [if_neg hquote, if_neg hb, if_neg hf, if_neg hn, if_neg hr, if_neg ht]
    exact if_pos hcontrol

theorem escapable_iff (string : Bytes) : escapable string = true ↔ ∀ c ∈ string, ¬ Rejected c := by
  unfold escapable
  rw [List.all_eq_true]
  refine forall₂_congr fun c _ => ?_
  rw [← escapeByte_eq_none_iff, Option.isSome_iff_ne_none]

/-- What the escaping in portions does to a string. -/
structure Escapes (stack : Nat → Stack) (string : Nat → UInt8) (length : Int) : Prop where
  inside : ∀ {ω : Type} (context : EncodeContext ω),
    (addQuotedEscapedString stack string length context).isSome = true
  fails : ∀ {ω : Type} (context : EncodeContext ω), Reliable context.handler →
    ∀ result, addQuotedEscapedString stack string length context = some result →
      (isOk result = false ↔ ∃ c ∈ bytesAt string length, Rejected c)
  whole : ∀ context : EncodeContext Bytes, context.handler = collect →
    (∀ c ∈ bytesAt string length, ¬ Rejected c) →
    addQuotedEscapedString stack string length context =
      some (.ok () (context.write (quoted (bytesAt string length))))

theorem escapes_every_string (stack : Nat → Stack) (string : Nat → UInt8) (length : Int) :
    Escapes stack string length where
  inside context := by
    rw [addQuotedEscapedString_eq]
    rfl
  fails context hreliable result hresult := by
    rw [addQuotedEscapedString_eq] at hresult
    cases hresult
    have hwrites := writesAt_addQuotedEscapedString (bytesAt string length) context
    have hok : isOk (JSONCodec.addQuotedEscapedString (bytesAt string length) context) = true ↔
        ∀ c ∈ bytesAt string length, ¬ Rejected c := by
      rw [← escapable_iff]
      exact ⟨hwrites.sound, hwrites.complete hreliable⟩
    rw [← Bool.not_eq_true, hok]
    push Not
    rfl
  whole context hcollect hall := by
    rw [addQuotedEscapedString_eq]
    exact congrArg some (writes_addQuotedEscapedString ((escapable_iff _).2 hall) context hcollect)

end SentryCocoa.JSONCodec.WorkBuffer
