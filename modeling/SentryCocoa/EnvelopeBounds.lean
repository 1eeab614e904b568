import SentryCocoa.EnvelopeRoundTrip

/-! Reading any bytes as an envelope: which parts of the data are requested, and whether an
exception ends the reading. What the headers hold is not of a known class here: an object
that is only stored does no harm, one that is sent a message it does not know raises. -/
namespace SentryCocoa.Serialization
open SentryCocoa.Foundation SentryCocoa.Envelope

/-! Which objects answer. -/

def answersAsString : Option Value → Bool
  | none => true
  | some (.string _) => true
  | some _ => false

/-- A user is looked at only when there is a public key. -/
def traceContextAnswers (trace : List (String × Value)) : Bool :=
  answersAsString (trace.lookup "trace_id") &&
    match trace.lookup "public_key", trace.lookup "user" with
    | none, _ => true
    | some _, none => true
    | some _, some (.dictionary _) => true
    | some _, some _ => false

def traceAnswers : Option Value → Bool
  | none => true
  | some (.dictionary trace) => traceContextAnswers trace
  | some _ => false

def envelopeHeaderAnswers : Value → Bool
  | .dictionary entries =>
    answersAsString (entries.lookup "event_id") && traceAnswers (entries.lookup "trace") &&
      answersAsString (entries.lookup "sent_at")
  | _ => false

/-- The name of an attachment type is compared only for an item with a file name. -/
def attachmentAnswers (header : List (String × Value)) : Bool :=
  (header.lookup "filename").isNone || answersAsString (header.lookup "attachment_type")

/-! The requests. -/

/-- A location and a length. -/
abbrev NSRange := Nat × Nat

/-- What a header line makes the loop do. -/
inductive ItemTurn where
  | raise
  | returnNil
  | leave
  | request (range : NSRange) (next : Nat)

inductive Ending where
  | returned
  | raised
  deriving DecidableEq, Repr

structure Reading where
  requests : List NSRange
  ending : Ending

/-- The body of the loop behind the header of an item. -/
def itemTurn (data : NSData) (endOfEnvelope i : Nat) : Value → ItemTurn
  | .dictionary header =>
    if (header.lookup "type").isNone then .leave
    else match bodyLengthNumber header with
      | .error _ => .raise
      | .ok number =>
        let bodyLength := number.unsignedIntegerValue
        if endOfEnvelope = i ∧ bodyLength ≠ 0 then .leave
        else if attachmentAnswers header then
          let i := if endOfEnvelope = i then wrap (i + 1) else i
          if bodyLength > 0 ∧ data.length < wrap (i + 1 + bodyLength) then .returnNil
          else .request (wrap (i + 1), bodyLength) (wrap (i + 1 + number.integerValue))
        else .raise
  | _ => .raise

/-- The header of an item in the data from `itemHeaderStart` up to `i`. -/
def itemHeaderRange (i itemHeaderStart : Nat) : NSRange :=
  (itemHeaderStart, wrap (i - itemHeaderStart : Int))

/-- The loop over the items, with the requests made so far; no result when the fuel runs out. -/
def requestItems (json : NSJSONSerialization) (data : NSData) (endOfEnvelope : Nat) :
    Nat → Nat → Nat → List NSRange → Option Reading
  | 0, _, _, _ => none
  | fuel + 1, i, itemHeaderStart, requests =>
    if i ≤ endOfEnvelope then
      if data.bytes[i]? = some newline ∨ i = endOfEnvelope then
        let range := itemHeaderRange i itemHeaderStart
        let requests := requests ++ [range]
        match data.subdataWithRange range.1 range.2 with
        | none => some ⟨requests, .raised⟩
        | some itemHeaderData =>
          match json.JSONObjectWithData itemHeaderData with
          | none => some ⟨requests, .returned⟩
          | some header =>
            match itemTurn data endOfEnvelope i header with
            | .raise => some ⟨requests, .raised⟩
            | .returnNil => some ⟨requests, .returned⟩
            | .leave => some ⟨requests, .returned⟩
            | .request range next =>
              let requests := requests ++ [range]
              match data.subdataWithRange range.1 range.2 with
              | none => some ⟨requests, .raised⟩
              | some _ =>
                requestItems json data endOfEnvelope fuel (wrap (next + 1)) next requests
      else requestItems json data endOfEnvelope fuel (wrap (i + 1)) itemHeaderStart requests
    else some ⟨requests, .returned⟩

/-- The envelope header is copied byte by byte, so nothing is requested for it. -/
def requestsOfEnvelope (json : NSJSONSerialization) (data : NSData) : Option Reading :=
  match data.bytes.findIdx? (· == newline) with
  | none => some ⟨[], .returned⟩
  | some envelopeHeaderIndex =>
    match data.subdataWithRange 0 envelopeHeaderIndex with
    | none => some ⟨[], .raised⟩
    | some headerData =>
      match json.JSONObjectWithData headerData with
      | none => some ⟨[], .returned⟩
      | some header =>
        if envelopeHeaderAnswers header then
          if envelopeHeaderIndex = 0 then some ⟨[], .returned⟩
          else requestItems json data (data.length - 1) (data.length + 1)
            (envelopeHeaderIndex + 1) (envelopeHeaderIndex + 1) []
        else some ⟨[], .raised⟩

/-- Only an empty range may lie past the end. -/
def InBounds (data : NSData) (range : NSRange) : Prop :=
  range.1 + range.2 ≤ data.length ∨ range = (data.length + 1, 0)

/-- The reading ends with nil or an envelope, and never leaves the data. -/
def Sound (data : NSData) (reading : Reading) : Prop :=
  reading.ending = .returned ∧ ∀ range ∈ reading.requests, InBounds data range

def ReadsSafely (json : NSJSONSerialization) (data : NSData) : Prop :=
  ∃ reading, requestsOfEnvelope json data = some reading ∧ Sound data reading

/-! The header lines. Each ends at the first newline, or with the data, and the next one begins
behind the body. -/

def envelopeHeader (json : NSJSONSerialization) (data : NSData) (index : Nat) : Option Value :=
  (data.subdataWithRange 0 index).bind json.JSONObjectWithData

def lineEnd (data : NSData) (start : Nat) : Nat :=
  min (start + (data.bytes.drop start).findIdx (· == newline)) (data.length - 1)

def itemHeader (json : NSJSONSerialization) (data : NSData) (itemHeaderStart i : Nat) :
    Option Value :=
  (data.subdataWithRange itemHeaderStart (i - itemHeaderStart)).bind json.JSONObjectWithData

def bodyLength (header : List (String × Value)) : Nat :=
  match header.lookup "length" with
  | some (.number number) => number.unsignedIntegerValue
  | _ => 0

/-- The header lines of the items, by start and end. The search for the end of a line begins
behind the separator. -/
inductive HeaderLine (json : NSJSONSerialization) (data : NSData) : Nat → Nat → Prop where
  | first {index : Nat} {header : Value}
    (hindex : data.bytes.findIdx? (· == newline) = some index)
    (hheader : envelopeHeader json data index = some header)
    (hmore : index + 1 < data.length) :
    HeaderLine json data (index + 1) (lineEnd data (index + 1))
  | next {start i : Nat} {header : List (String × Value)}
    (hline : HeaderLine json data start i)
    (hheader : itemHeader json data start i = some (.dictionary header))
    (htype : (header.lookup "type").isSome)
    (hmore : i + 1 + bodyLength header + 1 < data.length) :
    HeaderLine json data (i + 1 + bodyLength header)
      (lineEnd data (i + 1 + bodyLength header + 1))

/-- A header that is no dictionary, a length that is no number, a file name with an attachment
type that is no string or a body that would end at 2⁶⁴ or later does not fit; the last two
are looked at only when the line does not end the data, or there is no body. -/
def ItemHeaderFits (data : NSData) (i : Nat) (value : Value) : Prop :=
  ∃ header, value = .dictionary header ∧ ((header.lookup "type").isSome →
    (header.lookup "length" = none ∨ ∃ number, header.lookup "length" = some (.number number)) ∧
    (i = data.length - 1 ∧ bodyLength header ≠ 0 ∨
      attachmentAnswers header = true ∧ i + 1 + bodyLength header < 2 ^ 64))

/-- The header of the envelope and those of its items fit. -/
structure HeadersFit (json : NSJSONSerialization) (data : NSData) : Prop where
  envelope : ∀ index header, data.bytes.findIdx? (· == newline) = some index →
    envelopeHeader json data index = some header → envelopeHeaderAnswers header = true
  items : ∀ start i header, HeaderLine json data start i →
    itemHeader json data start i = some header → ItemHeaderFits data i header

/-! One turn. -/

theorem wrap_add_wrap (n : Nat) (x : Int) : wrap (n + wrap x) = wrap (n + x) := by
  unfold wrap
  omega

theorem bodyLengthNumber_eq {header : List (String × Value)}
    (h : header.lookup "length" = none ∨ ∃ number, header.lookup "length" = some (.number number)) :
    ∃ number, bodyLengthNumber header = .ok number ∧
      number.unsignedIntegerValue = bodyLength header := by
  unfold bodyLengthNumber bodyLength
  rcases h with h | ⟨number, h⟩
  · rw [h]
    exact ⟨.integer 0, rfl, rfl⟩
  · rw [h]
    exact ⟨number, rfl, rfl⟩

theorem exists_of_bodyLengthNumber {header : List (String × Value)} {number : NSNumber}
    (h : bodyLengthNumber header = .ok number) :
    header.lookup "length" = none ∨ ∃ number, header.lookup "length" = some (.number number) := by
  unfold bodyLengthNumber at h
  split at h
  · next hnone => exact .inl hnone
  · next number hnumber => exact .inr ⟨number, hnumber⟩
  · cases h

/-- The turn in terms of the length that the header gives. -/
theorem itemTurn_eq {data : NSData} {endOfEnvelope i : Nat} {header : List (String × Value)}
    (htype : (header.lookup "type").isSome)
    (hlength : header.lookup "length" = none ∨
      ∃ number, header.lookup "length" = some (.number number)) :
    itemTurn data endOfEnvelope i (.dictionary header) =
      if endOfEnvelope = i ∧ bodyLength header ≠ 0 then .leave
      else if attachmentAnswers header then
        if bodyLength header > 0 ∧
            data.length < wrap ((if endOfEnvelope = i then wrap (i + 1) else i) + 1 +
              bodyLength header) then .returnNil
        else .request (wrap ((if endOfEnvelope = i then wrap (i + 1) else i) + 1), bodyLength header)
          (wrap ((if endOfEnvelope = i then wrap (i + 1) else i) + 1 + bodyLength header))
      else .raise := by
  obtain ⟨number, hnumber, heq⟩ := bodyLengthNumber_eq hlength
  have hsigned : ∀ n : Nat, wrap (n + 1 + number.integerValue) = wrap (n + 1 + bodyLength header) := by
    intro n
    have hwrap := wrap_add_wrap (n + 1) number.integerValue
    rw [← heq, NSNumber.unsignedIntegerValue]
    push_cast at hwrap
    exact hwrap.symm
  rw [Option.isSome_iff_ne_none] at htype
  simp only [itemTurn, Option.isNone_iff_eq_none, htype, if_false, hnumber, heq, hsigned]

/-- A header that fits makes the loop end, or requests a body inside of the data. -/
theorem itemTurn_of_fits {data : NSData} {i : Nat} {value : Value} (hi : i < data.length)
    (h : ItemHeaderFits data i value) :
    itemTurn data (data.length - 1) i value = .leave ∨
      itemTurn data (data.length - 1) i value = .returnNil ∨
      ∃ header, value = .dictionary header ∧ (header.lookup "type").isSome ∧
        (i = data.length - 1 ∧ bodyLength header = 0 ∧
            itemTurn data (data.length - 1) i value =
              .request (i + 2, 0) (i + 2) ∨
          i < data.length - 1 ∧
            (bodyLength header = 0 ∨ i + 1 + bodyLength header ≤ data.length) ∧
            itemTurn data (data.length - 1) i value =
              .request (i + 1, bodyLength header) (i + 1 + bodyLength header)) := by
  have hdata : data.length < 2 ^ 63 := data.length_lt
  obtain ⟨header, rfl, hfits⟩ := h
  by_cases htype : (header.lookup "type").isSome
  · obtain ⟨hlength, hbody⟩ := hfits htype
    rw [itemTurn_eq htype hlength]
    by_cases hlast : data.length - 1 = i
    · by_cases hzero : bodyLength header = 0
      · have hanswers : attachmentAnswers header = true := by
          rcases hbody with ⟨-, hne⟩ | ⟨hanswers, -⟩
          · exact absurd hzero hne
          · exact hanswers
        refine .inr (.inr ⟨header, rfl, htype, .inl ⟨hlast.symm, hzero, ?_⟩⟩)
        have hnext : wrap (i + 1 : Int) = i + 1 := wrap_of_lt (show i + 1 < 2 ^ 64 by omega)
        have hbehind : wrap (i + 1 + 1 : Int) = i + 2 := wrap_of_lt (show i + 2 < 2 ^ 64 by omega)
        simp [hlast, hzero, hanswers, hnext, hbehind]
      · left
        rw [if_pos ⟨hlast, hzero⟩]
    · have hanswers : attachmentAnswers header = true ∧ i + 1 + bodyLength header < 2 ^ 64 := by
        rcases hbody with ⟨heq, -⟩ | hanswers
        · exact absurd heq.symm hlast
        · exact hanswers
      have hnext : wrap (i + 1 : Int) = i + 1 := wrap_of_lt (show i + 1 < 2 ^ 64 by omega)
      have hbehind : wrap (i + 1 + bodyLength header : Int) = i + 1 + bodyLength header :=
        wrap_of_lt hanswers.2
      simp only [hlast, false_and, if_false, hanswers.1, if_true, hnext, hbehind]
      by_cases hlong : bodyLength header > 0 ∧ data.length < i + 1 + bodyLength header
      · right
        left
        rw [if_pos hlong]
      · rw [if_neg hlong]
        exact .inr (.inr ⟨header, rfl, htype, .inr ⟨by omega, by omega, rfl⟩⟩)
  · left
    have hnone : (header.lookup "type").isNone = true := by
      rwa [Option.isNone_iff_eq_none, ← Option.not_isSome_iff_eq_none]
    simp only [itemTurn, hnone, if_true]

/-- The body of an item that others follow is requested. -/
theorem itemTurn_of_more {data : NSData} {i : Nat} {header : List (String × Value)}
    (h : ItemHeaderFits data i (.dictionary header)) (htype : (header.lookup "type").isSome)
    (hmore : i + 1 + bodyLength header + 1 < data.length) :
    itemTurn data (data.length - 1) i (.dictionary header) =
      .request (i + 1, bodyLength header) (i + 1 + bodyLength header) := by
  have hdata : data.length < 2 ^ 63 := data.length_lt
  obtain ⟨header', heq, hfits⟩ := h
  obtain rfl : header = header' := by
    injection heq
  obtain ⟨hlength, ⟨hlast, -⟩ | ⟨hanswers, -⟩⟩ := hfits htype
  · omega
  · have hlast : ¬ data.length - 1 = i := by omega
    have hnext : wrap (i + 1 : Int) = i + 1 := wrap_of_lt (show i + 1 < 2 ^ 64 by omega)
    have hbehind : wrap (i + 1 + bodyLength header : Int) = i + 1 + bodyLength header :=
      wrap_of_lt (show i + 1 + bodyLength header < 2 ^ 64 by omega)
    have hfits : ¬ (bodyLength header > 0 ∧ data.length < i + 1 + bodyLength header) := by omega
    rw [itemTurn_eq htype hlength]
    simp only [hlast, false_and, if_false, hanswers, if_true, hnext, hbehind, hfits]

/-- A header that does not fit raises, by itself or through the body that it requests. -/
theorem itemTurn_of_not_fits {data : NSData} {i : Nat} {value : Value} (hi : i < data.length)
    (h : ¬ ItemHeaderFits data i value) :
    itemTurn data (data.length - 1) i value = .raise ∨
      ∃ range next, itemTurn data (data.length - 1) i value = .request range next ∧
        data.subdataWithRange range.1 range.2 = none := by
  have hdata : data.length < 2 ^ 63 := data.length_lt
  by_cases hdictionary : ∃ header, value = .dictionary header
  · obtain ⟨header, rfl⟩ := hdictionary
    by_cases htype : (header.lookup "type").isSome
    · by_cases hlength : header.lookup "length" = none ∨
          ∃ number, header.lookup "length" = some (.number number)
      · have hbody : ¬ (i = data.length - 1 ∧ bodyLength header ≠ 0) ∧
            ¬ (attachmentAnswers header = true ∧ i + 1 + bodyLength header < 2 ^ 64) := by
          rw [← not_or]
          exact fun hfits => h ⟨header, rfl, fun _ => ⟨hlength, hfits⟩⟩
        rw [itemTurn_eq htype hlength, if_neg (fun hleave => hbody.1 ⟨hleave.1.symm, hleave.2⟩)]
        by_cases hanswers : attachmentAnswers header = true
        · have hlong : 2 ^ 64 ≤ i + 1 + bodyLength header := by
            by_contra hlt
            exact hbody.2 ⟨hanswers, not_le.mp hlt⟩
          have hlast : ¬ data.length - 1 = i := by
            intro hlast
            exact hbody.1 ⟨hlast.symm, by omega⟩
          have hlt : bodyLength header < 2 ^ 64 := by
            unfold bodyLength
            split
            · unfold NSNumber.unsignedIntegerValue wrap
              omega
            · omega
          right
          rw [if_pos hanswers, if_neg hlast, if_neg (by unfold wrap; omega)]
          refine ⟨_, _, rfl, ?_⟩
          have hnext : wrap (i + 1 : Int) = i + 1 := wrap_of_lt (show i + 1 < 2 ^ 64 by omega)
          unfold NSData.subdataWithRange
          rw [if_neg (by omega), if_neg (by simp only [hnext]; omega)]
        · left
          rw [if_neg hanswers]
      · left
        have hsome : ¬ (header.lookup "type").isNone = true := by
          rw [Option.isNone_iff_eq_none]
          exact Option.isSome_iff_ne_none.mp htype
        cases hnumber : bodyLengthNumber header with
        | error fault =>
          simp only [itemTurn, hsome, hnumber]
          rfl
        | ok number => exact absurd (exists_of_bodyLengthNumber hnumber) hlength
    · exact absurd ⟨header, rfl, fun htype' => absurd htype' htype⟩ h
  · left
    cases value with
    | dictionary header => exact absurd ⟨header, rfl⟩ hdictionary
    | _ => rfl

/-! The loop. -/

section
variable {json : NSJSONSerialization} {data : NSData} {start : Nat}

theorem lineEnd_le (hstart : start < data.length) : lineEnd data start < data.length := by
  unfold lineEnd
  omega

theorem le_lineEnd (hstart : start < data.length) : start ≤ lineEnd data start := by
  unfold lineEnd
  omega

/-- A line ends at a newline or at the last byte. -/
theorem lineEnd_ends (hstart : start < data.length) :
    data.bytes[lineEnd data start]? = some newline ∨ lineEnd data start = data.length - 1 := by
  unfold lineEnd
  rcases Nat.le_total (start + (data.bytes.drop start).findIdx (· == newline)) (data.length - 1)
    with hle | hge
  · left
    have hlt : (data.bytes.drop start).findIdx (· == newline) < (data.bytes.drop start).length := by
      rw [List.length_drop]
      change _ < data.length - start
      omega
    have hnewline := List.findIdx_getElem (w := hlt)
    rw [beq_iff_eq, List.getElem_drop] at hnewline
    rw [min_eq_left hle]
    exact List.getElem?_eq_some_iff.mpr ⟨_, hnewline⟩
  · right
    exact min_eq_right hge

/-- Nothing before the end of a line ends it. -/
theorem not_ends_of_lt_lineEnd {j : Nat} (hj : start + j < lineEnd data start) :
    data.bytes[start + j]? ≠ some newline := by
  have hlt : j < (data.bytes.drop start).findIdx (· == newline) := by
    unfold lineEnd at hj
    omega
  have hlength := (data.bytes.drop start).findIdx_le_length (p := (· == newline))
  have hbyte := List.not_of_lt_findIdx hlt
  rw [List.length_drop] at hlength
  rw [List.getElem?_eq_getElem (by omega)]
  intro hnewline
  rw [List.getElem_drop] at hbyte
  rw [Option.some.injEq] at hnewline
  simp [hnewline] at hbyte

/-- Up to the end of the line the loop only counts. -/
theorem requestItems_scan {fuel k i start : Nat} {requests : List NSRange}
    (hscan : ∀ j < k, data.bytes[i + j]? ≠ some newline) (hend : i + k ≤ data.length - 1) :
    requestItems json data (data.length - 1) (fuel + k) i start requests =
      requestItems json data (data.length - 1) fuel (i + k) start requests := by
  induction k generalizing i with
  | zero => rfl
  | succ k ih =>
    have hdata : data.length < 2 ^ 63 := data.length_lt
    have hhere : ¬ (data.bytes[i]? = some newline ∨ i = data.length - 1) := by
      rintro (hnewline | hlast)
      · exact hscan 0 (by omega) hnewline
      · omega
    have hnext : wrap (i + 1 : Int) = i + 1 := wrap_of_lt (show i + 1 < 2 ^ 64 by omega)
    have hrest : ∀ j < k, data.bytes[i + 1 + j]? ≠ some newline := by
      intro j hj
      rw [Nat.add_assoc, Nat.add_comm 1 j]
      exact hscan (j + 1) (by omega)
    rw [← Nat.add_assoc, requestItems, if_pos (by omega), if_neg hhere, hnext,
      ih hrest (by omega)]
    congr 1
    omega

variable (json) in
/-- With enough fuel the loop comes to the end of its line. -/
theorem requestItems_lineEnd (start : Nat) (requests : List NSRange) {fuel i : Nat}
    (hi : i < data.length) (hfuel : data.length + 2 ≤ fuel + i) :
    ∃ rest < fuel, data.length + 1 ≤ rest + lineEnd data i ∧
      requestItems json data (data.length - 1) fuel i start requests =
        requestItems json data (data.length - 1) (rest + 1) (lineEnd data i) start requests := by
  have hle := le_lineEnd hi
  have hlt := lineEnd_le hi
  obtain ⟨rest, hrest⟩ : ∃ rest, fuel = rest + 1 + (lineEnd data i - i) :=
    ⟨fuel - 1 - (lineEnd data i - i), by omega⟩
  refine ⟨rest, by omega, by omega, ?_⟩
  rw [hrest, requestItems_scan (fun j hj => not_ends_of_lt_lineEnd (by omega)) (by omega)]
  congr 1
  omega

variable (data) in
theorem subdataWithRange_isSome (location length : Nat) (h : location + length ≤ data.length) :
    ∃ part, data.subdataWithRange location length = some part := by
  unfold NSData.subdataWithRange
  split
  · exact ⟨_, rfl⟩
  · exact ⟨_, rfl⟩

/-- What the loop does at the end of a line. -/
theorem requestItems_turn {rest i start : Nat} {requests : List NSRange} (hi : i < data.length)
    (hstart : start ≤ i) (hends : data.bytes[i]? = some newline ∨ i = data.length - 1) :
    requestItems json data (data.length - 1) (rest + 1) i start requests =
      match itemHeader json data start i with
      | none => some ⟨requests ++ [(start, i - start)], .returned⟩
      | some header =>
        match itemTurn data (data.length - 1) i header with
        | .raise => some ⟨requests ++ [(start, i - start)], .raised⟩
        | .returnNil => some ⟨requests ++ [(start, i - start)], .returned⟩
        | .leave => some ⟨requests ++ [(start, i - start)], .returned⟩
        | .request range next =>
          match data.subdataWithRange range.1 range.2 with
          | none => some ⟨requests ++ [(start, i - start)] ++ [range], .raised⟩
          | some _ => requestItems json data (data.length - 1) rest (wrap (next + 1)) next
              (requests ++ [(start, i - start)] ++ [range]) := by
  have hdata : data.length < 2 ^ 63 := data.length_lt
  have hrange : itemHeaderRange i start = (start, i - start) := by
    unfold itemHeaderRange wrap
    congr 1
    omega
  obtain ⟨part, hpart⟩ := subdataWithRange_isSome data start (i - start) (by omega)
  rw [requestItems, if_pos (by omega), if_pos hends]
  simp only [hrange, hpart, itemHeader, Option.bind_some]

theorem HeaderLine.bounds {start i : Nat} (h : HeaderLine json data start i) :
    start ≤ i ∧ i < data.length := by
  cases h with
  | first hindex hheader hmore => exact ⟨le_lineEnd hmore, lineEnd_le hmore⟩
  | next hline hheader htype hmore =>
    have hle := le_lineEnd hmore
    exact ⟨by omega, lineEnd_le hmore⟩

theorem HeaderLine.ends {start i : Nat} (h : HeaderLine json data start i) :
    data.bytes[i]? = some newline ∨ i = data.length - 1 := by
  cases h with
  | first hindex hheader hmore => exact lineEnd_ends hmore
  | next hline hheader htype hmore => exact lineEnd_ends hmore

theorem inBounds_append {requests : List NSRange} {range : NSRange}
    (hrequests : ∀ range ∈ requests, InBounds data range) (h : InBounds data range) :
    ∀ range' ∈ requests ++ [range], InBounds data range' := by
  intro range' hrange'
  rcases List.mem_append.mp hrange' with hmem | hmem
  · exact hrequests range' hmem
  · rw [List.mem_singleton.mp hmem]
    exact h

/-- When every header fits, the loop returns from wherever it is, and stays in the data. -/
theorem sound_of_headersFit (hfit : HeadersFit json data) {fuel i start : Nat}
    {requests : List NSRange} (hstart : start ≤ i)
    (hline : i < data.length → HeaderLine json data start (lineEnd data i))
    (hfuel : i < data.length → data.length + 2 ≤ fuel + i) (hpos : 0 < fuel)
    (hdata : 0 < data.length) (hrequests : ∀ range ∈ requests, InBounds data range) :
    ∃ reading, requestItems json data (data.length - 1) fuel i start requests = some reading ∧
      Sound data reading := by
  induction fuel using Nat.strong_induction_on generalizing i start requests with
  | _ fuel ih =>
    have hlength : data.length < 2 ^ 63 := data.length_lt
    by_cases hi : i < data.length
    · obtain ⟨rest, hfewer, hrest, heq⟩ :=
        requestItems_lineEnd json start requests hi (hfuel hi)
      have hheader := hline hi
      obtain ⟨hle, hlt⟩ := hheader.bounds
      have hbounds : ∀ range ∈ requests ++ [(start, lineEnd data i - start)],
          InBounds data range := inBounds_append hrequests (.inl (by dsimp only; omega))
      rw [heq, requestItems_turn hlt hle (lineEnd_ends hi)]
      cases hitem : itemHeader json data start (lineEnd data i) with
      | none => exact ⟨_, rfl, rfl, hbounds⟩
      | some value =>
        rcases itemTurn_of_fits hlt (hfit.items _ _ _ hheader hitem) with
          hleave | hnil | ⟨header, rfl, htype, hlast | hbefore⟩
        · simp only [hleave]
          exact ⟨_, rfl, rfl, hbounds⟩
        · simp only [hnil]
          exact ⟨_, rfl, rfl, hbounds⟩
        · obtain ⟨hlast, hzero, hturn⟩ := hlast
          have hnext : wrap ((lineEnd data i + 2 : Nat) + 1 : Int) = lineEnd data i + 3 :=
            wrap_of_lt (show lineEnd data i + 3 < 2 ^ 64 by omega)
          simp only [hturn, NSData.subdataWithRange, if_true, hnext]
          apply ih rest (by omega) (by omega) (fun hmore => absurd hmore (by omega))
            (fun hmore => absurd hmore (by omega)) (by omega)
          exact inBounds_append hbounds (.inr (by rw [hlast]; congr 1; omega))
        · obtain ⟨hbefore, hbody, hturn⟩ := hbefore
          obtain ⟨part, hpart⟩ := subdataWithRange_isSome data (lineEnd data i + 1)
            (bodyLength header) (by omega)
          have hnext : wrap ((lineEnd data i + 1 + bodyLength header : Nat) + 1 : Int) =
              lineEnd data i + 1 + bodyLength header + 1 :=
            wrap_of_lt (show lineEnd data i + 1 + bodyLength header + 1 < 2 ^ 64 by omega)
          simp only [hturn, hpart, hnext]
          apply ih rest (by omega) (by omega) (fun hmore => .next hheader hitem htype hmore)
            (by omega) (by omega)
          exact inBounds_append hbounds (.inl (by dsimp only; omega))
    · obtain ⟨rest, rfl⟩ : ∃ rest, fuel = rest + 1 := ⟨fuel - 1, by omega⟩
      rw [requestItems, if_neg (by omega)]
      exact ⟨_, rfl, rfl, hrequests⟩

/-- A header that does not fit ends the reading with an exception. -/
theorem not_sound_of_not_fits {rest i start : Nat} {requests : List NSRange} {header : Value}
    {reading : Reading} (hline : HeaderLine json data start i)
    (hheader : itemHeader json data start i = some header)
    (hfits : ¬ ItemHeaderFits data i header)
    (hread : requestItems json data (data.length - 1) (rest + 1) i start requests =
      some reading) : ¬ Sound data reading := by
  obtain ⟨hle, hlt⟩ := hline.bounds
  rw [requestItems_turn hlt hle hline.ends, hheader] at hread
  rintro ⟨hreturned, -⟩
  rcases itemTurn_of_not_fits hlt hfits with hraise | ⟨range, next, hturn, hpart⟩
  · simp only [hraise] at hread
    cases hread
    cases hreturned
  · simp only [hturn, hpart] at hread
    cases hread
    cases hreturned

/-- A sound reading comes to every header line. -/
theorem HeaderLine.reached {reading : Reading} (hread : requestsOfEnvelope json data = some reading)
    (hsound : Sound data reading) {start i : Nat} (h : HeaderLine json data start i) :
    ∃ rest requests, data.length + 1 ≤ rest + i ∧
      requestItems json data (data.length - 1) (rest + 1) i start requests = some reading := by
  have hlength : data.length < 2 ^ 63 := data.length_lt
  induction h with
  | @first index header hindex hheader hmore =>
    unfold requestsOfEnvelope at hread
    unfold envelopeHeader at hheader
    obtain ⟨headerData, hpart, hjson⟩ := Option.bind_eq_some_iff.mp hheader
    rw [hindex] at hread
    simp only [hpart, hjson] at hread
    have hne : index ≠ 0 := by
      rintro rfl
      cases hpart
      rw [json.JSONObjectWithData_empty] at hjson
      cases hjson
    split at hread
    · obtain ⟨rest, -, hrest, heq⟩ := requestItems_lineEnd json (index + 1) [] hmore
        (show data.length + 2 ≤ data.length + 1 + (index + 1) by omega)
      exact ⟨rest, [], hrest, heq ▸ hread⟩
    · cases hread
      cases hsound.1
  | @next start i header hline hheader htype hmore ih =>
    obtain ⟨rest, requests, hrest, heq⟩ := ih
    obtain ⟨hle, hlt⟩ := hline.bounds
    by_cases hfits : ItemHeaderFits data i (.dictionary header)
    · have hturn := itemTurn_of_more hfits htype hmore
      rw [requestItems_turn hlt hle hline.ends, hheader] at heq
      obtain ⟨part, hpart⟩ := subdataWithRange_isSome data (i + 1) (bodyLength header)
        (by omega)
      have hnext : wrap ((i + 1 + bodyLength header : Nat) + 1 : Int) =
          i + 1 + bodyLength header + 1 :=
        wrap_of_lt (show i + 1 + bodyLength header + 1 < 2 ^ 64 by omega)
      simp only [hturn, hpart, hnext] at heq
      obtain ⟨rest', -, hrest', heq'⟩ := requestItems_lineEnd json
        (i + 1 + bodyLength header)
        (requests ++ [(start, i - start)] ++ [(i + 1, bodyLength header)]) hmore
        (show data.length + 2 ≤ rest + (i + 1 + bodyLength header + 1) by omega)
      exact ⟨rest', _, hrest', heq' ▸ heq⟩
    · exact absurd hsound (not_sound_of_not_fits hline hheader hfits heq)

end

/-- Reading ends with nil or an envelope and requests no part outside of the data exactly when
every header that the reader comes to fits. -/
theorem readsSafely_iff (json : NSJSONSerialization) (data : NSData) :
    ReadsSafely json data ↔ HeadersFit json data := by
  constructor
  · rintro ⟨reading, hread, hsound⟩
    constructor
    · intro index header hindex hheader
      obtain ⟨headerData, hpart, hjson⟩ := Option.bind_eq_some_iff.mp hheader
      unfold requestsOfEnvelope at hread
      rw [hindex] at hread
      simp only [hpart, hjson] at hread
      split at hread
      · assumption
      · cases hread
        cases hsound.1
    · intro start i header hline hheader
      obtain ⟨rest, requests, -, heq⟩ := hline.reached hread hsound
      by_contra hfits
      exact not_sound_of_not_fits hline hheader hfits heq hsound
  · intro hfit
    unfold ReadsSafely requestsOfEnvelope
    have hempty : Sound data ⟨[], .returned⟩ := ⟨rfl, fun range hrange => nomatch hrange⟩
    cases hindex : data.bytes.findIdx? (· == newline) with
    | none => exact ⟨_, rfl, hempty⟩
    | some index =>
      have hlt : index < data.length := (List.findIdx?_eq_some_iff_getElem.mp hindex).1
      obtain ⟨headerData, hpart⟩ := subdataWithRange_isSome data 0 index (by omega)
      simp only [hpart]
      cases hjson : json.JSONObjectWithData headerData with
      | none => exact ⟨_, rfl, hempty⟩
      | some header =>
        have hheader : envelopeHeader json data index = some header := by
          rw [envelopeHeader, hpart, Option.bind_some, hjson]
        simp only [hfit.envelope index header hindex hheader, if_true]
        split
        · exact ⟨_, rfl, hempty⟩
        · apply sound_of_headersFit hfit le_rfl (fun hmore => .first hindex hheader hmore)
            (by omega) (by omega) (by omega)
          exact fun range hrange => nomatch hrange

/-! A negative length wraps past the check. -/

/-- `{"length":-1,"type":"x"}` -/
def negativeLine : List UInt8 :=
  [123, 34, 108, 101, 110, 103, 116, 104, 34, 58, 45, 49, 44, 34, 116, 121, 112, 101, 34, 58, 34,
    120, 34, 125]

def negativeJSON : NSJSONSerialization where
  isValidJSONObject _ := false
  dataWithJSONObject _ := none
  JSONObjectWithData data :=
    let text := data.bytes.dropWhile (· == newline)
    if text = [123, 125] then some (.dictionary [])
    else if text = negativeLine then
      some (.dictionary [("length", .number (.integer (-1))), ("type", .string "x")])
    else none
  round_trip h _ hdata := nomatch hdata
  newline_notMem h := nomatch h
  JSONObjectWithData_empty := rfl
  JSONObjectWithData_newline := by
    intro data data' h
    simp only [h]
    rfl

def negativeEnvelope : NSData := ⟨[123, 125, newline] ++ negativeLine ++ [newline, 120], by decide⟩

/-- The body is requested up to 2⁶⁴ bytes behind its start. -/
theorem not_readsSafely_of_negative_length : ¬ ReadsSafely negativeJSON negativeEnvelope := by
  rintro ⟨reading, hread, hreturned, -⟩
  have hraised : requestsOfEnvelope negativeJSON negativeEnvelope =
      some ⟨[(3, 24), (28, 2 ^ 64 - 1)], .raised⟩ := rfl
  rw [hraised, Option.some.injEq] at hread
  subst hread
  cases hreturned

/-! The reader of envelopes agrees, as long as it stores no object of another class. -/

/-- A result with the answer to whether everything answers. -/
def Agrees {α : Type} (result : Except Fault α) (answers : Bool) : Prop :=
  match result with
  | .ok _ => answers = true
  | .error .exception => answers = false
  | .error .otherClass => True

theorem Agrees.bind {α β : Type} {first : Except Fault α} {next : α → Except Fault β}
    {answers answers' : Bool} (h : Agrees first answers)
    (hnext : ∀ value, first = .ok value → Agrees (next value) answers') :
    Agrees (first >>= next) (answers && answers') := by
  cases first with
  | ok value =>
    have htrue : answers = true := h
    rw [htrue, Bool.true_and]
    exact hnext value rfl
  | error fault =>
    cases fault with
    | exception =>
      have hfalse : answers = false := h
      rw [hfalse, Bool.false_and]
      rfl
    | otherClass => trivial

theorem Agrees.bind_true {α β : Type} {first : Except Fault α} {next : α → Except Fault β}
    {answers : Bool} (h : Agrees first true)
    (hnext : ∀ value, first = .ok value → Agrees (next value) answers) :
    Agrees (first >>= next) answers := by
  have hbind := h.bind hnext
  rwa [Bool.true_and] at hbind

theorem Agrees.bind_pure {α β : Type} {first : Except Fault α} {answers : Bool}
    (h : Agrees first answers) (make : α → β) :
    Agrees (first >>= fun value => pure (make value)) answers := by
  have hpure : ∀ value, first = .ok value → Agrees (pure (make value)) true := fun _ _ => rfl
  have hbind := h.bind hpure
  rwa [Bool.and_true] at hbind

/-- Reading a string never raises by itself. -/
theorem agrees_stringValue (value : Option Value) :
    Agrees (stringValue value) (answersAsString value) := by
  unfold stringValue answersAsString
  split
  · rfl
  · rfl
  · trivial

theorem agrees_stringValue_true (value : Option Value) : Agrees (stringValue value) true := by
  unfold stringValue
  split
  · rfl
  · rfl
  · trivial

theorem stringValue_eq_none {value : Option Value} (h : stringValue value = .ok none) :
    value = none := by
  unfold stringValue at h
  split at h
  · rfl
  · cases h
  · cases h

theorem stringValue_eq_some {value : Option Value} {s : String}
    (h : stringValue value = .ok (some s)) : value = some (.string s) := by
  unfold stringValue at h
  split at h
  · cases h
  · cases h
    rfl
  · cases h

/-- The fields of a trace context that are only stored. -/
theorem agrees_storedFields {α : Type} (trace : List (String × Value))
    (make : Option String → Option String → Option String → Option String → Option String →
      Option String → α) :
    Agrees (do
      let releaseName ← stringValue (trace.lookup "release")
      let environment ← stringValue (trace.lookup "environment")
      let transaction ← stringValue (trace.lookup "transaction")
      let sampleRate ← stringValue (trace.lookup "sample_rate")
      let sampled ← stringValue (trace.lookup "sampled")
      let replayId ← stringValue (trace.lookup "replay_id")
      pure (make releaseName environment transaction sampleRate sampled replayId)) true := by
  refine (agrees_stringValue_true _).bind_true fun releaseName _ => ?_
  refine (agrees_stringValue_true _).bind_true fun environment _ => ?_
  refine (agrees_stringValue_true _).bind_true fun transaction _ => ?_
  refine (agrees_stringValue_true _).bind_true fun sampleRate _ => ?_
  refine (agrees_stringValue_true _).bind_true fun sampled _ => ?_
  refine (agrees_stringValue_true _).bind_true fun replayId _ => ?_
  rfl

theorem agrees_traceContextWithDict (trace : List (String × Value)) :
    Agrees (traceContextWithDict trace) (traceContextAnswers trace) := by
  unfold traceContextWithDict traceContextAnswers
  refine (agrees_stringValue _).bind fun traceId _ => ?_
  refine (agrees_stringValue_true _).bind_true fun publicKey hpublicKey => ?_
  cases publicKey with
  | none =>
    rw [stringValue_eq_none hpublicKey]
    rfl
  | some publicKey =>
    rw [stringValue_eq_some hpublicKey]
    cases huser : trace.lookup "user" with
    | none => exact (agrees_stringValue_true _).bind_true fun _ _ => agrees_storedFields trace _
    | some user =>
      cases user with
      | dictionary userInfo =>
        dsimp only
        split
        · exact agrees_storedFields trace _
        · exact agrees_storedFields trace _
      | _ => rfl

theorem agrees_headerWithDictionary (dates : NSDateFormatter) (entries : List (String × Value)) :
    Agrees (headerWithDictionary dates entries) (envelopeHeaderAnswers (.dictionary entries)) := by
  unfold headerWithDictionary envelopeHeaderAnswers
  dsimp only
  rw [Bool.and_assoc]
  refine (agrees_stringValue _).bind fun eventId _ => ?_
  cases entries.lookup "trace" with
  | none => exact (agrees_stringValue _).bind_pure _
  | some trace =>
    cases trace with
    | dictionary trace =>
      exact (agrees_traceContextWithDict trace).bind fun _ _ => (agrees_stringValue _).bind_pure _
    | _ => rfl

theorem agrees_itemHeaderWithDictionary (header : List (String × Value)) (type : Value)
    (bodyLength : Nat) :
    Agrees (itemHeaderWithDictionary header type bodyLength) (attachmentAnswers header) := by
  unfold itemHeaderWithDictionary attachmentAnswers
  refine (agrees_stringValue_true _).bind_true fun type _ => ?_
  cases type with
  | none => trivial
  | some type =>
    dsimp only
    refine (agrees_stringValue_true _).bind_true fun filename hfilename => ?_
    cases filename with
    | none =>
      rw [stringValue_eq_none hfilename]
      rfl
    | some filename =>
      rw [stringValue_eq_some hfilename]
      dsimp only
      refine (agrees_stringValue_true _).bind_true fun contentType _ => ?_
      cases header.lookup "attachment_type" with
      | none => rfl
      | some attachmentType => cases attachmentType <;> rfl

/-- The reader does what the turn says. -/
def ItemAgrees (data : NSData) : Except Fault ItemRead → ItemTurn → Prop
  | .error .otherClass, _ => True
  | .error .exception, .raise => True
  | .error .exception, .request range _ => data.subdataWithRange range.1 range.2 = none
  | .ok .returnNil, .returnNil => True
  | .ok .leave, .leave => True
  | .ok (.item _ next), .request range next' =>
    next = next' ∧ (data.subdataWithRange range.1 range.2).isSome
  | _, _ => False

theorem readItem_agrees {json : NSJSONSerialization} {data part : NSData}
    (endOfEnvelope : Nat) {i start : Nat} {value : Value}
    (hpart : data.subdataWithRange start (wrap (i - start : Int)) = some part)
    (hjson : json.JSONObjectWithData part = some value) :
    ItemAgrees data (readItem json data endOfEnvelope i start)
      (itemTurn data endOfEnvelope i value) := by
  unfold readItem
  simp only [hpart, hjson]
  cases value with
  | dictionary header =>
    simp only [itemTurn]
    cases htype : header.lookup "type" with
    | none => trivial
    | some type =>
      simp only [Option.isNone_some, Bool.false_eq_true, if_false]
      cases hnumber : bodyLengthNumber header with
      | error fault =>
        have hfault : fault = .exception := by
          unfold bodyLengthNumber at hnumber
          split at hnumber <;> cases hnumber
          rfl
        subst hfault
        trivial
      | ok number =>
        simp only [bind, Except.bind]
        by_cases hleave : endOfEnvelope = i ∧ number.unsignedIntegerValue ≠ 0
        · rw [if_pos hleave, if_pos hleave]
          trivial
        · rw [if_neg hleave, if_neg hleave]
          have hagrees := agrees_itemHeaderWithDictionary header type number.unsignedIntegerValue
          cases hheader : itemHeaderWithDictionary header type number.unsignedIntegerValue with
          | error fault =>
            rw [hheader] at hagrees
            cases fault with
            | exception =>
              have hfalse : attachmentAnswers header = false := hagrees
              rw [hfalse]
              trivial
            | otherClass => trivial
          | ok itemHeader =>
            rw [hheader] at hagrees
            have htrue : attachmentAnswers header = true := hagrees
            rw [if_pos htrue]
            dsimp only
            generalize (if endOfEnvelope = i then wrap (i + 1) else i) = j
            by_cases hlong : number.unsignedIntegerValue > 0 ∧
                data.length < wrap (j + 1 + number.unsignedIntegerValue)
            · rw [if_pos hlong, if_pos hlong]
              trivial
            · rw [if_neg hlong, if_neg hlong]
              cases hbody : data.subdataWithRange (wrap (j + 1)) number.unsignedIntegerValue with
              | none => exact hbody
              | some body => exact ⟨rfl, by rw [hbody]; rfl⟩
  | _ => trivial

/-- The loop over the items ends in the same way. -/
theorem requestItems_of_readItems {json : NSJSONSerialization} {data : NSData}
    {endOfEnvelope fuel i start : Nat} {items : List SentryEnvelopeItem}
    {result : Except Fault (Option (List SentryEnvelopeItem))}
    (h : readItems json data endOfEnvelope fuel i start items = some result)
    (hclass : result ≠ .error .otherClass) (requests : List NSRange) :
    ∃ reading, requestItems json data endOfEnvelope fuel i start requests = some reading ∧
      (reading.ending = .returned ↔ ∃ items', result = .ok items') := by
  induction fuel generalizing i start items requests with
  | zero => cases h
  | succ fuel ih =>
    rw [readItems] at h
    rw [requestItems]
    by_cases hi : i ≤ endOfEnvelope
    · rw [if_pos hi] at h ⊢
      by_cases hends : data.bytes[i]? = some newline ∨ i = endOfEnvelope
      · rw [if_pos hends] at h ⊢
        simp only [itemHeaderRange]
        cases hpart : data.subdataWithRange start (wrap (i - start : Int)) with
        | none =>
          simp only [readItem, hpart] at h
          cases h
          exact ⟨_, rfl, by simp⟩
        | some part =>
          dsimp only
          cases hjson : json.JSONObjectWithData part with
          | none =>
            simp only [readItem, hpart, hjson] at h
            cases h
            exact ⟨_, rfl, by simp⟩
          | some value =>
            have hagrees := readItem_agrees endOfEnvelope hpart hjson
            dsimp only
            generalize readItem json data endOfEnvelope i start = read at h hagrees
            generalize itemTurn data endOfEnvelope i value = turn at hagrees ⊢
            unfold ItemAgrees at hagrees
            split at hagrees
            · cases h
              exact absurd rfl hclass
            · cases h
              exact ⟨_, rfl, by simp⟩
            · cases h
              simp only [hagrees]
              exact ⟨_, rfl, by simp⟩
            · cases h
              exact ⟨_, rfl, by simp⟩
            · cases h
              exact ⟨_, rfl, by simp⟩
            · next item next range next' =>
              obtain ⟨rfl, hbody⟩ := hagrees
              obtain ⟨body, hbody⟩ := Option.isSome_iff_exists.mp hbody
              simp only [hbody]
              exact ih h _
            · exact hagrees.elim
      · rw [if_neg hends] at h ⊢
        exact ih h requests
    · rw [if_neg hi] at h ⊢
      cases h
      exact ⟨_, rfl, by simp⟩

/-- The reader of envelopes makes these requests, and ends in this way. -/
theorem requestsOfEnvelope_of_envelopeWithData {json : NSJSONSerialization}
    {dates : NSDateFormatter} {data : NSData} {result : Except Fault (Option SentryEnvelope)}
    (h : envelopeWithData json dates data = some result) (hclass : result ≠ .error .otherClass) :
    ∃ reading, requestsOfEnvelope json data = some reading ∧
      (reading.ending = .returned ↔ ∃ envelope, result = .ok envelope) := by
  unfold envelopeWithData readHeader at h
  unfold requestsOfEnvelope
  cases hindex : data.bytes.findIdx? (· == newline) with
  | none =>
    rw [hindex] at h
    cases h
    exact ⟨_, rfl, by simp⟩
  | some index =>
    rw [hindex] at h
    dsimp only at h ⊢
    cases hpart : data.subdataWithRange 0 index with
    | none =>
      rw [hpart] at h
      cases h
      exact ⟨_, rfl, by simp⟩
    | some headerData =>
      rw [hpart] at h
      dsimp only at h ⊢
      cases hjson : json.JSONObjectWithData headerData with
      | none =>
        rw [hjson] at h
        cases h
        exact ⟨_, rfl, by simp⟩
      | some value =>
        rw [hjson] at h
        cases value with
        | dictionary entries =>
          have hagrees := agrees_headerWithDictionary dates entries
          dsimp only at h ⊢
          cases hheader : headerWithDictionary dates entries with
          | error fault =>
            rw [hheader] at h hagrees
            cases h
            cases fault with
            | exception =>
              have hfalse : envelopeHeaderAnswers (.dictionary entries) = false := hagrees
              rw [hfalse]
              exact ⟨_, rfl, by simp⟩
            | otherClass => exact absurd rfl hclass
          | ok header =>
            rw [hheader] at h hagrees
            have htrue : envelopeHeaderAnswers (.dictionary entries) = true := hagrees
            rw [if_pos htrue]
            simp only [bind, Except.bind, pure, Except.pure] at h
            by_cases hzero : index = 0
            · rw [if_pos hzero] at h ⊢
              cases h
              exact ⟨_, rfl, by simp⟩
            · rw [if_neg hzero] at h ⊢
              obtain ⟨items, hitems, rfl⟩ := Option.map_eq_some_iff.mp h
              have hread : items ≠ .error .otherClass := by
                rintro rfl
                exact hclass rfl
              obtain ⟨reading, hreading, hending⟩ := requestItems_of_readItems hitems hread []
              refine ⟨reading, hreading, hending.trans ?_⟩
              cases items with
              | ok items => simp [Except.map]
              | error fault => simp [Except.map]
        | _ =>
          cases h
          exact ⟨_, rfl, by simp⟩

end SentryCocoa.Serialization
