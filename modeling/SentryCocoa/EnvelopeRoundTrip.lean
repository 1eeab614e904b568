import SentryCocoa.HeaderRoundTrip

/-! What was written is read back. The separator in front of an item becomes part
of the header line that follows it, except for the first item. -/
namespace SentryCocoa.Serialization
open SentryCocoa.Foundation SentryCocoa.Envelope

/-! The dictionaries of the headers. -/

section ItemHeader
variable (header : SentryEnvelopeItemHeader)

theorem serialize_objectForKey (key : String) :
    header.serialize.objectForKey key =
      if key = "attachment_type" ∧ header.attachmentType.isSome then
        header.attachmentType.map fun type => .string (nameForSentryAttachmentType type)
      else if key = "length" then some (.number (.integer header.length))
      else if key = "content_type" then header.contentType.map .string
      else if key = "filename" then header.filename.map .string
      else if key = "type" then some (.string header.type)
      else none := by
  unfold SentryEnvelopeItemHeader.serialize
  cases header.filename <;> cases header.contentType <;> cases header.attachmentType <;>
    simp only [objectForKey_insert, objectForKey_empty, Option.map_none, Option.map_some,
      Option.isSome_none, Option.isSome_some, and_true, and_false, Bool.false_eq_true, if_false] <;>
    split_ifs <;> simp_all

theorem serialize_stable (h : header.length < 2 ^ 63) :
    (Value.ofDictionary header.serialize).Stable := by
  apply Value.Stable.ofDictionary
  intro key value hvalue
  rw [serialize_objectForKey] at hvalue
  have integer : (Value.number (.integer header.length)).Stable := .integer (by omega) (by omega)
  split_ifs at hvalue
  · obtain ⟨_, -, rfl⟩ := Option.map_eq_some_iff.mp hvalue
    exact .string _
  · cases hvalue
    exact integer
  · obtain ⟨_, -, rfl⟩ := Option.map_eq_some_iff.mp hvalue
    exact .string _
  · obtain ⟨_, -, rfl⟩ := Option.map_eq_some_iff.mp hvalue
    exact .string _
  · cases hvalue
    exact .string _

end ItemHeader

/-- The headers that the program gives its items: plain ones, and those of attachments. -/
def SentryEnvelopeItemHeader.PlainOrAttachment (header : SentryEnvelopeItemHeader) : Prop :=
  header.attachmentType.isSome ∨ header.filename = none ∧ header.contentType = none

/-- The part of a header that its line carries: all of it when there is a filename. -/
def carried (header : SentryEnvelopeItemHeader) : SentryEnvelopeItemHeader :=
  if header.filename.isSome then header else .initWithType header.type header.length

structure Writable (item : SentryEnvelopeItem) : Prop where
  length_eq : item.header.length = item.data.length
  kind : SentryEnvelopeItemHeader.PlainOrAttachment item.header

variable {json : NSJSONSerialization}

theorem dataWithJSONObject_eq_some {value : Value} {data : NSData}
    (h : dataWithJSONObject json value = some data) :
    json.isValidJSONObject value = true ∧ json.dataWithJSONObject value = some data := by
  unfold dataWithJSONObject at h
  split at h
  · exact ⟨by assumption, h⟩
  · cases h

/-- A header line decodes to the header, with or without the newline of the separator. -/
theorem JSONObjectWithData_line {value : Value} {line : NSData} {lead : List UInt8}
    (hlead : lead = [] ∨ lead = [newline]) (stable : value.Stable)
    (h : dataWithJSONObject json value = some line) (hlt : (lead ++ line.bytes).length < 2 ^ 63) :
    json.JSONObjectWithData ⟨lead ++ line.bytes, hlt⟩ = some value := by
  obtain ⟨valid, hdata⟩ := dataWithJSONObject_eq_some h
  have hline := json.round_trip stable valid hdata
  rcases hlead with rfl | rfl
  · exact hline
  · rw [json.JSONObjectWithData_newline rfl]
    exact hline

variable {data : NSData} {item : SentryEnvelopeItem} {line : NSData}
  {before lead tail : List UInt8}

theorem length_of_eq_append (hbytes : data.bytes =
      before ++ (lead ++ line.bytes) ++ newline :: (item.data.bytes ++ tail)) :
    data.length = before.length + (lead ++ line.bytes).length + 1 + item.data.length +
      tail.length := by
  rw [NSData.length, hbytes]
  simp only [List.length_append, List.length_cons, NSData.length]
  omega

/-- The body of an item; at the end of the buffer the range of an empty body lies behind it. -/
theorem subdataWithRange_body (hbytes : data.bytes =
      before ++ (lead ++ line.bytes) ++ newline :: (item.data.bytes ++ tail)) {i : Nat}
    (hi : i = before.length + (lead ++ line.bytes).length) :
    data.subdataWithRange ((if data.length - 1 = i then i + 1 else i) + 1) item.data.length =
      some item.data := by
  have hlength := length_of_eq_append hbytes
  by_cases hend : data.length - 1 = i
  · have hempty : item.data.length = 0 := by omega
    rw [NSData.subdataWithRange, if_pos hempty]
    congr 1
    cases hdata : item.data with
    | mk bytes hlt =>
      rw [hdata] at hempty
      cases List.length_eq_zero_iff.mp hempty
      rfl
  · rw [if_neg hend]
    have hbytes' : data.bytes =
        (before ++ (lead ++ line.bytes) ++ [newline]) ++ item.data.bytes ++ tail := by
      rw [hbytes]
      simp only [List.append_assoc, List.cons_append, List.nil_append]
    obtain ⟨_, hsub⟩ := NSData.subdataWithRange_of_eq_append hbytes'
    have hstart : (before ++ (lead ++ line.bytes) ++ [newline]).length = i + 1 := by
      rw [List.length_append, List.length_append, hi]
      rfl
    rw [hstart] at hsub
    exact hsub

theorem bodyLengthNumber_serialize (header : SentryEnvelopeItemHeader) :
    bodyLengthNumber (header.serialize.entries.map fun entry => (entry.1, entry.2)) =
      .ok (.integer header.length) := by
  unfold bodyLengthNumber
  rw [Value.lookup_ofDictionary, serialize_objectForKey]
  rfl

theorem itemHeaderWithDictionary_serialize {header : SentryEnvelopeItemHeader}
    (h : SentryEnvelopeItemHeader.PlainOrAttachment header) :
    itemHeaderWithDictionary (header.serialize.entries.map fun entry => (entry.1, entry.2))
      (.string header.type) header.length = .ok (carried header) := by
  obtain ⟨type, length, filename, contentType, attachmentType⟩ := header
  unfold itemHeaderWithDictionary carried
  simp only [Value.lookup_ofDictionary, serialize_objectForKey]
  cases filename with
  | none => rfl
  | some filename =>
    cases attachmentType with
    | none => simp [SentryEnvelopeItemHeader.PlainOrAttachment] at h
    | some attachmentType => cases contentType <;> cases attachmentType <;> rfl

theorem readItem_of_line (hitem : Writable item) (hlead : lead = [] ∨ lead = [newline])
    (h : dataWithJSONObject json (.ofDictionary item.header.serialize) = some line)
    (hbytes : data.bytes =
      before ++ (lead ++ line.bytes) ++ newline :: (item.data.bytes ++ tail)) {i : Nat}
    (hi : i = before.length + (lead ++ line.bytes).length) :
    readItem json data (data.length - 1) i before.length =
      .ok (.item ⟨carried item.header, item.data⟩
        ((if data.length - 1 = i then i + 1 else i) + 1 + item.data.length)) := by
  have hlength := length_of_eq_append hbytes
  have hdata : data.length < 2 ^ 63 := data.length_lt
  have hstable := serialize_stable item.header (by rw [hitem.length_eq]; omega)
  obtain ⟨hlt, hsub⟩ := NSData.subdataWithRange_of_eq_append hbytes
  have hjson := JSONObjectWithData_line hlead hstable h hlt
  have hrange : wrap (i - before.length : Int) = (lead ++ line.bytes).length := by
    unfold wrap
    omega
  have htype : item.header.serialize.objectForKey "type" = some (.string item.header.type) := by
    rw [serialize_objectForKey]
    rfl
  have hunsigned : (NSNumber.integer item.header.length).unsignedIntegerValue =
      item.header.length := by
    rw [hitem.length_eq]
    exact NSNumber.unsignedIntegerValue_of_lt item.data.length_lt
  have hsigned : (NSNumber.integer item.header.length).integerValue = item.header.length := by
    rw [hitem.length_eq]
    exact NSNumber.integerValue_of_lt item.data.length_lt
  have hbody := subdataWithRange_body hbytes hi
  have hshift : (if data.length - 1 = i then wrap (i + 1 : Int) else i) =
      if data.length - 1 = i then i + 1 else i := by
    rw [show wrap (i + 1 : Int) = i + 1 from wrap_of_lt (show i + 1 < 2 ^ 64 by omega)]
  set j := if data.length - 1 = i then i + 1 else i with hj
  have hfits : item.data.length > 0 → data.length - 1 ≠ i ∧ j + 1 + item.data.length ≤ data.length := by
    intro hpos
    have hne : data.length - 1 ≠ i := by omega
    rw [hj, if_neg hne]
    omega
  have hj_le : j ≤ i + 1 := by
    rw [hj]
    split <;> omega
  have hstart : wrap (j + 1 : Int) = j + 1 := wrap_of_lt (show j + 1 < 2 ^ 64 by omega)
  have hnext : wrap (j + 1 + item.header.length : Int) = j + 1 + item.data.length := by
    rw [hitem.length_eq]
    exact wrap_of_lt (show j + 1 + item.data.length < 2 ^ 64 by omega)
  have hleave : ¬ (data.length - 1 = i ∧ item.header.length ≠ 0) := by
    rw [hitem.length_eq]
    omega
  have hcorrupt : ¬ (item.header.length > 0 ∧ data.length < j + 1 + item.data.length) := by
    rw [hitem.length_eq]
    omega
  unfold readItem
  simp only [hrange, hsub, hjson, Value.ofDictionary, Value.lookup_ofDictionary, htype,
    bodyLengthNumber_serialize, hshift]
  simp only [bind, Except.bind, hunsigned, if_neg hleave,
    itemHeaderWithDictionary_serialize hitem.kind, hstart, hsigned, hnext, if_neg hcorrupt]
  rw [hitem.length_eq, hbody]
  rfl

/-- The bytes of the items behind an envelope header: separator, header line and body each. -/
inductive ItemBytes (json : NSJSONSerialization) : List SentryEnvelopeItem → List UInt8 → Prop where
  | nil : ItemBytes json [] []
  | cons {item : SentryEnvelopeItem} {items : List SentryEnvelopeItem} {line : NSData}
      {tail : List UInt8}
      (h : dataWithJSONObject json (.ofDictionary item.header.serialize) = some line)
      (rest : ItemBytes json items tail) :
      ItemBytes json (item :: items)
        (newline :: (line.bytes ++ newline :: (item.data.bytes ++ tail)))

theorem appendItem_bytes {envelopeData result : NSData}
    (h : appendItem json envelopeData item = some result) :
    ∃ line, dataWithJSONObject json (.ofDictionary item.header.serialize) = some line ∧
      result.bytes = envelopeData.bytes ++ newline :: (line.bytes ++ newline :: item.data.bytes) := by
  obtain ⟨first, hfirst, h⟩ := Option.bind_eq_some_iff.mp h
  obtain ⟨line, hline, h⟩ := Option.bind_eq_some_iff.mp h
  obtain ⟨second, hsecond, h⟩ := Option.bind_eq_some_iff.mp h
  obtain ⟨third, hthird, h⟩ := Option.bind_eq_some_iff.mp h
  refine ⟨line, hline, ?_⟩
  rw [NSData.appendData_bytes h, NSData.appendData_bytes hthird, NSData.appendData_bytes hsecond,
    NSData.appendData_bytes hfirst]
  simp [newlineData]

theorem foldlM_appendItem_bytes {items : List SentryEnvelopeItem} {envelopeData result : NSData}
    (h : items.foldlM (appendItem json) envelopeData = some result) :
    ∃ tail, result.bytes = envelopeData.bytes ++ tail ∧ ItemBytes json items tail := by
  induction items generalizing envelopeData with
  | nil =>
    cases h
    exact ⟨[], (List.append_nil _).symm, .nil⟩
  | cons item items ih =>
    rw [List.foldlM_cons] at h
    obtain ⟨next, hnext, hrest⟩ := Option.bind_eq_some_iff.mp h
    obtain ⟨line, hline, hbytes⟩ := appendItem_bytes hnext
    obtain ⟨tail, htail, hitems⟩ := ih hrest
    refine ⟨_, ?_, .cons hline hitems⟩
    rw [htail, hbytes]
    simp only [List.append_assoc, List.cons_append]

/-- Up to the next newline the loop only counts. -/
theorem readItems_scan {fuel k i start : Nat} {items : List SentryEnvelopeItem}
    (hscan : ∀ j < k, data.bytes[i + j]? ≠ some newline) (hend : i + k ≤ data.length - 1) :
    readItems json data (data.length - 1) (fuel + k) i start items =
      readItems json data (data.length - 1) fuel (i + k) start items := by
  induction k generalizing i with
  | zero => rfl
  | succ k ih =>
    have hdata : data.length < 2 ^ 63 := data.length_lt
    have hhere : ¬ (data.bytes[i]? = some newline ∨ i = data.length - 1) := by
      rintro (hnewline | hlast)
      · exact hscan 0 (by omega) hnewline
      · omega
    have hnext : wrap (i + 1 : Int) = i + 1 := wrap_of_lt (show i + 1 < 2 ^ 64 by omega)
    have hrest : ∀ j < k, data.bytes[i + 1 + j]? ≠ some newline := by
      intro j hj
      rw [Nat.add_assoc, Nat.add_comm 1 j]
      exact hscan (j + 1) (by omega)
    rw [← Nat.add_assoc, readItems, if_pos (by omega), if_neg hhere, hnext, ih hrest (by omega)]
    congr 1
    omega

theorem newline_notMem_line {line : NSData} {value : Value}
    (h : dataWithJSONObject json value = some line) : newline ∉ line.bytes :=
  json.newline_notMem (dataWithJSONObject_eq_some h).2

/-- Reading continues at the end of the header line, where the item is kept. -/
theorem readItems_line (hitem : Writable item) (hlead : lead = [] ∨ lead = [newline])
    (h : dataWithJSONObject json (.ofDictionary item.header.serialize) = some line)
    (hbytes : data.bytes =
      before ++ (lead ++ line.bytes) ++ newline :: (item.data.bytes ++ tail)) {fuel i : Nat}
    (hi : i = before.length + (lead ++ line.bytes).length) {items : List SentryEnvelopeItem} :
    readItems json data (data.length - 1) (fuel + 1 + line.length) (before.length + lead.length)
        before.length items =
      readItems json data (data.length - 1) fuel
        ((if data.length - 1 = i then i + 1 else i) + 1 + item.data.length + 1)
        ((if data.length - 1 = i then i + 1 else i) + 1 + item.data.length)
        (items ++ [⟨carried item.header, item.data⟩]) := by
  have hlength := length_of_eq_append hbytes
  have hdata : data.length < 2 ^ 63 := data.length_lt
  rw [List.length_append] at hi hlength
  have hlineLength : line.length = line.bytes.length := rfl
  have hscan : ∀ j < line.length,
      data.bytes[before.length + lead.length + j]? ≠ some newline := by
    intro j hj hnewline
    rw [hbytes, List.append_assoc, List.getElem?_append_right (by omega), List.append_assoc,
      List.getElem?_append_right (by omega), List.getElem?_append_left (by omega)] at hnewline
    exact newline_notMem_line h (List.mem_of_getElem? hnewline)
  have hnewline : data.bytes[i]? = some newline := by
    rw [hbytes, List.getElem?_append_right (by rw [List.length_append, List.length_append]; omega)]
    rw [List.length_append, List.length_append, hi, Nat.sub_self]
    rfl
  have hat : before.length + lead.length + line.length = i := by omega
  have hshift : (if data.length - 1 = i then i + 1 else i) ≤ i + 1 := by
    split <;> omega
  rw [readItems_scan hscan (by omega), hat, readItems, if_pos (by omega), if_pos (.inl hnewline),
    readItem_of_line hitem hlead h hbytes (by rw [List.length_append, hi])]
  set next := (if data.length - 1 = i then i + 1 else i) + 1 + item.data.length with hnext
  have hwrap : wrap (next + 1 : Int) = next + 1 := wrap_of_lt (show next + 1 < 2 ^ 64 by omega)
  simp only [hwrap]

def readBack (item : SentryEnvelopeItem) : SentryEnvelopeItem := ⟨carried item.header, item.data⟩

/-- Where the loop stands behind the body of an item: at the separator of the next item, or
past the end of the buffer. -/
theorem readItems_next {items : List SentryEnvelopeItem} (hrest : ItemBytes json items tail)
    (ih : ∀ {before : List UInt8} {fuel : Nat} {read : List SentryEnvelopeItem},
      data.bytes = before ++ tail → data.length + 2 ≤ fuel + before.length →
      readItems json data (data.length - 1) fuel (before.length + 1) before.length read =
        some (.ok (some (read ++ items.map readBack))))
    (hbytes : data.bytes =
      before ++ (lead ++ line.bytes) ++ newline :: (item.data.bytes ++ tail)) {fuel i : Nat}
    (hi : i = before.length + (lead ++ line.bytes).length)
    (hfuel : data.length + 2 ≤ fuel + (i + 1 + item.data.length))
    {read : List SentryEnvelopeItem} :
    readItems json data (data.length - 1) fuel
        ((if data.length - 1 = i then i + 1 else i) + 1 + item.data.length + 1)
        ((if data.length - 1 = i then i + 1 else i) + 1 + item.data.length) read =
      some (.ok (some (read ++ items.map readBack))) := by
  have hlength := length_of_eq_append hbytes
  by_cases hend : data.length - 1 = i
  · have htail : tail = [] := List.length_eq_zero_iff.mp (by omega)
    subst htail
    cases hrest
    obtain ⟨fuel, rfl⟩ : ∃ k, fuel = k + 1 := ⟨fuel - 1, by omega⟩
    rw [if_pos hend, readItems, if_neg (by omega), List.map_nil, List.append_nil]
  · have hbytes' : data.bytes =
        (before ++ (lead ++ line.bytes) ++ newline :: item.data.bytes) ++ tail := by
      rw [hbytes]
      simp only [List.append_assoc, List.cons_append]
    have hstart : (before ++ (lead ++ line.bytes) ++ newline :: item.data.bytes).length =
        i + 1 + item.data.length := by
      rw [List.length_append, List.length_append, ← hi, List.length_cons, NSData.length]
      omega
    rw [if_neg hend, ← hstart]
    exact ih hbytes' (by rw [hstart]; exact hfuel)

/-- From a separator on, the items are read back in order. -/
theorem readItems_itemBytes {items : List SentryEnvelopeItem} {bytes : List UInt8}
    (hitems : ItemBytes json items bytes) (hwritable : ∀ item ∈ items, Writable item)
    {before : List UInt8} {fuel : Nat} {read : List SentryEnvelopeItem}
    (hbytes : data.bytes = before ++ bytes) (hfuel : data.length + 2 ≤ fuel + before.length) :
    readItems json data (data.length - 1) fuel (before.length + 1) before.length read =
      some (.ok (some (read ++ items.map readBack))) := by
  induction hitems generalizing before fuel read with
  | nil =>
    have hlength : data.length = before.length := by
      rw [NSData.length, hbytes, List.append_nil]
    obtain ⟨fuel, rfl⟩ : ∃ k, fuel = k + 1 := ⟨fuel - 1, by omega⟩
    rw [readItems, if_neg (by omega), List.map_nil, List.append_nil]
  | cons hline hrest ih =>
    rename_i item items line tail
    have hitem := hwritable item List.mem_cons_self
    have hbytes' : data.bytes =
        before ++ ([newline] ++ line.bytes) ++ newline :: (item.data.bytes ++ tail) := by
      rw [hbytes]
      simp only [List.append_assoc, List.cons_append, List.nil_append]
    have hlength := length_of_eq_append hbytes'
    have hlineLength : ([newline] ++ line.bytes).length = 1 + line.length := by
      rw [List.length_append, NSData.length, List.length_singleton]
    obtain ⟨rest, rfl⟩ : ∃ k, fuel = k + 1 + line.length := ⟨fuel - 1 - line.length, by omega⟩
    have hread : readItems json data (data.length - 1) (rest + 1 + line.length)
        (before.length + 1) before.length read = _ :=
      readItems_line hitem (.inr rfl) hline hbytes' rfl
    rw [hread, readItems_next hrest (ih fun i hi => hwritable i (List.mem_cons_of_mem _ hi)) hbytes'
      rfl (by omega), List.map_cons, List.append_assoc]
    rfl

variable {dates : NSDateFormatter} {envelope : SentryEnvelope}

/-- The envelope header ends at the first separator. -/
theorem readHeader_line {headerLine : NSData} {bytes : List UInt8}
    (h : dataWithJSONObject json (.ofDictionary (serializedHeader dates envelope.header)) =
      some headerLine) (hbytes : data.bytes = headerLine.bytes ++ newline :: bytes) :
    0 < headerLine.length ∧ readHeader json dates data =
      .ok (some (readHeaderFields envelope.header, headerLine.length)) := by
  have stable := serializedHeader_stable dates envelope.header
  have hjson : json.JSONObjectWithData headerLine = _ :=
    JSONObjectWithData_line (.inl rfl) stable h headerLine.length_lt
  have hpos : 0 < headerLine.length := by
    apply Nat.pos_of_ne_zero
    intro hzero
    have hempty : headerLine = .empty := by
      cases headerLine with
      | mk bytes hlt =>
        cases List.length_eq_zero_iff.mp hzero
        rfl
    rw [hempty, json.JSONObjectWithData_empty] at hjson
    cases hjson
  have hindex : data.bytes.findIdx? (· == newline) = some headerLine.length := by
    have hnone : headerLine.bytes.findIdx? (· == newline) = none := by
      rw [List.findIdx?_eq_none_iff]
      intro byte hbyte
      rw [beq_eq_false_iff_ne]
      rintro rfl
      exact newline_notMem_line h hbyte
    rw [hbytes, List.findIdx?_append, hnone, List.findIdx?_cons]
    simp [NSData.length]
  obtain ⟨_, hsub⟩ := NSData.subdataWithRange_of_eq_append
    (show data.bytes = [] ++ headerLine.bytes ++ newline :: bytes from hbytes)
  have hsub' : data.subdataWithRange 0 headerLine.length = some headerLine := hsub
  refine ⟨hpos, ?_⟩
  unfold readHeader
  rw [hindex]
  simp only [hsub', hjson, Value.ofDictionary, headerWithDictionary_serializedHeader]
  rfl

theorem envelopeWithData_eq (hne : envelope.items ≠ [])
    (hwritable : ∀ item ∈ envelope.items, Writable item)
    (h : dataWithEnvelope json dates envelope = some data) :
    envelopeWithData json dates data = some (.ok (some
      ⟨readHeaderFields envelope.header, envelope.items.map readBack⟩)) := by
  obtain ⟨headerLine, hline, hfold⟩ := Option.bind_eq_some_iff.mp h
  obtain ⟨bytes, hbytes, hitems⟩ := foldlM_appendItem_bytes hfold
  cases hall : envelope.items with
  | nil => exact absurd hall hne
  | cons first rest =>
    rw [hall] at hitems hwritable
    cases hitems with
    | cons hfirst hrest =>
      rename_i line tail
      obtain ⟨hpos, hheader⟩ := readHeader_line hline hbytes
      have hbytes' : data.bytes = (headerLine.bytes ++ [newline]) ++ ([] ++ line.bytes) ++
          newline :: (first.data.bytes ++ tail) := by
        rw [hbytes]
        simp only [List.append_assoc, List.cons_append, List.nil_append]
      have hstart : (headerLine.bytes ++ [newline]).length = headerLine.length + 1 := by
        rw [List.length_append, NSData.length, List.length_singleton]
      have hlength := length_of_eq_append hbytes'
      rw [hstart, List.nil_append] at hlength
      have hlineLength : line.bytes.length = line.length := rfl
      obtain ⟨fuel, hfuel⟩ : ∃ k, data.length + 1 = k + 1 + line.length :=
        ⟨data.length - line.length, by omega⟩
      have hnext : data.length + 2 ≤ fuel + ((headerLine.bytes ++ [newline]).length +
          ([] ++ line.bytes).length + 1 + first.data.length) := by
        rw [hstart, List.nil_append]
        omega
      have hread : readItems json data (data.length - 1) (data.length + 1) (headerLine.length + 1)
          (headerLine.length + 1) [] = some (.ok (some ((first :: rest).map readBack))) := by
        rw [hfuel, ← hstart]
        have hitem := hwritable first List.mem_cons_self
        have hrestWritable := fun item hmem => hwritable item (List.mem_cons_of_mem first hmem)
        exact (readItems_line hitem (.inl rfl) hfirst hbytes' rfl).trans
          (readItems_next hrest (readItems_itemBytes hrest hrestWritable) hbytes' rfl hnext)
      unfold envelopeWithData
      rw [hheader]
      simp only [hread, if_neg (show headerLine.length ≠ 0 by omega)]
      rfl

/-- Reading what was written gives the items back, in order and with their bodies, whatever
bytes the bodies hold. -/
theorem envelopeWithData_of_dataWithEnvelope (hne : envelope.items ≠ [])
    (hwritable : ∀ item ∈ envelope.items, Writable item)
    (h : dataWithEnvelope json dates envelope = some data) :
    ∃ header, envelopeWithData json dates data =
      some (.ok (some ⟨header, envelope.items.map readBack⟩)) :=
  ⟨_, envelopeWithData_eq hne hwritable h⟩

def asciiBytes (text : String) : List UInt8 := text.toList.map fun c => c.toNat.toUInt8

def sessionLine : NSData := ⟨asciiBytes "\x7b\"length\":2,\"type\":\"session\"\x7d", by decide⟩

def sessionHeaderValue : Value :=
  .dictionary [("length", .number (.integer 2)), ("type", .string "session")]

/-- The JSON texts of the headers of the envelope below, read behind leading newlines. -/
def exampleJSON : NSJSONSerialization where
  isValidJSONObject _ := true
  dataWithJSONObject
    | .dictionary [] => some ⟨[123, 125], by decide⟩
    | .dictionary [("length", .number (.integer 2)), ("type", .string "session")] =>
      some sessionLine
    | _ => none
  JSONObjectWithData data :=
    let text := data.bytes.dropWhile (· == newline)
    if text = [123, 125] then some (.dictionary [])
    else if text = sessionLine.bytes then some sessionHeaderValue
    else none
  round_trip := by
    intro value data _ _ h
    split at h <;> cases h <;> rfl
  newline_notMem := by
    intro value data h
    split at h <;> cases h <;> decide
  JSONObjectWithData_empty := rfl
  JSONObjectWithData_newline := by
    intro data data' h
    simp only [h]
    rfl

/-- Dates as tallies; the envelope below holds no date. -/
def exampleDates : NSDateFormatter where
  toIso8601String date :=
    String.ofList (List.replicate date.milliseconds.toNat '+' ++
      List.replicate (-date.milliseconds).toNat '-')
  fromIso8601String text :=
    some ⟨text.toList.count '+' - text.toList.count '-'⟩
  fromIso8601String_toIso8601String := by
    rintro ⟨milliseconds⟩
    simp only [String.toList_ofList, List.count_append, List.count_replicate]
    have hplus : ('+' == '+') = true := rfl
    have hminus : ('-' == '-') = true := rfl
    have hother : ('-' == '+') = false := rfl
    have hother' : ('+' == '-') = false := rfl
    simp only [hplus, hminus, hother, hother', if_true, Bool.false_eq_true, if_false,
      Option.some.injEq, NSDate.mk.injEq]
    omega

/-- A header without fields, and a body that looks like the start of a header line. -/
def exampleEnvelope : SentryEnvelope where
  header := ⟨none, none, none, none⟩
  items := [⟨.initWithType "session" 2, ⟨[newline, 123], by decide⟩⟩]

theorem envelopeWithData_exampleEnvelope :
    ∃ data header, dataWithEnvelope exampleJSON exampleDates exampleEnvelope = some data ∧
      envelopeWithData exampleJSON exampleDates data =
        some (.ok (some ⟨header, exampleEnvelope.items.map readBack⟩)) := by
  obtain ⟨data, hdata⟩ : ∃ data, dataWithEnvelope exampleJSON exampleDates exampleEnvelope =
    some data := ⟨_, rfl⟩
  have hwritable : ∀ item ∈ exampleEnvelope.items, Writable item := by
    intro item hitem
    obtain rfl := List.mem_singleton.mp hitem
    exact ⟨rfl, .inr ⟨rfl, rfl⟩⟩
  obtain ⟨header, hread⟩ := envelopeWithData_of_dataWithEnvelope (by decide) hwritable hdata
  exact ⟨data, header, hdata, hread⟩

/-! The header that is read. -/

/-- Without an item there is no newline, and no header is read. -/
theorem header_of_envelopeWithData {read : SentryEnvelope}
    (h : dataWithEnvelope json dates envelope = some data)
    (hread : envelopeWithData json dates data = some (.ok (some read))) :
    read.header = readHeaderFields envelope.header := by
  obtain ⟨headerLine, hline, hfold⟩ := Option.bind_eq_some_iff.mp h
  obtain ⟨bytes, hbytes, hitems⟩ := foldlM_appendItem_bytes hfold
  unfold envelopeWithData at hread
  generalize envelope.items = items at hitems
  cases hitems with
  | nil =>
    have hnone : data.bytes.findIdx? (· == newline) = none := by
      rw [hbytes, List.append_nil, List.findIdx?_eq_none_iff]
      intro byte hbyte
      rw [beq_eq_false_iff_ne]
      rintro rfl
      exact newline_notMem_line hline hbyte
    have hheader : readHeader json dates data = .ok none := by
      unfold readHeader
      rw [hnone]
      rfl
    rw [hheader] at hread
    cases hread
  | cons hfirst hrest =>
    obtain ⟨hpos, hheader⟩ := readHeader_line hline hbytes
    rw [hheader] at hread
    dsimp only at hread
    rw [if_neg (Nat.ne_of_gt hpos)] at hread
    obtain ⟨result, -, hresult⟩ := Option.map_eq_some_iff.mp hread
    cases result with
    | error fault => cases hresult
    | ok result =>
      obtain ⟨items, -, hitems⟩ := Option.bind_eq_some_iff.mp (Except.ok.inj hresult)
      split at hitems
      · cases hitems
      · cases hitems
        rfl

/-- The reader of trace contexts gives back what was written, and reading an envelope gives the
event id, the SDK and the trace context of its header back, if and only if there is no sampling
decision or it has the text of the sample rate. -/
theorem header_round_trip_iff (json : NSJSONSerialization) (dates : NSDateFormatter) :
    (∀ context : SentryTraceContext,
      traceContextWithDict (context.serialize.entries.map fun entry => (entry.1, entry.2)) =
          .ok (some context) ↔
        SentryTraceContext.KeepsSampled context) ∧
    ∀ envelope data, dataWithEnvelope json dates envelope = some data →
      (envelope.items ≠ [] → (∀ item ∈ envelope.items, Writable item) →
        ∃ read, envelopeWithData json dates data = some (.ok (some read))) ∧
      ∀ read, envelopeWithData json dates data = some (.ok (some read)) →
        (SameHeader envelope.header read.header ↔
          ∀ context ∈ envelope.header.traceContext, SentryTraceContext.KeepsSampled context) := by
  constructor
  · intro context
    rw [traceContextWithDict_serialize, ← readTraceContext_eq_iff]
    constructor
    · intro h
      exact Option.some.inj (Except.ok.inj h)
    · intro h
      rw [h]
  · intro envelope data h
    constructor
    · intro hne hwritable
      exact ⟨_, envelopeWithData_eq hne hwritable h⟩
    · intro read hread
      rw [header_of_envelopeWithData h hread]
      exact sameHeader_iff envelope.header

def traceLine : NSData :=
  ⟨asciiBytes ("\x7b\"trace\":\x7b\"public_key\":\"key\"," ++
    "\"trace_id\":\"00000000000000000000000000000000\"\x7d\x7d"), by decide⟩

def traceHeaderValue : Value :=
  .dictionary [("trace", .dictionary
    [("public_key", .string "key"), ("trace_id", .string "00000000000000000000000000000000")])]

/-- The JSON texts of the header lines of the next envelope. -/
def traceJSON : NSJSONSerialization where
  isValidJSONObject _ := true
  dataWithJSONObject
    | .dictionary [("trace", .dictionary [("public_key", .string "key"),
        ("trace_id", .string "00000000000000000000000000000000")])] => some traceLine
    | .dictionary [("length", .number (.integer 2)), ("type", .string "session")] =>
      some sessionLine
    | _ => none
  JSONObjectWithData data :=
    let text := data.bytes.dropWhile (· == newline)
    if text = traceLine.bytes then some traceHeaderValue
    else if text = sessionLine.bytes then some sessionHeaderValue
    else none
  round_trip := by
    intro value data _ _ h
    split at h <;> cases h <;> rfl
  newline_notMem := by
    intro value data h
    split at h <;> cases h <;> decide
  JSONObjectWithData_empty := rfl
  JSONObjectWithData_newline := by
    intro data data' h
    simp only [h]
    rfl

def exampleContext : SentryTraceContext where
  traceId := .empty
  publicKey := "key"
  releaseName := none
  environment := none
  transaction := none
  userSegment := none
  sampleRate := none
  sampled := none
  replayId := none

def traceEnvelope : SentryEnvelope where
  header := ⟨none, none, some exampleContext, none⟩
  items := exampleEnvelope.items

theorem header_round_trip_example :
    ∃ data read, dataWithEnvelope traceJSON exampleDates traceEnvelope = some data ∧
      envelopeWithData traceJSON exampleDates data = some (.ok (some read)) ∧
      SameHeader traceEnvelope.header read.header := by
  obtain ⟨data, hdata⟩ : ∃ data, dataWithEnvelope traceJSON exampleDates traceEnvelope =
    some data := ⟨_, rfl⟩
  have hwritable : ∀ item ∈ traceEnvelope.items, Writable item := by
    intro item hitem
    obtain rfl := List.mem_singleton.mp hitem
    exact ⟨rfl, .inr ⟨rfl, rfl⟩⟩
  obtain ⟨hreads, hsame⟩ := (header_round_trip_iff traceJSON exampleDates).2 _ data hdata
  obtain ⟨read, hread⟩ := hreads (by decide) hwritable
  refine ⟨data, read, hdata, hread, (hsame read hread).mpr ?_⟩
  rintro context ⟨⟩
  exact Or.inl rfl

/-- Sampled with a rate of one half. -/
def sampledContext : SentryTraceContext :=
  { exampleContext with sampleRate := some "0.5", sampled := some "true" }

/-- The sampling decision that is read back is the sample rate. -/
theorem sampled_reads_sampleRate :
    traceContextWithDict (sampledContext.serialize.entries.map fun entry => (entry.1, entry.2)) ≠
      .ok (some sampledContext) := by
  rw [traceContextWithDict_serialize]
  intro h
  have hsampled := congrArg SentryTraceContext.sampled (Option.some.inj (Except.ok.inj h))
  exact absurd hsampled (by decide)

end SentryCocoa.Serialization
