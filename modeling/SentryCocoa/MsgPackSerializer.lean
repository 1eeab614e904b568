import Mathlib.Data.List.Nodup
import SentryCocoa.Library.MessagePack
import SentryCocoa.Library.Unicode

/-! The contents of a dictionary are written to a file as one MessagePack map. Each content
announces a size, and is then copied from its stream in blocks. -/
namespace SentryCocoa.MsgPackSerializer
open SentryCocoa.Library.MessagePack
open SentryCocoa.Library.Unicode (utf8 utf8_injective)

/-- What a read from a stream into the buffer of 1024 bytes gives. -/
inductive Read where
  | bytes (buffer : Bytes) (positive : 0 < buffer.length) (fits : buffer.length ≤ 1024)
  | nothing
  | error

/-- The stream has bytes available until all reads are done. -/
structure SentryStreamable where
  streamSize : Int
  asInputStream : List Read

/-- A dictionary with the limits of what is written. -/
structure Dictionary where
  entries : List (String × SentryStreamable)
  nodup : (entries.map Prod.fst).Nodup
  count_le : entries.length ≤ 15
  key_le : ∀ entry ∈ entries, (utf8 entry.1.toList).length ≤ 255

/-- The loop over a stream; what is written to the output is added to it. -/
def copyStream : (inputStream : List Read) → (output : Bytes) → Bool × Bytes
  | [], output => (true, output)
  | .bytes buffer _ _ :: rest, output => copyStream rest (output ++ buffer)
  | .nothing :: rest, output => copyStream rest output
  | .error :: _, output => (false, output)

def serializeEntries : (entries : List (String × SentryStreamable)) → (output : Bytes) →
    Bool × Bytes
  | [], output => (true, output)
  | (key, value) :: rest, output =>
    let keyData := utf8 key.toList
    let str8Header : UInt8 := 0xD9 -- String up to 255 characters
    let keyLength := UInt8.ofNat keyData.length
    let output := output ++ [str8Header] ++ [keyLength] ++ keyData
    let dataLength := value.streamSize
    if dataLength ≤ 0 then (false, output)
    else
      let valueLength := UInt32.ofNat dataLength.toNat
      let bin32Header : UInt8 := 0xC6
      let copied := copyStream value.asInputStream (output ++ [bin32Header] ++ uint32 valueLength)
      if copied.1 then serializeEntries rest copied.2 else (false, copied.2)

/-- The answer, and the bytes of the file. -/
def serializeDictionaryToMessagePack (dictionary : Dictionary) : Bool × Bytes :=
  let mapHeader := (0x80 : UInt8) ||| UInt8.ofNat dictionary.entries.length
  serializeEntries dictionary.entries [mapHeader]

/-! ## Contents -/

namespace SentryStreamable

/-- The bytes that the reads of the stream give. -/
def contents (value : SentryStreamable) : Bytes :=
  value.asInputStream.flatMap fun
    | .bytes buffer _ _ => buffer
    | _ => []

/-- A read of the stream fails, or no content is announced. -/
def Stops (value : SentryStreamable) : Prop := value.streamSize ≤ 0 ∨ .error ∈ value.asInputStream

/-- As many bytes as are announced, and not more than the format can say. -/
def Announced (value : SentryStreamable) : Prop :=
  (value.contents.length : Int) = value.streamSize ∧ value.streamSize < 2 ^ 32

end SentryStreamable

open SentryStreamable

/-- What an entry stands for. -/
def packed (entry : String × SentryStreamable) : Value × Value :=
  (.str (utf8 entry.1.toList), .bin entry.2.contents)

/-- What is written for an entry. -/
def entryBytes (entry : String × SentryStreamable) : Bytes :=
  0xD9 :: UInt8.ofNat (utf8 entry.1.toList).length :: ((utf8 entry.1.toList) ++
    0xC6 :: (uint32 (UInt32.ofNat entry.2.streamSize.toNat) ++ entry.2.contents))

theorem copyStream_of_error {inputStream : List Read} (h : .error ∈ inputStream)
    (output : Bytes) : (copyStream inputStream output).1 = false := by
  induction inputStream generalizing output with
  | nil => cases h
  | cons read rest ih =>
    cases read with
    | error => rfl
    | bytes buffer positive fits => exact ih (List.mem_of_ne_of_mem (by simp) h) _
    | nothing => exact ih (List.mem_of_ne_of_mem (by simp) h) _

theorem copyStream_of_not_error {value : SentryStreamable}
    (h : Read.error ∉ value.asInputStream) (output : Bytes) :
    copyStream value.asInputStream output = (true, output ++ value.contents) := by
  obtain ⟨size, inputStream⟩ := value
  unfold contents
  induction inputStream generalizing output with
  | nil => exact congrArg _ (List.append_nil _).symm
  | cons read rest ih =>
    have hrest := fun hmem => h (List.mem_cons_of_mem _ hmem)
    cases read with
    | error => exact absurd List.mem_cons_self h
    | bytes buffer positive fits =>
      rw [copyStream, ih (h := hrest), List.flatMap_cons, List.append_assoc]
    | nothing =>
      rw [copyStream, ih (h := hrest), List.flatMap_cons]
      rfl

/-- The answer is no exactly if some content stops the loop. -/
theorem serializeEntries_of_stops {entries : List (String × SentryStreamable)}
    (h : ∃ entry ∈ entries, entry.2.Stops) (output : Bytes) :
    (serializeEntries entries output).1 = false := by
  induction entries generalizing output with
  | nil =>
    obtain ⟨entry, hentry, -⟩ := h
    cases hentry
  | cons entry rest ih =>
    obtain ⟨key, value⟩ := entry
    rw [serializeEntries]
    dsimp only
    split
    · rfl
    · rename_i hsize
      by_cases herror : Read.error ∈ value.asInputStream
      · rw [copyStream_of_error herror, if_neg Bool.false_ne_true]
      · rw [copyStream_of_not_error herror, if_pos rfl]
        apply ih
        obtain ⟨entry, hentry, hstops⟩ := h
        rcases List.mem_cons.mp hentry with rfl | hrest
        · exact absurd hstops (not_or.mpr ⟨hsize, herror⟩)
        · exact ⟨entry, hrest, hstops⟩

theorem serializeEntries_of_not_stops {entries : List (String × SentryStreamable)}
    (h : ∀ entry ∈ entries, ¬entry.2.Stops) (output : Bytes) :
    serializeEntries entries output = (true, output ++ entries.flatMap entryBytes) := by
  induction entries generalizing output with
  | nil => exact congrArg _ (List.append_nil _).symm
  | cons entry rest ih =>
    obtain ⟨key, value⟩ := entry
    have hvalue := not_or.mp (h _ List.mem_cons_self)
    rw [serializeEntries]
    dsimp only
    rw [if_neg hvalue.1, copyStream_of_not_error hvalue.2, if_pos rfl,
      ih fun entry hentry => h entry (List.mem_cons_of_mem _ hentry), List.flatMap_cons]
    simp only [entryBytes, List.append_assoc, List.cons_append, List.nil_append]

/-! ## What is decoded -/

variable {entries : List (String × SentryStreamable)}

/-- The first entry is read with as many bytes as the low bits of the announced size say. -/
theorem pair_entryBytes (depth : Nat) {entry : String × SentryStreamable}
    (hkey : (utf8 entry.1.toList).length ≤ 255) (rest : Bytes) :
    pair (decode (depth + 1)) (decode (depth + 1)) (entryBytes entry ++ rest) =
      (takeBytes (UInt32.ofNat entry.2.streamSize.toNat).toNat
        (entry.2.contents ++ rest)).map fun read =>
          ((.str (utf8 entry.1.toList), .bin read.1), read.2) := by
  have hbytes : entryBytes entry ++ rest =
      0xD9 :: UInt8.ofNat (utf8 entry.1.toList).length :: (utf8 entry.1.toList ++
        0xC6 :: (uint32 (UInt32.ofNat entry.2.streamSize.toNat) ++
          (entry.2.contents ++ rest))) := by
    simp only [entryBytes, List.append_assoc, List.cons_append]
  unfold pair
  rw [hbytes, decode_str8 depth (by omega), Option.bind_eq_bind, Option.bind_some, decode_bin32,
    Option.bind_map, Option.map_eq_bind]
  rfl

theorem toNat_announced {value : SentryStreamable} (h : value.Announced) :
    (UInt32.ofNat value.streamSize.toNat).toNat = value.contents.length := by
  obtain ⟨hlength, hsize⟩ := h
  rw [UInt32.toNat_ofNat']
  omega

theorem times_entryBytes (depth : Nat) (hkey : ∀ entry ∈ entries,
    (utf8 entry.1.toList).length ≤ 255) (h : ∀ entry ∈ entries, entry.2.Announced) :
    times (pair (decode (depth + 1)) (decode (depth + 1))) entries.length
      (entries.flatMap entryBytes) = some (entries.map packed, []) := by
  induction entries with
  | nil => rfl
  | cons entry rest ih =>
    apply times_succ_eq_some.mpr
    refine ⟨packed entry, rest.flatMap entryBytes, rest.map packed, ?_, ?_, rfl⟩
    · rw [List.flatMap_cons, pair_entryBytes depth (hkey _ List.mem_cons_self),
        toNat_announced (h _ List.mem_cons_self), takeBytes_append]
      rfl
    · exact ih (fun entry hentry => hkey entry (List.mem_cons_of_mem _ hentry))
        fun entry hentry => h entry (List.mem_cons_of_mem _ hentry)

theorem str_utf8_injective : Function.Injective fun key : String => Value.str (utf8 key.toList) := by
  intro key key' h
  exact String.toList_inj.mp (utf8_injective (Value.str.inj h))

/-- If the entries are decoded, then no size was cut off. -/
theorem announced_of_times (depth : Nat) {found : List (Value × Value)} {behind : Bytes}
    (hkey : ∀ entry ∈ entries, (utf8 entry.1.toList).length ≤ 255)
    (hnodup : (entries.map Prod.fst).Nodup)
    (hlength : ∀ entry ∈ entries, (entry.2.contents.length : Int) = entry.2.streamSize)
    (htimes : times (pair (decode (depth + 1)) (decode (depth + 1))) entries.length
      (entries.flatMap entryBytes) = some (found, behind))
    (hfound : found.Perm (entries.map packed)) : ∀ entry ∈ entries, entry.2.Announced := by
  induction entries generalizing found with
  | nil => exact List.forall_mem_nil _
  | cons entry rest ih =>
    obtain ⟨first, middle, others, hfirst, hothers, rfl⟩ := times_succ_eq_some.mp htimes
    rw [List.flatMap_cons, pair_entryBytes depth (hkey _ List.mem_cons_self)] at hfirst
    obtain ⟨⟨taken, behind'⟩, htaken, heq⟩ := Option.map_eq_some_iff.mp hfirst
    cases heq
    obtain ⟨hsplit, hsize⟩ := takeBytes_eq_some htaken
    have hsame : taken = entry.2.contents := by
      obtain ⟨entry', hentry', heq⟩ := List.mem_map.mp (hfound.mem_iff.mp List.mem_cons_self)
      obtain ⟨hstr, hbin⟩ := Prod.mk.inj heq
      have hentry : entry' = entry := List.inj_on_of_nodup_map hnodup hentry' List.mem_cons_self
        (str_utf8_injective hstr)
      rw [hentry] at hbin
      exact (Value.bin.inj hbin).symm
    have hannounced : entry.2.Announced := by
      have hlength := hlength _ List.mem_cons_self
      refine ⟨hlength, ?_⟩
      rw [hsame, UInt32.toNat_ofNat'] at hsize
      omega
    rw [hsame] at hsplit hfound
    rw [← List.append_cancel_left hsplit] at hothers
    exact List.forall_mem_cons.mpr ⟨hannounced, ih
      (fun entry hentry => hkey entry (List.mem_cons_of_mem _ hentry))
      (List.nodup_cons.mp hnodup).2
      (fun entry hentry => hlength entry (List.mem_cons_of_mem _ hentry)) hothers hfound.cons_inv⟩

/-! ## When the answer is right -/

/-- If the answer is yes, the file is a map with the keys of the dictionary and all of their
contents, as announced; and it is no if a content is empty or a read fails. -/
structure Serialized (dictionary : Dictionary) : Prop where
  decoded : (serializeDictionaryToMessagePack dictionary).1 = true →
    (∃ found, ofBytes (serializeDictionaryToMessagePack dictionary).2 = some (.map found) ∧
      found.Perm (dictionary.entries.map packed)) ∧
    ∀ entry ∈ dictionary.entries, (entry.2.contents.length : Int) = entry.2.streamSize
  refused : (∃ entry ∈ dictionary.entries,
      entry.2.contents = [] ∨ .error ∈ entry.2.asInputStream) →
    (serializeDictionaryToMessagePack dictionary).1 = false

theorem mapHeader_eq : ∀ count ≤ 15,
    (0x80 : UInt8) ||| UInt8.ofNat count = UInt8.ofNat (0x80 + count) := by
  decide

/-- The file is a map if its entries are read up to the end. -/
theorem ofBytes_eq_map_iff {count : Nat} (hcount : count ≤ 15) (bytes : Bytes)
    (found : List (Value × Value)) :
    ofBytes ((0x80 ||| UInt8.ofNat count) :: bytes) = some (.map found) ↔
      times (pair (decode bytes.length) (decode bytes.length)) count bytes = some (found, []) := by
  unfold ofBytes
  rw [mapHeader_eq _ hcount, List.length_cons, decode_fixmap _ (by omega)]
  rcases times _ _ _ with _ | ⟨entries, _ | ⟨byte, behind⟩⟩
  · simp
  · simp
  · simp

theorem length_entryBytes {entries : List (String × SentryStreamable)} (hne : entries ≠ []) :
    ∃ depth, (entries.flatMap entryBytes).length = depth + 1 := by
  obtain ⟨entry, rest, rfl⟩ := List.exists_cons_of_ne_nil hne
  rw [List.flatMap_cons]
  exact ⟨_, rfl⟩

theorem serializeDictionary_of_not_stops {dictionary : Dictionary}
    (h : ∀ entry ∈ dictionary.entries, ¬entry.2.Stops) :
    serializeDictionaryToMessagePack dictionary =
      (true, (0x80 ||| UInt8.ofNat dictionary.entries.length) ::
        dictionary.entries.flatMap entryBytes) := by
  unfold serializeDictionaryToMessagePack
  rw [serializeEntries_of_not_stops h]
  rfl

/-- Some content stops the loop, or each stream yields as many bytes as were announced for it,
and less than the format can say. -/
theorem serialized_iff (dictionary : Dictionary) :
    Serialized dictionary ↔
      (∃ entry ∈ dictionary.entries, entry.2.Stops) ∨
        ∀ entry ∈ dictionary.entries, entry.2.Announced := by
  by_cases hstops : ∃ entry ∈ dictionary.entries, entry.2.Stops
  · have hno : (serializeDictionaryToMessagePack dictionary).1 = false :=
      serializeEntries_of_stops hstops _
    refine ⟨fun _ => Or.inl hstops, fun _ => ⟨fun hyes => ?_, fun _ => hno⟩⟩
    rw [hno] at hyes
    cases hyes
  · rw [or_iff_right hstops]
    have hgoes : ∀ entry ∈ dictionary.entries, ¬entry.2.Stops :=
      fun entry hentry h => hstops ⟨entry, hentry, h⟩
    have hwritten := serializeDictionary_of_not_stops hgoes
    constructor
    · rintro ⟨hdecoded, -⟩
      rw [hwritten] at hdecoded
      obtain ⟨⟨found, hfound, hperm⟩, hlength⟩ := hdecoded rfl
      by_cases hne : dictionary.entries = []
      · rw [hne]
        exact List.forall_mem_nil _
      · obtain ⟨depth, hdepth⟩ := length_entryBytes hne
        have htimes := (ofBytes_eq_map_iff dictionary.count_le _ found).mp hfound
        rw [hdepth] at htimes
        exact announced_of_times depth dictionary.key_le dictionary.nodup hlength htimes hperm
    · intro hannounced
      refine ⟨fun _ => ⟨⟨dictionary.entries.map packed, ?_, List.Perm.refl _⟩,
        fun entry hentry => (hannounced entry hentry).1⟩, ?_⟩
      · rw [hwritten]
        apply (ofBytes_eq_map_iff dictionary.count_le _ _).mpr
        by_cases hne : dictionary.entries = []
        · rw [hne]
          rfl
        · obtain ⟨depth, hdepth⟩ := length_entryBytes hne
          rw [hdepth]
          exact times_entryBytes depth dictionary.key_le hannounced
      · rintro ⟨entry, hentry, hempty | herror⟩
        · have hlength := (hannounced entry hentry).1
          rw [hempty] at hlength
          exact absurd (Or.inl (by rw [← hlength]; exact Int.le_refl _)) (hgoes entry hentry)
        · exact absurd (Or.inr herror) (hgoes entry hentry)

/-- A content of which more bytes are announced than its stream yields. -/
def shortStream : Dictionary where
  entries := [("key", ⟨2, [.bytes [1] (by decide) (by decide)]⟩)]
  nodup := by decide
  count_le := by decide
  key_le := by decide

/-- The file ends within the content that was announced, but the answer is yes. -/
theorem shortStream_not_serialized :
    (serializeDictionaryToMessagePack shortStream).1 = true ∧
      (ofBytes (serializeDictionaryToMessagePack shortStream).2).isNone = true ∧
      ¬Serialized shortStream := by
  refine ⟨by decide, by decide +kernel, ?_⟩
  rintro ⟨hdecoded, -⟩
  obtain ⟨-, hlength⟩ := hdecoded (by decide)
  exact absurd (hlength _ List.mem_cons_self) (by decide)

end SentryCocoa.MsgPackSerializer
