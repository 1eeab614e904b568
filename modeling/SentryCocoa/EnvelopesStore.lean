import SentryCocoa.EnvelopeNames
import SentryCocoa.EnvelopesLimit
import SentryCocoa.Library.Machine
import Mathlib.Data.Int.ModEq

/-! The folder of envelopes while envelopes are stored. The oldest files have to make room for
the new one, and the delegate is told of the items that are lost with them. -/
namespace SentryCocoa.FileManager
open SentryCocoa.Session SentryCocoa.DataCategory SentryCocoa.Library.Machine

structure NamedFile where
  name : JsonName
  contents : Option (Option (List EnvelopeItem))

/-- The folder, in the order of the names, and what the names are made from. -/
structure SentryFileManager where
  maxEnvelopes : UInt64
  currentFileCounter : Nat
  envelopes : List NamedFile
  ascending : (envelopes.map NamedFile.name).Pairwise (· < ·)

/-- A file that has the name already is written over. -/
def writeData (file : NamedFile) (files : List NamedFile) : List NamedFile :=
  files.filter (·.name < file.name) ++ file :: files.filter (file.name < ·.name)

/-- One turn of the loop: the files that were left, the path of the one that went, and the items
of which the delegate was told. -/
structure Turn where
  folder : Folder
  path : Nat
  deleted : List EnvelopeItem

structure Limited where
  folder : Folder
  turns : List Turn
  /-- No exception was raised. -/
  returned : Bool

/-- The turns of the loop from the index on. An index behind the end of the listing raises an
exception. -/
def removeEnvelopes (envelopeFilePaths : List Nat) : Nat → Nat → Folder → Limited
  | 0, _, folder => ⟨folder, [], true⟩
  | n + 1, i, folder =>
    match envelopeFilePaths[i]? with
    | none => ⟨folder, [], false⟩
    | some envelopeFilePath =>
      let (folder', deleted) := removeEnvelope envelopeFilePaths folder i
      let others := removeEnvelopes envelopeFilePaths n (i + 1) folder'
      ⟨others.folder, ⟨folder, envelopeFilePath, deleted⟩ :: others.turns, others.returned⟩

/-- The difference of unsigned numbers as a signed one. -/
def numberOfEnvelopesToRemove (count : Nat) (maxEnvelopes : UInt64) : Int :=
  ((count : Int) - maxEnvelopes.toNat).bmod (2 ^ 64)

/-- The path of a file is the position of its name in the listing. -/
def listing (files : List NamedFile) : Folder :=
  files.zipIdx.map fun file => ⟨file.2, file.1.contents⟩

def limitEnvelopes (files : List NamedFile) (maxEnvelopes : UInt64) : Limited :=
  removeEnvelopes ((listing files).map EnvelopeFile.path)
    (numberOfEnvelopesToRemove files.length maxEnvelopes).toNat 0 (listing files)

/-- The files that are left, under their names. -/
def named (files : List NamedFile) (folder : Folder) : List NamedFile :=
  folder.filterMap fun file => files[file.path]?.map fun original => ⟨original.name, file.contents⟩

/-! The turns without the paths. -/

def turns : Nat → Folder → List Turn
  | n + 1, file :: rest =>
    ⟨file :: rest, file.path, (removeOldest (file :: rest)).2⟩ ::
      turns n (removeOldest (file :: rest)).1
  | _, _ => []

theorem removeOldest_length (folder : Folder) :
    (removeOldest folder).1.length = folder.length - 1 := by
  have hlength := congrArg List.length (removeOldest_paths folder)
  simpa using hlength

theorem removeFiles_nil (n : Nat) : removeFiles n [] = ([], []) := by
  induction n with
  | zero => rfl
  | succ n ih => simp [removeFiles, removeOldest, ih]

theorem removeFiles_paths (n : Nat) (folder : Folder) :
    (removeFiles n folder).1.map EnvelopeFile.path = (folder.map EnvelopeFile.path).drop n := by
  induction n generalizing folder with
  | zero => rfl
  | succ n ih =>
    change (removeFiles n (removeOldest folder).1).1.map EnvelopeFile.path = _
    rw [ih, removeOldest_paths, List.drop_tail]

theorem removeEnvelopes_turns {paths : List Nat} (nodup : paths.Nodup) (n i : Nat)
    (folder : Folder) (hpaths : folder.map EnvelopeFile.path = paths.drop i) :
    removeEnvelopes paths n i folder =
      ⟨(removeFiles n folder).1, turns n folder, decide (n ≤ folder.length)⟩ := by
  induction n generalizing i folder with
  | zero => simp [removeEnvelopes, removeFiles, turns]
  | succ n ih =>
    have hlength : folder.length = paths.length - i := by
      simpa using congrArg List.length hpaths
    cases folder with
    | nil =>
      have hnone : paths[i]? = none := by
        rw [List.getElem?_eq_none_iff]
        simp at hlength
        omega
      simp [removeEnvelopes, hnone, removeFiles_nil, turns]
    | cons file rest =>
      have hi : i < paths.length := by
        simp at hlength
        omega
      have hpath : paths[i] = file.path := by
        rw [List.drop_eq_getElem_cons hi, List.map_cons, List.cons.injEq] at hpaths
        exact hpaths.1.symm
      have hrest := ih (i + 1) (removeOldest (file :: rest)).1 (by
        rw [removeOldest_paths, hpaths, List.tail_drop])
      have hremoved : (removeOldest (file :: rest)).1.length = rest.length :=
        removeOldest_length (file :: rest)
      unfold removeEnvelopes
      rw [List.getElem?_eq_getElem hi, hpath]
      dsimp only
      rw [removeEnvelope_eq hi hpaths nodup, hrest, hremoved]
      simp [removeFiles, turns]

/-! The paths and the names. -/

theorem listing_paths (files : List NamedFile) :
    (listing files).map EnvelopeFile.path = List.range files.length := by
  have hpath : (fun file : NamedFile × Nat => (⟨file.2, file.1.contents⟩ : EnvelopeFile).path) =
      Prod.snd := rfl
  rw [listing, List.map_map, Function.comp_def, hpath, List.zipIdx_map_snd, List.range_eq_range']

theorem listing_length (files : List NamedFile) : (listing files).length = files.length := by
  simp [listing]

theorem listing_nodup (files : List NamedFile) :
    ((listing files).map EnvelopeFile.path).Nodup := by
  rw [listing_paths]
  exact List.nodup_range

theorem limitEnvelopes_eq (files : List NamedFile) (maxEnvelopes : UInt64) :
    limitEnvelopes files maxEnvelopes =
      let n := (numberOfEnvelopesToRemove files.length maxEnvelopes).toNat
      ⟨(removeFiles n (listing files)).1, turns n (listing files), decide (n ≤ files.length)⟩ := by
  rw [limitEnvelopes, removeEnvelopes_turns (listing_nodup files) _ 0 _ List.drop_zero.symm,
    listing_length]

theorem filterMap_range' {α : Type} (values : List α) (n start : Nat)
    (h : start + n = values.length) :
    (List.range' start n).filterMap (fun i => values[i]?) = values.drop start := by
  induction n generalizing start with
  | zero => simp [← h]
  | succ n ih =>
    have hstart : start < values.length := by omega
    rw [List.range'_succ, List.filterMap_cons_some (List.getElem?_eq_getElem hstart),
      ih (start + 1) (by omega), List.drop_eq_getElem_cons hstart]

/-- What is left are the files from some position on. -/
theorem named_names {files : List NamedFile} {folder : Folder} {n : Nat}
    (h : folder.map EnvelopeFile.path = (List.range files.length).drop n) :
    (named files folder).map NamedFile.name = (files.map NamedFile.name).drop n := by
  have hnames : (named files folder).map NamedFile.name =
      (folder.map EnvelopeFile.path).filterMap fun i => (files.map NamedFile.name)[i]? := by
    rw [named, List.map_filterMap, List.filterMap_map]
    congr 1
    funext file
    simp [Option.map_map, Function.comp_def]
  rw [hnames, h, List.range_eq_range', List.drop_range']
  by_cases hn : n ≤ files.length
  · rw [filterMap_range' _ _ _ (by rw [List.length_map]; omega)]
    rw [Nat.zero_add, Nat.mul_one]
  · rw [List.drop_eq_nil_of_le (by rw [List.length_map]; omega),
      Nat.sub_eq_zero_of_le (by omega)]
    rfl

theorem limitEnvelopes_names (files : List NamedFile) (maxEnvelopes : UInt64) :
    (named files (limitEnvelopes files maxEnvelopes).folder).map NamedFile.name =
      (files.map NamedFile.name).drop
        (numberOfEnvelopesToRemove files.length maxEnvelopes).toNat := by
  apply named_names
  rw [limitEnvelopes_eq]
  dsimp only
  rw [removeFiles_paths, listing_paths]

theorem writeData_ascending {files : List NamedFile}
    (h : (files.map NamedFile.name).Pairwise (· < ·)) (file : NamedFile) :
    ((writeData file files).map NamedFile.name).Pairwise (· < ·) := by
  rw [List.pairwise_map] at h
  rw [List.pairwise_map, writeData, List.pairwise_append, List.pairwise_cons]
  refine ⟨h.filter _, ⟨?_, h.filter _⟩, ?_⟩
  · intro later hlater
    exact of_decide_eq_true (List.mem_filter.mp hlater).2
  · intro earlier hearlier other hother
    have hbefore : earlier.name < file.name := of_decide_eq_true (List.mem_filter.mp hearlier).2
    rcases List.mem_cons.mp hother with rfl | hlater
    · exact hbefore
    · exact hbefore.trans (of_decide_eq_true (List.mem_filter.mp hlater).2)

/-! `storeEnvelope:`. -/

/-- A call with an envelope that could be serialized: what the clock shows, the identifier that is
drawn, what the parser would read from the data, and whether writing succeeds. -/
structure StoreCall where
  date : ℚ
  uuid : NSUUID
  contents : Option (List EnvelopeItem)
  written : Bool

/-- The file manager afterwards, what the loop did, and whether the call returned. -/
structure Stored where
  manager : SentryFileManager
  turns : List Turn
  returned : Bool

namespace SentryFileManager
variable (manager : SentryFileManager) (call : StoreCall)

def newFile : NamedFile where
  name := uniqueAscendingJsonName call.date manager.currentFileCounter call.uuid
  contents := some call.contents

/-- The folder when the new file has been written. -/
def filesWithNew : List NamedFile := writeData (manager.newFile call) manager.envelopes

def storeEnvelope : Stored :=
  if call.written then
    let limited := limitEnvelopes (manager.filesWithNew call) manager.maxEnvelopes
    { manager := {
        maxEnvelopes := manager.maxEnvelopes
        currentFileCounter := manager.currentFileCounter + 1
        envelopes := named (manager.filesWithNew call) limited.folder
        ascending := by
          rw [limitEnvelopes_names]
          exact (writeData_ascending manager.ascending _).sublist (List.drop_sublist _ _) }
      turns := limited.turns
      returned := limited.returned }
  else
    { manager := { manager with currentFileCounter := manager.currentFileCounter + 1 }
      turns := []
      returned := true }

end SentryFileManager

/-! What a store has to do. -/

/-- The first session with an init flag that another file has an update of. -/
def migratedSession (others : Folder) (items : List EnvelopeItem) : Option SentrySession :=
  (items.filterMap EnvelopeItem.sessionWithData).find? fun session =>
    flagInitValue session && !(others.updates session.sessionId).isEmpty

/-- The delegate is told of each item of the file once, but for the session that went on to
another file. -/
def Turn.Reported (turn : Turn) : Prop :=
  let items := ((turn.folder.contentsAtPath turn.path).bind id).getD []
  let migrated := migratedSession (turn.folder.removeFileAtPath turn.path) items
  (migrated.toList.map EnvelopeItem.session ++ turn.deleted).Perm items

structure Stored.Correct (manager : SentryFileManager) (call : StoreCall) (stored : Stored) :
    Prop where
  returned : stored.returned = true
  limit : stored.manager.envelopes.length ≤ manager.maxEnvelopes.toNat
  present : (manager.newFile call).name ∈ stored.manager.envelopes.map NamedFile.name
  /-- The files that were removed are the first ones. -/
  first : stored.manager.envelopes.map NamedFile.name <:+
    (manager.filesWithNew call).map NamedFile.name
  reported : ∀ turn ∈ stored.turns, turn.Reported

/-- Nothing has to happen when the envelope could not be written. -/
def SentryFileManager.StoresCorrectly (manager : SentryFileManager) (call : StoreCall) : Prop :=
  call.written = true → (manager.storeEnvelope call).Correct manager call

/-! The condition. -/

/-- A file that hands on an init flag has no other session. -/
def OneSession : Nat → Folder → Prop
  | n + 1, file :: rest =>
    ((migratedSession rest file.items).isSome → file.sessionItems = 1) ∧
      OneSession n (removeOldest (file :: rest)).1
  | _, _ => True

structure SentryFileManager.CanStore (manager : SentryFileManager) (call : StoreCall) : Prop where
  /-- The number of files beyond the limit is a signed number. -/
  signed : -2 ^ 63 ≤ ((manager.filesWithNew call).length : Int) - manager.maxEnvelopes.toNat ∧
    ((manager.filesWithNew call).length : Int) - manager.maxEnvelopes.toNat < 2 ^ 63
  /-- Not so many files have later names that the new one has to go. -/
  later : (manager.envelopes.filter ((manager.newFile call).name < ·.name)).length <
    manager.maxEnvelopes.toNat
  alone : OneSession ((manager.filesWithNew call).length - manager.maxEnvelopes.toNat)
    (listing (manager.filesWithNew call))

/-! The items of a removed file. -/

theorem isSessionType_iff (item : EnvelopeItem) :
    (sentryDataCategoryForEnvelopItemType item == .session) = item.isSessionType := by
  cases item with
  | session update => rfl
  | unreadableSession data => rfl
  | other type data => cases type <;> rfl

theorem handOn_isSome (rest : Folder) (items : List EnvelopeItem) :
    (handOn rest items).isSome = (migratedSession rest items).isSome := by
  have hhanded : handedOn rest items =
      (migratedSession rest items).map SentrySession.sessionId := rfl
  rw [handOn_eq, hhanded]
  cases hmigrated : migratedSession rest items with
  | none => rfl
  | some session =>
    have hfind := List.find?_some hmigrated
    rw [Option.map_some, Option.bind_some, Option.isSome_some]
    cases hreceive : receive session.sessionId rest with
    | some rest' => rfl
    | none =>
      rw [receive_eq_none.mp hreceive] at hfind
      simp at hfind

theorem migratedSession_mem {rest : Folder} {items : List EnvelopeItem} {session : SentrySession}
    (h : migratedSession rest items = some session) : .session session ∈ items := by
  obtain ⟨item, hmem, hitem⟩ := List.mem_filterMap.mp (List.mem_of_find?_eq_some h)
  rw [← (sessionWithData_eq_some hitem).1]
  exact hmem

/-- The delegate is told of everything else only when there is no other session. -/
theorem others_perm_iff {items : List EnvelopeItem} {session : SentrySession}
    (h : .session session ∈ items) :
    (.session session :: items.filter fun item => !item.isSessionType).Perm items ↔
      items.countP EnvelopeItem.isSessionType = 1 := by
  have hlength := List.length_eq_countP_add_countP EnvelopeItem.isSessionType (l := items)
  constructor
  · intro hperm
    have hcount := hperm.countP_eq EnvelopeItem.isSessionType
    rw [← hcount, List.countP_cons_of_pos rfl, List.countP_eq_zero.mpr]
    intro item hitem
    simpa using (List.mem_filter.mp hitem).2
  · intro hone
    have hsessions : items.filter EnvelopeItem.isSessionType = [.session session] := by
      rw [List.countP_eq_length_filter, List.length_eq_one_iff] at hone
      obtain ⟨item, hitem⟩ := hone
      have hmem : EnvelopeItem.session session ∈ items.filter EnvelopeItem.isSessionType :=
        List.mem_filter.mpr ⟨h, rfl⟩
      rw [hitem, List.mem_singleton] at hmem
      rw [hitem, hmem]
    have hperm := List.filter_append_perm EnvelopeItem.isSessionType items
    rw [hsessions] at hperm
    exact hperm

theorem reported_iff {file : EnvelopeFile} {rest : Folder}
    (nodup : ((file :: rest).map EnvelopeFile.path).Nodup) :
    Turn.Reported ⟨file :: rest, file.path, (removeOldest (file :: rest)).2⟩ ↔
      ((migratedSession rest file.items).isSome → file.sessionItems = 1) := by
  have hcontents : Folder.contentsAtPath (file :: rest) file.path = file.contents :=
    contentsAtPath_append [] nodup
  have hdeleted : (removeOldest (file :: rest)).2 = file.items.filter fun item =>
      !((migratedSession rest file.items).isSome && item.isSessionType) := by
    simp only [removeOldest, handOn_isSome, isSessionType_iff]
  unfold Turn.Reported
  dsimp only
  rw [hcontents, removeFileAtPath_cons nodup, ← EnvelopeFile.items, hdeleted]
  cases hmigrated : migratedSession rest file.items with
  | none => simp
  | some session =>
    have hperm := others_perm_iff (migratedSession_mem hmigrated)
    simpa [EnvelopeFile.sessionItems] using hperm

theorem turns_reported_iff (n : Nat) (folder : Folder)
    (nodup : (folder.map EnvelopeFile.path).Nodup) :
    (∀ turn ∈ turns n folder, turn.Reported) ↔ OneSession n folder := by
  induction n generalizing folder with
  | zero => simp [turns, OneSession]
  | succ n ih =>
    cases folder with
    | nil => simp [turns, OneSession]
    | cons file rest =>
      have hnodup : ((removeOldest (file :: rest)).1.map EnvelopeFile.path).Nodup := by
        rw [removeOldest_paths]
        exact nodup.sublist (List.tail_sublist _)
      rw [turns, List.forall_mem_cons, reported_iff nodup, ih _ hnodup, OneSession]

/-! How many files are removed. -/

theorem numberOfEnvelopesToRemove_eq {count : Nat} {maxEnvelopes : UInt64}
    (hlow : -2 ^ 63 ≤ (count : Int) - maxEnvelopes.toNat)
    (hhigh : (count : Int) - maxEnvelopes.toNat < 2 ^ 63) :
    numberOfEnvelopesToRemove count maxEnvelopes = (count : Int) - maxEnvelopes.toNat := by
  unfold numberOfEnvelopesToRemove
  exact Int.bmod_eq_of_le (by omega) (by omega)

/-- A limit that is too large for a signed number has every file removed, and one more. -/
theorem signed_of_removed {count : Nat} {maxEnvelopes : UInt64}
    (hremoved : (numberOfEnvelopesToRemove count maxEnvelopes).toNat ≤ count)
    (hlimit : count - (numberOfEnvelopesToRemove count maxEnvelopes).toNat ≤
      maxEnvelopes.toNat) :
    -2 ^ 63 ≤ (count : Int) - maxEnvelopes.toNat ∧
      (count : Int) - maxEnvelopes.toNat < 2 ^ 63 := by
  have hmax := maxEnvelopes.toNat_lt
  unfold numberOfEnvelopesToRemove at hremoved hlimit
  have hlow := Int.le_bmod (x := (count : Int) - maxEnvelopes.toNat) (m := 2 ^ 64) (by decide)
  obtain ⟨wraps, hwraps⟩ :=
    Int.dvd_self_sub_bmod (x := (count : Int) - maxEnvelopes.toNat) (m := 2 ^ 64)
  have hhigh := Int.bmod_lt (x := (count : Int) - maxEnvelopes.toNat) (m := 2 ^ 64) (by decide)
  generalize ((count : Int) - maxEnvelopes.toNat).bmod (2 ^ 64) = removed at *
  omega

/-! Stores. -/

theorem mem_drop_iff {before after : List JsonName} {name : JsonName} (h : name ∉ after) (n : Nat) :
    name ∈ (before ++ name :: after).drop n ↔ n ≤ before.length := by
  constructor
  · intro hmem
    by_contra hn
    rw [List.drop_append, List.drop_eq_nil_of_le (by omega), List.nil_append,
      show n - before.length = n - before.length - 1 + 1 by omega, List.drop_succ_cons] at hmem
    exact h (List.mem_of_mem_drop hmem)
  · intro hn
    rw [List.drop_append_of_le_length hn]
    exact List.mem_append_right _ List.mem_cons_self

section Store
variable (manager : SentryFileManager) (call : StoreCall)

/-- How many turns the loop takes, if the listing is long enough. -/
def SentryFileManager.turnCount : Nat :=
  (numberOfEnvelopesToRemove (manager.filesWithNew call).length manager.maxEnvelopes).toNat

theorem stored_names (hwritten : call.written = true) :
    (manager.storeEnvelope call).manager.envelopes.map NamedFile.name =
      ((manager.filesWithNew call).map NamedFile.name).drop (manager.turnCount call) := by
  rw [SentryFileManager.storeEnvelope, if_pos hwritten]
  exact limitEnvelopes_names _ _

theorem stored_length (hwritten : call.written = true) :
    (manager.storeEnvelope call).manager.envelopes.length =
      (manager.filesWithNew call).length - manager.turnCount call := by
  simpa using congrArg List.length (stored_names manager call hwritten)

theorem stored_turns (hwritten : call.written = true) :
    (manager.storeEnvelope call).turns =
      turns (manager.turnCount call) (listing (manager.filesWithNew call)) := by
  rw [SentryFileManager.storeEnvelope, if_pos hwritten]
  exact congrArg Limited.turns (limitEnvelopes_eq _ _)

theorem stored_returned (hwritten : call.written = true) :
    (manager.storeEnvelope call).returned =
      decide (manager.turnCount call ≤ (manager.filesWithNew call).length) := by
  rw [SentryFileManager.storeEnvelope, if_pos hwritten]
  exact congrArg Limited.returned (limitEnvelopes_eq _ _)

theorem newFile_stored_iff (n : Nat) :
    (manager.newFile call).name ∈ ((manager.filesWithNew call).map NamedFile.name).drop n ↔
      n + (manager.envelopes.filter ((manager.newFile call).name < ·.name)).length + 1 ≤
        (manager.filesWithNew call).length := by
  have hafter : (manager.newFile call).name ∉
      (manager.envelopes.filter ((manager.newFile call).name < ·.name)).map NamedFile.name := by
    intro hmem
    obtain ⟨file, hfile, heq⟩ := List.mem_map.mp hmem
    exact absurd heq (ne_of_gt (of_decide_eq_true (List.mem_filter.mp hfile).2))
  unfold SentryFileManager.filesWithNew writeData
  rw [List.map_append, List.map_cons, mem_drop_iff hafter]
  simp only [List.length_map, List.length_append, List.length_cons]
  omega

theorem turnCount_eq
    (hlow : -2 ^ 63 ≤ ((manager.filesWithNew call).length : Int) - manager.maxEnvelopes.toNat)
    (hhigh : ((manager.filesWithNew call).length : Int) - manager.maxEnvelopes.toNat < 2 ^ 63) :
    manager.turnCount call =
      (manager.filesWithNew call).length - manager.maxEnvelopes.toNat := by
  rw [SentryFileManager.turnCount, numberOfEnvelopesToRemove_eq hlow hhigh, Int.toNat_sub]

theorem correct_iff (hwritten : call.written = true) :
    (manager.storeEnvelope call).Correct manager call ↔ manager.CanStore call := by
  have hnames := stored_names manager call hwritten
  have hlength := stored_length manager call hwritten
  have hturns := stored_turns manager call hwritten
  have hreturned := stored_returned manager call hwritten
  have hreported := fun n => turns_reported_iff n _ (listing_nodup (manager.filesWithNew call))
  constructor
  · intro h
    have hcount : manager.turnCount call ≤ (manager.filesWithNew call).length := by
      simpa [hreturned] using h.returned
    have hlimit := h.limit
    have hpresent := h.present
    have hturn := h.reported
    rw [hlength] at hlimit
    rw [hnames, newFile_stored_iff] at hpresent
    rw [hturns, hreported] at hturn
    have hsigned := signed_of_removed hcount hlimit
    rw [turnCount_eq manager call hsigned.1 hsigned.2] at hpresent hturn
    exact ⟨hsigned, by omega, hturn⟩
  · intro h
    have hcount := turnCount_eq manager call h.signed.1 h.signed.2
    have hlater := h.later
    have hnew := (newFile_stored_iff manager call 0).mp (by
      rw [List.drop_zero]
      exact List.mem_map_of_mem (List.mem_append_right _ List.mem_cons_self))
    refine ⟨?_, ?_, ?_, ?_, ?_⟩
    · rw [hreturned, decide_eq_true_eq]
      omega
    · rw [hlength]
      omega
    · rw [hnames, newFile_stored_iff]
      omega
    · rw [hnames]
      exact List.drop_suffix _ _
    · rw [hturns, hreported, hcount]
      exact h.alone

end Store

/-- With ten digits of seconds and five of the counter, no file that was stored before has a later
name. -/
theorem no_later_names {manager : SentryFileManager} {call : StoreCall}
    (hlow : 10 ^ 9 ≤ call.date) (hhigh : millionths call.date < 10 ^ 16)
    (hcounter : manager.currentFileCounter < 10 ^ 5)
    (h : ∀ file ∈ manager.envelopes, ∃ (date : ℚ) (counter : Nat) (uuid : NSUUID),
      file.name = uniqueAscendingJsonName date counter uuid ∧ 10 ^ 9 ≤ date ∧
        (millionths date < millionths call.date ∨
          millionths date = millionths call.date ∧ counter < manager.currentFileCounter)) :
    manager.envelopes.filter ((manager.newFile call).name < ·.name) = [] := by
  rw [List.filter_eq_nil_iff]
  intro file hfile hlater
  obtain ⟨date, counter, uuid, hname, hdate, hearlier⟩ := h file hfile
  have hlt := uniqueAscendingJsonName_lt uuid call.uuid hdate hlow hhigh hcounter hearlier
  rw [← hname] at hlt
  exact lt_asymm hlt (of_decide_eq_true hlater)

/-! Runs. -/

def store (manager : SentryFileManager) (call : StoreCall) : Option SentryFileManager :=
  some (manager.storeEnvelope call).manager

/-- Every store of a sequence keeps the limit and the new file, removes the oldest files and tells
the delegate of their items, if and only if no limit is too large for a signed number, at each
store less files than the limit have later names, and no file that hands on an init flag has
another session. -/
theorem stores_correctly_iff (manager : SentryFileManager) (calls : List StoreCall) :
    Allowed store SentryFileManager.StoresCorrectly manager calls ↔
      Allowed store (fun manager call => call.written = true → manager.CanStore call)
        manager calls := by
  apply allowed_congr
  intro manager call
  exact forall_congr' fun hwritten => correct_iff manager call hwritten

def emptyManager (maxEnvelopes : UInt64) : SentryFileManager := ⟨maxEnvelopes, 0, [], .nil⟩

def exampleCall (date : ℚ) (items : List EnvelopeItem) : StoreCall :=
  ⟨date, exampleFileUUID, some items, true⟩

/-- The init flag of the session 1 moves on, and nobody is told that the session 2 is lost. The
clock that starts in 2001 has one digit less than today's, so that the new file is the first. -/
theorem untold_and_removed :
    ¬Allowed store SentryFileManager.StoresCorrectly (emptyManager 1)
        [exampleCall 1700000000 [.session (exampleSession 1), .session (exampleSession 2)],
          exampleCall 1700000001 [.session (exampleSession 1).changed]] ∧
      ¬Allowed store SentryFileManager.StoresCorrectly (emptyManager 1)
        [exampleCall 978307200 [], exampleCall 1700000000 []] := by
  constructor
  · intro h
    have hstore := ((h _ rfl).2 _ rfl).1 rfl
    have hreported := hstore.reported
    revert hreported
    unfold Turn.Reported
    decide +kernel
  · intro h
    have hstore := ((h _ rfl).2 _ rfl).1 rfl
    have hpresent := hstore.present
    revert hpresent
    decide +kernel

end SentryCocoa.FileManager
