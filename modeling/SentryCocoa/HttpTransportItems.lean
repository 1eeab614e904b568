import SentryCocoa.HttpTransport

/-! Where the items of the envelopes are. An item that was accepted waits to be stored, is kept in
memory or in a file, was delivered or was recorded as lost, as long as no answer that does not
fit the place of an envelope, no rate limit on a part of a file and no removal of the file that is
being sent comes between. -/
namespace SentryCocoa.FileManager

/-! Removals that hand on no init flag. -/

def NoneHandedOn : Nat → Folder → Prop
  | n + 1, file :: rest => handedOn rest file.items = none ∧ NoneHandedOn n rest
  | _, _ => True

theorem removeOldest_of_handedOn {file : EnvelopeFile} {rest : Folder}
    (h : handedOn rest file.items = none) : removeOldest (file :: rest) = (rest, file.items) := by
  have hnone : handOn rest file.items = none := by
    rw [handOn_eq, h]
    rfl
  simp [removeOldest, hnone]

theorem removeFiles_of_noneHandedOn {n : Nat} {folder : Folder} (h : NoneHandedOn n folder) :
    (removeFiles n folder).1 = folder.drop n := by
  induction n generalizing folder with
  | zero => rfl
  | succ n ih =>
    cases folder with
    | nil => rw [removeFiles_nil, List.drop_nil]
    | cons file rest =>
      change (removeFiles n (removeOldest (file :: rest)).1).1 = rest.drop n
      rw [removeOldest_of_handedOn h.1]
      exact ih h.2

theorem turns_of_noneHandedOn {n : Nat} {folder : Folder} (h : NoneHandedOn n folder) :
    (turns n folder).flatMap Turn.deleted = (folder.take n).flatMap EnvelopeFile.items := by
  induction n generalizing folder with
  | zero => simp [turns]
  | succ n ih =>
    cases folder with
    | nil => simp [turns]
    | cons file rest =>
      rw [turns, List.flatMap_cons, removeOldest_of_handedOn h.1, List.take_succ_cons,
        List.flatMap_cons, ih h.2]

theorem named_drop (files : List NamedFile) (n : Nat) :
    named files ((listing files).drop n) = files.drop n := by
  have hfound : ∀ file ∈ files.zipIdx.drop n,
      (files[file.2]?.map fun original => (⟨original.name, file.1.contents⟩ : NamedFile)) =
        some file.1 := by
    intro file hfile
    rw [List.mk_mem_zipIdx_iff_getElem?.mp (List.mem_of_mem_drop hfile)]
    rfl
  have hfirst : files.drop n = (files.zipIdx.drop n).map Prod.fst := by
    rw [List.map_drop, List.zipIdx_map_fst]
  rw [named, listing, ← List.map_drop, List.filterMap_map, hfirst, ← List.filterMap_eq_map]
  exact List.filterMap_congr hfound

theorem listing_take_items (files : List NamedFile) (n : Nat) :
    ((listing files).take n).flatMap EnvelopeFile.items =
      (files.take n).flatMap NamedFile.items := by
  have hfirst : files.take n = (files.zipIdx.take n).map Prod.fst := by
    rw [List.map_take, List.zipIdx_map_fst]
  rw [listing, ← List.map_take, List.flatMap_map, hfirst, List.flatMap_map]
  rfl

namespace SentryFileManager
variable (manager : SentryFileManager) (call : StoreCall)

/-- How many files a call removes. -/
def removed : Nat :=
  (numberOfEnvelopesToRemove (manager.filesWithNew call).length manager.maxEnvelopes).toNat

theorem storeEnvelope_envelopes (hwritten : call.written = true)
    (h : NoneHandedOn (manager.removed call) (listing (manager.filesWithNew call))) :
    (manager.storeEnvelope call).manager.envelopes =
      (manager.filesWithNew call).drop (manager.removed call) := by
  rw [storeEnvelope, if_pos hwritten]
  dsimp only
  rw [limitEnvelopes_eq]
  dsimp only
  exact (congrArg _ (removeFiles_of_noneHandedOn h)).trans (named_drop _ _)

theorem storeEnvelope_deleted (hwritten : call.written = true)
    (h : NoneHandedOn (manager.removed call) (listing (manager.filesWithNew call))) :
    (manager.storeEnvelope call).turns.flatMap Turn.deleted =
      ((manager.filesWithNew call).take (manager.removed call)).flatMap NamedFile.items := by
  rw [storeEnvelope, if_pos hwritten]
  dsimp only
  rw [limitEnvelopes_eq]
  dsimp only
  exact (turns_of_noneHandedOn h).trans (listing_take_items _ _)

/-- A new name takes no file's place. -/
theorem filesWithNew_perm (h : (manager.newFile call).name ∉ manager.envelopes.map NamedFile.name) :
    (manager.filesWithNew call).Perm (manager.newFile call :: manager.envelopes) := by
  have hsplit : ∀ file ∈ manager.envelopes, decide ((manager.newFile call).name < file.name) =
      !decide (file.name < (manager.newFile call).name) := by
    intro file hfile
    have hne : file.name ≠ (manager.newFile call).name := fun heq =>
      h (List.mem_map.mpr ⟨file, hfile, heq⟩)
    rw [← decide_not, decide_eq_decide, not_lt]
    exact ⟨le_of_lt, fun hle => lt_of_le_of_ne hle (Ne.symm hne)⟩
  unfold filesWithNew writeData
  rw [List.filter_congr hsplit]
  exact List.perm_middle.trans (.cons _ (List.filter_append_perm _ _))

end SentryFileManager

end SentryCocoa.FileManager

namespace SentryCocoa.HttpTransport
open SentryCocoa.Foundation SentryCocoa.FileManager SentryCocoa.DataCategory
open SentryCocoa.ClientReports SentryCocoa.Library.Machine

namespace SendCycle

/-- The items that the cycle has read. -/
def envelope : SendCycle → List EnvelopeItem
  | .removeRateLimitedItems envelope _ => envelope
  | .createEnvelopeRequest rateLimitedEnvelope _ => rateLimitedEnvelope
  | .completionHandler envelope _ => envelope
  | _ => []

def envelopePath : SendCycle → Option JsonName
  | .removeRateLimitedItems _ envelopeFilePath => envelopeFilePath
  | .createEnvelopeRequest _ envelopeFilePath => envelopeFilePath
  | .completionHandler _ envelopePath => envelopePath
  | .removeFileAtPath envelopePath => envelopePath
  | _ => none

/-- The items that are in no file. -/
def inMemory (cycle : SendCycle) : List EnvelopeItem :=
  if cycle.envelopePath.isNone then cycle.envelope else []

/-- The file that is not read again, as it is to be removed. -/
def leaving : SendCycle → Option JsonName
  | .removeFileAtPath envelopePath => envelopePath
  | _ => none

end SendCycle

namespace SentryHttpTransport

/-! Places. -/

section Places
variable (s : SentryHttpTransport)

def waiting : List EnvelopeItem := s.storeBlocks.flatten

def inMemory : List EnvelopeItem :=
  s.notStoredEnvelopes.flatten ++ s.cycles.flatMap SendCycle.inMemory

def isLeaving (file : NamedFile) : Bool :=
  s.cycles.any fun cycle => cycle.leaving = some file.name

def onDisk : List EnvelopeItem :=
  (s.fileManager.envelopes.filter fun file => !s.isLeaving file).flatMap NamedFile.items

/-- An item is as often in one of the places as it was accepted. -/
def Accounted : Prop :=
  ∀ item, isClientReport item = false →
    s.accepted.count item = s.waiting.count item + s.inMemory.count item + s.onDisk.count item +
      s.delivered.count item + s.lost.count item

end Places

/-! The condition. -/

/-- The new file has a name of its own and holds the envelope; the files that have to go hand on
no init flag, and none of them is being sent. -/
structure StoresAll (s : SentryHttpTransport) (envelope : List EnvelopeItem) (call : StoreCall) :
    Prop where
  name : (s.fileManager.newFile call).name ∉ s.fileManager.envelopes.map NamedFile.name
  contents : call.contents = some envelope
  inits : NoneHandedOn (s.fileManager.removed call) (listing (s.fileManager.filesWithNew call))
  sending : ∀ cycle ∈ s.cycles, ∀ path ∈ cycle.envelopePath,
    path ∉ ((s.fileManager.filesWithNew call).take (s.fileManager.removed call)).map NamedFile.name

/-- A rate limit drops all of a file or nothing of it. A request for a file that is kept fails
without an error, and one for an envelope that is not kept with an error. -/
def Orderly (s : SentryHttpTransport) : Call → Prop
  | .storeEnvelope i (some call) =>
    call.written = true → ∀ envelope ∈ s.storeBlocks[i]?, s.StoresAll envelope call
  | .removeRateLimitedItems i isRateLimitActive => ∀ cycle ∈ s.cycles[i]?,
    cycle.envelopePath.isSome → itemsToSend isRateLimitActive cycle.envelope = [] ∨
      withoutClientReports (itemsToDrop isRateLimitActive cycle.envelope) = []
  | .completionHandler i none error => ∀ cycle ∈ s.cycles[i]?,
    withoutClientReports cycle.envelope = [] ∨ error = cycle.envelopePath.isNone
  | _ => True

/-! The invariant. -/

/-- The file that a cycle has read is there, with the items that the cycle has. -/
def FileThere (fileManager : SentryFileManager) (cycle : SendCycle) : Prop :=
  ∀ path ∈ cycle.envelopePath, ∃ file ∈ fileManager.envelopes, file.name = path ∧
    (cycle.leaving = none → ∀ item, isClientReport item = false →
      file.items.count item = cycle.envelope.count item)

structure Inv (s : SentryHttpTransport) : Prop where
  controlled : s.Controlled
  accounted : s.Accounted
  fileThere : ∀ cycle ∈ s.cycles, FileThere s.fileManager cycle

/-! Counts. -/

theorem count_withoutClientReports {item : EnvelopeItem} (h : isClientReport item = false)
    (items : List EnvelopeItem) : (withoutClientReports items).count item = items.count item :=
  List.count_filter (by rw [h]; rfl)

theorem count_itemsToSend (isRateLimitActive : SentryDataCategory → Bool)
    (items : List EnvelopeItem) (item : EnvelopeItem) :
    items.count item = (itemsToDrop isRateLimitActive items).count item +
      (itemsToSend isRateLimitActive items).count item := by
  rw [← List.count_append]
  exact ((List.filter_append_perm _ items).count_eq item).symm

theorem count_eraseIdx {blocks : List (List EnvelopeItem)} {i : Nat} {envelope : List EnvelopeItem}
    (h : blocks[i]? = some envelope) (item : EnvelopeItem) :
    blocks.flatten.count item =
      envelope.count item + (blocks.eraseIdx i).flatten.count item := by
  obtain ⟨hi, henvelope⟩ := List.getElem?_eq_some_iff.mp h
  have hperm := (List.getElem_cons_eraseIdx_perm hi).flatten
  rw [← hperm.count_eq, List.flatten_cons, List.count_append, henvelope]

/-! The files that are kept. -/

/-- The items of the files but for the one that the cycle is about to remove. -/
def keptItems (fileManager : SentryFileManager) (cycle : SendCycle) : List EnvelopeItem :=
  (fileManager.envelopes.filter fun file => cycle.leaving ≠ some file.name).flatMap NamedFile.items

theorem keptItems_of_leaving_none (fileManager : SentryFileManager) {cycle : SendCycle}
    (h : cycle.leaving = none) :
    keptItems fileManager cycle = fileManager.envelopes.flatMap NamedFile.items := by
  unfold keptItems
  rw [h, List.filter_eq_self.mpr (fun _ _ => by simp)]

/-- The names differ, so one file goes. -/
theorem count_keptItems {fileManager : SentryFileManager} {file : NamedFile}
    (hfile : file ∈ fileManager.envelopes) (item : EnvelopeItem) :
    (fileManager.envelopes.flatMap NamedFile.items).count item = file.items.count item +
      (keptItems fileManager (.removeFileAtPath (some file.name))).count item := by
  obtain ⟨before, after, hsplit⟩ := List.append_of_mem hfile
  have hascending := fileManager.ascending
  rw [hsplit, List.map_append, List.map_cons, List.pairwise_append, List.pairwise_cons] at hascending
  have hbefore : ∀ other ∈ before, file.name ≠ other.name := fun other hother =>
    (hascending.2.2 _ (List.mem_map_of_mem hother) _ List.mem_cons_self).ne'
  have hafter : ∀ other ∈ after, file.name ≠ other.name := fun other hother =>
    (hascending.2.1.1 _ (List.mem_map_of_mem hother)).ne
  have hkept : (fileManager.envelopes.filter fun other =>
      (SendCycle.removeFileAtPath (some file.name)).leaving ≠ some other.name) =
      before ++ after := by
    rw [hsplit, List.filter_append, List.filter_cons_of_neg (by simp [SendCycle.leaving]),
      List.filter_eq_self.mpr (fun other hother => by
        simpa [SendCycle.leaving] using hbefore other hother),
      List.filter_eq_self.mpr (fun other hother => by
        simpa [SendCycle.leaving] using hafter other hother)]
  unfold keptItems
  rw [hkept, hsplit, List.flatMap_append, List.flatMap_cons, List.flatMap_append]
  simp only [List.count_append]
  omega

theorem keptItems_removeFileAtPath (fileManager : SentryFileManager) (path : JsonName) :
    keptItems (fileManager.removeFileAtPath path) .clearIsSending =
      keptItems fileManager (.removeFileAtPath (some path)) := by
  rw [keptItems_of_leaving_none _ rfl]
  unfold keptItems SentryFileManager.removeFileAtPath
  congr 1
  apply List.filter_congr
  intro file _
  simp [SendCycle.leaving, eq_comm]

theorem onDisk_single {s : SentryHttpTransport} {cycle : SendCycle} (h : s.cycles = [cycle]) :
    s.onDisk = keptItems s.fileManager cycle := by
  unfold onDisk keptItems isLeaving
  rw [h]
  congr 1
  apply List.filter_congr
  intro file _
  simp

theorem onDisk_nil {s : SentryHttpTransport} (h : s.cycles = []) :
    s.onDisk = s.fileManager.envelopes.flatMap NamedFile.items := by
  unfold onDisk isLeaving
  rw [h]
  exact congrArg (List.flatMap NamedFile.items) (List.filter_eq_self.mpr fun _ _ => rfl)

theorem getOldestEnvelope_spec {fileManager : SentryFileManager} {path : JsonName}
    {contents : Option (List EnvelopeItem)}
    (h : fileManager.getOldestEnvelope = some (path, contents)) :
    ∃ file ∈ fileManager.envelopes, file.name = path ∧ file.items = contents.getD [] := by
  obtain ⟨file, hfile, hcontents⟩ := Option.bind_eq_some_iff.mp h
  obtain ⟨read, hread, heq⟩ := Option.map_eq_some_iff.mp hcontents
  cases heq
  refine ⟨file, List.mem_of_mem_head? hfile, rfl, ?_⟩
  unfold NamedFile.items
  rw [hread]
  rfl

/-! A cycle goes on. -/

/-- Where the items are that a cycle can move. -/
def placed (s : SentryHttpTransport) (cycle : SendCycle) : List EnvelopeItem :=
  s.notStoredEnvelopes.flatten ++ cycle.inMemory ++ keptItems s.fileManager cycle ++
    s.delivered ++ s.lost

section Advance
variable {s s' : SentryHttpTransport} {cycle cycle' : SendCycle}

theorem accounted_single (h : s.cycles = [cycle]) {item : EnvelopeItem} :
    s.waiting.count item + s.inMemory.count item + s.onDisk.count item +
      s.delivered.count item + s.lost.count item =
        s.waiting.count item + (s.placed cycle).count item := by
  unfold placed
  rw [onDisk_single h, inMemory, h]
  simp only [List.count_append, List.flatMap_singleton]
  omega

theorem Inv.advance (inv : s.Inv) (controlled : s'.Controlled) (h : s.cycles = [cycle])
    (h' : s'.cycles = [cycle']) (accepted : s'.accepted = s.accepted)
    (storeBlocks : s'.storeBlocks = s.storeBlocks) (there : FileThere s'.fileManager cycle')
    (count : ∀ item, isClientReport item = false →
      (s'.placed cycle').count item = (s.placed cycle).count item) : s'.Inv where
  controlled := controlled
  accounted := by
    intro item hitem
    have hbefore := inv.accounted item hitem
    rw [accounted_single h] at hbefore
    rw [accounted_single h', accepted, hbefore, count item hitem, waiting, waiting, storeBlocks]
  fileThere := by
    rw [h', List.forall_mem_singleton]
    exact there

theorem Inv.single (inv : s.Inv) (h : s.cycles = [cycle]) : FileThere s.fileManager cycle := by
  have hthere := inv.fileThere
  rw [h, List.forall_mem_singleton] at hthere
  exact hthere

end Advance

section Cycle
variable {json : JSON} {s s' : SentryHttpTransport} {envelope : List EnvelopeItem}
  {envelopePath : Option JsonName}

theorem goOn_cycles {cycle : SendCycle} (h : s.cycles = [cycle]) (cycle' : SendCycle) :
    (s.goOn 0 cycle').cycles = [cycle'] := by
  simp [goOn, h]

theorem fileThere_of_no_path {cycle : SendCycle} (h : cycle.envelopePath = none) :
    FileThere s.fileManager cycle := by
  intro path hpath
  rw [h] at hpath
  cases hpath

theorem Inv.takeNotStoredEnvelope (inv : s.Inv) (h : s.cycles = [.takeNotStoredEnvelope]) :
    (s.takeNotStoredEnvelope 0).Inv := by
  have controlled := (takeNotStoredEnvelope_sameControl s 0).controlled inv.controlled
  unfold SentryHttpTransport.takeNotStoredEnvelope at controlled ⊢
  cases hstored : s.notStoredEnvelopes with
  | nil =>
    rw [hstored] at controlled
    exact inv.advance controlled h (goOn_cycles h _) rfl rfl (fileThere_of_no_path rfl)
      fun item _ => rfl
  | cons envelope rest =>
    rw [hstored] at controlled
    refine inv.advance controlled h (goOn_cycles h _) rfl rfl
      (fun path hpath => nomatch hpath) fun item _ => ?_
    unfold placed goOn
    rw [hstored, keptItems_of_leaving_none _ rfl, keptItems_of_leaving_none _ rfl]
    simp only [List.count_append, List.flatten_cons, SendCycle.inMemory, SendCycle.envelopePath,
      SendCycle.envelope, Option.isNone_none, if_true, List.count_nil]
    omega

theorem Inv.readOldestEnvelope (inv : s.Inv) (h : s.cycles = [.getOldestEnvelope]) :
    (s.readOldestEnvelope 0).Inv := by
  have controlled := (readOldestEnvelope_sameControl s 0).controlled inv.controlled
  unfold SentryHttpTransport.readOldestEnvelope at controlled ⊢
  cases holdest : s.fileManager.getOldestEnvelope with
  | none =>
    rw [holdest] at controlled
    exact inv.advance controlled h (goOn_cycles h _) rfl rfl (fileThere_of_no_path rfl)
      fun item _ => rfl
  | some oldest =>
    obtain ⟨path, contents⟩ := oldest
    obtain ⟨file, hfile, rfl, hitems⟩ := getOldestEnvelope_spec holdest
    rw [holdest] at controlled
    cases contents with
    | none =>
      refine inv.advance controlled h (goOn_cycles h _) rfl rfl ?_ fun item _ => ?_
      · intro path hpath
        cases hpath
        exact ⟨file, hfile, rfl, fun hleaving => nomatch hleaving⟩
      · have hkept := count_keptItems hfile item
        rw [hitems] at hkept
        unfold placed goOn
        rw [keptItems_of_leaving_none s.fileManager
          (show SendCycle.leaving .getOldestEnvelope = none from rfl)]
        simp [SendCycle.inMemory, SendCycle.envelopePath, SendCycle.envelope] at hkept ⊢
        omega
    | some envelope =>
      refine inv.advance controlled h (goOn_cycles h _) rfl rfl ?_ fun item _ => ?_
      · intro path hpath
        cases hpath
        exact ⟨file, hfile, rfl, fun _ item _ => congrArg (List.count item) hitems⟩
      · rfl

theorem inMemory_removeFileAtPath (envelopePath : Option JsonName) :
    (SendCycle.removeFileAtPath envelopePath).inMemory = [] := by
  cases envelopePath with
  | none => rfl
  | some path => rfl

/-- What a cycle has read leaves its place when the file is to be removed. -/
theorem count_placed (cycle : SendCycle) (there : FileThere s.fileManager cycle)
    (leaving : cycle.leaving = none) {item : EnvelopeItem} (hitem : isClientReport item = false) :
    (s.placed cycle).count item = cycle.envelope.count item +
      (s.placed (.removeFileAtPath cycle.envelopePath)).count item := by
  unfold placed
  rw [keptItems_of_leaving_none _ leaving, inMemory_removeFileAtPath]
  cases hpath : cycle.envelopePath with
  | none =>
    have hmemory : cycle.inMemory = cycle.envelope := by
      rw [SendCycle.inMemory, hpath, Option.isNone_none, if_pos rfl]
    rw [keptItems_of_leaving_none _ rfl, hmemory]
    simp only [List.count_append, List.count_nil]
    omega
  | some path =>
    have hmemory : cycle.inMemory = [] := by
      rw [SendCycle.inMemory, hpath]
      rfl
    obtain ⟨file, hfile, rfl, hitems⟩ := there path hpath
    have hkept := count_keptItems hfile item
    rw [hitems leaving item hitem] at hkept
    rw [hmemory]
    simp only [List.count_append, List.count_nil]
    omega

theorem count_placed_recorded (s : SentryHttpTransport) (items : List EnvelopeItem)
    (discardedEvents : DiscardedEvents) (cycle : SendCycle) (item : EnvelopeItem) :
    ((s.recorded true items discardedEvents).placed cycle).count item =
      (s.placed cycle).count item + items.count item := by
  rw [← List.count_append]
  exact congrArg (List.count item) (List.append_assoc _ _ _).symm

theorem fileThere_removeFileAtPath (cycle : SendCycle) (there : FileThere s.fileManager cycle) :
    FileThere s.fileManager (.removeFileAtPath cycle.envelopePath) := by
  intro path hpath
  obtain ⟨file, hfile, rfl, hitems⟩ := there path hpath
  refine ⟨file, hfile, rfl, fun hleaving => ?_⟩
  have hnone : cycle.envelopePath = none := hleaving
  rw [hnone] at hpath
  cases hpath

theorem Inv.limitEnvelope (inv : s.Inv) (h : s.cycles = [.removeRateLimitedItems envelope envelopePath])
    {isRateLimitActive : SentryDataCategory → Bool}
    (orderly : envelopePath.isSome → itemsToSend isRateLimitActive envelope = [] ∨
      withoutClientReports (itemsToDrop isRateLimitActive envelope) = [])
    (hstep : s.limitEnvelope json true 0 isRateLimitActive envelope envelopePath = some s') :
    s'.Inv := by
  have controlled := (limitEnvelope_sameControl hstep).controlled inv.controlled
  have there := inv.single h
  obtain ⟨events, rfl⟩ := limitEnvelope_spec hstep
  have hcount := fun item => count_itemsToSend isRateLimitActive envelope item
  cases hsend : (itemsToSend isRateLimitActive envelope).isEmpty with
  | true =>
    rw [hsend] at controlled
    refine inv.advance controlled h (goOn_cycles h _) rfl rfl
      (fileThere_removeFileAtPath _ there) fun item hitem => ?_
    have hitems := hcount item
    rw [List.isEmpty_iff.mp hsend, List.count_nil, Nat.add_zero] at hitems
    rw [count_placed _ there rfl hitem, Nat.add_comm]
    refine (count_placed_recorded s _ events _ item).trans ?_
    rw [← hitems]
    rfl
  | false =>
    rw [hsend] at controlled
    rw [if_neg Bool.false_ne_true] at controlled ⊢
    have hnone : ∀ item, isClientReport item = false → envelopePath.isSome →
        (itemsToDrop isRateLimitActive envelope).count item = 0 := by
      intro item hitem hpath
      rcases orderly hpath with hnil | hnil
      · rw [hnil] at hsend
        cases hsend
      · rw [← count_withoutClientReports hitem, hnil, List.count_nil]
    refine inv.advance controlled h (goOn_cycles h _) rfl rfl ?_ fun item hitem => ?_
    · intro path hpath
      obtain ⟨file, hfile, hname, hitems⟩ := there path hpath
      refine ⟨file, hfile, hname, fun _ item hitem => (hitems rfl item hitem).trans ?_⟩
      have hdropped := hnone item hitem (Option.isSome_of_mem hpath)
      have hsplit := hcount item
      rw [hdropped, Nat.zero_add] at hsplit
      exact hsplit
    · refine (count_placed_recorded s _ events _ item).trans ?_
      have hsplit := hcount item
      unfold placed
      rw [keptItems_of_leaving_none _ rfl, keptItems_of_leaving_none _ rfl]
      cases envelopePath with
      | none =>
        simp only [List.count_append, SendCycle.inMemory, SendCycle.envelopePath,
          SendCycle.envelope, Option.isNone_none, if_true]
        omega
      | some path =>
        rw [hnone item hitem rfl]
        rfl

theorem Inv.createEnvelopeRequest (inv : s.Inv)
    (h : s.cycles = [.createEnvelopeRequest envelope envelopePath]) {built : Bool}
    (hstep : s.createEnvelopeRequest json true 0 built envelope envelopePath = some s') :
    s'.Inv := by
  have controlled := (createEnvelopeRequest_sameControl hstep).controlled inv.controlled
  have there := inv.single h
  rcases createEnvelopeRequest_spec hstep with ⟨-, rfl⟩ | ⟨events, rfl⟩
  · exact inv.advance controlled h (goOn_cycles h _) rfl rfl there fun item _ => rfl
  · refine inv.advance controlled h (goOn_cycles h _) rfl rfl
      (fileThere_removeFileAtPath _ there) fun item hitem => ?_
    rw [count_placed _ there rfl hitem, Nat.add_comm]
    refine (count_placed_recorded s _ events _ item).trans ?_
    rw [count_withoutClientReports hitem]
    rfl

/-- The cycle ends without a response: what it has in memory has to be recorded. -/
theorem count_placed_finishedSending (item : EnvelopeItem) :
    (s.placed (.completionHandler envelope envelopePath)).count item =
      (SendCycle.completionHandler envelope envelopePath).inMemory.count item +
        (s.placed .finishedSending).count item := by
  unfold placed
  rw [keptItems_of_leaving_none _ rfl, keptItems_of_leaving_none _ rfl]
  have hnone : SendCycle.finishedSending.inMemory = [] := rfl
  rw [hnone]
  simp only [List.count_append, List.count_nil]
  omega

theorem Inv.completionHandler (inv : s.Inv)
    (h : s.cycles = [.completionHandler envelope envelopePath]) {response : Option Nat}
    {error : Bool}
    (orderly : response = none → withoutClientReports envelope = [] ∨ error = envelopePath.isNone)
    (hstep : s.completionHandler json true 0 response error envelope envelopePath = some s') :
    s'.Inv := by
  have controlled := (completionHandler_sameControl hstep).controlled inv.controlled
  have there := inv.single h
  cases response with
  | some statusCode =>
    rcases completionHandler_spec hstep with ⟨-, events, rfl⟩ | ⟨-, rfl⟩
    · refine inv.advance controlled h (goOn_cycles h _) rfl rfl
        (fileThere_removeFileAtPath _ there) fun item hitem => ?_
      rw [count_placed _ there rfl hitem, Nat.add_comm]
      refine (count_placed_recorded s _ events _ item).trans ?_
      rw [count_withoutClientReports hitem]
      rfl
    · refine inv.advance controlled h (goOn_cycles h _) rfl rfl
        (fileThere_removeFileAtPath _ there) fun item hitem => ?_
      have hafter : afterResponse (some statusCode) envelopePath =
          .removeFileAtPath envelopePath := rfl
      rw [count_placed _ there rfl hitem, hafter]
      unfold placed goOn
      simp only [List.count_append, Option.isSome_some, if_true, SendCycle.envelope,
        SendCycle.envelopePath]
      omega
  | none =>
    have hmemory : ∀ item, isClientReport item = false →
        (SendCycle.completionHandler envelope envelopePath).inMemory.count item =
          if error then envelope.count item else 0 := by
      intro item hitem
      rcases orderly rfl with hnil | rfl
      · have hzero : envelope.count item = 0 := by
          rw [← count_withoutClientReports hitem, hnil, List.count_nil]
        cases envelopePath with
        | none =>
          change envelope.count item = _
          rw [hzero, ite_self]
        | some path =>
          change ([] : List EnvelopeItem).count item = _
          rw [hzero, ite_self, List.count_nil]
      · cases envelopePath with
        | none => rfl
        | some path => rfl
    rcases completionHandler_spec hstep with ⟨hlost, events, rfl⟩ | ⟨hlost, rfl⟩
    · have herror : error = true := by simpa [isLost] using hlost
      refine inv.advance controlled h (goOn_cycles h _) rfl rfl (fileThere_of_no_path rfl)
        fun item hitem => ?_
      rw [count_placed_finishedSending, hmemory item hitem, herror, if_pos rfl, Nat.add_comm]
      refine (count_placed_recorded s _ events _ item).trans ?_
      rw [count_withoutClientReports hitem]
      rfl
    · have herror : error = false := by simpa [isLost] using hlost
      refine inv.advance controlled h (goOn_cycles h _) rfl rfl (fileThere_of_no_path rfl)
        fun item hitem => ?_
      rw [count_placed_finishedSending, hmemory item hitem, herror]
      unfold placed goOn
      simp [afterResponse]

theorem Inv.removeEnvelopeFile (inv : s.Inv) (h : s.cycles = [.removeFileAtPath envelopePath]) :
    (s.removeEnvelopeFile 0 envelopePath).Inv := by
  have controlled := (removeEnvelopeFile_sameControl s 0 envelopePath).controlled inv.controlled
  refine inv.advance controlled h (goOn_cycles h _) rfl rfl (fileThere_of_no_path rfl)
    fun item _ => ?_
  have hmemory : SendCycle.clearIsSending.inMemory = [] := rfl
  unfold placed
  rw [inMemory_removeFileAtPath, hmemory]
  cases envelopePath with
  | none => rfl
  | some path =>
    change (_ ++ _ ++ keptItems (s.fileManager.removeFileAtPath path) .clearIsSending ++ _ ++
      _).count item = _
    rw [keptItems_removeFileAtPath]
    rfl

/-- The end of a cycle that holds nothing. -/
theorem Inv.finish {cycle : SendCycle} (inv : s.Inv) (h : s.cycles = [cycle])
    (hmemory : cycle.inMemory = []) (hleaving : cycle.leaving = none) (controlled : s'.Controlled)
    (h' : s'.cycles = []) (haccepted : s'.accepted = s.accepted)
    (hplaces : s'.waiting = s.waiting ∧ s'.notStoredEnvelopes = s.notStoredEnvelopes ∧
      s'.fileManager = s.fileManager ∧ s'.delivered = s.delivered ∧ s'.lost = s.lost) :
    s'.Inv where
  controlled := controlled
  accounted := by
    intro item hitem
    obtain ⟨hwaiting, hstored, hfiles, hdelivered, hlost⟩ := hplaces
    have hbefore := inv.accounted item hitem
    rw [onDisk_single h, keptItems_of_leaving_none _ hleaving, inMemory, h,
      List.flatMap_singleton, hmemory] at hbefore
    rw [onDisk_nil h', inMemory, h', haccepted, hwaiting, hstored, hfiles, hdelivered, hlost]
    exact hbefore
  fileThere := by
    rw [h']
    exact fun _ hcycle => nomatch hcycle

theorem Inv.clearIsSending (inv : s.Inv) (h : s.cycles = [.clearIsSending]) :
    (s.clearIsSending 0).Inv := by
  have hcycle : s.cycles[0]? = some .clearIsSending := by
    rw [h]
    rfl
  refine inv.finish h rfl rfl (inv.controlled.clearIsSending hcycle) ?_ rfl
    ⟨rfl, rfl, rfl, rfl, rfl⟩
  change s.cycles.eraseIdx 0 = []
  rw [h]
  rfl

theorem Inv.finishedSending (inv : s.Inv) (h : s.cycles = [.finishedSending]) :
    (s.finishedSending 0).Inv := by
  have hcycle : s.cycles[0]? = some .finishedSending := by
    rw [h]
    rfl
  have herase : s.cycles.eraseIdx 0 = [] := by
    rw [h]
    rfl
  have controlled := inv.controlled.finishedSending hcycle
  unfold SentryHttpTransport.finishedSending at controlled ⊢
  dsimp only at controlled ⊢
  cases hflushing : s.isFlushing with
  | false =>
    rw [hflushing] at controlled
    exact inv.finish h rfl rfl controlled herase rfl ⟨rfl, rfl, rfl, rfl, rfl⟩
  | true =>
    rw [hflushing] at controlled
    exact inv.finish h rfl rfl controlled herase rfl ⟨rfl, rfl, rfl, rfl, rfl⟩

end Cycle

/-! The other threads. -/

section Threads
variable {json : JSON} {s s' : SentryHttpTransport}

theorem Inv.sendEnvelope (inv : s.Inv) {isRateLimitActive : SentryDataCategory → Bool}
    {timestamp : NSDate} {items : List EnvelopeItem}
    (hstep : s.sendEnvelope json true isRateLimitActive timestamp items = some s') : s'.Inv := by
  have controlled := (sendEnvelope_sameControl hstep).controlled inv.controlled
  obtain ⟨events, stored, rfl, hstored⟩ := sendEnvelope_spec hstep
  refine ⟨controlled, fun item hitem => ?_, inv.fileThere⟩
  have hbefore := inv.accounted item hitem
  have hsplit := count_itemsToSend isRateLimitActive items item
  have hblocks : stored.flatten.count item =
      (itemsToSend isRateLimitActive items).count item := by
    rw [← count_withoutClientReports hitem, hstored, count_withoutClientReports hitem]
  change (s.accepted ++ items).count item = (s.storeBlocks ++ stored).flatten.count item +
    s.inMemory.count item + s.onDisk.count item + s.delivered.count item +
      (s.lost ++ itemsToDrop isRateLimitActive items).count item
  rw [List.flatten_append, List.count_append, List.count_append, List.count_append, hblocks]
  unfold waiting at hbefore
  omega

/-- An envelope that could not be stored is kept in memory. -/
theorem Accounted.notStored (accounted : s.Accounted) {i : Nat} {envelope : List EnvelopeItem}
    (hblock : s.storeBlocks[i]? = some envelope) :
    Accounted { s with
      storeBlocks := s.storeBlocks.eraseIdx i
      notStoredEnvelopes := s.notStoredEnvelopes ++ [envelope] } := by
  intro item hitem
  have hbefore := accounted item hitem
  have hblocks := count_eraseIdx hblock item
  change _ = (s.storeBlocks.eraseIdx i).flatten.count item +
    ((s.notStoredEnvelopes ++ [envelope]).flatten ++ s.cycles.flatMap SendCycle.inMemory).count item +
      s.onDisk.count item + s.delivered.count item + s.lost.count item
  rw [List.flatten_append, List.flatten_singleton]
  unfold waiting inMemory at hbefore
  simp only [List.count_append] at hbefore ⊢
  omega

theorem mem_envelopePath_of_leaving {cycle : SendCycle} {path : JsonName}
    (h : cycle.leaving = some path) : path ∈ cycle.envelopePath := by
  cases cycle with
  | removeFileAtPath envelopePath => exact h
  | _ => cases h

section Stored
variable {envelope : List EnvelopeItem} {call : StoreCall}

/-- The files that have to go stay in use by no cycle, so none of them is on its way already. -/
theorem not_isLeaving_of_removed (stores : s.StoresAll envelope call) {file : NamedFile}
    (hfile : file ∈ (s.fileManager.filesWithNew call).take (s.fileManager.removed call)) :
    s.isLeaving file = false := by
  unfold isLeaving
  rw [List.any_eq_false]
  intro cycle hcycle hleaving
  exact stores.sending cycle hcycle file.name
    (mem_envelopePath_of_leaving (of_decide_eq_true hleaving)) (List.mem_map_of_mem hfile)

theorem not_isLeaving_newFile (inv : s.Inv) (stores : s.StoresAll envelope call) :
    s.isLeaving (s.fileManager.newFile call) = false := by
  unfold isLeaving
  rw [List.any_eq_false]
  intro cycle hcycle hleaving
  obtain ⟨file, hfile, hname, -⟩ := inv.fileThere cycle hcycle _
    (mem_envelopePath_of_leaving (of_decide_eq_true hleaving))
  exact stores.name (List.mem_map.mpr ⟨file, hfile, hname⟩)

theorem count_stored (inv : s.Inv) (stores : s.StoresAll envelope call)
    (hwritten : call.written = true) (item : EnvelopeItem) :
    envelope.count item + s.onDisk.count item =
      (((s.fileManager.storeEnvelope call).manager.envelopes.filter
          fun file => !s.isLeaving file).flatMap NamedFile.items).count item +
        ((s.fileManager.storeEnvelope call).turns.flatMap Turn.deleted).count item := by
  rw [s.fileManager.storeEnvelope_envelopes call hwritten stores.inits,
    s.fileManager.storeEnvelope_deleted call hwritten stores.inits]
  have hnew : (s.fileManager.newFile call).items = envelope := by
    change ((some call.contents).bind id).getD [] = envelope
    rw [stores.contents]
    rfl
  have hperm := ((s.fileManager.filesWithNew_perm call stores.name).filter
    fun file => !s.isLeaving file).flatMap_right NamedFile.items
  rw [List.filter_cons_of_pos (by rw [not_isLeaving_newFile inv stores]; rfl),
    List.flatMap_cons, hnew] at hperm
  have hsplit : (s.fileManager.filesWithNew call).filter (fun file => !s.isLeaving file) =
      (s.fileManager.filesWithNew call).take (s.fileManager.removed call) ++
        ((s.fileManager.filesWithNew call).drop (s.fileManager.removed call)).filter
          fun file => !s.isLeaving file := by
    conv_lhs => rw [← List.take_append_drop (s.fileManager.removed call)
      (s.fileManager.filesWithNew call)]
    rw [List.filter_append, List.filter_eq_self.mpr fun file hfile => by
      rw [not_isLeaving_of_removed stores hfile]
      rfl]
  have hcount := hperm.count_eq item
  rw [hsplit, List.flatMap_append, List.count_append, List.count_append] at hcount
  unfold onDisk
  omega

theorem fileThere_stored (inv : s.Inv) (stores : s.StoresAll envelope call)
    (hwritten : call.written = true) {cycle : SendCycle} (hcycle : cycle ∈ s.cycles) :
    FileThere (s.fileManager.storeEnvelope call).manager cycle := by
  intro path hpath
  obtain ⟨file, hfile, rfl, hitems⟩ := inv.fileThere cycle hcycle path hpath
  refine ⟨file, ?_, rfl, hitems⟩
  rw [s.fileManager.storeEnvelope_envelopes call hwritten stores.inits]
  have hmem : file ∈ s.fileManager.filesWithNew call :=
    (s.fileManager.filesWithNew_perm call stores.name).mem_iff.mpr (List.mem_cons_of_mem _ hfile)
  rw [← List.take_append_drop (s.fileManager.removed call) (s.fileManager.filesWithNew call),
    List.mem_append] at hmem
  rcases hmem with hgone | hkept
  · exact absurd (List.mem_map_of_mem hgone) (stores.sending cycle hcycle _ hpath)
  · exact hkept

end Stored

theorem notWritten_envelopes (fileManager : SentryFileManager) {call : StoreCall}
    (hwritten : call.written = false) :
    (fileManager.storeEnvelope call).manager.envelopes = fileManager.envelopes := by
  rw [SentryFileManager.storeEnvelope, if_neg (by rw [hwritten]; exact Bool.false_ne_true)]

theorem Inv.storeEnvelope (inv : s.Inv) {i : Nat} {envelope : List EnvelopeItem}
    {call : Option StoreCall} (hblock : s.storeBlocks[i]? = some envelope)
    (orderly : ∀ stored ∈ call, stored.written = true → s.StoresAll envelope stored)
    (hstep : s.storeEnvelope json true i envelope call = some s') : s'.Inv := by
  have controlled := (storeEnvelope_sameControl hstep).controlled inv.controlled
  have haccounted := inv.accounted.notStored hblock
  cases storeEnvelope_spec hstep with
  | notSerialized => exact ⟨controlled, haccounted, inv.fileThere⟩
  | notWritten call hwritten =>
    have hsame := notWritten_envelopes s.fileManager hwritten
    refine ⟨controlled, fun item hitem => ?_, fun cycle hcycle => ?_⟩
    · refine (haccounted item hitem).trans ?_
      unfold onDisk
      dsimp only
      rw [hsame]
      rfl
    · intro path hpath
      rw [hsame]
      exact inv.fileThere cycle hcycle path hpath
  | stored call events hwritten hreturned =>
    have stores := orderly call rfl hwritten
    refine ⟨controlled, fun item hitem => ?_, fun cycle hcycle =>
      fileThere_stored inv stores hwritten hcycle⟩
    have hbefore := inv.accounted item hitem
    have hblocks := count_eraseIdx hblock item
    have hstored := count_stored inv stores hwritten item
    change s.accepted.count item = (s.storeBlocks.eraseIdx i).flatten.count item +
      s.inMemory.count item + (((s.fileManager.storeEnvelope call).manager.envelopes.filter
        fun file => !s.isLeaving file).flatMap NamedFile.items).count item + s.delivered.count item +
          (s.lost ++ (s.fileManager.storeEnvelope call).turns.flatMap Turn.deleted).count item
    unfold waiting at hbefore
    rw [List.count_append]
    omega

theorem Inv.sendAllCachedEnvelopes (inv : s.Inv) (isReady : Bool) :
    (s.sendAllCachedEnvelopes isReady).Inv := by
  have controlled := inv.controlled.sendAllCachedEnvelopes isReady
  have hlength := inv.controlled.isSending
  unfold SentryHttpTransport.sendAllCachedEnvelopes at controlled ⊢
  cases hrefused : s.isSending || !isReady with
  | true => exact inv
  | false =>
    rw [hrefused] at controlled
    rw [if_neg Bool.false_ne_true] at controlled ⊢
    rw [Bool.or_eq_false_iff] at hrefused
    rw [hrefused.1] at hlength
    have hnone : s.cycles = [] := List.length_eq_zero_iff.mp hlength
    have hone : s.cycles ++ [SendCycle.takeNotStoredEnvelope] = [.takeNotStoredEnvelope] := by
      rw [hnone]
      rfl
    refine ⟨controlled, fun item hitem => ?_, ?_⟩
    · have hbefore := inv.accounted item hitem
      rw [onDisk_nil hnone, inMemory, hnone] at hbefore
      refine hbefore.trans ?_
      rw [accounted_single hone, placed, keptItems_of_leaving_none _ rfl]
      have hmemory : SendCycle.takeNotStoredEnvelope.inMemory = [] := rfl
      rw [hmemory]
      simp only [List.count_append, List.flatMap_nil, List.count_nil]
      change _ = s.waiting.count item + _
      omega
    · rw [hone, List.forall_mem_singleton]
      exact fileThere_of_no_path rfl

theorem Inv.flush (inv : s.Inv) : s.flush.Inv := by
  have controlled := inv.controlled.flush
  unfold SentryHttpTransport.flush at controlled ⊢
  cases hflushing : s.isFlushing with
  | true => exact inv
  | false =>
    rw [hflushing] at controlled
    exact ⟨controlled, inv.accounted, inv.fileThere⟩

theorem Inv.dispatchGroupWait (inv : s.Inv) {timedOut : Bool}
    (h : s.dispatchGroupWait timedOut = some s') : s'.Inv := by
  have controlled := inv.controlled.dispatchGroupWait h
  unfold SentryHttpTransport.dispatchGroupWait at h
  split at h
  · cases h
  · split at h
    · cases h
    · cases h
      exact ⟨controlled, inv.accounted, inv.fileThere⟩

theorem Inv.init (fileManager : SentryFileManager) : (init fileManager).Inv where
  controlled := Controlled.init fileManager
  accounted := by
    intro item _
    rw [onDisk_nil rfl]
    simp [SentryHttpTransport.init, waiting, inMemory]
  fileThere := fun _ hcycle => nomatch hcycle

theorem Inv.step (inv : s.Inv) {call : Call} (orderly : s.Orderly call)
    (h : s.step json true call = some s') : s'.Inv := by
  cases call with
  | sendEnvelope isRateLimitActive timestamp items => exact inv.sendEnvelope h
  | storeEnvelope i call =>
    obtain ⟨envelope, hblock, h⟩ := Option.bind_eq_some_iff.mp h
    refine inv.storeEnvelope hblock (fun stored hstored hwritten => ?_) h
    cases hstored
    exact orderly hwritten envelope hblock
  | sendAllCachedEnvelopes isReady =>
    cases h
    exact inv.sendAllCachedEnvelopes isReady
  | flush =>
    cases h
    exact inv.flush
  | dispatchGroupWait timedOut => exact inv.dispatchGroupWait h
  | goOn i =>
    dsimp only [SentryHttpTransport.step] at h
    split at h
    · obtain ⟨-, rfl, hcycles⟩ := inv.controlled.cycles_eq ‹_›
      cases h
      exact inv.takeNotStoredEnvelope hcycles
    · obtain ⟨-, rfl, hcycles⟩ := inv.controlled.cycles_eq ‹_›
      cases h
      exact inv.readOldestEnvelope hcycles
    · obtain ⟨-, rfl, hcycles⟩ := inv.controlled.cycles_eq ‹_›
      cases h
      exact inv.removeEnvelopeFile hcycles
    · obtain ⟨-, rfl, hcycles⟩ := inv.controlled.cycles_eq ‹_›
      cases h
      exact inv.clearIsSending hcycles
    · obtain ⟨-, rfl, hcycles⟩ := inv.controlled.cycles_eq ‹_›
      cases h
      exact inv.finishedSending hcycles
    · cases h
  | removeRateLimitedItems i isRateLimitActive =>
    dsimp only [SentryHttpTransport.step] at h
    split at h
    · rename_i envelope envelopeFilePath hcycle
      obtain ⟨-, rfl, hcycles⟩ := inv.controlled.cycles_eq hcycle
      exact inv.limitEnvelope hcycles (orderly _ hcycle) h
    · cases h
  | createEnvelopeRequest i built =>
    dsimp only [SentryHttpTransport.step] at h
    split at h
    · obtain ⟨-, rfl, hcycles⟩ := inv.controlled.cycles_eq ‹_›
      exact inv.createEnvelopeRequest hcycles h
    · cases h
  | completionHandler i response error =>
    dsimp only [SentryHttpTransport.step] at h
    split at h
    · rename_i envelope envelopePath hcycle
      obtain ⟨-, rfl, hcycles⟩ := inv.controlled.cycles_eq hcycle
      refine inv.completionHandler hcycles (fun hnone => ?_) h
      rw [hnone] at orderly
      exact orderly _ hcycle
    · cases h

end Threads

/-- In a run whose calls all meet the condition no item is lost sight of or is in two places. -/
theorem always_accounted_of_orderly (json : JSON) (fileManager : SentryFileManager)
    (calls : List Call) (orderly : Allowed (step json true) Orderly (init fileManager) calls) :
    Always (step json true) Accounted (init fileManager) calls :=
  always_of_allowed (fun _ inv => inv.accounted) (fun _ _ _ inv hok h => inv.step hok h)
    (Inv.init fileManager) orderly

/-- An event is accepted, stored and sent. -/
def exampleCalls (response : Option Nat) (error : Bool) : List Call :=
  [.sendEnvelope (fun _ => false) ⟨0⟩ [.other .event []],
    .storeEnvelope 0 (some (exampleCall 0 [.other .event []])), .sendAllCachedEnvelopes true,
    .goOn 0, .goOn 0, .removeRateLimitedItems 0 fun _ => false, .createEnvelopeRequest 0 true,
    .completionHandler 0 response error]

theorem always_accounted_of_orderly_example :
    Always (step exampleJSON true) Accounted (init (emptyManager 30))
      (exampleCalls (some 200) false) := by
  have hremoved : (emptyManager 30).removed (exampleCall 0 [.other .event []]) = 0 := by
    decide +kernel
  apply always_accounted_of_orderly
  intro s hs
  cases hs
  refine ⟨trivial, fun s hs => ?_⟩
  cases hs
  refine ⟨fun _ envelope henvelope => ?_, fun s hs => ?_⟩
  · cases henvelope
    refine ⟨nofun, rfl, ?_, nofun⟩
    change NoneHandedOn ((emptyManager 30).removed (exampleCall 0 [.other .event []])) _
    rw [hremoved]
    trivial
  cases hs
  refine ⟨trivial, fun s hs => ?_⟩
  cases hs
  refine ⟨trivial, fun s hs => ?_⟩
  cases hs
  refine ⟨trivial, fun s hs => ?_⟩
  cases hs
  refine ⟨fun cycle hcycle _ => ?_, fun s hs => ?_⟩
  · cases hcycle
    exact Or.inr rfl
  cases hs
  exact ⟨trivial, fun s hs => ⟨trivial, trivial⟩⟩

/-- The item of a request that failed is recorded as lost, and its file stays. -/
theorem failed_request_counts_twice :
    ¬ ∀ calls, Always (step exampleJSON true) Accounted (init (emptyManager 30)) calls := by
  intro h
  have hrun : (exec (step exampleJSON true) (init (emptyManager 30))
      (exampleCalls none true)).map (fun s => (s.accepted.count (.other .event []),
        s.onDisk.count (.other .event []), s.lost.count (.other .event []))) =
      some (1, 1, 1) := by
    decide +kernel
  obtain ⟨s, hexec, hcounts⟩ := Option.map_eq_some_iff.mp hrun
  have haccounted := (h (exampleCalls none true)).exec hexec (.other .event []) rfl
  simp only [Prod.mk.injEq] at hcounts
  omega

end SentryHttpTransport

end SentryCocoa.HttpTransport
