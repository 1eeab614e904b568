import SentryCocoa.FileManager

/-! When the oldest envelopes are removed, the init flag of a session moves on to its
next update. A removal hands on the flag of one session only, and the file that
takes it loses its other session items. -/
namespace SentryCocoa.FileManager
open SentryCocoa.Foundation SentryCocoa.Session SentryCocoa.DataCategory

/-! The removal of the first file, without the paths. -/

def EnvelopeFile.takeFlag (file : EnvelopeFile) (localSession : SentrySession) : EnvelopeFile :=
  { file with
    contents := some (some (replaceSessionEnvelopeItem localSession.setFlagInit file.items)) }

/-- The first file with an update of the session takes the flag. -/
def receive (sessionId : NSUUID) : Folder → Option Folder
  | [] => none
  | file :: rest =>
    match sessionWithId sessionId file.items with
    | some localSession => some (file.takeFlag localSession :: rest)
    | none => (receive sessionId rest).map (file :: ·)

def handOn (rest : Folder) (items : List EnvelopeItem) : Option Folder :=
  items.findSome? fun item => item.sessionWithData.bind fun session =>
    if flagInitValue session then receive session.sessionId rest else none

def removeOldest : Folder → Folder × List EnvelopeItem
  | [] => ([], [])
  | file :: rest =>
    ((handOn rest file.items).getD rest, file.items.filter fun item =>
      !((handOn rest file.items).isSome && sentryDataCategoryForEnvelopItemType item == .session))

def removeFiles : Nat → Folder → Folder × List EnvelopeItem
  | 0, folder => (folder, [])
  | n + 1, folder =>
    let removed := removeOldest folder
    let others := removeFiles n removed.1
    (others.1, removed.2 ++ others.2)

theorem receive_paths {sessionId : NSUUID} {folder folder' : Folder}
    (h : receive sessionId folder = some folder') :
    folder'.map EnvelopeFile.path = folder.map EnvelopeFile.path := by
  induction folder generalizing folder' with
  | nil => cases h
  | cons file rest ih =>
    unfold receive at h
    split at h
    · cases h
      rfl
    · obtain ⟨rest', hrest, rfl⟩ := Option.map_eq_some_iff.mp h
      rw [List.map_cons, List.map_cons, ih hrest]

theorem handOn_paths {rest rest' : Folder} {items : List EnvelopeItem}
    (h : handOn rest items = some rest') :
    rest'.map EnvelopeFile.path = rest.map EnvelopeFile.path := by
  obtain ⟨item, -, hitem⟩ := List.exists_of_findSome?_eq_some h
  obtain ⟨session, -, hsession⟩ := Option.bind_eq_some_iff.mp hitem
  split at hsession
  · exact receive_paths hsession
  · cases hsession

section Paths
variable {before later : Folder} {file : EnvelopeFile}

theorem other_paths (nodup : ((before ++ file :: later).map EnvelopeFile.path).Nodup) :
    (∀ f ∈ before, f.path ≠ file.path) ∧ ∀ f ∈ later, f.path ≠ file.path := by
  rw [List.map_append, List.nodup_append, List.map_cons, List.nodup_cons] at nodup
  obtain ⟨-, ⟨hlater, -⟩, hbefore⟩ := nodup
  constructor
  · intro f hf
    exact hbefore f.path (List.mem_map_of_mem hf) file.path List.mem_cons_self
  · intro f hf heq
    exact hlater (heq ▸ List.mem_map_of_mem hf)

variable (before) in
theorem contentsAtPath_append
    (nodup : ((before ++ file :: later).map EnvelopeFile.path).Nodup) :
    Folder.contentsAtPath (before ++ file :: later) file.path = file.contents := by
  have hbefore : before.find? (fun f => f.path = file.path) = none := by
    rw [List.find?_eq_none]
    intro f hf heq
    exact (other_paths nodup).1 f hf (of_decide_eq_true heq)
  unfold Folder.contentsAtPath
  rw [List.find?_append, hbefore, Option.none_or, List.find?_cons_of_pos (by simp)]
  rfl

theorem contentsAtPath_absent {folder : Folder} {path : Nat}
    (h : path ∉ folder.map EnvelopeFile.path) : folder.contentsAtPath path = none := by
  unfold Folder.contentsAtPath
  rw [List.find?_eq_none.mpr, Option.bind_none]
  intro f hf heq
  exact h (of_decide_eq_true heq ▸ List.mem_map_of_mem hf)

theorem writeToFile_append (nodup : ((before ++ file :: later).map EnvelopeFile.path).Nodup)
    (items : List EnvelopeItem) :
    Folder.writeToFile (before ++ file :: later) items file.path =
      before ++ { file with contents := some (some items) } :: later := by
  obtain ⟨hbefore, hlater⟩ := other_paths nodup
  have unchanged : ∀ files : Folder, (∀ f ∈ files, f.path ≠ file.path) →
      Folder.writeToFile files items file.path = files := by
    intro files hfiles
    unfold Folder.writeToFile
    rw [List.map_congr_left (fun f hf => if_neg (hfiles f hf)), List.map_id']
  have happend : Folder.writeToFile (before ++ file :: later) items file.path =
      Folder.writeToFile before items file.path ++ { file with contents := some (some items) } ::
        Folder.writeToFile later items file.path := by
    simp [Folder.writeToFile]
  rw [happend, unchanged before hbefore, unchanged later hlater]

theorem removeFileAtPath_cons {folder : Folder}
    (nodup : (file.path :: folder.map EnvelopeFile.path).Nodup) :
    Folder.removeFileAtPath (file :: folder) file.path = folder := by
  unfold Folder.removeFileAtPath
  rw [List.filter_cons_of_neg (by simp), List.filter_eq_self]
  intro f hf
  have hne : f.path ≠ file.path := fun heq =>
    (List.nodup_cons.mp nodup).1 (heq ▸ List.mem_map_of_mem hf)
  exact decide_eq_true hne

variable (before) in
/-- The search goes through the files behind the removed one. -/
theorem setInitFlagOnNext_eq (session : SentrySession)
    (nodup : ((before ++ later).map EnvelopeFile.path).Nodup) :
    setInitFlagOnNextEnvelopeWithSameSessionId (before ++ later) session
        (later.map EnvelopeFile.path) =
      (receive session.sessionId later).map (before ++ ·) := by
  induction later generalizing before with
  | nil => rfl
  | cons file later ih =>
    have hnext := ih (before ++ [file]) (by simpa using nodup)
    rw [List.append_assoc, List.singleton_append] at hnext
    have hskip : (receive session.sessionId later).map (before ++ [file] ++ ·) =
        ((receive session.sessionId later).map (file :: ·)).map (before ++ ·) := by
      rw [Option.map_map]
      congr 1
      funext rest
      simp
    rw [hskip] at hnext
    rw [List.map_cons]
    unfold setInitFlagOnNextEnvelopeWithSameSessionId receive
    rw [contentsAtPath_append before nodup, hnext]
    have hnone : file.items = [] → sessionWithId session.sessionId file.items = none := by
      intro hitems
      rw [hitems]
      rfl
    rcases hcontents : file.contents with _ | _ | items
    · rw [hnone (by rw [EnvelopeFile.items, hcontents]; rfl)]
    · rw [hnone (by rw [EnvelopeFile.items, hcontents]; rfl)]
    · have hitems : file.items = items := by
        rw [EnvelopeFile.items, hcontents]
        rfl
      rw [hitems]
      simp only [setInitFlagIfContainsSameSessionId]
      cases sessionWithId session.sessionId items with
      | none => simp only [Option.map_none, Option.none_or]
      | some localSession =>
        simp only [Option.map_some, Option.some_or, writeToFile_append nodup]
        rw [EnvelopeFile.takeFlag, hitems]

theorem setInitFlagOnNext_absent {folder : Folder} {session : SentrySession}
    {absent paths : List Nat}
    (h : ∀ path ∈ absent, path ∉ folder.map EnvelopeFile.path) :
    setInitFlagOnNextEnvelopeWithSameSessionId folder session (absent ++ paths) =
      setInitFlagOnNextEnvelopeWithSameSessionId folder session paths := by
  induction absent with
  | nil => rfl
  | cons path absent ih =>
    rw [List.cons_append]
    conv_lhs => unfold setInitFlagOnNextEnvelopeWithSameSessionId
    rw [contentsAtPath_absent (h path List.mem_cons_self)]
    exact ih fun path' hpath' => h path' (List.mem_cons_of_mem path hpath')

theorem migrateSessionInit_eq {absent : List Nat}
    (nodup : ((file :: later).map EnvelopeFile.path).Nodup)
    (h : ∀ path ∈ absent, path ∉ (file :: later).map EnvelopeFile.path)
    (items : List EnvelopeItem) :
    migrateSessionInit (file :: later) (absent ++ later.map EnvelopeFile.path) items =
      (handOn later items).map (file :: ·) := by
  have hsearch : ∀ session : SentrySession,
      setInitFlagOnNextEnvelopeWithSameSessionId (file :: later) session
          (absent ++ later.map EnvelopeFile.path) =
        (receive session.sessionId later).map (file :: ·) := by
    intro session
    rw [setInitFlagOnNext_absent h]
    exact setInitFlagOnNext_eq [file] session nodup
  induction items with
  | nil => rfl
  | cons item items ih =>
    unfold migrateSessionInit handOn
    rw [List.findSome?_cons]
    cases item.sessionWithData with
    | none => exact ih
    | some session =>
      rw [Option.bind_some]
      by_cases hflag : flagInitValue session
      · simp only [hflag, if_true, hsearch, ih]
        cases receive session.sessionId later <;> rfl
      · simp only [hflag]
        exact ih

end Paths

/-- One turn of the loop removes the first file that is left. -/
theorem removeEnvelope_eq {paths : List Nat} {folder : Folder} {i : Nat} (hi : i < paths.length)
    (hpaths : folder.map EnvelopeFile.path = paths.drop i) (nodup : paths.Nodup) :
    removeEnvelope paths folder i = removeOldest folder := by
  rw [List.drop_eq_getElem_cons hi] at hpaths
  obtain ⟨file, rest, rfl, hfile, hrest⟩ := List.map_eq_cons_iff.mp hpaths
  have hdrop : (file :: rest).map EnvelopeFile.path = paths.drop i := by
    rw [hpaths, List.drop_eq_getElem_cons hi]
  have hnodup : ((file :: rest).map EnvelopeFile.path).Nodup := by
    rw [hdrop]
    exact nodup.sublist (List.drop_sublist i paths)
  have habsent : ∀ path ∈ paths.take i, path ∉ (file :: rest).map EnvelopeFile.path := by
    rw [← List.take_append_drop i paths, List.nodup_append] at nodup
    intro path htake hmem
    exact nodup.2.2 path htake path (hdrop ▸ hmem) rfl
  have hmigrate := migrateSessionInit_eq hnodup habsent file.items
  have hcontents : Folder.contentsAtPath (file :: rest) file.path = file.contents :=
    contentsAtPath_append [] hnodup
  unfold removeEnvelope removeOldest
  rw [List.getElem?_eq_getElem hi, ← hfile, List.eraseIdx_eq_take_drop_succ, ← hrest]
  simp only [hcontents]
  rw [← EnvelopeFile.items, hmigrate]
  cases hhand : handOn rest file.items with
  | none =>
    simp only [Option.map_none, Option.getD_none, Option.isSome_none]
    rw [removeFileAtPath_cons hnodup]
  | some rest' =>
    simp only [Option.map_some, Option.getD_some, Option.isSome_some]
    rw [removeFileAtPath_cons]
    rw [handOn_paths hhand]
    exact hnodup

theorem removeOldest_paths (folder : Folder) :
    (removeOldest folder).1.map EnvelopeFile.path = (folder.map EnvelopeFile.path).tail := by
  cases folder with
  | nil => rfl
  | cons file rest =>
    change ((handOn rest file.items).getD rest).map EnvelopeFile.path = rest.map EnvelopeFile.path
    cases hhand : handOn rest file.items with
    | none => rfl
    | some rest' => exact handOn_paths hhand

theorem removeEnvelopes_eq {paths : List Nat} (nodup : paths.Nodup) (n : Nat) :
    ∀ (i : Nat) (folder : Folder) (deleted : List EnvelopeItem), i + n ≤ paths.length →
      folder.map EnvelopeFile.path = paths.drop i →
      (List.range' i n).foldl
          (fun (state : Folder × List EnvelopeItem) i =>
            let (folder, deleted) := removeEnvelope paths state.1 i
            (folder, state.2 ++ deleted))
          (folder, deleted) =
        ((removeFiles n folder).1, deleted ++ (removeFiles n folder).2) := by
  induction n with
  | zero =>
    intro i folder deleted _ _
    simp [removeFiles]
  | succ n ih =>
    intro i folder deleted hlength hpaths
    rw [List.range'_succ, List.foldl_cons, removeEnvelope_eq (by omega) hpaths nodup]
    rw [ih (i + 1) _ _ (by omega) (by rw [removeOldest_paths, hpaths, List.tail_drop])]
    simp only [removeFiles, List.append_assoc]

theorem handleEnvelopesLimit_eq {folder : Folder}
    (nodup : (folder.map EnvelopeFile.path).Nodup) (maxEnvelopes : Nat) :
    handleEnvelopesLimit folder maxEnvelopes =
      removeFiles (folder.length - maxEnvelopes) folder := by
  unfold handleEnvelopesLimit
  simp only [List.length_map, List.range_eq_range']
  rw [removeEnvelopes_eq nodup]
  · rw [List.nil_append]
  · rw [List.length_map]
    omega
  · rw [List.drop_zero]

end SentryCocoa.FileManager
