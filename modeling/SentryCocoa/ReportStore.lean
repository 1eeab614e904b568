import SentryCocoa.ReportNames
import Mathlib.Data.List.Sort
import Mathlib.Data.List.Perm.Subperm
import Mathlib.Order.RelClasses

/-! The directory of the crash reports. Beside the reports it has directories with their
attachments, and what else there is. -/
namespace SentryCocoa.ReportStore
open SentryCocoa.JSONCodec

structure DirEntry where
  name : Bytes
  isDirectory : Bool
  deriving DecidableEq, Repr

variable (appName : AppName)

/-- What `qsort` is given to compare with. The difference may overflow. -/
def compareInt64 (a b : Int64) : Int :=
  let diff := a - b
  if diff < 0 then -1 else if 0 < diff then 1 else 0

def qsort (reportIDs : List Int64) : List Int64 :=
  reportIDs.insertionSort fun a b => compareInt64 a b ≤ 0

def entryID (ent : DirEntry) : Int64 := getReportIDFromFilename appName ent.name

def getReportCount (entries : List DirEntry) : Nat :=
  entries.countP fun ent => !ent.isDirectory && 0 < entryID appName ent

/-- The ids that are read until the buffer is full. -/
def readReportIDs : List DirEntry → Nat → List Int64
  | [], _ => []
  | _, 0 => []
  | ent :: rest, room + 1 =>
    if 0 < entryID appName ent then entryID appName ent :: readReportIDs rest room
    else readReportIDs rest (room + 1)

/-- The buffer behind the call, and how many ids were read. The whole buffer is sorted. -/
def getReportIDs (entries : List DirEntry) (buffer : List Int64) : List Int64 × Nat :=
  let read := readReportIDs appName entries buffer.length
  (qsort (read ++ buffer.drop read.length), read.length)

def deleteReportWithID (entries : List DirEntry) (reportID : Int64) : List DirEntry :=
  entries.filter fun ent => ent.name ≠ reportFilename appName reportID

/-- The array on the stack has any contents at first. -/
def pruneReports (maxReportCount : Nat) (uninitialized : Nat → Int64)
    (entries : List DirEntry) : List DirEntry :=
  let reportCount := getReportCount appName entries
  if reportCount > maxReportCount then
    let reportIDs := getReportIDs appName entries ((List.range reportCount).map uninitialized)
    (reportIDs.1.take (reportIDs.2 - maxReportCount)).foldl (deleteReportWithID appName) entries
  else entries

/-! The reports. -/

/-- A report of this app is a file with the name that the store gives to its id. -/
def reportOf (ent : DirEntry) : Option Int64 :=
  if ent.isDirectory = false ∧ 0 < entryID appName ent ∧
      ent.name = reportFilename appName (entryID appName ent) then
    some (entryID appName ent)
  else none

def reports (entries : List DirEntry) : List Int64 := entries.filterMap (reportOf appName)

/-- The ids of the directories whose names are read like that of a report. -/
def directoryIDs (entries : List DirEntry) : List Int64 :=
  entries.filterMap fun ent =>
    if ent.isDirectory = true ∧ 0 < entryID appName ent then some (entryID appName ent) else none

/-- A folder does not have two entries of one name. -/
structure Directory where
  entries : List DirEntry
  names : (entries.map DirEntry.name).Nodup

/-- The listing has as many ids as fit, those of reports, in order and once each. -/
def Lists (entries : List DirEntry) (buffer : List Int64) : Prop :=
  let listed := getReportIDs appName entries buffer
  listed.2 = min buffer.length (reports appName entries).length ∧
    (listed.1.take listed.2).Pairwise (· < ·) ∧
      ∀ id ∈ listed.1.take listed.2, id ∈ reports appName entries

/-- The reports that are left are those with the largest ids. -/
def Prunes (entries : List DirEntry) (maxReportCount : Nat) (uninitialized : Nat → Int64) :
    Prop :=
  let left := reports appName (pruneReports appName maxReportCount uninitialized entries)
  left.length = min maxReportCount (reports appName entries).length ∧
    (∀ id ∈ left, id ∈ reports appName entries) ∧
      ∀ id ∈ reports appName entries, id ∉ left → ∀ id' ∈ left, id < id'

/-- In whichever order the directory is read, and whatever the buffer holds. -/
def Directory.Exact (directory : Directory) (capacity : Nat) : Prop :=
  ∀ entries, entries.Perm directory.entries →
    (∀ buffer, buffer.length = capacity → Lists appName entries buffer) ∧
      getReportCount appName entries = (reports appName entries).length ∧
        ∀ maxReportCount uninitialized, Prunes appName entries maxReportCount uninitialized

/-- No other file has a name that is read like that of a report. -/
def Directory.FilesAreReports (directory : Directory) : Prop :=
  ∀ ent ∈ directory.entries, ent.isDirectory = false → 0 < entryID appName ent →
    ent.name = reportFilename appName (entryID appName ent)

/-- The directory has no directories with ids, and the buffer is not too large. The other two
cases are a buffer for nothing, and one report with its own attachments. -/
def Directory.Clean (directory : Directory) (capacity : Nat) : Prop :=
  let ids := reports appName directory.entries
  let directories := directoryIDs appName directory.entries
  directory.FilesAreReports appName ∧
    ((directories = [] ∧ (capacity ≤ ids.length ∨ ids = [])) ∨ (capacity = 0 ∧ ids = []) ∨
      (capacity ≤ 1 ∧ ids.length = 1 ∧ ∀ id ∈ directories, id ∈ ids))

/-! Sorting. -/

theorem compareInt64_le_iff {a b : Int64} (ha : 0 ≤ a) (hb : 0 ≤ b) :
    compareInt64 a b ≤ 0 ↔ a.toInt ≤ b.toInt := by
  have ha' := Int64.le_iff_toInt_le.mp ha
  have hb' := Int64.le_iff_toInt_le.mp hb
  have ha'' := a.toInt_lt
  have hb'' := b.toInt_lt
  rw [Int64.toInt_zero] at ha' hb'
  have hdiff : (a - b).toInt = a.toInt - b.toInt := by
    rw [Int64.toInt_sub]
    exact Int.bmod_eq_of_le (by omega) (by omega)
  unfold compareInt64
  simp only [Int64.lt_iff_toInt_lt, hdiff, Int64.toInt_zero]
  split
  · constructor
    · omega
    · omega
  · split
    · constructor
      · omega
      · omega
    · constructor
      · omega
      · omega

theorem perm_qsort (ids : List Int64) : (qsort ids).Perm ids := List.perm_insertionSort _ ids

theorem pairwise_qsort {ids : List Int64} (h : ∀ id ∈ ids, 0 ≤ id) :
    (qsort ids).Pairwise fun a b => a.toInt ≤ b.toInt := by
  have hmap := List.map_insertionSort (fun a b => compareInt64 a b ≤ 0) (· ≤ ·) Int64.toInt ids
    fun a ha b hb => compareInt64_le_iff (h a ha) (h b hb)
  have hsorted := List.pairwise_insertionSort (· ≤ ·) (ids.map Int64.toInt)
  rw [← hmap] at hsorted
  exact List.pairwise_map.mp hsorted

theorem pairwise_lt_qsort {ids : List Int64} (h : ∀ id ∈ ids, 0 ≤ id) (hnodup : ids.Nodup) :
    (qsort ids).Pairwise (· < ·) := by
  have hne : (qsort ids).Pairwise (· ≠ ·) := (perm_qsort ids).nodup_iff.mpr hnodup
  refine ((pairwise_qsort h).and hne).imp ?_
  rintro a b ⟨hle, hne⟩
  have hne' := fun heq => hne (Int64.toInt_inj.mp heq)
  exact Int64.lt_iff_toInt_lt.mpr (lt_of_le_of_ne hle hne')

/-! Reading. -/

/-- The ids that the names of the entries have, as far as they are read. -/
def entryIDs (entries : List DirEntry) : List Int64 :=
  entries.filterMap fun ent =>
    if 0 < entryID appName ent then some (entryID appName ent) else none

theorem readReportIDs_eq (entries : List DirEntry) (room : Nat) :
    readReportIDs appName entries room = (entryIDs appName entries).take room := by
  unfold entryIDs
  induction entries generalizing room with
  | nil => simp [readReportIDs]
  | cons ent rest ih =>
    cases room with
    | zero => simp [readReportIDs]
    | succ room =>
      rw [readReportIDs]
      split
      · rename_i hid
        rw [List.filterMap_cons, if_pos hid, List.take_succ_cons, ih]
      · rename_i hid
        rw [List.filterMap_cons, if_neg hid, ih]

theorem mem_entryIDs {entries : List DirEntry} {id : Int64} :
    id ∈ entryIDs appName entries ↔ 0 < id ∧ ∃ ent ∈ entries, entryID appName ent = id := by
  unfold entryIDs
  rw [List.mem_filterMap]
  constructor
  · rintro ⟨ent, hent, hid⟩
    split at hid
    · rename_i hpositive
      cases hid
      exact ⟨hpositive, ent, hent, rfl⟩
    · cases hid
  · rintro ⟨hpositive, ent, hent, rfl⟩
    exact ⟨ent, hent, if_pos hpositive⟩

theorem mem_directoryIDs {entries : List DirEntry} {id : Int64} :
    id ∈ directoryIDs appName entries ↔
      0 < id ∧ ∃ ent ∈ entries, ent.isDirectory = true ∧ entryID appName ent = id := by
  unfold directoryIDs
  rw [List.mem_filterMap]
  constructor
  · rintro ⟨ent, hent, hid⟩
    split at hid
    · rename_i hpositive
      cases hid
      exact ⟨hpositive.2, ent, hent, hpositive.1, rfl⟩
    · cases hid
  · rintro ⟨hpositive, ent, hent, hdirectory, rfl⟩
    exact ⟨ent, hent, if_pos ⟨hdirectory, hpositive⟩⟩

theorem reportOf_eq_some {ent : DirEntry} {id : Int64} :
    reportOf appName ent = some id ↔ 0 < id ∧ ent = ⟨reportFilename appName id, false⟩ := by
  obtain ⟨name, isDirectory⟩ := ent
  unfold reportOf entryID
  constructor
  · intro h
    split at h
    · rename_i hreport
      cases h
      obtain ⟨hfile, hpositive, hname⟩ := hreport
      dsimp only at hfile hname
      exact ⟨hpositive, by rw [DirEntry.mk.injEq]; exact ⟨hname, hfile⟩⟩
    · cases h
  · rintro ⟨hpositive, hent⟩
    rw [DirEntry.mk.injEq] at hent
    obtain ⟨rfl, rfl⟩ := hent
    rw [getReportIDFromFilename_reportFilename]
    exact if_pos ⟨rfl, hpositive, rfl⟩

/-- A report of this app is there under its name. -/
theorem mem_reports {entries : List DirEntry} {id : Int64} :
    id ∈ reports appName entries ↔
      0 < id ∧ ⟨reportFilename appName id, false⟩ ∈ entries := by
  unfold reports
  rw [List.mem_filterMap]
  constructor
  · rintro ⟨ent, hent, hid⟩
    obtain ⟨hpositive, rfl⟩ := (reportOf_eq_some appName).mp hid
    exact ⟨hpositive, hent⟩
  · rintro ⟨hpositive, hent⟩
    exact ⟨_, hent, (reportOf_eq_some appName).mpr ⟨hpositive, rfl⟩⟩

theorem nodup_reports {entries : List DirEntry} (h : (entries.map DirEntry.name).Nodup) :
    (reports appName entries).Nodup := by
  apply (List.Nodup.of_map _ h).filterMap
  intro ent ent' id hid hid'
  obtain ⟨-, rfl⟩ := (reportOf_eq_some appName).mp hid
  exact ((reportOf_eq_some appName).mp hid').2.symm

/-! Counting. -/

theorem countP_eq_iff {α : Type} {p q : α → Bool} {list : List α}
    (h : ∀ a ∈ list, q a = true → p a = true) :
    list.countP p = list.countP q ↔ ∀ a ∈ list, p a = true → q a = true := by
  induction list with
  | nil => simp
  | cons a rest ih =>
    have hrest := ih fun b hb => h b (List.mem_cons_of_mem a hb)
    have hle : rest.countP q ≤ rest.countP p :=
      List.countP_mono_left fun b hb => h b (List.mem_cons_of_mem a hb)
    have ha := h a List.mem_cons_self
    rw [List.countP_cons, List.countP_cons, List.forall_mem_cons, ← hrest]
    cases hp : p a with
    | true =>
      cases hq : q a with
      | true => simp
      | false =>
        simp
        omega
    | false =>
      cases hq : q a with
      | true => simp [hp, hq] at ha
      | false => simp

theorem length_reports (entries : List DirEntry) :
    (reports appName entries).length = entries.countP fun ent => (reportOf appName ent).isSome :=
  List.length_filterMap_eq_countP

/-- As many are counted as there are reports when no other file has an id. -/
theorem getReportCount_eq_iff (entries : List DirEntry) :
    getReportCount appName entries = (reports appName entries).length ↔
      ∀ ent ∈ entries, ent.isDirectory = false → 0 < entryID appName ent →
        ent.name = reportFilename appName (entryID appName ent) := by
  have hcounted : ∀ ent ∈ entries, (reportOf appName ent).isSome = true →
      (!ent.isDirectory && decide (0 < entryID appName ent)) = true := by
    intro ent _ hreport
    unfold reportOf at hreport
    split at hreport
    · rename_i hcond
      rw [hcond.1, decide_eq_true hcond.2.1]
      rfl
    · cases hreport
  rw [length_reports, getReportCount, countP_eq_iff hcounted]
  apply forall₂_congr
  intro ent _
  unfold reportOf
  constructor
  · intro h hfile hpositive
    have hsome := h (by rw [hfile, decide_eq_true hpositive]; rfl)
    split at hsome
    · rename_i hcond
      exact hcond.2.2
    · cases hsome
  · intro h hcounted
    rw [Bool.and_eq_true, Bool.not_eq_true', decide_eq_true_eq] at hcounted
    rw [if_pos ⟨hcounted.1, hcounted.2, h hcounted.1 hcounted.2⟩]
    rfl

/-! Deleting. -/

theorem reports_deleteReportWithID (entries : List DirEntry) (id : Int64) :
    reports appName (deleteReportWithID appName entries id) =
      (reports appName entries).filter (· ≠ id) := by
  induction entries with
  | nil => rfl
  | cons ent rest ih =>
    unfold reports deleteReportWithID at ih ⊢
    cases hreport : reportOf appName ent with
    | none =>
      rw [List.filterMap_cons, hreport, ← ih, List.filter_cons]
      split
      · rw [List.filterMap_cons, hreport]
      · rfl
    | some id' =>
      obtain ⟨-, rfl⟩ := (reportOf_eq_some appName).mp hreport
      have hname : reportFilename appName id' = reportFilename appName id ↔ id' = id :=
        (reportFilename_injective appName).eq_iff
      rw [List.filterMap_cons, hreport, List.filter_cons, List.filter_cons]
      simp only [ne_eq, hname]
      split
      · rw [List.filterMap_cons, hreport, ih]
      · exact ih

theorem reports_foldl_deleteReportWithID (ids : List Int64) (entries : List DirEntry) :
    reports appName (ids.foldl (deleteReportWithID appName) entries) =
      (reports appName entries).filter (· ∉ ids) := by
  induction ids generalizing entries with
  | nil => simp
  | cons id rest ih =>
    rw [List.foldl_cons, ih, reports_deleteReportWithID, List.filter_filter]
    apply List.filter_congr
    intro other _
    simp [Bool.and_comm]

/-- The smallest ids are taken out of a sorted list. -/
theorem perm_filter_take {sorted ids : List Int64} (hperm : sorted.Perm ids)
    (hnodup : ids.Nodup) (count : Nat) :
    (ids.filter (· ∉ sorted.take count)).Perm (sorted.drop count) := by
  have hnodup' := hperm.nodup_iff.mpr hnodup
  have hsplit := hnodup'
  rw [← List.take_append_drop count sorted, List.nodup_append'] at hsplit
  obtain ⟨-, -, hdisjoint⟩ := hsplit
  refine (hperm.symm.filter _).trans (List.Perm.of_eq ?_)
  conv_lhs => rw [← List.take_append_drop count sorted]
  rw [List.filter_append, List.take_append_drop]
  have htake : (sorted.take count).filter (· ∉ sorted.take count) = [] := by
    rw [List.filter_eq_nil_iff]
    intro id hid
    simp [hid]
  have hdrop : (sorted.drop count).filter (· ∉ sorted.take count) = sorted.drop count := by
    rw [List.filter_eq_self]
    intro id hid
    simpa using fun hmem => hdisjoint hmem hid
  rw [htake, hdrop, List.nil_append]

/-! What the calls do. -/

theorem getReportIDs_snd (entries : List DirEntry) (buffer : List Int64) :
    (getReportIDs appName entries buffer).2 =
      min buffer.length (entryIDs appName entries).length := by
  unfold getReportIDs
  dsimp only
  rw [readReportIDs_eq, List.length_take]

theorem pos_of_mem_entryIDs {entries : List DirEntry} {id : Int64}
    (h : id ∈ entryIDs appName entries) : 0 < id := ((mem_entryIDs appName).mp h).1

/-- A buffer that is filled is the ids that were read, in order. -/
theorem getReportIDs_full {entries : List DirEntry} {buffer : List Int64}
    (h : buffer.length ≤ (entryIDs appName entries).length) :
    getReportIDs appName entries buffer =
      (qsort ((entryIDs appName entries).take buffer.length), buffer.length) := by
  unfold getReportIDs
  dsimp only
  rw [readReportIDs_eq, List.length_take, Nat.min_eq_left h, List.drop_length, List.append_nil]

/-- Without directories with ids and with no other files, the ids are those of the reports. -/
theorem entryIDs_eq_reports {entries : List DirEntry}
    (hfiles : ∀ ent ∈ entries, ent.isDirectory = false → 0 < entryID appName ent →
      ent.name = reportFilename appName (entryID appName ent))
    (hdirectories : directoryIDs appName entries = []) :
    entryIDs appName entries = reports appName entries := by
  apply List.filterMap_congr
  intro ent hent
  unfold reportOf
  cases hdirectory : ent.isDirectory with
  | true =>
    have hid : ¬0 < entryID appName ent := by
      intro hpositive
      have hmem := (mem_directoryIDs appName).mpr ⟨hpositive, ent, hent, hdirectory, rfl⟩
      rw [hdirectories] at hmem
      cases hmem
    rw [if_neg hid, if_neg fun hcond => hid hcond.2.1]
  | false =>
    by_cases hid : 0 < entryID appName ent
    · rw [if_pos hid, if_pos ⟨rfl, hid, hfiles ent hent hdirectory hid⟩]
    · rw [if_neg hid, if_neg fun hcond => hid hcond.2.1]

theorem lists_of_full {entries : List DirEntry} {buffer : List Int64}
    (hcapacity : buffer.length ≤ (reports appName entries).length)
    (hlength : (reports appName entries).length ≤ (entryIDs appName entries).length)
    (hnodup : ((entryIDs appName entries).take buffer.length).Nodup)
    (hmem : ∀ id ∈ (entryIDs appName entries).take buffer.length,
      id ∈ reports appName entries) : Lists appName entries buffer := by
  unfold Lists
  rw [getReportIDs_full appName (hcapacity.trans hlength)]
  have hpositive : ∀ id ∈ (entryIDs appName entries).take buffer.length, 0 ≤ id := by
    intro id hid
    exact Int64.le_of_lt (pos_of_mem_entryIDs appName (List.mem_of_mem_take hid))
  refine ⟨(Nat.min_eq_left hcapacity).symm, ?_, fun id hid => ?_⟩
  · exact (pairwise_lt_qsort hpositive hnodup).sublist (List.take_sublist _ _)
  · exact hmem id ((perm_qsort _).mem_iff.mp (List.mem_of_mem_take hid))

theorem lists_of_none {entries : List DirEntry} {buffer : List Int64}
    (hreports : min buffer.length (reports appName entries).length = 0)
    (hids : min buffer.length (entryIDs appName entries).length = 0) :
    Lists appName entries buffer := by
  have hcount := getReportIDs_snd appName entries buffer
  rw [hids] at hcount
  unfold Lists
  dsimp only
  rw [hcount, hreports]
  exact ⟨rfl, List.Pairwise.nil, fun id hid => (nomatch hid)⟩

/-- Nothing is pruned when the reports are not too many. -/
theorem prunes_of_few {entries : List DirEntry} {maxReportCount : Nat}
    (hcount : getReportCount appName entries = (reports appName entries).length)
    (hfew : (reports appName entries).length ≤ maxReportCount) (uninitialized : Nat → Int64) :
    Prunes appName entries maxReportCount uninitialized := by
  have hsame : pruneReports appName maxReportCount uninitialized entries = entries := by
    unfold pruneReports
    rw [if_neg]
    omega
  unfold Prunes
  rw [hsame]
  exact ⟨(Nat.min_eq_right hfew).symm, fun _ hid => hid, fun _ hid hnot => absurd hid hnot⟩

/-- The ids that are read in the place of the reports decide which of them are left. -/
theorem reports_pruneReports {entries : List DirEntry} {maxReportCount : Nat}
    (hcount : getReportCount appName entries = (reports appName entries).length)
    (hmany : maxReportCount < (reports appName entries).length)
    (hlength : (reports appName entries).length ≤ (entryIDs appName entries).length)
    (uninitialized : Nat → Int64) :
    reports appName (pruneReports appName maxReportCount uninitialized entries) =
      (reports appName entries).filter (· ∉ (qsort ((entryIDs appName entries).take
        (reports appName entries).length)).take
          ((reports appName entries).length - maxReportCount)) := by
  have hbuffer : ((List.range (reports appName entries).length).map uninitialized).length =
      (reports appName entries).length := by simp
  unfold pruneReports
  rw [hcount]
  dsimp only
  rw [if_pos hmany, getReportIDs_full appName (hbuffer.trans_le hlength), hbuffer,
    reports_foldl_deleteReportWithID]

theorem prunes_of_reports {entries : List DirEntry}
    (hcount : getReportCount appName entries = (reports appName entries).length)
    (hids : ((entryIDs appName entries).take (reports appName entries).length).Perm
      (reports appName entries))
    (hnodup : (reports appName entries).Nodup) (maxReportCount : Nat)
    (uninitialized : Nat → Int64) : Prunes appName entries maxReportCount uninitialized := by
  by_cases hmany : maxReportCount < (reports appName entries).length
  · have hlength : (reports appName entries).length ≤ (entryIDs appName entries).length := by
      have htake := hids.length_eq
      rw [List.length_take] at htake
      omega
    let sorted : List Int64 :=
      qsort ((entryIDs appName entries).take (reports appName entries).length)
    let count : Nat := (reports appName entries).length - maxReportCount
    have hsorted : sorted.Perm (reports appName entries) := (perm_qsort _).trans hids
    have hpositive : ∀ id ∈ (entryIDs appName entries).take (reports appName entries).length,
        0 ≤ id := fun id hid =>
      Int64.le_of_lt (pos_of_mem_entryIDs appName (List.mem_of_mem_take hid))
    have hincreasing : sorted.Pairwise (· < ·) :=
      pairwise_lt_qsort hpositive (hids.nodup_iff.mpr hnodup)
    have hleft : ((reports appName entries).filter (· ∉ sorted.take count)).Perm
        (sorted.drop count) := perm_filter_take hsorted hnodup count
    have hbetween : ∀ id ∈ sorted.take count, ∀ id' ∈ sorted.drop count, id < id' := by
      rw [← List.take_append_drop count sorted, List.pairwise_append] at hincreasing
      exact hincreasing.2.2
    unfold Prunes
    rw [reports_pruneReports appName hcount hmany hlength]
    refine ⟨?_, fun id hid => (List.mem_filter.mp hid).1, fun id hid hnot id' hid' => ?_⟩
    · rw [hleft.length_eq, List.length_drop, hsorted.length_eq]
      omega
    · apply hbetween
      · by_contra hout
        exact hnot (List.mem_filter.mpr ⟨hid, by simpa using hout⟩)
      · exact hleft.mem_iff.mp hid'
  · exact prunes_of_few appName hcount (Nat.le_of_not_lt hmany) uninitialized

theorem mem_entryIDs_of_mem_reports {entries : List DirEntry} {id : Int64}
    (h : id ∈ reports appName entries) : id ∈ entryIDs appName entries := by
  obtain ⟨hpositive, hent⟩ := (mem_reports appName).mp h
  exact (mem_entryIDs appName).mpr
    ⟨hpositive, _, hent, getReportIDFromFilename_reportFilename appName id⟩

theorem length_reports_le {entries : List DirEntry} (hnodup : (reports appName entries).Nodup) :
    (reports appName entries).length ≤ (entryIDs appName entries).length :=
  (hnodup.subperm fun _ hid => mem_entryIDs_of_mem_reports appName hid).length_le

theorem nodup_of_length_le_one {α : Type} {list : List α} (h : list.length ≤ 1) :
    list.Nodup := by
  match list, h with
  | [], _ => exact List.nodup_nil
  | [a], _ => exact List.nodup_singleton a

/-- Where no report is left when none is to be kept, the ids that were read are those of the
reports. -/
theorem perm_of_prunes {entries : List DirEntry}
    (hcount : getReportCount appName entries = (reports appName entries).length)
    (hnodup : (reports appName entries).Nodup)
    (h : Prunes appName entries 0 fun _ => 0) :
    ((entryIDs appName entries).take (reports appName entries).length).Perm
      (reports appName entries) := by
  have hlength := length_reports_le appName hnodup
  rcases Nat.eq_zero_or_pos (reports appName entries).length with hzero | hmany
  · rw [hzero, List.take_zero, List.length_eq_zero_iff.mp hzero]
  · have hnone := h.1
    rw [reports_pruneReports appName hcount hmany hlength, Nat.zero_min,
      List.length_eq_zero_iff, List.filter_eq_nil_iff] at hnone
    have hsubset : ∀ id ∈ reports appName entries,
        id ∈ (entryIDs appName entries).take (reports appName entries).length := by
      intro id hid
      have hread := hnone id hid
      rw [decide_eq_true_eq, not_not] at hread
      exact (perm_qsort _).mem_iff.mp (List.mem_of_mem_take hread)
    refine ((hnodup.subperm hsubset).perm_of_length_le ?_).symm
    rw [List.length_take]
    exact Nat.min_le_left _ _

/-! Orders of one directory. -/

variable {appName}

theorem Directory.Clean.exact {directory : Directory} {capacity : Nat}
    (h : directory.Clean appName capacity) : directory.Exact appName capacity := by
  intro entries hperm
  obtain ⟨hfiles, hcases⟩ := h
  have hreports : (reports appName entries).Perm (reports appName directory.entries) :=
    hperm.filterMap _
  have hdirectories : (directoryIDs appName entries).Perm
      (directoryIDs appName directory.entries) := hperm.filterMap _
  have hfiles' : ∀ ent ∈ entries, ent.isDirectory = false → 0 < entryID appName ent →
      ent.name = reportFilename appName (entryID appName ent) :=
    fun ent hent => hfiles ent (hperm.mem_iff.mp hent)
  have hcount := (getReportCount_eq_iff appName entries).mpr hfiles'
  have hnodup : (reports appName entries).Nodup :=
    hreports.nodup_iff.mpr (nodup_reports appName directory.names)
  rcases hcases with ⟨hnone, hcapacity⟩ | ⟨rfl, hempty⟩ | ⟨hcapacity, hone, hown⟩
  · rw [hnone] at hdirectories
    have hids := entryIDs_eq_reports appName hfiles' hdirectories.eq_nil
    refine ⟨?_, hcount, ?_⟩
    · rintro buffer rfl
      rw [← hreports.length_eq] at hcapacity
      rcases hcapacity with hcapacity | hempty
      · apply lists_of_full appName hcapacity
        · rw [hids]
        · rw [hids]
          exact hnodup.sublist (List.take_sublist _ _)
        · intro id hid
          rw [hids] at hid
          exact List.mem_of_mem_take hid
      · have hnil : reports appName entries = [] := (hempty ▸ hreports).eq_nil
        apply lists_of_none
        · rw [hnil]
          exact Nat.min_zero _
        · rw [hids, hnil]
          exact Nat.min_zero _
    · apply prunes_of_reports appName hcount _ hnodup
      rw [hids, List.take_length]
  · rw [hempty] at hreports
    have hnil := hreports.eq_nil
    refine ⟨?_, hcount, ?_⟩
    · intro buffer hbuffer
      apply lists_of_none
      · rw [hnil]
        exact Nat.min_zero _
      · rw [hbuffer]
        exact Nat.zero_min _
    · intro maxReportCount
      apply prunes_of_few appName hcount
      rw [hnil]
      exact Nat.zero_le _
  · -- Each id that is read is that of the one report.
    rw [← hreports.length_eq] at hone
    have hread : ∀ id ∈ entryIDs appName entries, id ∈ reports appName entries := by
      intro id hid
      obtain ⟨hpositive, ent, hent, rfl⟩ := (mem_entryIDs appName).mp hid
      cases hdirectory : ent.isDirectory with
      | true =>
        have hmem := (mem_directoryIDs appName).mpr ⟨hpositive, ent, hent, hdirectory, rfl⟩
        exact hreports.mem_iff.mpr (hown _ (hdirectories.mem_iff.mp hmem))
      | false =>
        have hname := hfiles' ent hent hdirectory hpositive
        refine (mem_reports appName).mpr ⟨hpositive, ?_⟩
        rw [← hname, ← hdirectory]
        exact hent
    have hlength := length_reports_le appName hnodup
    refine ⟨?_, hcount, ?_⟩
    · rintro buffer rfl
      apply lists_of_full appName (hone ▸ hcapacity) hlength
      · apply nodup_of_length_le_one
        rw [List.length_take]
        omega
      · exact fun id hid => hread id (List.mem_of_mem_take hid)
    · apply prunes_of_reports appName hcount _ hnodup
      obtain ⟨id, hid⟩ := List.length_eq_one_iff.mp hone
      have htake : ((entryIDs appName entries).take (reports appName entries).length).length =
          1 := by
        rw [List.length_take, Nat.min_eq_left hlength, hone]
      obtain ⟨id', hid'⟩ := List.length_eq_one_iff.mp htake
      have hmem : id' ∈ entryIDs appName entries :=
        List.mem_of_mem_take (hid' ▸ List.mem_singleton_self id')
      have hsame := hread id' hmem
      rw [hid, List.mem_singleton] at hsame
      rw [hid', hid, hsame]

theorem Directory.Exact.perm {directory : Directory} {capacity : Nat}
    (h : directory.Exact appName capacity) {entries : List DirEntry}
    (hperm : entries.Perm directory.entries) :
    ((entryIDs appName entries).take (reports appName entries).length).Perm
      (reports appName entries) := by
  obtain ⟨-, hcount, hprunes⟩ := h entries hperm
  have hnodup := nodup_reports appName ((hperm.map DirEntry.name).nodup_iff.mpr directory.names)
  exact perm_of_prunes appName hcount hnodup (hprunes 0 _)

theorem entryIDs_cons {ent : DirEntry} (hid : 0 < entryID appName ent) (rest : List DirEntry) :
    entryIDs appName (ent :: rest) = entryID appName ent :: entryIDs appName rest := by
  unfold entryIDs
  rw [List.filterMap_cons, if_pos hid]

/-- A directory that is read first takes the place of a report. -/
theorem Directory.Exact.mem_of_directory {directory : Directory} {capacity : Nat}
    (h : directory.Exact appName capacity) (hreports : reports appName directory.entries ≠ [])
    {ent : DirEntry} (hent : ent ∈ directory.entries) (hid : 0 < entryID appName ent) :
    entryID appName ent ∈ reports appName directory.entries := by
  have hperm : (ent :: directory.entries.erase ent).Perm directory.entries :=
    (List.perm_cons_erase hent).symm
  have hsame : (reports appName (ent :: directory.entries.erase ent)).Perm
      (reports appName directory.entries) := hperm.filterMap _
  have hread := h.perm hperm
  obtain ⟨count, hcount⟩ := Nat.exists_eq_succ_of_ne_zero
    (fun hzero => hreports (List.length_eq_zero_iff.mp hzero))
  rw [entryIDs_cons hid, hsame.length_eq, hcount, List.take_succ_cons] at hread
  exact hsame.mem_iff.mp (hread.mem_iff.mp List.mem_cons_self)

/-- With its report behind it, it takes the place of another one. -/
theorem Directory.Exact.length_le_one {directory : Directory} {capacity : Nat}
    (h : directory.Exact appName capacity) (hreports : reports appName directory.entries ≠ [])
    {ent : DirEntry} (hent : ent ∈ directory.entries) (hdirectory : ent.isDirectory = true)
    (hid : 0 < entryID appName ent) : (reports appName directory.entries).length ≤ 1 := by
  have hmem := h.mem_of_directory hreports hent hid
  obtain ⟨hpositive, hfile⟩ := (mem_reports appName).mp hmem
  let file : DirEntry := ⟨reportFilename appName (entryID appName ent), false⟩
  have hne : file ≠ ent := by
    intro heq
    rw [← heq] at hdirectory
    cases hdirectory
  have hfile' : file ∈ directory.entries.erase ent := (List.mem_erase_of_ne hne).mpr hfile
  have hperm : (ent :: file :: (directory.entries.erase ent).erase file).Perm
      directory.entries :=
    ((List.perm_cons_erase hfile').symm.cons ent).trans (List.perm_cons_erase hent).symm
  have hsame : (reports appName (ent :: file :: (directory.entries.erase ent).erase file)).Perm
      (reports appName directory.entries) := hperm.filterMap _
  have hread := h.perm hperm
  have hfileID : entryID appName file = entryID appName ent :=
    getReportIDFromFilename_reportFilename appName _
  have hnodup := hsame.nodup_iff.mpr (nodup_reports appName directory.names)
  by_contra hmany
  obtain ⟨count, hcount⟩ : ∃ count, (reports appName directory.entries).length = count + 2 :=
    ⟨(reports appName directory.entries).length - 2, by omega⟩
  rw [entryIDs_cons hid, entryIDs_cons (hfileID.symm ▸ hid), hfileID, hsame.length_eq, hcount,
    List.take_succ_cons, List.take_succ_cons] at hread
  have htwice := hread.nodup_iff.mpr hnodup
  rw [List.nodup_cons] at htwice
  exact htwice.1 List.mem_cons_self

/-- What the buffer holds is sorted among the ids. -/
theorem not_lists_of_large {entries : List DirEntry} {capacity : Nat}
    (hids : entryIDs appName entries = reports appName entries)
    (hreports : reports appName entries ≠ [])
    (hcapacity : (reports appName entries).length < capacity) :
    ¬Lists appName entries (List.replicate capacity 0) := by
  let filled : List Int64 := qsort (reports appName entries ++
    List.replicate (capacity - (reports appName entries).length) 0)
  have hlisted : getReportIDs appName entries (List.replicate capacity 0) =
      (filled, (reports appName entries).length) := by
    unfold getReportIDs
    dsimp only
    rw [readReportIDs_eq, hids, List.length_replicate, List.take_of_length_le hcapacity.le,
      List.drop_replicate]
  have hpositive : ∀ id ∈ reports appName entries, 0 < id := fun id hid =>
    ((mem_reports appName).mp hid).1
  have hnonneg : ∀ id ∈ reports appName entries ++
      List.replicate (capacity - (reports appName entries).length) 0, 0 ≤ id := by
    intro id hid
    rcases List.mem_append.mp hid with hid | hid
    · exact Int64.le_of_lt (hpositive id hid)
    · rw [(List.mem_replicate.mp hid).2]
      exact Int64.le_refl 0
  have hsorted : filled.Pairwise fun a b => a.toInt ≤ b.toInt := pairwise_qsort hnonneg
  have hzero : (0 : Int64) ∈ filled := by
    apply (perm_qsort _).mem_iff.mpr
    apply List.mem_append_right
    exact List.mem_replicate.mpr ⟨by omega, rfl⟩
  unfold Lists
  rw [hlisted]
  rintro ⟨-, -, hmem⟩
  obtain ⟨first, rest, hfilled⟩ := List.exists_cons_of_ne_nil (List.ne_nil_of_mem hzero)
  obtain ⟨count, hcount⟩ := Nat.exists_eq_succ_of_ne_zero
    (fun hnil => hreports (List.length_eq_zero_iff.mp hnil))
  rw [hfilled] at hsorted hzero
  have hfirst : 0 < first := by
    apply hpositive
    apply hmem
    rw [hfilled, hcount, List.take_succ_cons]
    exact List.mem_cons_self
  rcases List.mem_cons.mp hzero with hhere | hthere
  · rw [← hhere] at hfirst
    exact absurd hfirst (by decide)
  · have hle := (List.pairwise_cons.mp hsorted).1 0 hthere
    exact absurd (Int64.lt_iff_toInt_lt.mp hfirst) (not_lt_of_ge hle)

theorem Directory.Exact.clean {directory : Directory} {capacity : Nat}
    (h : directory.Exact appName capacity) : directory.Clean appName capacity := by
  obtain ⟨hlists, hcount, -⟩ := h directory.entries (List.Perm.refl _)
  have hfiles := (getReportCount_eq_iff appName directory.entries).mp hcount
  refine ⟨hfiles, ?_⟩
  by_cases hnone : directoryIDs appName directory.entries = []
  · left
    refine ⟨hnone, ?_⟩
    by_contra hlarge
    push Not at hlarge
    have hids := entryIDs_eq_reports appName hfiles hnone
    exact not_lists_of_large hids hlarge.2 hlarge.1
      (hlists _ (by rw [List.length_replicate]))
  · right
    obtain ⟨id, hid⟩ := List.exists_mem_of_ne_nil _ hnone
    obtain ⟨hpositive, ent, hent, hdirectory, rfl⟩ := (mem_directoryIDs appName).mp hid
    have hperm : (ent :: directory.entries.erase ent).Perm directory.entries :=
      (List.perm_cons_erase hent).symm
    have hsame : (entryIDs appName (ent :: directory.entries.erase ent)).Perm
        (entryIDs appName directory.entries) := hperm.filterMap _
    rw [entryIDs_cons hpositive] at hsame
    have hread := hsame.length_eq
    have hlisted := (hlists (List.replicate capacity 0) List.length_replicate).1
    rw [getReportIDs_snd, List.length_replicate] at hlisted
    rw [List.length_cons] at hread
    by_cases hreports : reports appName directory.entries = []
    · left
      refine ⟨?_, hreports⟩
      rw [hreports, List.length_nil] at hlisted
      omega
    · right
      have hmany := List.length_pos_iff.mpr hreports
      have hone := h.length_le_one hreports hent hdirectory hpositive
      refine ⟨?_, by omega, fun id hid => ?_⟩
      · obtain ⟨-, hfile⟩ := (mem_reports appName).mp
          (h.mem_of_directory hreports hent hpositive)
        have hne : (⟨reportFilename appName (entryID appName ent), false⟩ : DirEntry) ≠ ent := by
          intro heq
          rw [← heq] at hdirectory
          cases hdirectory
        have hrest : entryID appName ent ∈ entryIDs appName (directory.entries.erase ent) :=
          (mem_entryIDs appName).mpr ⟨hpositive, _, (List.mem_erase_of_ne hne).mpr hfile,
            getReportIDFromFilename_reportFilename appName _⟩
        have hsecond := List.length_pos_of_mem hrest
        omega
      · obtain ⟨hpositive', ent', hent', -, rfl⟩ := (mem_directoryIDs appName).mp hid
        exact h.mem_of_directory hreports hent' hpositive'

/-- What the store lists, counts and keeps is right in every order of the entries and for every
earlier contents of the buffer, if and only if the directory is clean. -/
theorem exact_iff_clean (appName : AppName) (directory : Directory) (capacity : Nat) :
    directory.Exact appName capacity ↔ directory.Clean appName capacity :=
  ⟨Directory.Exact.clean, Directory.Clean.exact⟩

def exampleApp : AppName := ⟨ascii "App", by decide⟩

/-- Two reports, the newer one with attachments. -/
def exampleDirectory : Directory where
  entries := [⟨attachmentsFilename exampleApp 2, true⟩, ⟨reportFilename exampleApp 2, false⟩,
    ⟨reportFilename exampleApp 1, false⟩]
  names := by decide +kernel

/-- The newer report is listed twice, and the other one is not. -/
theorem attachments_are_listed : ¬exampleDirectory.Exact exampleApp 2 := by
  intro h
  have hlists := ((h exampleDirectory.entries (List.Perm.refl _)).1 [0, 0] rfl).2.1
  revert hlists
  decide +kernel

end SentryCocoa.ReportStore
