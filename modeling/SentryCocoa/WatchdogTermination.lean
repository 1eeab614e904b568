import Mathlib.Algebra.Order.BigOperators.Group.List
import Mathlib.Algebra.Order.Group.Nat
import Mathlib.Algebra.Ring.Parity
import SentryCocoa.Library.Rotation

/-! The breadcrumbs that survive a watchdog termination. The observer of the scope writes
them as lines into one of two files, the next launch moves the files and reads them. A
file is UTF-8 and stands here for its characters. -/
namespace SentryCocoa.WatchdogTermination
open SentryCocoa.Library.Rotation

/-- JSON of the platform, without pretty printing, and the number of strings in an object,
keys included. -/
structure NSJSONSerialization (Object : Type) where
  dataWithJSONObject : Object → Option (List Char)
  JSONObjectWithData : List Char → Option Object
  strings : Object → Nat

inductive Path where
  | breadcrumbsFilePathOne | breadcrumbsFilePathTwo
  | previousBreadcrumbsFilePathOne | previousBreadcrumbsFilePathTwo
  deriving DecidableEq, Repr

open WatchdogTermination.Path

abbrev Disk := Path → Option (List Char)

namespace Disk

def removeFileAtPath (disk : Disk) (path : Path) : Disk := Function.update disk path none

def createFileAtPath (disk : Disk) (path : Path) : Disk := Function.update disk path (some [])

/-- A handle writes at the end of its file. -/
def writeData (disk : Disk) (path : Path) (data : List Char) : Disk :=
  Function.update disk path ((disk path).map (· ++ data))

/-- The old previous file goes first; there is nothing to move when there is no file. -/
def moveState (disk : Disk) (stateFilePath previousStateFilePath : Path) : Disk :=
  let disk := disk.removeFileAtPath previousStateFilePath
  match disk stateFilePath with
  | none => disk
  | some contents =>
    Function.update (disk.removeFileAtPath stateFilePath) previousStateFilePath (some contents)

def moveBreadcrumbsToPreviousBreadcrumbs (disk : Disk) : Disk :=
  (disk.moveState breadcrumbsFilePathOne previousBreadcrumbsFilePathOne).moveState
    breadcrumbsFilePathTwo previousBreadcrumbsFilePathTwo

end Disk

/-! The observer. -/

structure ScopeObserver where
  disk : Disk
  maxBreadcrumbs : Nat
  breadcrumbCounter : Nat
  activeFilePath : Option Path
  fileHandle : Option Path

variable {Object : Type}

namespace ScopeObserver

def switchFileHandle (observer : ScopeObserver) : ScopeObserver :=
  let activeFilePath := if observer.activeFilePath = some breadcrumbsFilePathOne then
    breadcrumbsFilePathTwo else breadcrumbsFilePathOne
  { observer with
    disk := (observer.disk.removeFileAtPath activeFilePath).createFileAtPath activeFilePath
    activeFilePath := some activeFilePath
    fileHandle := some activeFilePath }

def init (maxBreadcrumbs : Nat) (disk : Disk) : ScopeObserver :=
  switchFileHandle
    { disk := disk, maxBreadcrumbs := maxBreadcrumbs, breadcrumbCounter := 0
      activeFilePath := none, fileHandle := none }

def deleteFiles (observer : ScopeObserver) : ScopeObserver :=
  { observer with
    disk := (observer.disk.removeFileAtPath breadcrumbsFilePathOne).removeFileAtPath
      breadcrumbsFilePathTwo
    breadcrumbCounter := 0
    activeFilePath := none
    fileHandle := none }

def writeLine (observer : ScopeObserver) (data : List Char) : ScopeObserver :=
  { observer with
    disk := match observer.fileHandle with
      | none => observer.disk
      | some path => (observer.disk.writeData path data).writeData path ['\n']
    breadcrumbCounter := observer.breadcrumbCounter + 1 }

def store (observer : ScopeObserver) (data : List Char) : ScopeObserver :=
  let observer := observer.writeLine data
  if observer.breadcrumbCounter ≥ observer.maxBreadcrumbs then
    { observer.switchFileHandle with breadcrumbCounter := 0 }
  else observer

def clearBreadcrumbs (observer : ScopeObserver) : ScopeObserver :=
  observer.deleteFiles.switchFileHandle

variable (json : NSJSONSerialization Object)

def addSerializedBreadcrumb (observer : ScopeObserver) (crumb : Object) : ScopeObserver :=
  match json.dataWithJSONObject crumb with
  | none => observer
  | some jsonData => observer.store jsonData

end ScopeObserver

/-! The reader. -/

/-- U+000A to U+000D, U+0085, U+2028 and U+2029. -/
def newlineCharacterSet (c : Char) : Bool :=
  (0xA ≤ c.val && c.val ≤ 0xD) || c.val == 0x85 || c.val == 0x2028 || c.val == 0x2029

def fileLines (contents : Option (List Char)) : List (List Char) :=
  match contents with
  | none => []
  | some contents => contents.splitOnP newlineCharacterSet

/-- The file with more lines contains the older crumbs and comes first. -/
def combinedLines (fileOneLines fileTwoLines : List (List Char)) : List (List Char) :=
  if fileOneLines.length > fileTwoLines.length then fileOneLines ++ fileTwoLines
  else fileTwoLines ++ fileOneLines

variable (json : NSJSONSerialization Object)

def readPreviousBreadcrumbs (disk : Disk) : List Object :=
  (combinedLines (fileLines (disk previousBreadcrumbsFilePathOne))
    (fileLines (disk previousBreadcrumbsFilePathTwo))).filterMap json.JSONObjectWithData

/-! Runs. -/

inductive Call (Object : Type) where
  | addSerializedBreadcrumb (crumb : Object)
  | clear

def ScopeObserver.call (observer : ScopeObserver) : Call Object → ScopeObserver
  | .addSerializedBreadcrumb crumb => observer.addSerializedBreadcrumb json crumb
  | .clear => observer.clearBreadcrumbs

/-- What was stored since the last clear. -/
def storedBreadcrumbs (calls : List (Call Object)) : List Object :=
  calls.foldl (fun stored call => match call with
    | .addSerializedBreadcrumb crumb =>
      if (json.dataWithJSONObject crumb).isSome then stored ++ [crumb] else stored
    | .clear => []) []

def ScopeObserver.run (observer : ScopeObserver) (calls : List (Call Object)) : ScopeObserver :=
  calls.foldl (fun observer call => observer.call json call) observer

/-- A launch moves the files away before it makes an observer. -/
def launch (maxBreadcrumbs : Nat) (disk : Disk) : ScopeObserver :=
  .init maxBreadcrumbs disk.moveBreadcrumbsToPreviousBreadcrumbs

/-- What the next launch reads when the app dies after the calls. -/
def breadcrumbsOfNextLaunch (maxBreadcrumbs : Nat) (disk : Disk) (calls : List (Call Object)) :
    List Object :=
  readPreviousBreadcrumbs json
    ((launch maxBreadcrumbs disk).run json calls).disk.moveBreadcrumbsToPreviousBreadcrumbs

/-! JSON. -/

/-- The quotation marks that are not escaped. -/
def quotes : List Char → Nat
  | '\\' :: _ :: rest => quotes rest
  | '"' :: rest => quotes rest + 1
  | _ :: rest => quotes rest
  | [] => 0

/-- What holds of JSON. Each string takes two quotation marks, and a newline that is not
escaped can only stand in a string when nothing is printed prettily. -/
structure NSJSONSerialization.Lawful (json : NSJSONSerialization Object) : Prop where
  read_written : ∀ object text, json.dataWithJSONObject object = some text →
    json.JSONObjectWithData text = some object
  empty : json.JSONObjectWithData [] = none
  quotes_written : ∀ object text, json.dataWithJSONObject object = some text →
    quotes text = 2 * json.strings object
  quotes_read : ∀ object text, json.JSONObjectWithData text = some object →
    2 * json.strings object ≤ quotes text
  terminated : ∀ object text, json.JSONObjectWithData text = some object → Even (quotes text)
  newline_in_string : ∀ object start c rest,
    json.dataWithJSONObject object = some (start ++ c :: rest) → newlineCharacterSet c →
    Odd (quotes start)

/-- No line of the breadcrumb is broken. -/
def OneLine (crumb : Object) : Prop :=
  ∀ text, json.dataWithJSONObject crumb = some text → ∀ c ∈ text, newlineCharacterSet c = false

/-! The files hold the two parts of a rotating log. -/

section

theorem moveBreadcrumbs_one (disk : Disk) :
    disk.moveBreadcrumbsToPreviousBreadcrumbs breadcrumbsFilePathOne = none ∧
      disk.moveBreadcrumbsToPreviousBreadcrumbs previousBreadcrumbsFilePathOne =
        disk breadcrumbsFilePathOne := by
  cases hone : disk breadcrumbsFilePathOne <;> cases htwo : disk breadcrumbsFilePathTwo <;>
    simp [Disk.moveBreadcrumbsToPreviousBreadcrumbs, Disk.moveState, Disk.removeFileAtPath,
      hone, htwo]

theorem moveBreadcrumbs_two (disk : Disk) :
    disk.moveBreadcrumbsToPreviousBreadcrumbs breadcrumbsFilePathTwo = none ∧
      disk.moveBreadcrumbsToPreviousBreadcrumbs previousBreadcrumbsFilePathTwo =
        disk breadcrumbsFilePathTwo := by
  cases hone : disk breadcrumbsFilePathOne <;> cases htwo : disk breadcrumbsFilePathTwo <;>
    simp [Disk.moveBreadcrumbsToPreviousBreadcrumbs, Disk.moveState, Disk.removeFileAtPath,
      hone, htwo]

def text (crumb : Object) : List Char := (json.dataWithJSONObject crumb).getD []

def fileText (crumbs : List Object) : List Char :=
  crumbs.flatMap fun crumb => text json crumb ++ ['\n']

/-- The active file holds the newer part, the other one the older part. -/
structure Represents (observer : ScopeObserver) (log : RotatingLog Object)
    (active other : Path) : Prop where
  paths : active = breadcrumbsFilePathOne ∧ other = breadcrumbsFilePathTwo ∨
    active = breadcrumbsFilePathTwo ∧ other = breadcrumbsFilePathOne
  activeFilePath : observer.activeFilePath = some active
  fileHandle : observer.fileHandle = some active
  counter : observer.breadcrumbCounter = log.newer.length
  newer : observer.disk active = some (fileText json log.newer)
  older : observer.disk other = log.older.map (fileText json)

variable {json}

theorem Represents.ne {observer : ScopeObserver} {log : RotatingLog Object} {active other : Path}
    (represents : Represents json observer log active other) : other ≠ active := by
  rcases represents.paths with ⟨rfl, rfl⟩ | ⟨rfl, rfl⟩ <;> decide

theorem Represents.writeLine {observer : ScopeObserver} {log : RotatingLog Object}
    {active other : Path} (represents : Represents json observer log active other)
    (crumb : Object) :
    Represents json (observer.writeLine (text json crumb)) ⟨log.older, log.newer ++ [crumb]⟩
      active other where
  paths := represents.paths
  activeFilePath := represents.activeFilePath
  fileHandle := represents.fileHandle
  counter := by
    rw [ScopeObserver.writeLine, represents.counter, List.length_append, List.length_singleton]
  newer := by
    unfold ScopeObserver.writeLine
    rw [represents.fileHandle]
    simp [Disk.writeData, represents.newer, fileText]
  older := by
    unfold ScopeObserver.writeLine
    rw [represents.fileHandle]
    simp [Disk.writeData, Function.update_of_ne represents.ne, represents.older]

/-- A switch starts a new part in the file of the older one. -/
theorem Represents.switchFileHandle {observer : ScopeObserver} {log : RotatingLog Object}
    {active other : Path} (represents : Represents json observer log active other) :
    Represents json { observer.switchFileHandle with breadcrumbCounter := 0 }
      ⟨some log.newer, []⟩ other active := by
  have hnewer := represents.newer
  have hactive := represents.activeFilePath
  unfold ScopeObserver.switchFileHandle
  rw [hactive]
  rcases represents.paths with ⟨rfl, rfl⟩ | ⟨rfl, rfl⟩
  · constructor
    · exact Or.inr ⟨rfl, rfl⟩
    · rfl
    · rfl
    · rfl
    · simp [Disk.createFileAtPath, fileText]
    · simp [Disk.createFileAtPath, Disk.removeFileAtPath, hnewer]
  · constructor
    · exact Or.inl ⟨rfl, rfl⟩
    · rfl
    · rfl
    · rfl
    · simp [Disk.createFileAtPath, fileText]
    · simp [Disk.createFileAtPath, Disk.removeFileAtPath, hnewer]

theorem Represents.store {observer : ScopeObserver} {log : RotatingLog Object}
    {active other : Path} (represents : Represents json observer log active other)
    (crumb : Object) :
    ∃ active' other', Represents json (observer.store (text json crumb))
      (log.push observer.maxBreadcrumbs crumb) active' other' := by
  have hline := represents.writeLine crumb
  have hcounter := hline.counter
  have hmax : (observer.writeLine (text json crumb)).maxBreadcrumbs =
    observer.maxBreadcrumbs := rfl
  rw [List.length_append, List.length_singleton] at hcounter
  unfold ScopeObserver.store RotatingLog.push
  dsimp only
  rw [hcounter, hmax]
  by_cases hfull : observer.maxBreadcrumbs ≤ log.newer.length + 1
  · rw [if_pos hfull, if_pos hfull]
    exact ⟨other, active, hline.switchFileHandle⟩
  · rw [if_neg hfull, if_neg hfull]
    exact ⟨active, other, hline⟩

theorem maxBreadcrumbs_store (observer : ScopeObserver) (data : List Char) :
    (observer.store data).maxBreadcrumbs = observer.maxBreadcrumbs := by
  unfold ScopeObserver.store
  dsimp only
  split <;> rfl

/-- The first file is active after a launch and after a clear. -/
theorem Represents.fresh {observer : ScopeObserver}
    (hactive : observer.activeFilePath = none) (hcounter : observer.breadcrumbCounter = 0)
    (htwo : observer.disk breadcrumbsFilePathTwo = none) :
    Represents json observer.switchFileHandle RotatingLog.empty breadcrumbsFilePathOne
      breadcrumbsFilePathTwo := by
  unfold ScopeObserver.switchFileHandle
  rw [hactive]
  constructor
  · exact Or.inl ⟨rfl, rfl⟩
  · rfl
  · rfl
  · exact hcounter
  · simp [Disk.createFileAtPath, fileText, RotatingLog.empty]
  · simp [Disk.createFileAtPath, Disk.removeFileAtPath, htwo, RotatingLog.empty]

theorem represents_launch (maxBreadcrumbs : Nat) (disk : Disk) :
    Represents json (launch maxBreadcrumbs disk) RotatingLog.empty breadcrumbsFilePathOne
      breadcrumbsFilePathTwo :=
  .fresh rfl rfl (moveBreadcrumbs_two disk).1

theorem represents_clear (observer : ScopeObserver) :
    Represents json observer.clearBreadcrumbs RotatingLog.empty breadcrumbsFilePathOne
      breadcrumbsFilePathTwo := by
  apply Represents.fresh rfl rfl
  simp [ScopeObserver.deleteFiles, Disk.removeFileAtPath]

variable (json) in
/-- What the files hold after the calls. -/
theorem represents_calls {maxBreadcrumbs : Nat} (hmax : 1 ≤ maxBreadcrumbs) (disk : Disk)
    (calls : List (Call Object)) :
    ∃ log active other,
      Holds maxBreadcrumbs (storedBreadcrumbs json calls) log ∧
      Represents json ((launch maxBreadcrumbs disk).run json calls) log active other ∧
      ((launch maxBreadcrumbs disk).run json calls).maxBreadcrumbs = maxBreadcrumbs ∧
      ∀ crumb ∈ storedBreadcrumbs json calls,
        json.dataWithJSONObject crumb = some (text json crumb) := by
  induction calls using List.reverseRecOn with
  | nil =>
    exact ⟨_, _, _, .empty hmax, represents_launch maxBreadcrumbs disk, rfl,
      fun crumb hcrumb => by cases hcrumb⟩
  | append_singleton calls call ih =>
    obtain ⟨log, active, other, hholds, hrepresents, hmaxBreadcrumbs, htexts⟩ := ih
    rw [storedBreadcrumbs, List.foldl_concat, ← storedBreadcrumbs, ScopeObserver.run,
      List.foldl_concat, ← ScopeObserver.run]
    cases call with
    | clear =>
      exact ⟨_, _, _, .empty hmax, represents_clear _, hmaxBreadcrumbs,
        fun crumb hcrumb => by cases hcrumb⟩
    | addSerializedBreadcrumb crumb =>
      dsimp only [ScopeObserver.call, ScopeObserver.addSerializedBreadcrumb]
      cases hdata : json.dataWithJSONObject crumb with
      | none => exact ⟨log, active, other, hholds, hrepresents, hmaxBreadcrumbs, htexts⟩
      | some data =>
        have htext : text json crumb = data := by rw [text, hdata, Option.getD_some]
        obtain ⟨active', other', hstore⟩ := hrepresents.store crumb
        rw [hmaxBreadcrumbs, htext] at hstore
        refine ⟨_, active', other', hholds.push crumb, hstore, ?_, fun stored hstored => ?_⟩
        · exact (maxBreadcrumbs_store _ data).trans hmaxBreadcrumbs
        · rcases List.mem_append.mp hstored with hbefore | hlast
          · exact htexts stored hbefore
          · rw [List.mem_singleton.mp hlast, hdata, htext]

end

/-! What the reader makes of a file. -/

section

variable {json}

def pieces (text : List Char) : List (List Char) := text.splitOnP newlineCharacterSet

/-- What is read from a text that is split at its newlines. -/
def readText (json : NSJSONSerialization Object) (text : List Char) : List Object :=
  (pieces text).filterMap json.JSONObjectWithData

theorem readText_lines (lawful : json.Lawful) (crumbs : List Object) :
    readText json (fileText json crumbs) =
      crumbs.flatMap fun crumb => readText json (text json crumb) := by
  induction crumbs with
  | nil => simp [fileText, readText, pieces, lawful.empty]
  | cons crumb crumbs ih =>
    have hsplit : pieces (fileText json (crumb :: crumbs)) =
        pieces (text json crumb) ++ pieces (fileText json crumbs) := by
      rw [fileText, List.flatMap_cons, List.append_assoc]
      exact List.splitOnP_append_cons _ _ (by decide)
    rw [List.flatMap_cons, ← ih, readText, hsplit, List.filterMap_append]
    rfl

theorem readText_oneLine (lawful : json.Lawful) {crumb : Object}
    (hdata : json.dataWithJSONObject crumb = some (text json crumb))
    (oneLine : OneLine json crumb) : readText json (text json crumb) = [crumb] := by
  rw [readText, pieces, List.splitOnP_eq_singleton (oneLine _ hdata), List.filterMap_cons,
    lawful.read_written crumb _ hdata]
  rfl

theorem length_pieces_oneLine {crumbs : List Object}
    (hdata : ∀ crumb ∈ crumbs, json.dataWithJSONObject crumb = some (text json crumb))
    (oneLine : ∀ crumb ∈ crumbs, OneLine json crumb) :
    (pieces (fileText json crumbs)).length = crumbs.length + 1 := by
  induction crumbs with
  | nil => rfl
  | cons crumb crumbs ih =>
    rw [List.forall_mem_cons] at hdata oneLine
    have hsplit : pieces (fileText json (crumb :: crumbs)) =
        text json crumb :: pieces (fileText json crumbs) := by
      rw [fileText, List.flatMap_cons, List.append_assoc]
      exact List.splitOnP_append_cons_of_forall_mem (oneLine.1 _ hdata.1) _ (by decide) _
    rw [hsplit, List.length_cons, List.length_cons, ih hdata.2 oneLine.2]

/-! Strings that a broken line loses. -/

theorem quotes_append_newline (start : List Char) {c : Char} (hc : newlineCharacterSet c)
    (rest : List Char) : quotes (start ++ c :: rest) = quotes start + quotes rest := by
  have hquote : c ≠ '"' := by
    rintro rfl
    cases hc
  have hbackslash : c ≠ '\\' := by
    rintro rfl
    cases hc
  fun_induction quotes start with
  | case1 d start ih => simpa [quotes] using ih
  | case2 start ih =>
    rw [List.cons_append, quotes, ih]
    omega
  | case3 d start hnot hne ih =>
    cases start with
    | nil =>
      by_cases hd : d = '\\'
      · subst hd
        simp [quotes]
      · rw [List.singleton_append, quotes]
        · exact ih
        · exact fun _ _ h => absurd h hd
        · exact hne
    | cons e start =>
      rw [List.cons_append, List.cons_append, quotes]
      · exact ih
      · exact fun _ _ hd _ => hnot e start hd rfl
      · exact hne
  | case4 =>
    rw [List.nil_append, quotes]
    · simp
    · exact fun _ _ h => absurd h hbackslash
    · exact hquote

/-- A text is one line, or its first line ends at a newline. -/
theorem pieces_cases (text : List Char) :
    (∀ c ∈ text, newlineCharacterSet c = false) ∧ pieces text = [text] ∨
      ∃ start c rest, text = start ++ c :: rest ∧ newlineCharacterSet c ∧
        pieces text = start :: pieces rest := by
  by_cases hline : ∀ c ∈ text, newlineCharacterSet c = false
  · exact Or.inl ⟨hline, List.splitOnP_eq_singleton hline⟩
  · right
    have hspan := List.takeWhile_append_dropWhile (p := fun c => !newlineCharacterSet c) (l := text)
    cases hdrop : text.dropWhile fun c => !newlineCharacterSet c with
    | nil =>
      rw [List.dropWhile_eq_nil_iff] at hdrop
      exact absurd (fun c hc => by simpa using hdrop c hc) hline
    | cons c rest =>
      have hc : newlineCharacterSet c := by
        have hhead := List.head?_dropWhile_not (fun c => !newlineCharacterSet c) text
        rw [hdrop] at hhead
        simpa using hhead
      have hstart : ∀ c ∈ text.takeWhile fun c => !newlineCharacterSet c,
          newlineCharacterSet c = false := fun c hc => by
        simpa using List.mem_takeWhile_imp hc
      rw [hdrop] at hspan
      have hsplit := List.splitOnP_append_cons_of_forall_mem hstart c hc rest
      rw [hspan] at hsplit
      exact ⟨_, c, rest, hspan.symm, hc, hsplit⟩

theorem sum_quotes_pieces (text : List Char) :
    ((pieces text).map quotes).sum = quotes text := by
  induction hlength : text.length using Nat.strong_induction_on generalizing text with
  | _ length ih =>
    rcases pieces_cases text with ⟨-, hpieces⟩ | ⟨start, c, rest, htext, hc, hpieces⟩
    · simp [hpieces]
    · have hrest : rest.length < length := by
        rw [← hlength, htext, List.length_append, List.length_cons]
        omega
      rw [hpieces, List.map_cons, List.sum_cons, ih _ hrest rest rfl, htext,
        quotes_append_newline start hc rest]

def weight (json : NSJSONSerialization Object) (objects : List Object) : Nat :=
  (objects.map json.strings).sum

theorem weight_filterMap_le (lawful : json.Lawful) (texts : List (List Char)) :
    2 * weight json (texts.filterMap json.JSONObjectWithData) ≤ (texts.map quotes).sum := by
  induction texts with
  | nil => rfl
  | cons text texts ih =>
    rw [List.filterMap_cons, List.map_cons, List.sum_cons]
    cases hread : json.JSONObjectWithData text with
    | none => exact ih.trans (Nat.le_add_left _ _)
    | some object =>
      have hobject := lawful.quotes_read object text hread
      dsimp only
      rw [weight, List.map_cons, List.sum_cons, ← weight]
      omega

/-- The first piece of a broken line is no JSON, and it has a quotation mark. -/
theorem weight_readText_lt (lawful : json.Lawful) {crumb : Object}
    (hdata : json.dataWithJSONObject crumb = some (text json crumb))
    (broken : ¬OneLine json crumb) :
    weight json (readText json (text json crumb)) < json.strings crumb := by
  have hquotes := lawful.quotes_written crumb _ hdata
  rcases pieces_cases (text json crumb) with ⟨hline, -⟩ | ⟨start, c, rest, htext, hc, hpieces⟩
  · apply absurd _ broken
    intro text' htext'
    rw [hdata, Option.some.injEq] at htext'
    rwa [← htext']
  · have hodd : Odd (quotes start) :=
      lawful.newline_in_string crumb start c rest (by rw [hdata, htext]) hc
    have hnone : json.JSONObjectWithData start = none := by
      rw [Option.eq_none_iff_forall_ne_some]
      intro object hread
      exact Nat.not_odd_iff_even.mpr (lawful.terminated object start hread) hodd
    have hrest := weight_filterMap_le lawful (pieces rest)
    have hpos : 0 < quotes start := by
      obtain ⟨k, hk⟩ := hodd
      omega
    rw [htext, quotes_append_newline start hc rest] at hquotes
    rw [sum_quotes_pieces] at hrest
    rw [readText, hpieces, List.filterMap_cons, hnone]
    dsimp only
    omega

theorem weight_readText_le (lawful : json.Lawful) {crumb : Object}
    (hdata : json.dataWithJSONObject crumb = some (text json crumb)) :
    weight json (readText json (text json crumb)) ≤ json.strings crumb := by
  have hquotes := lawful.quotes_written crumb _ hdata
  have hread := weight_filterMap_le lawful (pieces (text json crumb))
  rw [sum_quotes_pieces] at hread
  rw [readText]
  omega

theorem weight_append (first second : List Object) :
    weight json (first ++ second) = weight json first + weight json second := by
  simp [weight]

theorem weight_flatMap (crumbs : List Object) :
    weight json (crumbs.flatMap fun crumb => readText json (text json crumb)) =
      (crumbs.map fun crumb => weight json (readText json (text json crumb))).sum := by
  induction crumbs with
  | nil => rfl
  | cons crumb crumbs ih =>
    rw [List.flatMap_cons, weight_append, ih, List.map_cons, List.sum_cons]

/-- The pieces of the lines have the strings of the crumbs only when no line is broken. -/
theorem oneLine_of_weight_eq (lawful : json.Lawful) {crumbs : List Object}
    (hdata : ∀ crumb ∈ crumbs, json.dataWithJSONObject crumb = some (text json crumb))
    (heq : weight json (crumbs.flatMap fun crumb => readText json (text json crumb)) =
      weight json crumbs) : ∀ crumb ∈ crumbs, OneLine json crumb := by
  by_contra hbroken
  push Not at hbroken
  obtain ⟨crumb, hcrumb, hbroken⟩ := hbroken
  rw [weight_flatMap, weight] at heq
  apply absurd heq
  apply Nat.ne_of_lt
  apply List.sum_lt_sum
  · exact fun crumb hcrumb => weight_readText_le lawful (hdata crumb hcrumb)
  · exact ⟨crumb, hcrumb, weight_readText_lt lawful (hdata crumb hcrumb) hbroken⟩

/-! The next launch. -/

/-- What the reader finds when the files represent a log. -/
theorem fileLines_of_represents {observer : ScopeObserver} {log : RotatingLog Object}
    {active other : Path} (represents : Represents json observer log active other) :
    readPreviousBreadcrumbs json observer.disk.moveBreadcrumbsToPreviousBreadcrumbs =
      (combinedLines (log.older.elim [] fun older => pieces (fileText json older))
          (pieces (fileText json log.newer))).filterMap json.JSONObjectWithData ∨
    readPreviousBreadcrumbs json observer.disk.moveBreadcrumbsToPreviousBreadcrumbs =
      (combinedLines (pieces (fileText json log.newer))
          (log.older.elim [] fun older => pieces (fileText json older))).filterMap
        json.JSONObjectWithData := by
  have hnewer := represents.newer
  have holder := represents.older
  have hlines : fileLines (log.older.map (fileText json)) =
      log.older.elim [] fun older => pieces (fileText json older) := by
    cases log.older <;> rfl
  unfold readPreviousBreadcrumbs
  rw [(moveBreadcrumbs_one observer.disk).2, (moveBreadcrumbs_two observer.disk).2]
  rcases represents.paths with ⟨rfl, rfl⟩ | ⟨rfl, rfl⟩
  · right
    rw [hnewer, holder, hlines]
    rfl
  · left
    rw [hnewer, holder, hlines]
    rfl

theorem combinedLines_nil (lines : List (List Char)) :
    combinedLines [] lines = lines ∧ combinedLines lines [] = lines := by
  unfold combinedLines
  constructor
  · simp
  · split <;> simp

/-- The two parts in the one order or in the other, and in order when no line is broken. -/
theorem breadcrumbsOfNextLaunch_cases (lawful : json.Lawful) {maxBreadcrumbs : Nat}
    (hmax : 1 ≤ maxBreadcrumbs) (disk : Disk) (calls : List (Call Object)) :
    ∃ older newer, older ++ newer = kept maxBreadcrumbs (storedBreadcrumbs json calls) ∧
      (∀ crumb ∈ older ++ newer, json.dataWithJSONObject crumb = some (text json crumb)) ∧
      (breadcrumbsOfNextLaunch json maxBreadcrumbs disk calls =
          (older.flatMap fun crumb => readText json (text json crumb)) ++
            newer.flatMap (fun crumb => readText json (text json crumb)) ∨
        breadcrumbsOfNextLaunch json maxBreadcrumbs disk calls =
            (newer.flatMap fun crumb => readText json (text json crumb)) ++
              older.flatMap (fun crumb => readText json (text json crumb)) ∧
          ¬∀ crumb ∈ older ++ newer, OneLine json crumb) := by
  obtain ⟨log, active, other, holds, represents, -, htexts⟩ :=
    represents_calls json hmax disk calls
  have hread := holds.read_eq
  have hdata : ∀ crumb ∈ log.read, json.dataWithJSONObject crumb = some (text json crumb) := by
    intro crumb hcrumb
    rw [hread] at hcrumb
    exact htexts crumb (kept_subset _ _ hcrumb)
  have hfiles := fileLines_of_represents represents
  unfold RotatingLog.read at hread hdata
  cases holder : log.older with
  | none =>
    rw [holder] at hread hdata hfiles
    refine ⟨[], log.newer, hread, hdata, Or.inl ?_⟩
    rw [breadcrumbsOfNextLaunch, List.flatMap_nil, List.nil_append, ← readText_lines lawful]
    rcases hfiles with hfiles | hfiles
    · exact hfiles.trans (congrArg (List.filterMap _) (combinedLines_nil _).1)
    · exact hfiles.trans (congrArg (List.filterMap _) (combinedLines_nil _).2)
  | some older =>
    rw [holder] at hread hdata hfiles
    dsimp only [Option.elim_some, Option.getD_some] at hread hdata hfiles
    refine ⟨older, log.newer, hread, hdata, ?_⟩
    have hlengths : (∀ crumb ∈ older ++ log.newer, OneLine json crumb) →
        (pieces (fileText json log.newer)).length < (pieces (fileText json older)).length := by
      intro oneLine
      rw [List.forall_mem_append] at oneLine
      have hdata := List.forall_mem_append.mp hdata
      rw [length_pieces_oneLine hdata.1 oneLine.1, length_pieces_oneLine hdata.2 oneLine.2,
        holds.older_length older holder]
      exact Nat.succ_lt_succ holds.newer_lt
    rw [breadcrumbsOfNextLaunch, ← readText_lines lawful, ← readText_lines lawful]
    unfold readText
    rw [← List.filterMap_append, ← List.filterMap_append]
    unfold combinedLines at hfiles
    rcases hfiles with hfiles | hfiles
    · by_cases hmore : (pieces (fileText json older)).length >
          (pieces (fileText json log.newer)).length
      · rw [if_pos hmore] at hfiles
        exact Or.inl hfiles
      · rw [if_neg hmore] at hfiles
        exact Or.inr ⟨hfiles, fun oneLine => hmore (hlengths oneLine)⟩
    · by_cases hmore : (pieces (fileText json log.newer)).length >
          (pieces (fileText json older)).length
      · rw [if_pos hmore] at hfiles
        exact Or.inr ⟨hfiles, fun oneLine => absurd (hlengths oneLine) (Nat.lt_asymm hmore)⟩
      · rw [if_neg hmore] at hfiles
        exact Or.inl hfiles

/-- Every crumb of the next launch is there in order exactly when none of the crumbs that the
files hold has a newline character in its JSON. -/
theorem breadcrumbsOfNextLaunch_eq_iff (lawful : json.Lawful) {maxBreadcrumbs : Nat}
    (hmax : 1 ≤ maxBreadcrumbs) (disk : Disk) (calls : List (Call Object)) :
    breadcrumbsOfNextLaunch json maxBreadcrumbs disk calls =
        kept maxBreadcrumbs (storedBreadcrumbs json calls) ↔
      ∀ crumb ∈ kept maxBreadcrumbs (storedBreadcrumbs json calls), OneLine json crumb := by
  obtain ⟨older, newer, hkept, hdata, horder⟩ :=
    breadcrumbsOfNextLaunch_cases lawful hmax disk calls
  rw [← hkept]
  constructor
  · intro heq
    apply oneLine_of_weight_eq lawful hdata
    have hweight := congrArg (weight json) heq
    rw [List.flatMap_append, weight_append, ← hweight]
    rcases horder with horder | ⟨horder, -⟩
    · rw [horder, weight_append]
    · rw [horder, weight_append, Nat.add_comm]
  · intro oneLine
    rcases horder with horder | ⟨-, hbroken⟩
    · have hread : ∀ crumbs ⊆ older ++ newer,
          (crumbs.flatMap fun crumb => readText json (text json crumb)) = crumbs := by
        intro crumbs hcrumbs
        rw [List.flatMap_congr fun crumb hcrumb => readText_oneLine lawful
          (hdata crumb (hcrumbs hcrumb)) (oneLine crumb (hcrumbs hcrumb))]
        exact List.flatMap_singleton' crumbs
      rw [horder, hread older (List.subset_append_left _ _),
        hread newer (List.subset_append_right _ _)]
    · exact absurd oneLine hbroken

/-! Two breadcrumbs, of which the second has a line separator in its message. -/

def exampleText : Bool → List Char
  | false => "\x7b\"message\":\"a\"\x7d".toList
  | true => "\x7b\"message\":\"b\u2028c\"\x7d".toList

def exampleJSON : NSJSONSerialization Bool where
  dataWithJSONObject crumb := some (exampleText crumb)
  JSONObjectWithData text :=
    if text = exampleText false then some false
    else if text = exampleText true then some true else none
  strings _ := 2

theorem exampleJSON_read {text : List Char} {crumb : Bool}
    (h : exampleJSON.JSONObjectWithData text = some crumb) : text = exampleText crumb := by
  unfold exampleJSON at h
  dsimp only at h
  split at h
  · rwa [← Option.some.inj h]
  · rw [Option.ite_none_right_eq_some] at h
    rw [← Option.some.inj h.2, h.1]

theorem exampleJSON_lawful : exampleJSON.Lawful where
  read_written crumb text h := by
    rw [← Option.some.inj h]
    cases crumb <;> decide
  empty := by decide
  quotes_written crumb text h := by
    rw [← Option.some.inj h]
    cases crumb <;> decide
  quotes_read crumb text h := by
    rw [exampleJSON_read h]
    cases crumb <;> decide
  terminated crumb text h := by
    rw [exampleJSON_read h]
    cases crumb <;> decide
  newline_in_string crumb start c rest h hc := by
    have htext : exampleText crumb = start ++ c :: rest := Option.some.inj h
    have hodd : ∀ i, ∀ hi : i < (exampleText crumb).length,
        newlineCharacterSet ((exampleText crumb).get ⟨i, hi⟩) →
          Odd (quotes ((exampleText crumb).take i)) := by
      cases crumb <;> decide
    have hi : start.length < (exampleText crumb).length := by
      rw [htext, List.length_append, List.length_cons]
      omega
    have hat := hodd start.length hi
    simp only [htext, List.get_eq_getElem, List.getElem_append_right, le_refl, Nat.sub_self,
      List.getElem_cons_zero, List.take_left'] at hat
    exact hat hc

theorem breadcrumbsOfNextLaunch_example :
    breadcrumbsOfNextLaunch exampleJSON 2 (fun _ => none)
        [.addSerializedBreadcrumb true, .clear, .addSerializedBreadcrumb false,
          .addSerializedBreadcrumb false, .addSerializedBreadcrumb false] =
      [false, false, false] := by
  apply (breadcrumbsOfNextLaunch_eq_iff exampleJSON_lawful (by decide) _ _).mpr
  intro crumb hcrumb text htext
  cases crumb with
  | false =>
    have hall : (exampleText false).all (fun c => !newlineCharacterSet c) = true := by decide
    intro c hc
    rw [← Option.some.inj htext] at hc
    simpa using List.all_eq_true.mp hall c hc
  | true => exact absurd hcrumb (by decide)

/-- The line separator breaks the line, and the next launch does not find the breadcrumb. -/
theorem line_separator_loses_breadcrumb :
    exampleJSON.Lawful ∧
      storedBreadcrumbs exampleJSON [.addSerializedBreadcrumb true] = [true] ∧
      breadcrumbsOfNextLaunch exampleJSON 1 (fun _ => none) [.addSerializedBreadcrumb true] = [] :=
  ⟨exampleJSON_lawful, by decide, by decide⟩

end

end SentryCocoa.WatchdogTermination
