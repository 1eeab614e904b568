import SentryCocoa.Serialization

/-! A session: the interval for which release health counts errors and crashes.
The counters are natural numbers, since no session lives through 2^64 updates.
The user of a session is left out; it is neither sent nor stored. -/
namespace SentryCocoa.Session
open SentryCocoa.Foundation SentryCocoa.Envelope SentryCocoa.Serialization

/-- Digits in upper case with four dashes. -/
def isUUIDCharacter (c : Char) (position : Nat) : Bool :=
  if position ∈ [8, 13, 18, 23] then c == '-' else isHexDigit c && c.toUpper == c

structure NSUUID where
  characters : List Char
  length_eq : characters.length = 36
  form : characters.zipIdx.all fun c => isUUIDCharacter c.1 c.2
  deriving DecidableEq

def NSUUID.UUIDString (uuid : NSUUID) : String := String.ofList uuid.characters

theorem toUpper_of_isUUIDCharacter {c : Char} {position : Nat} (h : isUUIDCharacter c position) :
    c.toUpper = c := by
  unfold isUUIDCharacter at h
  split at h
  · rw [beq_iff_eq.mp h]
    decide
  · exact beq_iff_eq.mp (Bool.and_eq_true_iff.mp h).2

def NSUUID.initWithUUIDString (string : String) : Option NSUUID :=
  let characters := string.toList.map Char.toUpper
  if h : characters.length = 36 ∧ characters.zipIdx.all fun c => isUUIDCharacter c.1 c.2 then
    some ⟨characters, h.1, h.2⟩
  else none

theorem NSUUID.initWithUUIDString_UUIDString (uuid : NSUUID) :
    initWithUUIDString uuid.UUIDString = some uuid := by
  have hupper : uuid.characters.map Char.toUpper = uuid.characters := by
    conv_rhs => rw [← List.map_id uuid.characters]
    apply List.map_congr_left
    intro c hc
    obtain ⟨position, hposition, rfl⟩ := List.mem_iff_getElem.mp hc
    have hmem : (uuid.characters[position], position) ∈ uuid.characters.zipIdx :=
      List.mk_mem_zipIdx_iff_getElem?.mpr (List.getElem?_eq_getElem hposition)
    exact toUpper_of_isUUIDCharacter (List.all_eq_true.mp uuid.form _ hmem)
  unfold initWithUUIDString UUIDString
  simp only [String.toList_ofList, hupper]
  rw [dif_pos ⟨uuid.length_eq, uuid.form⟩]

inductive SentrySessionStatus where
  | ok | exited | crashed | abnormal
  deriving DecidableEq, Repr

def nameForSentrySessionStatus : SentrySessionStatus → String
  | .ok => "ok"
  | .exited => "exited"
  | .crashed => "crashed"
  | .abnormal => "abnormal"

/-- A status that ends the session. -/
def SentrySessionStatus.terminal (status : SentrySessionStatus) : Prop := status ≠ .ok

instance (status : SentrySessionStatus) : Decidable status.terminal :=
  inferInstanceAs (Decidable (status ≠ .ok))

structure SentrySession where
  sessionId : NSUUID
  started : NSDate
  status : SentrySessionStatus
  errors : Nat
  sequence : Nat
  distinctId : String
  flagInit : Option NSNumber
  timestamp : Option NSDate
  duration : Option NSNumber
  releaseName : Option String
  environment : Option String
  deriving DecidableEq

namespace SentrySession

/-- The identifier and the start are those that the platform hands out. -/
def initDefault (sessionId : NSUUID) (started : NSDate) (distinctId : String) : SentrySession where
  sessionId := sessionId
  started := started
  status := .ok
  errors := 0
  sequence := 1
  distinctId := distinctId
  flagInit := none
  timestamp := none
  duration := none
  releaseName := none
  environment := none

def initWithReleaseName (sessionId : NSUUID) (started : NSDate) (releaseName distinctId : String) :
    SentrySession :=
  { initDefault sessionId started distinctId with
    flagInit := some (.bool true)
    releaseName := some releaseName }

def setFlagInit (s : SentrySession) : SentrySession := { s with flagInit := some (.bool true) }

def changed (s : SentrySession) : SentrySession :=
  { s with flagInit := none, sequence := s.sequence + 1 }

/-- Seconds between two dates. A missing date counts as no time. -/
def timeIntervalSinceDate (date : Option NSDate) (other : NSDate) : ℚ :=
  match date with
  | some date => (date.milliseconds - other.milliseconds : ℤ) / 1000
  | none => 0

def endSessionWithTimestamp (s : SentrySession) (timestamp : NSDate) : SentrySession :=
  { s with
    timestamp := some timestamp
    duration := some (.double (timeIntervalSinceDate (some timestamp) s.started)) }

def endSessionExitedWithTimestamp (s : SentrySession) (timestamp : NSDate) : SentrySession :=
  { s.changed with status := .exited }.endSessionWithTimestamp timestamp

def endSessionCrashedWithTimestamp (s : SentrySession) (timestamp : NSDate) : SentrySession :=
  { s.changed with status := .crashed }.endSessionWithTimestamp timestamp

def endSessionAbnormalWithTimestamp (s : SentrySession) (timestamp : NSDate) : SentrySession :=
  { s.changed with status := .abnormal }.endSessionWithTimestamp timestamp

def incrementErrors (s : SentrySession) : SentrySession :=
  { s.changed with errors := s.errors + 1 }

section Dictionary
variable (dates : NSDateFormatter)

def attrs (s : SentrySession) : Option Value :=
  if s.releaseName.isSome ∨ s.environment.isSome then
    some (.ofDictionary (((∅ : NSDictionary Value).insertIfPresent (s.releaseName.map .string)
      "release").insertIfPresent (s.environment.map .string) "environment"))
  else none

/-- A duration is left out only of the first update. -/
def writtenDuration (s : SentrySession) : Option NSNumber :=
  match s.duration, s.flagInit with
  | some duration, _ => some duration
  | none, none => some (.double (timeIntervalSinceDate s.timestamp s.started))
  | none, some _ => none

/-- A session that has not ended is stamped with the current date. -/
def serialize (s : SentrySession) (date : NSDate) : NSDictionary Value :=
  let serializedData : NSDictionary Value :=
    (((∅ : NSDictionary Value).insert "sid" (.string s.sessionId.UUIDString)).insert "errors"
      (.number (.integer s.errors))).insert "started" (.string (dates.toIso8601String s.started))
  let serializedData := serializedData.insertIfPresent
    (s.flagInit.map fun flag => .number (.bool flag.boolValue)) "init"
  let serializedData : NSDictionary Value :=
    (serializedData.insert "status" (.string (nameForSentrySessionStatus s.status))).insert
      "timestamp" (.string (dates.toIso8601String (s.timestamp.getD date)))
  let serializedData : NSDictionary Value :=
    (serializedData.insertIfPresent (s.writtenDuration.map .number) "duration").insert "seq"
      (.number (.integer s.sequence))
  (serializedData.insertIfPresent s.attrs "attrs").insert "did" (.string s.distinctId)

/-- `unsignedIntegerValue`, but for the counters past the word size that no number holds. -/
def counterValue : NSNumber → Nat
  | .integer (.ofNat n) => n
  | number => number.unsignedIntegerValue

/-- Objects of another class are ignored. -/
def numberValue : Option Value → Option NSNumber
  | some (.number number) => some number
  | _ => none

def attrsValue (entries : List (String × Value)) (key : String) : Option String :=
  match entries.lookup key with
  | some (.string text) => some text
  | _ => none

/-- The release name and the environment. An array answers every key with an array; an object
that is no collection raises. -/
def attrsValues : Option Value → Except Fault (Option String × Option String)
  | none => pure (none, none)
  | some (.dictionary entries) =>
    pure (attrsValue entries "release", attrsValue entries "environment")
  | some (.array _) => pure (none, none)
  | some _ => throw .exception

def statusForName (name : String) : Option SentrySessionStatus :=
  if name = "ok" then some .ok
  else if name = "exited" then some .exited
  else if name = "crashed" then some .crashed
  else if name = "abnormal" then some .abnormal
  else none

def initWithJSONObject (jsonObject : NSDictionary Value) : Except Fault (Option SentrySession) := do
  let some (.string sid) := jsonObject.objectForKey "sid" | return none
  let some sessionId := NSUUID.initWithUUIDString sid | return none
  let some (.string started) := jsonObject.objectForKey "started" | return none
  let some startedDate := dates.fromIso8601String started | return none
  let some (.string statusName) := jsonObject.objectForKey "status" | return none
  let some status := statusForName statusName | return none
  let some (.number seq) := jsonObject.objectForKey "seq" | return none
  let some (.number errors) := jsonObject.objectForKey "errors" | return none
  let some (.string did) := jsonObject.objectForKey "did" | return none
  let (releaseName, environment) ← attrsValues (jsonObject.objectForKey "attrs")
  let timestamp := match jsonObject.objectForKey "timestamp" with
    | some (.string timestamp) => dates.fromIso8601String timestamp
    | _ => none
  return some {
    sessionId := sessionId
    started := startedDate
    status := status
    errors := counterValue errors
    sequence := counterValue seq
    distinctId := did
    flagInit := numberValue (jsonObject.objectForKey "init")
    timestamp := timestamp
    duration := numberValue (jsonObject.objectForKey "duration")
    releaseName := releaseName
    environment := environment }

/-- A stored session without a release name is dropped. -/
def sessionWithData (sessionDictionary : NSDictionary Value) :
    Except Fault (Option SentrySession) := do
  let some session ← initWithJSONObject dates sessionDictionary | return none
  if session.releaseName = none ∨ session.releaseName = some "" then return none
  return some session

theorem statusForName_nameForSentrySessionStatus (status : SentrySessionStatus) :
    statusForName (nameForSentrySessionStatus status) = some status := by
  cases status <;> decide

@[simp] theorem counterValue_natCast (n : Nat) : counterValue (.integer n) = n := rfl

/-- What `serialize` leaves of a session. -/
def stored (s : SentrySession) (date : NSDate) : SentrySession :=
  { s with
    flagInit := s.flagInit.map fun flag => .bool flag.boolValue
    timestamp := some (s.timestamp.getD date)
    duration := s.writtenDuration }

theorem attrsValues_attrs (s : SentrySession) :
    attrsValues s.attrs = .ok (s.releaseName, s.environment) := by
  unfold attrs
  split
  · unfold attrsValues attrsValue Value.ofDictionary
    simp only [Value.lookup_ofDictionary, objectForKey_insertIfPresent, objectForKey_empty]
    cases s.releaseName <;> cases s.environment <;> rfl
  · rename_i hnone
    simp only [not_or, Bool.not_eq_true, Option.isSome_eq_false_iff, Option.isNone_iff_eq_none]
      at hnone
    rw [hnone.1, hnone.2]
    rfl

theorem initWithJSONObject_serialize (s : SentrySession) (date : NSDate) :
    initWithJSONObject dates (s.serialize dates date) = .ok (some (s.stored date)) := by
  unfold initWithJSONObject serialize
  simp only [objectForKey_insert, objectForKey_insertIfPresent, objectForKey_empty, String.reduceEq,
    if_true, if_false, NSUUID.initWithUUIDString_UUIDString, attrsValues_attrs, Option.or_none,
    dates.fromIso8601String_toIso8601String, statusForName_nameForSentrySessionStatus]
  cases hflag : s.flagInit <;> cases hduration : s.writtenDuration <;>
    simp only [Option.map_none, Option.map_some, numberValue, counterValue_natCast, stored, hflag,
      hduration] <;> rfl

/-- A session with a release name survives in its file. -/
theorem sessionWithData_serialize (s : SentrySession) (date : NSDate) :
    sessionWithData dates (s.serialize dates date) =
      .ok (if s.releaseName = none ∨ s.releaseName = some "" then none else some (s.stored date)) := by
  unfold sessionWithData
  rw [initWithJSONObject_serialize]
  change (if s.releaseName = none ∨ s.releaseName = some "" then _ else _) = _
  split <;> rfl

/-! A session that is read again continues the stored one. -/

theorem serialize_stored (s : SentrySession) (date date' : NSDate) :
    (s.stored date).serialize dates date' = s.serialize dates date := by
  have hduration : (s.stored date).writtenDuration = s.writtenDuration := by
    unfold stored writtenDuration
    cases s.duration <;> cases s.flagInit <;> rfl
  have hflag : ((s.stored date).flagInit.map fun flag => Value.number (.bool flag.boolValue)) =
      s.flagInit.map fun flag => .number (.bool flag.boolValue) := by
    unfold stored
    cases s.flagInit with
    | none => rfl
    | some flag => cases hbool : flag.boolValue <;> simp [hbool] <;> rfl
  unfold serialize
  rw [hduration, hflag]
  rfl

inductive SessionChange where
  | incrementErrors
  | endSessionExited (timestamp : NSDate)
  | endSessionCrashed (timestamp : NSDate)
  | endSessionAbnormal (timestamp : NSDate)
  | setFlagInit
  | setEnvironment (environment : Option String)

def change (s : SentrySession) : SessionChange → SentrySession
  | .incrementErrors => s.incrementErrors
  | .endSessionExited timestamp => s.endSessionExitedWithTimestamp timestamp
  | .endSessionCrashed timestamp => s.endSessionCrashedWithTimestamp timestamp
  | .endSessionAbnormal timestamp => s.endSessionAbnormalWithTimestamp timestamp
  | .setFlagInit => s.setFlagInit
  | .setEnvironment environment => { s with environment := environment }

/-- The flag is never false, and a session that has ended knows when. -/
structure Consistent (s : SentrySession) : Prop where
  flagInit : s.flagInit = none ∨ s.flagInit = some (.bool true)
  ended : s.status.terminal → s.timestamp.isSome ∧ s.duration.isSome

theorem Consistent.change {s : SentrySession} (h : s.Consistent) (c : SessionChange) :
    (s.change c).Consistent := by
  cases c with
  | incrementErrors => exact ⟨.inl rfl, h.ended⟩
  | endSessionExited timestamp => exact ⟨.inl rfl, fun _ => ⟨rfl, rfl⟩⟩
  | endSessionCrashed timestamp => exact ⟨.inl rfl, fun _ => ⟨rfl, rfl⟩⟩
  | endSessionAbnormal timestamp => exact ⟨.inl rfl, fun _ => ⟨rfl, rfl⟩⟩
  | setFlagInit => exact ⟨.inr rfl, h.ended⟩
  | setEnvironment environment => exact ⟨h.flagInit, h.ended⟩

theorem Consistent.run {s : SentrySession} (h : s.Consistent) (changes : List SessionChange) :
    (changes.foldl SentrySession.change s).Consistent := by
  induction changes generalizing s with
  | nil => exact h
  | cons c changes ih => exact ih (h.change c)

/-- The session that was read is the one that was written. -/
structure Continues (s s' : SentrySession) : Prop where
  sessionId : s'.sessionId = s.sessionId
  started : s'.started = s.started
  status : s'.status = s.status
  sequence : s'.sequence = s.sequence
  errors : s'.errors = s.errors
  distinctId : s'.distinctId = s.distinctId
  flagInit : s'.flagInit = s.flagInit
  releaseName : s'.releaseName = s.releaseName
  environment : s'.environment = s.environment
  ended : s.status.terminal → s'.timestamp = s.timestamp ∧ s'.duration = s.duration

theorem Consistent.continues_stored {s : SentrySession} (h : s.Consistent) (date : NSDate) :
    s.Continues (s.stored date) := by
  have hflag : (s.stored date).flagInit = s.flagInit := by
    unfold stored
    rcases h.flagInit with hnone | htrue
    · rw [hnone]
      rfl
    · rw [htrue]
      rfl
  refine ⟨rfl, rfl, rfl, rfl, rfl, rfl, hflag, rfl, rfl, fun hended => ?_⟩
  obtain ⟨htimestamp, hduration⟩ := h.ended hended
  obtain ⟨timestamp, htimestamp⟩ := Option.isSome_iff_exists.1 htimestamp
  obtain ⟨duration, hduration⟩ := Option.isSome_iff_exists.1 hduration
  unfold stored writtenDuration
  rw [htimestamp, hduration]
  exact ⟨rfl, rfl⟩

theorem reread_continues (sessionId : NSUUID) (started : NSDate) (releaseName distinctId : String)
    (changes : List SessionChange) (date : NSDate) :
    let s := changes.foldl change (initWithReleaseName sessionId started releaseName distinctId)
    ∃ s', initWithJSONObject dates (s.serialize dates date) = .ok (some s') ∧ s.Continues s' ∧
      ∀ date', s'.serialize dates date' = s.serialize dates date := by
  intro s
  have hfresh : (initWithReleaseName sessionId started releaseName distinctId).Consistent :=
    ⟨.inr rfl, fun hended => (hended rfl).elim⟩
  have hs : s.Consistent := hfresh.run changes
  exact ⟨s.stored date, s.initWithJSONObject_serialize dates date, hs.continues_stored date,
    s.serialize_stored dates date⟩

end Dictionary

end SentrySession

end SentryCocoa.Session
