import SentryCocoa.DataCategory
import SentryCocoa.Serialization
import SentryCocoa.Library.Machine
import SentryCocoa.Library.Watermark

/-! The limits that the server sets. Dates are any linear order: nothing but their order
is used, and how an interval is added to one is up to the platform. -/
namespace SentryCocoa.RateLimits
open SentryCocoa.Foundation SentryCocoa.DataCategory SentryCocoa.Library.Machine
open SentryCocoa.Library.Watermark SentryCocoa.Serialization

/-- A number that was read from a text, as the two types in which it is used. -/
structure ParsedNumber where
  intValue : Int
  doubleValue : ℚ

/-- The parts of the platform that read and add. -/
structure Platform (Date : Type) where
  numberFromString : List Char → Option ParsedNumber
  integerValue : String → Int
  httpDateFromString : String → Option Date
  dateByAddingTimeInterval : Date → ℚ → Date
  whitespaceAndNewlineCharacterSet : Char → Bool

structure NSHTTPURLResponse where
  statusCode : Int
  allHeaderFields : String → Option String

variable {Date : Type} [LinearOrder Date] (platform : Platform Date)

/-- The first date wins only when it is later. -/
def getMaximumDate (first second : Option Date) : Option Date :=
  match first, second with
  | none, none => none
  | none, some second => some second
  | some first, none => some first
  | some first, some second => if second < first then some first else some second

def isInFuture (now : Date) (date : Option Date) : Bool :=
  match date with
  | none => false
  | some date => now < date

/-! The headers. -/

def removeAllWhitespaces (string : List Char) : List Char :=
  string.filter fun c => !platform.whitespaceAndNewlineCharacterSet c

def parseCategories (categoriesAsString : List Char) : List SentryDataCategory :=
  ((categoriesAsString.splitOn ';').map fun categoryAsString =>
    sentryDataCategoryForString (String.ofList categoryAsString)).filter fun category =>
      category ≠ .unknown ∧ category ≠ .userFeedback

/-- Whether a category of a quota is limited. The namespaces are those of metrics only. -/
def quotaApplies (parameters : List (List Char)) (category : SentryDataCategory) : Bool :=
  if category = .metricBucket ∧ parameters.length > 4 then
    let namespacesAsString := parameters.getD 4 []
    namespacesAsString.length = 0 || (namespacesAsString.splitOn ';').contains "custom".toList
  else true

/-- The categories of a quota and their interval. A quota without categories is a range
exception. -/
def parseQuota (quota : List Char) : Except Fault (List (SentryDataCategory × ℚ)) :=
  let parameters := quota.splitOn ':'
  match platform.numberFromString (parameters.getD 0 []) with
  | none => pure []
  | some rateLimitInSeconds =>
    if rateLimitInSeconds.intValue ≤ 0 then pure []
    else match parameters[1]? with
      | none => throw .exception
      | some categoriesAsString =>
        pure (((parseCategories categoriesAsString).filter (quotaApplies parameters)).map
          fun category => (category, rateLimitInSeconds.doubleValue))

def quotas (header : String) : List (List Char) :=
  (removeAllWhitespaces platform header.toList).splitOn ','

abbrev RateLimitsDictionary (Date : Type) := AList fun _ : SentryDataCategory => Date

def getLongerRateLimit (now : Date) (existingRateLimit : Option Date)
    (newRateLimitInSeconds : ℚ) : Option Date :=
  getMaximumDate (some (platform.dateByAddingTimeInterval now newRateLimitInSeconds))
    existingRateLimit

/-- A nil object removes the entry of its key. -/
def setObject (rateLimits : RateLimitsDictionary Date) (category : SentryDataCategory)
    (date : Option Date) : RateLimitsDictionary Date :=
  match date with
  | none => rateLimits.erase category
  | some date => rateLimits.insert category date

def parseQuotaInto (now : Date) (rateLimits : RateLimitsDictionary Date) (quota : List Char) :
    Except Fault (RateLimitsDictionary Date) := do
  let limits ← parseQuota platform quota
  pure (limits.foldl (fun rateLimits limit =>
    setObject rateLimits limit.1
      (getLongerRateLimit platform now (rateLimits.lookup limit.1) limit.2)) rateLimits)

def parse (now : Date) (header : String) : Except Fault (RateLimitsDictionary Date) :=
  if header.length = 0 then pure ∅
  else (quotas platform header).foldlM (parseQuotaInto platform now) ∅

/-- A number of seconds other than zero, or a date. -/
def parseRetryAfter (now : Date) (retryAfterHeader : Option String) : Option Date :=
  match retryAfterHeader with
  | none => none
  | some header =>
    if header.length = 0 then none
    else
      let retryAfterSeconds := platform.integerValue header
      if retryAfterSeconds ≠ 0 then
        some (platform.dateByAddingTimeInterval now retryAfterSeconds)
      else platform.httpDateFromString header

/-! `SentryDefaultRateLimits`. -/

def updateRateLimit (rateLimits : RateLimitsDictionary Date) (category : SentryDataCategory)
    (newDate : Date) : RateLimitsDictionary Date :=
  setObject rateLimits category (getMaximumDate (rateLimits.lookup category) (some newDate))

def update (now : Date) (response : NSHTTPURLResponse) (rateLimits : RateLimitsDictionary Date) :
    Except Fault (RateLimitsDictionary Date) :=
  match response.allHeaderFields "X-Sentry-Rate-Limits" with
  | some rateLimitsHeader => do
    let limits ← parse platform now rateLimitsHeader
    pure (limits.entries.foldl (fun rateLimits limit =>
      updateRateLimit rateLimits (sentryDataCategoryForNSUInteger limit.1.rawValue) limit.2)
      rateLimits)
  | none =>
    if response.statusCode = 429 then
      let retryAfterHeaderDate := parseRetryAfter platform now
        (response.allHeaderFields "Retry-After")
      pure (updateRateLimit rateLimits .all
        (retryAfterHeaderDate.getD (platform.dateByAddingTimeInterval now 60)))
    else pure rateLimits

def isRateLimitActive (rateLimits : RateLimitsDictionary Date) (category : SentryDataCategory)
    (now : Date) : Bool :=
  isInFuture now (rateLimits.lookup category) || isInFuture now (rateLimits.lookup .all)

/-! What the server asks for. -/

def limitsOfQuota (now : Date) (quota : List Char) : List (SentryDataCategory × Date) :=
  match parseQuota platform quota with
  | .error _ => []
  | .ok limits => limits.map fun limit =>
    (limit.1, platform.dateByAddingTimeInterval now limit.2)

/-- The categories that a response limits, each with the end of its limit. -/
def limitsOf (now : Date) (response : NSHTTPURLResponse) : List (SentryDataCategory × Date) :=
  match response.allHeaderFields "X-Sentry-Rate-Limits" with
  | some header =>
    if header.length = 0 then []
    else (quotas platform header).flatMap (limitsOfQuota platform now)
  | none =>
    if response.statusCode = 429 then
      [(.all, (parseRetryAfter platform now (response.allHeaderFields "Retry-After")).getD
        (platform.dateByAddingTimeInterval now 60))]
    else []

/-- The limits, and the responses that they come from with their dates. -/
structure ProcessedResponses (Date : Type) where
  rateLimits : RateLimitsDictionary Date
  responses : List (Date × NSHTTPURLResponse)

/-- The clock does not go back. An exception ends the run. -/
def step (s : ProcessedResponses Date) (input : Date × NSHTTPURLResponse) :
    Option (ProcessedResponses Date) :=
  if ∀ earlier ∈ s.responses, earlier.1 ≤ input.1 then
    match update platform input.1 input.2 s.rateLimits with
    | .ok rateLimits => some ⟨rateLimits, s.responses ++ [input]⟩
    | .error _ => none
  else none

/-- A category is limited as long as some response says so. -/
def Exact (s : ProcessedResponses Date) : Prop :=
  ∀ category now, isRateLimitActive s.rateLimits category now = true ↔
    ∃ input ∈ s.responses, ∃ limit ∈ limitsOf platform input.1 input.2,
      (limit.1 = category ∨ limit.1 = .all) ∧ now < limit.2

/-! The dictionary keeps the latest date of a category. -/

theorem setObject_getMaximumDate (rateLimits : RateLimitsDictionary Date)
    (category : SentryDataCategory) (newDate : Date) :
    updateRateLimit rateLimits category newDate = Marks.raise rateLimits category newDate := by
  unfold updateRateLimit Marks.raise
  cases rateLimits.lookup category with
  | none => rfl
  | some existing =>
    simp only [getMaximumDate, Option.elim_some]
    split
    · next h => rw [setObject, max_eq_left h.le]
    · next h => rw [setObject, max_eq_right (not_lt.mp h)]

theorem setObject_getLongerRateLimit (now : Date) (rateLimits : RateLimitsDictionary Date)
    (category : SentryDataCategory) (seconds : ℚ) :
    setObject rateLimits category
        (getLongerRateLimit platform now (rateLimits.lookup category) seconds) =
      Marks.raise rateLimits category (platform.dateByAddingTimeInterval now seconds) := by
  unfold getLongerRateLimit Marks.raise
  cases rateLimits.lookup category with
  | none => rfl
  | some existing =>
    simp only [getMaximumDate, Option.elim_some]
    split
    · next h => rw [setObject, max_eq_right h.le]
    · next h => rw [setObject, max_eq_left (not_lt.mp h)]

theorem isRateLimitActive_iff (rateLimits : RateLimitsDictionary Date)
    (category : SentryDataCategory) (now : Date) :
    isRateLimitActive rateLimits category now = true ↔
      Marks.Covers rateLimits category now ∨ Marks.Covers rateLimits .all now := by
  have hfuture : ∀ category, isInFuture now (rateLimits.lookup category) = true ↔
      Marks.Covers rateLimits category now := by
    intro category
    unfold Marks.Covers
    cases rateLimits.lookup category <;> simp [isInFuture]
  rw [isRateLimitActive, Bool.or_eq_true, hfuture, hfuture]

/-! One response. -/

theorem parseQuotaInto_eq {now : Date} {rateLimits rateLimits' : RateLimitsDictionary Date}
    {quota : List Char} (h : parseQuotaInto platform now rateLimits quota = .ok rateLimits') :
    rateLimits' = Marks.raiseAll rateLimits (limitsOfQuota platform now quota) := by
  unfold parseQuotaInto at h
  unfold limitsOfQuota
  cases hquota : parseQuota platform quota with
  | error fault =>
    rw [hquota] at h
    cases h
  | ok limits =>
    rw [hquota] at h
    cases h
    simp only [setObject_getLongerRateLimit, Marks.raiseAll, List.foldl_map]

theorem foldlM_parseQuotaInto_eq {now : Date} {rateLimits rateLimits' : RateLimitsDictionary Date}
    {quotas : List (List Char)}
    (h : quotas.foldlM (parseQuotaInto platform now) rateLimits = .ok rateLimits') :
    rateLimits' = Marks.raiseAll rateLimits (quotas.flatMap (limitsOfQuota platform now)) := by
  induction quotas generalizing rateLimits with
  | nil =>
    cases h
    rfl
  | cons quota quotas ih =>
    rw [List.foldlM_cons] at h
    cases hquota : parseQuotaInto platform now rateLimits quota with
    | error fault =>
      rw [hquota] at h
      cases h
    | ok next =>
      rw [hquota] at h
      rw [ih h, parseQuotaInto_eq platform hquota, List.flatMap_cons, Marks.raiseAll_append]

theorem covers_updateRateLimits (limits rateLimits : RateLimitsDictionary Date)
    (category : SentryDataCategory) (date : Date) :
    Marks.Covers (limits.entries.foldl (fun rateLimits limit =>
        updateRateLimit rateLimits (sentryDataCategoryForNSUInteger limit.1.rawValue) limit.2)
        rateLimits) category date ↔
      Marks.Covers limits category date ∨ Marks.Covers rateLimits category date := by
  have hraise : limits.entries.foldl (fun rateLimits limit =>
        updateRateLimit rateLimits (sentryDataCategoryForNSUInteger limit.1.rawValue) limit.2)
        rateLimits =
      Marks.raiseAll rateLimits (limits.entries.map fun limit => (limit.1, limit.2)) := by
    simp only [sentryDataCategoryForNSUInteger_rawValue, setObject_getMaximumDate, Marks.raiseAll,
      List.foldl_map]
  rw [hraise, Marks.covers_raiseAll, ← Marks.exists_entries_iff limits]
  simp only [List.mem_map, exists_exists_and_eq_and]

/-- A response covers what it asks for, and nothing that was covered is lost. -/
theorem covers_update {now : Date} {response : NSHTTPURLResponse}
    {rateLimits rateLimits' : RateLimitsDictionary Date}
    (h : update platform now response rateLimits = .ok rateLimits')
    (category : SentryDataCategory) (date : Date) :
    Marks.Covers rateLimits' category date ↔
      (∃ limit ∈ limitsOf platform now response, limit.1 = category ∧ date < limit.2) ∨
        Marks.Covers rateLimits category date := by
  unfold update at h
  unfold limitsOf
  cases hheader : response.allHeaderFields "X-Sentry-Rate-Limits" with
  | some header =>
    rw [hheader] at h
    dsimp only at h ⊢
    have hparse : ∀ limits, parse platform now header = .ok limits →
        limits = Marks.raiseAll ∅ (if header.length = 0 then [] else
          (quotas platform header).flatMap (limitsOfQuota platform now)) := by
      intro limits hlimits
      unfold parse at hlimits
      split at hlimits
      · next hempty =>
        cases hlimits
        rw [if_pos hempty]
        rfl
      · next hnonempty =>
        rw [if_neg hnonempty]
        exact foldlM_parseQuotaInto_eq platform hlimits
    cases hlimits : parse platform now header with
    | error fault =>
      rw [hlimits] at h
      cases h
    | ok limits =>
      rw [hlimits] at h
      cases h
      rw [covers_updateRateLimits, hparse limits hlimits, Marks.covers_raiseAll]
      simp
  | none =>
    rw [hheader] at h
    dsimp only at h ⊢
    split at h
    · next hcode =>
      cases h
      rw [if_pos hcode, setObject_getMaximumDate, Marks.covers_raise]
      simp
    · next hcode =>
      cases h
      rw [if_neg hcode]
      simp

/-! All responses. -/

def Inv (s : ProcessedResponses Date) : Prop :=
  ∀ category date, Marks.Covers s.rateLimits category date ↔
    ∃ input ∈ s.responses, ∃ limit ∈ limitsOf platform input.1 input.2,
      limit.1 = category ∧ date < limit.2

theorem Inv.exact {s : ProcessedResponses Date} (inv : Inv platform s) : Exact platform s := by
  intro category now
  rw [isRateLimitActive_iff, inv category now, inv .all now]
  constructor
  · rintro (⟨input, hinput, limit, hlimit, heq, hnow⟩ | ⟨input, hinput, limit, hlimit, heq, hnow⟩)
    · exact ⟨input, hinput, limit, hlimit, Or.inl heq, hnow⟩
    · exact ⟨input, hinput, limit, hlimit, Or.inr heq, hnow⟩
  · rintro ⟨input, hinput, limit, hlimit, heq | heq, hnow⟩
    · exact Or.inl ⟨input, hinput, limit, hlimit, heq, hnow⟩
    · exact Or.inr ⟨input, hinput, limit, hlimit, heq, hnow⟩

theorem step_inv {s s' : ProcessedResponses Date} {input : Date × NSHTTPURLResponse}
    (inv : Inv platform s) (h : step platform s input = some s') : Inv platform s' := by
  obtain ⟨-, hupdate⟩ := Option.ite_none_right_eq_some.mp h
  cases hlimits : update platform input.1 input.2 s.rateLimits with
  | error fault =>
    rw [hlimits] at hupdate
    cases hupdate
  | ok rateLimits =>
    rw [hlimits] at hupdate
    cases hupdate
    intro category date
    rw [covers_update platform hlimits, inv category date]
    simp only [List.mem_append, List.mem_singleton, or_and_right, exists_or, exists_eq_left]
    exact or_comm

/-- In every run a category is limited exactly as long as some processed response asked for. -/
theorem always_exact (inputs : List (Date × NSHTTPURLResponse)) :
    Always (step platform) (Exact platform) ⟨∅, []⟩ inputs := by
  have start : Inv platform (⟨∅, []⟩ : ProcessedResponses Date) := by
    intro category date
    simp
  exact always_of_invariant (fun _ inv => Inv.exact platform inv)
    (fun _ _ _ inv h => step_inv platform inv h) start inputs

end SentryCocoa.RateLimits
