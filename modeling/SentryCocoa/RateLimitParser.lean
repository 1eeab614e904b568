import Mathlib.Algebra.Order.Ring.Unbundled.Rat
import SentryCocoa.RateLimits

/-! What the header of the rate limits means, quota by quota, and when the parser takes it
so: its 32 bit comparison drops long limits, an empty name beside others stands for all
categories, and a quota without a colon is a range exception. -/
namespace SentryCocoa.RateLimits
open SentryCocoa.Foundation SentryCocoa.DataCategory
open SentryCocoa.Library.Watermark SentryCocoa.Serialization

/-- A later interval does not end earlier. -/
structure LawfulPlatform (Date : Type) [LinearOrder Date] extends Platform Date where
  monotone : ∀ now, Monotone (dateByAddingTimeInterval now)

/-! The fields of a quota. -/

def parameters (quota : List Char) : List (List Char) := quota.splitOn ':'

def rateLimitInSeconds {Date : Type} (platform : Platform Date) (quota : List Char) :
    Option ParsedNumber :=
  platform.numberFromString ((parameters quota).getD 0 [])

/-- An empty header has no quotas, not even an empty one. -/
def quotasOf {Date : Type} (platform : Platform Date) (header : String) : List (List Char) :=
  if header.length = 0 then [] else quotas platform header

/-- The namespaces of a quota are empty when it does not have them. -/
def AppliesToMetrics (quota : List Char) : Prop :=
  (parameters quota).getD 4 [] = [] ∨
    "custom".toList ∈ ((parameters quota).getD 4 []).splitOn ';'

/-- The names that stand for a category of limits. -/
def IsName (name : List Char) (category : SentryDataCategory) : Prop :=
  name = (nameForSentryDataCategory category).toList ∧ category ≠ .unknown ∧
    category ≠ .userFeedback

/-- Some field of the list of categories is the name of the category. -/
def Lists (quota : List Char) (category : SentryDataCategory) : Prop :=
  ∃ categoriesAsString, (parameters quota)[1]? = some categoriesAsString ∧
    (∃ name ∈ categoriesAsString.splitOn ';', IsName name category) ∧
    (category = .metricBucket → AppliesToMetrics quota)

/-- All categories are meant by an empty list only, not by an empty field in a longer one. -/
def Names (quota : List Char) (category : SentryDataCategory) : Prop :=
  Lists quota category ∧ (category = .all → (parameters quota)[1]? = some [])

section
variable {Date : Type} (platform : Platform Date)

/-- The quota asks to limit the category for a positive number of seconds. -/
def Asks (quota : List Char) (category : SentryDataCategory) (seconds : ℚ) : Prop :=
  ∃ number, rateLimitInSeconds platform quota = some number ∧ 0 < number.doubleValue ∧
    Names quota category ∧ seconds = number.doubleValue

/-- What the parser takes from a quota, where the number is compared as 32 bits. -/
def Takes (quota : List Char) (category : SentryDataCategory) (seconds : ℚ) : Prop :=
  ∃ number, rateLimitInSeconds platform quota = some number ∧ 0 < number.intValue ∧
    Lists quota category ∧ seconds = number.doubleValue

/-- The indices at which the parser reads the fields of a quota. -/
def usedIndices (quota : List Char) : List Nat :=
  match rateLimitInSeconds platform quota with
  | none => [0]
  | some number =>
    if number.intValue ≤ 0 then [0]
    else if .metricBucket ∈ parseCategories ((parameters quota).getD 1 []) ∧
        (parameters quota).length > 4 then [0, 1, 4]
    else [0, 1]

/-- Every quota whose number is taken for positive has a colon. -/
def HasColons (header : String) : Prop :=
  ∀ quota ∈ quotasOf platform header, ∀ number,
    rateLimitInSeconds platform quota = some number → 0 < number.intValue → ':' ∈ quota

end

/-- What the server asks for is what the parser takes, up to limits that others outdo. -/
structure TakenAsAsked {Date : Type} [LinearOrder Date] (platform : Platform Date) (now : Date)
    (header : String) : Prop where
  colons : HasColons platform header
  /-- A limit too long for 32 bits is outdone by another of its category. -/
  skipped : ∀ quota ∈ quotasOf platform header, ∀ number,
    rateLimitInSeconds platform quota = some number → number.intValue ≤ 0 →
    0 < number.doubleValue → ∀ category, Names quota category →
    ∃ quota' ∈ quotasOf platform header, ∃ seconds, Takes platform quota' category seconds ∧
      platform.dateByAddingTimeInterval now number.doubleValue ≤
        platform.dateByAddingTimeInterval now seconds
  /-- So is a negative one that 32 bits make positive, and one of an empty field. -/
  unasked : ∀ quota ∈ quotasOf platform header, ∀ number,
    rateLimitInSeconds platform quota = some number → 0 < number.intValue →
    ∀ category, Lists quota category → number.doubleValue ≤ 0 ∨ ¬ Names quota category →
    ∃ quota' ∈ quotasOf platform header, ∃ seconds, Asks platform quota' category seconds ∧
      platform.dateByAddingTimeInterval now number.doubleValue ≤
        platform.dateByAddingTimeInterval now seconds

/-- The parsed limits are exactly the longest ones that the header asks for. -/
def ParsesExactly {Date : Type} [LinearOrder Date] (platform : Platform Date) (now : Date)
    (header : String) : Prop :=
  ∃ limits, parse platform now header = .ok limits ∧ ∀ category date,
    limits.lookup category = some date ↔
      ∃ seconds, IsGreatest
          {seconds | ∃ quota ∈ quotasOf platform header, Asks platform quota category seconds}
          seconds ∧
        date = platform.dateByAddingTimeInterval now seconds

/-! The names of the categories. -/

theorem sentryDataCategoryForString_eq_iff {name : List Char} {category : SentryDataCategory}
    (h : category ≠ .unknown) :
    sentryDataCategoryForString (String.ofList name) = category ↔
      name = (nameForSentryDataCategory category).toList := by
  constructor
  · intro hname
    unfold sentryDataCategoryForString at hname
    cases hfind : categories.find? fun category =>
        nameForSentryDataCategory category == String.ofList name with
    | none =>
      rw [hfind] at hname
      exact absurd hname.symm h
    | some found =>
      rw [hfind, Option.getD_some] at hname
      have heq := List.find?_some hfind
      rw [beq_iff_eq, hname] at heq
      rw [heq, String.toList_ofList]
  · rintro rfl
    rw [String.ofList_toList]
    cases category with
    | unknown => exact absurd rfl h
    | _ => rfl

theorem mem_parseCategories {categoriesAsString : List Char} {category : SentryDataCategory} :
    category ∈ parseCategories categoriesAsString ↔
      ∃ name ∈ categoriesAsString.splitOn ';', IsName name category := by
  simp only [parseCategories, List.mem_filter, List.mem_map, decide_eq_true_eq, IsName]
  constructor
  · rintro ⟨⟨name, hname, heq⟩, hunknown, hfeedback⟩
    exact ⟨name, hname, (sentryDataCategoryForString_eq_iff hunknown).mp heq, hunknown, hfeedback⟩
  · rintro ⟨name, hname, heq, hunknown, hfeedback⟩
    exact ⟨⟨name, hname, (sentryDataCategoryForString_eq_iff hunknown).mpr heq⟩, hunknown,
      hfeedback⟩

theorem quotaApplies_iff {quota : List Char} {category : SentryDataCategory} :
    quotaApplies (parameters quota) category = true ↔
      (category = .metricBucket → AppliesToMetrics quota) := by
  unfold quotaApplies AppliesToMetrics
  by_cases hmetrics : category = .metricBucket
  · by_cases hlength : (parameters quota).length > 4
    · simp [hmetrics, hlength]
    · simp [hmetrics, hlength]
  · simp [hmetrics]

/-! A quota has a second field when it has a colon. -/

theorem one_lt_length_parameters {quota : List Char} :
    1 < (parameters quota).length ↔ ':' ∈ quota := by
  unfold parameters
  constructor
  · intro h
    by_contra hcolon
    rw [List.splitOn_eq_singleton hcolon] at h
    simp at h
  · intro h
    obtain ⟨first, rest, rfl, hfirst⟩ := List.eq_append_cons_of_mem h
    rw [List.splitOn_append_cons_self_of_not_mem hfirst, List.length_cons]
    have hrest := List.length_pos_iff.mpr (List.splitOn_ne_nil ':' rest)
    omega

theorem parameters_ne_nil (quota : List Char) : parameters quota ≠ [] :=
  List.splitOn_ne_nil ':' quota

/-! One quota. -/

section
variable {Date : Type} (platform : Platform Date)

theorem parseQuota_eq_pure {quota : List Char}
    (h : ∀ number, rateLimitInSeconds platform quota = some number → ¬ 0 < number.intValue) :
    parseQuota platform quota = .ok [] := by
  unfold parseQuota
  unfold rateLimitInSeconds parameters at h
  dsimp only
  split
  · rfl
  · next number hnumber =>
    rw [if_pos (not_lt.mp (h number hnumber))]
    rfl

theorem parseQuota_eq_match {quota : List Char} {number : ParsedNumber}
    (h : rateLimitInSeconds platform quota = some number) (hpositive : 0 < number.intValue) :
    parseQuota platform quota = match (parameters quota)[1]? with
      | none => .error .exception
      | some categoriesAsString =>
        .ok (((parseCategories categoriesAsString).filter (quotaApplies (parameters quota))).map
          fun category => (category, number.doubleValue)) := by
  unfold parseQuota
  unfold rateLimitInSeconds at h
  unfold parameters at h ⊢
  dsimp only
  rw [h]
  dsimp only
  rw [if_neg (not_le.mpr hpositive)]
  rfl

theorem parseQuota_eq_ok_iff (quota : List Char) :
    (∃ limits, parseQuota platform quota = .ok limits) ↔
      ∀ number, rateLimitInSeconds platform quota = some number → 0 < number.intValue →
        ':' ∈ quota := by
  by_cases h : ∃ number, rateLimitInSeconds platform quota = some number ∧ 0 < number.intValue
  · obtain ⟨number, hnumber, hpositive⟩ := h
    rw [parseQuota_eq_match platform hnumber hpositive, ← one_lt_length_parameters]
    simp only [hnumber, Option.some.injEq, forall_eq', hpositive, forall_const]
    cases hfield : (parameters quota)[1]? with
    | none =>
      have hlength := List.getElem?_eq_none_iff.mp hfield
      simp [hlength]
    | some categoriesAsString =>
      have hlength := (List.getElem?_eq_some_iff.mp hfield).1
      simp [hlength]
  · have hpure : ∀ number, rateLimitInSeconds platform quota = some number →
        ¬ 0 < number.intValue := fun number hnumber hpositive => h ⟨number, hnumber, hpositive⟩
    rw [parseQuota_eq_pure platform hpure]
    simp only [Except.ok.injEq, exists_eq', true_iff]
    intro number hnumber hpositive
    exact absurd hpositive (hpure number hnumber)

/-- The parser raises when, and only when, it reads a field that is not there. -/
theorem parseQuota_eq_ok_iff_indices (quota : List Char) :
    (∃ limits, parseQuota platform quota = .ok limits) ↔
      ∀ index ∈ usedIndices platform quota, index < (parameters quota).length := by
  have hzero : 0 < (parameters quota).length :=
    List.length_pos_iff.mpr (parameters_ne_nil quota)
  rw [parseQuota_eq_ok_iff]
  unfold usedIndices
  cases hnumber : rateLimitInSeconds platform quota with
  | none => simp [hzero]
  | some number =>
    by_cases hpositive : number.intValue ≤ 0
    · simp [hpositive, hzero]
    · simp only [Option.some.injEq, forall_eq', hpositive, if_false, ← one_lt_length_parameters]
      have hlt : 0 < number.intValue := not_le.mp hpositive
      split
      · next hmetrics =>
        simp [hlt, hzero]
        omega
      · simp [hlt, hzero]

theorem mem_limitsOfQuota (now : Date) (quota : List Char) (category : SentryDataCategory)
    (date : Date) :
    (category, date) ∈ limitsOfQuota platform now quota ↔
      ∃ seconds, Takes platform quota category seconds ∧
        date = platform.dateByAddingTimeInterval now seconds := by
  unfold limitsOfQuota
  by_cases h : ∃ number, rateLimitInSeconds platform quota = some number ∧ 0 < number.intValue
  · obtain ⟨number, hnumber, hpositive⟩ := h
    rw [parseQuota_eq_match platform hnumber hpositive]
    simp only [Takes, hnumber, Option.some.injEq, exists_eq_left', hpositive, true_and, Lists]
    cases hfield : (parameters quota)[1]? with
    | none => simp
    | some categoriesAsString =>
      simp only [Option.some.injEq, exists_eq_left', List.mem_map, List.mem_filter,
        mem_parseCategories, quotaApplies_iff, Prod.mk.injEq]
      constructor
      · rintro ⟨limit, ⟨category', hlists, rfl⟩, rfl, rfl⟩
        exact ⟨number.doubleValue, ⟨hlists, rfl⟩, rfl⟩
      · rintro ⟨seconds, ⟨hlists, rfl⟩, rfl⟩
        exact ⟨(category, number.doubleValue), ⟨category, hlists, rfl⟩, rfl, rfl⟩
  · rw [parseQuota_eq_pure platform fun number hnumber hpositive =>
      h ⟨number, hnumber, hpositive⟩]
    simp only [List.map_nil, List.not_mem_nil, false_iff]
    rintro ⟨seconds, ⟨number, hnumber, hpositive, -⟩, -⟩
    exact h ⟨number, hnumber, hpositive⟩

/-! The whole header. -/

theorem foldlM_parseQuotaInto_eq_ok_iff [LinearOrder Date] (now : Date)
    (quotas : List (List Char)) (rateLimits : RateLimitsDictionary Date) :
    (∃ limits, quotas.foldlM (parseQuotaInto platform now) rateLimits = .ok limits) ↔
      ∀ quota ∈ quotas, ∃ limits, parseQuota platform quota = .ok limits := by
  induction quotas generalizing rateLimits with
  | nil => simp [pure, Except.pure]
  | cons quota quotas ih =>
    rw [List.foldlM_cons, List.forall_mem_cons]
    unfold parseQuotaInto
    cases hquota : parseQuota platform quota with
    | error fault => simp [bind, Except.bind]
    | ok limits =>
      simp only [Except.ok.injEq, exists_eq', true_and]
      exact ih _

theorem parse_eq_foldlM [LinearOrder Date] (now : Date) (header : String) :
    parse platform now header =
      (quotasOf platform header).foldlM (parseQuotaInto platform now) ∅ := by
  unfold parse quotasOf
  split <;> rfl

theorem parse_eq_ok_iff [LinearOrder Date] (now : Date) (header : String) :
    (∃ limits, parse platform now header = .ok limits) ↔
      ∀ quota ∈ quotasOf platform header, ∃ limits, parseQuota platform quota = .ok limits := by
  rw [parse_eq_foldlM]
  exact foldlM_parseQuotaInto_eq_ok_iff platform now _ ∅

end

/-- The parser returns, and reads no field that is not there, exactly when every quota with
a positive number has a colon. -/
theorem parse_returns_iff {Date : Type} [LinearOrder Date] (platform : Platform Date) (now : Date)
    (header : String) :
    ((∃ limits, parse platform now header = .ok limits) ∧
        ∀ quota ∈ quotasOf platform header, ∀ index ∈ usedIndices platform quota,
          index < (parameters quota).length) ↔
      HasColons platform header := by
  have hindices : (∃ limits, parse platform now header = .ok limits) ↔
      ∀ quota ∈ quotasOf platform header, ∀ index ∈ usedIndices platform quota,
        index < (parameters quota).length := by
    rw [parse_eq_ok_iff]
    exact forall₂_congr fun quota _ => parseQuota_eq_ok_iff_indices platform quota
  rw [← hindices, and_self_iff, parse_eq_ok_iff]
  exact forall₂_congr fun quota _ => parseQuota_eq_ok_iff platform quota

/-- Digits are read as a 64 bit number, and dates are seconds. -/
def examplePlatform : LawfulPlatform ℚ where
  numberFromString text :=
    if text ≠ [] ∧ text.all Char.isDigit then
      let value : Int := text.foldl (fun value digit => 10 * value + (digit.toNat - 48)) 0
      some ⟨value.bmod (2 ^ 32), value⟩
    else none
  integerValue _ := 0
  httpDateFromString _ := none
  dateByAddingTimeInterval date seconds := date + seconds
  whitespaceAndNewlineCharacterSet c := c.isWhitespace
  monotone date _ _ h := add_le_add_right h date

/-- A number alone has no second field. -/
theorem parse_of_no_colon :
    ¬ ((∃ limits, parse examplePlatform.toPlatform 0 "60" = .ok limits) ∧
      ∀ quota ∈ quotasOf examplePlatform.toPlatform "60",
        ∀ index ∈ usedIndices examplePlatform.toPlatform quota,
          index < (parameters quota).length) := by
  rintro ⟨⟨limits, hlimits⟩, -⟩
  have hparse : parse examplePlatform.toPlatform 0 "60" = .error .exception := rfl
  rw [hparse] at hlimits
  cases hlimits

section
variable {Date : Type} [LinearOrder Date] (platform : Platform Date)

theorem lookup_parse {now : Date} {header : String} {limits : RateLimitsDictionary Date}
    (h : parse platform now header = .ok limits) (category : SentryDataCategory) (date : Date) :
    limits.lookup category = some date ↔
      IsGreatest (platform.dateByAddingTimeInterval now ''
        {seconds | ∃ quota ∈ quotasOf platform header, Takes platform quota category seconds})
        date := by
  rw [parse_eq_foldlM] at h
  rw [foldlM_parseQuotaInto_eq platform h, Marks.lookup_raiseAll_eq_some_iff]
  have hset : {date | (category, date) ∈
        (quotasOf platform header).flatMap (limitsOfQuota platform now)} =
      platform.dateByAddingTimeInterval now ''
        {seconds | ∃ quota ∈ quotasOf platform header, Takes platform quota category seconds} := by
    ext date
    simp only [Set.mem_ofPred_eq, List.mem_flatMap, mem_limitsOfQuota, Set.mem_image]
    constructor
    · rintro ⟨quota, hquota, seconds, htakes, rfl⟩
      exact ⟨seconds, ⟨quota, hquota, htakes⟩, rfl⟩
    · rintro ⟨seconds, ⟨quota, hquota, htakes⟩, rfl⟩
      exact ⟨quota, hquota, seconds, htakes, rfl⟩
  rw [hset]

omit [LinearOrder Date] in
/-- Every quota asks for at most one number of seconds. -/
theorem finite_of_rateLimitInSeconds (header : String) {levels : Set ℚ}
    (h : ∀ seconds ∈ levels, ∃ quota ∈ quotasOf platform header, ∃ number,
      rateLimitInSeconds platform quota = some number ∧ seconds = number.doubleValue) :
    levels.Finite := by
  apply Set.Finite.subset (List.finite_toSet ((quotasOf platform header).filterMap fun quota =>
    (rateLimitInSeconds platform quota).map ParsedNumber.doubleValue))
  intro seconds hseconds
  obtain ⟨quota, hquota, number, hnumber, rfl⟩ := h seconds hseconds
  rw [Set.mem_ofPred_eq, List.mem_filterMap]
  exact ⟨quota, hquota, by rw [hnumber, Option.map_some]⟩

omit [LinearOrder Date] in
theorem finite_asked (header : String) (category : SentryDataCategory) :
    {seconds | ∃ quota ∈ quotasOf platform header, Asks platform quota category seconds}.Finite := by
  apply finite_of_rateLimitInSeconds platform header
  rintro seconds ⟨quota, hquota, number, hnumber, -, -, heq⟩
  exact ⟨quota, hquota, number, hnumber, heq⟩

omit [LinearOrder Date] in
theorem finite_taken (header : String) (category : SentryDataCategory) :
    {seconds | ∃ quota ∈ quotasOf platform header,
      Takes platform quota category seconds}.Finite := by
  apply finite_of_rateLimitInSeconds platform header
  rintro seconds ⟨quota, hquota, number, hnumber, -, -, heq⟩
  exact ⟨quota, hquota, number, hnumber, heq⟩

/-- The asked limits of a category end no later than the taken ones, and the other way. -/
theorem takenAsAsked_iff (now : Date) (header : String) :
    TakenAsAsked platform now header ↔
      HasColons platform header ∧ ∀ category,
        (∀ seconds, (∃ quota ∈ quotasOf platform header, Takes platform quota category seconds) →
          ∃ seconds', (∃ quota ∈ quotasOf platform header,
              Asks platform quota category seconds') ∧
            platform.dateByAddingTimeInterval now seconds ≤
              platform.dateByAddingTimeInterval now seconds') ∧
        ∀ seconds, (∃ quota ∈ quotasOf platform header, Asks platform quota category seconds) →
          ∃ seconds', (∃ quota ∈ quotasOf platform header,
              Takes platform quota category seconds') ∧
            platform.dateByAddingTimeInterval now seconds ≤
              platform.dateByAddingTimeInterval now seconds' := by
  constructor
  · intro h
    refine ⟨h.colons, fun category => ⟨?_, ?_⟩⟩
    · rintro _ ⟨quota, hquota, number, hnumber, hpositive, hlists, rfl⟩
      by_cases hasked : 0 < number.doubleValue ∧ Names quota category
      · exact ⟨number.doubleValue,
          ⟨quota, hquota, number, hnumber, hasked.1, hasked.2, rfl⟩, le_rfl⟩
      · have hdefect : number.doubleValue ≤ 0 ∨ ¬ Names quota category := by
          rwa [not_and_or, not_lt] at hasked
        obtain ⟨quota', hquota', seconds', hasks, hle⟩ :=
          h.unasked quota hquota number hnumber hpositive category hlists hdefect
        exact ⟨seconds', ⟨quota', hquota', hasks⟩, hle⟩
    · rintro _ ⟨quota, hquota, number, hnumber, hpositive, hnames, rfl⟩
      by_cases htaken : 0 < number.intValue
      · exact ⟨number.doubleValue,
          ⟨quota, hquota, number, hnumber, htaken, hnames.1, rfl⟩, le_rfl⟩
      · obtain ⟨quota', hquota', seconds', htakes, hle⟩ :=
          h.skipped quota hquota number hnumber (not_lt.mp htaken) hpositive category hnames
        exact ⟨seconds', ⟨quota', hquota', htakes⟩, hle⟩
  · rintro ⟨hcolons, hlevels⟩
    refine ⟨hcolons, ?_, ?_⟩
    · intro quota hquota number hnumber hskipped hpositive category hnames
      obtain ⟨seconds', ⟨quota', hquota', htakes⟩, hle⟩ := (hlevels category).2
        number.doubleValue ⟨quota, hquota, number, hnumber, hpositive, hnames, rfl⟩
      exact ⟨quota', hquota', seconds', htakes, hle⟩
    · intro quota hquota number hnumber hpositive category hlists _
      obtain ⟨seconds', ⟨quota', hquota', hasks⟩, hle⟩ := (hlevels category).1
        number.doubleValue ⟨quota, hquota, number, hnumber, hpositive, hlists, rfl⟩
      exact ⟨quota', hquota', seconds', hasks, hle⟩

end

/-- The parser returns the longest limits that the header asks for exactly when what it skips,
and what it takes without being asked, is outdone. -/
theorem parsesExactly_iff {Date : Type} [LinearOrder Date] (platform : LawfulPlatform Date)
    (now : Date) (header : String) :
    ParsesExactly platform.toPlatform now header ↔
      TakenAsAsked platform.toPlatform now header := by
  rw [takenAsAsked_iff]
  have hreturns : (∃ limits, parse platform.toPlatform now header = .ok limits) ↔
      HasColons platform.toPlatform header := by
    rw [parse_eq_ok_iff]
    exact forall₂_congr fun quota _ => parseQuota_eq_ok_iff platform.toPlatform quota
  by_cases hcolons : HasColons platform.toPlatform header
  · obtain ⟨limits, hlimits⟩ := hreturns.mpr hcolons
    have hexact : ParsesExactly platform.toPlatform now header ↔ ∀ category date,
        IsGreatest (platform.dateByAddingTimeInterval now ''
          {seconds | ∃ quota ∈ quotasOf platform.toPlatform header,
            Takes platform.toPlatform quota category seconds}) date ↔
        IsGreatest (platform.dateByAddingTimeInterval now ''
          {seconds | ∃ quota ∈ quotasOf platform.toPlatform header,
            Asks platform.toPlatform quota category seconds}) date := by
      simp only [ParsesExactly, hlimits, Except.ok.injEq, exists_eq_left',
        lookup_parse platform.toPlatform hlimits,
        isGreatest_image_iff (platform.monotone now) (finite_asked platform.toPlatform header _)]
    rw [hexact, and_iff_right hcolons]
    refine forall_congr' fun category => ?_
    rw [isGreatest_congr_iff ((finite_taken platform.toPlatform header category).image _)
      ((finite_asked platform.toPlatform header category).image _)]
    simp only [Set.forall_mem_image, Set.exists_mem_image, Set.mem_ofPred_eq]
  · constructor
    · rintro ⟨limits, hlimits, -⟩
      exact absurd (hreturns.mp ⟨limits, hlimits⟩) hcolons
    · rintro ⟨h, -⟩
      exact absurd h hcolons

/-- A limit of 2³¹ seconds is ignored. -/
theorem not_parsesExactly_of_long_limit :
    ¬ ParsesExactly examplePlatform.toPlatform 0 "2147483648:error:key" := by
  rintro ⟨limits, hlimits, hexact⟩
  have hparse : parse examplePlatform.toPlatform 0 "2147483648:error:key" = .ok ∅ := rfl
  rw [hparse, Except.ok.injEq] at hlimits
  subst hlimits
  have hquotas : quotasOf examplePlatform.toPlatform "2147483648:error:key" =
      ["2147483648:error:key".toList] := rfl
  have hnumber : rateLimitInSeconds examplePlatform.toPlatform "2147483648:error:key".toList =
      some ⟨-2147483648, 2147483648⟩ := rfl
  have hnames : Names "2147483648:error:key".toList .error := by
    refine ⟨⟨"error".toList, rfl, ⟨"error".toList, ?_, rfl, by decide, by decide⟩,
      fun h => nomatch h⟩, fun h => nomatch h⟩
    decide
  have hgreatest : IsGreatest {seconds |
      ∃ quota ∈ quotasOf examplePlatform.toPlatform "2147483648:error:key",
        Asks examplePlatform.toPlatform quota .error seconds} 2147483648 := by
    simp only [hquotas, List.mem_singleton, exists_eq_left, Asks, hnumber, Option.some.injEq,
      exists_eq_left']
    constructor
    · exact ⟨by decide, hnames, rfl⟩
    · rintro seconds ⟨-, -, rfl⟩
      exact le_rfl
  have hlookup := (hexact .error (0 + 2147483648)).mpr ⟨2147483648, hgreatest, rfl⟩
  cases hlookup

end SentryCocoa.RateLimits
