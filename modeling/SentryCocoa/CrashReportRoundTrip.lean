import SentryCocoa.CrashReportConverter
import SentryCocoa.EnvelopeRoundTrip

/-! What of a scope is found in the event of a crash. The writer and the
converter have lists of keys of their own: the fingerprint is written and not
read, and of the user only four fields are read. -/
namespace SentryCocoa.CrashReports
open SentryCocoa.Foundation SentryCocoa.Scope SentryCocoa.Serialization SentryCocoa.Hub

def ConvertedUser.field (user : ConvertedUser) (key : String) : Option Value :=
  ([("id", user.userId), ("email", user.email), ("username", user.username),
    ("data", user.data)].lookup key).join

def convertedUserKeys : List String := ["id", "email", "username", "data"]

def objectKeys : List String := ["category", "message", "type", "origin", "data"]

section Converted
variable [Descriptions]

/-- The entry that the breadcrumb is serialized with. -/
def ConvertedBreadcrumb.field (crumb : ConvertedBreadcrumb) (key : String) : Option Value :=
  ([("level", some (.string (nameForSentryLevel crumb.level))),
    ("timestamp", crumb.timestamp.map fun date =>
      .string (Descriptions.dates.toIso8601String date)),
    ("category", crumb.category), ("message", crumb.message), ("type", crumb.type),
    ("origin", crumb.origin), ("data", crumb.data)].lookup key).join

def ConvertedUser.Carries (converted : ConvertedUser) (user : SentryUser) : Prop :=
  ∀ key, converted.field key = (serialize user).objectForKey key

def ConvertedBreadcrumb.Carries (converted : ConvertedBreadcrumb) (crumb : SentryBreadcrumb) :
    Prop :=
  ∀ key ∈ "level" :: "timestamp" :: objectKeys,
    converted.field key = (serialize crumb).objectForKey key

def carriesUser : Option ConvertedUser → Option SentryUser → Prop
  | none, none => True
  | some converted, some user => converted.Carries user
  | _, _ => False

/-- The contexts of an event: those of the scope, and its trace context. -/
def expectedContext {codec : CrashJSON} (a : AcceptedScope codec) : NSDictionary Value :=
  (a.scope.contextDictionary.map .ofDictionary).insert "trace" (.ofDictionary a.traceContext)

/-- An absent dictionary is as good as an empty one, as for any event. -/
structure ConvertedEvent.Carries {codec : CrashJSON} (event : ConvertedEvent)
    (a : AcceptedScope codec) : Prop where
  level : event.level = .fatal
  tags : event.tags.getD (.dictionary []) = .ofDictionary (a.scope.tagDictionary.map .string)
  extra : event.extra.getD (.dictionary []) = .ofDictionary a.scope.extraDictionary
  context : ∀ key, event.context.objectForKey key = (expectedContext a).objectForKey key
  user : carriesUser event.user a.scope.userObject
  dist : ∀ dist, a.scope.distString = some dist → event.dist = some (.string dist)
  environment : event.environment = a.scope.environmentString.map .string
  fingerprint : event.fingerprint.getD [] = a.scope.fingerprintArray
  breadcrumbs : List.Forall₂ ConvertedBreadcrumb.Carries event.breadcrumbs a.scope.breadcrumbs

/-- A user is read in full when it is serialized to the four fields, all of them plain. -/
def UserConvertible (codec : CrashJSON) (user : SentryUser) : Prop :=
  ∀ key value, (serialize user).objectForKey key = some value →
    key ∈ convertedUserKeys ∧ codec.Plain value

/-- The converter knows no name for the level none. -/
structure CrumbConvertible (codec : CrashJSON) (crumb : SentryBreadcrumb) : Prop where
  level : ∃ level ≠ SentryLevel.none,
    (serialize crumb).objectForKey "level" = some (.string (nameForSentryLevel level))
  timestamp : ∃ timestamp : Option NSDate, (serialize crumb).objectForKey "timestamp" =
    timestamp.map fun date => .string (Descriptions.dates.toIso8601String date)
  plain : ∀ key ∈ objectKeys, ∀ value, (serialize crumb).objectForKey key = some value →
    codec.Plain value

end Converted

/-- No dictionary, or one without entries. -/
def NoEntries (value : Option Value) : Prop := value.getD (.dictionary []) = .dictionary []

/-- Nothing that the loop over the breadcrumbs would run over. -/
def NoCrumbs (value : Option Value) : Prop :=
  value = none ∨ value = some (.array []) ∨ value = some (.dictionary [])

/-- No dictionary, or one with at most a trace, which is replaced. -/
def NoContexts (value : Option Value) : Prop :=
  ∃ entries, value.getD (.dictionary []) = .dictionary entries ∧
    ∀ key ≠ "trace", entries.lookup key = none

/-- The scope fits what the converter reads, and where the scope has nothing to report, the user
info of the installation has nothing either. -/
structure AcceptedScope.Convertible [Descriptions] {codec : CrashJSON} (a : AcceptedScope codec)
    (userInfo : NSDictionary Value) : Prop where
  tags : a.scope.tagDictionary.count = 0 → NoEntries (userInfo.objectForKey "tags")
  extra : codec.Plain (.ofDictionary a.scope.extraDictionary)
  noExtra : a.scope.extraDictionary.count = 0 → NoEntries (userInfo.objectForKey "extra")
  context : ∀ key ≠ "trace", ∀ context, a.scope.contextDictionary.objectForKey key = some context →
    codec.Plain (.ofDictionary context)
  noContext : a.scope.contextDictionary.count = 0 → NoContexts (userInfo.objectForKey "context")
  traceContext : codec.Plain (.ofDictionary a.traceContext)
  user : ∀ user, a.scope.userObject = some user → UserConvertible codec user
  noUser : a.scope.userObject = none → userInfo.objectForKey "user" = none
  noEnvironment : a.scope.environmentString = none → userInfo.objectForKey "environment" = none
  fingerprint : a.scope.fingerprintArray = []
  breadcrumbs : ∀ crumb ∈ a.scope.breadcrumbs, CrumbConvertible codec crumb
  noBreadcrumbs : a.scope.breadcrumbs = [] → NoCrumbs (userInfo.objectForKey "breadcrumbs")

theorem objectForKey_initWithReport (report : CrashReport) {key : String}
    (h : key ≠ "sentry_sdk_scope") :
    (initWithReport report).objectForKey key =
      (report.sentrySdkScope.objectForKey key).or ((report.user.getD ∅).objectForKey key) := by
  rw [initWithReport, objectForKey_removeObjectForKey, if_neg h,
    objectForKey_addEntriesFromDictionary]

theorem Except.bind_eq_ok_iff {ε α β : Type} {x : Except ε α} {f : α → Except ε β} {b : β} :
    x >>= f = .ok b ↔ ∃ a, x = .ok a ∧ f a = .ok b := by
  cases x with
  | error e => simp [bind, Except.bind]
  | ok a => simp [bind, Except.bind]

theorem bind_image_eq_self_iff {printing : Printing} {entry : Option Value} :
    entry.bind printing.image = entry ↔ ∀ value, entry = some value → printing.Plain value := by
  cases entry with
  | none => simp
  | some value => simp [Printing.image_eq_self_iff]

section Objects
variable [Descriptions] {codec : CrashJSON}

/-- The user that is converted from what was read back. -/
def readUser (codec : CrashJSON) (user : SentryUser) : ConvertedUser where
  userId := ((serialize user).objectForKey "id").bind codec.image
  email := ((serialize user).objectForKey "email").bind codec.image
  username := ((serialize user).objectForKey "username").bind codec.image
  data := ((serialize user).objectForKey "data").bind codec.image

theorem convertUser_of_dictionary {userContext : NSDictionary Value} {user : SentryUser}
    (h : userContext.objectForKey "user" = some (.dictionary (codec.readEntries (serialize user)))) :
    convertUser userContext = .ok (some (readUser codec user)) := by
  simp only [convertUser, h, objectForKeyedSubscript, Printing.lookup_readEntries]
  rfl

theorem readUser_field_of_mem {key : String} (h : key ∈ convertedUserKeys) (user : SentryUser) :
    (readUser codec user).field key = ((serialize user).objectForKey key).bind codec.image := by
  simp only [convertedUserKeys, List.mem_cons, List.not_mem_nil, or_false] at h
  rcases h with rfl | rfl | rfl | rfl <;> rfl

omit [Descriptions] in
theorem field_of_notMem {key : String} (h : key ∉ convertedUserKeys) (user : ConvertedUser) :
    user.field key = none := by
  simp only [convertedUserKeys, List.mem_cons, List.not_mem_nil, or_false, not_or] at h
  rw [ConvertedUser.field, List.lookup_eq_none_iff.mpr (by simpa using h), Option.join_none]

theorem readUser_carries_iff (user : SentryUser) :
    (readUser codec user).Carries user ↔ UserConvertible codec user := by
  constructor
  · intro h key value hvalue
    have hfield := h key
    have hmem : key ∈ convertedUserKeys := by
      by_contra hnot
      rw [field_of_notMem hnot, hvalue] at hfield
      cases hfield
    rw [readUser_field_of_mem hmem] at hfield
    exact ⟨hmem, bind_image_eq_self_iff.mp hfield value hvalue⟩
  · intro h key
    by_cases hmem : key ∈ convertedUserKeys
    · rw [readUser_field_of_mem hmem]
      exact bind_image_eq_self_iff.mpr fun value hvalue => (h key value hvalue).2
    · rw [field_of_notMem hmem]
      cases hentry : (serialize user).objectForKey key with
      | none => rfl
      | some value => exact absurd (h key value hentry).1 hmem

/-- The level and the timestamp are the two entries that the conversion may reject. -/
theorem convertBreadcrumb_eq_ok_iff {entries : List (String × Value)} {crumb : ConvertedBreadcrumb} :
    convertBreadcrumb (.dictionary entries) = .ok crumb ↔
      sentryLevelFromString (entries.lookup "level") = .ok crumb.level ∧
        fromIso8601String (entries.lookup "timestamp") = .ok crumb.timestamp ∧
        ∀ key ∈ objectKeys, crumb.field key = entries.lookup key := by
  obtain ⟨level, category, message, type, origin, timestamp, data⟩ := crumb
  simp only [convertBreadcrumb, objectForKeyedSubscript, pure_bind, Except.bind_eq_ok_iff]
  constructor
  · rintro ⟨level', hlevel, timestamp', htimestamp, heq⟩
    cases heq
    refine ⟨hlevel, htimestamp, ?_⟩
    simp [objectKeys, ConvertedBreadcrumb.field, List.lookup_cons]
  · rintro ⟨hlevel, htimestamp, hfields⟩
    refine ⟨level, hlevel, timestamp, htimestamp, ?_⟩
    simp [objectKeys, ConvertedBreadcrumb.field, List.lookup_cons] at hfields
    obtain ⟨rfl, rfl, rfl, rfl, rfl⟩ := hfields
    rfl

omit [Descriptions] in
theorem sentryLevelFromString_name {level : SentryLevel} (h : level ≠ .none) :
    sentryLevelFromString (some (.string (nameForSentryLevel level))) = .ok level := by
  cases level <;> first | exact absurd rfl h | rfl

theorem fromIso8601String_text (timestamp : Option NSDate) :
    fromIso8601String (timestamp.map fun date =>
      .string (Descriptions.dates.toIso8601String date)) = .ok timestamp := by
  cases timestamp with
  | none => rfl
  | some date =>
    simp only [Option.map_some, fromIso8601String,
      Descriptions.dates.fromIso8601String_toIso8601String]
    rfl

theorem exists_convertBreadcrumb_iff (crumb : SentryBreadcrumb) :
    (∃ converted, convertBreadcrumb (.dictionary (codec.readEntries (serialize crumb))) =
      .ok converted ∧ converted.Carries crumb) ↔ CrumbConvertible codec crumb := by
  simp only [convertBreadcrumb_eq_ok_iff, Printing.lookup_readEntries]
  constructor
  · rintro ⟨converted, ⟨hlevel, -, hfields⟩, carries⟩
    have hlevelEntry : some (.string (nameForSentryLevel converted.level)) =
        (serialize crumb).objectForKey "level" := carries "level" (by decide)
    refine ⟨⟨converted.level, ?_, hlevelEntry.symm⟩, ⟨converted.timestamp, ?_⟩, ?_⟩
    · intro hnone
      rw [← hlevelEntry, hnone] at hlevel
      cases hlevel
    · exact (carries "timestamp" (by decide)).symm
    · intro key hkey
      rw [← bind_image_eq_self_iff, ← hfields key hkey]
      exact carries key (List.mem_cons_of_mem _ (List.mem_cons_of_mem _ hkey))
  · rintro ⟨⟨level, hlevel, hname⟩, ⟨timestamp, htimestamp⟩, plain⟩
    let entry (key : String) : Option Value := (serialize crumb).objectForKey key
    let converted : ConvertedBreadcrumb :=
      ⟨level, entry "category", entry "message", entry "type", entry "origin", timestamp,
        entry "data"⟩
    have hfield : ∀ key ∈ objectKeys, converted.field key = entry key := by
      simp [objectKeys, ConvertedBreadcrumb.field, List.lookup_cons, converted]
    refine ⟨converted, ⟨?_, ?_, ?_⟩, ?_⟩
    · rw [hname]
      exact sentryLevelFromString_name hlevel
    · rw [htimestamp]
      cases timestamp with
      | none => rfl
      | some date => exact fromIso8601String_text (some date)
    · intro key hkey
      rw [hfield key hkey]
      exact (bind_image_eq_self_iff.mpr (plain key hkey)).symm
    · intro key hkey
      rcases List.mem_cons.mp hkey with rfl | hkey
      · exact hname.symm
      rcases List.mem_cons.mp hkey with rfl | hkey
      · exact htimestamp.symm
      · exact hfield key hkey

/-- The loop over the breadcrumbs keeps their number and order. -/
theorem exists_mapM_convertBreadcrumb_iff (crumbs : List SentryBreadcrumb) :
    (∃ converted,
      (crumbs.map fun crumb => Value.dictionary (codec.readEntries (serialize crumb))).mapM
        convertBreadcrumb = .ok converted ∧
      List.Forall₂ ConvertedBreadcrumb.Carries converted crumbs) ↔
      ∀ crumb ∈ crumbs, CrumbConvertible codec crumb := by
  induction crumbs with
  | nil => exact ⟨fun _ _ h => (List.not_mem_nil h).elim, fun _ => ⟨[], rfl, .nil⟩⟩
  | cons crumb rest ih =>
    rw [List.forall_mem_cons, ← ih, ← exists_convertBreadcrumb_iff]
    simp only [List.map_cons, List.mapM_cons, Except.bind_eq_ok_iff]
    constructor
    · rintro ⟨converted, ⟨first, hfirst, others, hothers, heq⟩, carries⟩
      cases heq
      cases carries with
      | cons hcarries hrest => exact ⟨⟨first, hfirst, hcarries⟩, others, hothers, hrest⟩
    · rintro ⟨⟨first, hfirst, hcarries⟩, others, hothers, hrest⟩
      exact ⟨first :: others, ⟨first, hfirst, others, hothers, rfl⟩, .cons hcarries hrest⟩

omit [Descriptions] in
theorem plain_of_map_string {text : Option String} {value : Value}
    (h : text.map .string = some value) : codec.Plain value := by
  obtain ⟨s, -, rfl⟩ := Option.map_eq_some_iff.mp h
  exact .string s

/-- Without unknown entries, a user is read in full when it has no more than the four fields. -/
theorem userConvertible_iff_of_known {user : SentryUser} (h : user.unknown = none) :
    UserConvertible codec user ↔
      user.ipAddress = none ∧ user.segment = none ∧ user.name = none ∧ user.geo = none ∧
        ∀ data, user.data = some data → codec.Plain (sanitizedData data) := by
  have hentry : ∀ key, (serialize user).objectForKey key =
      if key = "data" then user.data.map sanitizedData
      else if key = "geo" then user.geo.map fun geo => .ofDictionary geo.serialize
      else if key = "name" then user.name.map .string
      else if key = "segment" then user.segment.map .string
      else if key = "ip_address" then user.ipAddress.map .string
      else if key = "username" then user.username.map .string
      else if key = "email" then user.email.map .string
      else if key = "id" then user.userId.map .string
      else none := by
    intro key
    change user.serialize.objectForKey key = _
    simp only [SentryUser.serialize, h, objectForKey_setValue, objectForKey_empty]
  constructor
  · intro convertible
    have habsent : ∀ key ∉ convertedUserKeys, (serialize user).objectForKey key = none := by
      intro key hkey
      cases hvalue : (serialize user).objectForKey key with
      | none => rfl
      | some value => exact absurd (convertible key value hvalue).1 hkey
    have hip := habsent "ip_address" (by decide)
    have hsegment := habsent "segment" (by decide)
    have hname := habsent "name" (by decide)
    have hgeo := habsent "geo" (by decide)
    simp [hentry] at hip hsegment hname hgeo
    refine ⟨hip, hsegment, hname, hgeo, fun data hdata => ?_⟩
    exact (convertible "data" _ (by simp [hentry, hdata])).2
  · rintro ⟨hip, hsegment, hname, hgeo, hdata⟩ key value hvalue
    rw [hentry, hip, hsegment, hname, hgeo] at hvalue
    split_ifs at hvalue with h1 h2 h3 h4 h5 h6 h7 h8
    · obtain ⟨data, hsome, rfl⟩ := Option.map_eq_some_iff.mp hvalue
      exact ⟨h1 ▸ by decide, hdata data hsome⟩
    · cases hvalue
    · cases hvalue
    · cases hvalue
    · cases hvalue
    · exact ⟨h6 ▸ by decide, plain_of_map_string hvalue⟩
    · exact ⟨h7 ▸ by decide, plain_of_map_string hvalue⟩
    · exact ⟨h8 ▸ by decide, plain_of_map_string hvalue⟩

/-- Without unknown entries, only the level none and the data of a breadcrumb can get lost. -/
theorem crumbConvertible_iff_of_known {crumb : SentryBreadcrumb} (h : crumb.unknown = none) :
    CrumbConvertible codec crumb ↔
      crumb.level ≠ .none ∧ ∀ data, crumb.data = some data → codec.Plain (sanitizedData data) := by
  have hentry : ∀ key, (serialize crumb).objectForKey key =
      if key = "data" then crumb.data.map sanitizedData
      else if key = "message" then crumb.message.map .string
      else if key = "origin" then crumb.origin.map .string
      else if key = "type" then crumb.type.map .string
      else if key = "category" then crumb.category.map .string
      else if key = "timestamp" then crumb.timestamp.map fun date =>
        .string (Descriptions.dates.toIso8601String date)
      else if key = "level" then some (.string (nameForSentryLevel crumb.level))
      else none := by
    intro key
    change crumb.serialize.objectForKey key = _
    simp only [SentryBreadcrumb.serialize, h, objectForKey_setValue, objectForKey_empty]
  constructor
  · rintro ⟨⟨level, hlevel, hname⟩, -, plain⟩
    constructor
    · intro hnone
      simp [hentry, hnone] at hname
      cases level <;> first | exact hlevel rfl | exact absurd hname (by decide)
    · intro data hdata
      exact plain "data" (by decide) _ (by simp [hentry, hdata])
  · rintro ⟨hlevel, hdata⟩
    refine ⟨⟨crumb.level, hlevel, by simp [hentry]⟩, ⟨crumb.timestamp, by simp [hentry]⟩, ?_⟩
    intro key hkey value hvalue
    rw [hentry] at hvalue
    simp only [objectKeys, List.mem_cons, List.not_mem_nil, or_false] at hkey
    rcases hkey with rfl | rfl | rfl | rfl | rfl
    · exact plain_of_map_string hvalue
    · exact plain_of_map_string hvalue
    · exact plain_of_map_string hvalue
    · exact plain_of_map_string hvalue
    · obtain ⟨data, hsome, rfl⟩ := Option.map_eq_some_iff.mp hvalue
      exact hdata data hsome

end Objects

theorem ofDictionary_of_count_eq_zero {d : NSDictionary Value} (h : d.count = 0) :
    Value.ofDictionary d = .dictionary [] := by
  rw [Value.ofDictionary, List.length_eq_zero_iff.mp h, List.map_nil]

/-- A dictionary is carried when it is plain; without entries, the user info stands in for it. -/
theorem dictionary_carried_iff {printing : Printing} {d : NSDictionary Value}
    {info : Option Value} :
    (((dictionaryValue d).bind printing.image).or info).getD (.dictionary []) = .ofDictionary d ↔
      printing.Plain (.ofDictionary d) ∧ (d.count = 0 → NoEntries info) := by
  by_cases h : d.count = 0
  · have hplain : printing.Plain (.dictionary []) :=
      .dictionary fun entry hentry => (List.not_mem_nil hentry).elim
    rw [dictionaryValue, if_neg (by omega), Option.bind_none, Option.none_or,
      ofDictionary_of_count_eq_zero h]
    exact ⟨fun hinfo => ⟨hplain, fun _ => hinfo⟩, fun hinfo => hinfo.2 h⟩
  · rw [dictionaryValue, if_pos (by omega), Option.bind_some, Printing.image_ofDictionary,
      Option.some_or, Option.getD_some, ← Printing.plain_ofDictionary_iff]
    exact ⟨fun hplain => ⟨hplain, fun hzero => absurd hzero h⟩, And.left⟩

theorem plain_map_string (printing : Printing) (d : NSDictionary String) :
    printing.Plain (.ofDictionary (d.map .string)) := by
  refine .dictionary fun entry hentry => ?_
  simp only [NSDictionary.map, List.map_map, List.mem_map] at hentry
  obtain ⟨tag, -, rfl⟩ := hentry
  exact .string tag.2

theorem convertContext_eq_ok_iff {userContext context : NSDictionary Value} :
    convertContext userContext = .ok context ↔
      ∃ entries, (userContext.objectForKey "context").getD (.dictionary []) = .dictionary entries ∧
        context = (initWithDictionary entries).insertIfPresent
          (userContext.objectForKey "traceContext") "trace" := by
  have hempty : initWithDictionary [] = ∅ := rfl
  unfold convertContext
  cases hcontext : userContext.objectForKey "context" with
  | none =>
    rw [← hempty]
    constructor
    · intro h
      cases h
      exact ⟨[], rfl, rfl⟩
    · rintro ⟨entries, hentries, rfl⟩
      cases hentries
      rfl
  | some stored =>
    cases stored with
    | dictionary entries =>
      constructor
      · intro h
        cases h
        exact ⟨entries, rfl, rfl⟩
      · rintro ⟨entries', hentries, rfl⟩
        cases hentries
        rfl
    | _ => exact ⟨fun h => (nomatch h), fun ⟨_, hentries, _⟩ => (nomatch hentries)⟩

section Event
variable [Descriptions] {codec : CrashJSON}

theorem convertBreadcrumbs_eq_nil_iff {userContext : NSDictionary Value} {info : Option Value}
    (h : userContext.objectForKey "breadcrumbs" = info) :
    convertBreadcrumbs userContext = .ok [] ↔ NoCrumbs info := by
  unfold convertBreadcrumbs NoCrumbs
  rw [h]
  cases info with
  | none => exact ⟨fun _ => .inl rfl, fun _ => rfl⟩
  | some stored =>
    cases stored with
    | array crumbs =>
      cases crumbs with
      | nil => exact ⟨fun _ => .inr (.inl rfl), fun _ => rfl⟩
      | cons crumb rest =>
        simp only [List.mapM_cons, Except.bind_eq_ok_iff]
        constructor
        · rintro ⟨_, -, _, -, heq⟩
          cases heq
        · simp
    | dictionary entries =>
      cases entries with
      | nil => exact ⟨fun _ => .inr (.inr rfl), fun _ => rfl⟩
      | cons entry rest => simp [throw, throwThe, MonadExceptOf.throw]
    | _ => simp [throw, throwThe, MonadExceptOf.throw]

namespace AcceptedScope

/-- The report of a crash, with the user info of the installation. -/
def report (a : AcceptedScope codec) (userInfo : Option (NSDictionary Value)) : CrashReport :=
  ⟨userInfo, a.reported⟩

variable (a : AcceptedScope codec) (userInfo : Option (NSDictionary Value))

theorem userContext_field (f : ScopeField) :
    (initWithReport (a.report userInfo)).objectForKey (reportKey f) =
      ((a.scope.value f).bind codec.image).or
        ((userInfo.getD ∅).objectForKey (reportKey f)) := by
  have hne : reportKey f ≠ "sentry_sdk_scope" := by cases f <;> decide
  rw [objectForKey_initWithReport _ hne, report, reported_field]

theorem userContext_traceContext :
    (initWithReport (a.report userInfo)).objectForKey "traceContext" =
      some (.dictionary (codec.readEntries a.traceContext)) := by
  rw [objectForKey_initWithReport _ (by decide), report, reported_traceContext, Option.some_or]

theorem userContext_breadcrumbs :
    (initWithReport (a.report userInfo)).objectForKey "breadcrumbs" =
      if a.scope.breadcrumbs = [] then (userInfo.getD ∅).objectForKey "breadcrumbs"
      else some (.array a.crumbs) := by
  rw [objectForKey_initWithReport _ (by decide), report, reported_breadcrumbs]
  split
  · rw [Option.none_or]
  · rw [Option.some_or]

theorem tags_carried_iff :
    ((initWithReport (a.report userInfo)).objectForKey "tags").getD (.dictionary []) =
        .ofDictionary (a.scope.tagDictionary.map .string) ↔
      (a.scope.tagDictionary.count = 0 →
        NoEntries ((userInfo.getD ∅).objectForKey "tags")) := by
  have hcount : (a.scope.tagDictionary.map Value.string).count = a.scope.tagDictionary.count :=
    List.length_map _
  rw [show "tags" = reportKey .tags from rfl, userContext_field, SentryScope.value,
    dictionary_carried_iff, hcount]
  exact and_iff_right (plain_map_string _ _)

theorem extra_carried_iff :
    ((initWithReport (a.report userInfo)).objectForKey "extra").getD (.dictionary []) =
        .ofDictionary a.scope.extraDictionary ↔
      codec.Plain (.ofDictionary a.scope.extraDictionary) ∧
        (a.scope.extraDictionary.count = 0 →
          NoEntries ((userInfo.getD ∅).objectForKey "extra")) := by
  rw [show "extra" = reportKey .extras from rfl, userContext_field, SentryScope.value,
    dictionary_carried_iff]

theorem environment_carried_iff :
    (initWithReport (a.report userInfo)).objectForKey "environment" =
        a.scope.environmentString.map .string ↔
      (a.scope.environmentString = none →
        (userInfo.getD ∅).objectForKey "environment" = none) := by
  rw [show "environment" = reportKey .environment from rfl, userContext_field, SentryScope.value]
  cases a.scope.environmentString with
  | none => simp
  | some environment => simp [Printing.image]

theorem user_carried_iff :
    (∃ user, convertUser (initWithReport (a.report userInfo)) = .ok user ∧
        carriesUser user a.scope.userObject) ↔
      (∀ user, a.scope.userObject = some user → UserConvertible codec user) ∧
        (a.scope.userObject = none → (userInfo.getD ∅).objectForKey "user" = none) := by
  have hfield := a.userContext_field userInfo .user
  rw [SentryScope.value, reportKey] at hfield
  cases huser : a.scope.userObject with
  | some user =>
    rw [huser, Option.map_some, Option.bind_some, userValue, Printing.image_ofDictionary,
      Option.some_or] at hfield
    rw [convertUser_of_dictionary hfield]
    simp [carriesUser, readUser_carries_iff]
  | none =>
    rw [huser, Option.map_none, Option.bind_none, Option.none_or] at hfield
    simp only [reduceCtorEq, false_imp_iff, implies_true, forall_const, true_and]
    constructor
    · rintro ⟨user, hconvert, carries⟩
      cases user with
      | some converted => exact carries.elim
      | none =>
        cases hstored : (userInfo.getD ∅).objectForKey "user" with
        | none => rfl
        | some stored =>
          simp only [convertUser, hfield, hstored, Except.bind_eq_ok_iff] at hconvert
          obtain ⟨_, -, _, -, _, -, _, -, heq⟩ := hconvert
          cases heq
    · intro hnone
      refine ⟨none, ?_, trivial⟩
      rw [convertUser, hfield, hnone]
      rfl

theorem breadcrumbs_carried_iff :
    (∃ crumbs, convertBreadcrumbs (initWithReport (a.report userInfo)) = .ok crumbs ∧
        List.Forall₂ ConvertedBreadcrumb.Carries crumbs a.scope.breadcrumbs) ↔
      (∀ crumb ∈ a.scope.breadcrumbs, CrumbConvertible codec crumb) ∧
        (a.scope.breadcrumbs = [] → NoCrumbs ((userInfo.getD ∅).objectForKey "breadcrumbs")) := by
  have hstored := a.userContext_breadcrumbs userInfo
  by_cases hcrumbs : a.scope.breadcrumbs = []
  · rw [if_pos hcrumbs] at hstored
    rw [hcrumbs]
    simp only [List.not_mem_nil, false_imp_iff, implies_true, forall_const, true_and,
      List.forall₂_nil_right_iff, exists_eq_right]
    exact convertBreadcrumbs_eq_nil_iff hstored
  · rw [if_neg hcrumbs] at hstored
    simp only [convertBreadcrumbs, hstored]
    rw [crumbs, exists_mapM_convertBreadcrumb_iff]
    exact ⟨fun h => ⟨h, fun hnil => absurd hnil hcrumbs⟩, And.left⟩

/-- The contexts that the converter starts from, without the trace. -/
theorem contexts_carried_iff :
    (∃ entries, ((initWithReport (a.report userInfo)).objectForKey "context").getD
          (.dictionary []) = .dictionary entries ∧
        ∀ key ≠ "trace", entries.lookup key =
          (a.scope.contextDictionary.objectForKey key).map .ofDictionary) ↔
      (∀ key ≠ "trace", ∀ context, a.scope.contextDictionary.objectForKey key = some context →
        codec.Plain (.ofDictionary context)) ∧
        (a.scope.contextDictionary.count = 0 →
          NoContexts ((userInfo.getD ∅).objectForKey "context")) := by
  let contexts : NSDictionary Value := a.scope.contextDictionary.map .ofDictionary
  have hcount : contexts.count = a.scope.contextDictionary.count := List.length_map _
  have hfield := a.userContext_field userInfo .context
  rw [SentryScope.value, reportKey] at hfield
  rw [hfield]
  by_cases h : a.scope.contextDictionary.count = 0
  · have hnone : ∀ key, a.scope.contextDictionary.objectForKey key = none := by
      intro key
      have hempty : a.scope.contextDictionary = ∅ := AList.ext (List.length_eq_zero_iff.mp h)
      rw [hempty, objectForKey_empty]
    rw [dictionaryValue, if_neg (by rw [hcount]; omega), Option.bind_none, Option.none_or]
    simp [NoContexts, hnone, h]
  · rw [dictionaryValue, if_pos (by rw [hcount]; omega), Option.bind_some, Printing.image_ofDictionary,
      Option.some_or, Option.getD_some]
    constructor
    · rintro ⟨entries, hentries, hlookup⟩
      cases hentries
      refine ⟨fun key hkey context hcontext => ?_, fun hzero => absurd hzero h⟩
      have heq := hlookup key hkey
      rw [Printing.lookup_readEntries, NSDictionary.objectForKey_map, hcontext] at heq
      exact Printing.image_eq_self_iff.mp heq
    · rintro ⟨plain, -⟩
      refine ⟨_, rfl, fun key hkey => ?_⟩
      rw [Printing.lookup_readEntries, NSDictionary.objectForKey_map]
      refine bind_image_eq_self_iff.mpr fun value hvalue => ?_
      obtain ⟨context, hcontext, rfl⟩ := Option.map_eq_some_iff.mp hvalue
      exact plain key hkey context hcontext

theorem objectForKey_expectedContext (key : String) :
    (expectedContext a).objectForKey key =
      if key = "trace" then some (.ofDictionary a.traceContext)
      else (a.scope.contextDictionary.objectForKey key).map .ofDictionary := by
  rw [expectedContext, objectForKey_insert, NSDictionary.objectForKey_map]

theorem context_carried_iff :
    (∃ context, convertContext (initWithReport (a.report userInfo)) = .ok context ∧
        ∀ key, context.objectForKey key = (expectedContext a).objectForKey key) ↔
      codec.Plain (.ofDictionary a.traceContext) ∧
      (∀ key ≠ "trace", ∀ context, a.scope.contextDictionary.objectForKey key = some context →
        codec.Plain (.ofDictionary context)) ∧
        (a.scope.contextDictionary.count = 0 →
          NoContexts ((userInfo.getD ∅).objectForKey "context")) := by
  simp only [convertContext_eq_ok_iff, userContext_traceContext, objectForKey_expectedContext]
  rw [← contexts_carried_iff, Printing.plain_ofDictionary_iff]
  constructor
  · rintro ⟨context, ⟨entries, hentries, rfl⟩, hkeys⟩
    constructor
    · have htrace := hkeys "trace"
      rw [objectForKey_insertIfPresent, if_pos rfl, if_pos rfl, Option.some_or] at htrace
      exact Option.some.inj htrace
    · refine ⟨entries, hentries, fun key hkey => ?_⟩
      have hlookup := hkeys key
      rw [objectForKey_insertIfPresent, if_neg hkey, if_neg hkey,
        objectForKey_initWithDictionary] at hlookup
      exact hlookup
  · rintro ⟨htrace, entries, hentries, hlookup⟩
    refine ⟨_, ⟨entries, hentries, rfl⟩, fun key => ?_⟩
    rw [objectForKey_insertIfPresent, objectForKey_initWithDictionary]
    by_cases hkey : key = "trace"
    · rw [if_pos hkey, if_pos hkey, Option.some_or, htrace]
    · rw [if_neg hkey, if_neg hkey, hlookup key hkey]

theorem dist_of_userContext {dist : String} (h : a.scope.distString = some dist) :
    (initWithReport (a.report userInfo)).objectForKey "dist" = some (.string dist) := by
  have hfield := a.userContext_field userInfo .dist
  rw [SentryScope.value, reportKey, h] at hfield
  rw [hfield]
  simp [Printing.image]

end AcceptedScope

/-- What the conversion takes over, and what it works out. -/
theorem convertUserContext_ok {userContext : NSDictionary Value} {event : ConvertedEvent}
    (h : convertUserContext userContext = .ok event) :
    convertContext userContext = .ok event.context ∧
      convertUser userContext = .ok event.user ∧
      convertBreadcrumbs userContext = .ok event.breadcrumbs ∧
      (event.level = .fatal ∧ event.fingerprint = none ∧
        event.environment = userContext.objectForKey "environment" ∧
        event.extra = userContext.objectForKey "extra" ∧
        event.tags = userContext.objectForKey "tags") ∧
      ∀ dist, userContext.objectForKey "dist" = some dist → event.dist = some dist := by
  simp only [convertUserContext, Except.bind_eq_ok_iff] at h
  obtain ⟨context, hcontext, user, huser, crumbs, hcrumbs, release, -, dist, hdist, heq⟩ := h
  cases heq
  refine ⟨hcontext, huser, hcrumbs, ⟨rfl, rfl, rfl, rfl, rfl⟩, fun d hd => ?_⟩
  rw [convertDist, hd] at hdist
  cases hdist
  rfl

/-- Where the app context is no other object, no exception is left to raise. -/
theorem exists_convertUserContext {userContext context : NSDictionary Value}
    {user : Option ConvertedUser} {crumbs : List ConvertedBreadcrumb}
    {app : Option (NSDictionary Value)} (hcontext : convertContext userContext = .ok context)
    (huser : convertUser userContext = .ok user)
    (hcrumbs : convertBreadcrumbs userContext = .ok crumbs)
    (happ : context.objectForKey "app" = app.map .ofDictionary) :
    ∃ event, convertUserContext userContext = .ok event := by
  have hsubscript : ∀ key, ∃ entry,
      objectForKeyedSubscript (context.objectForKey "app") key = .ok entry := by
    intro key
    rw [happ]
    cases app with
    | none => exact ⟨none, rfl⟩
    | some app => exact ⟨_, rfl⟩
  obtain ⟨identifier, hidentifier⟩ := hsubscript "app_identifier"
  obtain ⟨version, hversion⟩ := hsubscript "app_version"
  obtain ⟨build, hbuild⟩ := hsubscript "app_build"
  have hrelease : ∃ release,
      convertReleaseName userContext (context.objectForKey "app") = .ok release := by
    unfold convertReleaseName
    cases userContext.objectForKey "release" with
    | some release => exact ⟨_, rfl⟩
    | none =>
      simp only [releaseNameOfApp, Except.bind_eq_ok_iff, hidentifier, hversion, hbuild]
      cases identifier <;> cases version <;> cases build <;>
        exact ⟨_, _, rfl, _, rfl, _, rfl, rfl⟩
  have hdist : ∃ dist, convertDist userContext (context.objectForKey "app") = .ok dist := by
    unfold convertDist
    cases userContext.objectForKey "dist" with
    | some dist => exact ⟨_, rfl⟩
    | none => exact ⟨build, hbuild⟩
  obtain ⟨release, hrelease⟩ := hrelease
  obtain ⟨dist, hdist⟩ := hdist
  simp only [convertUserContext, Except.bind_eq_ok_iff]
  exact ⟨_, context, hcontext, user, huser, crumbs, hcrumbs, release, hrelease, dist, hdist, rfl⟩

theorem convertReportToEvent_eq_some_iff {report : CrashReport} {event : ConvertedEvent} :
    convertReportToEvent report = some event ↔
      convertUserContext (initWithReport report) = .ok event := by
  rw [convertReportToEvent]
  cases convertUserContext (initWithReport report) <;> simp [Except.toOption]

end Event

local instance exampleDescriptions : Descriptions where
  dates := exampleDates
  description _ := ""

/-- The two values of the scopes below; they hold no number, date or data. -/
def exampleCodec : CrashJSON where
  double value := value
  dateText _ := ""
  dataText _ := ""
  encode
    | .array [.string "payment"] => some "[\"payment\"]"
    | .dictionary [("trace_id", .string "8f00")] => some "\x7b\"trace_id\":\"8f00\"\x7d"
    | _ => none
  element
    | "[\"payment\"]" => some (.array [.string "payment"])
    | "\x7b\"trace_id\":\"8f00\"\x7d" => some (.dictionary [("trace_id", .string "8f00")])
    | _ => none
  element_encode := by
    intro value json read hencode helement
    split at hencode <;> cases hencode <;> cases helement <;> rfl

def newScope : AcceptedScope exampleCodec where
  scope := .initWithMaxBreadcrumbs 100
  traceContext := AList.singleton "trace_id" (.string "8f00")
  traceContext_count := by decide
  accepts_value {field value} h := by cases field <;> cases h
  accepts_traceContext := ⟨_, rfl, rfl⟩
  accepts_crumb _ h := (List.not_mem_nil h).elim

example : ((convertReportToEvent (newScope.report none)).map fun event => event.context.keys) =
    some ["trace"] := rfl

def groupedScope : AcceptedScope exampleCodec where
  scope := { SentryScope.initWithMaxBreadcrumbs 100 with fingerprintArray := ["payment"] }
  traceContext := AList.singleton "trace_id" (.string "8f00")
  traceContext_count := by decide
  accepts_value {field value} h := by
    cases field <;> cases h
    exact ⟨_, rfl, rfl⟩
  accepts_traceContext := ⟨_, rfl, rfl⟩
  accepts_crumb _ h := (List.not_mem_nil h).elim

end SentryCocoa.CrashReports
