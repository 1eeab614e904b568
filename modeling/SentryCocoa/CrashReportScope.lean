import SentryCocoa.CrashJSON
import SentryCocoa.ScopeCrumbs
import SentryCocoa.ScopeObjects

/-! A crash report holds the texts of the C scope under `sentry_sdk_scope`. Here
they are followed from the scope of the application into the report, and to the
dictionary that the reader of the report finds there. -/
namespace SentryCocoa.CrashReports
open SentryCocoa.Foundation SentryCocoa.Scope SentryCocoa.Library.RingBuffer

/-- The C scope with the text of its trace context. -/
structure TracedCrashScope where
  scope : SentryCrashScope
  traceContext : Option String

section Observe
variable {User Breadcrumb : Type} [SentrySerializable User] [SentrySerializable Breadcrumb]

/-- The message that tells an observer a field of the scope. -/
def message (s : SentryScope User Breadcrumb) : ScopeField → SentryScopeObserver User
  | .user => .setUser s.userObject
  | .dist => .setDist s.distString
  | .context => .setContext (s.contextDictionary.map .ofDictionary)
  | .environment => .setEnvironment s.environmentString
  | .tags => .setTags s.tagDictionary
  | .extras => .setExtras s.extraDictionary
  | .fingerprint => .setFingerprint s.fingerprintArray
  | .level => .setLevel s.levelEnum

def scopeFields : List ScopeField :=
  [.user, .dist, .context, .environment, .tags, .extras, .fingerprint, .level]

def crumbMessages (crumbs : List (NSDictionary Value)) : List (SentryScopeObserver User) :=
  crumbs.map .addSerializedBreadcrumb

/-- What a new observer makes of a scope: every field is told, then the breadcrumbs from the
oldest on. -/
def observe (encode : Value → Option String) (s : SentryScope User Breadcrumb)
    (traceContext : NSDictionary Value) : TracedCrashScope where
  scope := (scopeFields.map (message s) ++ crumbMessages (s.breadcrumbs.map serialize)).foldl
    (SentryCrashScopeObserver.receive encode)
    (SentryCrashScope.zero.configureBreadcrumbs s.maxBreadcrumbs)
  traceContext := (dictionaryValue traceContext).bind encode

variable {encode : Value → Option String} {s : SentryScope User Breadcrumb}

omit [SentrySerializable Breadcrumb] in
theorem message_target (f : ScopeField) : (message s f).target = some (f, s.value f) := by
  cases f <;> rfl

omit [SentrySerializable Breadcrumb] in
theorem foldl_message_field_of_notMem {fields : List ScopeField} {f : ScopeField} (h : f ∉ fields)
    (c : SentryCrashScope) :
    ((fields.map (message s)).foldl (SentryCrashScopeObserver.receive encode) c).field f =
      c.field f := by
  induction fields generalizing c with
  | nil => rfl
  | cons g rest ih =>
    have hne : f ≠ g := List.ne_of_not_mem_cons h
    have hrest : f ∉ rest := List.not_mem_of_not_mem_cons h
    rw [List.map_cons, List.foldl_cons, ih hrest, receive_field_of_ne (message_target g) hne]

omit [SentrySerializable Breadcrumb] in
/-- Each field is told once, and later messages leave it alone. -/
theorem foldl_message_holds {fields : List ScopeField} (nodup : fields.Nodup) {f : ScopeField}
    (h : f ∈ fields) (c : SentryCrashScope) :
    Holds encode
      (((fields.map (message s)).foldl (SentryCrashScopeObserver.receive encode) c).field f)
      (s.value f) := by
  induction fields generalizing c with
  | nil => cases h
  | cons g rest ih =>
    obtain ⟨hg, hrest⟩ := List.nodup_cons.mp nodup
    rw [List.map_cons, List.foldl_cons]
    rcases List.mem_cons.mp h with rfl | hmem
    · rw [foldl_message_field_of_notMem hg]
      exact receive_holds (message_target f) c
    · exact ih hrest hmem _

omit [SentrySerializable Breadcrumb] in
theorem foldl_crumbMessages_field (crumbs : List (NSDictionary Value)) (c : SentryCrashScope)
    (f : ScopeField) :
    (((crumbMessages crumbs : List (SentryScopeObserver User)).foldl
      (SentryCrashScopeObserver.receive encode) c).field f) = c.field f := by
  induction crumbs generalizing c with
  | nil => rfl
  | cons crumb rest ih =>
    rw [crumbMessages, List.map_cons, List.foldl_cons, ← crumbMessages, ih,
      SentryCrashScopeObserver.receive]
    split
    · rfl
    · rw [SentryCrashScope.addBreadcrumb_field]

variable (User) in
omit [SentrySerializable Breadcrumb] in
/-- While there is room, the ring of a C scope takes the texts of the crumbs in their order. -/
theorem foldl_crumbMessages_read {crumbs : List (NSDictionary Value)} {texts : List String}
    (encoded : crumbs.map (fun crumb => encode (.ofDictionary crumb)) = texts.map some)
    {c : SentryCrashScope} {max : Nat} (configured : c.Configured max)
    (filling : c.ring.Filling max) (room : (c.ring.read max).length + texts.length ≤ max) :
    ∃ c', (crumbMessages crumbs : List (SentryScopeObserver User)).foldl
        (SentryCrashScopeObserver.receive encode) c = c' ∧
      c'.Configured max ∧ c'.ring.read max = c.ring.read max ++ texts := by
  induction crumbs generalizing c texts with
  | nil =>
    obtain rfl : texts = [] := List.map_eq_nil_iff.mp encoded.symm
    exact ⟨c, rfl, configured, (List.append_nil _).symm⟩
  | cons crumb rest ih =>
    cases texts with
    | nil => cases encoded
    | cons json texts =>
      obtain ⟨hjson, hrest⟩ := List.cons.inj encoded
      have hreceive : SentryCrashScopeObserver.receive encode c
          (.addSerializedBreadcrumb crumb : SentryScopeObserver User) =
            c.addBreadcrumb (some json) := by
        simp only [SentryCrashScopeObserver.receive, hjson]
      obtain ⟨hconfigured, hring⟩ := configured.addBreadcrumb json
      rw [List.length_cons] at room
      have hread : (c.addBreadcrumb (some json)).ring.read max = c.ring.read max ++ [json] := by
        rw [hring, CyclicBuffer.read_push_of_filling filling]
        exact rtake_of_length_le (by rw [List.length_append, List.length_singleton]; omega)
      have hfilling : (c.addBreadcrumb (some json)).ring.Filling max := by
        rw [hring]
        exact filling.push json
      have hroom : ((c.addBreadcrumb (some json)).ring.read max).length + texts.length ≤ max := by
        rw [hread, List.length_append, List.length_singleton]
        omega
      obtain ⟨c', hfold, hconfigured', hread'⟩ := ih hrest hconfigured hfilling hroom
      refine ⟨c', ?_, hconfigured', ?_⟩
      · rw [crumbMessages, List.map_cons, List.foldl_cons, hreceive]
        exact hfold
      · rw [hread', hread, List.append_assoc, List.singleton_append]

/-- The C scope holds the text of every field that has one. -/
theorem observe_field (f : ScopeField) (traceContext : NSDictionary Value)
    (encodable : Encodable encode (s.value f)) :
    (observe encode s traceContext).scope.field f = (s.value f).bind encode := by
  have holds : Holds encode ((observe encode s traceContext).scope.field f) (s.value f) := by
    rw [observe, List.foldl_append, foldl_crumbMessages_field]
    exact foldl_message_holds (by decide) (by cases f <;> decide) _
  cases hvalue : s.value f with
  | none =>
    rw [hvalue] at holds
    exact holds
  | some value =>
    obtain ⟨json, hjson⟩ := Option.isSome_iff_exists.mp (encodable value hvalue)
    rw [hvalue] at holds
    rw [holds json hjson, Option.bind_some, hjson]

/-- The report writer writes the text of every breadcrumb, from the oldest on. -/
theorem observe_writtenCrumbs {texts : List String} (traceContext : NSDictionary Value)
    (encoded : s.breadcrumbs.map (crumbEncoding encode) = texts.map some) :
    (observe encode s traceContext).scope.writtenCrumbs = texts := by
  have hlength : texts.length ≤ s.maxBreadcrumbs := by
    have hlengths := congrArg List.length encoded
    rw [List.length_map, List.length_map] at hlengths
    rw [← hlengths]
    exact s.length_breadcrumbs_le
  let start := SentryCrashScope.zero.configureBreadcrumbs s.maxBreadcrumbs
  let told := (scopeFields.map (message s)).foldl (SentryCrashScopeObserver.receive encode) start
  have hcrumbs : told.crumbs = start.crumbs := by
    refine foldl_receive_crumbs (fun m hm => ?_) start
    obtain ⟨f, -, rfl⟩ := List.mem_map.mp hm
    rw [message_target]
    rfl
  have hobserve : (observe encode s traceContext).scope =
      (crumbMessages (s.breadcrumbs.map serialize) : List (SentryScopeObserver User)).foldl
        (SentryCrashScopeObserver.receive encode) told := by
    rw [observe, List.foldl_append]
  rcases Nat.eq_zero_or_pos s.maxBreadcrumbs with hzero | hpos
  · obtain rfl : texts = [] := List.length_eq_zero_iff.mp (by omega)
    have hnone : s.breadcrumbs = [] := List.map_eq_nil_iff.mp encoded
    have hstart : start.writtenCrumbs = [] := by
      simp only [start, SentryCrashScope.configureBreadcrumbs, SentryCrashScope.writtenCrumbs, hzero]
      rfl
    rw [hobserve, hnone, ← hstart]
    have hsame : told.breadcrumbs = start.breadcrumbs ∧ told.maxCrumbs = start.maxCrumbs ∧
        told.currentCrumb = start.currentCrumb := by simpa [SentryCrashScope.crumbs] using hcrumbs
    change told.writtenCrumbs = start.writtenCrumbs
    rw [SentryCrashScope.writtenCrumbs, SentryCrashScope.writtenCrumbs, hsame.1, hsame.2.1,
      hsame.2.2]
  · obtain ⟨hstart, hempty⟩ := SentryCrashScope.zero.configureBreadcrumbs_configured hpos
    obtain ⟨hconfigured, hring⟩ := hstart.of_crumbs_eq hcrumbs
    have hring : told.ring = CyclicBuffer.empty := hring.trans hempty
    let crumbs : List (NSDictionary Value) := s.breadcrumbs.map serialize
    have hencoded : crumbs.map (fun crumb => encode (.ofDictionary crumb)) = texts.map some := by
      rw [List.map_map]
      exact encoded
    obtain ⟨c', hfold, hconfigured', hread⟩ := foldl_crumbMessages_read User hencoded hconfigured
      (by rw [hring]; exact .empty hpos) (by rw [hring]; simpa using hlength)
    rw [hobserve, hfold, hconfigured'.writtenCrumbs_eq_read, hread, hring, CyclicBuffer.read_empty,
      List.nil_append]

end Observe

/-- What `writeScopeJson` adds under a key: the JSON of one element, or an array of elements. -/
inductive ReportElement where
  | json (text : String)
  | array (texts : List String)

def scopeElements (c : TracedCrashScope) : List (String × Option ReportElement) :=
  [("user", c.scope.user.map .json),
    ("dist", c.scope.dist.map .json),
    ("context", c.scope.context.map .json),
    ("traceContext", c.traceContext.map .json),
    ("environment", c.scope.environment.map .json),
    ("tags", c.scope.tags.map .json),
    ("extra", c.scope.extras.map .json),
    ("fingerprint", c.scope.fingerprint.map .json),
    ("level", c.scope.level.map .json),
    ("breadcrumbs",
      if c.scope.writtenCrumbs.isEmpty then none else some (.array c.scope.writtenCrumbs))]

def writeScopeJson (c : TracedCrashScope) : List (String × ReportElement) :=
  (scopeElements c).filterMap fun entry => entry.2.map fun element => (entry.1, element)

def reportKey : ScopeField → String
  | .user => "user"
  | .dist => "dist"
  | .context => "context"
  | .environment => "environment"
  | .tags => "tags"
  | .extras => "extra"
  | .fingerprint => "fingerprint"
  | .level => "level"

/-- A dictionary with the given entries. -/
def initWithDictionary (entries : List (String × Value)) : NSDictionary Value :=
  (entries.map fun entry => ⟨entry.1, entry.2⟩).toAList

section Read
variable (codec : CrashJSON)

def readElement : ReportElement → Option Value
  | .json text => codec.element text
  | .array texts => (texts.mapM codec.element).map .array

/-- The scope as the reader of a report finds it. -/
def readScope (written : List (String × ReportElement)) : NSDictionary Value :=
  initWithDictionary
    (written.filterMap fun entry => (readElement codec entry.2).map fun value => (entry.1, value))

end Read

theorem objectForKey_initWithDictionary (entries : List (String × Value)) (key : String) :
    (initWithDictionary entries).objectForKey key = entries.lookup key := by
  rw [initWithDictionary, NSDictionary.objectForKey, AList.lookup_to_alist]
  induction entries with
  | nil => rfl
  | cons entry rest ih =>
    obtain ⟨k, v⟩ := entry
    by_cases h : key = k
    · subst h
      simp
    · rw [List.map_cons, List.lookup_cons, beq_eq_false_iff_ne.mpr h]
      exact (List.dlookup_cons_ne _ ⟨k, v⟩ h).trans ih

theorem nodup_scopeElements (c : TracedCrashScope) :
    ((scopeElements c).map Prod.fst).Nodup := by
  simp [scopeElements]

/-- The reader finds each element under its own key. -/
theorem objectForKey_readScope (codec : CrashJSON) (c : TracedCrashScope) (key : String) :
    (readScope codec (writeScopeJson c)).objectForKey key =
      ((scopeElements c).lookup key).join.bind (readElement codec) := by
  have hkeys := nodup_scopeElements c
  have hwritten : ((writeScopeJson c).map Prod.fst).Nodup := nodup_filterMap id hkeys
  have hlookup : (writeScopeJson c).lookup key = ((scopeElements c).lookup key).join :=
    lookup_filterMap id hkeys key
  rw [readScope, objectForKey_initWithDictionary, lookup_filterMap (readElement codec) hwritten,
    hlookup]

theorem objectForKey_readScope_field (codec : CrashJSON) (c : TracedCrashScope) (f : ScopeField) :
    (readScope codec (writeScopeJson c)).objectForKey (reportKey f) =
      (c.scope.field f).bind codec.element := by
  have hlookup : (scopeElements c).lookup (reportKey f) = some ((c.scope.field f).map .json) := by
    cases f <;> rfl
  rw [objectForKey_readScope, hlookup, Option.join_some, Option.bind_map]
  rfl

theorem objectForKey_readScope_traceContext (codec : CrashJSON) (c : TracedCrashScope) :
    (readScope codec (writeScopeJson c)).objectForKey "traceContext" =
      c.traceContext.bind codec.element := by
  have hlookup : (scopeElements c).lookup "traceContext" = some (c.traceContext.map .json) := rfl
  rw [objectForKey_readScope, hlookup, Option.join_some, Option.bind_map]
  rfl

theorem objectForKey_readScope_breadcrumbs (codec : CrashJSON) (c : TracedCrashScope) :
    (readScope codec (writeScopeJson c)).objectForKey "breadcrumbs" =
      if c.scope.writtenCrumbs.isEmpty then none
      else (c.scope.writtenCrumbs.mapM codec.element).map .array := by
  have hlookup : (scopeElements c).lookup "breadcrumbs" =
      some (if c.scope.writtenCrumbs.isEmpty then none
        else some (.array c.scope.writtenCrumbs)) := rfl
  rw [objectForKey_readScope, hlookup, Option.join_some]
  split <;> rfl

/-- Crumbs that the encoder accepts have texts, and these are read back one by one. -/
theorem CrashJSON.exists_texts {codec : CrashJSON} {crumbs : List (NSDictionary Value)}
    (accepts : ∀ crumb ∈ crumbs, codec.Accepts (.ofDictionary crumb)) :
    ∃ texts : List String, crumbs.map (fun crumb => codec.encode (.ofDictionary crumb)) = texts.map some ∧
      texts.mapM codec.element =
        some (crumbs.map fun crumb => Value.dictionary (codec.readEntries crumb)) := by
  induction crumbs with
  | nil => exact ⟨[], rfl, rfl⟩
  | cons crumb rest ih =>
    obtain ⟨texts, hrest, hread⟩ := ih fun c hc => accepts c (List.mem_cons_of_mem _ hc)
    have haccepts := accepts crumb List.mem_cons_self
    obtain ⟨json, hjson, -⟩ := id haccepts
    have helement := haccepts.element_eq hjson
    rw [Printing.image_ofDictionary] at helement
    refine ⟨json :: texts, ?_, ?_⟩
    · rw [List.map_cons, List.map_cons, hjson, hrest]
    · simp only [List.mapM_cons, helement, hread, List.map_cons]
      rfl

/-- A scope whose values the crash JSON encoder accepts. Its trace context names a trace. -/
structure AcceptedScope [Descriptions] (codec : CrashJSON) where
  scope : SentryScope SentryUser SentryBreadcrumb
  traceContext : NSDictionary Value
  traceContext_count : 0 < traceContext.count
  accepts_value : ∀ {field value}, scope.value field = some value → codec.Accepts value
  accepts_traceContext : codec.Accepts (.ofDictionary traceContext)
  accepts_crumb : ∀ crumb ∈ scope.breadcrumbs, codec.Accepts (.ofDictionary (serialize crumb))

namespace AcceptedScope
variable [Descriptions] {codec : CrashJSON}

def crashScope (a : AcceptedScope codec) : TracedCrashScope :=
  observe codec.encode a.scope a.traceContext

/-- The scope that is found in the report of a crash. -/
def reported (a : AcceptedScope codec) : NSDictionary Value :=
  readScope codec (writeScopeJson a.crashScope)

theorem reported_field (a : AcceptedScope codec) (f : ScopeField) :
    a.reported.objectForKey (reportKey f) = (a.scope.value f).bind codec.image := by
  have encodable : Encodable codec.encode (a.scope.value f) := fun value hvalue => by
    obtain ⟨json, hjson, -⟩ := a.accepts_value hvalue
    rw [hjson]
    rfl
  rw [reported, objectForKey_readScope_field, crashScope, observe_field f _ encodable]
  cases hvalue : a.scope.value f with
  | none => rfl
  | some value =>
    obtain ⟨json, hjson, -⟩ := id (a.accepts_value hvalue)
    rw [Option.bind_some, Option.bind_some, hjson, Option.bind_some,
      (a.accepts_value hvalue).element_eq hjson]

theorem reported_traceContext (a : AcceptedScope codec) :
    a.reported.objectForKey "traceContext" =
      some (.dictionary (codec.readEntries a.traceContext)) := by
  obtain ⟨json, hjson, -⟩ := id a.accepts_traceContext
  have htext : a.crashScope.traceContext = some json := by
    rw [crashScope, observe, dictionaryValue, if_pos a.traceContext_count, Option.bind_some, hjson]
  rw [reported, objectForKey_readScope_traceContext, htext, Option.bind_some,
    a.accepts_traceContext.element_eq hjson, Printing.image_ofDictionary]

/-- What is read back of the breadcrumbs. -/
def crumbs (a : AcceptedScope codec) : List Value :=
  a.scope.breadcrumbs.map fun crumb => .dictionary (codec.readEntries (serialize crumb))

theorem reported_breadcrumbs (a : AcceptedScope codec) :
    a.reported.objectForKey "breadcrumbs" =
      if a.scope.breadcrumbs = [] then none else some (.array a.crumbs) := by
  let serialized : List (NSDictionary Value) := a.scope.breadcrumbs.map serialize
  have haccepts : ∀ crumb ∈ serialized, codec.Accepts (.ofDictionary crumb) := by
    intro crumb hcrumb
    obtain ⟨c, hc, rfl⟩ := List.mem_map.mp hcrumb
    exact a.accepts_crumb c hc
  obtain ⟨texts, hencoded, hread⟩ := CrashJSON.exists_texts haccepts
  rw [List.map_map] at hencoded hread
  have htexts : a.crashScope.scope.writtenCrumbs = texts :=
    observe_writtenCrumbs a.traceContext hencoded
  have hnil : texts = [] ↔ a.scope.breadcrumbs = [] := by
    have hlength := congrArg List.length hencoded
    rw [List.length_map, List.length_map] at hlength
    rw [← List.length_eq_zero_iff, ← List.length_eq_zero_iff, hlength]
  rw [reported, objectForKey_readScope_breadcrumbs, htexts, hread]
  simp only [List.isEmpty_iff, hnil]
  rfl

end AcceptedScope

end SentryCocoa.CrashReports
