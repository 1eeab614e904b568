import SentryCocoa.Scope

/-! The scope applied to an event. The data of both is merged, and the event's own data wins but
for the user, the level and the trace. -/
namespace SentryCocoa.Scope
open SentryCocoa.Foundation

/-! Dictionaries that are merged. -/

/-- A dictionary as it stands in a value; the entry that is found for a key is the first. -/
abbrev Entries := List (String × Value)

/-- `destination[key] = value` -/
def setEntry (key : String) (value : Value) : Entries → Entries
  | [] => [(key, value)]
  | (key', value') :: entries =>
    if key' = key then (key, value) :: entries else (key', value') :: setEntry key value entries

mutual

/-- What is written for an entry of the merged dictionary, over what the destination has. -/
def mergeObject : Value → Option Value → Value
  | .dictionary entries, some (.dictionary destination) =>
    .dictionary (mergeEntriesFromDictionary entries destination)
  | otherObj, _ => otherObj

/-- Each key is enumerated once, so what the destination has for it is what it had. -/
def mergeEntriesFromDictionary : Entries → Entries → Entries
  | [], destination => destination
  | (otherKey, otherObj) :: entries, destination =>
    setEntry otherKey (mergeObject otherObj (destination.lookup otherKey))
      (mergeEntriesFromDictionary entries destination)

end

/-! Events. -/

/-- What an event takes from a span. The transaction has a name if the span is a tracer. -/
structure SentrySpan where
  serialize : Entries
  transactionName : Option String

structure SentryPropagationContext where
  traceId : String
  spanId : String

def SentryPropagationContext.traceContextForEvent (context : SentryPropagationContext) : Entries :=
  [("span_id", .string context.spanId), ("trace_id", .string context.traceId)]

/-- A scope with the fields that only events take from it. -/
structure EventScope (User Breadcrumb : Type) extends SentryScope User Breadcrumb where
  span : Option SentrySpan
  propagationContext : SentryPropagationContext

structure SentryEvent (User Breadcrumb : Type) where
  type : Option String
  isCrashEvent : Bool
  tags : Option (NSDictionary String)
  extra : Option (NSDictionary Value)
  fingerprint : Option (List String)
  breadcrumbs : Option (List Breadcrumb)
  user : Option User
  dist : Option String
  environment : Option String
  level : SentryLevel
  context : Option Entries
  transaction : Option String

variable {User Breadcrumb : Type}

namespace EventScope

def context (scope : EventScope User Breadcrumb) : Entries :=
  scope.contextDictionary.entries.map fun entry => (entry.1, Value.ofDictionary entry.2)

def buildTraceContext (scope : EventScope User Breadcrumb) : Option SentrySpan → Entries
  | some span => span.serialize
  | none => scope.propagationContext.traceContextForEvent

def applyToEvent (scope : EventScope User Breadcrumb) (event : SentryEvent User Breadcrumb)
    (maxBreadcrumbs : Nat) : SentryEvent User Breadcrumb :=
  let fingerprints := scope.fingerprintArray
  let breadcrumbs := scope.breadcrumbs
  let newContext := match event.context with
    | some context => mergeEntriesFromDictionary context scope.context
    | none => scope.context
  let event := { event with
    tags := match event.tags with
      | none => some scope.tagDictionary
      | some tags => some (NSDictionary.addEntriesFromDictionary
          (NSDictionary.addEntriesFromDictionary ∅ scope.tagDictionary) tags)
    extra := match event.extra with
      | none => some scope.extraDictionary
      | some extra => some (NSDictionary.addEntriesFromDictionary
          (NSDictionary.addEntriesFromDictionary ∅ scope.extraDictionary) extra)
    fingerprint := if fingerprints.length > 0 ∧ event.fingerprint = none then some fingerprints
      else event.fingerprint
    breadcrumbs := match event.breadcrumbs with
      | none => some (breadcrumbs.take (min maxBreadcrumbs breadcrumbs.length))
      | some breadcrumbs => some breadcrumbs
    user := match scope.userObject with
      | some user => some user
      | none => event.user
    dist := if scope.distString ≠ none ∧ event.dist = none then scope.distString else event.dist
    environment := if scope.environmentString ≠ none ∧ event.environment = none then
        scope.environmentString
      else event.environment
    level := if scope.levelEnum ≠ SentryLevel.none then scope.levelEnum else event.level }
  -- A crash event is of a previous run, and so is its trace.
  if event.isCrashEvent then { event with context := some newContext }
  else { event with
    transaction := match scope.span with
      | some span =>
        if event.type ≠ some "transaction" ∧ span.transactionName.isSome then span.transactionName
        else event.transaction
      | none => event.transaction
    context := some
      (setEntry "trace" (.dictionary (scope.buildTraceContext scope.span)) newContext) }

end EventScope

/-! What a merged dictionary has. -/

/-- The entry of a destination, of the dictionary that is merged into it, and of the result. At
every depth the entry of the dictionary wins, unless both are dictionaries. -/
inductive Merged : Option Value → Option Value → Option Value → Prop
  | absent (old : Option Value) : Merged old none old
  | wins {old : Option Value} {new : Value}
      (leaf : ∀ entries destination, new = .dictionary entries →
        old ≠ some (.dictionary destination)) : Merged old (some new) (some new)
  | both {destination entries merged : Entries}
      (inner : ∀ key, Merged (destination.lookup key) (entries.lookup key) (merged.lookup key)) :
      Merged (some (.dictionary destination)) (some (.dictionary entries))
        (some (.dictionary merged))

/-- Two objects with the same entries at every depth. -/
inductive SameValue : Option Value → Option Value → Prop
  | refl (value : Option Value) : SameValue value value
  | dictionary {entries entries' : Entries}
      (inner : ∀ key, SameValue (entries.lookup key) (entries'.lookup key)) :
      SameValue (some (.dictionary entries)) (some (.dictionary entries'))

theorem lookup_cons_entry (key key' : String) (value : Value) (entries : Entries) :
    List.lookup key' ((key, value) :: entries) =
      if key' = key then some value else entries.lookup key' := by
  by_cases h : key' = key
  · rw [if_pos h, h, List.lookup_cons, beq_self_eq_true]
  · rw [if_neg h, List.lookup_cons, beq_eq_false_iff_ne.2 h]

theorem lookup_setEntry (key key' : String) (value : Value) (entries : Entries) :
    (setEntry key value entries).lookup key' =
      if key' = key then some value else entries.lookup key' := by
  induction entries with
  | nil => exact lookup_cons_entry key key' value []
  | cons entry entries ih =>
    obtain ⟨other, value'⟩ := entry
    rw [setEntry]
    by_cases hother : other = key
    · rw [if_pos hother, hother, lookup_cons_entry, lookup_cons_entry]
      by_cases h : key' = key
      · rw [if_pos h, if_pos h]
      · rw [if_neg h, if_neg h, if_neg h]
    · rw [if_neg hother, lookup_cons_entry, lookup_cons_entry, ih]
      by_cases h : key' = other
      · have hne : key' ≠ key := fun heq => hother (h.symm.trans heq)
        rw [if_pos h, if_pos h, if_neg hne]
      · rw [if_neg h, if_neg h]

mutual

theorem merged_mergeObject (otherObj : Value) (old : Option Value) :
    Merged old (some otherObj) (some (mergeObject otherObj old)) := by
  cases otherObj with
  | dictionary entries =>
    cases old with
    | none => exact .wins fun _ _ _ h => nomatch h
    | some value =>
      cases value with
      | dictionary destination => exact .both (merged_mergeEntries entries destination)
      | _ => exact .wins fun _ _ _ h => nomatch h
  | _ => exact .wins fun _ _ h => nomatch h

theorem merged_mergeEntries (entries destination : Entries) (key : String) :
    Merged (destination.lookup key) (entries.lookup key)
      ((mergeEntriesFromDictionary entries destination).lookup key) := by
  cases entries with
  | nil => exact .absent _
  | cons entry entries =>
    obtain ⟨otherKey, otherObj⟩ := entry
    rw [mergeEntriesFromDictionary, lookup_setEntry, lookup_cons_entry]
    by_cases h : key = otherKey
    · rw [if_pos h, if_pos h, h]
      exact merged_mergeObject otherObj (destination.lookup otherKey)
    · rw [if_neg h, if_neg h]
      exact merged_mergeEntries entries destination key

end

theorem Merged.same_of_self {old new result : Option Value} (h : Merged old new result)
    (heq : old = new) : SameValue old result := by
  induction h with
  | absent old => exact .refl old
  | wins leaf =>
    rw [heq]
    exact .refl _
  | both inner ih =>
    cases heq
    exact .dictionary fun key => ih key rfl

/-- What was merged is the same when it is merged again. -/
theorem Merged.again {old new result result' : Option Value} (h : Merged old new result)
    (h' : Merged old result result') : SameValue result result' := by
  induction h generalizing result' with
  | absent old => exact h'.same_of_self rfl
  | wins leaf =>
    cases h' with
    | wins _ => exact .refl _
    | both _ => exact absurd rfl (leaf _ _ rfl)
  | both inner ih =>
    cases h' with
    | wins leaf => exact absurd rfl (leaf _ _ rfl)
    | both inner' => exact .dictionary fun key => ih key (inner' key)

/-! What the scope makes of an event. -/

/-- Dictionaries with the same entries. -/
def SameDictionary {α : Type} (d d' : Option (NSDictionary α)) : Prop :=
  d.isSome = d'.isSome ∧ ∀ key, d.bind (·.objectForKey key) = d'.bind (·.objectForKey key)

/-- Events that differ in nothing but the order of the entries of a dictionary. -/
structure SameEvent (event event' : SentryEvent User Breadcrumb) : Prop where
  tags : SameDictionary event.tags event'.tags
  extra : SameDictionary event.extra event'.extra
  context : event.context.isSome = event'.context.isSome ∧
    ∀ key, SameValue (event.context.bind (·.lookup key)) (event'.context.bind (·.lookup key))
  others : { event with tags := none, extra := none, context := none } =
    { event' with tags := none, extra := none, context := none }

/-- The event with the data of the scope. A fingerprint that is not set is one without entries. -/
structure AppliedTo (scope : EventScope User Breadcrumb) (event : SentryEvent User Breadcrumb)
    (maxBreadcrumbs : Nat) (result : SentryEvent User Breadcrumb) : Prop where
  tags : ∀ key, result.tags.bind (·.objectForKey key) =
    (event.tags.bind (·.objectForKey key)).or (scope.tagDictionary.objectForKey key)
  extra : ∀ key, result.extra.bind (·.objectForKey key) =
    (event.extra.bind (·.objectForKey key)).or (scope.extraDictionary.objectForKey key)
  context : ∀ key ≠ "trace", Merged (scope.context.lookup key)
    (event.context.bind (·.lookup key)) (result.context.bind (·.lookup key))
  fingerprint : event.fingerprint.isSome → result.fingerprint = event.fingerprint
  scopeFingerprint : event.fingerprint = none → result.fingerprint.getD [] = scope.fingerprintArray
  dist : result.dist = event.dist.or scope.distString
  environment : result.environment = event.environment.or scope.environmentString
  breadcrumbs : result.breadcrumbs =
    some (event.breadcrumbs.getD
      (scope.breadcrumbs.rtake (min maxBreadcrumbs scope.breadcrumbs.length)))
  again : SameEvent result (scope.applyToEvent result maxBreadcrumbs)

namespace EventScope

/-- How tags and extra data are merged. -/
def overridden {α : Type} (dictionary : NSDictionary α) (own : Option (NSDictionary α)) :
    Option (NSDictionary α) :=
  match own with
  | none => some dictionary
  | some own => some (NSDictionary.addEntriesFromDictionary
      (NSDictionary.addEntriesFromDictionary ∅ dictionary) own)

theorem objectForKey_overridden {α : Type} (dictionary : NSDictionary α)
    (own : Option (NSDictionary α)) (key : String) :
    (overridden dictionary own).bind (·.objectForKey key) =
      (own.bind (·.objectForKey key)).or (dictionary.objectForKey key) := by
  cases own with
  | none => rfl
  | some own =>
    change NSDictionary.objectForKey (NSDictionary.addEntriesFromDictionary _ own) key = _
    rw [objectForKey_addEntriesFromDictionary, objectForKey_addEntriesFromDictionary,
      objectForKey_empty, Option.or_none]
    rfl

theorem sameDictionary_overridden {α : Type} (dictionary : NSDictionary α)
    (own : Option (NSDictionary α)) :
    SameDictionary (overridden dictionary own)
      (overridden dictionary (overridden dictionary own)) := by
  refine ⟨?_, fun key => ?_⟩
  · cases own <;> rfl
  · rw [objectForKey_overridden dictionary (overridden dictionary own), objectForKey_overridden,
      Option.or_assoc, Option.or_self]

section

variable (scope : EventScope User Breadcrumb) (event : SentryEvent User Breadcrumb)
variable (maxBreadcrumbs : Nat)

theorem ite_eq_or {α : Type} [DecidableEq α] (own other : Option α) :
    (if other ≠ none ∧ own = none then other else own) = own.or other := by
  cases own with
  | none =>
    cases other with
    | none => rfl
    | some other => exact if_pos ⟨(fun h => nomatch h), rfl⟩
  | some own => exact if_neg fun h => nomatch h.2

/-- The name of a transaction that the event is not itself. -/
def eventTransaction : Option String :=
  match scope.span with
  | some span =>
    if event.type ≠ some "transaction" ∧ span.transactionName.isSome then span.transactionName
    else event.transaction
  | none => event.transaction

def newContext : Entries :=
  mergeEntriesFromDictionary (event.context.getD []) scope.context

theorem applyToEvent_eq : scope.applyToEvent event maxBreadcrumbs =
    { type := event.type
      isCrashEvent := event.isCrashEvent
      tags := overridden scope.tagDictionary event.tags
      extra := overridden scope.extraDictionary event.extra
      fingerprint := if scope.fingerprintArray.length > 0 ∧ event.fingerprint = none then
          some scope.fingerprintArray
        else event.fingerprint
      breadcrumbs := some (event.breadcrumbs.getD
        (scope.breadcrumbs.take (min maxBreadcrumbs scope.breadcrumbs.length)))
      user := scope.userObject.or event.user
      dist := event.dist.or scope.distString
      environment := event.environment.or scope.environmentString
      level := if scope.levelEnum ≠ SentryLevel.none then scope.levelEnum else event.level
      context := some (if event.isCrashEvent = true then scope.newContext event
        else setEntry "trace" (.dictionary (scope.buildTraceContext scope.span))
          (scope.newContext event))
      transaction := if event.isCrashEvent = true then event.transaction
        else scope.eventTransaction event } := by
  have hcontext : (match event.context with
      | some context => mergeEntriesFromDictionary context scope.context
      | none => scope.context) = scope.newContext event := by
    unfold newContext
    cases event.context <;> rfl
  have hbreadcrumbs : (match event.breadcrumbs with
      | none => some (scope.breadcrumbs.take (min maxBreadcrumbs scope.breadcrumbs.length))
      | some breadcrumbs => some breadcrumbs) = some (event.breadcrumbs.getD
        (scope.breadcrumbs.take (min maxBreadcrumbs scope.breadcrumbs.length))) := by
    cases event.breadcrumbs <;> rfl
  have huser : (match scope.userObject with
      | some user => some user
      | none => event.user) = scope.userObject.or event.user := by
    cases scope.userObject <;> rfl
  have htags : (match event.tags with
      | none => some scope.tagDictionary
      | some tags => some (NSDictionary.addEntriesFromDictionary
          (NSDictionary.addEntriesFromDictionary ∅ scope.tagDictionary) tags)) =
      overridden scope.tagDictionary event.tags := by
    cases event.tags <;> rfl
  have hextra : (match event.extra with
      | none => some scope.extraDictionary
      | some extra => some (NSDictionary.addEntriesFromDictionary
          (NSDictionary.addEntriesFromDictionary ∅ scope.extraDictionary) extra)) =
      overridden scope.extraDictionary event.extra := by
    cases event.extra <;> rfl
  unfold applyToEvent
  dsimp only
  rw [hcontext, hbreadcrumbs, huser, htags, hextra, ite_eq_or, ite_eq_or]
  by_cases h : event.isCrashEvent = true
  · simp only [if_pos h]
  · simp only [if_neg h]
    rfl

theorem merged_newContext (key : String) : Merged (scope.context.lookup key)
    (event.context.bind (·.lookup key)) ((scope.newContext event).lookup key) := by
  have hcontext : event.context.bind (·.lookup key) = (event.context.getD []).lookup key := by
    cases event.context <;> rfl
  rw [hcontext]
  exact merged_mergeEntries (event.context.getD []) scope.context key

/-- Only the entry of the trace is not a merged one, and only if the event is not a crash. -/
theorem lookup_context (key : String) :
    ((scope.applyToEvent event maxBreadcrumbs).context.bind (·.lookup key)) =
      if key = "trace" ∧ event.isCrashEvent = false then
        some (.dictionary (scope.buildTraceContext scope.span))
      else (scope.newContext event).lookup key := by
  rw [applyToEvent_eq, Option.bind_some]
  by_cases hcrash : event.isCrashEvent = true
  · rw [if_pos hcrash, if_neg fun h => Bool.noConfusion (hcrash.symm.trans h.2)]
  · rw [if_neg hcrash, lookup_setEntry]
    have hfalse : event.isCrashEvent = false := Bool.eq_false_iff.2 hcrash
    by_cases hkey : key = "trace"
    · rw [if_pos hkey, if_pos ⟨hkey, hfalse⟩]
    · rw [if_neg hkey, if_neg fun h => hkey h.1]

theorem sameContext_again (key : String) :
    SameValue ((scope.applyToEvent event maxBreadcrumbs).context.bind (·.lookup key))
      ((scope.applyToEvent (scope.applyToEvent event maxBreadcrumbs) maxBreadcrumbs).context.bind
        (·.lookup key)) := by
  have hcrash : (scope.applyToEvent event maxBreadcrumbs).isCrashEvent = event.isCrashEvent := by
    rw [applyToEvent_eq]
  have hagain := scope.merged_newContext (scope.applyToEvent event maxBreadcrumbs) key
  rw [lookup_context scope (scope.applyToEvent event maxBreadcrumbs), hcrash]
  rw [lookup_context] at hagain ⊢
  by_cases htrace : key = "trace" ∧ event.isCrashEvent = false
  · rw [if_pos htrace, if_pos htrace]
    exact .refl _
  · rw [if_neg htrace] at hagain ⊢
    rw [if_neg htrace]
    exact (scope.merged_newContext event key).again hagain

theorem eventTransaction_again {event event' : SentryEvent User Breadcrumb}
    (htype : event'.type = event.type) (h : event'.transaction = scope.eventTransaction event) :
    scope.eventTransaction event' = scope.eventTransaction event := by
  unfold eventTransaction at h ⊢
  rw [htype]
  cases hspan : scope.span with
  | none =>
    rw [hspan] at h
    exact h
  | some span =>
    rw [hspan] at h
    dsimp only at h ⊢
    by_cases hname : event.type ≠ some "transaction" ∧ span.transactionName.isSome
    · rw [if_pos hname, if_pos hname]
    · rw [if_neg hname] at h ⊢
      rw [if_neg hname]
      exact h

theorem ite_again {α : Type} (p : Prop) [Decidable p] (own : Option α) (other : α) :
    (if p ∧ (if p ∧ own = none then some other else own) = none then some other
      else if p ∧ own = none then some other else own) =
      if p ∧ own = none then some other else own := by
  by_cases h : p ∧ own = none
  · rw [if_pos h, if_neg fun h' => nomatch h'.2]
  · rw [if_neg h, if_neg h]

theorem sameEvent_again : SameEvent (scope.applyToEvent event maxBreadcrumbs)
    (scope.applyToEvent (scope.applyToEvent event maxBreadcrumbs) maxBreadcrumbs) where
  tags := by
    simp only [applyToEvent_eq]
    exact sameDictionary_overridden scope.tagDictionary event.tags
  extra := by
    simp only [applyToEvent_eq]
    exact sameDictionary_overridden scope.extraDictionary event.extra
  context := by
    constructor
    · rw [applyToEvent_eq scope (scope.applyToEvent event maxBreadcrumbs), applyToEvent_eq]
      rfl
    · exact scope.sameContext_again event maxBreadcrumbs
  others := by
    have htransaction : (if event.isCrashEvent = true then
          (scope.applyToEvent event maxBreadcrumbs).transaction
        else scope.eventTransaction (scope.applyToEvent event maxBreadcrumbs)) =
        (scope.applyToEvent event maxBreadcrumbs).transaction := by
      by_cases hcrash : event.isCrashEvent = true
      · rw [if_pos hcrash]
      · have hset : (scope.applyToEvent event maxBreadcrumbs).transaction =
            scope.eventTransaction event := by
          rw [applyToEvent_eq]
          exact if_neg hcrash
        have htype : (scope.applyToEvent event maxBreadcrumbs).type = event.type := by
          rw [applyToEvent_eq]
        rw [if_neg hcrash, scope.eventTransaction_again htype hset, hset]
    rw [applyToEvent_eq scope (scope.applyToEvent event maxBreadcrumbs)]
    rw [applyToEvent_eq] at htransaction ⊢
    dsimp only at htransaction ⊢
    rw [htransaction, ite_again, Option.getD_some, ← Option.or_assoc, Option.or_self,
      Option.or_assoc, Option.or_self, Option.or_assoc, Option.or_self]
    by_cases hlevel : scope.levelEnum ≠ SentryLevel.none
    · rw [if_pos hlevel, if_pos hlevel]
    · rw [if_neg hlevel, if_neg hlevel]

theorem take_eq_rtake_iff {α : Type} (count : Nat) (crumbs : List α) :
    crumbs.take (min count crumbs.length) = crumbs.rtake (min count crumbs.length) ↔
      crumbs.length ≤ count ∨
        ∀ i < count, crumbs[i]? = crumbs[i + (crumbs.length - count)]? := by
  unfold List.rtake
  constructor
  · intro h
    refine (Nat.lt_or_ge count crumbs.length).elim (fun hlt => .inr fun i hi => ?_) .inl
    rw [min_eq_left hlt.le] at h
    have hget := congrArg (·[i]?) h
    simpa only [List.getElem?_take, if_pos hi, List.getElem?_drop, Nat.add_comm i] using hget
  · intro h
    rcases h with hall | hperiod
    · rw [min_eq_right hall, Nat.sub_self, List.take_length]
      rfl
    · apply List.ext_getElem?
      intro i
      rw [List.getElem?_take, List.getElem?_drop]
      by_cases hi : i < min count crumbs.length
      · have hle : min count crumbs.length = count ∨ crumbs.length ≤ count := by omega
        rw [if_pos hi, hperiod i (by omega), Nat.add_comm]
        congr 1
        omega
      · rw [if_neg hi, List.getElem?_eq_none (by omega)]

/-- The scope hands out its breadcrumbs from the oldest on. -/
theorem appliedTo_iff :
    AppliedTo scope event maxBreadcrumbs (scope.applyToEvent event maxBreadcrumbs) ↔
      event.breadcrumbs.isSome = true ∨ scope.breadcrumbs.length ≤ maxBreadcrumbs ∨
        ∀ i < maxBreadcrumbs, scope.breadcrumbs[i]? =
          scope.breadcrumbs[i + (scope.breadcrumbs.length - maxBreadcrumbs)]? := by
  have hcrumbs : (scope.applyToEvent event maxBreadcrumbs).breadcrumbs =
      some (event.breadcrumbs.getD
        (scope.breadcrumbs.take (min maxBreadcrumbs scope.breadcrumbs.length))) := by
    rw [applyToEvent_eq]
  rw [← take_eq_rtake_iff]
  constructor
  · intro h
    cases hown : event.breadcrumbs with
    | some _ => exact .inl rfl
    | none =>
      have heq := hcrumbs.symm.trans h.breadcrumbs
      rw [hown] at heq
      exact .inr (Option.some.inj heq)
  · intro h
    constructor
    case tags =>
      intro key
      rw [applyToEvent_eq]
      exact objectForKey_overridden scope.tagDictionary event.tags key
    case extra =>
      intro key
      rw [applyToEvent_eq]
      exact objectForKey_overridden scope.extraDictionary event.extra key
    case context =>
      intro key hkey
      rw [lookup_context, if_neg fun htrace => hkey htrace.1]
      exact scope.merged_newContext event key
    case fingerprint =>
      intro hset
      rw [applyToEvent_eq]
      exact if_neg fun hnone => by simp [hnone.2] at hset
    case scopeFingerprint =>
      intro hnone
      rw [applyToEvent_eq]
      dsimp only
      cases hfingerprint : scope.fingerprintArray with
      | nil => rw [hnone]; rfl
      | cons _ _ => rw [hnone, if_pos ⟨Nat.succ_pos _, rfl⟩]; rfl
    case dist => rw [applyToEvent_eq]
    case environment => rw [applyToEvent_eq]
    case breadcrumbs =>
      rw [hcrumbs]
      rcases h with hown | heq
      · obtain ⟨crumbs, hsome⟩ := Option.isSome_iff_exists.1 hown
        rw [hsome]
        rfl
      · rw [heq]
    case again => exact scope.sameEvent_again event maxBreadcrumbs

/-- Of two breadcrumbs, the older one is handed out where there is room for one. -/
theorem two_crumbs_for_one : ∃ (scope : EventScope String String)
    (event : SentryEvent String String), scope.breadcrumbs = ["a", "b"] ∧
      (scope.applyToEvent event 1).breadcrumbs = some ["a"] ∧
      ¬ AppliedTo scope event 1 (scope.applyToEvent event 1) := by
  let scope : EventScope String String :=
    { (SentryScope.initWithMaxBreadcrumbs 2 : SentryScope String String) with
      breadcrumbArray := ["a", "b"]
      span := none
      propagationContext := ⟨"t", "s"⟩ }
  let event : SentryEvent String String :=
    { type := none, isCrashEvent := false, tags := none, extra := none, fingerprint := none
      breadcrumbs := none, user := none, dist := none, environment := none, level := .error
      context := none, transaction := none }
  have hcrumbs : (scope.applyToEvent event 1).breadcrumbs = some ["a"] := rfl
  refine ⟨scope, event, rfl, hcrumbs, fun h => ?_⟩
  have hrecent := hcrumbs.symm.trans h.breadcrumbs
  exact absurd hrecent (by decide)

end

end EventScope

end SentryCocoa.Scope
