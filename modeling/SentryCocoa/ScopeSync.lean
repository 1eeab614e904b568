import SentryCocoa.ScopeBreadcrumbs

/-! The crash reporter keeps its own copy of the scope in C, as JSON texts that
a signal handler can write without allocating. An observer of the scope brings
every message into that copy. -/
namespace SentryCocoa.Scope
open SentryCocoa.Foundation SentryCocoa.Library.Machine SentryCocoa.Library.RingBuffer

/-- The C structure; an absent text is a NULL pointer. -/
structure SentryCrashScope where
  user : Option String
  dist : Option String
  context : Option String
  environment : Option String
  tags : Option String
  extras : Option String
  fingerprint : Option String
  level : Option String
  breadcrumbs : Option (List (Option String))
  maxCrumbs : Nat
  currentCrumb : Nat

namespace SentryCrashScope

/-- The structure before anything was written to it. -/
def zero : SentryCrashScope :=
  ⟨none, none, none, none, none, none, none, none, none, 0, 0⟩

def setUser (scope : SentryCrashScope) (json : Option String) : SentryCrashScope :=
  { scope with user := json }

def setDist (scope : SentryCrashScope) (json : Option String) : SentryCrashScope :=
  { scope with dist := json }

def setContext (scope : SentryCrashScope) (json : Option String) : SentryCrashScope :=
  { scope with context := json }

def setEnvironment (scope : SentryCrashScope) (json : Option String) : SentryCrashScope :=
  { scope with environment := json }

def setTags (scope : SentryCrashScope) (json : Option String) : SentryCrashScope :=
  { scope with tags := json }

def setExtras (scope : SentryCrashScope) (json : Option String) : SentryCrashScope :=
  { scope with extras := json }

def setFingerprint (scope : SentryCrashScope) (json : Option String) : SentryCrashScope :=
  { scope with fingerprint := json }

def setLevel (scope : SentryCrashScope) (json : Option String) : SentryCrashScope :=
  { scope with level := json }

def addBreadcrumb (scope : SentryCrashScope) (json : Option String) : SentryCrashScope :=
  match scope.breadcrumbs with
  | none => scope
  | some crumbs =>
    if scope.maxCrumbs < 1 then scope
    else
      { scope with
        breadcrumbs := some (crumbs.set scope.currentCrumb json)
        currentCrumb := (scope.currentCrumb + 1) % scope.maxCrumbs }

def clearBreadcrumbs (scope : SentryCrashScope) : SentryCrashScope :=
  match scope.breadcrumbs with
  | none => scope
  | some crumbs =>
    if scope.maxCrumbs < 1 then scope
    else { scope with breadcrumbs := some (crumbs.map fun _ => none), currentCrumb := 0 }

def configureBreadcrumbs (scope : SentryCrashScope) (maxBreadcrumbs : Nat) : SentryCrashScope :=
  { scope with
    breadcrumbs := some (List.replicate maxBreadcrumbs none)
    maxCrumbs := maxBreadcrumbs
    currentCrumb := 0 }

def clear (scope : SentryCrashScope) : SentryCrashScope :=
  ((((((((scope.setUser none).setDist none).setContext none).setEnvironment none).setTags
    none).setExtras none).setFingerprint none).setLevel none).clearBreadcrumbs

/-- The crumbs that `writeScopeJson` adds to a crash report, in order. -/
def writtenCrumbs (scope : SentryCrashScope) : List String :=
  match scope.breadcrumbs with
  | none => []
  | some crumbs =>
    let areThereBreadcrumbs :=
      (List.range scope.maxCrumbs).any fun i => (crumbs[i]?).join.isSome
    if areThereBreadcrumbs then
      (List.range scope.maxCrumbs).filterMap fun i =>
        (crumbs[(scope.currentCrumb + i) % scope.maxCrumbs]?).join
    else []

end SentryCrashScope

/-- A dictionary is given to the encoder only when it has an entry. -/
def dictionaryValue (d : NSDictionary Value) : Option Value :=
  if d.count > 0 then some (.ofDictionary d) else none

def fingerprintValue (fingerprint : List String) : Option Value :=
  if fingerprint.length > 0 then some (.array (fingerprint.map .string)) else none

def levelValue (level : SentryLevel) : Option Value :=
  if level = .none then none else some (.string (nameForSentryLevel level))

variable {User Breadcrumb : Type} [SentrySerializable User] [SentrySerializable Breadcrumb]

def userValue (user : User) : Value := .ofDictionary (serialize user)

namespace SentryCrashScopeObserver

/-- `encode` is the crash JSON encoder; a value it rejects leaves the field as it is. -/
def syncScope {α : Type} (encode : Value → Option String) (object : Option α)
    (serialize : α → Option Value)
    (syncToSentryCrash : SentryCrashScope → Option String → SentryCrashScope)
    (scope : SentryCrashScope) : SentryCrashScope :=
  match object with
  | none => syncToSentryCrash scope none
  | some object =>
    match serialize object with
    | none => syncToSentryCrash scope none
    | some serialized =>
      match encode serialized with
      | none => scope
      | some json => syncToSentryCrash scope (some json)

def receive (encode : Value → Option String) (scope : SentryCrashScope) :
    SentryScopeObserver User → SentryCrashScope
  | .setUser user => syncScope encode user (fun user => some (userValue user)) .setUser scope
  | .setTags tags => syncScope encode (some (tags.map .string)) dictionaryValue .setTags scope
  | .setExtras extras => syncScope encode (some extras) dictionaryValue .setExtras scope
  | .setContext context => syncScope encode (some context) dictionaryValue .setContext scope
  | .setDist dist => syncScope encode dist (fun dist => some (.string dist)) .setDist scope
  | .setEnvironment environment =>
    syncScope encode environment (fun environment => some (.string environment))
      .setEnvironment scope
  | .setFingerprint fingerprint =>
    syncScope encode (some fingerprint) fingerprintValue .setFingerprint scope
  | .setLevel level =>
    match level with
    | .none => scope.setLevel none
    | level => scope.setLevel (encode (.string (nameForSentryLevel level)))
  | .addSerializedBreadcrumb crumb =>
    match encode (.ofDictionary crumb) with
    | none => scope
    | some json => scope.addBreadcrumb (some json)
  | .clearBreadcrumbs => scope.clearBreadcrumbs
  | .clear => scope.clear

end SentryCrashScopeObserver

/-- A scope with the C scope that its observer keeps. -/
structure MirroredScope (User Breadcrumb : Type) where
  scope : SentryScope User Breadcrumb
  crashScope : SentryCrashScope

def MirroredScope.step (encode : Value → Option String) (m : MirroredScope User Breadcrumb)
    (mutation : Mutation User Breadcrumb) : Option (MirroredScope User Breadcrumb) :=
  (m.scope.mutate mutation).map fun (scope, sent) =>
    ⟨scope, sent.foldl (SentryCrashScopeObserver.receive encode) m.crashScope⟩

inductive ScopeField where
  | user | dist | context | environment | tags | extras | fingerprint | level
  deriving DecidableEq, Repr

def SentryCrashScope.field (scope : SentryCrashScope) : ScopeField → Option String
  | .user => scope.user
  | .dist => scope.dist
  | .context => scope.context
  | .environment => scope.environment
  | .tags => scope.tags
  | .extras => scope.extras
  | .fingerprint => scope.fingerprint
  | .level => scope.level

/-- The value of a field, absent when it is nil or an empty collection. -/
def SentryScope.value (s : SentryScope User Breadcrumb) : ScopeField → Option Value
  | .user => s.userObject.map userValue
  | .dist => s.distString.map .string
  | .context => dictionaryValue (s.contextDictionary.map .ofDictionary)
  | .environment => s.environmentString.map .string
  | .tags => dictionaryValue (s.tagDictionary.map .string)
  | .extras => dictionaryValue s.extraDictionary
  | .fingerprint => fingerprintValue s.fingerprintArray
  | .level => levelValue s.levelEnum

/-- The text is the encoding of the value; a value without an encoding asks for nothing. -/
def Holds (encode : Value → Option String) (text : Option String) (value : Option Value) : Prop :=
  match value with
  | none => text = none
  | some value => ∀ json, encode value = some json → text = some json

def MirroredScope.Mirrored (encode : Value → Option String) (m : MirroredScope User Breadcrumb) :
    Prop :=
  ∀ field, Holds encode (m.crashScope.field field) (m.scope.value field)

def ScopeField.set : ScopeField → SentryCrashScope → Option String → SentryCrashScope
  | .user => .setUser
  | .dist => .setDist
  | .context => .setContext
  | .environment => .setEnvironment
  | .tags => .setTags
  | .extras => .setExtras
  | .fingerprint => .setFingerprint
  | .level => .setLevel

/-- The field that a message writes, with the value that it should hold. -/
def SentryScopeObserver.target : SentryScopeObserver User → Option (ScopeField × Option Value)
  | .setUser user => some (.user, user.map userValue)
  | .setTags tags => some (.tags, dictionaryValue (tags.map .string))
  | .setExtras extras => some (.extras, dictionaryValue extras)
  | .setContext context => some (.context, dictionaryValue context)
  | .setDist dist => some (.dist, dist.map .string)
  | .setEnvironment environment => some (.environment, environment.map .string)
  | .setFingerprint fingerprint => some (.fingerprint, fingerprintValue fingerprint)
  | .setLevel level => some (.level, levelValue level)
  | .addSerializedBreadcrumb _ | .clearBreadcrumbs | .clear => none

section Sync
variable {encode : Value → Option String}

omit [SentrySerializable User] [SentrySerializable Breadcrumb] in
@[simp] theorem ScopeField.field_set (f : ScopeField) (c : SentryCrashScope)
    (json : Option String) : (f.set c json).field f = json := by
  cases f <;> rfl

omit [SentrySerializable User] [SentrySerializable Breadcrumb] in
theorem ScopeField.field_set_of_ne {f g : ScopeField} (h : g ≠ f) (c : SentryCrashScope)
    (json : Option String) : (f.set c json).field g = c.field g := by
  cases f <;> cases g <;> first | rfl | exact absurd rfl h

theorem Holds.of_none : Holds encode none none := rfl

theorem Holds.of_encode (value : Value) : Holds encode (encode value) (some value) :=
  fun _ h => h

theorem syncScope_field_of_ne {α : Type} {f g : ScopeField} (h : g ≠ f) (object : Option α)
    (serialize : α → Option Value) (c : SentryCrashScope) :
    (SentryCrashScopeObserver.syncScope encode object serialize f.set c).field g = c.field g := by
  unfold SentryCrashScopeObserver.syncScope
  repeat' split
  all_goals first | exact ScopeField.field_set_of_ne h c _ | rfl

theorem syncScope_holds {α : Type} (f : ScopeField) (object : Option α)
    (serialize : α → Option Value) (c : SentryCrashScope) :
    Holds encode ((SentryCrashScopeObserver.syncScope encode object serialize f.set c).field f)
      (object.bind serialize) := by
  unfold SentryCrashScopeObserver.syncScope
  cases object with
  | none => simp [Holds]
  | some object =>
    cases hserialized : serialize object with
    | none => simp [Holds, hserialized]
    | some serialized =>
      cases hjson : encode serialized with
      | none => simp [Holds, hserialized, hjson]
      | some json => simp [Holds, hserialized, hjson]

open SentryCrashScopeObserver in
/-- A message for one field leaves the others as they are. -/
theorem receive_field_of_ne {message : SentryScopeObserver User} {f g : ScopeField}
    {value : Option Value} (target : message.target = some (f, value)) (h : g ≠ f)
    (c : SentryCrashScope) : (receive encode c message).field g = c.field g := by
  cases message with
  | setLevel level =>
    cases target
    cases level <;> exact ScopeField.field_set_of_ne h c _
  | addSerializedBreadcrumb crumb => cases target
  | clearBreadcrumbs => cases target
  | clear => cases target
  | setUser user => cases target; exact syncScope_field_of_ne h _ _ c
  | setTags tags => cases target; exact syncScope_field_of_ne h _ _ c
  | setExtras extras => cases target; exact syncScope_field_of_ne h _ _ c
  | setContext context => cases target; exact syncScope_field_of_ne h _ _ c
  | setDist dist => cases target; exact syncScope_field_of_ne h _ _ c
  | setEnvironment environment =>
    cases target
    exact syncScope_field_of_ne h _ _ c
  | setFingerprint fingerprint =>
    cases target
    exact syncScope_field_of_ne h _ _ c

open SentryCrashScopeObserver in
theorem receive_holds {message : SentryScopeObserver User} {f : ScopeField} {value : Option Value}
    (target : message.target = some (f, value)) (c : SentryCrashScope) :
    Holds encode ((receive encode c message).field f) value := by
  cases message with
  | setLevel level =>
    cases target
    cases level <;> first | exact Holds.of_none | exact Holds.of_encode _
  | addSerializedBreadcrumb crumb => cases target
  | clearBreadcrumbs => cases target
  | clear => cases target
  | setUser user =>
    cases target
    cases user <;> exact syncScope_holds .user _ _ c
  | setTags tags => cases target; exact syncScope_holds .tags _ _ c
  | setExtras extras => cases target; exact syncScope_holds .extras _ _ c
  | setContext context => cases target; exact syncScope_holds .context _ _ c
  | setDist dist =>
    cases target
    cases dist <;> exact syncScope_holds .dist _ _ c
  | setEnvironment environment =>
    cases target
    cases environment <;> exact syncScope_holds .environment _ _ c
  | setFingerprint fingerprint => cases target; exact syncScope_holds .fingerprint _ _ c

theorem SentryCrashScope.addBreadcrumb_field (c : SentryCrashScope) (json : Option String)
    (f : ScopeField) : (c.addBreadcrumb json).field f = c.field f := by
  unfold addBreadcrumb
  repeat' split
  all_goals cases f <;> rfl

theorem SentryCrashScope.clearBreadcrumbs_field (c : SentryCrashScope) (f : ScopeField) :
    c.clearBreadcrumbs.field f = c.field f := by
  unfold clearBreadcrumbs
  repeat' split
  all_goals cases f <;> rfl

theorem SentryCrashScope.clear_field (c : SentryCrashScope) (f : ScopeField) :
    c.clear.field f = none := by
  rw [clear, clearBreadcrumbs_field]
  cases f <;> rfl

/-- What the mutators tell the observers: the one field they changed, something about
breadcrumbs, or that everything was cleared. -/
inductive SentryScope.Told (s s' : SentryScope User Breadcrumb) :
    List (SentryScopeObserver User) → Prop where
  | field (f : ScopeField) (message : SentryScopeObserver User)
      (target : message.target = some (f, s'.value f)) (others : ∀ g ≠ f, s'.value g = s.value g) :
      Told s s' [message]
  | nothing (same : ∀ g, s'.value g = s.value g) : Told s s' []
  | breadcrumb (crumb : NSDictionary Value) (same : ∀ g, s'.value g = s.value g) :
      Told s s' [.addSerializedBreadcrumb crumb]
  | noBreadcrumbs (same : ∀ g, s'.value g = s.value g) : Told s s' [.clearBreadcrumbs]
  | cleared (empty : ∀ g, s'.value g = none) : Told s s' [.clearBreadcrumbs, .clear]

theorem SentryScope.addBreadcrumb_told {s s' : SentryScope User Breadcrumb} {crumb : Breadcrumb}
    {sent : List (SentryScopeObserver User)} (h : s.addBreadcrumb crumb = some (s', sent)) :
    s.Told s' sent := by
  unfold addBreadcrumb at h
  split at h
  · cases h
    exact .nothing fun _ => rfl
  · obtain ⟨array, -, hs⟩ := Option.map_eq_some_iff.mp h
    cases hs
    refine .breadcrumb _ fun g => ?_
    cases g <;> rfl

/-- Every mutator but one tells the field that it changed. -/
theorem SentryScope.mutate_told {s s' : SentryScope User Breadcrumb}
    {mutation : Mutation User Breadcrumb} {sent : List (SentryScopeObserver User)}
    (other : ∀ key, mutation ≠ .removeContextForKey key)
    (h : s.mutate mutation = some (s', sent)) : s.Told s' sent := by
  cases mutation with
  | addBreadcrumb crumb => exact addBreadcrumb_told h
  | removeContextForKey key => exact absurd rfl (other key)
  | clearBreadcrumbs =>
    cases h
    exact .noBreadcrumbs fun g => by cases g <;> rfl
  | clear =>
    cases h
    exact .cleared fun g => by cases g <;> rfl
  | setTags tags =>
    cases tags with
    | none => cases h; exact .nothing fun _ => rfl
    | some entries =>
      cases h
      exact .field .tags _ rfl fun g hg => by cases g <;> first | rfl | exact absurd rfl hg
  | setExtras extras =>
    cases extras with
    | none => cases h; exact .nothing fun _ => rfl
    | some entries =>
      cases h
      exact .field .extras _ rfl fun g hg => by cases g <;> first | rfl | exact absurd rfl hg
  | setUser user =>
    cases h
    exact .field .user _ rfl fun g hg => by cases g <;> first | rfl | exact absurd rfl hg
  | setDist dist =>
    cases h
    exact .field .dist _ rfl fun g hg => by cases g <;> first | rfl | exact absurd rfl hg
  | setEnvironment environment =>
    cases h
    exact .field .environment _ rfl fun g hg => by cases g <;> first | rfl | exact absurd rfl hg
  | setLevel level =>
    cases h
    exact .field .level _ rfl fun g hg => by cases g <;> first | rfl | exact absurd rfl hg
  | setFingerprint fingerprint =>
    cases h
    exact .field .fingerprint _ rfl fun g hg => by cases g <;> first | rfl | exact absurd rfl hg
  | setTagValue value key =>
    cases h
    exact .field .tags _ rfl fun g hg => by cases g <;> first | rfl | exact absurd rfl hg
  | removeTagForKey key =>
    cases h
    exact .field .tags _ rfl fun g hg => by cases g <;> first | rfl | exact absurd rfl hg
  | setExtraValue value key =>
    cases h
    exact .field .extras _ rfl fun g hg => by cases g <;> first | rfl | exact absurd rfl hg
  | removeExtraForKey key =>
    cases h
    exact .field .extras _ rfl fun g hg => by cases g <;> first | rfl | exact absurd rfl hg
  | setContextValue value key =>
    cases h
    exact .field .context _ rfl fun g hg => by cases g <;> first | rfl | exact absurd rfl hg

theorem MirroredScope.step_cases {m m' : MirroredScope User Breadcrumb}
    {mutation : Mutation User Breadcrumb} (h : m.step encode mutation = some m') :
    ∃ sent, m.scope.mutate mutation = some (m'.scope, sent) ∧
      m'.crashScope = sent.foldl (SentryCrashScopeObserver.receive encode) m.crashScope := by
  obtain ⟨⟨scope, sent⟩, hmutate, rfl⟩ := Option.map_eq_some_iff.mp h
  exact ⟨sent, hmutate, rfl⟩

omit [SentrySerializable Breadcrumb] in
theorem MirroredScope.Mirrored.of_told {m m' : MirroredScope User Breadcrumb}
    {sent : List (SentryScopeObserver User)} (mirrored : m.Mirrored encode)
    (told : m.scope.Told m'.scope sent)
    (received : m'.crashScope =
      sent.foldl (SentryCrashScopeObserver.receive encode) m.crashScope) :
    m'.Mirrored encode := by
  intro g
  have hg := mirrored g
  rw [received]
  cases told with
  | field f message target others =>
    by_cases h : g = f
    · subst h
      exact receive_holds target m.crashScope
    · rw [others g h, List.foldl_cons, List.foldl_nil, receive_field_of_ne target h]
      exact hg
  | nothing same =>
    rw [same g]
    exact hg
  | breadcrumb crumb same =>
    rw [same g, List.foldl_cons, List.foldl_nil, SentryCrashScopeObserver.receive]
    split
    · exact hg
    · rw [SentryCrashScope.addBreadcrumb_field]
      exact hg
  | noBreadcrumbs same =>
    rw [same g]
    change Holds encode (m.crashScope.clearBreadcrumbs.field g) _
    rw [SentryCrashScope.clearBreadcrumbs_field]
    exact hg
  | cleared empty =>
    rw [empty g]
    exact SentryCrashScope.clear_field _ g

/-- Both values are absent, or the encoder gives the same for both. -/
def SameEncoding (encode : Value → Option String) (v w : Option Value) : Prop :=
  v.map encode = w.map encode

theorem Holds.of_sameEncoding {text : Option String} {v w : Option Value}
    (same : SameEncoding encode v w) (h : Holds encode text v) : Holds encode text w := by
  cases v <;> cases w <;> simp_all [SameEncoding, Holds]

def Encodable (encode : Value → Option String) (v : Option Value) : Prop :=
  ∀ value, v = some value → (encode value).isSome

theorem Holds.sameEncoding {text : Option String} {v w : Option Value}
    (hv : Encodable encode v) (hw : Encodable encode w) (textv : Holds encode text v)
    (textw : Holds encode text w) : SameEncoding encode v w := by
  have encoded : ∀ {v : Option Value}, Encodable encode v → Holds encode text v →
      v.map encode = text.map some := by
    intro v encodable holds
    cases v with
    | none => rw [show text = none from holds]; rfl
    | some value =>
      obtain ⟨json, hjson⟩ := Option.isSome_iff_exists.mp (encodable value rfl)
      rw [holds json hjson, Option.map_some, Option.map_some, hjson]
  exact (encoded hv textv).trans (encoded hw textw).symm

/-- The contexts that are left when a key is removed, as the observers see them. -/
def SentryScope.contextWithout (s : SentryScope User Breadcrumb) (key : String) : Option Value :=
  dictionaryValue ((s.contextDictionary.removeObjectForKey key).map .ofDictionary)

/-- A removed context goes unnoticed when the contexts encode as before, and the extras, which
receive the contexts, encode like them. -/
def RemovesUnnoticed (encode : Value → Option String) (m : MirroredScope User Breadcrumb) :
    Mutation User Breadcrumb → Prop
  | .removeContextForKey key =>
    SameEncoding encode (m.scope.value .context) (m.scope.contextWithout key) ∧
      SameEncoding encode (m.scope.contextWithout key) (m.scope.value .extras)
  | _ => True

/-- The contexts are sent to the field of the extras. -/
theorem MirroredScope.step_removeContextForKey {m m' : MirroredScope User Breadcrumb}
    {key : String} (h : m.step encode (.removeContextForKey key) = some m') :
    m'.scope.value .context = m.scope.contextWithout key ∧
      (∀ g ≠ .context, m'.scope.value g = m.scope.value g) ∧
      Holds encode (m'.crashScope.field .extras) (m.scope.contextWithout key) ∧
      ∀ g ≠ .extras, m'.crashScope.field g = m.crashScope.field g := by
  cases h
  let message : SentryScopeObserver User :=
    .setExtras ((m.scope.contextDictionary.removeObjectForKey key).map .ofDictionary)
  have target : message.target = some (.extras, m.scope.contextWithout key) := rfl
  refine ⟨rfl, fun g hg => ?_, receive_holds target m.crashScope, fun g hg => ?_⟩
  · cases g <;> first | rfl | exact absurd rfl hg
  · exact receive_field_of_ne target hg m.crashScope

theorem MirroredScope.step_mirrored {m m' : MirroredScope User Breadcrumb}
    {mutation : Mutation User Breadcrumb} (mirrored : m.Mirrored encode)
    (unnoticed : RemovesUnnoticed encode m mutation) (h : m.step encode mutation = some m') :
    m'.Mirrored encode := by
  by_cases hremove : ∃ key, mutation = .removeContextForKey key
  · obtain ⟨key, rfl⟩ := hremove
    obtain ⟨hcontext, hextras⟩ := unnoticed
    obtain ⟨hvalue, hvalues, htext, htexts⟩ := step_removeContextForKey h
    intro g
    by_cases hg : g = .context
    · rw [hg, hvalue, htexts .context (by decide)]
      exact (mirrored .context).of_sameEncoding hcontext
    · rw [hvalues g hg]
      by_cases hg' : g = .extras
      · rw [hg']
        exact htext.of_sameEncoding hextras
      · rw [htexts g hg']
        exact mirrored g
  · obtain ⟨sent, hmutate, received⟩ := step_cases h
    exact mirrored.of_told (SentryScope.mutate_told (fun key heq => hremove ⟨key, heq⟩) hmutate)
      received

/-- Where all values have an encoding, no other removal of a context is mirrored. -/
theorem MirroredScope.removesUnnoticed_of_mirrored {m m' : MirroredScope User Breadcrumb}
    {key : String} (mirrored : m.Mirrored encode) (before : Encodable encode (m.scope.value .context))
    (after : Encodable encode (m.scope.contextWithout key))
    (extras : Encodable encode (m.scope.value .extras))
    (h : m.step encode (.removeContextForKey key) = some m') (mirrored' : m'.Mirrored encode) :
    RemovesUnnoticed encode m (.removeContextForKey key) := by
  obtain ⟨hvalue, hvalues, htext, htexts⟩ := step_removeContextForKey h
  have hcontext := mirrored' .context
  rw [hvalue, htexts .context (by decide)] at hcontext
  have hextras := mirrored' .extras
  rw [hvalues .extras (by decide)] at hextras
  exact ⟨(mirrored .context).sameEncoding before after hcontext,
    htext.sameEncoding after extras hextras⟩

/-- A new scope and the C scope that its observer configures. -/
def MirroredScope.init (maxBreadcrumbs : Nat) (crashScope : SentryCrashScope) :
    MirroredScope User Breadcrumb :=
  ⟨.initWithMaxBreadcrumbs maxBreadcrumbs, crashScope.configureBreadcrumbs maxBreadcrumbs⟩

omit [SentrySerializable Breadcrumb] in
theorem MirroredScope.init_mirrored (maxBreadcrumbs : Nat) :
    (init maxBreadcrumbs .zero : MirroredScope User Breadcrumb).Mirrored encode := by
  intro g
  cases g <;> rfl

end Sync

def deviceContext : NSDictionary Value := AList.singleton "name" (.string "iPhone")

/-- What the crash encoder writes for the values of the runs below. -/
def encodeExample : Value → Option String
  | .string "7" => some "\"7\""
  | .dictionary [("device", .dictionary [("name", .string "iPhone")])] =>
    some "\x7b\"device\":\x7b\"name\":\"iPhone\"\x7d\x7d"
  | _ => none

end SentryCocoa.Scope
