import SentryCocoa.Foundation
import SentryCocoa.Library.Machine
import SentryCocoa.Library.RingBuffer

/-! The scope: the data that every event of the application carries. Each
mutator returns the new scope together with the messages it sends to every
observer, in order. Attachments, the span and the propagation context are left
out; no mutator here reads them. -/
namespace SentryCocoa.Scope
open SentryCocoa.Foundation SentryCocoa.Library.Machine SentryCocoa.Library.RingBuffer

class SentrySerializable (α : Type) where
  serialize : α → NSDictionary Value

export SentrySerializable (serialize)

/-- A bare message stands for a breadcrumb that has no other field. -/
instance : SentrySerializable String := ⟨fun message => AList.singleton "message" (.string message)⟩

inductive SentryLevel where
  | none | debug | info | warning | error | fatal
  deriving DecidableEq, Repr

def nameForSentryLevel : SentryLevel → String
  | .none => "none"
  | .debug => "debug"
  | .info => "info"
  | .warning => "warning"
  | .error => "error"
  | .fatal => "fatal"

variable {User Breadcrumb : Type}

/-- The messages of the `SentryScopeObserver` protocol. -/
inductive SentryScopeObserver (User : Type) where
  | setUser (user : Option User)
  | setTags (tags : NSDictionary String)
  | setExtras (extras : NSDictionary Value)
  | setContext (context : NSDictionary Value)
  | setDist (dist : Option String)
  | setEnvironment (environment : Option String)
  | setFingerprint (fingerprint : List String)
  | setLevel (level : SentryLevel)
  | addSerializedBreadcrumb (crumb : NSDictionary Value)
  | clearBreadcrumbs
  | clear

structure SentryScope (User Breadcrumb : Type) where
  tagDictionary : NSDictionary String
  extraDictionary : NSDictionary Value
  contextDictionary : NSDictionary (NSDictionary Value)
  userObject : Option User
  distString : Option String
  environmentString : Option String
  fingerprintArray : List String
  levelEnum : SentryLevel
  maxBreadcrumbs : Nat
  currentBreadcrumbIndex : Nat
  breadcrumbArray : List Breadcrumb

namespace SentryScope

def initWithMaxBreadcrumbs (maxBreadcrumbs : Nat) : SentryScope User Breadcrumb where
  tagDictionary := ∅
  extraDictionary := ∅
  contextDictionary := ∅
  userObject := none
  distString := none
  environmentString := none
  fingerprintArray := []
  levelEnum := .none
  maxBreadcrumbs := maxBreadcrumbs
  currentBreadcrumbIndex := 0
  breadcrumbArray := []

/-- Walks `maxBreadcrumbs` positions from the current index and skips those past the end. -/
def breadcrumbs (s : SentryScope User Breadcrumb) : List Breadcrumb :=
  (List.range s.maxBreadcrumbs).filterMap fun i =>
    s.breadcrumbArray[(s.currentBreadcrumbIndex + i) % s.maxBreadcrumbs]?

def initWithScope (scope : SentryScope User Breadcrumb) : SentryScope User Breadcrumb :=
  let crumbs := scope.breadcrumbs
  { scope with
    currentBreadcrumbIndex := crumbs.length
    breadcrumbArray := crumbs }

/-- The indexed assignment raises when the index lies past the end of the array. -/
def addBreadcrumb [SentrySerializable Breadcrumb] (s : SentryScope User Breadcrumb)
    (crumb : Breadcrumb) : Option (SentryScope User Breadcrumb × List (SentryScopeObserver User)) :=
  if s.maxBreadcrumbs < 1 then some (s, [])
  else
    (setObjectAtIndexedSubscript s.breadcrumbArray crumb s.currentBreadcrumbIndex).map fun array =>
      ({ s with
          breadcrumbArray := array
          currentBreadcrumbIndex := (s.currentBreadcrumbIndex + 1) % s.maxBreadcrumbs },
        [.addSerializedBreadcrumb (serialize crumb)])

def clearBreadcrumbs (s : SentryScope User Breadcrumb) :
    SentryScope User Breadcrumb × List (SentryScopeObserver User) :=
  ({ s with currentBreadcrumbIndex := 0, breadcrumbArray := [] }, [.clearBreadcrumbs])

def clear (s : SentryScope User Breadcrumb) :
    SentryScope User Breadcrumb × List (SentryScopeObserver User) :=
  let (s, sent) := s.clearBreadcrumbs
  ({ s with
      tagDictionary := ∅
      extraDictionary := ∅
      contextDictionary := ∅
      fingerprintArray := []
      userObject := none
      distString := none
      environmentString := none
      levelEnum := .none },
    sent ++ [.clear])

def setContextValue (s : SentryScope User Breadcrumb) (value : Option (NSDictionary Value))
    (key : String) : SentryScope User Breadcrumb × List (SentryScopeObserver User) :=
  let context := s.contextDictionary.setValue value key
  ({ s with contextDictionary := context }, [.setContext (context.map .ofDictionary)])

/-- Sends the contexts to the observers with `setExtras:`. -/
def removeContextForKey (s : SentryScope User Breadcrumb) (key : String) :
    SentryScope User Breadcrumb × List (SentryScopeObserver User) :=
  let context := s.contextDictionary.removeObjectForKey key
  ({ s with contextDictionary := context }, [.setExtras (context.map .ofDictionary)])

def setExtraValue (s : SentryScope User Breadcrumb) (value : Option Value) (key : String) :
    SentryScope User Breadcrumb × List (SentryScopeObserver User) :=
  let extras := s.extraDictionary.setValue value key
  ({ s with extraDictionary := extras }, [.setExtras extras])

def removeExtraForKey (s : SentryScope User Breadcrumb) (key : String) :
    SentryScope User Breadcrumb × List (SentryScopeObserver User) :=
  let extras := s.extraDictionary.removeObjectForKey key
  ({ s with extraDictionary := extras }, [.setExtras extras])

def setExtras (s : SentryScope User Breadcrumb) (extras : Option (NSDictionary Value)) :
    SentryScope User Breadcrumb × List (SentryScopeObserver User) :=
  match extras with
  | none => (s, [])
  | some entries =>
    let extras := s.extraDictionary.addEntriesFromDictionary entries
    ({ s with extraDictionary := extras }, [.setExtras extras])

def setTagValue (s : SentryScope User Breadcrumb) (value key : String) :
    SentryScope User Breadcrumb × List (SentryScopeObserver User) :=
  let tags := s.tagDictionary.setValue (some value) key
  ({ s with tagDictionary := tags }, [.setTags tags])

def removeTagForKey (s : SentryScope User Breadcrumb) (key : String) :
    SentryScope User Breadcrumb × List (SentryScopeObserver User) :=
  let tags := s.tagDictionary.removeObjectForKey key
  ({ s with tagDictionary := tags }, [.setTags tags])

def setTags (s : SentryScope User Breadcrumb) (tags : Option (NSDictionary String)) :
    SentryScope User Breadcrumb × List (SentryScopeObserver User) :=
  match tags with
  | none => (s, [])
  | some entries =>
    let tags := s.tagDictionary.addEntriesFromDictionary entries
    ({ s with tagDictionary := tags }, [.setTags tags])

def setUser (s : SentryScope User Breadcrumb) (user : Option User) :
    SentryScope User Breadcrumb × List (SentryScopeObserver User) :=
  ({ s with userObject := user }, [.setUser user])

def setDist (s : SentryScope User Breadcrumb) (dist : Option String) :
    SentryScope User Breadcrumb × List (SentryScopeObserver User) :=
  ({ s with distString := dist }, [.setDist dist])

def setEnvironment (s : SentryScope User Breadcrumb) (environment : Option String) :
    SentryScope User Breadcrumb × List (SentryScopeObserver User) :=
  ({ s with environmentString := environment }, [.setEnvironment environment])

def setFingerprint (s : SentryScope User Breadcrumb) (fingerprint : Option (List String)) :
    SentryScope User Breadcrumb × List (SentryScopeObserver User) :=
  let fingerprints := fingerprint.getD []
  ({ s with fingerprintArray := fingerprints }, [.setFingerprint fingerprints])

def setLevel (s : SentryScope User Breadcrumb) (level : SentryLevel) :
    SentryScope User Breadcrumb × List (SentryScopeObserver User) :=
  ({ s with levelEnum := level }, [.setLevel level])

end SentryScope

inductive Mutation (User Breadcrumb : Type) where
  | setUser (user : Option User)
  | setDist (dist : Option String)
  | setEnvironment (environment : Option String)
  | setLevel (level : SentryLevel)
  | setFingerprint (fingerprint : Option (List String))
  | setTags (tags : Option (NSDictionary String))
  | setTagValue (value key : String)
  | removeTagForKey (key : String)
  | setExtras (extras : Option (NSDictionary Value))
  | setExtraValue (value : Option Value) (key : String)
  | removeExtraForKey (key : String)
  | setContextValue (value : Option (NSDictionary Value)) (key : String)
  | removeContextForKey (key : String)
  | addBreadcrumb (crumb : Breadcrumb)
  | clearBreadcrumbs
  | clear

def SentryScope.mutate [SentrySerializable Breadcrumb] (s : SentryScope User Breadcrumb) :
    Mutation User Breadcrumb →
      Option (SentryScope User Breadcrumb × List (SentryScopeObserver User))
  | .setUser user => some (s.setUser user)
  | .setDist dist => some (s.setDist dist)
  | .setEnvironment environment => some (s.setEnvironment environment)
  | .setLevel level => some (s.setLevel level)
  | .setFingerprint fingerprint => some (s.setFingerprint fingerprint)
  | .setTags tags => some (s.setTags tags)
  | .setTagValue value key => some (s.setTagValue value key)
  | .removeTagForKey key => some (s.removeTagForKey key)
  | .setExtras extras => some (s.setExtras extras)
  | .setExtraValue value key => some (s.setExtraValue value key)
  | .removeExtraForKey key => some (s.removeExtraForKey key)
  | .setContextValue value key => some (s.setContextValue value key)
  | .removeContextForKey key => some (s.removeContextForKey key)
  | .addBreadcrumb crumb => s.addBreadcrumb crumb
  | .clearBreadcrumbs => some s.clearBreadcrumbs
  | .clear => some s.clear

end SentryCocoa.Scope
