import SentryCocoa.Library.Machine

/-! Swizzling. The implementation of a method is replaced by a block that calls the original one,
which is the one that was replaced or, if the class had none, what its superclass has when the
block is called. -/
namespace SentryCocoa.Swizzle
open SentryCocoa.Library.Machine

abbrev SEL := Nat

/-- A class is given with its superclasses, the root class last; `nil` has none. -/
abbrev Class := List Nat

def class_getSuperclass (cls : Class) : Class := cls.tail

/-- The code of the app, or the block of a swizzling. -/
inductive IMP where
  | code (id : Nat)
  | block (info : Nat)
  deriving DecidableEq, Repr

/-- What the block of a swizzling has at hand, with the key it was made for. -/
structure SentrySwizzleInfo where
  classToSwizzle : Class
  selector : SEL
  key : Option Nat
  originalIMP : Option IMP
  deriving DecidableEq, Repr

inductive SentrySwizzleMode where
  | always
  | oncePerClass
  | oncePerClassAndSuperclasses
  deriving DecidableEq, Repr

/-- The methods that the classes implement themselves, and what was swizzled. -/
structure Runtime where
  methods : Class → SEL → Option IMP
  infos : List SentrySwizzleInfo
  swizzledClasses : List (Nat × Class)

/-- The code that the classes come with. -/
abbrev Own := Class → SEL → Option Nat

def Runtime.init (own : Own) : Runtime := ⟨fun cls sel => (own cls sel).map IMP.code, [], []⟩

structure Input where
  selector : SEL
  classToSwizzle : Class
  mode : SentrySwizzleMode
  key : Option Nat
  deriving DecidableEq, Repr

namespace Runtime

variable (r : Runtime)

def class_getInstanceMethod : Class → SEL → Option IMP
  | [], _ => none
  | id :: superclasses, sel =>
    (r.methods (id :: superclasses) sel).or (class_getInstanceMethod superclasses sel)

/-- The block of the new implementation has the number of its info. -/
def swizzle (classToSwizzle : Class) (selector : SEL) (key : Option Nat) : Runtime :=
  { r with
    methods := fun cls sel =>
      if cls = classToSwizzle ∧ sel = selector then some (.block r.infos.length)
      else r.methods cls sel
    infos := r.infos ++ [⟨classToSwizzle, selector, key, r.methods classToSwizzle selector⟩] }

/-- The class, or one of its superclasses. -/
def isSwizzledAbove (key : Nat) : Class → Bool
  | [] => false
  | id :: superclasses =>
    (key, id :: superclasses) ∈ r.swizzledClasses || isSwizzledAbove key superclasses

def isRefused (input : Input) : Bool :=
  match input.key, input.mode with
  | none, .always => false
  | none, _ => true
  | some _, .always => false
  | some key, .oncePerClass => (key, input.classToSwizzle) ∈ r.swizzledClasses
  | some key, .oncePerClassAndSuperclasses => r.isSwizzledAbove key input.classToSwizzle

/-- A selector that the class does not know fails an assertion. -/
def swizzleInstanceMethod (input : Input) : Option (Runtime × Bool) :=
  if r.isRefused input then some (r, false)
  else if r.class_getInstanceMethod input.classToSwizzle input.selector = none then none
  else
    let swizzled := r.swizzle input.classToSwizzle input.selector input.key
    some ({ swizzled with
      swizzledClasses :=
        input.key.toList.map (·, input.classToSwizzle) ++ swizzled.swizzledClasses }, true)

def step (input : Input) : Option Runtime := (r.swizzleInstanceMethod input).map Prod.fst

def getOriginalImplementation (info : SentrySwizzleInfo) : Option IMP :=
  info.originalIMP.or
    (r.class_getInstanceMethod (class_getSuperclass info.classToSwizzle) info.selector)

/-- The implementations that run, in the order in which they are entered. The block of a swizzling
calls the original implementation. -/
def invoke : Nat → IMP → Option (List IMP)
  | _, .code id => some [.code id]
  | 0, .block _ => none
  | fuel + 1, .block index => do
    let info ← r.infos[index]?
    let imp ← r.getOriginalImplementation info
    let entered ← invoke fuel imp
    return .block index :: entered

/-- Send a message to an instance of the class. -/
def send (fuel : Nat) (cls : Class) (sel : SEL) : Option (List IMP) :=
  (r.class_getInstanceMethod cls sel).bind (r.invoke fuel)

/-! ### What a message does, without the tables of the classes -/

/-- The blocks for a method of the class, the latest first. -/
def hooks (cls : Class) (sel : SEL) : List IMP :=
  ((List.range r.infos.length).reverse.filter fun index =>
    (r.infos[index]?).any fun info => info.classToSwizzle = cls ∧ info.selector = sel).map .block

/-- The hooks of the class, then those of its superclass, up to the class that has the code. -/
def path (own : Own) (sel : SEL) : Class → Option (List IMP)
  | [] => none
  | id :: superclasses =>
    match own (id :: superclasses) sel with
    | some code => some (r.hooks (id :: superclasses) sel ++ [.code code])
    | none => (path own sel superclasses).map (r.hooks (id :: superclasses) sel ++ ·)

/-- The hooks of the class, and its code if it has some. -/
def implementations (own : Own) (cls : Class) (sel : SEL) : List IMP :=
  r.hooks cls sel ++ ((own cls sel).map IMP.code).toList

/-- Each implementation of a class is the original one of the hook that was made after it. -/
structure Linked (own : Own) : Prop where
  head : ∀ cls sel, r.methods cls sel = (r.implementations own cls sel).head?
  next : ∀ cls sel (before after : List IMP) (index : Nat),
    r.implementations own cls sel = before ++ .block index :: after →
      ∃ info, r.infos[index]? = some info ∧ info.classToSwizzle = cls ∧ info.selector = sel ∧
        info.originalIMP = after.head?

end Runtime

end SentryCocoa.Swizzle
