import ScriptBridge.Host.Realm

/-!
# Calls into the Host

Looking up members, calling methods, making objects and reaching fields. A call that fails leaves
a throwable pending and only says so. What bodies of methods do is a parameter, so that a call is
the same whether the Host stands alone or has a script side that its methods call back.
-/

namespace ScriptBridge.Host

/-- A world that has a Host in it. -/
class Hosting (ω : Type) where
  realm : ω → Realm
  setRealm : Realm → ω → ω

instance : Hosting Realm := ⟨id, fun r _ => r⟩

/-- Says that a throwable is pending. -/
structure Thrown where
deriving DecidableEq, Repr

/-- How a body fails. -/
inductive Throw where
  | new (className : String) (message : Option String)
  | object (throwable : ObjectId)
  /-- Something that the body called has left a throwable pending. -/
  | pending
deriving DecidableEq, Repr

/-- A call into the Host. -/
abbrev HostM (ω : Type) := EStateM Thrown ω

/-- A step of a body. -/
abbrev BodyM (ω : Type) := EStateM Throw ω

/-- What bodies do. -/
structure Bodies (ω : Type) where
  method : Body → Option ObjectId → List Value → BodyM ω Value
  construct : Construction → ClassId → List Value → BodyM ω Payload

variable {ω ε α : Type} [Hosting ω]

/-- A step on the Host's memory. -/
def onRealm (step : StateM Realm α) : EStateM ε ω α := fun w =>
  let (a, r) := step (Hosting.realm w)
  .ok a (Hosting.setRealm r w)

def getRealm : EStateM ε ω Realm := do return Hosting.realm (← get)

/-! ### Failing -/

/-- Makes a throwable pending and fails. -/
def throwObject (throwable : ObjectId) : HostM ω α := do
  onRealm (Realm.setPending (some throwable))
  throw {}

/-- Fails with a new throwable of a class that is known by name. -/
def throwNew (name : String) (message : Option String) : HostM ω α := do
  throwObject (← onRealm (Realm.newThrowable name message none))

/-- Fails as a body says. -/
def raise (failure : Throw) : HostM ω α := do
  match failure with
  | .new name message => throwNew name message
  | .object throwable => throwObject throwable
  | .pending =>
    if (← getRealm).pending.isSome then throw {}
    else throwNew runtimeExceptionName (some "method failed without a pending exception")

/-- Runs a body; its failure becomes pending. -/
def running (body : BodyM ω α) : HostM ω α := fun w =>
  match body w with
  | .ok a w => .ok a w
  | .error failure w => raise failure w

/-- A call that a body makes. -/
def calling (call : HostM ω α) : BodyM ω α := fun w =>
  match call w with
  | .ok a w => .ok a w
  | .error _ w => .error .pending w

def badArgument (message : String) : HostM ω α :=
  throwNew "java.lang.IllegalArgumentException" (some message)

/-! ### Classes and members -/

def findClass (name : String) : HostM ω ClassId := do
  match ← onRealm (Realm.lookupClass? name) with
  | some c => pure c
  | none => throwNew "java.lang.NoClassDefFoundError" (some name)

def findClasses : List String → HostM ω (List ClassId)
  | [] => pure []
  | name :: rest => do
    let c ← findClass name
    return c :: (← findClasses rest)

/-- Chooses a member, or fails because there is none with the name and parameters. -/
def findMember (candidates : List Method) (c : ClassId) (name : String) (params : List String) :
    HostM ω Method := do
  match candidates.find? fun m => m.name == name && m.params == params with
  | some m => pure m
  | none =>
    let owner := (← getRealm).nameOf c
    throwNew "java.lang.NoSuchMethodError" (some (memberSignature owner name params))

def getMethod (c : ClassId) (name : String) (params : List String) : HostM ω Method := do
  findMember ((← getRealm).methods c) c name params

/-- The name that constructors have. -/
def constructorName : String := "<init>"

def getConstructor (c : ClassId) (params : List String) : HostM ω Method := do
  findMember ((← getRealm).constructors c) c constructorName params

/-! ### Calls -/

/-- Calls a method. What runs on an object is the nearest declaration of the signature. -/
def callMethod (bodies : Bodies ω) (target : Option ObjectId) (method : Method)
    (args : List Value) : HostM ω Value := do
  if args.length ≠ method.arity then badArgument "wrong number of arguments"
  let chosen ←
    if method.isStatic then pure (none, method)
    else match target with
      | none => throwNew "java.lang.NullPointerException" (some method.name)
      | some o => do
        let r ← getRealm
        pure (some o, r.resolveVirtual (r.classIdOf o) method)
  match chosen.2.body with
  | .inl body => running (bodies.method body chosen.1 args)
  | .inr _ => badArgument "constructors are invoked through new_object"

/-- Makes an object of a class that can have objects. -/
def newObject (bodies : Bodies ω) (c : ClassId) (constructor : Method) (args : List Value) :
    HostM ω ObjectId := do
  let cls := (← getRealm).classOf c
  if cls.kind ≠ .concrete then throwNew "java.lang.InstantiationException" (some cls.name)
  if args.length ≠ constructor.arity then badArgument "wrong number of arguments"
  match constructor.body with
  | .inr construction => do
    let payload ← running (bodies.construct construction c args)
    onRealm (Realm.allocate c payload)
  | .inl _ => badArgument "not a constructor"

/-! ### Fields -/

/-- The instance fields of the object that a field is reached through. -/
def fieldsOf (target : Option ObjectId) (field : Field) : HostM ω (ObjectId × Table Value) := do
  match target with
  | none => throwNew "java.lang.NullPointerException" (some field.name)
  | some o =>
    match (← getRealm).payload o with
    | .fields values => pure (o, values)
    | _ => badArgument field.name

def getField (target : Option ObjectId) (field : Field) : HostM ω Value := do
  if field.isStatic then return (← getRealm).staticValue field.id
  let (_, values) ← fieldsOf target field
  return (values.get? field.name).getD .void

def setField (target : Option ObjectId) (field : Field) (value : Value) : HostM ω Unit := do
  if field.isStatic then onRealm (Realm.setStatic field.id value)
  else
    let (o, values) ← fieldsOf target field
    onRealm (Realm.setPayload o (.fields (values.insert field.name value)))

/-! ### Strings and arrays -/

def stringChars (o : ObjectId) : HostM ω String := do
  let r ← getRealm
  match r.text? o with
  | some text => pure text
  | none => throwNew "java.lang.ClassCastException" (some (r.classNameOf o))

def arrayElements (o : ObjectId) : HostM ω (List Value) := do
  match (← getRealm).payload o with
  | .array items => pure items
  | _ => badArgument "Argument is not an array"

def arrayLength (o : ObjectId) : HostM ω Nat := do return (← arrayElements o).length

/-- Gives a copy of the elements back; it is written when `commit` says so. -/
def releaseArrayElements (o : ObjectId) (items : List Value) (commit : Bool) : HostM ω Unit := do
  let length ← arrayLength o
  if commit then
    if length = items.length then onRealm (Realm.setPayload o (.array items))
    else throwNew "java.lang.IndexOutOfBoundsException" (some "array length changed while pinned")

/-! ### Texts and equality -/

/-- The text of an object, which its class may choose. -/
def toText (bodies : Bodies ω) (o : ObjectId) : HostM ω String := do
  let r ← getRealm
  match r.text? o with
  | some text => pure text
  | none =>
    let method ← getMethod (r.require objectName) "toString" []
    match ← callMethod bodies (some o) method [] with
    | .ref text => stringChars text
    | _ => pure "null"

/-- Equality of objects, which the class of the first one may choose. -/
def sameObjects (bodies : Bodies ω) (a b : ObjectId) : HostM ω Bool := do
  let method ← getMethod ((← getRealm).require objectName) "equals" [objectName]
  match ← callMethod bodies (some a) method [.ref b] with
  | .boolean same => pure same
  | _ => pure false

end ScriptBridge.Host
