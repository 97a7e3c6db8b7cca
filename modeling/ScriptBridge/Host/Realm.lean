import ScriptBridge.Host.Class
import ScriptBridge.Table

/-!
# The Host's memory

A realm holds the classes, objects and static fields of a Host, the packages it can enumerate, the
references that outsiders keep alive, and the throwable that is pending. A class is always made
after the classes it builds on, so walks up a hierarchy end.
-/

namespace ScriptBridge.Host

/-- What an object holds. -/
inductive Payload where
  /-- The instance fields of an ordinary object. -/
  | fields (values : Table Value)
  | boxed (value : Value)
  | text (text : String)
  | array (items : List Value)
  /-- The class that a class object describes. -/
  | mirror (described : ClassId)
  | throwable (message : Option String) (cause : Option ObjectId)
  /-- A class loader, maybe restricted to names that begin with one of the packages. -/
  | loader (packages : Option (List String))
  | list (items : List Value)
  | map (entries : List (Value × Value))
  | sealed

structure Object where
  ofClass : ClassId
  payload : Payload

instance : Inhabited Object := ⟨⟨default, .sealed⟩⟩

/-- A reference that keeps an object alive. -/
structure GlobalRef where
  number : Nat
  object : ObjectId
deriving DecidableEq, Repr, Inhabited

structure Realm where
  classes : Array Class := #[]
  /-- The classes that are visible by name. -/
  registry : Table ClassId := {}
  /-- Array classes by their component classes. -/
  arrays : List (ClassId × ClassId) := []
  /-- Class objects by the classes they describe. -/
  mirrors : List (ClassId × ObjectId) := []
  /-- The class names that each package lists. -/
  packages : Table (Table Unit) := {}
  objects : Array Object := #[]
  statics : List (FieldId × Value) := []
  pending : Option ObjectId := none
  /-- The references that are still kept. -/
  globals : List GlobalRef := []
  created : Nat := 0
  deleted : Nat := 0
  /-- How often a pending throwable was described. -/
  described : Nat := 0
  /-- Objects that are known under a name. -/
  named : Table ObjectId := {}

instance : Inhabited Realm := ⟨{}⟩

def objectName : String := "java.lang.Object"
def className : String := "java.lang.Class"
def stringName : String := "java.lang.String"
def loaderName : String := "java.lang.ClassLoader"
def runtimeExceptionName : String := "java.lang.RuntimeException"

namespace Realm

/-! ### Reading -/

def classOf (r : Realm) (c : ClassId) : Class := r.classes[c.index]?.getD default

def object (r : Realm) (o : ObjectId) : Object := r.objects[o.index]?.getD default

/-- The class of an object. -/
def classIdOf (r : Realm) (o : ObjectId) : ClassId := (r.object o).ofClass

def payload (r : Realm) (o : ObjectId) : Payload := (r.object o).payload

def nameOf (r : Realm) (c : ClassId) : String := (r.classOf c).name

/-- The name of an object's class. -/
def classNameOf (r : Realm) (o : ObjectId) : String := r.nameOf (r.classIdOf o)

def text? (r : Realm) (o : ObjectId) : Option String :=
  match r.payload o with
  | .text text => some text
  | _ => none

def boxed? (r : Realm) (o : ObjectId) : Option Value :=
  match r.payload o with
  | .boxed value => some value
  | _ => none

def mirrored? (r : Realm) (o : ObjectId) : Option ClassId :=
  match r.payload o with
  | .mirror described => some described
  | _ => none

def message? (r : Realm) (o : ObjectId) : Option String :=
  match r.payload o with
  | .throwable message _ => message
  | _ => none

def cause? (r : Realm) (o : ObjectId) : Option ObjectId :=
  match r.payload o with
  | .throwable _ cause => cause
  | _ => none

/-- The class of a name that the Host itself relies on. -/
def require (r : Realm) (name : String) : ClassId := (r.registry.get? name).getD default

/-! ### Hierarchies -/

/-- A class and its superclasses, nearest first. -/
def ancestry (r : Realm) (c : ClassId) : List ClassId :=
  match (r.classOf c).superclass with
  | none => [c]
  | some parent => if _h : parent.index < c.index then c :: ancestry r parent else [c]
termination_by c.index

/-- A class, then the interfaces it names from last to first, each with its own in the same
order. -/
def interfacesFrom (r : Realm) (c : ClassId) : List ClassId :=
  c :: (r.classOf c).interfaces.reverse.flatMap fun i =>
    if _h : i.index < c.index then interfacesFrom r i else []
termination_by c.index

/-- The interfaces that an object of the class implements. -/
def interfacesOf (r : Realm) (c : ClassId) : List ClassId :=
  ((r.ancestry c).flatMap fun a => (r.classOf a).interfaces).reverse.flatMap r.interfacesFrom

/-- A value of class `source` can stand where one of class `target` is expected. -/
def isAssignable (r : Realm) (source target : ClassId) : Bool :=
  if source = target then true
  else if (r.classOf source).isPrimitive || (r.classOf target).isPrimitive then false
  else if r.nameOf target = objectName then true
  else
    match (r.classOf source).component?, (r.classOf target).component? with
    | some a, some b =>
      if (r.classOf a).isPrimitive || (r.classOf b).isPrimitive then a == b
      else if _h : a.index < source.index then isAssignable r a b
      else false
    | _, _ => (r.ancestry source).contains target || (r.interfacesOf source).contains target
termination_by source.index

end Realm

/-- The members of which no earlier one is the same. -/
def firstOfEach {α : Type} (same : α → α → Bool) (members : List α) : List α :=
  members.foldl (fun seen m => if seen.any (same · m) then seen else seen ++ [m]) []

namespace Realm

/-- The methods of a class: its own and inherited ones, then those of interfaces. One signature
appears once, by its nearest declaration. -/
def methods (r : Realm) (c : ClassId) : List Method :=
  firstOfEach Method.sameSignature
    ((r.ancestry c ++ r.interfacesOf c).flatMap fun a => (r.classOf a).methods)

def constructors (r : Realm) (c : ClassId) : List Method := (r.classOf c).constructors

/-- The fields of a class, own before inherited; a name appears once. -/
def fields (r : Realm) (c : ClassId) : List Field :=
  firstOfEach (fun f g => f.name == g.name) ((r.ancestry c).flatMap fun a => (r.classOf a).fields)

/-- The method that a call through `method` runs on an object of class `receiver`. -/
def resolveVirtual (r : Realm) (receiver : ClassId) (method : Method) : Method :=
  ((r.methods receiver).find? fun m => m.sameSignature method && !m.isStatic).getD method

/-- Instance fields with the values their types start with. -/
def initialFields (r : Realm) (c : ClassId) : Table Value :=
  ((r.ancestry c).flatMap fun a => (r.classOf a).fields.filter (!·.isStatic)).foldl
    (fun t f => if t.contains f.name then t else t.insert f.name (.initial f.typeName)) {}

/-! ### Classes -/

def allocateClass (c : Class) : StateM Realm ClassId := fun r =>
  (⟨r.classes.size⟩, { r with classes := r.classes.push c })

/-- Lists a class name in a package. -/
def listName (package name : String) : StateM Realm Unit :=
  modify fun r =>
    { r with packages := r.packages.insert package (((r.packages.get? package).getD {}).insert name ()) }

/-- Lists a class in a package, whether the class exists or not. -/
def listInPackage (package simple : String) : StateM Realm Unit :=
  listName package (package ++ "." ++ simple)

/-- Makes a class visible by its name, and its package list it. -/
def register (c : ClassId) : StateM Realm Unit := do
  let cls := (← get).classOf c
  match packageName? cls.name with
  | some package => unless cls.isPrimitive do listName package cls.name
  | none => pure ()
  modify fun r => { r with registry := r.registry.insert cls.name c }

/-- The array class with a component class. -/
def arrayClass (component : ClassId) : StateM Realm ClassId := do
  let r ← get
  match r.arrays.lookup component with
  | some c => pure c
  | none =>
    let c ← allocateClass
      { name := r.nameOf component ++ "[]", kind := .array component,
        superclass := some (r.require objectName) }
    modify fun r => { r with arrays := (component, c) :: r.arrays }
    return c

/-- Finds a class by the characters of its name in reverse order. -/
def lookupReversed? : List Char → StateM Realm (Option ClassId)
  | ']' :: '[' :: rest => do
    match ← lookupReversed? rest with
    | some component => return some (← arrayClass component)
    | none => return none
  | name => do return (← get).registry.get? (String.ofList name.reverse)

/-- The class of a name; slashes stand for dots, and brackets at the end name an array class. -/
def lookupClass? (name : String) : StateM Realm (Option ClassId) :=
  lookupReversed? (name.toList.map fun c => if c = '/' then '.' else c).reverse

/-! ### Objects -/

def allocate (c : ClassId) (payload : Payload) : StateM Realm ObjectId := fun r =>
  (⟨r.objects.size⟩, { r with objects := r.objects.push ⟨c, payload⟩ })

/-- Changes what an object holds. -/
def setPayload (o : ObjectId) (payload : Payload) : StateM Realm Unit :=
  modify fun r => { r with objects := r.objects.modify o.index fun x => { x with payload } }

/-- The class object of a class. -/
def mirror (c : ClassId) : StateM Realm ObjectId := do
  let r ← get
  match r.mirrors.lookup c with
  | some o => pure o
  | none =>
    let o ← allocate (r.require className) (.mirror c)
    modify fun r => { r with mirrors := (c, o) :: r.mirrors }
    return o

def newText (text : String) : StateM Realm ObjectId := do
  allocate ((← get).require stringName) (.text text)

def newArray (component : ClassId) (items : List Value) : StateM Realm ObjectId := do
  allocate (← arrayClass component) (.array items)

/-- A primitive in its wrapper; a reference is itself, and nothing wraps null and void. -/
def newBoxed? (value : Value) : StateM Realm (Option ObjectId) := do
  match value.primitive? with
  | some p => return some (← allocate ((← get).require p.wrapper) (.boxed value))
  | none => return value.ref?

/-- A throwable that is not pending; a class that does not exist becomes the general one. -/
def newThrowable (name : String) (message : Option String) (cause : Option ObjectId) :
    StateM Realm ObjectId := do
  let c := (← lookupClass? name).getD ((← get).require runtimeExceptionName)
  allocate c (.throwable message cause)

def newLoader (packages : Option (List String)) : StateM Realm ObjectId := do
  allocate ((← get).require loaderName) (.loader packages)

/-- Gives an object a name. -/
def setNamed (name : String) (object : ObjectId) : StateM Realm Unit :=
  modify fun r => { r with named := r.named.insert name object }

/-! ### Static fields -/

def staticValue (r : Realm) (field : FieldId) : Value := (r.statics.lookup field).getD .void

def setStatic (field : FieldId) (value : Value) : StateM Realm Unit :=
  modify fun r => { r with statics := (field, value) :: r.statics.filter (·.1 ≠ field) }

/-! ### Durable references -/

def newGlobalRef (object : ObjectId) : StateM Realm GlobalRef := fun r =>
  let g : GlobalRef := ⟨r.created + 1, object⟩
  (g, { r with globals := g :: r.globals, created := r.created + 1 })

def deleteGlobalRef (g : GlobalRef) : StateM Realm Unit :=
  modify fun r =>
    if r.globals.any (·.number == g.number) then
      { r with globals := r.globals.filter (·.number != g.number), deleted := r.deleted + 1 }
    else r

/-! ### The pending throwable -/

def setPending (throwable : Option ObjectId) : StateM Realm Unit :=
  modify fun r => { r with pending := throwable }

/-- Makes a new throwable of a class pending. -/
def makePending (c : ClassId) (message : String) : StateM Realm Unit := do
  setPending (some (← allocate c (.throwable (some message) none)))

/-- The class of a throwable and its message, if it has one. -/
def shown (r : Realm) (throwable : ObjectId) : String :=
  match r.message? throwable with
  | some message => r.classNameOf throwable ++ ": " ++ message
  | none => r.classNameOf throwable

/-- The causes of a throwable, nearest first. -/
def causes (r : Realm) (throwable : ObjectId) : List ObjectId :=
  match r.cause? throwable with
  | none => []
  | some cause => if _h : cause.index < throwable.index then cause :: causes r cause else []
termination_by throwable.index

/-- The lines that describe the pending throwable; describing is counted. -/
def describe : StateM Realm (List String) := do
  let r ← get
  match r.pending with
  | none => return []
  | some throwable =>
    set { r with described := r.described + 1 }
    return ("Exception in thread \"main\" " ++ r.shown throwable) ::
      (r.causes throwable).map fun cause => "Caused by: " ++ r.shown cause

end Realm
end ScriptBridge.Host
