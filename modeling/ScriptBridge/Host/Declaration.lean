import ScriptBridge.Host.Recipe

/-!
# Declaring classes

A declaration describes a class by the names of the classes it builds on. Declaring it makes the
class and registers it, in place of any class of that name; classes that were built on the old one
keep it.
-/

namespace ScriptBridge.Host

structure MethodDeclaration where
  name : String
  params : List String := []
  returns : String := "void"
  isStatic : Bool := false
  throws : List String := []
  body : Body

/-- A method that classes which implement the interface have to supply. -/
def MethodDeclaration.missing (owner name : String) (params : List String) (returns : String) :
    MethodDeclaration :=
  { name, params, returns, body := .missing owner name }

structure FieldDeclaration where
  name : String
  typeName : String
  /-- The value of a static field. -/
  value : Option Recipe := none

structure Declaration where
  name : String
  isInterface : Bool := false
  superclass : Option String := none
  interfaces : List String := []
  constructors : List (List String × Construction) := []
  methods : List MethodDeclaration := []
  fields : List FieldDeclaration := []

variable {ω : Type} [Hosting ω]

namespace Declaration

/-- The constructors and methods that a declaration describes. -/
def members (d : Declaration) : List Method × List Method :=
  (d.constructors.map fun (params, construction) =>
      { name := constructorName, declaringClass := d.name, params, body := .inr construction },
    d.methods.map fun m =>
      { name := m.name, declaringClass := d.name, params := m.params, returnType := m.returns,
        isStatic := m.isStatic, exceptions := m.throws, body := .inl m.body })

/-- The fields of a class that is about to be made. -/
def fieldList (d : Declaration) (c : ClassId) : List Field :=
  d.fields.zipIdx.map fun (f, place) =>
    { id := ⟨c, place⟩, name := f.name, declaringClass := d.name, typeName := f.typeName,
      isStatic := f.value.isSome }

/-- Makes the values of the static fields. -/
def makeStatics (bodies : Bodies ω) (c : ClassId) : Nat → List FieldDeclaration → HostM ω Unit
  | _, [] => pure ()
  | place, f :: rest => do
    match f.value with
    | some recipe =>
      let value ← recipe.make bodies
      onRealm (Realm.setStatic ⟨c, place⟩ value)
    | none => pure ()
    makeStatics bodies c (place + 1) rest

/-- Makes the class and registers it. -/
def declare (d : Declaration) (bodies : Bodies ω) : HostM ω ClassId := do
  let superclass ← d.superclass.mapM findClass
  let interfaces ← findClasses d.interfaces
  let (constructors, methods) := d.members
  let c ← onRealm fun r =>
    Realm.allocateClass
      { name := d.name, kind := if d.isInterface then .interface else .concrete, superclass,
        interfaces, constructors, methods, fields := d.fieldList ⟨r.classes.size⟩ } r
  makeStatics bodies c 0 d.fields
  onRealm (Realm.register c)
  return c

/-- Declares several classes in order. -/
def declareAll (bodies : Bodies ω) : List Declaration → HostM ω Unit
  | [] => pure ()
  | d :: rest => do
    let _ ← d.declare bodies
    declareAll bodies rest

end Declaration
end ScriptBridge.Host
