import ScriptBridge.Host.Value

/-!
# Host classes

A class is data: members name the types in their signatures, and what a method does is a term of
`Body`. So a class may mention itself or a class that is registered later, and classes can be
compared, listed and built from descriptions.
-/

namespace ScriptBridge.Host

/-- How to make a value. A method that returns a recipe makes it anew at each call. -/
inductive Recipe where
  /-- A primitive, null or void. -/
  | plain (value : Value)
  | string (text : String)
  /-- A value in its wrapper. -/
  | boxed (value : Recipe)
  | array (component : String) (items : List Recipe)
  /-- The class object of a class. -/
  | mirror (className : String)
  | throwable (className : String) (message : Option String) (cause : Option Recipe)
  /-- An object made by the constructor with exactly these parameters. -/
  | object (className : String) (params : List String) (args : List Recipe)
  /-- A class loader, maybe restricted to packages. -/
  | loader (packages : Option (List String))
  /-- An object that is known under a name. -/
  | named (name : String)

/-- The methods of the class library. -/
inductive LibraryMethod where
  | objectText | objectEquals | objectHash | objectClass
  | className | classIsArray | classText | classEquals
  | stringLength | stringIsEmpty | stringCharAt | stringUpperCase | stringConcat | stringText
  | stringEquals
  | numberValue (target : Primitive)
  | wrapperText | wrapperEquals | wrappedBoolean | wrappedChar | parseInt
  | maxInt | maxLong | maxDouble | absInt
  | throwableMessage | throwableCause | throwableText
  | loadClass | listClasses
  | listAdd | listGet | listSet | listContains | listSize | listIsEmpty | listText
  | mapSize | mapIsEmpty | mapGet | mapContainsKey | mapPut | mapRemove | mapText
deriving DecidableEq, Repr

/-- What a method does. -/
inductive Body where
  | library (method : LibraryMethod)
  /-- Declared without a body. -/
  | missing (owner method : String)
  | constant (value : Recipe)
  /-- Describes the arguments in a text that begins with a tag. -/
  | describe (tag : String)
  | argument (index : Nat)
  | receiver
  /-- Adds the whole-numbered arguments. -/
  | sum
  /-- Replaces an element of the array given as the first argument; returns the old element. -/
  | poke (index : Nat) (value : Recipe)
  /-- Appends an element to the storage of a named array. -/
  | grow (array : String) (value : Recipe)
  | fail (className : String) (message : Option String)
  /-- Throws a throwable that has a cause. -/
  | failWith (className : String) (message : Option String) (cause : Recipe)
  /-- Fails and claims that something is pending. -/
  | failPending
  /-- Makes a throwable pending and returns as if nothing had happened. -/
  | leak (className message : String) (value : Recipe)
  /-- Evaluates an expression in a context that is known under a name. -/
  | evaluate (context expression : String)
  | closeContext (context : String)
  | closeContexts

/-- How a constructor fills a new object. -/
inductive Construction where
  /-- Instance fields with their initial values. -/
  | fields
  /-- Instance fields, of which the named ones are set to the arguments. -/
  | assigned (names : List String)
  | emptyText
  | copyText
  /-- A wrapped value of a primitive type. -/
  | wrap (target : Primitive)
  /-- The first argument, wrapped as it is. -/
  | wrapAny
  | describe (tag : String)
  /-- A throwable whose message is the first argument, if there is one. -/
  | throwable
  /-- A throwable with a message and a cause as arguments. -/
  | causedThrowable
  | emptyList
  | emptyMap
  /-- Contents that no library method understands. -/
  | sealed
  | fail (className : String) (message : Option String)
  | failWith (className : String) (message : Option String) (cause : Recipe)
  | failPending

/-- How a member of a class with these parameters is written. -/
def memberSignature (className name : String) (params : List String) : String :=
  className ++ "." ++ name ++ "(" ++ String.intercalate ", " params ++ ")"

/-- A method or a constructor. -/
structure Method where
  name : String
  declaringClass : String
  params : List String
  returnType : String := "void"
  isStatic : Bool := false
  exceptions : List String := []
  body : Body ⊕ Construction

namespace Method

def isConstructor (m : Method) : Bool := m.body.isRight

def arity (m : Method) : Nat := m.params.length

def sameSignature (m n : Method) : Bool := m.name == n.name && m.params == n.params

/-- The method with its declaring class and its parameters. -/
def signature (m : Method) : String :=
  memberSignature m.declaringClass m.name m.params

end Method

structure Field where
  id : FieldId
  name : String
  declaringClass : String
  typeName : String
  isStatic : Bool := false
deriving DecidableEq, Repr

/-- The field with its declaring class and its type. -/
def Field.signature (f : Field) : String := s!"{f.declaringClass}.{f.name}: {f.typeName}"

inductive ClassKind where
  | primitive
  | array (component : ClassId)
  | interface
  | concrete
deriving DecidableEq, Repr

structure Class where
  name : String
  kind : ClassKind := .concrete
  superclass : Option ClassId := none
  interfaces : List ClassId := []
  constructors : List Method := []
  methods : List Method := []
  fields : List Field := []

instance : Inhabited Class := ⟨{ name := "" }⟩

/-- The part of a dotted name after its last dot. -/
def simpleName (name : String) : String :=
  String.ofList (name.toList.reverse.takeWhile (· != '.')).reverse

/-- The part of a dotted name before its last dot, if it has one. -/
def packageName? (name : String) : Option String :=
  match name.toList.reverse.dropWhile (· != '.') with
  | [] => none
  | _ :: package => some (String.ofList package.reverse)

namespace Class

def isPrimitive (c : Class) : Bool := c.kind == .primitive

def isInterface (c : Class) : Bool := c.kind == .interface

def component? (c : Class) : Option ClassId :=
  match c.kind with
  | .array component => some component
  | _ => none

def isArray (c : Class) : Bool := c.component?.isSome

end Class
end ScriptBridge.Host
