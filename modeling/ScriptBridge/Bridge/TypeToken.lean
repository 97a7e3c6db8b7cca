import ScriptBridge.Bridge.Failure
import ScriptBridge.Host.Call

/-!
# Type tokens

A token is the identity of a primitive type or a core class of the Host: the class itself, and for
a wrapper the primitive class that it publishes. Tokens are resolved once, each with the durable
references that keep its classes, and a token that could not be resolved stays unavailable until
the cache is released. Classes are classified by comparing them with the tokens in a fixed order.
-/

namespace ScriptBridge.Bridge

open Host (ClassId GlobalRef Hosting onRealm getRealm)

inductive TokenName where
  | int | short | double | float | boolean | long | string | void | char | byte | type | object
deriving DecidableEq, Repr

namespace TokenName

/-- The tokens that a class is compared with, in order. -/
def priority : List TokenName :=
  [int, short, double, float, boolean, long, string, void, char, byte]

def all : List TokenName := priority ++ [type, object]

def kind : TokenName → Kind
  | int => .int | short => .short | double => .double | float => .float | boolean => .boolean
  | long => .long | string => .string | void => .void | char => .char | byte => .byte
  | type => .type | object => .object

def title : TokenName → String
  | int => "Int" | short => "Short" | double => "Double" | float => "Float"
  | boolean => "Boolean" | long => "Long" | string => "String" | void => "Void"
  | char => "Char" | byte => "Byte" | type => "Class" | object => "Object"

/-- The token with a title. -/
def ofTitle? (title : String) : Option TokenName := all.find? (·.title == title)

/-- The class that a token is found by. -/
def className : TokenName → String
  | int => "java.lang.Integer" | short => "java.lang.Short" | double => "java.lang.Double"
  | float => "java.lang.Float" | boolean => "java.lang.Boolean" | long => "java.lang.Long"
  | string => "java.lang.String" | void => "java.lang.Void" | char => "java.lang.Character"
  | byte => "java.lang.Byte" | type => "java.lang.Class" | object => "java.lang.Object"

/-- The class wraps a primitive type. -/
def isWrapper (name : TokenName) : Bool := !([string, type, object].contains name)

end TokenName

structure TypeToken where
  name : TokenName
  ofClass : ClassId
  /-- The primitive class that a wrapper publishes. -/
  primitive : Option ClassId := none
  /-- The references that keep the classes. -/
  held : List GlobalRef := []
  /-- Someone keeps the token beyond the life of the cache. -/
  borrowed : Bool := false

namespace TypeToken

/-- The class is the wrapper or the primitive that the token stands for. -/
def identifies (t : TypeToken) (c : ClassId) : Bool :=
  c == t.ofClass || t.primitive == some c

/-- The text of a token. -/
def shown (r : Host.Realm) (t : TypeToken) : String :=
  let primitive := match t.primitive with
    | some c => "Some(\"" ++ r.nameOf c ++ "\")"
    | none => "None"
  "TypeToken \x7b name: " ++ t.name.title ++ ", class: \"" ++ r.nameOf t.ofClass ++
    "\", primitive: " ++ primitive ++ " \x7d"

end TypeToken

/-- What is remembered about a token: the token, or why there is none. -/
abbrev TypeCache := List (TokenName × Except String TypeToken)

/-- A world with a Host and a cache of its type tokens. -/
class Typing (ω : Type) extends Hosting ω where
  types : ω → TypeCache
  setTypes : TypeCache → ω → ω

/-- Says which token is unavailable and why. -/
structure Unavailable where
  name : TokenName
  reason : String
deriving DecidableEq, Repr

def Unavailable.failure (u : Unavailable) : Failure := .typeUnavailable u.name.kind u.reason

variable {ω ε : Type} [Typing ω]

def getTypes : EStateM ε ω TypeCache := do return Typing.types (← get)

def modifyTypes (f : TypeCache → TypeCache) : EStateM ε ω Unit :=
  modify fun w => Typing.setTypes (f (Typing.types w)) w

/-- The primitive class that a wrapper publishes in its field TYPE, and the class object there. -/
def publishedPrimitive (c : ClassId) : EStateM ε ω (Except String (ClassId × Host.ObjectId)) := do
  let r ← getRealm
  match (r.fields c).find? fun f => f.isStatic && f.name == "TYPE" with
  | none => return .error (r.nameOf c ++ " has no TYPE field")
  | some field =>
    let mirror := (r.staticValue field.id).ref?
    match mirror, mirror.bind r.mirrored? with
    | some o, some primitive => return .ok (primitive, o)
    | _, _ => return .error (r.nameOf c ++ ".TYPE is not a class")

/-- Finds the classes of a token and keeps them. A class that turns out not to be a wrapper stays
kept all the same. -/
def TokenName.load (name : TokenName) : EStateM ε ω (Except String TypeToken) := do
  match ← onRealm (Host.Realm.lookupClass? name.className) with
  | none =>
    onRealm (Host.Realm.setPending none)
    return .error s!"class {name.className} not found"
  | some c =>
    let mirror ← onRealm (Host.Realm.mirror c)
    let first ← onRealm (Host.Realm.newGlobalRef mirror)
    if name.isWrapper then
      match ← publishedPrimitive c with
      | .error reason => return .error reason
      | .ok (primitive, o) =>
        let second ← onRealm (Host.Realm.newGlobalRef o)
        return .ok { name, ofClass := c, primitive := some primitive, held := [first, second] }
    else return .ok { name, ofClass := c, held := [first] }

/-- The token of a name, resolved on first use. -/
def resolve (name : TokenName) : EStateM Unavailable ω TypeToken := do
  let slot ← match (← getTypes).lookup name with
    | some slot => pure slot
    | none => do
      let slot ← name.load
      modifyTypes ((name, slot) :: ·)
      pure slot
  match slot with
  | .ok token => pure token
  | .error reason => throw ⟨name, reason⟩

def resolveAll : List TokenName → EStateM Unavailable ω Unit
  | [] => pure ()
  | name :: rest => do
    let _ ← resolve name
    resolveAll rest

/-- Resolves every token. -/
def preload : EStateM Unavailable ω Unit := resolveAll TokenName.all

/-- The first of the tokens that identifies a class. -/
def identify (c : ClassId) : List TokenName → EStateM Unavailable ω (Option TokenName)
  | [] => pure none
  | name :: rest => do
    if (← resolve name).identifies c then return some name else identify c rest

/-- The kind of a class. -/
def classify (c : ClassId) : EStateM Unavailable ω Kind := do
  match ← identify c TokenName.priority with
  | some name => return name.kind
  | none =>
    if ((← getRealm).classOf c).isArray then return .array
    let token ← resolve .type
    if (← getRealm).isAssignable c token.ofClass then return .type
    let _ ← resolve .object
    return .object

def deleteRefs : List GlobalRef → StateM Host.Realm Unit
  | [] => pure ()
  | g :: rest => do
    Host.Realm.deleteGlobalRef g
    deleteRefs rest

/-- The references of the tokens that nobody has borrowed. -/
def TypeCache.releasable (types : TypeCache) : List GlobalRef :=
  types.flatMap fun (_, slot) =>
    match slot with
    | .ok token => if token.borrowed then [] else token.held
    | .error _ => []

/-- Forgets all tokens and lets go of their classes. -/
def releaseTypes : EStateM ε ω Unit := do
  let types ← getTypes
  modifyTypes fun _ => []
  onRealm (deleteRefs types.releasable)

/-- Marks a token as borrowed. -/
def borrow (name : TokenName) : EStateM ε ω Unit :=
  modifyTypes fun types =>
    types.map fun (n, slot) => (n, if n = name then slot.map ({ · with borrowed := true }) else slot)

end ScriptBridge.Bridge
