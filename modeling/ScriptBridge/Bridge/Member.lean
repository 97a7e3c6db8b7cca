import ScriptBridge.Bridge.Container

/-!
# Members of Host objects and classes

The attributes of a view are the members of its class: a field is read and written in the Host, a
method name stands for all overloads of the name. A class shows its static members only.
-/

namespace ScriptBridge.Bridge

open Host (ClassId ObjectId Bodies getRealm)
open Script (InterpreterId)

/-! ### Tables of members -/

/-- The methods of a class by name, each name with its overloads in order. -/
def methodTable (methods : List Host.Method) : Table (List Host.Method) :=
  methods.foldl (fun t m => t.insert m.name ((t.get? m.name).getD [] ++ [m])) {}

def fieldTable (fields : List Host.Field) : Table Host.Field :=
  fields.foldl (fun t f => t.insert f.name f) {}

/-- The members that a view of a class, or of an object of the class, shows. -/
structure Members where
  methods : Table (List Host.Method)
  fields : Table Host.Field

def membersOf (r : Host.Realm) (c : ClassId) (staticsOnly : Bool) : Members :=
  ⟨methodTable ((r.methods c).filter fun m => !staticsOnly || m.isStatic),
    fieldTable ((r.fields c).filter fun f => !staticsOnly || f.isStatic)⟩

def Members.names (m : Members) : List String := m.methods.names ++ m.fields.names

/-! ### Fields -/

/-- The class of a field's values, with its kind. -/
def fieldKind (bodies : Bodies World) (ts : InterpreterId) (field : Host.Field) :
    BridgeM (ClassId × Kind) := do
  let c ← hostCall bodies ts (Host.findClass field.typeName)
  return (c, ← kindOf ts c)

def readField (bodies : Bodies World) (ts : InterpreterId) (target : Option ObjectId)
    (field : Host.Field) : BridgeM Script.Value := do
  let (_, kind) ← fieldKind bodies ts field
  toScript bodies ts (← hostCall bodies ts (Host.getField target field)) kind

def writeField (bodies : Bodies World) (ts : InterpreterId) (target : Option ObjectId)
    (field : Host.Field) (value : Script.Value) : BridgeM Unit := do
  let (c, kind) ← fieldKind bodies ts field
  let converted ← coerce bodies ts value c kind 1
  hostCall bodies ts (Host.setField target field converted)

/-! ### Attributes -/

/-- An attribute that every view of an object or a class has. -/
def commonAttr? (className : String) (members : Members) : String → Option Script.Value
  | "__name__" => some (.text className)
  | "__methods__" => some (.tuple (members.methods.names.map .text))
  | "__members__" => some (.tuple (members.fields.names.map .text))
  | _ => none

/-- A member as an attribute, if there is one of the name. -/
def memberAttr? (bodies : Bodies World) (ts : InterpreterId) (className : String)
    (members : Members) (target : Option ObjectId) (name : String) :
    BridgeM (Option Script.Value) := do
  match commonAttr? className members name with
  | some value => return some value
  | none =>
    match members.fields.get? name, members.methods.get? name with
    | some field, _ => return some (← readField bodies ts target field)
    | none, some overloads => return some (← viewMethod name target overloads)
    | none, none => return none

/-- Writes a field; nothing else can be assigned. -/
def setMember (bodies : Bodies World) (ts : InterpreterId) (members : Members)
    (target : Option ObjectId) (name : String) (value : Script.Value) : BridgeM Unit :=
  match members.fields.get? name with
  | some field => writeField bodies ts target field value
  | none => complain ts .attr "No such field."

def getObjectAttr (bodies : Bodies World) (ts : InterpreterId) (o : ObjectId) (name : String) :
    BridgeM Script.Value := do
  let r ← getRealm
  let c := r.classIdOf o
  match ← memberAttr? bodies ts (r.nameOf c) (membersOf r c false) (some o) name with
  | some value => pure value
  | none =>
    complain ts .attr s!"'{Host.simpleName (r.nameOf c)}' object has no attribute '{name}'"

def getClassAttr (bodies : Bodies World) (ts : InterpreterId) (c : ClassId) (name : String) :
    BridgeM Script.Value := do
  let r ← getRealm
  match ← memberAttr? bodies ts (r.nameOf c) (membersOf r c true) none name with
  | some value => pure value
  | none =>
    if (r.methods c).any (·.name == name) then needsInstance ts
    else
      complain ts .attr
        s!"type object '{Host.simpleName (r.nameOf c)}' has no attribute '{name}'"

/-! ### Views -/

def getAttr (bodies : Bodies World) (ts : InterpreterId) (f : Script.Foreign) (name : String) :
    BridgeM Script.Value := do
  let refuse {α : Type} : BridgeM α :=
    complain ts .attr s!"'{f.kind.typeName}' object has no attribute '{name}'"
  match (← getProxy f.place).view with
  | .object o => getObjectAttr bodies ts o name
  | .type c _ => getClassAttr bodies ts c name
  | .array o _ _ => if name = "__name__" then return .text ((← getRealm).classNameOf o) else refuse
  | .method own _ _ => if name = "__name__" then return .text own else refuse

def setAttr (bodies : Bodies World) (ts : InterpreterId) (f : Script.Foreign) (name : String)
    (value : Script.Value) : BridgeM Unit := do
  let r ← getRealm
  match (← getProxy f.place).view with
  | .object o => setMember bodies ts (membersOf r (r.classIdOf o) false) (some o) name value
  | .type c _ => setMember bodies ts (membersOf r c true) none name value
  | _ => Script.raise ts (.readOnlyAttribute f.kind.typeName name)

def attrNames (f : Script.Foreign) : BridgeM (List String) := do
  let r ← getRealm
  match (← getProxy f.place).view with
  | .object o => return (membersOf r (r.classIdOf o) false).names
  | .type c _ => return (membersOf r c true).names
  | _ => return []

/-- The simple name of the class of an object, as complaints call it. -/
def complaintName (o : ObjectId) : BridgeM String := do
  return Host.simpleName ((← getRealm).classNameOf o)

def getItem (bodies : Bodies World) (ts : InterpreterId) (f : Script.Foreign)
    (index : Script.Value) : BridgeM Script.Value := do
  match (← getProxy f.place).view with
  | .object o =>
    match ← withProtocol o (·.getItem bodies ts o index) with
    | some found => pure found
    | none => Script.raise ts (.notSubscriptable (← complaintName o))
  | .array _ _ _ => getElement bodies ts f.place index
  | _ => Script.raise ts (.notSubscriptable f.kind.typeName)

def setItem (bodies : Bodies World) (ts : InterpreterId) (f : Script.Foreign)
    (index value : Script.Value) : BridgeM Unit := do
  match (← getProxy f.place).view with
  | .object o =>
    let stored ← withProtocol o fun entry => do
      return some (← entry.setItem bodies ts o index value)
    if stored != some true then Script.raise ts (.noItemAssignment (← complaintName o))
  | .array _ _ _ => setElement bodies ts f.place index value
  | _ => Script.raise ts (.noItemAssignment f.kind.typeName)

def length (bodies : Bodies World) (ts : InterpreterId) (f : Script.Foreign) : BridgeM Nat := do
  match (← getProxy f.place).view with
  | .object o =>
    match ← withProtocol o (·.length bodies ts o) with
    | some length => pure length
    | none => Script.raise ts (.noLength (← complaintName o))
  | .array _ _ _ => arrayLength bodies ts f.place
  | _ => Script.raise ts (.noLength f.kind.typeName)

def contains (bodies : Bodies World) (ts : InterpreterId) (f : Script.Foreign)
    (item : Script.Value) : BridgeM Bool := do
  match (← getProxy f.place).view with
  | .object o =>
    match ← withProtocol o (·.contains bodies ts o item) with
    | some found => pure found
    | none => Script.raise ts (.notIterable (← complaintName o))
  | _ => Script.raise ts (.notIterable f.kind.typeName)

def call (bodies : Bodies World) (ts : InterpreterId) (f : Script.Foreign)
    (args : List Script.Value) : BridgeM Script.Value := do
  match (← getProxy f.place).view with
  | .type c _ => instantiate bodies ts c args
  | .method _ target overloads => callOverloads bodies ts target overloads args
  | _ => Script.raise ts (.notCallable f.kind.typeName)

def number (bodies : Bodies World) (ts : InterpreterId) (f : Script.Foreign) :
    BridgeM (Option Script.Value) := do
  match (← getProxy f.place).view with
  | .object o => withProtocol o (·.number bodies ts o)
  | _ => return none

/-- Equality of a view and a value. Objects are asked; classes and arrays have to be the same. -/
def equals (bodies : Bodies World) (ts : InterpreterId) (f : Script.Foreign)
    (other : Script.Value) : BridgeM Bool := do
  let theirs ← viewOf? other
  match (← getProxy f.place).view with
  | .object o =>
    match theirs.bind View.object? with
    | some p => hostCall bodies ts (Host.sameObjects bodies o p)
    | none => return false
  | .type c _ =>
    match theirs with
    | some (.type d _) => return c == d
    | _ => return false
  | .array o _ _ =>
    match theirs with
    | some (.array p _ _) => return o == p
    | _ => return false
  | .method _ _ _ =>
    match other with
    | .foreign g => return f.place == g.place
    | _ => return false

end ScriptBridge.Bridge
