import ScriptBridge.Bridge.Pin
import ScriptBridge.Script.Arithmetic

/-!
# Values that cross the bridge

Host values become script values by their own tag, or by the class of the object; script values
become Host objects by their type, or Host values of a kind that a parameter asks for. Whether a
value fits a parameter (`matchesParam`) is asked before it is converted (`coerce`), when one of
several overloads has to be chosen.
-/

namespace ScriptBridge.Bridge

open Host (ClassId ObjectId HostM Bodies onRealm getRealm)
open Script (InterpreterId)

/-! ### Members that are looked up once -/

/-- The constructor of a wrapper, whose class is kept from now on. -/
def findBoxer (className param : String) : HostM World Boxer := do
  let c ← Host.findClass className
  let constructor ← Host.getConstructor c [param]
  let mirror ← onRealm (Host.Realm.mirror c)
  let g ← onRealm (Host.Realm.newGlobalRef mirror)
  modifyState fun s => { s with conversionRefs := s.conversionRefs ++ [g] }
  return ⟨c, constructor⟩

/-- The constructors that box script values. -/
def boxing : HostM World Boxing := do
  match (← getState).boxing with
  | some boxing => pure boxing
  | none =>
    let boolean ← findBoxer "java.lang.Boolean" "boolean"
    let int ← findBoxer "java.lang.Integer" "int"
    let long ← findBoxer "java.lang.Long" "long"
    let double ← findBoxer "java.lang.Double" "double"
    let boxing : Boxing := ⟨boolean, int, long, double⟩
    modifyState fun s => { s with boxing := some boxing }
    return boxing

/-- The methods that read wrappers, with the classes that declare them. -/
def accessorNames : List (Kind × String × String) :=
  [(.boolean, "java.lang.Boolean", "booleanValue"), (.char, "java.lang.Character", "charValue"),
    (.byte, Host.numberName, "intValue"), (.short, Host.numberName, "intValue"),
    (.int, Host.numberName, "intValue"), (.long, Host.numberName, "longValue"),
    (.float, Host.numberName, "floatValue"), (.double, Host.numberName, "doubleValue")]

def findAccessors : List (Kind × String × String) → HostM World (List (Kind × Host.Method))
  | [] => pure []
  | (kind, className, name) :: rest => do
    let c ← Host.findClass className
    let method ← Host.getMethod c name []
    return (kind, method) :: (← findAccessors rest)

/-- The method that reads wrappers of a kind, if there is one. -/
def accessor? (kind : Kind) : HostM World (Option Host.Method) := do
  match (← getState).accessors with
  | some accessors => return accessors.lookup kind
  | none =>
    let accessors ← findAccessors accessorNames
    modifyState fun s => { s with accessors := some accessors }
    return accessors.lookup kind

/-- The method by which a class loader loads a class. -/
def loadClassMethod : HostM World Host.Method := do
  match (← getState).loadClass with
  | some method => pure method
  | none =>
    let c ← Host.findClass Host.loaderName
    let method ← Host.getMethod c "loadClass" [Host.stringName]
    modifyState fun s => { s with loadClass := some method }
    return method

/-- Loads a class through a class loader. -/
def loadClass (bodies : Bodies World) (loader : ObjectId) (name : String) : HostM World ClassId := do
  let method ← loadClassMethod
  let text ← onRealm (Host.Realm.newText name)
  let loaded ← Host.callMethod bodies (some loader) method [.ref text]
  match loaded.ref?.bind (← getRealm).mirrored? with
  | some c => pure c
  | none =>
    let missing ← Host.findClass "java.lang.ClassNotFoundException"
    Host.throwObject (← onRealm (Host.Realm.allocate missing (.throwable (some name) none)))

/-! ### From the Host to scripts -/

/-- The script value of a primitive, of null or of void. -/
def ofPrimitive : Host.Value → Script.Value
  | .boolean value => .bool value
  | .byte value => .int value.toInt64
  | .short value => .int value.toInt64
  | .int value => .int value.toInt64
  | .long value => .long value
  | .float value => .float value.toFloat
  | .double value => .float value
  | .char unit => .text (Text.unitText unit)
  | .void | .null | .ref _ => .none

/-- The value that a wrapper of a primitive kind returns when it is read, if a kind can be read. -/
def readWrapper (bodies : Bodies World) (ts : InterpreterId) (o : ObjectId) (kind : Kind) :
    BridgeM Host.Value := do
  match ← hostCall bodies ts (accessor? kind) with
  | none => complain ts .runtime "invalid typeid"
  | some method => hostCall bodies ts (Host.callMethod bodies (some o) method [])

/-- The script value of an object that is not read as a wrapper; `none` if the kind is that of a
wrapper. -/
def viewAs (bodies : Bodies World) (ts : InterpreterId) (o : ObjectId) (kind : Kind) :
    BridgeM (Option Script.Value) := do
  match kind with
  | .array => return some (← viewArray o)
  | .string => return some (.text (← hostCall bodies ts (Host.stringChars o)))
  | .type =>
    match (← getRealm).mirrored? o with
    | some c => return some (← viewClass c)
    | none => return some (← viewObject o)
  | .object | .void => return some (← viewObject o)
  | _ => return none

/-- The kind by which an object that was found in the Host is shown. -/
def ownKind (ts : InterpreterId) (o : ObjectId) : BridgeM Kind := do
  kindOf ts ((← getRealm).classIdOf o)

/-- The script value of an object that is shown as a kind. What a wrapper's own class answers may
be an object again, which is then shown as what it is; no chain of such answers is longer than
there are classes. -/
def unboxWithin (bodies : Bodies World) (ts : InterpreterId) :
    (steps : Nat) → ObjectId → Kind → BridgeM Script.Value
  | 0, _, _ => Script.giveUp
  | steps + 1, o, kind => do
    match ← viewAs bodies ts o kind with
    | some value => pure value
    | none =>
      match ← readWrapper bodies ts o kind with
      | .ref inner => do unboxWithin bodies ts steps inner (← ownKind ts inner)
      | value => pure (ofPrimitive value)

/-- The script value of an object of a kind. -/
def unbox (bodies : Bodies World) (ts : InterpreterId) (object : Option ObjectId) (kind : Kind) :
    BridgeM Script.Value := do
  match object with
  | none => return .none
  | some o => unboxWithin bodies ts ((← getRealm).classes.size + 1) o kind

/-- The script value of an object, by its class. -/
def unboxObject (bodies : Bodies World) (ts : InterpreterId) (object : Option ObjectId) :
    BridgeM Script.Value := do
  match object with
  | none => return .none
  | some o => unbox bodies ts object (← ownKind ts o)

/-- The script value of a result, a field or an element that was declared with a kind. -/
def toScript (bodies : Bodies World) (ts : InterpreterId) (value : Host.Value) (kind : Kind) :
    BridgeM Script.Value :=
  match value with
  | .ref o =>
    if kind = .array ∨ kind = .type then unbox bodies ts (some o) kind
    else unboxObject bodies ts (some o)
  | other => pure (ofPrimitive other)

/-! ### From scripts to the Host -/

/-- A new wrapper. -/
def wrap (bodies : Bodies World) (ts : InterpreterId) (boxer : Boxer) (value : Host.Value) :
    BridgeM ObjectId :=
  hostCall bodies ts (Host.newObject bodies boxer.ofClass boxer.constructor [value])

/-- The text that stands for a value with no counterpart in the Host. -/
def standInText (value : Script.Value) : BridgeM String := do
  match ← viewOf? value with
  | some (.method name _ _) => return s!"<host_method {name}>"
  | _ =>
    match value.text? with
    | some text => pure text
    | none => Script.giveUp

/-- The Host object that a script value becomes; nothing becomes null. -/
def box (bodies : Bodies World) (ts : InterpreterId) (value : Script.Value) :
    BridgeM (Option ObjectId) := do
  if value.isNone then return none
  match value, ← viewOf? value with
  | .foreign f, some (.array o _ _) =>
    releasePin bodies ts f.place true
    return some o
  | _, some (.object o) => return some o
  | _, some (.type _ mirror) => return some mirror
  | value, _ =>
    let table ← hostCall bodies ts boxing
    match value with
    | .text text => return some (← onRealm (Host.Realm.newText text))
    | .bool b => return some (← wrap bodies ts table.boolean (.boolean b))
    | .int i =>
      if i.toInt32.toInt64 = i then return some (← wrap bodies ts table.int (.int i.toInt32))
      else return some (← wrap bodies ts table.long (.long i))
    | .long i => return some (← wrap bodies ts table.long (.long i))
    | .float x => return some (← wrap bodies ts table.double (.double x))
    | other => return some (← onRealm (Host.Realm.newText (← standInText other)))

/-! ### Parameters -/

/-- The class of strings, if its token can be resolved. -/
def stringClass? {ε : Type} : EStateM ε World (Option ClassId) := do
  match ← Script.attempt (resolve .string) with
  | .ok token => return some token.ofClass
  | .error _ => return none

/-- The Host object that a value shows, with its class. -/
def shownObject? {ε : Type} (value : Script.Value) :
    EStateM ε World (Option (ObjectId × ClassId)) := do
  let r ← getRealm
  return ((← viewOf? value).bind View.object?).map fun o => (o, r.classIdOf o)

def assignable {ε : Type} (source target : ClassId) : EStateM ε World Bool := do
  return (← getRealm).isAssignable source target

/-- A string can stand for a parameter. -/
def stringFits {ε : Type} (param : ClassId) : EStateM ε World Bool := do
  match ← stringClass? with
  | some string => assignable string param
  | none => return false

/-- The value fits a parameter of a class, which was classified as a kind. -/
def matchesParam {ε : Type} (value : Script.Value) (param : ClassId) (kind : Kind) :
    EStateM ε World Bool := do
  match kind with
  | .char => return value.asText?.any (·.length == 1)
  | .string =>
    if value.isNone || value.asText?.isSome then return true
    match ← shownObject? value with
    | some (_, c) => assignable c param
    | none => return false
  | .array =>
    if value.isNone then return true
    match ← viewOf? value with
    | some (.array o _ _) => assignable ((← getRealm).classIdOf o) param
    | _ => return false
  | .type =>
    match value, ← viewOf? value with
    | .none, _ => return true
    | _, some (.type _ _) => return true
    | _, _ => return false
  | .object =>
    if value.isNone then return true
    match ← shownObject? value with
    | some (_, c) => assignable c param
    | none => if value.asText?.isSome then stringFits param else return false
  | .byte | .short | .int | .boolean =>
    match value with
    | .int _ | .bool _ => return true
    | _ => return false
  | .float | .double =>
    match value with
    | .float _ => return true
    | _ => return false
  | .long =>
    match value with
    | .long _ | .int _ | .bool _ => return true
    | _ => return false
  | .void => return false

/-- Refuses an argument. -/
def mismatch {α : Type} (ts : InterpreterId) (position : Nat) (message : String) : BridgeM α :=
  Script.raiseException ts
    { type := .builtin .type, message := some message, detail := some (.position position) }

/-- The complaint about an argument that should have been a primitive. -/
def primitiveMessage (kind : Kind) (position : Nat) : String :=
  "Expected " ++ kind.primitiveName?.getD "object" ++ s!" parameter at {position}."

/-- The whole number that a value other than a long counts as. -/
def smallWhole? : Script.Value → Option Int64
  | .int i => some i
  | .bool b => some (Script.boolNumber b)
  | _ => none

/-- The whole number that a value counts as. -/
def anyWhole? : Script.Value → Option Int64
  | .long i => some i
  | value => smallWhole? value

/-- The primitive of a kind that a value becomes, if it can. -/
def primitiveOf? (kind : Kind) (value : Script.Value) : Option Host.Value :=
  match kind with
  | .byte => (smallWhole? value).map (.byte ·.toInt8)
  | .short => (smallWhole? value).map (.short ·.toInt16)
  | .int => (smallWhole? value).map (.int ·.toInt32)
  | .long => (anyWhole? value).map .long
  | .boolean => (smallWhole? value).map fun i => .boolean (0 < i)
  | .float =>
    match value with
    | .float x => some (.float x.toFloat32)
    | _ => none
  | .double =>
    match value with
    | .float x => some (.double x)
    | _ => none
  | .char =>
    match value.asText?.map String.toList with
    | some [c] => some (.char (Text.firstUnit c))
    | _ => none
  | _ => none

/-- A new string as an argument. -/
def textValue (text : String) : BridgeM Host.Value := do
  return .ref (← onRealm (Host.Realm.newText text))

def coerceToString (ts : InterpreterId) (value : Script.Value) (position : Nat) :
    BridgeM Host.Value := do
  match value.asText? with
  | some text => textValue text
  | none =>
    let object ← shownObject? value
    match object, ← stringClass? with
    | some (o, c), some string =>
      if ← assignable c string then return .ref o
      else mismatch ts position s!"Expected string parameter at {position}."
    | _, _ => mismatch ts position s!"Expected string parameter at {position}."

def coerceToArray (bodies : Bodies World) (ts : InterpreterId) (value : Script.Value)
    (param : ClassId) (position : Nat) : BridgeM Host.Value := do
  match value, ← viewOf? value with
  | .foreign f, some (.array o _ _) =>
    if ← assignable ((← getRealm).classIdOf o) param then
      releasePin bodies ts f.place true
      return .ref o
    else mismatch ts position s!"Incompatible array type at parameter {position}."
  | _, _ => mismatch ts position s!"Expected jarray parameter at {position}."

def coerceToObject (bodies : Bodies World) (ts : InterpreterId) (value : Script.Value)
    (param : ClassId) (position : Nat) : BridgeM Host.Value := do
  match value.asText? with
  | some text =>
    if ← stringFits param then textValue text
    else mismatch ts position s!"Tried to set a string on an incomparable parameter {position}."
  | none =>
    match ← shownObject? value with
    | none => mismatch ts position s!"Expected object parameter at {position}."
    | some (o, c) =>
      if ← assignable c param then
        match value with
        | .foreign f => releasePin bodies ts f.place true
        | _ => pure ()
        return .ref o
      else mismatch ts position s!"Incorrect object type at {position}."

/-- The argument that a value becomes for a parameter of a class, which was classified as a kind.
The position counts from one. -/
def coerce (bodies : Bodies World) (ts : InterpreterId) (value : Script.Value) (param : ClassId)
    (kind : Kind) (position : Nat) : BridgeM Host.Value := do
  match kind with
  | .string => if value.isNone then return .null else coerceToString ts value position
  | .array => if value.isNone then return .null else coerceToArray bodies ts value param position
  | .type =>
    match value, ← viewOf? value with
    | .none, _ => return .null
    | _, some (.type _ mirror) => return .ref mirror
    | _, _ => mismatch ts position s!"Expected class parameter at {position}."
  | .object => if value.isNone then return .null else coerceToObject bodies ts value param position
  | .void => mismatch ts position s!"Unknown java type at {position}."
  | .char =>
    match primitiveOf? .char value with
    | some v => pure v
    | none => mismatch ts position s!"Expected char parameter at {position}"
  | kind =>
    match primitiveOf? kind value with
    | some v => pure v
    | none => mismatch ts position (primitiveMessage kind position)

end ScriptBridge.Bridge
