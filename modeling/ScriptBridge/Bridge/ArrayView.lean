import ScriptBridge.Bridge.Convert
import ScriptBridge.Script.Protocol

/-!
# Views of arrays

Elements are read from the pin and written to it, so a script sees its own writes at once and the
Host sees them when the pin is given back. Also here is the text of every view, since the text of
an array shows its elements.
-/

namespace ScriptBridge.Bridge

open Host (ClassId ObjectId Bodies onRealm getRealm)
open Script (InterpreterId)

/-! ### Elements -/

/-- The class of an array's elements, with its kind. -/
def component (ts : InterpreterId) (place : Nat) : BridgeM (ClassId × Kind) := do
  match (← getProxy place).view with
  | .array _ (some known) _ => pure known
  | .array o none _ => do
    let r ← getRealm
    match (r.classOf (r.classIdOf o)).component? with
    | none => complain ts .type "object is not an array"
    | some c =>
      let known := (c, ← kindOf ts c)
      modifyProxy place fun p =>
        match p.view with
        | .array o _ pin => { p with view := .array o (some known) pin }
        | _ => p
      return known
  | _ => complain ts .type "object is not an array"

/-- The pin of an array's view, taken now if there is none. -/
def pinned (bodies : Bodies World) (ts : InterpreterId) (place : Nat) : BridgeM Pin := do
  match (← getProxy place).view with
  | .array _ _ (some pin) => pure pin
  | .array o _ none => do
    let items ← hostCall bodies ts (Host.arrayElements o)
    setPin place (some { items })
    return { items }
  | _ => complain ts .runtime "array storage unavailable"

/-- The position that an index names among the elements; a negative index counts from the end. -/
def elementIndex (ts : InterpreterId) (index : Script.Value) (length : Nat) : BridgeM Nat :=
  match Script.wholeIndex? index with
  | none => complain ts .type s!"array indices must be integers, not {index.typeName}"
  | some i =>
    match Script.position? i length with
    | some place => pure place
    | none => complain ts .index "array index out of range"

def getElement (bodies : Bodies World) (ts : InterpreterId) (place : Nat) (index : Script.Value) :
    BridgeM Script.Value := do
  let (_, kind) ← component ts place
  let pin ← pinned bodies ts place
  let i ← elementIndex ts index pin.items.length
  toScript bodies ts (pin.items.getD i .null) kind

def setElement (bodies : Bodies World) (ts : InterpreterId) (place : Nat) (index : Script.Value)
    (value : Script.Value) : BridgeM Unit := do
  let (c, kind) ← component ts place
  let converted ← coerce bodies ts value c kind 1
  let pin ← pinned bodies ts place
  let i ← elementIndex ts index pin.items.length
  setPin place (some { items := pin.items.set i converted, changed := true })

def arrayLength (bodies : Bodies World) (ts : InterpreterId) (place : Nat) : BridgeM Nat := do
  match (← getProxy place).view with
  | .array _ _ (some pin) => return pin.items.length
  | .array o _ none => hostCall bodies ts (Host.arrayLength o)
  | _ => complain ts .type "object is not an array"

/-! ### Texts -/

/-- Shows each element of an array in turn. -/
def showElements (bodies : Bodies World) (ts : InterpreterId) (place : Nat)
    (showOne : Script.Value → BridgeM String) : (count first : Nat) → BridgeM (List String)
  | 0, _ => pure []
  | count + 1, i => do
    let element ← getElement bodies ts place (.int (.ofNat i))
    let text ← showOne element
    return text :: (← showElements bodies ts place showOne count (i + 1))

/-- The text of a value as a script would write it; arrays are shown as `showArray` says. -/
def shown (bodies : Bodies World) (ts : InterpreterId) (showArray : (place : Nat) → BridgeM String)
    (value : Script.Value) : BridgeM String :=
  match value with
  | .foreign f => do
    match (← getProxy f.place).view with
    | .object o => hostCall bodies ts (Host.toText bodies o)
    | .type c _ => return s!"<host_class '{(← getRealm).nameOf c}'>"
    | .method name _ _ => return s!"<host_method {name}>"
    | .array _ _ _ => showArray f.place
  | value =>
    match value.repr? with
    | some text => pure text
    | none => Script.giveUp

/-- The text of a value, with arrays inside arrays to some depth. -/
def shownWithin (bodies : Bodies World) (ts : InterpreterId) :
    (depth : Nat) → Script.Value → BridgeM String
  | 0 => shown bodies ts fun _ => Script.giveUp
  | depth + 1 => shown bodies ts fun place => do
    let length ← arrayLength bodies ts place
    let texts ← showElements bodies ts place (shownWithin bodies ts depth) length 0
    return "[" ++ String.intercalate ", " texts ++ "]"

/-- The text of a view. Arrays that do not contain themselves are no deeper than there are
objects. -/
def viewText (bodies : Bodies World) (ts : InterpreterId) (f : Script.Foreign) : BridgeM String := do
  shownWithin bodies ts ((← getRealm).objects.size + 1) (.foreign f)

/-- The text of a value as it is printed. -/
def printedText (bodies : Bodies World) (ts : InterpreterId) (value : Script.Value) :
    BridgeM String :=
  match value with
  | .foreign f => viewText bodies ts f
  | other =>
    match other.text? with
    | some text => pure text
    | none => Script.giveUp

end ScriptBridge.Bridge
