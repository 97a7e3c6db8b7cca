import ScriptBridge.Bridge.Crossing

/-!
# Pinned arrays

A script that reads or writes elements of an array works on a copy, the pin. The copy is given
back when the array is handed to the Host, when a script asks for it, or when the last reference
to the view goes away; only a copy that was written is stored.
-/

namespace ScriptBridge.Bridge

open Host (ObjectId Bodies)
open Script (InterpreterId)

variable {ε : Type}

/-- Replaces the pin of an array's view. -/
def setPin (place : Nat) (pin : Option Pin) : EStateM ε World Unit :=
  modifyProxy place fun p =>
    match p.view with
    | .array o component _ => { p with view := .array o component pin }
    | _ => p

/-- Takes the pin of an array's view away, with the array. -/
def takePin (place : Nat) : EStateM ε World (Option (ObjectId × Pin)) := do
  match (← getProxy place).view with
  | .array o _ (some pin) =>
    setPin place none
    return some (o, pin)
  | _ => return none

/-- Gives the pin of an array back; what was written is stored if `commit` says so. -/
def releasePin (bodies : Bodies World) (ts : InterpreterId) (place : Nat) (commit : Bool) :
    BridgeM Unit := do
  match ← takePin place with
  | none => pure ()
  | some (o, pin) =>
    hostCall bodies ts (Host.releaseArrayElements o pin.items (commit && pin.changed))

/-- Lets go of a view that nothing refers to: what was written is stored, and the Host object is
kept no longer. -/
def retire (place : Nat) : EStateM ε World Unit := do
  match ← takePin place with
  | none => pure ()
  | some (o, pin) =>
    let _ ← quietly (Host.releaseArrayElements o pin.items pin.changed)
  match (← getProxy place).held with
  | none => pure ()
  | some g =>
    Host.onRealm (Host.Realm.deleteGlobalRef g)
    modifyProxy place fun p => { p with held := none }

end ScriptBridge.Bridge
