import ScriptBridge.Bridge.World
import ScriptBridge.Host.Standard
import ScriptBridge.Script.Fault
import ScriptBridge.Text.Blank

/-!
# Errors that cross the bridge

A throwable that is pending in the Host becomes an error of the script that caused it, and an
error that ends a script becomes a failure, or a throwable of the Host again. The throwable that
started it stays attached as the cause, and each side's slot is cleared as its error leaves.
-/

namespace ScriptBridge.Bridge

open Host (ObjectId HostM Bodies onRealm getRealm)
open Script (InterpreterId Exception ErrorType Family Raised raiseException)

variable {α : Type} {ε : Type}

/-- Makes an error of a built-in type pending and fails. -/
def complain (ts : InterpreterId) (family : Family) (message : String) : BridgeM α :=
  raiseException ts { type := .builtin family, message := some message }

/-! ### From the Host to a script -/

/-- Writes several lines to the standard error stream. -/
def reportLines : List String → EStateM ε World Unit
  | [] => pure ()
  | line :: rest => do
    Script.reportLine line
    reportLines rest

/-- The text of a throwable, or the name of its class if it cannot say. -/
def throwableText (bodies : Bodies World) (throwable : ObjectId) : EStateM ε World String := do
  match ← Script.attempt (Host.toText bodies throwable) with
  | .ok text => pure text
  | .error _ =>
    onRealm (Host.Realm.setPending none)
    return (← getRealm).classNameOf throwable

/-- Takes the pending throwable away, with its text. A context may want it described first. -/
def capture (bodies : Bodies World) (ts : InterpreterId) :
    EStateM ε World (Option (ObjectId × String)) := do
  match (← getRealm).pending with
  | none => return none
  | some throwable =>
    if ((← link? ts).map (·.printStack)).getD false then
      reportLines (← onRealm Host.Realm.describe)
    onRealm (Host.Realm.setPending none)
    return some (throwable, ← throwableText bodies throwable)

/-- The simple class name that the text of a throwable begins with. -/
def namedBy (text : String) : String :=
  let head := Text.trimChars (text.toList.takeWhile (· != ':'))
  Host.simpleName (String.ofList head)

/-- The error type that the bridge module of the context has for a throwable with this text. -/
def mappedType? (ts : InterpreterId) (text : String) : EStateM ε World (Option ErrorType) := do
  if !(← getState).mapped then return none
  match ← link? ts with
  | none => return none
  | some link =>
    match ← Script.lookup? link.bridgeModule (namedBy text) with
    | some (.errorType type) => return some type
    | _ => return none

/-- The script error that a throwable becomes. -/
def errorFor (ts : InterpreterId) (throwable : ObjectId) (text : String) :
    EStateM ε World Exception := do
  let type ←
    if (← getRealm).classNameOf throwable = "java.lang.OutOfMemoryError" then
      pure (.builtin .memory)
    else pure ((← mappedType? ts text).getD (.builtin .runtime))
  return { type, message := some text, cause := some throwable }

/-- Makes the pending throwable the pending error; tells whether there was one. -/
def receiveThrowable (bodies : Bodies World) (ts : InterpreterId) : EStateM ε World Bool := do
  match ← capture bodies ts with
  | none => return false
  | some (throwable, text) =>
    Script.setError ts (some (← errorFor ts throwable text))
    return true

/-- Makes the pending throwable an import error; tells whether there was one. -/
def receiveImportThrowable (bodies : Bodies World) (ts : InterpreterId) : EStateM ε World Bool := do
  match ← capture bodies ts with
  | none => return false
  | some (throwable, text) =>
    Script.setError ts
      (some { type := .builtin .importing, message := some text, cause := some throwable })
    return true

/-- Makes a call into the Host; a throwable becomes an error of the script. -/
def hostCall (bodies : Bodies World) (ts : InterpreterId) (call : HostM World α) : BridgeM α := do
  match ← Script.attempt call with
  | .ok a => pure a
  | .error _ =>
    if ← receiveThrowable bodies ts then throw {} else complain ts .runtime "host call failed"

/-- Makes a call into the Host whose throwable is of no interest. -/
def quietly (call : HostM World α) : EStateM ε World (Option α) := do
  match ← Script.attempt call with
  | .ok a => return some a
  | .error _ =>
    onRealm (Host.Realm.setPending none)
    return none

/-- Takes away a throwable that no script is running to receive. -/
def pendingFailure? (bodies : Bodies World) : EStateM ε World (Option Failure) := do
  match (← getRealm).pending with
  | none => return none
  | some throwable =>
    onRealm (Host.Realm.setPending none)
    let name := (← getRealm).classNameOf throwable
    return some (.host name (← throwableText bodies throwable))

/-! ### Declared exceptions -/

/-- A new error type that stands for a Host class. -/
def newMappedType (hostClass module : String) : EStateM ε World ErrorType := do
  let serial := (← Script.getMemory).errorTypes
  Script.modifyMemory fun m => { m with errorTypes := m.errorTypes + 1 }
  return .mapped serial hostClass module (.builtin .runtime)

/-- Binds an error type for every class whose simple name the bridge module does not know. -/
def registerAll (module : Script.ModuleRef) : List String → EStateM ε World Unit
  | [] => pure ()
  | name :: rest => do
    let simple := Host.simpleName name
    if (← Script.lookup? module simple).isNone then
      Script.bindName module simple (.errorType (← newMappedType name module.name))
    registerAll module rest

/-- Makes the declared exceptions of a method known by name in the bridge module. -/
def registerExceptions (ts : InterpreterId) (method : Host.Method) : EStateM ε World Unit := do
  if (← getState).mapped && !method.exceptions.isEmpty then
    match ← link? ts with
    | none => pure ()
    | some link =>
      match ← quietly (Host.findClasses method.exceptions) with
      | none => pure ()
      | some classes => do
        let r ← getRealm
        registerAll link.bridgeModule (classes.map r.nameOf)

/-! ### From a script to the Host -/

/-- The failure that a script error becomes. -/
def Failure.ofException (e : Exception) : Failure :=
  if e.isA .parsing then .syntaxError e.render
  else if e.isA .memory then .outOfMemory e.render
  else if e.isA .importing then
    match e.detail with
    | some (.importPath path) => .unresolvedImport path e.render
    | _ => .unresolvedImport (e.message.getD "") e.render
  else
    match e.detail with
    | some (.position position) => .typeMismatch position (e.message.getD e.render)
    | _ => .script e.type.qualifiedName e.render e.type.hostClass? e.cause

/-- Takes the pending error away as a failure; its trace may be written first. -/
def takeFailure? (ts : InterpreterId) (printStack : Bool) : EStateM ε World (Option Failure) := do
  match ← Script.takeError ts with
  | none => return none
  | some e =>
    if printStack then Script.reportLine e.renderTrace
    return some (.ofException e)

/-- The script error that stands for a failure of the bridge. -/
def Failure.exception (f : Failure) : Exception :=
  let message := some f.message
  match f with
  | .outOfMemory _ => { type := .builtin .memory, message }
  | .unresolvedImport path _ =>
    { type := .builtin .importing, message, detail := some (.importPath path) }
  | .typeMismatch position _ =>
    { type := .builtin .type, message, detail := some (.position position) }
  | .syntaxError _ => { type := .builtin .parsing, message }
  | _ => { type := .builtin .runtime, message }

/-- Raises a failure of the bridge in a script. -/
def raiseFailure (ts : InterpreterId) (f : Failure) : BridgeM α := raiseException ts f.exception

/-- The Host throwable at the root of a failure. -/
def Failure.cause? : Failure → Option ObjectId
  | .script _ _ _ cause => cause
  | _ => none

/-- The throwable that carries a failure into the Host. -/
def Failure.throwable (f : Failure) (bodies : Bodies World) : HostM World ObjectId := do
  let c ← Host.findClass Host.embedExceptionName
  let constructor ← Host.getConstructor c [Host.stringName, Host.Standard.throwableName]
  let message ← onRealm (Host.Realm.newText f.message)
  Host.newObject bodies c constructor [.ref message, .ofRef f.cause?]

/-- Makes a failure pending in the Host. -/
def Failure.throwInto (f : Failure) (bodies : Bodies World) : HostM World α := do
  Host.throwObject (← f.throwable bodies)

/-! ### Classification for scripts -/

/-- A step that needs a type token; without it, an error of the script. -/
def orUnavailable (ts : InterpreterId) (step : EStateM Unavailable World α) : BridgeM α := do
  match ← Script.attempt step with
  | .ok a => pure a
  | .error u => raiseFailure ts u.failure

def kindOf (ts : InterpreterId) (c : Host.ClassId) : BridgeM Kind := orUnavailable ts (classify c)

end ScriptBridge.Bridge
