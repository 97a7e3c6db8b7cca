import ScriptBridge.Bridge.Method
import ScriptBridge.Script.Interpreter

/-!
# Importing from the Host

A path that no script module answers to is looked up in the Host: as a package whose listed
classes the context's loader can load, or as one such class of its parent package. A package
becomes a module that keeps what earlier imports have bound in it.

The module under which scripts reach the bridge itself is here too.
-/

namespace ScriptBridge.Bridge

open Host (ClassId ObjectId HostM Bodies onRealm getRealm)
open Script (InterpreterId ModuleRef)

/-! ### The bridge module -/

/-- The numbers of the kinds, as a module exports them. -/
def kindEntries : List (String × Script.Value) :=
  Kind.all.map (fun kind => (kind.name ++ "_ID", .int (.ofInt kind.id))) ++
    [("NULL_ID", .int (.ofInt Kind.nullId))]

/-- What scripts find in the bridge module. -/
def moduleEntries (name : String) : List (String × Script.Value) :=
  [("__name__", .text name)] ++
    [Script.Extension.findClass, .forName, .printStack].map
      (fun function => (function.title, .native (.extension function))) ++
    kindEntries

def newBridgeModule {ε : Type} (name : String) : EStateM ε World ModuleRef := do
  let module ← Script.newModule name .created
  Script.bindAll module (moduleEntries name)
  return module

/-- The only argument of a function that takes a name. -/
def nameArgument (ts : InterpreterId) (function : String) : List Script.Value → BridgeM String
  | [.text name] => pure name
  | _ => complain ts .type s!"{function}() takes exactly one string argument"

/-- Loads a class through the loader of the context. -/
def findClass (bodies : Bodies World) (ts : InterpreterId) (args : List Script.Value) :
    BridgeM Script.Value := do
  let name ← nameArgument ts "findClass" args
  match ← link? ts with
  | none => complain ts .runtime "no execution context is active"
  | some link =>
    let dotted := String.ofList (name.toList.map fun c => if c = '/' then '.' else c)
    viewClass (← hostCall bodies ts (loadClass bodies link.loader dotted))

/-- Finds a class of the Host, whatever the loader. -/
def forName (bodies : Bodies World) (ts : InterpreterId) (args : List Script.Value) :
    BridgeM Script.Value := do
  let name ← nameArgument ts "forName" args
  viewClass (← hostCall bodies ts (Host.findClass name))

def setLinkPrintStack {ε : Type} (c : ContextId) (flag : Bool) : EStateM ε World Unit :=
  modifyContext c fun x => { x with link := { x.link with printStack := flag } }

/-- Sets whether the context writes traces. -/
def printStack (ts : InterpreterId) : List Script.Value → BridgeM Script.Value
  | [flag] => do
    match ← linkedContext? ts with
    | some c => setLinkPrintStack c flag.truthy
    | none => pure ()
    return .none
  | _ => complain ts .type "printStack() takes exactly one argument"

/-! ### Packages -/

/-- The names that an import asks for; `none` stands for all of them. -/
def wantedNames (fromList : Option Script.Value) : Option (List String) :=
  match fromList with
  | some (.tuple items) =>
    let names := items.filterMap Script.Value.asText?
    if names.isEmpty || names.contains "*" then none else some names
  | _ => none

def isWanted (wanted : Option (List String)) (simple : String) : Bool :=
  wanted.all (·.contains simple)

/-- The error of a path that nothing answers to. -/
def unresolved (path : String) : Script.Exception := (Script.Fault.noModule path).exception

/-- The method that lists packages, as the interpreter's import entry has found it. -/
def listingMethod (ts : InterpreterId) : HostM World Host.Method := do
  let rt := (← Script.getInterpreter ts).runtime
  match (← getState).listings.lookup rt with
  | some method => pure method
  | none =>
    let c ← Host.findClass Host.classListName
    let method ← Host.getMethod c "get" [Host.stringName]
    modifyState fun s => { s with listings := (rt, method) :: s.listings }
    return method

/-- The texts of the strings among some values. -/
def namesAmong : List Host.Value → HostM World (List String)
  | [] => pure []
  | .ref o :: rest => do
    let name ← Host.stringChars o
    return name :: (← namesAmong rest)
  | _ :: rest => namesAmong rest

/-- The class names that a package lists. -/
def listMembers (bodies : Bodies World) (ts : InterpreterId) (package : String) :
    HostM World (List String) := do
  let method ← listingMethod ts
  let text ← onRealm (Host.Realm.newText package)
  match ← Host.callMethod bodies none method [.ref text] with
  | .ref array => do namesAmong (← Host.arrayElements array)
  | _ => return []

/-- Lists a package; a throwable becomes an import error. -/
def membersOrRaise (bodies : Bodies World) (ts : InterpreterId) (package path : String) :
    BridgeM (List String) := do
  match ← Script.attempt (listMembers bodies ts package) with
  | .ok members => pure members
  | .error _ =>
    if ← receiveImportThrowable bodies ts then throw {}
    else Script.raiseException ts (unresolved path)

/-- The members that can be loaded, with their simple names. -/
def loadable (bodies : Bodies World) (loader : ObjectId) :
    List String → BridgeM (List (String × ClassId))
  | [] => pure []
  | member :: rest => do
    let loaded ← quietly (loadClass bodies loader member)
    let more ← loadable bodies loader rest
    return (loaded.map fun c => (Host.simpleName member, c)).toList ++ more

/-- Binds views of classes under names that are free. -/
def bindClasses (module : ModuleRef) : List (String × ClassId) → BridgeM Unit
  | [] => pure ()
  | (simple, c) :: rest => do
    if (← Script.lookup? module simple).isNone then
      Script.bindName module simple (← viewClass c)
    bindClasses module rest

/-- The class that a path names inside its parent package, if it can be loaded. -/
def listedClass? (bodies : Bodies World) (ts : InterpreterId) (loader : ObjectId) (path : String) :
    BridgeM (Option ClassId) := do
  match Host.packageName? path with
  | none => return none
  | some parent =>
    if (← membersOrRaise bodies ts parent path).contains path then
      quietly (loadClass bodies loader path)
    else return none

/-- Imports a path of the Host. -/
def importHostPath (bodies : Bodies World) (ts : InterpreterId) (loader : ObjectId) (path : String)
    (wanted : Option (List String)) : BridgeM Script.Value := do
  let members ← membersOrRaise bodies ts path path
  let found ← loadable bodies loader
    (members.filter fun member => isWanted wanted (Host.simpleName member))
  if found.isEmpty then
    match ← listedClass? bodies ts loader path with
    | some c => viewClass c
    | none => Script.raiseException ts (unresolved path)
  else
    let module ← Script.moduleOrNew ts path .hostPackage
    bindClasses module found
    return .module module

/-- The import entry of interpreters that can see the Host. -/
def importEntry (bodies : Bodies World) (ts : InterpreterId) (args : List Script.Value) :
    BridgeM Script.Value := do
  match ← Script.attempt (Script.defaultImport ts args) with
  | .ok value => pure value
  | .error raised =>
    if !(← Script.errorIsA ts .importing) then throw raised
    Script.clearError ts
    let path ← Script.orRaise ts (Script.importPath args)
    match ← link? ts with
    | none => Script.raiseException ts (unresolved path)
    | some link => importHostPath bodies ts link.loader path (wantedNames args[3]?)

/-- Makes the import entry of an interpreter look into the Host. -/
def installImport {ε : Type} (ts : InterpreterId) : EStateM ε World Unit := do
  Script.bindName (← Script.getInterpreter ts).builtins "__import__"
    (.native (.extension .importHook))

/-- Calls a function of the bridge. -/
def callExtension (bodies : Bodies World) (ts : InterpreterId) (function : Script.Extension)
    (args : List Script.Value) : BridgeM Script.Value :=
  match function with
  | .importHook => importEntry bodies ts args
  | .findClass => findClass bodies ts args
  | .forName => forName bodies ts args
  | .printStack => printStack ts args

end ScriptBridge.Bridge
