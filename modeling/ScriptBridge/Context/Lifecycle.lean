import ScriptBridge.Context.Bracket

/-!
# The life of contexts

A context is created over a class loader and closed once. While it is open it is in the registry,
its interpreter is linked to it, and it keeps its loader by one durable reference; closing it undoes
all three and empties its namespaces.
-/

namespace ScriptBridge.Context

open Bridge (World State Failure ContextId Machine getState modifyState modifyContext)
open Host (ObjectId onRealm getRealm)

/-- The object, if it is a class loader. -/
def checkLoader (loader : Option ObjectId) : Operation ObjectId := do
  match loader, ← onRealm (Host.Realm.lookupClass? Host.loaderName) with
  | some o, some c =>
    let r ← getRealm
    if r.isAssignable (r.classIdOf o) c then return o else throw .badLoader
  | _, _ => throw .badLoader

/-- Opens a context over an object that is a class loader. -/
def openOver {ε : Type} (loader : ObjectId) : EStateM ε World ContextId := do
  let state ← Script.newInterpreter (← getState).runtime
  let s ← getState
  let c : ContextId := ⟨s.contexts.size + 1⟩
  let module ← Bridge.newBridgeModule s.moduleName
  Script.addModule state module
  Bridge.installImport state
  let g ← onRealm (Host.Realm.newGlobalRef loader)
  let number := (← Script.getInterpreter state).number
  modifyState fun s =>
    { s with
      contexts := s.contexts.push
        { state, link := ⟨s.printStack, module, loader⟩, loaderRef := some g }
      links := (number, c) :: s.links.filter (·.1 != number)
      registry := s.registry ++ [c] }
  return c

/-- Opens a context over a class loader, as long as the runtime is there. -/
def create (loader : Option ObjectId) : Operation ContextId := do
  let loader ← checkLoader loader
  if (← Script.getRuntime (← getState).runtime).finalized then
    throw (.unavailable "script runtime is finalized")
  openOver loader

/-- Notes that values lost a binding, the first one first. -/
def release {ε : Type} : List Script.Value → EStateM ε World Unit
  | [] => pure ()
  | value :: rest => do
    Script.modifyMemory (·.release (some value))
    release rest

/-- Takes back what a context has: its handles, its link, its loader reference and its
interpreter. -/
def dissolve {ε : Type} (c : ContextId) (context : Bridge.Context) : EStateM ε World Unit := do
  modifyContext c fun x => { x with closed := true, handles := [], loaderRef := none }
  release (context.handles.map (·.2))
  let number := (← Script.getInterpreter context.state).number
  modifyState fun s => { s with links := s.links.filter (·.1 != number) }
  match context.loaderRef with
  | some g => onRealm (Host.Realm.deleteGlobalRef g)
  | none => pure ()
  Script.endInterpreter context.state
  Bridge.reclaim false

/-- Ends a context, once. -/
def teardown {ε : Type} (c : ContextId) : EStateM ε World Unit := do
  let context ← Bridge.getContext c
  if !context.closed then dissolve c context

def unregister {ε : Type} (c : ContextId) : EStateM ε World Unit :=
  modifyState fun s => { s with registry := s.registry.filter (· != c) }

/-- Closes a context. -/
def close (c : ContextId) : Operation Unit := do
  let context ← lookup c
  entering context.state do
    unregister c
    teardown c

/-- Lets go of a context that stays as it is. -/
def letGo {ε : Type} (context : Bridge.Context) : EStateM ε World Unit := do
  let i ← Script.getInterpreter context.state
  release ((i.modules.values ++ [i.builtins, i.main]).map .module)
  release (context.handles.map (·.2))
  Bridge.reclaim false

/-- Closes contexts that have left the registry. One that cannot be entered now is let go of as it
is. -/
def closeEach {ε : Type} : List ContextId → EStateM ε World Unit
  | [] => pure ()
  | c :: rest => do
    let context ← Bridge.getContext c
    match ← Script.attempt (entering context.state (teardown c)) with
    | .ok () => pure ()
    | .error _ => letGo context
    closeEach rest

/-- Closes every open context. -/
def closeAll {ε : Type} : EStateM ε World Unit := do
  let drained := (← getState).registry
  modifyState fun s => { s with registry := [] }
  closeEach drained

/-- Keeps another class loader for a context, and lets go of the one that it had. -/
def keepLoader {ε : Type} (c : ContextId) (loader : ObjectId) : EStateM ε World Unit := do
  let fresh ← onRealm (Host.Realm.newGlobalRef loader)
  match (← Bridge.getContext c).loaderRef with
  | some old => onRealm (Host.Realm.deleteGlobalRef old)
  | none => pure ()
  modifyContext c fun context =>
    { context with loaderRef := some fresh, link := { context.link with loader } }

/-- Replaces the class loader of a context. -/
def setLoader (x : Machine) (c : ContextId) (loader : Option ObjectId) : Operation Unit := do
  let loader ← checkLoader loader
  within x c fun _ => keepLoader c loader

/-- Sets whether errors of a context write their traces. -/
def setPrintStack (c : ContextId) (flag : Bool) : Operation Unit := do
  let _ ← lookup c
  Bridge.setLinkPrintStack c flag

/-! ### The whole bridge -/

/-- A bridge between a Host and a new runtime. -/
def start (config : Config) : EStateM ConfigError World Unit := do
  match config.validate with
  | .error e => throw e
  | .ok () =>
    let runtime ← Script.newRuntime
    modifyState fun s =>
      { s with
        runtime, mapped := config.mappedExceptions, printStack := config.printStack
        moduleName := config.bridgeModule }

/-- Lets go of all that the bridge has looked up, and of the runtime. -/
def forget {ε : Type} : EStateM ε World Unit := do
  let refs := (← getState).conversionRefs
  modifyState fun s => { s with conversionRefs := [] }
  onRealm (Bridge.deleteRefs refs)
  Bridge.releaseTypes
  Script.finalize (← getState).runtime

/-- Closes every context and lets go of everything, once. -/
def shutDown {ε : Type} : EStateM ε World Unit := do
  if !(← getState).shutDown then
    modifyState fun s => { s with shutDown := true }
    closeAll
    forget

end ScriptBridge.Context
