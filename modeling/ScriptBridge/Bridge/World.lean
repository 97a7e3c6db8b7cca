import ScriptBridge.Bridge.TypeToken
import ScriptBridge.Script.World

/-!
# What the bridge keeps

The bridge stands between a Host and the interpreters of a runtime. It keeps the views of Host
objects that scripts hold, the contexts that the Host has opened, and the members that it has
looked up once. Together with the script side this is the world in which everything runs.
-/

namespace ScriptBridge.Bridge

open Host (ClassId ObjectId GlobalRef)
open Script (InterpreterId RuntimeId ModuleRef)

/-- A copy of an array's elements that a script works on. -/
structure Pin where
  items : List Host.Value
  /-- An element was written. -/
  changed : Bool := false

/-- What a foreign value shows to scripts. -/
inductive View where
  | object (object : ObjectId)
  /-- A class, with its class object. -/
  | type (described : ClassId) (mirror : ObjectId)
  | array (array : ObjectId) (component : Option (ClassId × Kind)) (pin : Option Pin)
  /-- The methods of one name, bound to an object or to a class. -/
  | method (name : String) (target : Option ObjectId) (overloads : List Host.Method)

structure Proxy where
  view : View
  /-- The reference that keeps the Host object as long as a script can reach the view. -/
  held : Option GlobalRef := none

instance : Inhabited Proxy := ⟨⟨.method "" none [], none⟩⟩

/-- The parts of a context that are consulted while its interpreter runs. -/
structure Link where
  printStack : Bool
  bridgeModule : ModuleRef
  loader : ObjectId
deriving Inhabited

/-- A context, by the number under which it was created. -/
structure ContextId where
  number : Nat
deriving DecidableEq, Repr, Inhabited

structure Context where
  state : InterpreterId
  link : Link
  loaderRef : Option GlobalRef
  /-- The values that the Host keeps by number. -/
  handles : List (Nat × Script.Value) := []
  nextHandle : Nat := 1
  closed : Bool := false
deriving Inhabited

/-- A constructor of a wrapper class. -/
structure Boxer where
  ofClass : ClassId
  constructor : Host.Method

/-- The constructors that box script values. -/
structure Boxing where
  boolean : Boxer
  int : Boxer
  long : Boxer
  double : Boxer

/-- The ways in which a Host object can act as a container or a number. -/
inductive Protocol where
  | list | map | collection | number
deriving DecidableEq, Repr

/-- An interface that stands for a protocol, with the methods that drive its objects. -/
structure ProtocolEntry where
  protocol : Protocol
  interface : ClassId
  methods : List Host.Method

structure State where
  realm : Host.Realm
  types : TypeCache := []
  /-- Host exceptions become error types of their own. -/
  mapped : Bool := true
  /-- New contexts write traces to the standard error stream. -/
  printStack : Bool := false
  moduleName : String := "embed"
  runtime : RuntimeId := ⟨0⟩
  boxing : Option Boxing := none
  accessors : Option (List (Kind × Host.Method)) := none
  loadClass : Option Host.Method := none
  /-- References that were taken while members were looked up. -/
  conversionRefs : List GlobalRef := []
  protocols : Option (List ProtocolEntry) := none
  /-- The method that lists packages, as the import entry of each runtime has found it. -/
  listings : List (RuntimeId × Host.Method) := []
  proxies : Array Proxy := #[]
  /-- The contexts in the order of their numbers, which start at one. -/
  contexts : Array Context := #[]
  /-- The contexts that are open. -/
  registry : List ContextId := []
  /-- The contexts to which interpreters are linked, by the numbers of the interpreters. -/
  links : List (Nat × ContextId) := []
  contextNames : Table ContextId := {}
  shutDown : Bool := false

instance : Inhabited State := ⟨{ realm := default }⟩

abbrev World := Script.World State

/-- A step that a script takes through the bridge. -/
abbrev BridgeM := Script.ScriptM State

instance : Typing World where
  realm w := w.outside.realm
  setRealm r w := { w with outside := { w.outside with realm := r } }
  types w := w.outside.types
  setTypes t w := { w with outside := { w.outside with types := t } }

variable {ε : Type}

def getState : EStateM ε World State := do return (← get).outside

def modifyState (f : State → State) : EStateM ε World Unit :=
  modify fun w => { w with outside := f w.outside }

/-! ### Views -/

def getProxy (place : Nat) : EStateM ε World Proxy := do
  return (← getState).proxies[place]?.getD default

def modifyProxy (place : Nat) (f : Proxy → Proxy) : EStateM ε World Unit :=
  modifyState fun s => { s with proxies := s.proxies.modify place f }

/-- A new foreign value. -/
def newProxy (kind : Script.ForeignKind) (proxy : Proxy) : EStateM ε World Script.Value := do
  let place := (← getState).proxies.size
  modifyState fun s => { s with proxies := s.proxies.push proxy }
  return .foreign ⟨kind, place⟩

/-- A view of an object, which it keeps alive. -/
def viewObject (o : ObjectId) : EStateM ε World Script.Value := do
  let g ← Host.onRealm (Host.Realm.newGlobalRef o)
  newProxy .object ⟨.object o, some g⟩

def viewClass (c : ClassId) : EStateM ε World Script.Value := do
  let mirror ← Host.onRealm (Host.Realm.mirror c)
  let g ← Host.onRealm (Host.Realm.newGlobalRef mirror)
  newProxy .type ⟨.type c mirror, some g⟩

def viewArray (o : ObjectId) : EStateM ε World Script.Value := do
  let g ← Host.onRealm (Host.Realm.newGlobalRef o)
  newProxy .array ⟨.array o none none, some g⟩

def viewMethod (name : String) (target : Option ObjectId) (overloads : List Host.Method) :
    EStateM ε World Script.Value :=
  newProxy .method ⟨.method name target overloads, none⟩

/-- The Host object behind a view; a method has none. -/
def View.object? : View → Option ObjectId
  | object o => some o
  | type _ mirror => some mirror
  | array o _ _ => some o
  | method _ _ _ => none

/-- The view that a value is. -/
def viewOf? (value : Script.Value) : EStateM ε World (Option View) := do
  match value with
  | .foreign f => return some (← getProxy f.place).view
  | _ => return none

/-! ### Contexts -/

def State.context (s : State) (c : ContextId) : Context := s.contexts[c.number - 1]?.getD default

def modifyContext (c : ContextId) (f : Context → Context) : EStateM ε World Unit :=
  modifyState fun s => { s with contexts := s.contexts.modify (c.number - 1) f }

def getContext (c : ContextId) : EStateM ε World Context := do return (← getState).context c

/-- The context that an interpreter is linked to. -/
def linkedContext? (ts : InterpreterId) : EStateM ε World (Option ContextId) := do
  return (← getState).links.lookup (← Script.getInterpreter ts).number

/-- The link of the context that an interpreter belongs to. -/
def link? (ts : InterpreterId) : EStateM ε World (Option Link) := do
  let s ← getState
  return (← linkedContext? ts).map fun c => (s.context c).link

end ScriptBridge.Bridge
