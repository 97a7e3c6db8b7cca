import ScriptBridge.Bridge.ArrayView
import ScriptBridge.Bridge.Method

/-!
# Containers and numbers of the Host

A Host object whose class implements one of a few interfaces can be indexed, measured, searched or
counted with in a script. The interfaces are tried in order, so that a list is never driven as a
mere collection. An operation that the interface does not offer gives nothing.
-/

namespace ScriptBridge.Bridge

open Host (ClassId ObjectId HostM Bodies onRealm getRealm)
open Script (InterpreterId)

namespace Protocol

def all : List Protocol := [list, map, collection, number]

def interfaceName : Protocol → String
  | list => Host.listName
  | map => Host.mapName
  | collection => Host.collectionName
  | number => Host.numberName

/-- The methods that drive objects of the protocol. -/
def methodNames : Protocol → List (String × List String)
  | list =>
    [("size", []), ("contains", [Host.objectName]), ("get", ["int"]),
      ("set", ["int", Host.objectName])]
  | map =>
    [("size", []), ("containsKey", [Host.objectName]), ("get", [Host.objectName]),
      ("put", [Host.objectName, Host.objectName])]
  | collection => [("size", []), ("contains", [Host.objectName])]
  | number => [("doubleValue", [])]

/-- The name of the method that searches. -/
def searchName : Protocol → String
  | map => "containsKey"
  | _ => "contains"

end Protocol

def findMethods (c : ClassId) : List (String × List String) → HostM World (List Host.Method)
  | [] => pure []
  | (name, params) :: rest => do
    let method ← Host.getMethod c name params
    return method :: (← findMethods c rest)

def findProtocol (p : Protocol) : HostM World ProtocolEntry := do
  let interface ← Host.findClass p.interfaceName
  return ⟨p, interface, ← findMethods interface p.methodNames⟩

def findProtocols {ε : Type} : List Protocol → EStateM ε World (List ProtocolEntry)
  | [] => pure []
  | p :: rest => do
    let entry ← quietly (findProtocol p)
    return entry.toList ++ (← findProtocols rest)

/-- The protocols that the Host provides, looked up on first use. -/
def protocols {ε : Type} : EStateM ε World (List ProtocolEntry) := do
  match (← getState).protocols with
  | some entries => pure entries
  | none =>
    let entries ← findProtocols Protocol.all
    modifyState fun s => { s with protocols := some entries }
    return entries

/-- The first protocol that an object's class implements. -/
def protocolOf? {ε : Type} (o : ObjectId) : EStateM ε World (Option ProtocolEntry) := do
  let entries ← protocols
  let r ← getRealm
  return entries.find? fun entry => r.isAssignable (r.classIdOf o) entry.interface

namespace ProtocolEntry

variable (entry : ProtocolEntry) (bodies : Bodies World) (ts : InterpreterId) (o : ObjectId)

/-- Calls a method of the protocol, if it has one of the name. -/
def call (name : String) (args : List Script.Value) : BridgeM (Option Script.Value) := do
  match entry.methods.find? (·.name == name) with
  | none => return none
  | some method => return some (← invoke bodies ts (some o) method args)

def length : BridgeM (Option Nat) := do
  match ← entry.call bodies ts o "size" [] with
  | none => return none
  | some (.int size) => return some size.toInt.toNat
  | some other => complain ts .type s!"size() returned '{other.typeName}'"

def contains (item : Script.Value) : BridgeM (Option Bool) := do
  return (← entry.call bodies ts o entry.protocol.searchName [item]).map (·.truthy)

/-- The index that a script gave, counted from the start. -/
def listIndex (key : Script.Value) : BridgeM Script.Value := do
  let length := (← entry.length bodies ts o).getD 0
  return .int (.ofNat (← Script.resolveIndex ts key length))

/-- The value under a key; a missing key is an error even if nothing would be a value. -/
def mapItem (key : Script.Value) : BridgeM (Option Script.Value) := do
  match ← entry.call bodies ts o "get" [key] with
  | none => return none
  | some found =>
    if found.isNone then
      if (← entry.contains bodies ts o key) != some true then
        complain ts .key (← printedText bodies ts key)
    return some found

def getItem (key : Script.Value) : BridgeM (Option Script.Value) := do
  match entry.protocol with
  | .list => entry.call bodies ts o "get" [← entry.listIndex bodies ts o key]
  | .map => entry.mapItem bodies ts o key
  | .collection | .number => return none

/-- Stores a value under a key; tells whether the protocol can. -/
def setItem (key value : Script.Value) : BridgeM Bool := do
  match entry.protocol with
  | .list =>
    let index ← entry.listIndex bodies ts o key
    return (← entry.call bodies ts o "set" [index, value]).isSome
  | .map => return (← entry.call bodies ts o "put" [key, value]).isSome
  | .collection | .number => return false

/-- The number that the object stands for. -/
def number : BridgeM (Option Script.Value) := do
  match ← entry.call bodies ts o "doubleValue" [] with
  | some (.float x) => return some (.float x)
  | _ => return none

end ProtocolEntry

/-- Uses the protocol of an object, if it has one. -/
def withProtocol {α : Type} (o : ObjectId) (use : ProtocolEntry → BridgeM (Option α)) :
    BridgeM (Option α) := do
  match ← protocolOf? o with
  | none => return none
  | some entry => use entry

end ScriptBridge.Bridge
