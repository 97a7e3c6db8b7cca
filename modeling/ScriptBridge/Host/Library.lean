import ScriptBridge.Decimal.Reader
import ScriptBridge.Host.Call
import ScriptBridge.Text.Blank
import ScriptBridge.Text.UpperCase

/-!
# Methods of the class library

What the methods of the lang classes, the wrappers, the class loader and the collections do.
Collections compare their items with the equality of the items' own classes.
-/

namespace ScriptBridge.Host

variable {ω : Type} [Hosting ω]

def nullPointer : Throw := .new "java.lang.NullPointerException" none

def badCast : Throw := .new "java.lang.ClassCastException" none

/-! ### Arguments -/

/-- The object that a method was called on. -/
def receiver : Option ObjectId → BodyM ω ObjectId
  | some o => pure o
  | none => throw nullPointer

/-- An argument that has to be an object. -/
def objectArgument (args : List Value) (index : Nat) : BodyM ω ObjectId :=
  match args[index]?.bind Value.ref? with
  | some o => pure o
  | none => throw nullPointer

/-- An argument that has to be a string. -/
def textArgument (args : List Value) (index : Nat) : BodyM ω String := do
  let o ← objectArgument args index
  calling (stringChars o)

/-- The whole number in an argument. -/
def wholeArgument (args : List Value) (index : Nat) (default : Int64) : Int64 :=
  (args[index]?.bind Value.whole?).getD default

def floatArgument (args : List Value) (index : Nat) : Float :=
  (args[index]?.bind Value.float?).getD 0.0

/-- The first argument as an item of a collection. -/
def itemArgument (args : List Value) (index : Nat) : Value := args[index]?.getD .null

/-- A new string as a result. -/
def textResult (text : String) : BodyM ω Value := do
  return .ref (← onRealm (Realm.newText text))

/-- A value as one of a primitive type, or the complaint that it is not. -/
def narrowed (target : Primitive) (value : Value) : BodyM ω Value :=
  match value.narrow? target with
  | some v => pure v
  | none => throw (.new "java.lang.IllegalArgumentException" (some "argument type mismatch"))

/-- What an object holds, as a part of it that the method understands. -/
def contents {α : Type} (read : Payload → Option α) (target : Option ObjectId) :
    BodyM ω (ObjectId × α) := do
  let o ← receiver target
  match read ((← getRealm).payload o) with
  | some a => pure (o, a)
  | none => throw badCast

namespace Payload

def listItems? : Payload → Option (List Value)
  | list items => some items
  | _ => none

def mapEntries? : Payload → Option (List (Value × Value))
  | map entries => some entries
  | _ => none

def boxed? : Payload → Option Value
  | boxed value => some value
  | _ => none

def mirrored? : Payload → Option ClassId
  | mirror described => some described
  | _ => none

def packages? : Payload → Option (Option (List String))
  | loader packages => some packages
  | _ => none

end Payload

/-- The object that a wrapper wraps, or void. -/
def wrapped (target : Option ObjectId) : BodyM ω Value := do
  let o ← receiver target
  return ((← getRealm).boxed? o).getD .void

/-! ### Classes, strings, wrappers -/

/-- The hexadecimal digits of a number. -/
def hexText (n : Nat) : String := String.ofList (Nat.toDigits 16 n)

/-- The text of a class object. -/
def shownClass (c : Class) : String :=
  if c.isPrimitive then c.name
  else if c.isInterface then "interface " ++ c.name
  else "class " ++ c.name

/-- What tells wrapped values apart: the kind and the text of a primitive, the wrapped value of a
wrapper, the contents of a string, the described class of a class object, and the identity of any
other object. Characters that are halves of a pair are not told apart. -/
def Realm.sketch (r : Realm) : Nat → Value → String
  | _, .void => "void"
  | _, .null => "null"
  | _, .boolean value => if value then "true" else "false"
  | _, .byte value => toString value.toInt ++ "b"
  | _, .char unit => "'" ++ (if Text.isSurrogate unit then "?" else Text.unitText unit) ++ "'"
  | _, .short value => toString value.toInt ++ "s"
  | _, .int value => toString value.toInt
  | _, .long value => toString value.toInt ++ "L"
  | _, .float value => Decimal.float32Text value ++ "f"
  | _, .double value => Decimal.floatText value ++ "d"
  | depth, .ref o =>
    match r.payload o, depth with
    | .text text, _ => "\"" ++ text ++ "\""
    | .boxed value, depth + 1 =>
      simpleName (r.classNameOf o) ++ "(" ++ r.sketch depth value ++ ")"
    | .mirror described, _ => "class " ++ r.nameOf described
    | _, _ => r.classNameOf o ++ "@" ++ hexText o.index

/-- Two wrappers of one class that wrap the same. -/
def Realm.sameWrapped (r : Realm) (a b : ObjectId) : Bool :=
  r.classIdOf a == r.classIdOf b &&
    (match r.boxed? a, r.boxed? b with
    | some x, some y => r.sketch r.objects.size x == r.sketch r.objects.size y
    | none, none => true
    | _, _ => false)

/-- The larger of two floats; one that is not a number is passed over. -/
def largerFloat (a b : Float) : Float :=
  if a.isNaN then b else if b.isNaN then a else if a < b then b else a

/-- The name can be loaded by a loader with these packages. -/
def permits (packages : Option (List String)) (name : String) : Bool :=
  packages.all fun starts => starts.any fun start => start.toList.isPrefixOf name.toList

/-! ### Collections -/

/-- Equality of items: by their class for objects, by their text for primitives. -/
def sameItem (bodies : Bodies ω) (a b : Value) : BodyM ω Bool :=
  match a, b with
  | .ref x, .ref y => calling (sameObjects bodies x y)
  | .ref _, _ | _, .ref _ => pure false
  | .null, .null | .null, .void | .void, .null | .void, .void => pure true
  | a, b => pure (a.text == b.text)

def itemText (bodies : Bodies ω) : Value → BodyM ω String
  | .ref o => calling (toText bodies o)
  | value => pure value.text

def itemTexts (bodies : Bodies ω) : List Value → BodyM ω (List String)
  | [] => pure []
  | item :: rest => do
    let text ← itemText bodies item
    return text :: (← itemTexts bodies rest)

def entryTexts (bodies : Bodies ω) : List (Value × Value) → BodyM ω (List String)
  | [] => pure []
  | (key, value) :: rest => do
    let left ← itemText bodies key
    let right ← itemText bodies value
    return (left ++ "=" ++ right) :: (← entryTexts bodies rest)

/-- The place of the first item that equals the value. -/
def findItem (bodies : Bodies ω) (wanted : Value) (place : Nat) :
    List Value → BodyM ω (Option Nat)
  | [] => pure none
  | item :: rest => do
    if ← sameItem bodies item wanted then return some place
    else findItem bodies wanted (place + 1) rest

def listOf : Option ObjectId → BodyM ω (ObjectId × List Value) := contents Payload.listItems?

def mapOf : Option ObjectId → BodyM ω (ObjectId × List (Value × Value)) :=
  contents Payload.mapEntries?

def outOfBounds (index : Int64) (size : Nat) : Throw :=
  .new "java.lang.IndexOutOfBoundsException" (some s!"Index: {index.toInt}, Size: {size}")

/-- The place that an index names in a list. -/
def placeIn (index : Int64) (size : Nat) : BodyM ω Nat :=
  if 0 ≤ index.toInt ∧ index.toInt < size then pure index.toInt.toNat
  else throw (outOfBounds index size)

/-- The place of a key among the entries, and the entries as they are after the search. -/
def slot (bodies : Bodies ω) (target : Option ObjectId) (key : Value) :
    BodyM ω (Option Nat × ObjectId × List (Value × Value)) := do
  let (_, entries) ← mapOf target
  let found ← findItem bodies key 0 (entries.map (·.1))
  let (o, entries) ← mapOf target
  return (found.filter (· < entries.length), o, entries)

/-! ### Methods -/

/-- Runs a method of the class library. -/
def LibraryMethod.run (bodies : Bodies ω) (method : LibraryMethod) (target : Option ObjectId)
    (args : List Value) : BodyM ω Value :=
  match method with
  | .objectText => do
    let o ← receiver target
    textResult ((← getRealm).classNameOf o ++ "@" ++ hexText o.index)
  | .objectEquals => do
    let o ← receiver target
    return .boolean ((args[0]?.bind Value.ref?) == some o)
  | .objectHash => do return .int (.ofNat (← receiver target).index)
  | .objectClass => do
    let c := (← getRealm).classIdOf (← receiver target)
    return .ref (← onRealm (Realm.mirror c))
  | .className => do
    let (_, c) ← contents Payload.mirrored? target
    textResult ((← getRealm).nameOf c)
  | .classIsArray => do
    let (_, c) ← contents Payload.mirrored? target
    return .boolean ((← getRealm).classOf c).isArray
  | .classText => do
    let (_, c) ← contents Payload.mirrored? target
    textResult (shownClass ((← getRealm).classOf c))
  | .classEquals => do
    let (_, c) ← contents Payload.mirrored? target
    let r ← getRealm
    return .boolean (((args[0]?.bind Value.ref?).bind r.mirrored?) == some c)
  | .stringLength => do
    return .int (.ofNat (← calling (stringChars (← receiver target))).length)
  | .stringIsEmpty => do
    return .boolean (← calling (stringChars (← receiver target))).isEmpty
  | .stringCharAt => do
    let index := wholeArgument args 0 (-1)
    let text ← calling (stringChars (← receiver target))
    if 0 ≤ index.toInt then
      match text.toList[index.toInt.toNat]? with
      | some c => return .char (.ofNat c.toNat)
      | none => pure ()
    throw (.new "java.lang.IndexOutOfBoundsException" (some s!"index {index.toInt}"))
  | .stringUpperCase => do
    textResult (Text.upperCase (← calling (stringChars (← receiver target))))
  | .stringConcat => do
    let text ← calling (stringChars (← receiver target))
    textResult (text ++ (← textArgument args 0))
  | .stringText => do return .ref (← receiver target)
  | .stringEquals => do
    let o ← receiver target
    let r ← getRealm
    let mine := r.text? o
    return .boolean (mine.isSome && mine == (args[0]?.bind Value.ref?).bind r.text?)
  | .numberValue p => do
    let (_, value) ← contents Payload.boxed? target
    narrowed p value
  | .wrapperText => do textResult (← wrapped target).text
  | .wrapperEquals => do
    let o ← receiver target
    let r ← getRealm
    return .boolean ((args[0]?.bind Value.ref?).any fun other => r.sameWrapped other o)
  | .wrappedBoolean => do narrowed .boolean (← wrapped target)
  | .wrappedChar => do narrowed .char (← wrapped target)
  | .parseInt => do
    let text ← textArgument args 0
    match Decimal.readInt32? (Text.trimChars text.toList) with
    | some i => return .int i
    | none =>
      throw (.new "java.lang.NumberFormatException" (some s!"For input string: \"{text}\""))
  | .maxInt =>
    let a := wholeArgument args 0 0
    let b := wholeArgument args 1 0
    pure (.int (if a < b then b else a).toInt32)
  | .maxLong =>
    let a := wholeArgument args 0 0
    let b := wholeArgument args 1 0
    pure (.long (if a < b then b else a))
  | .maxDouble => pure (.double (largerFloat (floatArgument args 0) (floatArgument args 1)))
  | .absInt =>
    let a := wholeArgument args 0 0
    pure (.int (if a < 0 then -a else a).toInt32)
  | .throwableMessage => do
    match (← getRealm).message? (← receiver target) with
    | some message => textResult message
    | none => return .null
  | .throwableCause => do return .ofRef ((← getRealm).cause? (← receiver target))
  | .throwableText => do
    let o ← receiver target
    textResult ((← getRealm).shown o)
  | .loadClass => do
    let (_, packages) ← contents Payload.packages? target
    let name ← textArgument args 0
    match ← onRealm (Realm.lookupClass? name) with
    | some c =>
      if permits packages ((← getRealm).nameOf c) then return .ref (← onRealm (Realm.mirror c))
      else throw (.new "java.lang.ClassNotFoundException" (some name))
    | none => throw (.new "java.lang.ClassNotFoundException" (some name))
  | .listClasses => do
    let package ← textArgument args 0
    let names := (((← getRealm).packages.get? package).getD {}).names
    let items ← names.mapM fun name => textResult name
    let c ← calling (findClass stringName)
    return .ref (← onRealm (Realm.newArray c items))
  | .listAdd => do
    let (o, items) ← listOf target
    onRealm (Realm.setPayload o (.list (items ++ [itemArgument args 0])))
    return .boolean true
  | .listGet => do
    let (_, items) ← listOf target
    let place ← placeIn (wholeArgument args 0 (-1)) items.length
    return items.getD place .null
  | .listSet => do
    let (o, items) ← listOf target
    let place ← placeIn (wholeArgument args 0 (-1)) items.length
    onRealm (Realm.setPayload o (.list (items.set place (itemArgument args 1))))
    return items.getD place .null
  | .listContains => do
    let (_, items) ← listOf target
    return .boolean (← findItem bodies (itemArgument args 0) 0 items).isSome
  | .listSize => do return .int (.ofNat (← listOf target).2.length)
  | .listIsEmpty => do return .boolean (← listOf target).2.isEmpty
  | .listText => do
    let (_, items) ← listOf target
    textResult ("[" ++ String.intercalate ", " (← itemTexts bodies items) ++ "]")
  | .mapSize => do return .int (.ofNat (← mapOf target).2.length)
  | .mapIsEmpty => do return .boolean (← mapOf target).2.isEmpty
  | .mapGet => do
    let (found, _, entries) ← slot bodies target (itemArgument args 0)
    return ((found.bind fun place => entries[place]?).map (·.2)).getD .null
  | .mapContainsKey => do
    let (_, entries) ← mapOf target
    return .boolean (← findItem bodies (itemArgument args 0) 0 (entries.map (·.1))).isSome
  | .mapPut => do
    let key := itemArgument args 0
    let value := itemArgument args 1
    let (found, o, entries) ← slot bodies target key
    match found.bind fun place => entries[place]?.map (place, ·) with
    | some (place, old) =>
      onRealm (Realm.setPayload o (.map (entries.set place (old.1, value))))
      return old.2
    | none =>
      onRealm (Realm.setPayload o (.map (entries ++ [(key, value)])))
      return .null
  | .mapRemove => do
    let (found, o, entries) ← slot bodies target (itemArgument args 0)
    match found.bind fun place => entries[place]?.map (place, ·) with
    | some (place, old) =>
      onRealm (Realm.setPayload o (.map (entries.eraseIdx place)))
      return old.2
    | none => return .null
  | .mapText => do
    let (_, entries) ← mapOf target
    textResult ("\x7b" ++ String.intercalate ", " (← entryTexts bodies entries) ++ "\x7d")

end ScriptBridge.Host
