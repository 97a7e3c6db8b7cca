import ScriptBridge.Script.Arithmetic

/-!
# The object protocol

What can be asked of any value: its attributes, items, length, text, and whether it equals or
contains another. The script side answers for its own values. Foreign values, lambda bodies one
call deeper and the functions of the bridge are reached through an `Engine`.
-/

namespace ScriptBridge.Script

/-- The names that an expression sees: those of the lambda it stands in, and a module. -/
structure Scope where
  locals : List (String × Value) := []
  globals : ModuleRef

/-- What the evaluator asks of the world. -/
structure Engine (σ : Type) where
  /-- Evaluates the body of a lambda that is being called. -/
  body : InterpreterId → Scope → Syntax.Expr → ScriptM σ Value
  getAttr : InterpreterId → Foreign → String → ScriptM σ Value
  setAttr : InterpreterId → Foreign → String → Value → ScriptM σ Unit
  getItem : InterpreterId → Foreign → Value → ScriptM σ Value
  setItem : InterpreterId → Foreign → Value → Value → ScriptM σ Unit
  length : InterpreterId → Foreign → ScriptM σ Nat
  contains : InterpreterId → Foreign → Value → ScriptM σ Bool
  call : InterpreterId → Foreign → List Value → ScriptM σ Value
  /-- The number that a foreign value counts as, if any. -/
  number : InterpreterId → Foreign → ScriptM σ (Option Value)
  text : InterpreterId → Foreign → ScriptM σ String
  equals : InterpreterId → Foreign → Value → ScriptM σ Bool
  attrNames : Foreign → ScriptM σ (List String)
  extension : InterpreterId → Extension → List Value → ScriptM σ Value
  /-- Lets go of what lost its last reference; runs after every statement. -/
  settle : ScriptM σ Unit

variable {σ α : Type}

/-- Fails with the fault of a pure step. -/
def orRaise (ts : InterpreterId) : Except Fault α → ScriptM σ α
  | .ok a => pure a
  | .error fault => raise ts fault

/-! ### Texts -/

/-- A text of a value as a script would write it; a foreign value shows its own text. -/
def repr (e : Engine σ) (ts : InterpreterId) (value : Value) : ScriptM σ String :=
  match value with
  | .foreign object => e.text ts object
  | other =>
    match other.repr? with
    | some text => pure text
    | none => giveUp

/-- The text of a value as it is printed. -/
def toText (e : Engine σ) (ts : InterpreterId) (value : Value) : ScriptM σ String :=
  match value with
  | .foreign object => e.text ts object
  | other =>
    match other.text? with
    | some text => pure text
    | none => giveUp

/-! ### Numbers -/

/-- A foreign number takes part in arithmetic as the value it stands for. -/
def numericView (e : Engine σ) (ts : InterpreterId) (value : Value) : ScriptM σ Value :=
  match value with
  | .foreign object => do return (← e.number ts object).getD value
  | other => pure other

/-! ### Equality and membership -/

mutual

/-- Equality. Functions, lambdas and error instances equal nothing, not even themselves. -/
def equals (e : Engine σ) (ts : InterpreterId) : Value → Value → ScriptM σ Bool
  | .foreign object, other => e.equals ts object other
  | .none, .none => pure true
  | .text a, .text b => pure (a == b)
  | .tuple a, .tuple b => if a.length = b.length then equalsAll e ts a b else pure false
  | .module a, .module b => pure (a.place == b.place)
  | .errorType a, .errorType b => pure (a.same b)
  | other, .foreign object => e.equals ts object other
  | left, right => pure (sameNumber left right)

/-- Equality of two lists item by item. -/
def equalsAll (e : Engine σ) (ts : InterpreterId) : List Value → List Value → ScriptM σ Bool
  | x :: xs, y :: ys => do
    if ← equals e ts x y then equalsAll e ts xs ys else pure false
  | _, _ => pure true

end

/-- Whether `needle` occurs in `hay` without gaps. -/
def occursIn (needle : List Char) : List Char → Bool
  | [] => needle.isEmpty
  | c :: rest => needle.isPrefixOf (c :: rest) || occursIn needle rest

/-- Whether an item equals the value. -/
def anyEquals (e : Engine σ) (ts : InterpreterId) (item : Value) : List Value → ScriptM σ Bool
  | [] => pure false
  | candidate :: rest => do
    if ← equals e ts candidate item then pure true else anyEquals e ts item rest

/-- Membership of `item` in `container`. -/
def contains (e : Engine σ) (ts : InterpreterId) (container item : Value) : ScriptM σ Bool :=
  match container with
  | .text text =>
    match item with
    | .text needle => pure (occursIn needle.toList text.toList)
    | other => raise ts (.textMembership other.typeName)
  | .tuple items => anyEquals e ts item items
  | .module m =>
    match item with
    | .text name => do return (← lookup? m name).isSome
    | _ => pure false
  | .foreign object => e.contains ts object item
  | other => raise ts (.notIterable other.typeName)

/-! ### Attributes -/

def getAttr (e : Engine σ) (ts : InterpreterId) (object : Value) (name : String) :
    ScriptM σ Value :=
  match object with
  | .module m => do
    match ← lookup? m name with
    | some value => pure value
    | none => raise ts (.noAttribute object.typeName name)
  | .foreign f => e.getAttr ts f name
  | .errorType type =>
    if name = "__name__" then pure (.text type.name) else raise ts (.noAttribute object.typeName name)
  | .errorInstance _ message =>
    if name = "message" then pure ((message.map .text).getD .none)
    else raise ts (.noAttribute object.typeName name)
  | _ => raise ts (.noAttribute object.typeName name)

def setAttr (e : Engine σ) (ts : InterpreterId) (object : Value) (name : String) (value : Value) :
    ScriptM σ Unit :=
  match object with
  | .module m => bindName m name value
  | .foreign f => e.setAttr ts f name value
  | other => raise ts (.noAttribute other.typeName name)

/-! ### Items -/

/-- The whole number that an index stands for. -/
def wholeIndex? : Value → Option Int
  | .int i | .long i => some i.toInt
  | .bool b => some (boolNumber b).toInt
  | _ => none

/-- The position that an index names among `length` items; a negative index counts from the end. -/
def position? (index : Int) (length : Nat) : Option Nat :=
  let resolved := if index < 0 then index + length else index
  if 0 ≤ resolved ∧ resolved < length then some resolved.toNat else none

/-- The position that an index names among `length` items. -/
def resolveIndex (ts : InterpreterId) (index : Value) (length : Nat) : ScriptM σ Nat :=
  match wholeIndex? index with
  | none => raise ts (.indexType index.typeName)
  | some i =>
    match position? i length with
    | some place => pure place
    | none => raise ts .indexRange

def getItem (e : Engine σ) (ts : InterpreterId) (object index : Value) : ScriptM σ Value :=
  match object with
  | .tuple items => do
    let place ← resolveIndex ts index items.length
    return items.getD place .none
  | .text text => do
    let place ← resolveIndex ts index text.length
    return .text (String.ofList (text.toList.drop place |>.take 1))
  | .foreign f => e.getItem ts f index
  | other => raise ts (.notSubscriptable other.typeName)

def setItem (e : Engine σ) (ts : InterpreterId) (object index value : Value) : ScriptM σ Unit :=
  match object with
  | .foreign f => e.setItem ts f index value
  | other => raise ts (.noItemAssignment other.typeName)

def length (e : Engine σ) (ts : InterpreterId) (object : Value) : ScriptM σ Nat :=
  match object with
  | .text text => pure text.length
  | .tuple items => pure items.length
  | .module m => do return ((← getMemory).namespaceOf m).size
  | .foreign f => e.length ts f
  | other => raise ts (.noLength other.typeName)

end ScriptBridge.Script
