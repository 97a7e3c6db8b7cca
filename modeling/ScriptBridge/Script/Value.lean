import ScriptBridge.Decimal.Notation
import ScriptBridge.Script.Exception
import ScriptBridge.Syntax.Expr

/-!
# Script values

Values of the script language. Numbers are 64 bits wide, and a long differs from an int only in
that it makes results long. A module value names a namespace of the heap. A foreign value names
an object of the bridge, which alone knows what it stands for.
-/

namespace ScriptBridge.Script

/-- Where a module comes from. -/
inductive Origin where
  /-- The top-level namespace of an interpreter. -/
  | main
  | builtins
  /-- Shared by every interpreter of a runtime. -/
  | native
  | created
  /-- Made by an import from a Host package. -/
  | hostPackage
deriving DecidableEq, Repr, Inhabited

def Origin.title : Origin → String
  | main => "Main" | builtins => "Builtins" | native => "Native" | created => "Created"
  | hostPackage => "HostPackage"

/-- A module: the place of its namespace in the heap, its name and its origin. -/
structure ModuleRef where
  place : Nat
  name : String
  origin : Origin
deriving DecidableEq, Repr, Inhabited

/-- The functions of the math module. -/
inductive MathFn where
  | sqrt | floor | ceil | fabs
deriving DecidableEq, Repr

namespace MathFn

def all : List MathFn := [sqrt, floor, ceil, fabs]

def title : MathFn → String
  | sqrt => "sqrt" | floor => "floor" | ceil => "ceil" | fabs => "fabs"

def apply : MathFn → Float → Float
  | sqrt => Float.sqrt | floor => Float.floor | ceil => Float.ceil | fabs => Float.abs

end MathFn

/-- Functions that the bridge supplies to scripts. -/
inductive Extension where
  /-- The import entry that also looks into Host packages. -/
  | importHook
  | findClass | forName | printStack
deriving DecidableEq, Repr

def Extension.title : Extension → String
  | importHook => "__import__" | findClass => "findClass" | forName => "forName"
  | printStack => "printStack"

/-- Functions that are not written in the script language. -/
inductive Native where
  | defaultImport
  | print | str | repr | len | bool | int | long | float | dir
  | math (function : MathFn)
  | extension (function : Extension)
deriving DecidableEq, Repr

def Native.title : Native → String
  | defaultImport => "__import__" | print => "print" | str => "str" | repr => "repr"
  | len => "len" | bool => "bool" | int => "int" | long => "long" | float => "float"
  | dir => "dir" | math function => function.title | extension function => function.title

/-- What a foreign value is a view of. -/
inductive ForeignKind where
  | object | type | array | method
deriving DecidableEq, Repr

def ForeignKind.typeName : ForeignKind → String
  | object => "host_object" | type => "host_class" | array => "host_array"
  | method => "host_method"

/-- An object of the bridge. -/
structure Foreign where
  kind : ForeignKind
  place : Nat
deriving DecidableEq, Repr

inductive Value where
  | none
  | bool (value : Bool)
  | int (value : Int64)
  | long (value : Int64)
  | float (value : Float)
  | text (value : String)
  | tuple (items : List Value)
  | module (module : ModuleRef)
  | native (function : Native)
  | lambda (params : List String) (body : Syntax.Expr) (globals : ModuleRef)
  | errorType (type : ErrorType)
  | errorInstance (type : ErrorType) (message : Option String)
  | foreign (object : Foreign)

instance : Inhabited Value := ⟨.none⟩

/-- Induction over the tuples in a value. -/
@[elab_as_elim]
theorem Value.tupleInduct {motive : Value → Prop}
    (flat : ∀ v, (∀ items, v ≠ .tuple items) → motive v)
    (tuple : ∀ items, (∀ item ∈ items, motive item) → motive (.tuple items)) (v : Value) :
    motive v :=
  @Value.rec motive (fun items => ∀ item ∈ items, motive item) (flat _ nofun)
    (fun _ => flat _ nofun) (fun _ => flat _ nofun) (fun _ => flat _ nofun) (fun _ => flat _ nofun)
    (fun _ => flat _ nofun) tuple (fun _ => flat _ nofun) (fun _ => flat _ nofun)
    (fun _ _ _ => flat _ nofun) (fun _ => flat _ nofun) (fun _ _ => flat _ nofun)
    (fun _ => flat _ nofun) nofun
    (fun _ _ first rest => List.forall_mem_cons.mpr ⟨first, rest⟩) v

/-- A whole number of a moderate size is written with one decimal. -/
def floatText (x : Float) : String :=
  match Decimal.ofFloat x with
  | .finite negative size =>
    if size.isIntegral && size.whole < Nat.pow 10 16 then Decimal.wholeText negative size
    else Decimal.floatText x
  | datum => datum.text

/-- A text in single quotes, in which a single quote is escaped. -/
def quotedText (text : String) : String :=
  String.ofList ('\'' :: (text.toList.flatMap fun c => if c = '\'' then ['\\', '\''] else [c]) ++ ['\''])

/-- Items in parentheses; a single one is followed by a comma. -/
def tupleText : List String → String
  | [item] => "(" ++ item ++ ",)"
  | items => "(" ++ String.intercalate ", " items ++ ")"

namespace Value

def isNone : Value → Bool
  | none => true
  | _ => false

def asText? : Value → Option String
  | text value => some value
  | _ => .none

def typeName : Value → String
  | none => "NoneType"
  | bool _ => "bool"
  | int _ => "int"
  | long _ => "long"
  | float _ => "float"
  | text _ => "str"
  | tuple _ => "tuple"
  | module _ => "module"
  | native _ => "builtin_function"
  | lambda _ _ _ => "function"
  | errorType _ => "type"
  | errorInstance type _ => type.qualifiedName
  | foreign object => object.kind.typeName

/-- Zero, the empty text, the empty tuple and nothing count as false. -/
def truthy : Value → Bool
  | none => false
  | bool value => value
  | int value => value != 0
  | long value => value != 0
  | float value => value != 0.0
  | text value => value != ""
  | tuple items => !items.isEmpty
  | _ => true

mutual

/-- The text of a value as a script would write it. Foreign values have none. -/
def repr? : Value → Option String
  | .none => some "None"
  | .bool value => some (if value then "True" else "False")
  | .int value => some (toString value.toInt)
  | .long value => some (toString value.toInt ++ "L")
  | .float value => some (floatText value)
  | .text value => some (quotedText value)
  | .tuple items => (reprs? items).map tupleText
  | .module m => some ("<module '" ++ m.name ++ "'>")
  | .native function => some ("<built-in function " ++ function.title ++ ">")
  | .lambda _ _ _ => some "<function <lambda>>"
  | .errorType type => some type.shown
  | .errorInstance type (some message) => some (type.qualifiedName ++ "('" ++ message ++ "')")
  | .errorInstance type .none => some (type.qualifiedName ++ "()")
  | .foreign _ => .none

/-- The texts of several values, if all have one. -/
def reprs? : List Value → Option (List String)
  | [] => some []
  | item :: rest =>
    match item.repr?, reprs? rest with
    | some first, some more => some (first :: more)
    | _, _ => .none

end

/-- The text of a value as it is printed. Foreign values have none. -/
def text? : Value → Option String
  | text value => some value
  | float value => some (floatText value)
  | long value => some (toString value.toInt)
  | errorInstance _ message => some (message.getD "")
  | other => other.repr?

end Value
end ScriptBridge.Script
