/-!
# Kinds of Host values

The closed set of kinds that a Host class is classified into. Each has a number, which is a
contract with the Host and is exported to scripts; one more number stands for null.
-/

namespace ScriptBridge.Bridge

inductive Kind where
  | boolean | int | long | object | string | void | double | short | float | array | char | byte
  | type
deriving DecidableEq, Repr

namespace Kind

def all : List Kind :=
  [boolean, int, long, object, string, void, double, short, float, array, char, byte, type]

/-- The number that stands for null. -/
def nullId : Int := -1

def id : Kind → Int
  | boolean => 0 | int => 1 | long => 2 | object => 3 | string => 4 | void => 5 | double => 6
  | short => 7 | float => 8 | array => 9 | char => 10 | byte => 11 | type => 12

def name : Kind → String
  | boolean => "BOOLEAN" | int => "INT" | long => "LONG" | object => "OBJECT"
  | string => "STRING" | void => "VOID" | double => "DOUBLE" | short => "SHORT"
  | float => "FLOAT" | array => "ARRAY" | char => "CHAR" | byte => "BYTE" | type => "CLASS"

/-- The kind with a name. -/
def ofName? (name : String) : Option Kind := all.find? (·.name == name)

/-- The spelling of a primitive kind. -/
def primitiveName? : Kind → Option String
  | boolean => some "boolean" | int => some "int" | long => some "long"
  | double => some "double" | short => some "short" | float => some "float"
  | char => some "char" | byte => some "byte"
  | object | string | void | array | type => none

def isReference : Kind → Bool
  | object | string | array | type => true
  | _ => false

/-- The kind with a number; `some none` is null. -/
def ofId? (id : Int) : Option (Option Kind) :=
  if id = nullId then some none else (all.find? (·.id = id)).map some

theorem ofId?_id (k : Kind) : ofId? k.id = some (some k) := by cases k <;> decide

end Kind
end ScriptBridge.Bridge
