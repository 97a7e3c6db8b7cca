import ScriptBridge.Decimal.Notation
import ScriptBridge.Host.Identity
import ScriptBridge.Text.Units

/-!
# Host values

Arguments, results, fields and elements of the Host: primitives of fixed width and references to
objects. Conversions between primitives keep the low bits.
-/

namespace ScriptBridge.Host

/-- The primitive types that have values. -/
inductive Primitive where
  | boolean | byte | char | short | int | long | float | double
deriving DecidableEq, Repr

namespace Primitive

def all : List Primitive := [boolean, byte, char, short, int, long, float, double]

def name : Primitive → String
  | boolean => "boolean" | byte => "byte" | char => "char" | short => "short"
  | int => "int" | long => "long" | float => "float" | double => "double"

/-- The class whose objects wrap values of the primitive type. -/
def wrapper : Primitive → String
  | boolean => "java.lang.Boolean" | byte => "java.lang.Byte" | char => "java.lang.Character"
  | short => "java.lang.Short" | int => "java.lang.Integer" | long => "java.lang.Long"
  | float => "java.lang.Float" | double => "java.lang.Double"

/-- The primitive type with a name. -/
def ofName? (name : String) : Option Primitive := all.find? (·.name == name)

end Primitive

inductive Value where
  | void
  | null
  | boolean (value : Bool)
  | byte (value : Int8)
  | char (unit : UInt16)
  | short (value : Int16)
  | int (value : Int32)
  | long (value : Int64)
  | float (value : Float32)
  | double (value : Float)
  | ref (object : ObjectId)
deriving DecidableEq

instance : Inhabited Value := ⟨.void⟩

namespace Value

/-- The value that a field or an element of a type starts with. -/
def initial (typeName : String) : Value :=
  match Primitive.ofName? typeName with
  | some .boolean => boolean false
  | some .byte => byte 0
  | some .char => char 0
  | some .short => short 0
  | some .int => int 0
  | some .long => long 0
  | some .float => float 0.0
  | some .double => double 0.0
  | none => null

/-- A reference that may be null. -/
def ofRef : Option ObjectId → Value
  | some object => ref object
  | none => null

def ref? : Value → Option ObjectId
  | ref object => some object
  | _ => none

/-- The primitive type of a value. -/
def primitive? : Value → Option Primitive
  | boolean _ => some .boolean
  | byte _ => some .byte
  | char _ => some .char
  | short _ => some .short
  | int _ => some .int
  | long _ => some .long
  | float _ => some .float
  | double _ => some .double
  | void | null | ref _ => none

/-- The whole number that a value stands for. -/
def whole? : Value → Option Int64
  | boolean value => some (if value then 1 else 0)
  | byte value => some value.toInt64
  | char unit => some (.ofNat unit.toNat)
  | short value => some value.toInt64
  | int value => some value.toInt64
  | long value => some value
  | _ => none

/-- The float that a value stands for. -/
def float? : Value → Option Float
  | float value => some value.toFloat
  | double value => some value
  | value => value.whole?.map Int64.toFloat

/-- The value as one of a primitive type. A whole number keeps its low bits; a truth value or a
character can only be itself. -/
def narrow? (p : Primitive) (v : Value) : Option Value :=
  match p with
  | .boolean =>
    match v with
    | boolean value => some (boolean value)
    | _ => none
  | .char =>
    match v with
    | char unit => some (char unit)
    | _ => none
  | .byte => v.whole?.map (byte ·.toInt8)
  | .short => v.whole?.map (short ·.toInt16)
  | .int => v.whole?.map (int ·.toInt32)
  | .long => v.whole?.map long
  | .float => v.float?.map (float ·.toFloat32)
  | .double => v.float?.map double

/-- The text of a float in the Host: a whole number has all its digits and one decimal. -/
def floatText (datum : Decimal.Datum) : String :=
  match datum with
  | .finite negative size =>
    if size.isIntegral then Decimal.wholeText negative size else datum.text
  | datum => datum.text

/-- The text of a wrapped value. -/
def text : Value → String
  | boolean value => if value then "true" else "false"
  | byte value => toString value.toInt
  | char unit => Text.unitText unit
  | short value => toString value.toInt
  | int value => toString value.toInt
  | long value => toString value.toInt
  | float value => floatText (Decimal.ofFloat value.toFloat)
  | double value => floatText (Decimal.ofFloat value)
  | void | null => "null"
  | ref _ => "<ref>"

end Value
end ScriptBridge.Host
