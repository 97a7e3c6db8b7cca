import ScriptBridge.Decimal.Remainder
import ScriptBridge.Script.Fault

/-!
# Arithmetic

Operators on values that need nothing but the values. Sums, differences and products of whole
numbers are refused when they do not fit into 64 bits. A division is done in 64 bits, rounded towards
zero, and then put right, so that the quotient is rounded down and the remainder has the sign of the
divisor. A long operand makes a whole result long, a float operand makes it a float.
-/

namespace ScriptBridge.Script

open Syntax (BinaryOp)

/-- What a value counts as in arithmetic. -/
inductive Number where
  | int (value : Int64)
  | long (value : Int64)
  | float (value : Float)

namespace Number

def toFloat : Number → Float
  | int value | long value => value.toFloat
  | float value => value

/-- A number of either whole kind. -/
def whole? : Number → Option Int64
  | int value | long value => some value
  | float _ => none

end Number

/-- The number that a truth value counts as. -/
def boolNumber (value : Bool) : Int64 := if value then 1 else 0

def Value.number? : Value → Option Number
  | .bool value => some (.int (boolNumber value))
  | .int value => some (.int value)
  | .long value => some (.long value)
  | .float value => some (.float value)
  | _ => .none

/-- A whole number that has to fit into 64 bits. -/
def fit (value : Int) : Except Fault Int64 :=
  if Int64.minValue.toInt ≤ value ∧ value ≤ Int64.maxValue.toInt then .ok (.ofInt value)
  else .error .integerOverflow

/-- The quotient and the remainder of whole numbers, rounded towards zero. The least number has no
quotient by minus one. -/
def truncated (a b : Int64) : Except Fault (Int64 × Int64) :=
  if b = 0 then .error .integerDivision
  else if a = Int64.minValue ∧ b = -1 then .error .integerOverflow
  else .ok (a / b, a % b)

/-- Rounding down gives another remainder: this one has the wrong sign. -/
def straysFrom (b remainder : Int64) : Bool :=
  remainder != 0 && (decide (remainder < 0) != decide (b < 0))

/-- An operator on whole numbers. -/
def wholeOp (op : BinaryOp) (a b : Int64) : Except Fault Int64 :=
  match op with
  | .add => fit (a.toInt + b.toInt)
  | .subtract => fit (a.toInt - b.toInt)
  | .multiply => fit (a.toInt * b.toInt)
  | .divide =>
    (truncated a b).map fun (quotient, remainder) =>
      if straysFrom b remainder then quotient - 1 else quotient
  | .modulo =>
    (truncated a b).map fun (_, remainder) =>
      if straysFrom b remainder then remainder + b else remainder
  | _ => .error .integerOverflow

/-- The remainder of a float division rounded down. -/
def floatModulo (a b : Float) : Float :=
  let r := Decimal.remainder a b
  if r != 0.0 && ((r < 0.0) != (b < 0.0)) then r + b else r

/-- An operator on floats. -/
def floatOp (op : BinaryOp) (a b : Float) : Except Fault Float :=
  match op with
  | .add => .ok (a + b)
  | .subtract => .ok (a - b)
  | .multiply => .ok (a * b)
  | .divide => if b == 0.0 then .error .floatDivision else .ok (a / b)
  | .modulo => if b == 0.0 then .error .floatModulo else .ok (floatModulo a b)
  | _ => .error .floatModulo

/-- The size of a text, in bytes, that nothing can hold. -/
def textLimit : Nat := Nat.pow 2 40

/-- A text several times over. -/
def repeatText (text : String) (count : Int64) : Except Fault String :=
  let times := count.toInt.toNat
  if text.isEmpty || times == 0 then .ok ""
  else if textLimit < text.utf8ByteSize * times then .error .textTooLarge
  else .ok (String.join (List.replicate times text))

/-- A binary operator on numbers of any kinds. -/
def numberOp (op : BinaryOp) (a b : Number) : Except Fault Value :=
  match a, b with
  | .float x, b => (floatOp op x b.toFloat).map .float
  | a, .float y => (floatOp op a.toFloat y).map .float
  | .int x, .int y => (wholeOp op x y).map .int
  | .int x, .long y | .long x, .int y | .long x, .long y => (wholeOp op x y).map .long

/-- An arithmetic operator. -/
def arithmetic (op : BinaryOp) (left right : Value) : Except Fault Value :=
  match op, left, right with
  | .add, .text a, .text b => .ok (.text (a ++ b))
  | .add, .tuple a, .tuple b => .ok (.tuple (a ++ b))
  | .multiply, .text text, .int count => (repeatText text count).map .text
  | .multiply, .int count, .text text => (repeatText text count).map .text
  | op, left, right =>
    match left.number?, right.number? with
    | some a, some b => numberOp op a b
    | _, _ => .error (.badOperands op left.typeName right.typeName)

/-- The order of two floats, unless one of them is not a number. -/
def floatOrder (a b : Float) : Option Ordering :=
  if a < b then some .lt else if b < a then some .gt else if a == b then some .eq else none

/-- The order of two texts by their characters. -/
def textOrder (a b : String) : Ordering :=
  if a < b then .lt else if b < a then .gt else .eq

/-- The order of two values, if they have one. -/
def order (op : BinaryOp) (left right : Value) : Except Fault (Option Ordering) :=
  match left, right with
  | .text a, .text b => .ok (some (textOrder a b))
  | left, right =>
    match left.number?, right.number? with
    | some a, some b =>
      match a.whole?, b.whole? with
      | some x, some y => .ok (some (compare x.toInt y.toInt))
      | _, _ => .ok (floatOrder a.toFloat b.toFloat)
    | _, _ => .error (.notOrdered op left.typeName right.typeName)

/-- Whether an order satisfies a comparison. -/
def satisfies (op : BinaryOp) : Ordering → Bool
  | .lt => op = .less || op = .lessEqual
  | .eq => op = .lessEqual || op = .greaterEqual
  | .gt => op = .greater || op = .greaterEqual

/-- A comparison by order. -/
def comparison (op : BinaryOp) (left right : Value) : Except Fault Value :=
  (order op left right).map fun o => .bool (o.any (satisfies op))

/-- The negative of a number. -/
def negative (operand : Value) : Except Fault Value :=
  match operand with
  | .int value => (fit (-value.toInt)).map .int
  | .long value => (fit (-value.toInt)).map .long
  | .bool value => .ok (.int (-boolNumber value))
  | .float value => .ok (.float (-value))
  | other => .error (.badNegation other.typeName)

/-- Equality of numbers; values that are none differ from everything. -/
def sameNumber (left right : Value) : Bool :=
  match left.number?, right.number? with
  | some a, some b =>
    match a.whole?, b.whole? with
    | some x, some y => x == y
    | _, _ => a.toFloat == b.toFloat
  | _, _ => false

end ScriptBridge.Script
