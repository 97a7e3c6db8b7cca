/-!
# Reading numbers

The grammar of number texts. An integer is an optional sign and at least one digit, inside given
bounds. A float is an optional sign followed by a spelling of infinity or of not-a-number in any
case, or by digits with an optional point, at least one digit, and an optional exponent.
-/

namespace ScriptBridge.Decimal

/-- The value of a list of digits. -/
def digitsValue (digits : List Char) : Nat :=
  digits.foldl (fun value c => 10 * value + (c.toNat - '0'.toNat)) 0

/-- Splits an optional sign off; the flag tells a minus. -/
def splitSign : List Char → Bool × List Char
  | '+' :: rest => (false, rest)
  | '-' :: rest => (true, rest)
  | cs => (false, cs)

/-- A text that is nothing but digits, and at least one. -/
def readNat? (cs : List Char) : Option Nat :=
  if !cs.isEmpty && cs.all Char.isDigit then some (digitsValue cs) else none

/-- An integer text whose value lies between `least` and `greatest`. -/
def readInt? (least greatest : Int) (cs : List Char) : Option Int :=
  let (negative, digits) := splitSign cs
  match readNat? digits with
  | none => none
  | some size =>
    let value : Int := if negative then -(size : Int) else size
    if least ≤ value && value ≤ greatest then some value else none

/-- A 64-bit integer text. -/
def readInt64? (cs : List Char) : Option Int64 :=
  (readInt? Int64.minValue.toInt Int64.maxValue.toInt cs).map Int64.ofInt

/-- A 32-bit integer text. -/
def readInt32? (cs : List Char) : Option Int32 :=
  (readInt? Int32.minValue.toInt Int32.maxValue.toInt cs).map Int32.ofInt

/-- `digits * 10 ^ exponent`, rounded to the nearest double. Sizes beyond the range of the format
are told by the number of digits without leading zeros, before the power is computed. -/
def nearest (digits : Nat) (digitCount : Nat) (exponent : Int) : Float :=
  if digits == 0 then 0.0
  else if 400 < (digitCount : Int) + exponent then 1.0 / 0.0
  else if (digitCount : Int) + exponent < -400 then 0.0
  else if exponent < 0 then Float.ofScientific digits true (-exponent).toNat
  else Float.ofScientific digits false exponent.toNat

/-- The exponent part of a float text, if it is well formed. -/
def readExponent? : List Char → Option Int
  | [] => some 0
  | c :: rest =>
    if c == 'e' || c == 'E' then
      let (negative, digits) := splitSign rest
      (readNat? digits).map fun size => if negative then -(size : Int) else size
    else none

/-- An unsigned decimal text. -/
def readDecimal? (cs : List Char) : Option Float :=
  let whole := cs.takeWhile Char.isDigit
  let afterWhole := cs.dropWhile Char.isDigit
  let (fraction, rest) := match afterWhole with
    | '.' :: more => (more.takeWhile Char.isDigit, more.dropWhile Char.isDigit)
    | _ => ([], afterWhole)
  let digits := whole ++ fraction
  if digits.isEmpty then none
  else (readExponent? rest).map fun exponent =>
    nearest (digitsValue digits) (digits.dropWhile (· == '0')).length (exponent - fraction.length)

/-- A float text. -/
def readFloat? (cs : List Char) : Option Float :=
  let (negative, size) := splitSign cs
  let word := String.ofList (size.map Char.toLower)
  let magnitude :=
    if word == "inf" || word == "infinity" then some (1.0 / 0.0)
    else if word == "nan" then some (0.0 / 0.0)
    else readDecimal? size
  magnitude.map fun x => if negative then -x else x

end ScriptBridge.Decimal
