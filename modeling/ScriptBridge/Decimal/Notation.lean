import ScriptBridge.Decimal.Shortest

/-!
# Decimal notation

A float is written in positional notation, never with an exponent. `text` gives the fewest digits
that read back, so a whole number has no point; `wholeText` writes a whole number with all its
digits and one decimal.
-/

namespace ScriptBridge.Decimal

/-- Drops the zeros at the end of a digit string, at most `count` of them. -/
def dropZeros (count : Nat) (digits : List Char) : List Char :=
  let zeros := (digits.reverse.takeWhile (· == '0')).length
  digits.take (digits.length - min zeros count)

/-- A decimal in positional notation. -/
def Digits.positional (d : Digits) : String :=
  let digits := Nat.toDigits 10 d.digits
  if 0 ≤ d.exponent then
    String.ofList (if d.digits == 0 then ['0'] else digits ++ List.replicate d.exponent.toNat '0')
  else
    let places := (-d.exponent).toNat
    let padded := List.replicate (places + 1 - digits.length) '0' ++ digits
    let whole := padded.take (padded.length - places)
    let fraction := dropZeros places (padded.drop (padded.length - places))
    String.ofList (if fraction.isEmpty then whole else whole ++ '.' :: fraction)

/-- The minus sign of a negative number. -/
def signText (negative : Bool) : String := if negative then "-" else ""

/-- The fewest digits that read back, in positional notation. -/
def Datum.text : Datum → String
  | .nan => "NaN"
  | .infinite negative => signText negative ++ "inf"
  | .finite negative size =>
    signText negative ++ if size.mantissa == 0 then "0" else size.shortest.positional

/-- A finite whole number with all its digits and one decimal. -/
def wholeText (negative : Bool) (size : Size) : String :=
  signText negative ++ toString size.whole ++ ".0"

/-- The text of a double. -/
def floatText (x : Float) : String := (ofFloat x).text

/-- The text of a single. -/
def float32Text (x : Float32) : String := (ofFloat32 x).text

end ScriptBridge.Decimal
