import ScriptBridge.Decimal.Binary

/-!
# The remainder of a truncated float division

`a - b * t` for the quotient `t` of `a` and `b` rounded toward zero. The result is always a number
of the format, so it is computed exactly on integers: both sizes are brought to the smaller
exponent, where the remainder is that of two naturals.
-/

namespace ScriptBridge.Decimal

/-- Moves factors of two from the mantissa to the exponent, at most `steps` of them. -/
def stripTwos : (steps : Nat) → (mantissa : Nat) → (exponent : Int) → Nat × Int
  | 0, mantissa, exponent => (mantissa, exponent)
  | steps + 1, mantissa, exponent =>
    if mantissa != 0 && mantissa % 2 == 0 then stripTwos steps (mantissa / 2) (exponent + 1)
    else (mantissa, exponent)

/-- The double `mantissa * 2 ^ exponent`, which has to be one. -/
def ofParts (mantissa : Nat) (exponent : Int) : Float :=
  let (mantissa, exponent) := stripTwos 2100 mantissa exponent
  (Float.ofNat mantissa).scaleB exponent

/-- The remainder with the sign of the dividend. -/
def remainder (a b : Float) : Float :=
  match ofFloat a, ofFloat b with
  | .finite negative x, .finite _ y =>
    if y.mantissa == 0 then 0.0 / 0.0
    else
      let exponent := min x.exponent y.exponent
      let left := x.mantissa * Nat.pow 2 (x.exponent - exponent).toNat
      let right := y.mantissa * Nat.pow 2 (y.exponent - exponent).toNat
      let size := ofParts (left % right) exponent
      if negative then -size else size
  | .finite _ _, .infinite _ => a
  | _, _ => 0.0 / 0.0

end ScriptBridge.Decimal
