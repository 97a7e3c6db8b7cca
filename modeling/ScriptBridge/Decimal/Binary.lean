/-!
# Binary floating point numbers, taken apart

A number of a binary format is not a number, an infinity, or a sign and a size `m * 2 ^ e` with
natural `m`. The decimal texts of this folder are computed from these parts in exact integer
arithmetic, so nothing here depends on how a float is rounded or printed by the machine.
-/

namespace ScriptBridge.Decimal

/-- A finite size `mantissa * 2 ^ exponent`. -/
structure Size where
  mantissa : Nat
  exponent : Int
  /-- The next smaller number is only half as far away as the next larger one. -/
  halfGapBelow : Bool
deriving DecidableEq, Repr

/-- What a bit pattern stands for. -/
inductive Datum where
  | nan
  | infinite (negative : Bool)
  | finite (negative : Bool) (size : Size)
deriving DecidableEq, Repr

/-- A binary interchange format: the widths of its fraction and of its exponent. -/
structure Format where
  fractionBits : Nat
  exponentBits : Nat

namespace Format

def double : Format := ⟨52, 11⟩

def single : Format := ⟨23, 8⟩

/-- The exponent of the least positive number. -/
def leastExponent (f : Format) : Int :=
  2 - (Nat.pow 2 (f.exponentBits - 1) : Nat) - (f.fractionBits : Int)

/-- Reads the sign, exponent and fraction fields of a bit pattern. -/
def decode (f : Format) (bits : Nat) : Datum :=
  let fraction := bits % Nat.pow 2 f.fractionBits
  let field := bits / Nat.pow 2 f.fractionBits % Nat.pow 2 f.exponentBits
  let negative := bits / Nat.pow 2 (f.fractionBits + f.exponentBits) % 2 == 1
  if field == Nat.pow 2 f.exponentBits - 1 then
    if fraction == 0 then .infinite negative else .nan
  else if field == 0 then
    .finite negative ⟨fraction, f.leastExponent, false⟩
  else
    .finite negative
      ⟨Nat.pow 2 f.fractionBits + fraction, f.leastExponent + (field - 1), fraction == 0⟩

end Format

namespace Size

/-- The size is a whole number. -/
def isIntegral (s : Size) : Bool :=
  if 0 ≤ s.exponent then true else s.mantissa % Nat.pow 2 (-s.exponent).toNat == 0

/-- The whole part of the size. -/
def whole (s : Size) : Nat :=
  if 0 ≤ s.exponent then s.mantissa * Nat.pow 2 s.exponent.toNat
  else s.mantissa / Nat.pow 2 (-s.exponent).toNat

/-- One step of the mantissa as an integer: the size is `mantissa * step * 10 ^ scale`. -/
def step (s : Size) : Nat :=
  if 0 ≤ s.exponent then Nat.pow 2 s.exponent.toNat else Nat.pow 5 (-s.exponent).toNat

/-- The power of ten that belongs to `step`. -/
def scale (s : Size) : Int := min s.exponent 0

end Size

/-- The parts of a double. -/
def ofFloat (x : Float) : Datum := Format.double.decode x.toBits.toNat

/-- The parts of a single. -/
def ofFloat32 (x : Float32) : Datum := Format.single.decode x.toBits.toNat

example : ofFloat 1.0 = .finite false ⟨Nat.pow 2 52, -52, true⟩ := by decide +kernel
example : ofFloat (-0.0) = .finite true ⟨0, -1074, false⟩ := by decide +kernel
example : ofFloat32 0.5 = .finite false ⟨Nat.pow 2 23, -24, true⟩ := by decide +kernel

end ScriptBridge.Decimal
