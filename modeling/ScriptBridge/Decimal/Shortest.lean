import ScriptBridge.Decimal.Binary

/-!
# The fewest digits that read back

Of all decimals that round to a given binary number, those with the fewest digits are wanted, and
of these the one nearest to the number. A size is `N * 10 ^ scale` for a natural `N`. Dropping the
last `d` digits of `N` leaves two neighbours of the number on the grid of the multiples of
`10 ^ d`; the coarsest grid of which a neighbour lies in the rounding interval decides, and of two
neighbours in the interval the nearer one is taken, the larger one when both are equally near.
-/

namespace ScriptBridge.Decimal

/-- The decimal `digits * 10 ^ exponent`. -/
structure Digits where
  digits : Nat
  exponent : Int
deriving DecidableEq, Repr

/-- The number of decimal digits of a natural number. -/
def digitCount (n : Nat) : Nat := (Nat.toDigits 10 n).length

namespace Size

/-- The size in units of `10 ^ scale`. -/
def units (s : Size) : Nat := s.mantissa * s.step

/-- `point` units lie among the reals that round to `s`. Everything is counted in quarters. -/
def roundsTo (s : Size) (point : Nat) : Bool :=
  let low := 4 * s.units - (if s.halfGapBelow then s.step else 2 * s.step)
  let high := 4 * s.units + 2 * s.step
  if s.mantissa % 2 == 0 then low ≤ 4 * point && 4 * point ≤ high
  else low < 4 * point && 4 * point < high

/-- The better neighbour of `s` on the grid of multiples of `10 ^ drop`, if one reads back. -/
def onGrid (s : Size) (drop : Nat) : Option Nat :=
  let unit := Nat.pow 10 drop
  let below := s.units / unit
  match s.roundsTo (below * unit), s.roundsTo ((below + 1) * unit) with
  | true, true => some (if unit ≤ 2 * (s.units % unit) then below + 1 else below)
  | true, false => some below
  | false, true => some (below + 1)
  | false, false => none

/-- The coarsest grid with a neighbour that reads back, starting from `drop` dropped digits. -/
def coarsest (s : Size) : (drop : Nat) → Digits
  | 0 => ⟨s.units, s.scale⟩
  | drop + 1 =>
    match s.onGrid (drop + 1) with
    | some digits => ⟨digits, s.scale + (drop + 1 : Nat)⟩
    | none => s.coarsest drop

/-- The shortest decimal that reads back as `s`. -/
def shortest (s : Size) : Digits :=
  s.coarsest (digitCount s.units - 1)

theorem units_eq (s : Size) : s.units = s.mantissa * s.step := rfl

/-- A chosen neighbour reads back. -/
theorem roundsTo_of_onGrid {s : Size} {drop digits : Nat} (h : s.onGrid drop = some digits) :
    s.roundsTo (digits * Nat.pow 10 drop) = true := by
  simp only [onGrid] at h
  split at h
  · next hb ha => split at h <;> cases h <;> assumption
  · next hb ha => cases h; assumption
  · next hb ha => cases h; assumption
  · simp at h

end Size
end ScriptBridge.Decimal
