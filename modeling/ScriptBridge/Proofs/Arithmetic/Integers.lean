import Mathlib.Tactic.ByContra
import Mathlib.Tactic.SplitIfs
import ScriptBridge.Script.Interpreter

/-!
# Integer arithmetic is exact or refused

Truth values, ints and longs are whole numbers of 64 bits. Their sums, differences and products are
exact or refused, quotients are rounded down, and remainders belong to these quotients. A division
rounds towards zero first: nothing on the way from there to the quotient and the remainder leaves 64
bits.
-/

namespace ScriptBridge.Script

open Syntax (BinaryOp UnaryOp)

/-! ### Whole numbers -/

/-- A value of a whole kind. -/
inductive Whole where
  | bool (value : Bool)
  | int (value : Int64)
  | long (value : Int64)
deriving DecidableEq, Repr

namespace Whole

def value : Whole → Value
  | bool value => .bool value
  | int value => .int value
  | long value => .long value

/-- The number that the value counts as. -/
def amount : Whole → Int64
  | bool value => boolNumber value
  | int value | long value => value

def isLong : Whole → Bool
  | long _ => true
  | bool _ | int _ => false

end Whole

/-- A whole result; a long operand has made it long. -/
def wholeValue (isLong : Bool) (number : Int64) : Value :=
  if isLong then .long number else .int number

/-- The number fits into 64 bits. -/
def InRange (number : Int) : Prop := Int64.minValue.toInt ≤ number ∧ number ≤ Int64.maxValue.toInt

instance (number : Int) : Decidable (InRange number) := inferInstanceAs (Decidable (_ ∧ _))

/-- The sum, the difference or the product of numbers without bounds. -/
def unbounded? (op : BinaryOp) (a b : Int) : Option Int :=
  match op with
  | .add => some (a + b)
  | .subtract => some (a - b)
  | .multiply => some (a * b)
  | _ => none

theorem inRange_iff {number : Int} : InRange number ↔
    -9223372036854775808 ≤ number ∧ number ≤ 9223372036854775807 := Iff.rfl

theorem inRange_toInt (a : Int64) : InRange a.toInt := ⟨a.minValue_le_toInt, a.toInt_le⟩

theorem toInt_ofInt_of_inRange {number : Int} (h : InRange number) :
    (Int64.ofInt number).toInt = number :=
  Int64.toInt_ofInt_of_le h.1 (Int.lt_of_le_of_lt h.2 (by decide))

theorem fit_inRange {number : Int} (h : InRange number) : fit number = .ok (.ofInt number) :=
  if_pos h

theorem fit_not_inRange {number : Int} (h : ¬InRange number) :
    fit number = .error .integerOverflow := if_neg h

/-! ### Division -/

variable {a b quotient remainder : Int64}

/-- There is a quotient in 64 bits. -/
def Divides (a b : Int64) : Prop := b ≠ 0 ∧ ¬(a = Int64.minValue ∧ b = -1)

theorem truncated_divides (h : Divides a b) : truncated a b = .ok (a / b, a % b) := by
  rw [truncated, if_neg h.1, if_neg h.2]

theorem divides_of_truncated (h : truncated a b = .ok (quotient, remainder)) :
    Divides a b ∧ quotient = a / b ∧ remainder = a % b := by
  unfold truncated at h
  split_ifs at h with zero least
  cases h
  exact ⟨⟨zero, least⟩, rfl, rfl⟩

/-- The machine's quotient is that of the numbers, rounded towards zero. -/
theorem toInt_quotient (h : Divides a b) : (a / b).toInt = a.toInt.tdiv b.toInt := by
  by_cases least : a = Int64.minValue
  · exact Int64.toInt_div_of_ne_right a b fun minusOne => h.2 ⟨least, minusOne⟩
  · exact Int64.toInt_div_of_ne_left a b least

theorem toInt_eq_zero_iff : b.toInt = 0 ↔ b = 0 := by
  rw [← Int64.toInt_zero, Int64.toInt_inj]

/-- Whether the remainder has the wrong sign, said of the numbers. -/
theorem straysFrom_iff : straysFrom b remainder = true ↔
    remainder.toInt ≠ 0 ∧ ¬(remainder.toInt < 0 ↔ b.toInt < 0) := by
  have zero : remainder = 0 ↔ remainder.toInt = 0 := toInt_eq_zero_iff.symm
  have sign (n : Int64) : n < 0 ↔ n.toInt < 0 := Int64.lt_iff_toInt_lt
  simp only [straysFrom, Bool.and_eq_true, bne_iff_ne, ne_eq, zero, sign, decide_eq_decide]

/-- Rounding towards zero leaves a remainder smaller than the divisor. -/
theorem natAbs_tmod_lt {m n : Int} (h : n ≠ 0) : (m.tmod n).natAbs < n.natAbs := by
  rw [Int.natAbs_tmod]
  exact Nat.mod_lt _ (Int.natAbs_pos.mpr h)

/-- A quotient and a remainder that is smaller than the divisor and has its sign are those of
rounding down. -/
theorem floored_unique {m n q r : Int} (nonzero : n ≠ 0) (whole : r + n * q = m)
    (smaller : r.natAbs < n.natAbs) (sign : r = 0 ∨ (r < 0 ↔ n < 0)) :
    m.fdiv n = q ∧ m.fmod n = r := by
  rcases Int.lt_or_gt_of_ne nonzero with negative | positive
  · exact (Int.fdiv_fmod_unique' negative).mpr ⟨whole, by omega, by omega⟩
  · exact (Int.fdiv_fmod_unique positive).mpr ⟨whole, by omega, by omega⟩

/-- How the quotient and the remainder of rounding towards zero are put right. -/
theorem floored_of_truncated (m : Int) {n : Int} (nonzero : n ≠ 0) :
    if m.tmod n ≠ 0 ∧ ¬(m.tmod n < 0 ↔ n < 0) then
      m.fdiv n = m.tdiv n - 1 ∧ m.fmod n = m.tmod n + n
    else m.fdiv n = m.tdiv n ∧ m.fmod n = m.tmod n := by
  have smaller : (m.tmod n).natAbs < n.natAbs := natAbs_tmod_lt nonzero
  have whole : m.tmod n + n * m.tdiv n = m := Int.tmod_add_mul_tdiv m n
  split_ifs with strays
  · have shifted : m.tmod n + n + n * (m.tdiv n - 1) = m := by
      rw [Int.mul_sub, Int.mul_one]
      omega
    exact floored_unique nonzero shifted (by omega) (.inr (by omega))
  · exact floored_unique nonzero whole smaller (by omega)

/-- A quotient of 64 bits that is not exact can be lowered by one: the divisor is neither one nor
minus one, so the quotient is far from the least number. -/
theorem inRange_lowered (nonzero : b.toInt ≠ 0) (inexact : a.toInt.tmod b.toInt ≠ 0) :
    InRange (a.toInt.tdiv b.toInt - 1) := by
  have wide : 2 ≤ b.toInt.natAbs := by
    by_contra narrow
    have unit : b.toInt = 1 ∨ b.toInt = -1 := by omega
    rcases unit with one | minusOne
    · exact inexact (by rw [one, Int.tmod_one])
    · exact inexact (by rw [minusOne, Int.tmod_neg, Int.tmod_one])
  have half : (a.toInt.tdiv b.toInt).natAbs ≤ a.toInt.natAbs / 2 := by
    rw [Int.natAbs_tdiv]
    exact Nat.div_le_div_left wide (by decide)
  have ⟨low, high⟩ := inRange_iff.mp (inRange_toInt a)
  rw [inRange_iff]
  omega

/-- The steps that put a quotient and a remainder right stay in 64 bits. -/
structure Staying (a b quotient remainder : Int64) : Prop where
  quotient_eq : quotient.toInt = a.toInt.tdiv b.toInt
  remainder_eq : remainder.toInt = a.toInt.tmod b.toInt
  lowered : straysFrom b remainder = true → (quotient - 1).toInt = quotient.toInt - 1
  raised : straysFrom b remainder = true → (remainder + b).toInt = remainder.toInt + b.toInt

theorem staying_of_truncated (h : truncated a b = .ok (quotient, remainder)) :
    Staying a b quotient remainder := by
  obtain ⟨divides, rfl, rfl⟩ := divides_of_truncated h
  have nonzero : b.toInt ≠ 0 := fun zero => divides.1 (toInt_eq_zero_iff.mp zero)
  have quotient_eq : (a / b).toInt = a.toInt.tdiv b.toInt := toInt_quotient divides
  have remainder_eq : (a % b).toInt = a.toInt.tmod b.toInt := Int64.toInt_mod a b
  refine ⟨quotient_eq, remainder_eq, fun strays => ?_, fun strays => ?_⟩
  · have inexact := (straysFrom_iff.mp strays).1
    rw [remainder_eq] at inexact
    have fits := inRange_lowered nonzero inexact
    rw [← quotient_eq] at fits
    rw [← toInt_ofInt_of_inRange fits, Int64.ofInt_sub, Int64.ofInt_toInt]
    rfl
  · obtain ⟨inexact, signs⟩ := straysFrom_iff.mp strays
    -- the two numbers have different signs
    have fits : InRange ((a % b).toInt + b.toInt) := by
      have ⟨low, high⟩ := inRange_iff.mp (inRange_toInt (a % b))
      have ⟨lowest, highest⟩ := inRange_iff.mp (inRange_toInt b)
      rw [inRange_iff]
      omega
    rw [← toInt_ofInt_of_inRange fits, Int64.ofInt_add, Int64.ofInt_toInt, Int64.ofInt_toInt]

/-- A division that has a quotient is rounded down. -/
theorem wholeOp_division (h : Divides a b) :
    (∃ q : Int64, wholeOp .divide a b = .ok q ∧ q.toInt = a.toInt.fdiv b.toInt) ∧
      ∃ r : Int64, wholeOp .modulo a b = .ok r ∧ r.toInt = a.toInt.fmod b.toInt := by
  have nonzero : b.toInt ≠ 0 := fun zero => h.1 (toInt_eq_zero_iff.mp zero)
  have read := truncated_divides h
  have stay := staying_of_truncated read
  have floored := floored_of_truncated a.toInt nonzero
  have strays : straysFrom b (a % b) = true ↔
      (a % b).toInt ≠ 0 ∧ ¬((a % b).toInt < 0 ↔ b.toInt < 0) := straysFrom_iff
  rw [stay.remainder_eq] at strays
  have divided : wholeOp .divide a b =
      .ok (if straysFrom b (a % b) then a / b - 1 else a / b) := by
    simp only [wholeOp, read, Except.map]
  have left : wholeOp .modulo a b = .ok (if straysFrom b (a % b) then a % b + b else a % b) := by
    simp only [wholeOp, read, Except.map]
  by_cases wrong : straysFrom b (a % b) = true
  · rw [if_pos (strays.mp wrong)] at floored
    rw [if_pos wrong] at divided left
    refine ⟨⟨_, divided, ?_⟩, _, left, ?_⟩
    · rw [stay.lowered wrong, stay.quotient_eq, floored.1]
    · rw [stay.raised wrong, stay.remainder_eq, floored.2]
  · rw [if_neg fun holds => wrong (strays.mpr holds)] at floored
    rw [if_neg wrong] at divided left
    exact ⟨⟨_, divided, stay.quotient_eq.trans floored.1.symm⟩, _, left,
      stay.remainder_eq.trans floored.2.symm⟩

/-! ### Outcomes -/

variable {outcome : Except Fault Value} {isLong : Bool} {number : Int}

/-- The outcome is the number, as a value of the kind. -/
def Yields (outcome : Except Fault Value) (isLong : Bool) (number : Int) : Prop :=
  ∃ n : Int64, n.toInt = number ∧ outcome = .ok (wholeValue isLong n)

/-- The outcome is an error of the family. -/
def Refuses (outcome : Except Fault Value) (family : Family) : Prop :=
  ∃ fault : Fault, fault.family = family ∧ outcome = .error fault

/-- The outcome is the number if it fits into 64 bits, and an overflow exactly if it does not. -/
structure ExactOrOverflow (outcome : Except Fault Value) (isLong : Bool) (number : Int) : Prop where
  exact : InRange number → Yields outcome isLong number
  overflow : Refuses outcome .overflow ↔ ¬InRange number

/-- What is asked of a quotient that is rounded down and of its remainder. -/
structure Floored (a b quotient remainder : Int) : Prop where
  floor : quotient = a.fdiv b
  whole : quotient * b + remainder = a
  sign : remainder = 0 ∨ remainder.sign = b.sign
  smaller : remainder.natAbs < b.natAbs

/-- Both outcomes of a division: when each of the two errors is raised, and what else there is. -/
structure DividedOrRefused (quotient remainder : Except Fault Value) (isLong : Bool) (a b : Int) :
    Prop where
  byZero (outcome : Except Fault Value) : outcome = quotient ∨ outcome = remainder →
    (Refuses outcome .zeroDivision ↔ b = 0)
  overflow (outcome : Except Fault Value) : outcome = quotient ∨ outcome = remainder →
    (Refuses outcome .overflow ↔ a = Int64.minValue.toInt ∧ b = -1)
  floored : b ≠ 0 → ¬(a = Int64.minValue.toInt ∧ b = -1) →
    ∃ q r, Yields quotient isLong q ∧ Yields remainder isLong r ∧ Floored a b q r

theorem Yields.not_refuses (h : Yields outcome isLong number) (family : Family) :
    ¬Refuses outcome family := by
  rintro ⟨fault, -, raised⟩
  obtain ⟨n, -, given⟩ := h
  rw [given] at raised
  cases raised

theorem refuses_error_iff {fault : Fault} {family : Family} :
    Refuses (.error fault) family ↔ fault.family = family := by
  constructor
  · rintro ⟨_, belongs, raised⟩
    cases raised
    exact belongs
  · exact fun belongs => ⟨fault, belongs, rfl⟩

/-- What is refused exactly if it does not fit is exact or overflows. -/
theorem exactOrOverflow_fit (isLong : Bool) (number : Int) :
    ExactOrOverflow ((fit number).map (wholeValue isLong)) isLong number := by
  have fits (inRange : InRange number) :
      Yields ((fit number).map (wholeValue isLong)) isLong number :=
    ⟨.ofInt number, toInt_ofInt_of_inRange inRange, by rw [fit_inRange inRange]; rfl⟩
  refine ⟨fits, fun refused inRange => (fits inRange).not_refuses _ refused, fun outside => ?_⟩
  rw [fit_not_inRange outside]
  exact refuses_error_iff.mpr rfl

/-- Rounding down does what is asked of it. -/
theorem floored_fdiv {m n : Int} (nonzero : n ≠ 0) : Floored m n (m.fdiv n) (m.fmod n) := by
  have whole : m.fdiv n * n + m.fmod n = m := Int.fdiv_mul_add_fmod m n
  rcases Int.lt_or_gt_of_ne nonzero with negative | positive
  · obtain ⟨-, low, high⟩ := (Int.fdiv_fmod_unique' (a := m) negative).mp ⟨rfl, rfl⟩
    refine ⟨rfl, whole, ?_, by omega⟩
    rcases Int.lt_or_eq_of_le high with below | zero
    · exact .inr (by rw [Int.sign_eq_neg_one_of_neg below, Int.sign_eq_neg_one_of_neg negative])
    · exact .inl zero
  · obtain ⟨-, low, high⟩ := (Int.fdiv_fmod_unique (a := m) positive).mp ⟨rfl, rfl⟩
    refine ⟨rfl, whole, ?_, by omega⟩
    rcases Int.lt_or_eq_of_le low with above | zero
    · exact .inr (by rw [Int.sign_eq_one_of_pos above, Int.sign_eq_one_of_pos positive])
    · exact .inl zero.symm

/-! ### Operators -/

variable {σ : Type}

/-- On whole numbers an operator is that of 64 bits, and its result is long if an operand is. -/
theorem arithmetic_whole (op : BinaryOp) (x y : Whole) :
    arithmetic op x.value y.value =
      (wholeOp op x.amount y.amount).map (wholeValue (x.isLong || y.isLong)) := by
  cases x <;> cases y <;> cases op <;> rfl

theorem negative_whole (x : Whole) :
    negative x.value = (fit (-x.amount.toInt)).map (wholeValue x.isLong) := by
  cases x with
  | bool value => cases value <;> rfl
  | int value | long value => rfl

/-- The operators that compute with numbers. -/
def isArithmetic : BinaryOp → Bool
  | .add | .subtract | .multiply | .divide | .modulo => true
  | _ => false

/-- Evaluation takes the operands as they are and raises the error that comes out. -/
theorem applyBinary_whole (e : Engine σ) (ts : InterpreterId) {op : BinaryOp}
    (arithmetical : isArithmetic op = true) (x y : Whole) :
    applyBinary e ts op x.value y.value = orRaise ts (arithmetic op x.value y.value) := by
  cases op with
  | add | subtract | multiply | divide | modulo => cases x <;> cases y <;> rfl
  | _ => cases arithmetical

theorem applyUnary_whole (e : Engine σ) (ts : InterpreterId) (x : Whole) :
    applyUnary e ts .negate x.value = orRaise ts (negative x.value) := by
  cases x <;> rfl

theorem exactOrOverflow_arithmetic {op : BinaryOp} (x y : Whole)
    (exact : unbounded? op x.amount.toInt y.amount.toInt = some number) :
    ExactOrOverflow (arithmetic op x.value y.value) (x.isLong || y.isLong) number := by
  have fitted : wholeOp op x.amount y.amount = fit number := by
    cases op <;> cases exact <;> rfl
  rw [arithmetic_whole, fitted]
  exact exactOrOverflow_fit _ number

theorem dividedOrRefused_of_error {fault : Fault} {a b : Int}
    (byZero : fault.family = .zeroDivision ↔ b = 0)
    (overflow : fault.family = .overflow ↔ a = Int64.minValue.toInt ∧ b = -1)
    (none : b = 0 ∨ a = Int64.minValue.toInt ∧ b = -1) :
    DividedOrRefused (.error fault) (.error fault) isLong a b where
  byZero := by
    rintro _ (rfl | rfl) <;> exact refuses_error_iff.trans byZero
  overflow := by
    rintro _ (rfl | rfl) <;> exact refuses_error_iff.trans overflow
  floored nonzero apart := absurd none (not_or.mpr ⟨nonzero, apart⟩)

theorem dividedOrRefused_of_yields {quotient remainder : Except Fault Value} {a b : Int}
    (nonzero : b ≠ 0) (apart : ¬(a = Int64.minValue.toInt ∧ b = -1))
    (divided : Yields quotient isLong (a.fdiv b)) (left : Yields remainder isLong (a.fmod b)) :
    DividedOrRefused quotient remainder isLong a b where
  byZero := by
    rintro _ (rfl | rfl)
    · exact iff_of_false (divided.not_refuses _) nonzero
    · exact iff_of_false (left.not_refuses _) nonzero
  overflow := by
    rintro _ (rfl | rfl)
    · exact iff_of_false (divided.not_refuses _) apart
    · exact iff_of_false (left.not_refuses _) apart
  floored _ _ := ⟨_, _, divided, left, floored_fdiv nonzero⟩

/-- By whether there is a quotient, and if not, by why not. -/
theorem dividedOrRefused_wholeOp (a b : Int64) (isLong : Bool) :
    DividedOrRefused ((wholeOp .divide a b).map (wholeValue isLong))
      ((wholeOp .modulo a b).map (wholeValue isLong)) isLong a.toInt b.toInt := by
  have isZero : b.toInt = 0 ↔ b = 0 := toInt_eq_zero_iff
  have isLeast : a.toInt = Int64.minValue.toInt ∧ b.toInt = -1 ↔ a = Int64.minValue ∧ b = -1 :=
    and_congr Int64.toInt_inj (Int64.toInt_inj (y := -1))
  by_cases zero : b = 0
  · have refused : truncated a b = .error .integerDivision := if_pos zero
    simp only [wholeOp, refused, Except.map]
    refine dividedOrRefused_of_error (iff_of_true rfl (isZero.mpr zero)) ?_ (.inl (isZero.mpr zero))
    exact iff_of_false nofun fun both => absurd (zero.symm.trans (isLeast.mp both).2) (by decide)
  by_cases least : a = Int64.minValue ∧ b = -1
  · have refused : truncated a b = .error .integerOverflow := by
      rw [truncated, if_neg zero, if_pos least]
    simp only [wholeOp, refused, Except.map]
    exact dividedOrRefused_of_error (iff_of_false nofun (mt isZero.mp zero))
      (iff_of_true rfl (isLeast.mpr least)) (.inr (isLeast.mpr least))
  obtain ⟨⟨q, divided, quotient⟩, r, left, remainder⟩ := wholeOp_division ⟨zero, least⟩
  rw [divided, left]
  exact dividedOrRefused_of_yields (mt isZero.mp zero) (mt isLeast.mp least) ⟨q, quotient, rfl⟩
    ⟨r, remainder, rfl⟩

/-- Arithmetic on truth values, ints and longs is exact or refused: sums, differences, products and
negatives overflow exactly if they do not fit into 64 bits; a quotient is rounded down and refused
exactly if there is none; the result is long exactly if an operand is; and what a division computes
on the way fits into 64 bits as well. -/
theorem integers_exact_or_refused (e : Engine σ) (ts : InterpreterId) (x y : Whole) :
    (∀ op, isArithmetic op = true →
      applyBinary e ts op x.value y.value = orRaise ts (arithmetic op x.value y.value)) ∧
    applyUnary e ts .negate x.value = orRaise ts (negative x.value) ∧
    (∀ op number, unbounded? op x.amount.toInt y.amount.toInt = some number →
      ExactOrOverflow (arithmetic op x.value y.value) (x.isLong || y.isLong) number) ∧
    DividedOrRefused (arithmetic .divide x.value y.value) (arithmetic .modulo x.value y.value)
      (x.isLong || y.isLong) x.amount.toInt y.amount.toInt ∧
    ExactOrOverflow (negative x.value) x.isLong (-x.amount.toInt) ∧
    (¬InRange (-x.amount.toInt) ↔ x.amount = Int64.minValue) ∧
    ∀ quotient remainder, truncated x.amount y.amount = .ok (quotient, remainder) →
      Staying x.amount y.amount quotient remainder := by
  refine ⟨fun op arithmetical => applyBinary_whole e ts arithmetical x y, applyUnary_whole e ts x,
    fun op number exact => exactOrOverflow_arithmetic x y exact, ?_, ?_, ?_,
    fun quotient remainder => staying_of_truncated⟩
  · rw [arithmetic_whole, arithmetic_whole]
    exact dividedOrRefused_wholeOp _ _ _
  · rw [negative_whole]
    exact exactOrOverflow_fit _ _
  · rw [← Int64.toInt_inj]
    have ⟨low, high⟩ := inRange_iff.mp (inRange_toInt x.amount)
    have least : Int64.minValue.toInt = -9223372036854775808 := rfl
    rw [inRange_iff]
    omega

/-- Minus seven by a long two, the least number by minus one and less one, and its negative. -/
theorem integers_at_their_ends :
    Yields (arithmetic .divide (.int (-7)) (.long 2)) true (-4) ∧
    Yields (arithmetic .modulo (.int (-7)) (.long 2)) true 1 ∧
    Refuses (arithmetic .divide (.int Int64.minValue) (.int (-1))) .overflow ∧
    Refuses (arithmetic .modulo (.int Int64.minValue) (.int (-1))) .overflow ∧
    Refuses (arithmetic .subtract (.int Int64.minValue) (.bool true)) .overflow ∧
    Refuses (negative (.long Int64.minValue)) .overflow := by
  let engine : Engine Unit := .alone 0
  obtain ⟨-, -, -, seven, -, -, -⟩ :=
    integers_exact_or_refused engine ⟨0⟩ (.int (-7)) (.long 2)
  obtain ⟨q, r, divided, left, floored⟩ := seven.floored (by decide) (by decide)
  obtain rfl : q = -4 := floored.floor
  obtain rfl : r = 1 := by
    have whole : -4 * 2 + r = -7 := floored.whole
    omega
  obtain ⟨-, -, -, least, -, -, -⟩ :=
    integers_exact_or_refused engine ⟨0⟩ (.int Int64.minValue) (.int (-1))
  obtain ⟨-, -, lessOne, -, -, -, -⟩ :=
    integers_exact_or_refused engine ⟨0⟩ (.int Int64.minValue) (.bool true)
  obtain ⟨-, -, -, -, negated, -, -⟩ :=
    integers_exact_or_refused engine ⟨0⟩ (.long Int64.minValue) (.int 0)
  exact ⟨divided, left, (least.overflow _ (.inl rfl)).mpr (by decide),
    (least.overflow _ (.inr rfl)).mpr (by decide),
    (lessOne .subtract _ rfl).overflow.mpr (by decide), negated.overflow.mpr (by decide)⟩

end ScriptBridge.Script
