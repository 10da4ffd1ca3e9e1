/-
# How many digits the shortest decimal has

The grid on which the search starts is the coarsest one with a point at or below the
value, so its first point has one digit. Every finer grid adds one digit, and only
twenty of them are tried. Hence no float is shown with more than twenty-two digits,
and none has an exponent of more than three.
-/

import ChatHall.Decimal.Shortest
import Mathlib.Data.Nat.Digits.Defs
import Mathlib.Tactic.Positivity
import Mathlib.Tactic.Ring

namespace ChatHall.Decimal

namespace Shortest

variable (i : Interval)

/-! ## Finer and finer grids -/

theorem tenTo_of_nonpos {e : Int} (nonpos : e ≤ 0) : tenTo e = 1 := by
  rw [tenTo, Int.toNat_of_nonpos nonpos, Nat.pow_eq, Nat.pow_zero]

theorem tenTo_eq_mul {e : Int} (positive : 0 < e) : tenTo e = tenTo (e - 1) * 10 := by
  have digits : e.toNat = (e - 1).toNat + 1 := by omega
  rw [tenTo, digits, tenTo, Nat.pow_eq, Nat.pow_eq, Nat.pow_succ]

/-- A grid that is ten times as fine takes a value to one digit more. -/
theorem floor_pred_le (e : Int) : i.floor (e - 1) ≤ 10 * i.floor e + 9 := by
  rw [Interval.floor, Interval.floor]
  by_cases positive : 0 < e
  · rw [tenTo_of_nonpos (show -e ≤ 0 by omega), tenTo_of_nonpos (show -(e - 1) ≤ 0 by omega),
      tenTo_eq_mul positive, ← Nat.mul_assoc, ← Nat.div_div_eq_div_mul _ _ 10]
    omega
  · rw [tenTo_of_nonpos (show e ≤ 0 by omega), tenTo_of_nonpos (show e - 1 ≤ 0 by omega),
      tenTo_eq_mul (show 0 < -(e - 1) by omega), show -(e - 1) - 1 = -e by omega, Nat.mul_one]
    rcases Nat.eq_zero_or_pos i.unit with none | some_unit
    · rw [none, Nat.div_zero]
      exact Nat.zero_le _
    · have below := Nat.lt_mul_div_succ (i.value * tenTo (-e)) some_unit
      apply Nat.le_of_lt_succ
      rw [Nat.div_lt_iff_lt_mul some_unit]
      calc i.value * (tenTo (-e) * 10) = i.value * tenTo (-e) * 10 := (Nat.mul_assoc ..).symm
        _ < i.unit * (i.value * tenTo (-e) / i.unit + 1) * 10 :=
            Nat.mul_lt_mul_of_pos_right below (by decide)
        _ = (10 * (i.value * tenTo (-e) / i.unit) + 9 + 1) * i.unit := by ring

/-- The search downward stops at a grid whose first point has one digit. -/
theorem floor_exponentFrom_le (fuel : Nat) {e : Int} (tooCoarse : i.floor (e + 1) = 0) :
    i.floor (i.exponentFrom fuel e) ≤ 9 := by
  induction fuel generalizing e with
  | zero =>
      have finer := floor_pred_le i (e + 1)
      rw [tooCoarse, Int.add_sub_cancel] at finer
      exact finer
  | succ fuel ih =>
      rw [Interval.exponentFrom]
      split
      · next still =>
          apply ih
          rw [Int.sub_add_cancel]
          exact still
      · have finer := floor_pred_le i (e + 1)
        rw [tooCoarse, Int.add_sub_cancel] at finer
        exact finer

theorem exponentFrom_bounds (fuel : Nat) (e : Int) :
    e - fuel ≤ i.exponentFrom fuel e ∧ i.exponentFrom fuel e ≤ e := by
  induction fuel generalizing e with
  | zero =>
      rw [Interval.exponentFrom]
      omega
  | succ fuel ih =>
      have lower := ih (e - 1)
      rw [Interval.exponentFrom]
      split <;> omega

/-- A grid has its point in the interval next to the value. -/
theorem le_of_point? {e : Int} {n : Nat} (point : i.point? e = some n) : n ≤ i.floor e + 1 := by
  rw [Interval.point?] at point
  dsimp only at point
  split at point
  · contradiction
  · obtain rfl := Option.some.inj point
    exact Nat.le_succ _
  · obtain rfl := Option.some.inj point
    exact Nat.le_refl _
  · split at point
    · obtain rfl := Option.some.inj point
      exact Nat.le_succ _
    · obtain rfl := Option.some.inj point
      exact Nat.le_refl _

/-- Each grid that has to be tried makes the point ten times as large. -/
theorem firstPoint_le (fuel : Nat) (e : Int) :
    (i.firstPoint fuel e).1 ≤ (i.floor e + 1) * 10 ^ fuel := by
  induction fuel generalizing e with
  | zero =>
      rw [Interval.firstPoint, Nat.pow_zero, Nat.mul_one]
      exact Nat.le_succ _
  | succ fuel ih =>
      rw [Interval.firstPoint]
      cases point : i.point? e with
      | some n => exact Nat.le_trans (le_of_point? i point) (Nat.le_mul_of_pos_right _ (by positivity))
      | none =>
          have finer := floor_pred_le i e
          calc (i.firstPoint fuel (e - 1)).1
            _ ≤ (i.floor (e - 1) + 1) * 10 ^ fuel := ih (e - 1)
            _ ≤ (i.floor e + 1) * 10 * 10 ^ fuel := Nat.mul_le_mul_right _ (by omega)
            _ = (i.floor e + 1) * 10 ^ (fuel + 1) := by ring

theorem firstPoint_bounds (fuel : Nat) (e : Int) :
    e - fuel ≤ (i.firstPoint fuel e).2 ∧ (i.firstPoint fuel e).2 ≤ e := by
  induction fuel generalizing e with
  | zero =>
      rw [Interval.firstPoint]
      omega
  | succ fuel ih =>
      have lower := ih (e - 1)
      rw [Interval.firstPoint]
      split
      · dsimp only
        omega
      · omega

/-! ## The floats -/

theorem twoTo_le {d e : Int} (le : d ≤ e) : twoTo d ≤ twoTo e :=
  Nat.pow_le_pow_right (by decide) (Int.toNat_le_toNat le)

/-- No float reaches `10 ^ 310`. -/
theorem floor_interval_eq_zero (bits : UInt64) : (interval bits).floor 310 = 0 := by
  rw [Interval.floor]
  apply Nat.div_eq_of_lt
  rw [tenTo_of_nonpos (show -310 ≤ (0 : Int) by decide), Nat.mul_one]
  have fraction : bits.toNat % twoTo 52 < 2 ^ 52 := Nat.mod_lt _ (by decide)
  have biased : bits.toNat / twoTo 52 % twoTo 11 < 2048 := Nat.mod_lt _ (by decide)
  have unit : 0 < (interval bits).unit := Nat.pow_pos (by decide)
  have value : (interval bits).value ≤ twoTo 55 * twoTo 970 := by
    rw [interval]
    dsimp only
    refine Nat.mul_le_mul ?_ (twoTo_le ?_)
    · have significand : twoTo 52 = 2 ^ 52 ∧ twoTo 55 = 2 ^ 55 := by decide
      split <;> omega
    · split <;> omega
  calc (interval bits).value
    _ ≤ twoTo 55 * twoTo 970 := value
    _ < tenTo 310 := by decide +kernel
    _ ≤ (interval bits).unit * tenTo 310 := Nat.le_mul_of_pos_left _ unit

end Shortest

open Shortest

/-- How long the digits and the exponent of a float are. -/
theorem shortest_bounds (bits : UInt64) :
    (shortest bits).digits.length ≤ 22 ∧ (shortest bits).exponent.natAbs < 1000 := by
  have coarse := floor_exponentFrom_le (interval bits) 700 (e := 309) (floor_interval_eq_zero bits)
  rw [shortest]
  generalize interval bits = i at coarse
  have start := exponentFrom_bounds i 700 309
  have found := firstPoint_bounds i 20 (i.exponentFrom 700 309)
  have point : (i.firstPoint 20 (i.exponentFrom 700 309)).1 < 10 ^ 22 :=
    calc (i.firstPoint 20 (i.exponentFrom 700 309)).1
      _ ≤ (i.floor (i.exponentFrom 700 309) + 1) * 10 ^ 20 := firstPoint_le i 20 _
      _ ≤ 10 * 10 ^ 20 := Nat.mul_le_mul_right _ (by omega)
      _ < 10 ^ 22 := by decide
  have digits := Nat.toDigits_length 10 _ 22 (by decide) point
  dsimp only
  rw [List.length_reverse]
  constructor
  · refine Nat.le_trans (List.dropWhile_sublist _).length_le ?_
    rwa [List.length_reverse, List.length_map]
  · rw [List.length_map]
    omega

end ChatHall.Decimal
