import AgentBack.Base.Floating
import Mathlib.Data.Int.Log
import Mathlib.Tactic.Positivity

/-!
# Numbers of a fixed precision

A rational is brought to `p` significant digits in base `b`, to the nearest and a tie to the even
one: the result of an operation of a binary floating point number (`b = 2`, `p = 53`) and of a
decimal under its context (`b = 10`, `p = 28`). The exponent has no bound, so nothing overflows and
nothing is lost below the least number. What the operations give is stated for numbers that are not
negative: rounding keeps their order (`nearest_mono`) and leaves what has no more digits as it is
(`nearest_of_digits`).
-/

namespace AgentBack

namespace Floating

theorem roundHalfEven_mem (q : ℚ) : roundHalfEven q = ⌊q⌋ ∨ roundHalfEven q = ⌊q⌋ + 1 := by
  simp only [roundHalfEven]
  split_ifs
  · exact .inl rfl
  · exact .inr rfl
  · exact .inl rfl
  · exact .inr rfl

theorem roundHalfEven_near (q : ℚ) : |(roundHalfEven q : ℚ) - q| ≤ 1 / 2 := by
  have below := Int.floor_le q
  have above := Int.lt_floor_add_one q
  simp only [roundHalfEven]
  split_ifs <;> rw [abs_le] <;> push_cast <;> constructor <;> linarith

theorem roundHalfEven_intCast (n : Int) : roundHalfEven n = n := by
  simp [roundHalfEven]

theorem roundHalfEven_mono {q r : ℚ} (h : q ≤ r) : roundHalfEven q ≤ roundHalfEven r := by
  rcases lt_or_eq_of_le (Int.floor_le_floor h) with apart | same
  · rcases roundHalfEven_mem q with hq | hq <;> rcases roundHalfEven_mem r with hr | hr <;> omega
  · have rest : q - (⌊q⌋ : ℚ) ≤ r - (⌊r⌋ : ℚ) := by rw [same]; linarith
    simp only [roundHalfEven, same] at rest ⊢
    split_ifs <;> first | omega | linarith

theorem roundHalfEven_nonneg {q : ℚ} (h : 0 ≤ q) : 0 ≤ roundHalfEven q := by
  have kept := roundHalfEven_mono h
  rwa [← Int.cast_zero, roundHalfEven_intCast] at kept

end Floating

namespace Significant

open Floating

variable (b p : ℕ)

/-- The worth of the last of `p` digits. -/
def unit (x : ℚ) : ℚ := (b : ℚ) ^ (Int.log b |x| + 1 - p)

/-- The nearest number of `p` digits, the even one of two. -/
def nearest (x : ℚ) : ℚ := roundHalfEven (x / unit b p x) * unit b p x

variable {b p : ℕ}

theorem unit_pos (hb : 1 < b) (x : ℚ) : 0 < unit b p x :=
  zpow_pos (by exact_mod_cast hb.trans' Nat.one_pos) _

@[simp] theorem nearest_zero : nearest b p 0 = 0 := by
  simp [nearest, roundHalfEven]

variable (hb : 1 < b)
include hb

theorem nearest_nonneg {x : ℚ} (hx : 0 ≤ x) : 0 ≤ nearest b p x :=
  mul_nonneg (by exact_mod_cast roundHalfEven_nonneg (div_nonneg hx (unit_pos hb x).le))
    (unit_pos hb x).le

/-- A number that is a whole number of its units stays. -/
theorem nearest_of_units {x : ℚ} {n : Int} (h : x = n * unit b p x) :
    nearest b p x = x := by
  have pos := unit_pos (p := p) hb x
  have whole : x / unit b p x = n := by rw [div_eq_iff pos.ne']; exact h
  rw [nearest, whole, roundHalfEven_intCast, ← h]

/-- **Digits stay.** A number of at most `p` digits is its own nearest one. -/
theorem nearest_of_digits {n : ℕ} (hn : n < b ^ p) (e : ℤ) :
    nearest b p (n * (b : ℚ) ^ e) = n * (b : ℚ) ^ e := by
  have base : (0 : ℚ) < b := by exact_mod_cast hb.trans' Nat.one_pos
  rcases Nat.eq_zero_or_pos n with rfl | npos
  · simp
  have npos' : (0 : ℚ) < n := by exact_mod_cast npos
  have xpos : 0 < (n : ℚ) * (b : ℚ) ^ e := mul_pos npos' (zpow_pos base _)
  -- The exponent of the unit is at most `e`, so the number is a whole number of its units.
  have small : Int.log b ((n : ℚ) * (b : ℚ) ^ e) < p + e := by
    rw [← Int.lt_zpow_iff_log_lt hb xpos, zpow_add₀ base.ne', zpow_natCast]
    exact mul_lt_mul_of_pos_right (by exact_mod_cast hn) (zpow_pos base _)
  obtain ⟨k, hk⟩ : ∃ k : ℕ, e = Int.log b ((n : ℚ) * (b : ℚ) ^ e) + 1 - p + k :=
    ⟨(e - (Int.log b ((n : ℚ) * (b : ℚ) ^ e) + 1 - p)).toNat, by omega⟩
  refine nearest_of_units hb (n := n * b ^ k) ?_
  rw [unit, abs_of_pos xpos]
  push_cast
  rw [mul_assoc, ← zpow_natCast, ← zpow_add₀ base.ne', add_comm (k : ℤ), ← hk]

theorem nearest_natCast {n : ℕ} (hn : n < b ^ p) : nearest b p n = n := by
  simpa using nearest_of_digits hb hn 0

theorem nearest_zpow (hp : 0 < p) (e : ℤ) :
    nearest b p ((b : ℚ) ^ e) = (b : ℚ) ^ e := by
  simpa using nearest_of_digits hb (n := 1) (Nat.one_lt_pow hp.ne' hb) e

theorem nearest_mono_of_log {x y : ℚ} (hx : 0 < x) (hxy : x ≤ y)
    (same : Int.log b x = Int.log b y) : nearest b p x ≤ nearest b p y := by
  have units : unit b p x = unit b p y := by
    rw [unit, unit, abs_of_pos hx, abs_of_pos (hx.trans_le hxy), same]
  have pos := unit_pos (p := p) hb y
  rw [nearest, nearest, units]
  refine mul_le_mul_of_nonneg_right ?_ pos.le
  exact_mod_cast roundHalfEven_mono (div_le_div_of_nonneg_right hxy pos.le)

/-- Nothing is rounded past the power of the base above it. -/
theorem nearest_le_zpow {x : ℚ} (hx : 0 < x) :
    nearest b p x ≤ (b : ℚ) ^ (Int.log b x + 1) := by
  have base : (0 : ℚ) < b := by exact_mod_cast hb.trans' Nat.one_pos
  have pos := unit_pos (p := p) hb x
  have top : (b : ℚ) ^ (Int.log b x + 1) = ((b ^ p : ℕ) : Int) * unit b p x := by
    rw [unit, abs_of_pos hx]
    push_cast
    rw [← zpow_natCast, ← zpow_add₀ base.ne']
    congr 1
    omega
  have below : x / unit b p x ≤ ((b ^ p : ℕ) : Int) := by
    rw [div_le_iff₀ pos, ← top]
    exact (Int.lt_zpow_succ_log_self hb x).le
  have rounded := roundHalfEven_mono below
  rw [roundHalfEven_intCast] at rounded
  rw [top, nearest]
  exact mul_le_mul_of_nonneg_right (by exact_mod_cast rounded) pos.le

/-- Nothing is rounded past the power of the base below it. -/
theorem zpow_le_nearest (hp : 0 < p) {x : ℚ} (hx : 0 < x) :
    (b : ℚ) ^ Int.log b x ≤ nearest b p x := by
  have base : (0 : ℚ) < b := by exact_mod_cast hb.trans' Nat.one_pos
  have floor := Int.zpow_log_le_self hb hx
  rw [← nearest_zpow hb hp (Int.log b x)]
  exact nearest_mono_of_log hb (zpow_pos base _) floor (Int.log_zpow hb _)

/-- **Rounding keeps the order.** -/
theorem nearest_mono (hp : 0 < p) {x y : ℚ} (hx : 0 ≤ x) (hxy : x ≤ y) :
    nearest b p x ≤ nearest b p y := by
  rcases hx.eq_or_lt with rfl | xpos
  · simpa using nearest_nonneg hb hxy
  have base : (1 : ℚ) ≤ b := by exact_mod_cast hb.le
  rcases (Int.log_mono_right (b := b) xpos hxy).eq_or_lt with same | apart
  · exact nearest_mono_of_log hb xpos hxy same
  · calc nearest b p x ≤ (b : ℚ) ^ (Int.log b x + 1) := nearest_le_zpow hb xpos
      _ ≤ (b : ℚ) ^ Int.log b y := zpow_le_zpow_right₀ base (by omega)
      _ ≤ nearest b p y := zpow_le_nearest hb hp (xpos.trans_le hxy)

end Significant

end AgentBack
