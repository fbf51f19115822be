import Mathlib.Algebra.Order.Archimedean.Basic
import Mathlib.Algebra.Order.Floor.Ring
import Mathlib.Data.Int.Log
import Mathlib.Data.Rat.Floor
import Mathlib.Tactic.Linarith
import Mathlib.Tactic.Ring

/-!
# Binary64

A finite value of an IEEE double is the rational number it denotes, and an operation is the
exact one followed by `nearest`. The exponent is not bounded, so this is the arithmetic of
values away from overflow and from the subnormal range.
-/

namespace Ulpf.Library.Binary64

/-- A double that may also be infinite or no number. -/
inductive Double where
  | nan
  | infinite (negative : Bool)
  | finite (value : ℚ)
deriving DecidableEq

/-- `x >= t` for a finite `x`. -/
def Double.atMost (t : Double) (x : ℚ) : Bool :=
  match t with
  | nan => false
  | infinite negative => negative
  | finite value => decide (value ≤ x)

def roundHalfEven (q : ℚ) : ℤ :=
  let r := q - ⌊q⌋
  if r < 1 / 2 then ⌊q⌋
  else if 1 / 2 < r then ⌊q⌋ + 1
  else if ⌊q⌋ % 2 = 0 then ⌊q⌋ else ⌊q⌋ + 1

/-- The spacing of doubles around `q`. -/
def ulp (q : ℚ) : ℚ := 2 ^ (Int.log 2 |q| - 52)

/-- Round to nearest, ties to even. -/
def nearest (q : ℚ) : ℚ := roundHalfEven (q / ulp q) * ulp q

/-- The quotient of two finite doubles, the divisor not zero. -/
def divide (a b : ℚ) : ℚ := nearest (a / b)

/-- `format!("{:.digits$}", q)` -/
def toFixed (digits : ℕ) (q : ℚ) : String :=
  let scaled := (roundHalfEven (|q| * 10 ^ digits)).toNat
  let fraction := (Nat.toDigits 10 (scaled % 10 ^ digits)).leftpad digits '0'
  (if q < 0 then "-" else "") ++ toString (scaled / 10 ^ digits) ++ "." ++ String.ofList fraction

lemma Double.atMost_mono (t : Double) {x y : ℚ} (hxy : x ≤ y) (h : t.atMost x = true) :
    t.atMost y = true := by
  cases t with
  | nan => exact h
  | infinite negative => exact h
  | finite value =>
    rw [atMost, decide_eq_true_eq] at h ⊢
    exact h.trans hxy

/-! ### Rounding to integers -/

@[simp] lemma roundHalfEven_intCast (z : ℤ) : roundHalfEven z = z := by
  simp [roundHalfEven]

lemma roundHalfEven_mono {a b : ℚ} (hab : a ≤ b) : roundHalfEven a ≤ roundHalfEven b := by
  have hfloor := Int.floor_mono hab
  rcases hfloor.eq_or_lt with heq | hlt
  · have hrest : a - ⌊a⌋ ≤ b - ⌊a⌋ := by linarith
    unfold roundHalfEven
    dsimp only
    rw [← heq]
    split_ifs <;> first | omega | (exfalso; linarith)
  · have ha : roundHalfEven a ≤ ⌊a⌋ + 1 := by
      unfold roundHalfEven
      dsimp only
      split_ifs <;> omega
    have hb : ⌊b⌋ ≤ roundHalfEven b := by
      unfold roundHalfEven
      dsimp only
      split_ifs <;> omega
    omega

/-! ### Rounding to doubles -/

lemma ulp_pos (q : ℚ) : 0 < ulp q := zpow_pos two_pos _

lemma two_pow_mul_ulp (q : ℚ) : (2 : ℚ) ^ 52 * ulp q = 2 ^ Int.log 2 |q| := by
  rw [ulp, ← zpow_natCast, ← zpow_add₀ two_ne_zero]
  congr 1
  push_cast
  ring

lemma le_nearest {p : ℚ} (hp : 0 < p) : (2 : ℚ) ^ Int.log 2 |p| ≤ nearest p := by
  have hlog : (2 : ℚ) ^ Int.log 2 |p| ≤ p := by
    have h := Int.zpow_log_le_self (b := 2) one_lt_two (abs_pos.mpr hp.ne')
    rw [Nat.cast_ofNat] at h
    exact h.trans_eq (abs_of_pos hp)
  have hscaled : ((2 ^ 52 : ℤ) : ℚ) ≤ p / ulp p := by
    rwa [le_div_iff₀ (ulp_pos p), Int.cast_pow, Int.cast_ofNat, two_pow_mul_ulp]
  have hround := roundHalfEven_mono hscaled
  rw [roundHalfEven_intCast] at hround
  have hcast : ((2 : ℚ) ^ 52) ≤ roundHalfEven (p / ulp p) := by exact_mod_cast hround
  calc (2 : ℚ) ^ Int.log 2 |p| = 2 ^ 52 * ulp p := (two_pow_mul_ulp p).symm
    _ ≤ roundHalfEven (p / ulp p) * ulp p := by
      exact mul_le_mul_of_nonneg_right hcast (ulp_pos p).le

lemma nearest_le {p : ℚ} (hp : 0 < p) : nearest p ≤ (2 : ℚ) ^ (Int.log 2 |p| + 1) := by
  have hlog : p ≤ (2 : ℚ) ^ (Int.log 2 |p| + 1) := by
    have h := (Int.lt_zpow_succ_log_self (b := 2) one_lt_two |p|).le
    rw [Nat.cast_ofNat] at h
    exact (abs_of_pos hp).symm.trans_le h
  rw [zpow_add_one₀ two_ne_zero, ← two_pow_mul_ulp] at hlog ⊢
  have hscaled : p / ulp p ≤ ((2 ^ 53 : ℤ) : ℚ) := by
    rw [div_le_iff₀ (ulp_pos p), Int.cast_pow, Int.cast_ofNat]
    linarith
  have hround := roundHalfEven_mono hscaled
  rw [roundHalfEven_intCast] at hround
  have hcast : (roundHalfEven (p / ulp p) : ℚ) ≤ 2 ^ 53 := by exact_mod_cast hround
  have h := mul_le_mul_of_nonneg_right hcast (ulp_pos p).le
  unfold nearest
  linarith

/-- Within one binade the spacing is the same; between two of them lies a power of two. -/
theorem nearest_mono {p q : ℚ} (hp : 0 < p) (hpq : p ≤ q) : nearest p ≤ nearest q := by
  have hq := hp.trans_le hpq
  have habs : |p| ≤ |q| := by rwa [abs_of_pos hp, abs_of_pos hq]
  rcases (Int.log_mono_right (b := 2) (abs_pos.mpr hp.ne') habs).eq_or_lt with heq | hlt
  · have hulp : ulp p = ulp q := by rw [ulp, ulp, heq]
    unfold nearest
    rw [hulp]
    apply mul_le_mul_of_nonneg_right _ (ulp_pos q).le
    exact_mod_cast roundHalfEven_mono (div_le_div_of_nonneg_right hpq (ulp_pos q).le)
  · calc nearest p ≤ (2 : ℚ) ^ (Int.log 2 |p| + 1) := nearest_le hp
      _ ≤ (2 : ℚ) ^ Int.log 2 |q| := zpow_le_zpow_right₀ one_le_two hlt
      _ ≤ nearest q := le_nearest hq

@[simp] lemma nearest_zero : nearest 0 = 0 := by
  simp [nearest, roundHalfEven]

@[simp] lemma nearest_one : nearest 1 = 1 := by
  have hulp : (1 : ℚ) / ulp 1 = ((2 ^ 52 : ℤ) : ℚ) := by
    rw [div_eq_iff (ulp_pos 1).ne', Int.cast_pow, Int.cast_ofNat, two_pow_mul_ulp]
    simp
  rw [nearest, hulp, roundHalfEven_intCast, Int.cast_pow, Int.cast_ofNat, two_pow_mul_ulp]
  simp

lemma one_le_nearest {q : ℚ} (hq : 1 ≤ q) : 1 ≤ nearest q := by
  have h := nearest_mono one_pos hq
  rwa [nearest_one] at h

lemma nearest_nonneg {q : ℚ} (hq : 0 ≤ q) : 0 ≤ nearest q := by
  rcases hq.eq_or_lt with rfl | hpos
  · rw [nearest_zero]
  · exact (zpow_pos two_pos _).le.trans (le_nearest hpos)

lemma nearest_mono_of_nonneg {p q : ℚ} (hp : 0 ≤ p) (hpq : p ≤ q) : nearest p ≤ nearest q := by
  rcases hp.eq_or_lt with rfl | hpos
  · rw [nearest_zero]
    exact nearest_nonneg hpq
  · exact nearest_mono hpos hpq

lemma nearest_natCast_mono {m n : ℕ} (h : m ≤ n) : nearest (m : ℚ) ≤ nearest (n : ℚ) := by
  rcases Nat.eq_zero_or_pos m with rfl | hpos
  · rw [Nat.cast_zero, nearest_zero]
    exact nearest_nonneg (Nat.cast_nonneg n)
  · exact nearest_mono (by exact_mod_cast hpos) (by exact_mod_cast h)

lemma divide_le_one {a b : ℚ} (ha : 0 ≤ a) (hb : 0 < b) (hab : a ≤ b) : divide a b ≤ 1 := by
  unfold divide
  rcases ha.eq_or_lt with rfl | hpos
  · rw [zero_div, nearest_zero]
    exact zero_le_one
  · have h := nearest_mono (div_pos hpos hb) ((div_le_one hb).mpr hab)
    rwa [nearest_one] at h

lemma divide_self {a : ℚ} (ha : 0 < a) : divide a a = 1 := by
  rw [divide, div_self ha.ne', nearest_one]

end Ulpf.Library.Binary64
