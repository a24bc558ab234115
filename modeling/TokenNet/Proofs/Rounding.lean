import Mathlib.Data.Int.Log
import Mathlib.Data.Rat.Floor
import Mathlib.Tactic.Ring
import Mathlib.Tactic.Linarith
import Mathlib.Tactic.FieldSimp
import Mathlib.Tactic.Positivity
import TokenNet.Number.Binary64
/-!
Rounding to a double.  `ofRatio` sees the ratio and nothing else of its arguments, `ofRatio_congr`,
and it leaves every magnitude that a double has as it is, `ofRatio_magnitude`.  So a whole number
that some double is, is found again: `ofInt?_of_toInt?`.
-/

namespace TokenNet

namespace Binary64

/-! ## Parts of rounding -/

theorem divNearest_mul_left {k : Nat} (hk : 0 < k) (num den : Nat) :
    divNearest (k * num) (k * den) = divNearest num den := by
  have hlt : ∀ a b : Nat, k * a < k * b ↔ a < b := fun a b => Nat.mul_lt_mul_left hk
  simp only [divNearest, Nat.mul_div_mul_left _ _ hk, Nat.mul_mod_mul_left,
    Nat.mul_left_comm 2 k, hlt]

theorem divNearest_mul_self {den : Nat} (hd : 0 < den) (n : Nat) :
    divNearest (n * den) den = n := by
  simp [divNearest, Nat.mul_div_cancel _ hd, hd]

/-- A comparison with a power of two, without fractions. -/
theorem two_zpow_mul_le_iff (e : Int) (num den : Nat) :
    (2 : ℚ) ^ e * den ≤ num ↔
      if 0 ≤ e then den * 2 ^ e.toNat ≤ num else den ≤ num * 2 ^ (-e).toNat := by
  split
  next he =>
    obtain ⟨n, rfl⟩ := Int.eq_ofNat_of_zero_le he
    rw [Int.toNat_natCast, zpow_natCast, mul_comm]
    exact_mod_cast Iff.rfl
  next he =>
    obtain ⟨n, hn⟩ := Int.eq_ofNat_of_zero_le (show 0 ≤ -e by omega)
    have hpos : (0 : ℚ) < 2 ^ n := by positivity
    rw [hn, Int.toNat_natCast, show e = -(n : Int) by omega, zpow_neg,
      zpow_natCast, inv_mul_le_iff₀ hpos, mul_comm]
    exact_mod_cast Iff.rfl

theorem ratioLog2_eq {num den : Nat} (hn : 0 < num) (hd : 0 < den) :
    ratioLog2 num den = Int.log 2 ((num : ℚ) / den) := by
  have hden : (0 : ℚ) < den := by exact_mod_cast hd
  have hratio : (0 : ℚ) < (num : ℚ) / den := div_pos (by exact_mod_cast hn) hden
  have hbase : (1 : Nat) < 2 := by decide
  have htwo : ((2 : Nat) : ℚ) = 2 := rfl
  have hnum : ((2 : ℚ) ^ (num.log2 : Int)) ≤ num := by
    rw [zpow_natCast]
    exact_mod_cast Nat.log2_self_le hn.ne'
  have hnum' : (num : ℚ) < 2 ^ ((num.log2 : Int) + 1) := by
    rw [← Nat.cast_succ, zpow_natCast]
    exact_mod_cast @Nat.lt_log2_self num
  have hden' : ((2 : ℚ) ^ (den.log2 : Int)) ≤ den := by
    rw [zpow_natCast]
    exact_mod_cast Nat.log2_self_le hd.ne'
  have hden'' : (den : ℚ) < 2 ^ ((den.log2 : Int) + 1) := by
    rw [← Nat.cast_succ, zpow_natCast]
    exact_mod_cast @Nat.lt_log2_self den
  generalize hea : (num.log2 : Int) = a at *
  generalize heb : (den.log2 : Int) = b at *
  have upper : Int.log 2 ((num : ℚ) / den) < a - b + 1 := by
    rw [← Int.lt_zpow_iff_log_lt hbase hratio, htwo, div_lt_iff₀ hden]
    calc (num : ℚ) < 2 ^ (a + 1) := hnum'
      _ = 2 ^ (a - b + 1) * 2 ^ b := by rw [← zpow_add₀ two_ne_zero]; congr 1; ring
      _ ≤ 2 ^ (a - b + 1) * den := mul_le_mul_of_nonneg_left hden' (zpow_pos two_pos _).le
  have lower : a - b - 1 ≤ Int.log 2 ((num : ℚ) / den) := by
    rw [← Int.zpow_le_iff_le_log hbase hratio, htwo, le_div_iff₀ hden]
    calc (2 : ℚ) ^ (a - b - 1) * den ≤ 2 ^ (a - b - 1) * 2 ^ (b + 1) :=
          mul_le_mul_of_nonneg_left hden''.le (zpow_pos two_pos _).le
      _ = 2 ^ a := by rw [← zpow_add₀ two_ne_zero]; congr 1; ring
      _ ≤ num := hnum
  have hreached : (if 0 ≤ a - b then den * 2 ^ (a - b).toNat ≤ num
      else den ≤ num * 2 ^ (-(a - b)).toNat) ↔ a - b ≤ Int.log 2 ((num : ℚ) / den) := by
    rw [← Int.zpow_le_iff_le_log hbase hratio, htwo, le_div_iff₀ hden, two_zpow_mul_le_iff]
  simp only [ratioLog2, hea, heb, hreached]
  split <;> omega

/-! ## What is rounded is a ratio -/

theorem ofRatio_mul_left {k : Nat} (hk : 0 < k) (negative : Bool) (num : Nat) {den : Nat}
    (hd : 0 < den) : ofRatio negative (k * num) (k * den) = ofRatio negative num den := by
  rcases Nat.eq_zero_or_pos num with rfl | hn
  · simp [ofRatio]
  have hlog : ratioLog2 (k * num) (k * den) = ratioLog2 num den := by
    rw [ratioLog2_eq (Nat.mul_pos hk hn) (Nat.mul_pos hk hd), ratioLog2_eq hn hd]
    push_cast
    rw [mul_div_mul_left _ _ (by exact_mod_cast hk.ne')]
  have hne : k * num ≠ 0 := (Nat.mul_pos hk hn).ne'
  simp only [ofRatio, hne, hn.ne', if_false, hlog, Nat.mul_assoc, divNearest_mul_left hk]

theorem ofRatio_congr (negative : Bool) {num den num' den' : Nat} (hd : 0 < den) (hd' : 0 < den')
    (h : num * den' = num' * den) : ofRatio negative num den = ofRatio negative num' den' :=
  calc ofRatio negative num den
      = ofRatio negative (den' * num) (den' * den) := (ofRatio_mul_left hd' negative num hd).symm
    _ = ofRatio negative (den * num') (den * den') := by
        rw [Nat.mul_comm den' num, h, Nat.mul_comm num' den, Nat.mul_comm den' den]
    _ = ofRatio negative num' den' := ofRatio_mul_left hd negative num' hd'

/-! ## Doubles are left as they are -/

theorem le_ratioLog2_iff {num den : Nat} (hn : 0 < num) (hd : 0 < den) (e : Int) :
    e ≤ ratioLog2 num den ↔ (2 : ℚ) ^ e ≤ (num : ℚ) / den := by
  have hratio : (0 : ℚ) < (num : ℚ) / den :=
    div_pos (by exact_mod_cast hn) (by exact_mod_cast hd)
  rw [ratioLog2_eq hn hd, ← Int.zpow_le_iff_le_log (by decide) hratio]
  rfl

theorem ofMagnitudeBits_magnitudeBits {x : Binary64} (h : x.isFinite = true) (negative : Bool) :
    ofMagnitudeBits negative x.magnitudeBits = { x with negative } := by
  have he : x.exponent.val < 2047 := by simpa [isFinite] using h
  have hf := x.fraction.isLt
  have hb : min x.magnitudeBits (2047 * 2 ^ 52) = x.exponent.val * 2 ^ 52 + x.fraction.val := by
    simp only [magnitudeBits]
    omega
  simp only [ofMagnitudeBits, hb, Binary64.mk.injEq, true_and]
  constructor <;> apply Fin.ext <;> simp only <;> omega

/-- The bits of a finite double from its significand and scale. -/
theorem magnitudeBits_eq (x : Binary64) :
    x.magnitudeBits = x.significand + (x.scale + 1074).toNat * 2 ^ 52 := by
  simp only [magnitudeBits, significand, scale]
  split <;> omega

theorem significand_lt (x : Binary64) : x.significand < 2 ^ 53 := by
  have := x.fraction.isLt
  unfold significand
  split <;> omega

theorem scale_mem {x : Binary64} (h : x.isFinite = true) : -1074 ≤ x.scale ∧ x.scale ≤ 971 := by
  have he : x.exponent.val < 2047 := by simpa [isFinite] using h
  simp only [scale]
  omega

/-- The scale is where a significand of that size is rounded. -/
theorem scale_eq {x : Binary64} (h : 0 < x.significand) :
    max ((x.significand.log2 : Int) + x.scale - 52) (-1074) = x.scale := by
  have hf := x.fraction.isLt
  by_cases he : x.exponent.val = 0
  · simp only [significand, he, if_true, scale] at h ⊢
    have hlog : x.fraction.val.log2 < 52 := (Nat.log2_lt h.ne').2 hf
    omega
  · have hlog : (2 ^ 52 + x.fraction.val).log2 = 52 :=
      (Nat.log2_eq_iff (by omega)).2 ⟨by omega, by omega⟩
    simp only [significand, he, if_false, hlog, scale]
    omega

theorem ratioLog2_magnitude {num den n : Nat} {q : Int} (hn : 0 < num) (hd : 0 < den)
    (hpos : 0 < n) (h : (num : ℚ) / den = n * 2 ^ q) : ratioLog2 num den = n.log2 + q := by
  have hle : ∀ e, e ≤ ratioLog2 num den ↔ (2 : ℚ) ^ (e - q) ≤ n := by
    intro e
    rw [le_ratioLog2_iff hn hd, h, zpow_sub₀ two_ne_zero, div_le_iff₀ (zpow_pos two_pos q)]
  refine Int.le_antisymm (Int.not_lt.1 fun hlt => ?_) ((hle _).2 ?_)
  · have := (hle (n.log2 + q + 1)).1 hlt
    rw [show (n.log2 : Int) + q + 1 - q = ((n.log2 + 1 : Nat) : Int) by push_cast; ring,
      zpow_natCast] at this
    exact Nat.not_lt.2 (by exact_mod_cast this) (@Nat.lt_log2_self n)
  · rw [add_sub_cancel_right, zpow_natCast]
    exact_mod_cast Nat.log2_self_le hpos.ne'

/-- What comes out even is not rounded. -/
theorem divNearest_scaled {num den m : Nat} {e : Int} (hd : 0 < den)
    (hx : (num : ℚ) / den = m * 2 ^ e) :
    (if 0 ≤ e then divNearest num (den * 2 ^ e.toNat)
      else divNearest (num * 2 ^ (-e).toNat) den) = m := by
  rw [div_eq_iff (by exact_mod_cast hd.ne')] at hx
  split
  next he =>
    obtain ⟨k, rfl⟩ := Int.eq_ofNat_of_zero_le he
    rw [zpow_natCast] at hx
    have hnum : num = m * (den * 2 ^ k) := by
      have hcast : (num : ℚ) = (m * (den * 2 ^ k) : Nat) := by
        rw [hx]
        push_cast
        ring
      exact_mod_cast hcast
    rw [Int.toNat_natCast, hnum, divNearest_mul_self (Nat.mul_pos hd (Nat.two_pow_pos k))]
  next he =>
    obtain ⟨k, hk⟩ := Int.eq_ofNat_of_zero_le (show 0 ≤ -e by omega)
    rw [show e = -(k : Int) by omega, zpow_neg, zpow_natCast] at hx
    have hnum : num * 2 ^ k = m * den := by
      have hcast : ((num * 2 ^ k : Nat) : ℚ) = (m * den : Nat) := by
        push_cast
        rw [hx]
        field_simp
      exact_mod_cast hcast
    rw [hk, Int.toNat_natCast, hnum, divNearest_mul_self hd]

theorem ofRatio_magnitude {x : Binary64} (h : x.isFinite = true) {num den : Nat} (hd : 0 < den)
    (hx : (num : ℚ) / den = x.significand * 2 ^ x.scale) (negative : Bool) :
    ofRatio negative num den = { x with negative } := by
  have hden : (den : ℚ) ≠ 0 := by exact_mod_cast hd.ne'
  have htwo : (0 : ℚ) < 2 ^ x.scale := zpow_pos two_pos _
  rw [← ofMagnitudeBits_magnitudeBits h negative, magnitudeBits_eq]
  rcases Nat.eq_zero_or_pos x.significand with hs | hs
  · have hnum : num = 0 := by
      rw [hs, Nat.cast_zero, zero_mul, div_eq_zero_iff] at hx
      exact_mod_cast hx.resolve_right hden
    have hzero : x.exponent.val = 0 := by
      simp only [significand] at hs
      split at hs
      next he => exact he
      next => omega
    have hscale : (x.scale + 1074).toNat = 0 := by simp [scale, hzero]
    subst hnum
    rw [hs, hscale, ofRatio, if_pos rfl]
    rfl
  have hn : 0 < num := by
    refine Nat.pos_of_ne_zero fun hnum => ?_
    rw [hnum, Nat.cast_zero, zero_div] at hx
    exact absurd hx.symm (mul_pos (by exact_mod_cast hs) htwo).ne'
  have hq : max (ratioLog2 num den - 52) (-1074) = x.scale := by
    rw [ratioLog2_magnitude hn hd hs hx, scale_eq hs]
  simp only [ofRatio, hn.ne', if_false, hq, divNearest_scaled hd hx]

/-! ## Whole numbers -/

theorem isFinite_of_toInt? {x : Binary64} {n : Int} (h : x.toInt? = some n) :
    x.isFinite = true := by
  by_contra hx
  simp [toInt?, hx] at h

/-- The whole number of a double is its value. -/
theorem toInt?_eq_some_iff {x : Binary64} {n : Int} (hx : x.isFinite = true) :
    x.toInt? = some n ↔ (n : ℚ) = x.signed * 2 ^ x.scale := by
  simp only [toInt?, hx, Bool.not_true, Bool.false_eq_true, if_false]
  split
  next he =>
    obtain ⟨k, hk⟩ := Int.eq_ofNat_of_zero_le he
    rw [hk, zpow_natCast, Int.toNat_natCast, Option.some.injEq, eq_comm]
    exact_mod_cast Iff.rfl
  next he =>
    obtain ⟨k, hk⟩ := Int.eq_ofNat_of_zero_le (show 0 ≤ -x.scale by omega)
    have hpos : (0 : Int) < 2 ^ k := by positivity
    have hpow : (2 : ℚ) ^ k ≠ 0 := by positivity
    rw [show x.scale = -(k : Int) by omega, zpow_neg, zpow_natCast, neg_neg, Int.toNat_natCast,
      ← div_eq_mul_inv, eq_div_iff hpow]
    have hcast : (n : ℚ) * 2 ^ k = x.signed ↔ n * 2 ^ k = x.signed := by exact_mod_cast Iff.rfl
    rw [hcast]
    constructor
    · intro h
      split at h
      next hmod =>
        rw [← Option.some.inj h]
        exact Int.ediv_mul_cancel (Int.dvd_of_emod_eq_zero hmod)
      next => cases h
    · intro h
      rw [← h, if_pos (Int.mul_emod_left _ _), Int.mul_ediv_cancel _ hpos.ne']

theorem compareInt_eq_iff {x : Binary64} {n : Int} (hx : x.isFinite = true) :
    x.compareInt n = some .eq ↔ x.toInt? = some n := by
  have hnan : x.isNan = false := by simp [isNan, hx]
  have hinf : x.isInfinite = false := by simp [isInfinite, hx]
  rw [toInt?_eq_some_iff hx]
  simp only [compareInt, hnan, hinf, Bool.false_eq_true, if_false]
  split
  next he =>
    obtain ⟨k, hk⟩ := Int.eq_ofNat_of_zero_le he
    rw [hk, zpow_natCast, Int.toNat_natCast, Option.some.injEq, compare_eq_iff_eq, eq_comm]
    exact_mod_cast Iff.rfl
  next he =>
    obtain ⟨k, hk⟩ := Int.eq_ofNat_of_zero_le (show 0 ≤ -x.scale by omega)
    have hpow : (2 : ℚ) ^ k ≠ 0 := by positivity
    rw [show x.scale = -(k : Int) by omega, zpow_neg, zpow_natCast, neg_neg, Int.toNat_natCast,
      ← div_eq_mul_inv, eq_div_iff hpow, Option.some.injEq, compare_eq_iff_eq, eq_comm]
    exact_mod_cast Iff.rfl

theorem natAbs_signed (x : Binary64) : x.signed.natAbs = x.significand := by
  unfold signed
  split <;> simp

theorem natAbs_of_toInt? {x : Binary64} {n : Int} (h : x.toInt? = some n) :
    (n.natAbs : ℚ) = x.significand * 2 ^ x.scale := by
  have hpow : (0 : ℚ) < 2 ^ x.scale := zpow_pos two_pos _
  rw [Nat.cast_natAbs, Int.cast_abs, (toInt?_eq_some_iff (isFinite_of_toInt? h)).1 h, abs_mul,
    abs_of_pos hpow, ← natAbs_signed, Nat.cast_natAbs, Int.cast_abs]

/-- A whole number that some double is has a double of its own: that one, up to the sign of a
zero. -/
theorem ofInt?_of_toInt? {x : Binary64} {n : Int} (h : x.toInt? = some n) :
    ∃ y, ofInt? n = some y ∧ y.toInt? = some n := by
  have hx := isFinite_of_toInt? h
  have hmagnitude : (n.natAbs : ℚ) / (1 : Nat) = x.significand * 2 ^ x.scale := by
    rw [natAbs_of_toInt? h, Nat.cast_one, div_one]
  have hy := ofRatio_magnitude hx Nat.one_pos hmagnitude (decide (n < 0))
  have hfinite : ({ x with negative := decide (n < 0) } : Binary64).isFinite = true := hx
  refine ⟨{ x with negative := decide (n < 0) }, ?_, (toInt?_eq_some_iff hfinite).2 ?_⟩
  · simp only [ofInt?, hy, hfinite, if_true]
  · have hsigned : ((({ x with negative := decide (n < 0) } : Binary64).signed : Int) : ℚ) =
        if n < 0 then -(x.significand : ℚ) else x.significand := by
      simp only [signed, significand, decide_eq_true_eq]
      split <;> simp
    have hscale : ({ x with negative := decide (n < 0) } : Binary64).scale = x.scale := rfl
    rw [hsigned, hscale]
    rw [Nat.cast_one, div_one] at hmagnitude
    split
    next hneg =>
      rw [neg_mul, ← hmagnitude, Nat.cast_natAbs, abs_of_neg hneg, Int.cast_neg, neg_neg]
    next hpos => rw [← hmagnitude, Nat.cast_natAbs, abs_of_nonneg (Int.not_lt.1 hpos)]

theorem natAbs_lt_of_toInt? {x : Binary64} {n : Int} (h : x.toInt? = some n) :
    n.natAbs < 2 ^ 53 * 2 ^ 971 := by
  have hscale := (scale_mem (isFinite_of_toInt? h)).2
  have hle : (n.natAbs : ℚ) ≤ x.significand * 2 ^ 971 := by
    rw [natAbs_of_toInt? h, ← zpow_natCast]
    exact mul_le_mul_of_nonneg_left (zpow_le_zpow_right₀ one_le_two hscale) (Nat.cast_nonneg _)
  have hnat : n.natAbs ≤ x.significand * 2 ^ 971 := by exact_mod_cast hle
  calc n.natAbs ≤ x.significand * 2 ^ 971 := hnat
    _ < 2 ^ 53 * 2 ^ 971 := Nat.mul_lt_mul_of_pos_right x.significand_lt (pow_pos two_pos 971)

end Binary64

end TokenNet
