import TokenNet.Proofs.Digits
import TokenNet.Proofs.Rounding
/-!
Decimals as doubles.  Reading sees the value of a decimal and not how it is spelled,
`toBinary64_congr`, and gives a double back from any decimal of its value, `toBinary64_magnitude`.
So a double comes back from the decimal that is written for it: `toBinary64_shortest`.
-/

namespace TokenNet.Decimal

/-! ## The value of a decimal -/

theorem exists_ratio (c : Nat) (e : Int) :
    ∃ num den : Nat, 0 < den ∧ (num : ℚ) / den = c * 10 ^ e := by
  rcases Int.le_total 0 e with he | he
  · obtain ⟨n, rfl⟩ := Int.eq_ofNat_of_zero_le he
    exact ⟨c * 10 ^ n, 1, Nat.one_pos, by push_cast; rw [div_one, zpow_natCast]⟩
  · obtain ⟨n, hn⟩ := Int.eq_ofNat_of_zero_le (show 0 ≤ -e by omega)
    refine ⟨c, 10 ^ n, Nat.pow_pos (by decide), ?_⟩
    rw [show e = -(n : Int) by omega, zpow_neg, zpow_natCast, ← div_eq_mul_inv]
    push_cast
    rfl

/-- The size of a decimal, by which numbers far out of range are told, is that of its value. -/
theorem lt_size_iff {c : Nat} (hc : 0 < c) (e k : Int) :
    k < e + (digits c).length ↔ (10 : ℚ) ^ k ≤ c * 10 ^ e := by
  have hten : (1 : ℚ) < 10 := by norm_num
  have hpos : (0 : ℚ) < 10 ^ e := zpow_pos (by norm_num) e
  rw [← div_le_iff₀ hpos, ← zpow_sub₀ (by norm_num)]
  constructor
  · intro hk
    have hlength := length_digits_pos c
    calc (10 : ℚ) ^ (k - e) ≤ 10 ^ (((digits c).length - 1 : Nat) : Int) :=
          zpow_le_zpow_right₀ hten.le (by omega)
      _ ≤ c := by
          rw [zpow_natCast]
          exact_mod_cast pow_le_of_length_digits hc
  · intro hle
    by_contra hk
    have hlt : (c : ℚ) < 10 ^ (((digits c).length : Nat) : Int) := by
      rw [zpow_natCast]
      exact_mod_cast lt_pow_length_digits c
    have hpow : (10 : ℚ) ^ (((digits c).length : Nat) : Int) ≤ 10 ^ (k - e) :=
      zpow_le_zpow_right₀ hten.le (by omega)
    exact absurd (hle.trans_lt hlt) (not_lt.2 hpow)

theorem size_congr {c c' : Nat} {e e' : Int} (hc : 0 < c) (hc' : 0 < c')
    (h : (c : ℚ) * 10 ^ e = c' * 10 ^ e') :
    e + (digits c).length = e' + (digits c').length :=
  eq_of_forall_lt_iff fun k => by rw [lt_size_iff hc, lt_size_iff hc', h]

theorem toBinary64_zero (negative : Bool) (e : Int) : toBinary64 negative 0 e = .zero negative := by
  simp [toBinary64]

/-- Reading, by any ratio that is the value. -/
theorem toBinary64_eq (negative : Bool) {c : Nat} (hc : 0 < c) {e : Int} {num den : Nat}
    (hd : 0 < den) (h : (num : ℚ) / den = c * 10 ^ e) :
    toBinary64 negative c e =
      if e + (digits c).length < -330 then .zero negative
      else if 310 < e + (digits c).length then .infinity negative
      else .ofRatio negative num den := by
  have hden : (den : ℚ) ≠ 0 := by exact_mod_cast hd.ne'
  have hratio : (if 0 ≤ e then Binary64.ofRatio negative (c * 10 ^ e.toNat) 1
      else .ofRatio negative c (10 ^ (-e).toNat)) = .ofRatio negative num den := by
    split
    next he =>
      obtain ⟨n, rfl⟩ := Int.eq_ofNat_of_zero_le he
      rw [zpow_natCast, div_eq_iff hden] at h
      exact Binary64.ofRatio_congr negative Nat.one_pos hd (by
        rw [Int.toNat_natCast, Nat.mul_one]
        exact_mod_cast h.symm)
    next he =>
      obtain ⟨n, hn⟩ := Int.eq_ofNat_of_zero_le (show 0 ≤ -e by omega)
      have hpow : (10 : ℚ) ^ n ≠ 0 := by positivity
      rw [show e = -(n : Int) by omega, zpow_neg, zpow_natCast, ← div_eq_mul_inv,
        div_eq_div_iff hden hpow] at h
      exact Binary64.ofRatio_congr negative (Nat.pow_pos (by decide)) hd (by
        rw [hn, Int.toNat_natCast]
        exact_mod_cast h.symm)
  simp only [toBinary64, hc.ne', false_or, hratio]

theorem toBinary64_congr (negative : Bool) {c c' : Nat} {e e' : Int}
    (h : (c : ℚ) * 10 ^ e = c' * 10 ^ e') :
    toBinary64 negative c e = toBinary64 negative c' e' := by
  have hten : ∀ k : Int, (10 : ℚ) ^ k ≠ 0 := fun k => zpow_ne_zero k (by norm_num)
  have hzero : c = 0 ↔ c' = 0 := by
    constructor <;> rintro rfl
    · simpa [hten] using h.symm
    · simpa [hten] using h
  rcases Nat.eq_zero_or_pos c with hc | hc
  · rw [hzero.1 hc, hc, toBinary64_zero, toBinary64_zero]
  · have hc' : 0 < c' := Nat.pos_of_ne_zero fun h0 => hc.ne' (hzero.2 h0)
    obtain ⟨num, den, hd, hratio⟩ := exists_ratio c e
    rw [toBinary64_eq negative hc hd hratio, toBinary64_eq negative hc' hd (hratio.trans h),
      size_congr hc hc' h]

theorem toBinary64_sign (negative : Bool) (c : Nat) (e : Int) :
    toBinary64 negative c e = { toBinary64 false c e with negative } := by
  have hratio : ∀ num den : Nat, Binary64.ofRatio negative num den =
      { Binary64.ofRatio false num den with negative } := by
    intro num den
    unfold Binary64.ofRatio
    split <;> rfl
  simp only [toBinary64, hratio]
  split_ifs <;> rfl

/-! ## Doubles from their own values -/

/-- Neither of the tests on the size meets a double. -/
theorem toBinary64_magnitude {x : Binary64} (hx : x.isFinite = true) {c : Nat} {e : Int}
    (h : (c : ℚ) * 10 ^ e = x.significand * 2 ^ x.scale) (negative : Bool) :
    toBinary64 negative c e = { x with negative } := by
  obtain ⟨num, den, hd, hratio⟩ := exists_ratio c e
  rw [← Binary64.ofRatio_magnitude hx hd (hratio.trans h) negative]
  rcases Nat.eq_zero_or_pos c with rfl | hc
  · have hnum : num = 0 := by
      rw [Nat.cast_zero, zero_mul, div_eq_zero_iff] at hratio
      exact_mod_cast hratio.resolve_right (by exact_mod_cast hd.ne')
    rw [toBinary64_zero, hnum, Binary64.ofRatio, if_pos rfl]
  have hscale := Binary64.scale_mem hx
  have hpos : (0 : ℚ) < 2 ^ x.scale := zpow_pos two_pos _
  have hsignificand : 1 ≤ x.significand := by
    refine Nat.pos_of_ne_zero fun h0 => ?_
    rw [h0, Nat.cast_zero, zero_mul] at h
    exact absurd h (mul_pos (by exact_mod_cast hc) (zpow_pos (by norm_num) e)).ne'
  have hlow : -331 < e + (digits c).length := by
    have htwo : (2 : ℚ) ^ 1074 ≤ 10 ^ 331 := by
      exact_mod_cast (by decide +kernel : 2 ^ 1074 ≤ 10 ^ 331)
    rw [lt_size_iff hc, h]
    calc (10 : ℚ) ^ (-331 : Int) ≤ 2 ^ (-1074 : Int) :=
          inv_anti₀ (pow_pos two_pos 1074) htwo
      _ ≤ 2 ^ x.scale := zpow_le_zpow_right₀ one_le_two hscale.1
      _ ≤ x.significand * 2 ^ x.scale :=
          le_mul_of_one_le_left hpos.le (by exact_mod_cast hsignificand)
  have hhigh : ¬310 < e + (digits c).length := by
    have htwo : (2 : ℚ) ^ 53 * 2 ^ 971 < 10 ^ 310 := by
      exact_mod_cast (by decide +kernel : 2 ^ 53 * 2 ^ 971 < 10 ^ 310)
    rw [lt_size_iff hc, h, not_le]
    calc (x.significand : ℚ) * 2 ^ x.scale < 2 ^ 53 * 2 ^ x.scale :=
          mul_lt_mul_of_pos_right (by exact_mod_cast x.significand_lt) hpos
      _ ≤ 2 ^ 53 * 2 ^ (971 : Int) :=
          mul_le_mul_of_nonneg_left (zpow_le_zpow_right₀ one_le_two hscale.2)
            (pow_pos two_pos 53).le
      _ < 10 ^ (310 : Int) := htwo
  rw [toBinary64_eq negative hc hd hratio, if_neg (by omega), if_neg hhigh]

/-! ## The decimal that is written -/

theorem dropZeros_value (fuel c : Nat) (e : Int) :
    ((dropZeros fuel c e).1 : ℚ) * 10 ^ (dropZeros fuel c e).2 = c * 10 ^ e := by
  induction fuel generalizing c e with
  | zero => rfl
  | succ fuel ih =>
    rw [dropZeros]
    split
    next h =>
      have hc : c = c / 10 * 10 := by omega
      rw [ih, zpow_add₀ (by norm_num), zpow_one, mul_comm ((10 : ℚ) ^ e), ← mul_assoc]
      congr 1
      exact_mod_cast hc.symm
    next => rfl

theorem onGrid_hits {x : Binary64} {num den c : Nat} {e : Int}
    (h : onGrid x num den e = some c) : toBinary64 false c e = x := by
  unfold onGrid at h
  extract_lets top bottom low rest hit at h
  change hit c
  split_ifs at h with hlow hnext hhigh <;> rw [← Option.some.inj h]
  · exact hnext.1
  · exact hlow
  · exact hhigh

theorem search_hits {x : Binary64} {num den : Nat} {e : Int} {ns : List Nat} {found : Nat × Int}
    (h : search x num den e ns = some found) : toBinary64 false found.1 found.2 = x := by
  induction ns with
  | nil => cases h
  | cons n rest ih =>
    rw [search] at h
    split at h
    next c hc =>
      cases h
      rw [toBinary64_congr false (dropZeros_value 20 c _), onGrid_hits hc]
    next => exact ih h

theorem exact_value (x : Binary64) :
    ((exact x).1 : ℚ) * 10 ^ (exact x).2 = x.significand * 2 ^ x.scale := by
  unfold exact
  split
  next he =>
    obtain ⟨n, hn⟩ := Int.eq_ofNat_of_zero_le he
    rw [hn, zpow_natCast, Int.toNat_natCast]
    push_cast
    rw [mul_one]
  next he =>
    obtain ⟨n, hn⟩ := Int.eq_ofNat_of_zero_le (show 0 ≤ -x.scale by omega)
    rw [hn, Int.toNat_natCast, show x.scale = -(n : Int) by omega, zpow_neg, zpow_neg,
      zpow_natCast, zpow_natCast]
    push_cast
    rw [show (10 : ℚ) = 5 * 2 by norm_num, mul_pow]
    field_simp

theorem toBinary64_shortest {x : Binary64} (hx : x.isFinite = true) :
    toBinary64 x.negative (shortest x).1 (shortest x).2 = x := by
  by_cases hs : x.significand = 0
  · rw [shortest, if_pos hs]
    exact toBinary64_magnitude hx (by rw [hs]; simp) x.negative
  · simp only [shortest, hs, if_false]
    cases hsearch : search x.abs _ _ _ (List.range 17) with
    | some found =>
      rw [Option.getD_some, toBinary64_sign, search_hits hsearch]
      rfl
    | none => exact toBinary64_magnitude hx (exact_value x) x.negative

/-- Nothing but zero is written by zeros, and it is written by one. -/
theorem shortest_of_coefficient_eq_zero {x : Binary64} (hx : x.isFinite = true)
    (h : (shortest x).1 = 0) : (shortest x).2 = 0 := by
  have hread := toBinary64_shortest hx
  rw [h, toBinary64_zero] at hread
  have hs : x.significand = 0 := by
    rw [← hread]
    rfl
  rw [shortest, if_pos hs]

end TokenNet.Decimal
