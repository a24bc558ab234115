import Mathlib.Algebra.Group.Nat.Defs
import Mathlib.Data.List.Induction
import TokenNet.Number.Decimal
/-!
Decimal digits.  `digits` and `ofDigits` are the digits of the standard library in base ten, from
which their laws come; nothing but digits is written, without a zero in front, and what is written
reads back.
-/

namespace TokenNet.Decimal

/-! ## The digits of a number -/

theorem digitChar_eq : ∀ d < 10, digitChar d = Nat.digitChar d := by decide

theorem digitsInto_eq {fuel n : Nat} (h : n < fuel) (rest : List Char) :
    digitsInto fuel n rest = Nat.toDigits 10 n ++ rest := by
  induction fuel generalizing n rest with
  | zero => exact absurd h (Nat.not_lt_zero n)
  | succ fuel ih =>
    rw [digitsInto, Nat.toDigits_eq_if (by decide)]
    split
    next hn => rw [digitChar_eq n hn, List.singleton_append]
    next =>
      rw [ih (by omega), digitChar_eq _ (Nat.mod_lt n (by decide)), List.append_assoc,
        List.singleton_append]

theorem digits_eq_toDigits (n : Nat) : digits n = Nat.toDigits 10 n := by
  rw [digits, digitsInto_eq (Nat.lt_succ_self n), List.append_nil]

theorem isDigit_of_mem_digits {n : Nat} {c : Char} (h : c ∈ digits n) : isDigit c = true := by
  rw [digits_eq_toDigits] at h
  exact Nat.isDigit_of_mem_toDigits (by decide) (by decide) h

theorem length_digits_le_iff {n k : Nat} (hk : 0 < k) : (digits n).length ≤ k ↔ n < 10 ^ k := by
  rw [digits_eq_toDigits, Nat.length_toDigits_le_iff (by decide) hk]

theorem length_digits_pos (n : Nat) : 0 < (digits n).length := by
  rw [digits_eq_toDigits]
  exact List.length_pos_iff.2 Nat.toDigits_ne_nil

theorem lt_pow_length_digits (n : Nat) : n < 10 ^ (digits n).length :=
  (length_digits_le_iff (length_digits_pos n)).1 (Nat.le_refl _)

theorem pow_le_of_length_digits {n : Nat} (hn : 0 < n) : 10 ^ ((digits n).length - 1) ≤ n := by
  rcases Nat.eq_zero_or_pos ((digits n).length - 1) with h | h
  · rw [h]
    exact hn
  · exact Nat.not_lt.1 fun hlt => by
      have := (length_digits_le_iff h).2 hlt
      omega

/-! ## The number of digits -/

theorem ofDigits_eq (cs : List Char) : ofDigits cs = Nat.ofDigitChars 10 cs 0 := rfl

theorem ofDigits_digits (n : Nat) : ofDigits (digits n) = n := by
  rw [ofDigits_eq, digits_eq_toDigits, Nat.ofDigitChars_toDigits (by decide) (by decide)]

theorem digits_inj {m n : Nat} (h : digits m = digits n) : m = n := by
  rw [← ofDigits_digits m, h, ofDigits_digits]

theorem ofDigits_append (cs ds : List Char) :
    ofDigits (cs ++ ds) = 10 ^ ds.length * ofDigits cs + ofDigits ds := by
  rw [ofDigits_eq, Nat.ofDigitChars_append, Nat.ofDigitChars_eq_ofDigitChars_zero]
  rfl

theorem ofDigits_zeros (n : Nat) : ofDigits (List.replicate n '0') = 0 := by
  induction n with
  | zero => rfl
  | succ n ih => rw [List.replicate_succ', ofDigits_append, ih]; rfl

theorem ofDigits_lt {cs : List Char} (h : ∀ c ∈ cs, isDigit c = true) :
    ofDigits cs < 10 ^ cs.length := by
  induction cs using List.reverseRecOn with
  | nil => decide
  | append_singleton cs c ih =>
    have hc := h c (by simp)
    have hlt := ih fun d hd => h d (by simp [hd])
    have hvalue : ofDigits [c] < 10 := by
      simp only [isDigit, Bool.and_eq_true, decide_eq_true_eq] at hc
      have : c.toNat ≤ 57 := hc.2
      simp only [ofDigits, List.foldl_cons, List.foldl_nil, digitValue]
      omega
    rw [ofDigits_append, List.length_append, List.length_singleton, Nat.pow_add, Nat.pow_one]
    omega

/-- A zero in front would leave fewer digits than the number has. -/
theorem head_digits_ne_zero {n : Nat} (hn : 0 < n) : (digits n).head? ≠ some '0' := by
  intro hhead
  obtain ⟨ds, hds⟩ : ∃ ds, digits n = '0' :: ds := by
    cases hd : digits n with
    | nil => rw [hd] at hhead; cases hhead
    | cons d ds => rw [hd] at hhead; cases hhead; exact ⟨ds, rfl⟩
  have hall : ∀ c ∈ ds, isDigit c = true := fun c hc =>
    isDigit_of_mem_digits (hds ▸ List.mem_cons_of_mem _ hc)
  have hvalue : n = ofDigits ds := by
    rw [← ofDigits_digits n, hds, ← List.singleton_append, ofDigits_append]
    exact Nat.zero_add _
  have hpow := pow_le_of_length_digits hn
  rw [hds, List.length_cons, Nat.add_sub_cancel] at hpow
  exact absurd (ofDigits_lt hall) (Nat.not_lt.2 (hvalue ▸ hpow))

theorem pos_of_length_digits {n : Nat} (h : (digits n).length ≠ 1) : 0 < n :=
  Nat.pos_of_ne_zero fun hn => h (by rw [hn]; rfl)

/-! ## Whole numbers that are written -/

/-- Of so few digits that it is written, and read, as a whole number. -/
def Brief (n : Int) : Prop := n.natAbs < 10 ^ maxRun

theorem brief_zero : Brief 0 := Nat.pow_pos (by decide)

theorem brief_of_natAbs_le {m n : Int} (h : Brief n) (hm : m.natAbs ≤ n.natAbs) : Brief m :=
  Nat.lt_of_le_of_lt hm h

theorem brief_neg {n : Int} : Brief (-n) ↔ Brief n := by
  rw [Brief, Int.natAbs_neg, Brief]

theorem brief_natAbs {n : Int} : Brief n.natAbs ↔ Brief n := by
  rw [Brief, Int.natAbs_natCast, Brief]

theorem ofInt?_eq_some_iff {n : Int} {cs : List Char} :
    ofInt? n = some cs ↔
      Brief n ∧ cs = if n < 0 then '-' :: digits n.natAbs else digits n.natAbs := by
  have hlength : ¬maxRun < (digits n.natAbs).length ↔ Brief n :=
    Nat.not_lt.trans (length_digits_le_iff (by decide))
  simp only [ofInt?]
  split
  next h => exact ⟨fun hn => (nomatch hn), fun hn => absurd h (hlength.2 hn.1)⟩
  next h => exact ⟨fun hn => ⟨hlength.1 h, (Option.some.inj hn).symm⟩, fun hn => hn.2 ▸ rfl⟩

end TokenNet.Decimal
