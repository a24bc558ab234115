import TokenNet.Json.Token
import TokenNet.Json.Writer
import TokenNet.Proofs.Decimals
/-!
Numbers in JSON text.  A number that is written reads back as it was, and reading stops where its
text ends, whatever stands behind: `number?_writeInt` and `number?_ofBinary64`.
-/

namespace TokenNet.Json

open Decimal

/-- No digit comes first. -/
def NoDigit (rest : List Char) : Prop := ∀ c, rest.head? = some c → isDigit c = false

/-- Nothing comes first that a number could go on with. -/
structure Ends (rest : List Char) : Prop where
  digit : NoDigit rest
  mark : rest.head? ≠ some '.'
  lower : rest.head? ≠ some 'e'
  upper : rest.head? ≠ some 'E'

theorem span_digits {ds rest : List Char} (hds : ∀ c ∈ ds, isDigit c = true) (hr : NoDigit rest) :
    (ds ++ rest).takeWhile isDigit = ds ∧ (ds ++ rest).dropWhile isDigit = rest := by
  rw [List.takeWhile_append_of_pos hds, List.dropWhile_append_of_pos hds]
  cases rest with
  | nil => simp
  | cons c rest => simp [hr c rfl]

/-! ## The parts of a number -/

/-- Digits that may stand in front of a fraction mark. -/
structure Leading (ds : List Char) : Prop where
  digits : ∀ c ∈ ds, isDigit c = true
  ne_nil : ds ≠ []
  head : ds.length ≠ 1 → ds.head? ≠ some '0'
  short : ds.length ≤ maxRun

theorem fraction?_none {cs : List Char} (h : cs.head? ≠ some '.') :
    fraction? cs = some (none, cs) := by
  unfold fraction?
  split
  · exact absurd rfl h
  · rfl

theorem fraction?_mark {ds rest : List Char} (hds : ∀ c ∈ ds, isDigit c = true) (hne : ds ≠ [])
    (hr : NoDigit rest) : fraction? ('.' :: (ds ++ rest)) = some (some ds, rest) := by
  obtain ⟨htake, hdrop⟩ := span_digits hds hr
  simp only [fraction?, htake, hdrop, List.isEmpty_iff, hne, if_false]

theorem exponent?_none {cs : List Char} (h : cs.head? ≠ some 'e') (h' : cs.head? ≠ some 'E') :
    exponent? cs = some (none, cs) := by
  cases cs with
  | nil => rfl
  | cons c rest =>
    have hc : ¬(c = 'e' ∨ c = 'E') := by
      rintro (rfl | rfl)
      · exact h rfl
      · exact h' rfl
    simp only [exponent?, hc, if_false]

theorem exponent?_exponentText (e : Int) {rest : List Char} (hr : NoDigit rest) :
    exponent? (exponentText e ++ rest) = some (some e, rest) := by
  obtain ⟨ds, hds, hne, hvalue, htext⟩ : ∃ ds : List Char, (∀ c ∈ ds, isDigit c = true) ∧
      ds ≠ [] ∧ ofDigits ds = e.natAbs ∧
        exponentText e = 'e' :: (if e < 0 then '-' else '+') :: ds := by
    have hdigits : ∀ c ∈ digits e.natAbs, isDigit c = true := fun c hc => isDigit_of_mem_digits hc
    by_cases hlength : (digits e.natAbs).length < 2
    · refine ⟨'0' :: digits e.natAbs, List.forall_mem_cons.2 ⟨rfl, hdigits⟩, by simp, ?_, ?_⟩
      · rw [← List.singleton_append, ofDigits_append, ofDigits_digits]
        exact Nat.zero_add _
      · simp only [exponentText, hlength, if_true]
    · refine ⟨digits e.natAbs, hdigits, List.length_pos_iff.1 (length_digits_pos _),
        ofDigits_digits _, ?_⟩
      simp only [exponentText, hlength, if_false]
  obtain ⟨htake, hdrop⟩ := span_digits hds hr
  rw [htext]
  by_cases he : e < 0
  · simp [exponent?, he, htake, hdrop, hne, hvalue, abs_of_neg he]
  · simp [exponent?, he, htake, hdrop, hne, hvalue, abs_of_nonneg (not_lt.1 he)]

/-- A number from its parts. -/
theorem magnitude?_parts {whole cs cs' rest : List Char} {fraction : Option (List Char)}
    {exponent : Option Int} (hw : Leading whole) (hcs : NoDigit cs)
    (hf : fraction? cs = some (fraction, cs')) (he : exponent? cs' = some (exponent, rest))
    (negative : Bool) :
    magnitude? negative (whole ++ cs) =
      some (if fraction.isNone && exponent.isNone then
          .int (if negative then -(ofDigits whole : Int) else ofDigits whole)
        else .float (toBinary64 negative (ofDigits (whole ++ fraction.getD []))
          (exponent.getD 0 - (fraction.getD []).length)), rest) := by
  obtain ⟨htake, hdrop⟩ := span_digits hw.digits hcs
  have hhead : (whole.isEmpty || (decide (whole.length ≠ 1) && decide (whole.head? = some '0'))) =
      false := by
    simp only [Bool.or_eq_false_iff, Bool.and_eq_false_iff, List.isEmpty_eq_false_iff,
      decide_eq_false_iff_not]
    exact ⟨hw.ne_nil, Decidable.or_iff_not_imp_left.2 fun h => hw.head (Decidable.not_not.1 h)⟩
  have hshort : ¬maxRun < whole.length := Nat.not_lt.2 hw.short
  simp only [magnitude?, htake, hdrop, hhead, hshort, hf, Bool.false_eq_true, if_false,
    Option.bind_eq_bind, Option.bind_some, he]
  split <;> rfl

theorem leading_digits {n : Nat} (h : (digits n).length ≤ maxRun) : Leading (digits n) where
  digits := fun _ hc => isDigit_of_mem_digits hc
  ne_nil := List.length_pos_iff.1 (length_digits_pos n)
  head := fun hne => head_digits_ne_zero (pos_of_length_digits hne)
  short := h

theorem leading_digit {c : Char} (h : isDigit c = true) : Leading [c] where
  digits := by simpa using h
  ne_nil := List.cons_ne_nil c []
  head := fun hne => absurd rfl hne
  short := Nat.le_of_ble_eq_true rfl

theorem noDigit_mark (cs : List Char) : NoDigit ('.' :: cs) := by
  rintro c ⟨⟩
  rfl

theorem noDigit_exponentText (e : Int) (cs : List Char) : NoDigit (exponentText e ++ cs) := by
  rintro c ⟨⟩
  rfl

section Forms

variable {whole ds rest : List Char} (hw : Leading whole) (hds : ∀ c ∈ ds, isDigit c = true)
  (hne : ds ≠ []) (negative : Bool)

include hw in
theorem magnitude?_whole (hr : Ends rest) :
    magnitude? negative (whole ++ rest) =
      some (.int (if negative then -(ofDigits whole : Int) else ofDigits whole), rest) :=
  magnitude?_parts hw hr.digit (fraction?_none hr.mark) (exponent?_none hr.lower hr.upper) negative

include hw hds hne in
theorem magnitude?_mark (hr : Ends rest) :
    magnitude? negative (whole ++ '.' :: (ds ++ rest)) =
      some (.float (toBinary64 negative (ofDigits (whole ++ ds)) (-(ds.length : Int))), rest) := by
  rw [magnitude?_parts hw (noDigit_mark _) (fraction?_mark hds hne hr.digit)
    (exponent?_none hr.lower hr.upper)]
  simp

include hw in
theorem magnitude?_exponent (e : Int) (hr : NoDigit rest) :
    magnitude? negative (whole ++ (exponentText e ++ rest)) =
      some (.float (toBinary64 negative (ofDigits whole) e), rest) := by
  rw [magnitude?_parts hw (noDigit_exponentText e rest) (fraction?_none (by simp [exponentText]))
    (exponent?_exponentText e hr)]
  simp

include hw hds hne in
theorem magnitude?_mark_exponent (e : Int) (hr : NoDigit rest) :
    magnitude? negative (whole ++ '.' :: (ds ++ (exponentText e ++ rest))) =
      some (.float (toBinary64 negative (ofDigits (whole ++ ds)) (e - ds.length)), rest) := by
  rw [magnitude?_parts hw (noDigit_mark _)
    (fraction?_mark hds hne (noDigit_exponentText e rest)) (exponent?_exponentText e hr)]
  simp

end Forms

/-! ## The text of a double -/

/-- The digits with zeros behind them, up to the mark. -/
theorem leading_padded {c n : Nat} (hzero : c = 0 → n = 0)
    (hshort : (digits c).length + n ≤ maxRun) : Leading (digits c ++ List.replicate n '0') where
  digits := by
    simp only [List.mem_append, List.mem_replicate]
    rintro d (hd | ⟨-, rfl⟩)
    · exact isDigit_of_mem_digits hd
    · rfl
  ne_nil := by simp [List.length_pos_iff.1 (length_digits_pos c)]
  head := by
    intro hne
    rw [List.head?_append_of_ne_nil _ (List.length_pos_iff.1 (length_digits_pos c))]
    refine head_digits_ne_zero (Nat.pos_of_ne_zero fun hc => hne ?_)
    rw [hc, hzero hc]
    rfl
  short := by rwa [List.length_append, List.length_replicate]

/-- The first of the digits, up to the mark. -/
theorem leading_take {c n : Nat} (hn : n + 1 < (digits c).length) (hshort : n + 1 ≤ maxRun) :
    Leading ((digits c).take (n + 1)) where
  digits := fun _ hd => isDigit_of_mem_digits (List.mem_of_mem_take hd)
  ne_nil := by
    rw [← List.length_pos_iff, List.length_take]
    omega
  head := by
    intro _
    rw [List.head?_take, if_neg (Nat.succ_ne_zero n)]
    exact head_digits_ne_zero (pos_of_length_digits (by omega))
  short := (List.length_take_le _ _).trans hshort

section Layouts

variable {c n : Nat} {rest : List Char}

theorem magnitude?_padded (hzero : c = 0 → n = 0) (hshort : (digits c).length + n ≤ maxRun)
    (hr : Ends rest) (negative : Bool) :
    magnitude? negative (digits c ++ List.replicate n '0' ++ ['.', '0'] ++ rest) =
      some (.float (toBinary64 negative c n), rest) := by
  have hvalue : toBinary64 negative (ofDigits (digits c ++ List.replicate n '0' ++ ['0']))
      (-(['0'].length : Int)) = toBinary64 negative c n := by
    refine toBinary64_congr negative ?_
    rw [ofDigits_append, ofDigits_append, ofDigits_zeros, ofDigits_digits,
      List.length_replicate, show ofDigits ['0'] = 0 from rfl]
    simp only [List.length_singleton, zpow_neg, zpow_natCast]
    push_cast
    field_simp
    ring
  rw [List.append_assoc, List.cons_append, magnitude?_mark (leading_padded hzero hshort)
    (List.forall_mem_singleton.2 rfl) (List.cons_ne_nil _ _) negative hr, hvalue]

theorem magnitude?_cut (hn : n + 1 < (digits c).length) (hshort : n + 1 ≤ maxRun)
    (hr : Ends rest) (negative : Bool) :
    magnitude? negative ((digits c).take (n + 1) ++ '.' :: (digits c).drop (n + 1) ++ rest) =
      some (.float (toBinary64 negative c (n + 1 - (digits c).length)), rest) := by
  have hexponent : -(((digits c).drop (n + 1)).length : Int) = n + 1 - (digits c).length := by
    rw [List.length_drop]
    omega
  have hne : (digits c).drop (n + 1) ≠ [] := by
    rw [← List.length_pos_iff, List.length_drop]
    omega
  rw [List.append_assoc, List.cons_append, magnitude?_mark (leading_take hn hshort)
    (fun d hd => isDigit_of_mem_digits (List.mem_of_mem_drop hd)) hne negative hr,
    List.take_append_drop, ofDigits_digits, hexponent]

theorem magnitude?_below (c n : Nat) (hr : Ends rest) (negative : Bool) :
    magnitude? negative ('0' :: '.' :: List.replicate n '0' ++ digits c ++ rest) =
      some (.float (toBinary64 negative c (-n - (digits c).length)), rest) := by
  have hexponent : -((List.replicate n '0' ++ digits c).length : Int) =
      -n - (digits c).length := by
    rw [List.length_append, List.length_replicate]
    omega
  have hall : ∀ d ∈ List.replicate n '0' ++ digits c, isDigit d = true := by
    simp only [List.mem_append, List.mem_replicate]
    rintro d (⟨-, rfl⟩ | hd)
    · rfl
    · exact isDigit_of_mem_digits hd
  have hvalue : ofDigits (['0'] ++ (List.replicate n '0' ++ digits c)) = c := by
    rw [← List.append_assoc, ofDigits_append, ofDigits_append, ofDigits_zeros, ofDigits_digits]
    exact Nat.zero_add c
  have hmark := magnitude?_mark (leading_digit (show isDigit '0' = true from rfl)) hall
    (by simp [List.length_pos_iff.1 (length_digits_pos c)]) negative hr
  rw [hvalue, hexponent] at hmark
  exact hmark

/-- One digit, whether or not there are more behind a mark, and an exponent. -/
theorem magnitude?_scientific (c : Nat) (lead : Int) (hr : Ends rest) (negative : Bool) :
    magnitude? negative ((match digits c with
      | [d] => d :: exponentText lead
      | d :: more => d :: '.' :: more ++ exponentText lead
      | [] => []) ++ rest) =
      some (.float (toBinary64 negative c (lead + 1 - (digits c).length)), rest) := by
  have hdigits : ∀ d ∈ digits c, isDigit d = true := fun _ hd => isDigit_of_mem_digits hd
  split
  next d hd =>
    have hvalue : ofDigits [d] = c := by rw [← hd, ofDigits_digits]
    have hexponent := magnitude?_exponent (leading_digit (hdigits d (by simp [hd]))) negative lead
      hr.digit
    rw [hvalue] at hexponent
    simpa [hd] using hexponent
  next d more hne hd =>
    have hlead : lead + 1 - ((d :: more).length : Int) = lead - more.length := by
      rw [List.length_cons]
      omega
    have hvalue : ofDigits ([d] ++ more) = c := by
      rw [List.singleton_append, ← hd, ofDigits_digits]
    have hmark := magnitude?_mark_exponent (leading_digit (hdigits d (by simp [hd])))
      (fun d' hd' => hdigits d' (by simp [hd, hd'])) hne negative lead hr.digit
    rw [hvalue, ← hlead] at hmark
    simpa [hd] using hmark
  next hd => exact absurd hd (List.length_pos_iff.1 (length_digits_pos c))

end Layouts

/-- A coefficient of zero stands for zero alone, and then without an exponent. -/
theorem magnitude?_layout {c : Nat} {e : Int} (hzero : c = 0 → e = 0) {rest : List Char}
    (hr : Ends rest) (negative : Bool) :
    magnitude? negative (layout c e ++ rest) = some (.float (toBinary64 negative c e), rest) := by
  have hrun : maxRun = 4300 := rfl
  have hlength := length_digits_pos c
  generalize hlead : e + (digits c).length - 1 = lead
  simp only [layout, hlead]
  split
  next hrange =>
    split
    next he =>
      obtain ⟨n, rfl⟩ := Int.eq_ofNat_of_zero_le he
      exact magnitude?_padded (fun hc => by simpa using hzero hc) (by omega) hr negative
    next he =>
      split
      next h0 =>
        obtain ⟨n, rfl⟩ := Int.eq_ofNat_of_zero_le h0
        have hexponent : (n : Int) + 1 - (digits c).length = e := by omega
        exact hexponent ▸ magnitude?_cut (by omega) (by omega) hr negative
      next h0 =>
        have hexponent : -((-lead - 1).toNat : Int) - (digits c).length = e := by omega
        exact hexponent ▸ magnitude?_below c (-lead - 1).toNat hr negative
  next hrange =>
    have hexponent : lead + 1 - (digits c).length = e := by omega
    exact hexponent ▸ magnitude?_scientific c lead hr negative

/-! ## Numbers with their sign -/

theorem digit_of_magnitude? {negative : Bool} {cs : List Char} {r : Datum × List Char}
    (h : magnitude? negative cs = some r) : ∃ c rest, cs = c :: rest ∧ isDigit c = true := by
  have hwhole : cs.takeWhile isDigit ≠ [] := by
    intro hnil
    simp [magnitude?, hnil] at h
  cases cs with
  | nil => exact absurd rfl hwhole
  | cons c rest =>
    refine ⟨c, rest, rfl, ?_⟩
    by_contra hc
    exact hwhole (by simp [hc])

theorem number?_of_magnitude? {cs : List Char} {r : Datum × List Char}
    (h : magnitude? false cs = some r) : number? cs = some r := by
  obtain ⟨c, rest, rfl, hc⟩ := digit_of_magnitude? h
  unfold number?
  split
  next heq =>
    cases heq
    cases hc
  next => exact h

theorem number?_writeInt {n : Int} {cs rest : List Char} (h : writeInt n = .ok cs)
    (hr : Ends rest) : number? (cs ++ rest) = some (.int n, rest) := by
  have hof : ofInt? n = some cs := by
    unfold writeInt at h
    split at h
    next cs' hcs => cases h; exact hcs
    next => cases h
  obtain ⟨hbrief, rfl⟩ := ofInt?_eq_some_iff.1 hof
  have hread := fun negative => magnitude?_whole
    (leading_digits ((length_digits_le_iff (by decide)).2 hbrief)) negative hr
  simp only [ofDigits_digits] at hread
  split
  next hn =>
    refine (hread true).trans ?_
    rw [if_pos rfl, show -(n.natAbs : Int) = n by omega]
  next hn =>
    rw [number?_of_magnitude? (hread false), if_neg Bool.false_ne_true,
      show (n.natAbs : Int) = n by omega]

theorem number?_ofBinary64 {x : Binary64} (hx : x.isFinite = true) {rest : List Char}
    (hr : Ends rest) : number? (ofBinary64 numberStyle x ++ rest) = some (.float x, rest) := by
  have hnan : x.isNan = false := by simp [Binary64.isNan, hx]
  have hinf : x.isInfinite = false := by simp [Binary64.isInfinite, hx]
  have hread := magnitude?_layout (shortest_of_coefficient_eq_zero hx) hr x.negative
  rw [toBinary64_shortest hx] at hread
  simp only [ofBinary64, hnan, hinf, Bool.false_eq_true, if_false]
  by_cases hsign : x.negative = true
  · rw [if_pos hsign]
    rw [hsign] at hread
    exact hread
  · rw [if_neg hsign]
    rw [Bool.eq_false_iff.2 hsign] at hread
    exact number?_of_magnitude? hread

end TokenNet.Json
