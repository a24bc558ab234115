import TokenNet.Datum.Literal
import TokenNet.Proofs.Digits
/-!
What has a text.  A number has one if it is brief, and a phrase if all of its parts have.
-/

namespace TokenNet

/-! ## Phrases -/

theorem isSome_parts {parts : List Writing} :
    (parts.mapM id).isSome = true ↔ ∀ part ∈ parts, part.isSome = true := by
  induction parts with
  | nil => simp
  | cons part rest ih =>
    rw [List.forall_mem_cons, ← ih, List.mapM_cons]
    cases part <;> cases rest.mapM id <;> simp

theorem isSome_phrase {parts : List Writing} :
    (phrase parts).isSome = true ↔ ∀ part ∈ parts, part.isSome = true := by
  rw [phrase, Option.isSome_map, isSome_parts]

theorem phrase_some (parts : List String) : phrase (parts.map some) = some (String.join parts) := by
  have hparts : (parts.map some).mapM id = some parts := by
    induction parts with
    | nil => rfl
    | cons part rest ih =>
      rw [List.map_cons, List.mapM_cons, ih]
      rfl
  rw [phrase, hparts]
  rfl

/-! ## Numbers -/

theorem isSome_intText_iff {n : Int} : (intText n).isSome = true ↔ Decimal.Brief n := by
  rw [intText, Option.isSome_map, Option.isSome_iff_exists]
  simp only [Decimal.ofInt?_eq_some_iff, exists_and_left]
  exact and_iff_left ⟨_, rfl⟩

theorem isSome_intText {n : Int} (h : Decimal.Brief n) : (intText n).isSome = true :=
  isSome_intText_iff.2 h

theorem isSome_intText_natAbs {n : Int} :
    (intText n.natAbs).isSome = true ↔ Decimal.Brief n := by
  rw [isSome_intText_iff, Decimal.brief_natAbs]

theorem intText_natCast {w : Nat} (h : Decimal.Brief w) :
    intText w = some (String.ofList (Decimal.digits w)) := by
  rw [intText, Decimal.ofInt?_eq_some_iff.2 ⟨h, rfl⟩, if_neg (Int.not_lt.2 (Int.natCast_nonneg w))]
  rfl

theorem isSome_vecText_iff {v : List Int} :
    (vecText v).isSome = true ↔ ∀ n ∈ v, Decimal.Brief n := by
  have hparts : (joinComma (v.map intText)).isSome = true ↔ ∀ n ∈ v, Decimal.Brief n := by
    rw [joinComma, joined, Option.isSome_map, isSome_parts, List.forall_mem_map]
    exact forall₂_congr fun _ _ => isSome_intText_iff
  simp [vecText, bracketed, isSome_phrase, hparts]

end TokenNet
