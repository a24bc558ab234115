import Mathlib.Tactic.SplitIfs
import TokenNet.Json.Token
import TokenNet.Json.Writer
/-!
Strings in JSON text.  What is written for a character reads back as that character, whether it
stands for itself, is named by a letter or goes out as one unit or two.  So a string reads back up
to the quote that closes it: `pieces_flatMap_escapeChar`.
-/

namespace TokenNet.Json

/-! ## Units -/

theorem hexValue?_hexDigit : ∀ d < 16, hexValue? (Text.hexDigit d) = some d := by decide

theorem unit?_hex {n : Nat} (h : n < 0x10000) :
    ∃ a b c d, Text.hex 4 n = [a, b, c, d] ∧ unit? a b c d = some n := by
  refine ⟨_, _, _, _, rfl, ?_⟩
  simp only [unit?, hexValue?_hexDigit _ (Nat.mod_lt _ (by decide))]
  simp only [Option.bind_eq_bind, Option.bind_some, Option.pure_def, Option.some.injEq]
  omega

/-! ## Pieces one by one -/

theorem pieces_char {c : Char} (hquote : c ≠ '"') (hslash : c ≠ '\\') (hc : 0x20 ≤ c.toNat)
    (rest : List Char) : pieces (c :: rest) = (pieces rest).map (onto (.char c)) := by
  rw [pieces.eq_def]
  dsimp only
  rw [if_neg hquote, if_neg hslash, if_neg (Nat.not_lt.2 hc)]
  cases pieces rest <;> rfl

theorem pieces_short {e c : Char} (he : e ≠ 'u') (h : shortEscape? e = some c)
    (rest : List Char) : pieces ('\\' :: e :: rest) = (pieces rest).map (onto (.char c)) := by
  rw [pieces.eq_def]
  dsimp only
  rw [if_neg (by decide), if_pos rfl, if_neg he, h]
  cases pieces rest <;> rfl

theorem pieces_unitEscape {n : Nat} (hn : n < 0x10000) (rest : List Char) :
    pieces (unitEscape n ++ rest) = (pieces rest).map (onto (.unit n)) := by
  obtain ⟨a, b, c, d, hhex, hunit⟩ := unit?_hex hn
  simp only [unitEscape, hhex, List.cons_append, List.nil_append]
  rw [pieces.eq_def]
  dsimp only
  rw [if_neg (by decide), if_pos rfl, if_pos rfl, hunit]
  cases pieces rest <;> rfl

theorem toNat_scalar (c : Char) :
    ¬(0xD800 ≤ c.toNat ∧ c.toNat < 0xE000) ∧ c.toNat < 0x110000 := by
  have h := c.valid
  unfold UInt32.isValidChar Nat.isValidChar at h
  unfold Char.toNat
  omega

theorem assemble_char (c : Char) (ps : List Piece) :
    assemble (.char c :: ps) = (assemble ps).map (c :: ·) := by
  rw [assemble]
  cases assemble ps <;> rfl

/-- A character is no half of a pair. -/
theorem assemble_unit {c : Char} (ps : List Piece) :
    assemble (.unit c.toNat :: ps) = (assemble ps).map (c :: ·) := by
  have hscalar := (toNat_scalar c).1
  have hhigh : isHighUnit c.toNat = false := by
    simp only [isHighUnit, Bool.and_eq_false_iff, decide_eq_false_iff_not]
    omega
  have hlow : isLowUnit c.toNat = false := by
    simp only [isLowUnit, Bool.and_eq_false_iff, decide_eq_false_iff_not]
    omega
  rw [assemble.eq_def]
  dsimp only
  rw [hhigh, hlow, Char.ofNat_toNat]
  cases assemble ps <;> rfl

theorem assemble_pair {c : Char} (hc : 0x10000 ≤ c.toNat) (ps : List Piece) :
    assemble (.unit (0xD800 + (c.toNat - 0x10000) / 0x400) ::
        .unit (0xDC00 + (c.toNat - 0x10000) % 0x400) :: ps) =
      (assemble ps).map (c :: ·) := by
  have hlt := (toNat_scalar c).2
  have hhigh : isHighUnit (0xD800 + (c.toNat - 0x10000) / 0x400) = true := by
    simp only [isHighUnit, Bool.and_eq_true, decide_eq_true_eq]
    omega
  have hlow : isLowUnit (0xDC00 + (c.toNat - 0x10000) % 0x400) = true := by
    simp only [isLowUnit, Bool.and_eq_true, decide_eq_true_eq]
    omega
  have hvalue : 0x10000 + (0xD800 + (c.toNat - 0x10000) / 0x400 - 0xD800) * 0x400 +
      (0xDC00 + (c.toNat - 0x10000) % 0x400 - 0xDC00) = c.toNat := by omega
  rw [assemble.eq_def]
  dsimp only
  rw [hhigh, if_pos rfl, hlow, if_pos rfl, hvalue, Char.ofNat_toNat]
  cases assemble ps <;> rfl

/-! ## Strings -/

/-- Pieces that are put together to the text `cs`, whatever follows them. -/
def Spells (ps : List Piece) (cs : List Char) : Prop :=
  ∀ more, assemble (ps ++ more) = (assemble more).map (cs ++ ·)

theorem pieces_escapeChar (c : Char) :
    ∃ ps, Spells ps [c] ∧ ∀ rest, pieces (escapeChar c ++ rest) =
      (pieces rest).map fun r => (ps ++ r.1, r.2) := by
  have hshort : ∀ {e : Char}, e ≠ 'u' → shortEscape? e = some c →
      ∃ ps, Spells ps [c] ∧ ∀ rest, pieces (['\\', e] ++ rest) =
        (pieces rest).map fun r => (ps ++ r.1, r.2) := fun he hc =>
    ⟨[.char c], assemble_char c, pieces_short he hc⟩
  unfold escapeChar
  split_ifs with hself hn hr ht hf hb hplain hunit
  · refine hshort ?_ ?_ <;> rcases hself with rfl | rfl <;> decide
  · exact hshort (by decide) (hn ▸ rfl)
  · exact hshort (by decide) (hr ▸ rfl)
  · exact hshort (by decide) (ht ▸ rfl)
  · exact hshort (by decide) (hf ▸ rfl)
  · exact hshort (by decide) (hb ▸ rfl)
  · rw [not_or] at hself
    exact ⟨[.char c], assemble_char c, pieces_char hself.1 hself.2 hplain.1⟩
  · exact ⟨[.unit c.toNat], assemble_unit, pieces_unitEscape hunit⟩
  · have hlt := (toNat_scalar c).2
    refine ⟨[.unit (0xD800 + (c.toNat - 0x10000) / 0x400),
      .unit (0xDC00 + (c.toNat - 0x10000) % 0x400)], assemble_pair (by omega), fun rest => ?_⟩
    dsimp only
    rw [List.append_assoc, pieces_unitEscape (by omega), pieces_unitEscape (by omega),
      Option.map_map]
    rfl

theorem pieces_flatMap_escapeChar (cs rest : List Char) :
    ∃ ps, pieces (cs.flatMap escapeChar ++ '"' :: rest) = some (ps, rest) ∧
      assemble ps = some cs := by
  induction cs with
  | nil => exact ⟨[], by rw [List.flatMap_nil, List.nil_append, pieces.eq_def]; rfl, rfl⟩
  | cons c cs ih =>
    obtain ⟨ps, hpieces, hps⟩ := ih
    obtain ⟨ps', hspells, hread⟩ := pieces_escapeChar c
    refine ⟨ps' ++ ps, ?_, ?_⟩
    · rw [List.flatMap_cons, List.append_assoc, hread, hpieces]
      rfl
    · rw [hspells, hps]
      rfl

end TokenNet.Json
