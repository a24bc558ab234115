import TokenNet.Vector
/-!
What the tests on vectors say entry by entry: `within` of a capacity and a count at the same
offset, `elementary` of the marked places, and `clip` of what is cut off.
-/

namespace TokenNet

namespace Vec

def Nonneg (v : Vec) : Prop := ∀ n ∈ v, 0 ≤ n

theorem fits_iff {c n : Int} : fits c n = true ↔ 0 ≤ n ∧ (0 < c → n ≤ c) := by
  simp only [fits, Bool.and_eq_true, Bool.or_eq_true, decide_eq_true_eq]
  omega

theorem within_cons {c n : Int} {cs ns : Vec} :
    within (c :: cs) (n :: ns) = true ↔ (0 ≤ n ∧ (0 < c → n ≤ c)) ∧ within cs ns = true := by
  simp only [within, Bool.and_eq_true, fits_iff]

theorem within_iff {capacity v : Vec} :
    within capacity v = true ↔ capacity.length = v.length ∧
      ∀ (i : Nat) (c n : Int), capacity[i]? = some c → v[i]? = some n →
        0 ≤ n ∧ (0 < c → n ≤ c) := by
  induction capacity generalizing v with
  | nil => cases v <;> simp [within]
  | cons c cs ih =>
    cases v with
    | nil => simp [within]
    | cons n ns =>
      rw [within_cons, ih, List.length_cons, List.length_cons, Nat.add_right_cancel_iff]
      constructor
      · rintro ⟨hhead, hlen, htail⟩
        refine ⟨hlen, fun i c' n' hc hn => ?_⟩
        cases i with
        | zero =>
          simp only [List.getElem?_cons_zero, Option.some.injEq] at hc hn
          exact hc ▸ hn ▸ hhead
        | succ i => exact htail i c' n' (by simpa using hc) (by simpa using hn)
      · rintro ⟨hlen, hall⟩
        exact ⟨hall 0 c n rfl rfl, hlen, fun i c' n' hc hn =>
          hall (i + 1) c' n' (by simpa using hc) (by simpa using hn)⟩

theorem elementary_iff {v : Vec} :
    elementary v = true ↔ (∀ n ∈ v, n ≤ 1) ∧ v.countP (fun n => decide (0 < n)) ≤ 1 := by
  simp [elementary]

/-- Cutting off negative entries leaves the marked places as they are. -/
theorem elementary_clip (v : Vec) : elementary (clip v) = elementary v := by
  have hone : ∀ n : Int, decide (max 0 n ≤ 1) = decide (n ≤ 1) := fun n => by
    simp only [decide_eq_decide]
    omega
  have hpos : ∀ n : Int, decide (0 < max 0 n) = decide (0 < n) := fun n => by
    simp only [decide_eq_decide]
    omega
  simp only [elementary, clip, List.all_map, List.countP_map, Function.comp_def, hone, hpos]

theorem nonneg_of_mem_clip {v : Vec} {n : Int} (h : n ∈ clip v) : 0 ≤ n := by
  obtain ⟨m, -, rfl⟩ := List.mem_map.1 h
  exact Int.le_max_left 0 m

theorem getElem?_moved {state delta : Vec} {k : Int} {i : Nat} {value change : Int}
    (hv : state[i]? = some value) (hd : delta[i]? = some change) :
    (moved state delta k)[i]? = some (value + change * k) := by
  simp [moved, List.getElem?_zipWith, hv, hd]

theorem add?_eq_some {state delta capacity : Vec} {k : Int} {tally : Tally} :
    add? state delta k capacity = some tally ↔
      state.length = delta.length ∧ delta.length = capacity.length ∧
        tally = ⟨moved state delta k, within capacity (moved state delta k)⟩ := by
  unfold add?
  split
  next h => simp [h, eq_comm]
  next h =>
    constructor
    · rintro ⟨⟩
    · rintro ⟨h1, h2, -⟩
      exact absurd ⟨h1, h2⟩ h

end Vec

end TokenNet
