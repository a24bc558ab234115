import TokenNet.Net.Compile
import TokenNet.Proofs.Tables
/-!
What compiling gives: the vectors of a compiled net fit its places, whether they come from arcs or
came with the net.  A guard that fits is an inhibitor on one place, and `Inhibits` names its place,
its offset and its weight.
-/

namespace TokenNet

namespace Net

/-- Every delta has an entry for each place, and every guard is one the check lets pass. -/
structure VectorsFit (net : Net) : Prop where
  delta : ∀ t ∈ net.transitions, t.delta.length = net.size
  guards : ∀ t ∈ net.transitions, ∀ key guard, (key, guard) ∈ t.guards →
    net.guardFits key guard = true

/-- The transition is inhibited by a place, which stands at the offset `i`, with the weight `w`. -/
structure Inhibits (net : Net) (t : Transition) (place : String) (i : Nat) (w : Int) : Prop where
  guard : ∃ guard, (place, guard) ∈ t.guards ∧ guard.label = place ∧
    guard.delta = net.emptyVector.set i (-w)
  offset : net.offset? place = some i
  positive : 0 < w

theorem offset_lt {net : Net} {label : String} {i : Nat} (h : net.offset? label = some i) :
    i < net.size := by
  obtain ⟨hi, -⟩ := List.findIdx?_eq_some_iff_getElem.1 h
  exact hi

/-- What the check lets pass, entry by entry. -/
theorem guardFits_iff_entries {net : Net} {key : String} {guard : Guard} :
    net.guardFits key guard = true ↔ ∃ i, net.offset? guard.label = some i ∧ key = guard.label ∧
      guard.delta.length = net.size ∧
      ∀ (j : Nat) (n : Int), guard.delta[j]? = some n → if j = i then n < 0 else n = 0 := by
  unfold guardFits
  cases ho : net.offset? guard.label with
  | none => simp
  | some i =>
    simp only [Bool.and_eq_true, decide_eq_true_eq, List.all_eq_true, Option.some.injEq,
      exists_eq_left', and_assoc]
    refine and_congr_right fun _ => and_congr_right fun _ => ?_
    have htest : ∀ (n : Int) (j : Nat),
        (if j = i then decide (n < 0) else decide (n = 0)) = true ↔
          if j = i then n < 0 else n = 0 := by
      intro n j
      split <;> exact decide_eq_true_iff
    constructor
    · exact fun hall j n hj => (htest n j).1 (hall (n, j) (List.mem_zipIdx_iff_getElem?.2 hj))
    · rintro hall ⟨n, j⟩ hmem
      exact (htest n j).2 (hall j n (List.mem_zipIdx_iff_getElem?.1 hmem))

theorem guardFits_iff {net : Net} {key : String} {guard : Guard} :
    net.guardFits key guard = true ↔ ∃ i w, net.offset? guard.label = some i ∧ key = guard.label ∧
      0 < w ∧ guard.delta = net.emptyVector.set i (-w) := by
  rw [guardFits_iff_entries]
  refine exists_congr fun i => ⟨?_, ?_⟩
  · rintro ⟨ho, hkey, hlen, hall⟩
    have hi : i < guard.delta.length := hlen ▸ offset_lt ho
    refine ⟨-guard.delta[i], ho, hkey, ?_, List.ext_getElem (by simp [hlen]) fun j hj _ => ?_⟩
    · have hneg := hall i guard.delta[i] (List.getElem?_eq_getElem hi)
      simp only [if_true] at hneg
      omega
    · have hentry := hall j guard.delta[j] (List.getElem?_eq_getElem hj)
      by_cases hji : j = i
      · subst hji
        simp
      · rw [List.getElem_set_ne (Ne.symm hji)]
        simpa [hji, emptyVector, Vec.zeros] using hentry
  · rintro ⟨w, ho, hkey, hw, hdelta⟩
    refine ⟨ho, hkey, by simp [hdelta], fun j n hj => ?_⟩
    rw [hdelta] at hj
    by_cases hji : j = i
    · subst hji
      rw [List.getElem?_set_self (by simpa using offset_lt ho)] at hj
      rw [if_pos rfl, ← Option.some.inj hj]
      omega
    · rw [List.getElem?_set_ne (Ne.symm hji)] at hj
      rw [if_neg hji]
      exact (List.mem_replicate.1 (List.mem_of_getElem? hj)).2

theorem VectorsFit.length_guard {net : Net} (h : net.VectorsFit) {t : Transition}
    (ht : t ∈ net.transitions) {key : String} {guard : Guard} (hg : (key, guard) ∈ t.guards) :
    guard.delta.length = net.size := by
  obtain ⟨_, -, -, hlen, -⟩ := guardFits_iff_entries.1 (h.guards t ht key guard hg)
  exact hlen

/-! ## Compiling -/

theorem guardFits_congr {net net' : Net} (h : net'.places = net.places) (key : String)
    (guard : Guard) : net'.guardFits key guard = net.guardFits key guard := by
  unfold guardFits offset? size
  rw [h]

theorem VectorsFit.congr {net net' : Net} (h : net.VectorsFit) (hp : net'.places = net.places)
    (ht : net'.transitions = net.transitions) : net'.VectorsFit := by
  refine ⟨fun t hmem => ?_, fun t hmem key guard hg => ?_⟩
  · simpa [size, hp] using h.delta t (ht ▸ hmem)
  · rw [guardFits_congr hp]
    exact h.guards t (ht ▸ hmem) key guard hg

theorem vectorsFit_cleared (net : Net) : net.cleared.VectorsFit := by
  refine ⟨fun t ht => ?_, fun t ht key guard hg => ?_⟩
  · obtain ⟨t', -, rfl⟩ := List.mem_map.1 ht
    exact length_emptyVector net
  · obtain ⟨t', -, rfl⟩ := List.mem_map.1 ht
    simp at hg

theorem link?_eq_some {net : Net} {arc : Arc} {link : Link} (h : net.link? arc = some link) :
    arc.weight.positive? = some link.weight ∧ net.offset? link.place = some link.offset := by
  obtain ⟨weight, hw, h⟩ := Option.bind_eq_some_iff.1 h
  obtain ⟨⟨kind, place, transition⟩, -, h⟩ := Option.bind_eq_some_iff.1 h
  obtain ⟨offset, ho, h⟩ := Option.bind_eq_some_iff.1 h
  obtain ⟨t, -, h⟩ := Option.bind_eq_some_iff.1 h
  cases h
  exact ⟨hw, ho⟩

theorem vectorsFit_attach {net : Net} {link : Link} (h : net.VectorsFit)
    (ho : net.offset? link.place = some link.offset) (hw : 0 < link.weight) :
    (net.attach link).VectorsFit := by
  refine ⟨fun t ht => ?_, fun t ht key guard hg => ?_⟩
  · obtain ⟨t', ht', rfl⟩ := List.mem_map.1 ht
    have hlen := h.delta t' ht'
    split
    · cases link.kind <;> simpa [size] using hlen
    · exact hlen
  · obtain ⟨t', ht', rfl⟩ := List.mem_map.1 ht
    rw [guardFits_congr (places_attach net link)]
    split at hg
    · cases hk : link.kind <;> simp only [hk] at hg
      case inhibitor =>
        rcases Table.mem_insert hg with he | hg
        · cases he
          exact guardFits_iff.2 ⟨link.offset, link.weight, ho, rfl, hw, rfl⟩
        · exact h.guards t' ht' key guard hg
      all_goals exact h.guards t' ht' key guard hg
    · exact h.guards t' ht' key guard hg

theorem vectorsFit_attachArcs {net : Net} (h : net.VectorsFit) (i : Nat) (arcs : List Arc) :
    (net.attachArcs i arcs).1.VectorsFit := by
  induction arcs generalizing net i with
  | nil => exact h
  | cons arc rest ih =>
    simp only [attachArcs]
    split
    next link hl =>
      obtain ⟨hw, ho⟩ := link?_eq_some hl
      exact ih (vectorsFit_attach h ho (Datum.positive?_eq_some.1 hw).2) (i + 1)
    next => exact ih h (i + 1)

theorem vectorsFit_of_vectorFlaws {net : Net} (h : net.transitions.flatMap net.vectorFlaws = []) :
    net.VectorsFit := by
  rw [List.flatMap_eq_nil_iff] at h
  refine ⟨fun t ht => ?_, fun t ht key guard hg => ?_⟩
  · have hf := (List.append_eq_nil_iff.1 (h t ht)).1
    split at hf
    next hlen => exact hlen
    next => cases hf
  · have hf := (List.append_eq_nil_iff.1 (h t ht)).2
    have hk := List.filterMap_eq_nil_iff.1 hf (key, guard) hg
    simp only at hk
    split at hk
    next hfits => exact hfits
    next => cases hk

theorem vectorFlaws_of_vectorsFit {net : Net} (h : net.VectorsFit) :
    net.transitions.flatMap net.vectorFlaws = [] := by
  refine List.flatMap_eq_nil_iff.2 fun t ht => List.append_eq_nil_iff.2 ⟨if_pos (h.delta t ht), ?_⟩
  exact List.filterMap_eq_nil_iff.2 fun e he => if_pos (h.guards t ht e.1 e.2 he)

/-- A net without arcs passes exactly if its vectors fit. -/
theorem index_of_not_hasArcs {net : Net} (h : net.hasArcs = false) :
    net.index.1 = { net with indexed := net.index.2.isEmpty } ∧
      (net.index.2 = [] ↔ net.VectorsFit) := by
  have hindex : net.index =
      ({ net with indexed := net.vectorFindings.isEmpty }, net.vectorFindings) := by
    rw [index, h]
    rfl
  rw [hindex, vectorFindings, List.map_eq_nil_iff]
  exact ⟨rfl, vectorsFit_of_vectorFlaws, vectorFlaws_of_vectorsFit⟩

theorem index_fits {net : Net} (h : net.index.2 = []) :
    net.index.1.indexed = true ∧ net.index.1.VectorsFit := by
  refine ⟨by rw [indexed_index, h]; rfl, ?_⟩
  have harcs := vectorsFit_attachArcs (vectorsFit_cleared net) 0 net.arcs
  cases ha : net.hasArcs with
  | true =>
    simp only [index, ha, if_true]
    exact harcs.congr rfl rfl
  | false =>
    obtain ⟨hfst, hsnd⟩ := index_of_not_hasArcs ha
    rw [hfst]
    exact (hsnd.1 h).congr rfl rfl

end Net

end TokenNet
