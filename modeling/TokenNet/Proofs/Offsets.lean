import Mathlib.Data.List.Perm.Basic
import TokenNet.Declaration.Load
/-!
The order in which declared places are laid out.  Main statement: `Declaration.orderedPlaces_cases`.
Offsets are taken if no place has one, or if they are `0, 1, …` in some order; the places then stand
in the order in which they are listed, or each at its offset.
-/

namespace TokenNet

namespace Declaration

/-- No place has an offset, or the offsets are `0, 1, …` in some order. -/
def Numbered (places : Table String PlaceEntry) : Prop :=
  (∀ e ∈ places, e.2.offset = none) ∨
    (places.map fun e => e.2.offset).Perm
      ((List.range places.length).map fun i : Nat => some (Int.ofNat i))

/-- A label that is given is the key under which it stands. -/
def Labelled {α : Type} (label : α → Option String) (t : Table String α) : Prop :=
  ∀ e ∈ t, ∀ l, label e.2 = some l → l = e.1

/-- The entries in the order of their offsets, or as they are listed if they have none. -/
structure Laid (places laid : List (String × PlaceEntry)) : Prop where
  perm : laid.Perm places
  listed : (∀ e ∈ places, e.2.offset = none) → laid = places
  offsets : ∀ (i : Nat) (e : String × PlaceEntry) (o : Int),
    laid[i]? = some e → e.2.offset = some o → o = i

variable {es : List (String × PlaceEntry)}

theorem misnamed?_eq_none {α : Type} {label : α → Option String} {t : Table String α} :
    misnamed? label t = none ↔ Labelled label t := by
  unfold Labelled
  induction t with
  | nil => simp [misnamed?]
  | cons e rest ih =>
    obtain ⟨key, a⟩ := e
    rw [List.forall_mem_cons, ← ih, misnamed?]
    cases hl : label a with
    | none => simp
    | some l =>
      by_cases hkey : l = key
      · simp [hkey]
      · simp [hkey]

theorem perm_insertByOffset (e : String × PlaceEntry) (es : List (String × PlaceEntry)) :
    (insertByOffset e es).Perm (e :: es) := by
  induction es with
  | nil => exact List.Perm.refl _
  | cons e' rest ih =>
    rw [insertByOffset]
    split
    · exact List.Perm.refl _
    · exact (ih.cons e').trans (List.Perm.swap e e' rest)

theorem sorted_insertByOffset {e : String × PlaceEntry}
    (h : es.Pairwise fun a b => a.2.offset.getD 0 ≤ b.2.offset.getD 0) :
    (insertByOffset e es).Pairwise fun a b => a.2.offset.getD 0 ≤ b.2.offset.getD 0 := by
  induction es with
  | nil => exact List.pairwise_singleton _ e
  | cons e' rest ih =>
    obtain ⟨hle, hrest⟩ := List.pairwise_cons.1 h
    rw [insertByOffset]
    split
    next hlt =>
      refine List.pairwise_cons.2 ⟨fun b hb => ?_, h⟩
      rcases List.mem_cons.1 hb with rfl | hb
      · exact Int.le_of_lt hlt
      · exact Int.le_trans (Int.le_of_lt hlt) (hle b hb)
    next hge =>
      refine List.pairwise_cons.2 ⟨fun b hb => ?_, ih hrest⟩
      rcases List.mem_cons.1 ((perm_insertByOffset e rest).mem_iff.1 hb) with rfl | hb
      · exact Int.not_lt.1 hge
      · exact hle b hb

/-- The induction over the entries that are left: what is laid out already stays in order. -/
theorem foldl_insertByOffset_spec {laid : List (String × PlaceEntry)}
    (h : laid.Pairwise fun a b => a.2.offset.getD 0 ≤ b.2.offset.getD 0)
    (es : List (String × PlaceEntry)) :
    (es.foldl (fun sorted e => insertByOffset e sorted) laid).Perm (es ++ laid) ∧
      (es.foldl (fun sorted e => insertByOffset e sorted) laid).Pairwise
        fun a b => a.2.offset.getD 0 ≤ b.2.offset.getD 0 := by
  induction es generalizing laid with
  | nil => exact ⟨List.Perm.refl _, h⟩
  | cons e rest ih =>
    obtain ⟨hperm, hsorted⟩ := ih (sorted_insertByOffset (e := e) h)
    refine ⟨hperm.trans ?_, hsorted⟩
    exact ((perm_insertByOffset e laid).append_left rest).trans List.perm_middle

theorem perm_sortByOffset (es : List (String × PlaceEntry)) : (sortByOffset es).Perm es := by
  have h := (foldl_insertByOffset_spec List.Pairwise.nil es).1
  rwa [List.append_nil] at h

theorem sorted_sortByOffset (es : List (String × PlaceEntry)) :
    ((sortByOffset es).map fun e => e.2.offset.getD 0).Pairwise (· ≤ ·) :=
  List.pairwise_map.2 (foldl_insertByOffset_spec List.Pairwise.nil es).2

/-- The offsets are dense if they are once they are sorted. -/
theorem dense_sortByOffset (h : ∀ e ∈ es, e.2.offset ≠ none) :
    (sortByOffset es).map (fun e => e.2.offset.getD 0) =
        (List.range (sortByOffset es).length).map Int.ofNat ↔
      (es.map fun e => e.2.offset).Perm
        ((List.range es.length).map fun i : Nat => some (Int.ofNat i)) := by
  have hlength : (sortByOffset es).length = es.length := (perm_sortByOffset es).length_eq
  have hgiven : (es.map fun e => e.2.offset) = (es.map fun e => e.2.offset.getD 0).map some := by
    rw [List.map_map]
    refine List.map_congr_left fun e he => ?_
    obtain ⟨o, ho⟩ := Option.ne_none_iff_exists'.1 (h e he)
    simp [ho]
  have hrange : ((List.range es.length).map fun i : Nat => some (Int.ofNat i)) =
      ((List.range es.length).map Int.ofNat).map some := by
    rw [List.map_map]
    rfl
  have hperm : ((sortByOffset es).map fun e => e.2.offset.getD 0).Perm
      (es.map fun e => e.2.offset.getD 0) := (perm_sortByOffset es).map _
  rw [hlength, hgiven, hrange]
  constructor
  · intro he
    exact (he ▸ hperm.symm).map some
  · intro hp
    have hp' : (es.map fun e => e.2.offset.getD 0).Perm ((List.range es.length).map Int.ofNat) :=
      (List.map_perm_map_iff fun _ _ => Option.some.inj).1 hp
    have hsorted : ((List.range es.length).map Int.ofNat).Pairwise (· ≤ ·) :=
      List.pairwise_map.2 (List.pairwise_le_range.imp fun h => Int.ofNat_le.2 h)
    exact (hperm.trans hp').eq_of_pairwise (fun a b _ _ hab hba => Int.le_antisymm hab hba)
      (sorted_sortByOffset es) hsorted

theorem laid_listed {places : Table String PlaceEntry} (h : ∀ e ∈ places, e.2.offset = none) :
    Laid places places :=
  ⟨List.Perm.refl _, fun _ => rfl, fun i e o hi ho => by
    rw [h e (List.mem_of_getElem? hi)] at ho
    cases ho⟩

theorem laid_sortByOffset {places : Table String PlaceEntry}
    (hgiven : ∃ e ∈ places, e.2.offset ≠ none)
    (h : (sortByOffset places).map (fun e => e.2.offset.getD 0) =
      (List.range (sortByOffset places).length).map Int.ofNat) :
    Laid places (sortByOffset places) := by
  refine ⟨perm_sortByOffset places, fun hnone => ?_, fun i e o hi ho => ?_⟩
  · obtain ⟨e, he, hsome⟩ := hgiven
    exact absurd (hnone e he) hsome
  · have hget : ((sortByOffset places).map fun e => e.2.offset.getD 0)[i]? = some o := by
      rw [List.getElem?_map, hi, Option.map_some, ho, Option.getD_some]
    rw [h, List.getElem?_map] at hget
    obtain ⟨j, hj, rfl⟩ := Option.map_eq_some_iff.1 hget
    obtain ⟨hlt, rfl⟩ := List.getElem?_eq_some_iff.1 hj
    rw [List.getElem_range]
    rfl

/-- What keeps the places of a declaration from being laid out. -/
inductive Misplaced (places : Table String PlaceEntry) : Failure → Prop
  | key {key label : String} : misnamed? PlaceEntry.label places = some (key, label) →
      Misplaced places (.placeKey key label)
  | some : Misplaced places .someOffsets
  | sparse : (∀ e ∈ places, e.2.offset ≠ none) →
      Misplaced places (.sparseOffsets ((sortByOffset places).map fun e => e.2.offset.getD 0))

/-- Places are laid out exactly if labels agree with their keys and offsets are dense, where there
are any. -/
theorem orderedPlaces_cases (d : Declaration) :
    (Labelled PlaceEntry.label d.places ∧ Numbered d.places ∧
        ∃ laid, d.orderedPlaces = .ok laid ∧ Laid d.places laid) ∨
      (¬(Labelled PlaceEntry.label d.places ∧ Numbered d.places) ∧
        ∃ e, d.orderedPlaces = .error e ∧ Misplaced d.places e) := by
  unfold orderedPlaces
  cases hm : misnamed? PlaceEntry.label d.places with
  | some named =>
    refine .inr ⟨fun h => ?_, _, rfl, .key hm⟩
    rw [misnamed?_eq_none.2 h.1] at hm
    cases hm
  | none =>
    have hlabels : Labelled PlaceEntry.label d.places := misnamed?_eq_none.1 hm
    dsimp only
    split
    next hnone =>
      have hnone : ∀ e ∈ d.places, e.2.offset = none := by simpa using hnone
      exact .inl ⟨hlabels, .inl hnone, _, rfl, laid_listed hnone⟩
    next hgiven =>
    have hgiven : ∃ e ∈ d.places, e.2.offset ≠ none := by simpa using hgiven
    split
    next hmixed =>
      obtain ⟨e, he, hnone⟩ : ∃ e ∈ d.places, e.2.offset = none := by simpa using hmixed
      refine .inr ⟨fun h => ?_, _, rfl, .some⟩
      rcases h.2 with hall | hperm
      · obtain ⟨e', he', hsome⟩ := hgiven
        exact hsome (hall e' he')
      · have hmem := hperm.mem_iff.1 (List.mem_map_of_mem he)
        rw [hnone] at hmem
        simp at hmem
    next hall =>
      have hall : ∀ e ∈ d.places, e.2.offset ≠ none := by simpa using hall
      split
      next hdense =>
        exact .inl ⟨hlabels, .inr ((dense_sortByOffset hall).1 hdense), _, rfl,
          laid_sortByOffset hgiven hdense⟩
      next hsparse =>
        refine .inr ⟨fun h => ?_, _, rfl, .sparse hall⟩
        rcases h.2 with hnone | hperm
        · obtain ⟨e, he, hsome⟩ := hgiven
          exact hsome (hnone e he)
        · exact hsparse ((dense_sortByOffset hall).2 hperm)

end Declaration

end TokenNet
