import TokenNet.Proofs.Checking
/-!
What every declaration has that was checked, `Declaration.Proper`: one entry under each key, counts
that are not negative, positive weights, doubles for coordinates.  Main statement:
`Declaration.proper_of_ofDatum`.
-/

namespace TokenNet

namespace Check

open Checked

variable {α β : Type} {check : Check α} {P : α → Prop}

/-- Whatever the check lets pass has the property. -/
def Ensures (check : Check α) (P : α → Prop) : Prop :=
  ∀ (o : Origin) (d : Datum) (a : α), check o d = ok a → P a

theorem Ensures.each (h : Ensures check P) {o : Origin} {i : Nat} {items : List Datum}
    {as : List α} (hok : each (check o) i items = ok as) : ∀ a ∈ as, P a := by
  rw [each_eq_ok] at hok
  intro a ha
  have hmem : (ok a : Checked α) ∈ items.map (check o) := hok ▸ List.mem_map_of_mem ha
  obtain ⟨d, -, hd⟩ := List.mem_map.1 hmem
  exact h o d a hd

theorem Ensures.list (h : Ensures check P) :
    Ensures (Check.list check) fun as => ∀ a ∈ as, P a := by
  intro o d as hok
  unfold Check.list at hok
  split at hok
  · exact h.each hok
  · exact h.each hok
  · cases hok

theorem Ensures.entries (h : Ensures check P) {o : Origin} {es : List (Datum × Datum)}
    {as : List (String × α)} (hok : entries check o es = ok as) : ∀ e ∈ as, P e.2 := by
  induction es generalizing as with
  | nil =>
    rw [Check.entries] at hok
    cases hok
    exact fun e he => absurd he List.not_mem_nil
  | cons e rest ih =>
    obtain ⟨k, v⟩ := e
    rw [Check.entries, seq_eq_ok] at hok
    obtain ⟨f, as', hf, hrest, rfl⟩ := hok
    obtain ⟨entry, hentry, rfl⟩ := map_eq_ok.1 hf
    rw [Check.entry, seq_eq_ok] at hentry
    obtain ⟨g, a, hg, ha, rfl⟩ := hentry
    obtain ⟨key, -, rfl⟩ := map_eq_ok.1 hg
    exact List.forall_mem_cons.2 ⟨h o v a (under_eq_ok.1 ha), ih hrest⟩

/-- A table has one entry under each key. -/
theorem Ensures.table (h : Ensures check P) :
    Ensures (Check.table check) fun t => (Table.keys t).Nodup ∧ ∀ e ∈ t, P e.2 := by
  intro o d t hok
  unfold Check.table at hok
  split at hok
  next es =>
    obtain ⟨as, has, rfl⟩ := map_eq_ok.1 hok
    refine ⟨Table.nodup_keys_foldl_insert (t := []) List.nodup_nil as, fun e he => ?_⟩
    rcases Table.mem_foldl_insert he with hnil | hmem
    · exact absurd hnil List.not_mem_nil
    · exact h.entries has e hmem
  next => cases hok

theorem Ensures.field (h : Ensures check P) {fs : Fields} {name : String} {default a : α}
    (hdefault : P default) (hok : fs.field name default check = ok a) : P a := by
  unfold Fields.field at hok
  split at hok
  · cases hok
    exact hdefault
  · exact h _ _ _ (under_eq_ok.1 hok)

theorem Ensures.required (h : Ensures check P) {fs : Fields} {name : String} {a : α}
    (hok : fs.required name check = ok a) : P a := by
  unfold Fields.required at hok
  split at hok
  · cases hok
  · exact h _ _ _ (under_eq_ok.1 hok)

theorem ensures_record {check : Fields → Checked α} (h : ∀ fs a, check fs = ok a → P a) :
    Ensures (record check) P := by
  intro o d a hok
  unfold record at hok
  split at hok
  · exact h _ a hok
  · cases hok

theorem ensures_natural : Ensures natural fun n => 0 ≤ n := by
  intro o d n hok
  unfold natural at hok
  split at hok
  · split at hok
    next hn =>
      cases hok
      exact hn
    next => cases hok
  · cases hok

theorem ensures_positive : Ensures positive fun n => 0 < n := by
  intro o d n hok
  unfold positive at hok
  split at hok
  · split at hok
    next hn =>
      cases hok
      exact hn
    next => cases hok
  · cases hok

end Check

namespace Declaration

open Checked Check

/-- A coordinate as it is checked: a double, or the zero that stands for one left out. -/
def Coordinate (d : Datum) : Prop := d = .int 0 ∨ ∃ x, d = .float x

/-- What every declaration has that was checked. -/
structure Proper (d : Declaration) : Prop where
  placeKeys : (Table.keys d.places).Nodup
  transitionKeys : (Table.keys d.transitions).Nodup
  initial : ∀ e ∈ d.places, 0 ≤ e.2.initial
  capacity : ∀ e ∈ d.places, 0 ≤ e.2.capacity
  weight : ∀ arc ∈ d.arcs, 0 < arc.weight
  positions : ∀ e ∈ d.places, Coordinate e.2.position.x ∧ Coordinate e.2.position.y
  positions' : ∀ e ∈ d.transitions, Coordinate e.2.position.x ∧ Coordinate e.2.position.y

theorem ensures_coordinate : Ensures coordinate Coordinate := by
  intro o d a hok
  obtain ⟨x, -, rfl⟩ := map_eq_ok.1 hok
  exact .inr ⟨x, rfl⟩

theorem ensures_position : Ensures position fun p => Coordinate p.x ∧ Coordinate p.y := by
  refine ensures_record fun fs p hok => ?_
  obtain ⟨f, y, hf, hy, rfl⟩ := seq_eq_ok.1 hok
  obtain ⟨x, hx, rfl⟩ := map_eq_ok.1 hf
  exact ⟨ensures_coordinate.field (.inl rfl) hx, ensures_coordinate.field (.inl rfl) hy⟩

theorem ensures_place : Ensures place fun p =>
    0 ≤ p.initial ∧ 0 ≤ p.capacity ∧ Coordinate p.position.x ∧ Coordinate p.position.y := by
  refine ensures_record fun fs p hok => ?_
  simp only [seq_eq_ok, map_eq_ok] at hok
  obtain ⟨_, offset, ⟨_, position, ⟨_, capacity, ⟨_, initial, ⟨label, -, rfl⟩, hinitial, rfl⟩,
    hcapacity, rfl⟩, hposition, rfl⟩, -, rfl⟩ := hok
  exact ⟨ensures_natural.field (Int.le_refl 0) hinitial,
    ensures_natural.field (Int.le_refl 0) hcapacity,
    ensures_position.field ⟨.inl rfl, .inl rfl⟩ hposition⟩

theorem ensures_transition : Ensures transition fun t =>
    Coordinate t.position.x ∧ Coordinate t.position.y := by
  refine ensures_record fun fs t hok => ?_
  simp only [seq_eq_ok, map_eq_ok] at hok
  obtain ⟨_, guards, ⟨_, delta, ⟨_, position, ⟨_, role, ⟨label, -, rfl⟩, -, rfl⟩, hposition, rfl⟩,
    -, rfl⟩, -, rfl⟩ := hok
  exact ensures_position.field ⟨.inl rfl, .inl rfl⟩ hposition

theorem ensures_arc : Ensures arc fun a => 0 < a.weight := by
  refine ensures_record fun fs a hok => ?_
  simp only [seq_eq_ok, map_eq_ok] at hok
  obtain ⟨_, inhibit, ⟨_, weight, ⟨_, target, ⟨source, -, rfl⟩, -, rfl⟩, hweight, rfl⟩, -, rfl⟩ :=
    hok
  exact ensures_positive.field Int.one_pos hweight

theorem ensures_check : Ensures check Proper := by
  refine ensures_record fun fs d hok => ?_
  simp only [seq_eq_ok, map_eq_ok] at hok
  obtain ⟨_, arcs, ⟨_, transitions, ⟨_, places, ⟨_, version, ⟨_, discipline, ⟨schema, -, rfl⟩, -,
    rfl⟩, -, rfl⟩, hplaces, rfl⟩, htransitions, rfl⟩, harcs, rfl⟩ := hok
  have hp := ensures_place.table.field
    ⟨show (Table.keys ([] : Table String PlaceEntry)).Nodup from List.nodup_nil,
      fun _ he => absurd he List.not_mem_nil⟩ hplaces
  have ht := ensures_transition.table.field
    ⟨show (Table.keys ([] : Table String TransitionEntry)).Nodup from List.nodup_nil,
      fun _ he => absurd he List.not_mem_nil⟩ htransitions
  have ha := ensures_arc.list.field (fun _ ha => absurd ha List.not_mem_nil) harcs
  exact ⟨hp.1, ht.1, fun e he => (hp.2 e he).1, fun e he => (hp.2 e he).2.1, ha,
    fun e he => (hp.2 e he).2.2, ht.2⟩

/-- Wherever a declaration is read from, it was checked. -/
theorem proper_of_ofDatum {g : Glossary} {d : Datum} {decl : Declaration}
    (h : ofDatum g d = ok decl) : decl.Proper := by
  have htext : ∀ s, ofText g s = ok decl → decl.Proper := by
    intro s hs
    unfold ofText at hs
    split at hs
    · exact ensures_check _ _ _ hs
    · cases hs
  unfold ofDatum at h
  split at h
  · exact htext _ h
  · split at h
    · exact htext _ h
    · cases h
  · exact ensures_check _ _ _ h

end Declaration

end TokenNet
