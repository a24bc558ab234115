import TokenNet.Proofs.Act
import TokenNet.Proofs.Offsets
/-!
The order in which places are listed.  Where every place has an offset, the offsets alone say how
the places are laid out, so a declaration whose places are listed in another order is laid out the
same, or is refused as well.  Main statement: `Declaration.load_relisted`.
-/

namespace TokenNet

namespace Declaration

open Act

variable {decl : Declaration} {places places' : Table String PlaceEntry}
  {laid laid' : List (String × PlaceEntry)}

/-- Every entry that is laid out stands at its own offset. -/
theorem Laid.getElem? (h : Laid places laid) {e : String × PlaceEntry} (he : e ∈ places) {o : Int}
    (ho : e.2.offset = some o) : ∃ i : Nat, o = i ∧ laid[i]? = some e := by
  obtain ⟨i, hi⟩ := List.mem_iff_getElem?.1 (h.perm.mem_iff.2 he)
  exact ⟨i, h.offsets i e o hi ho, hi⟩

/-- Offsets leave no choice: entries that all have one are laid out in one way only. -/
theorem Laid.unique (h : Laid places laid) (h' : Laid places' laid') (hp : places'.Perm places)
    (hgiven : ∀ e ∈ places, e.2.offset ≠ none) : laid' = laid := by
  have hlength : laid'.length = laid.length := by
    rw [h'.perm.length_eq, hp.length_eq, h.perm.length_eq]
  refine (List.ext_getElem? fun i => ?_).symm
  cases hi : laid[i]? with
  | none =>
    rw [List.getElem?_eq_none_iff] at hi
    exact (List.getElem?_eq_none (hlength ▸ hi)).symm
  | some e =>
    have he : e ∈ places := h.perm.mem_iff.1 (List.mem_of_getElem? hi)
    obtain ⟨o, ho⟩ := Option.ne_none_iff_exists'.1 (hgiven e he)
    obtain ⟨j, hj, hget⟩ := h'.getElem? (hp.mem_iff.2 he) ho
    have hij : i = j := Int.ofNat.inj ((h.offsets i e o hi ho).symm.trans hj)
    rw [hij, hget]

theorem Numbered.perm (h : Numbered places) (hp : places'.Perm places) : Numbered places' := by
  rcases h with hnone | hdense
  · exact .inl fun e he => hnone e (hp.mem_iff.1 he)
  · rw [← hp.length_eq] at hdense
    exact .inr ((hp.map fun e => e.2.offset).trans hdense)

/-- The places are laid out the same, or are refused, however they are listed. -/
theorem orderedPlaces_relisted (hgiven : ∀ e ∈ decl.places, e.2.offset ≠ none)
    (hp : places.Perm decl.places) :
    { decl with places }.orderedPlaces = decl.orderedPlaces ∨
      ∃ e e', decl.orderedPlaces = .error e ∧ { decl with places }.orderedPlaces = .error e' := by
  have hfits : Labelled PlaceEntry.label places ∧ Numbered places ↔
      Labelled PlaceEntry.label decl.places ∧ Numbered decl.places :=
    and_congr (forall_congr' fun e => imp_congr_left hp.mem_iff)
      ⟨fun h => h.perm hp.symm, fun h => h.perm hp⟩
  rcases orderedPlaces_cases decl with ⟨hlabels, hnumbered, laid, hok, hlaid⟩ | ⟨hno, e, herr, -⟩
  · rcases orderedPlaces_cases { decl with places } with ⟨-, -, laid', hok', hlaid'⟩ | ⟨hno', -⟩
    · rw [hok, hok', hlaid.unique hlaid' hp hgiven]
      exact .inl rfl
    · exact absurd (hfits.2 ⟨hlabels, hnumbered⟩) hno'
  · rcases orderedPlaces_cases { decl with places } with ⟨hlabels', hnumbered', -⟩ |
      ⟨-, e', herr', -⟩
    · exact absurd (hfits.1 ⟨hlabels', hnumbered'⟩) hno
    · exact .inr ⟨e, e', herr, herr'⟩

/-- Of its places a declaration uses the order in which they are laid out and nothing else. -/
theorem load_congr (h : { decl with places }.orderedPlaces = decl.orderedPlaces) (form : Form)
    (self : Nat) (overrides : Overrides) :
    { decl with places }.load form self overrides = decl.load form self overrides := by
  have hnodes : declareNodes { decl with places } = declareNodes decl := by
    rw [declareNodes, declareNodes, h]
  have hdeclare : form.declare { decl with places } = form.declare decl := by
    cases form with
    | arcs => simp only [Form.declare, arcForm, hnodes]
    | object => simp only [Form.declare, objectForm, hnodes]
  rw [load, load, hdeclare]
  rfl

/-- Places that cannot be laid out keep a declaration from being loaded. -/
theorem load_of_misplaced {e : Failure} (h : decl.orderedPlaces = .error e) (form : Form)
    (self : Nat) (overrides : Overrides) (net : Net) :
    (decl.load form self overrides).1 ≠ .ok net := by
  have hnodes : ∀ d : Draft, apply (declareNodes decl) d = (.error e, d) := by
    intro d
    rw [declareNodes, apply_bind, h]
    rfl
  have hdeclare : ∀ d : Draft, apply (form.declare decl) d = (.error e, d) := by
    intro d
    cases form with
    | arcs => rw [Form.declare, arcForm, apply_bind, hnodes]
    | object => rw [Form.declare, objectForm, apply_bind, hnodes]
  rw [load]
  cases decl.openDraft self overrides with
  | error _ =>
    intro hok
    cases hok
  | ok d =>
    have hrun := hdeclare d
    rw [apply] at hrun
    simp only [hrun]
    intro hok
    cases hok

/-- Where every place has an offset, the order in which places are listed does not matter.  Listed in
any other order, the declaration loads exactly if it did before, in either form and whatever is
overridden; and then to the same net, with the same notes. -/
theorem load_relisted (hgiven : ∀ e ∈ decl.places, e.2.offset ≠ none)
    (hp : places.Perm decl.places) (form : Form) (self : Nat) (overrides : Overrides) :
    ((∃ net, ({ decl with places }.load form self overrides).1 = .ok net) ↔
        ∃ net, (decl.load form self overrides).1 = .ok net) ∧
      ∀ net, (decl.load form self overrides).1 = .ok net →
        { decl with places }.load form self overrides = decl.load form self overrides := by
  rcases orderedPlaces_relisted hgiven hp with h | ⟨e, e', herr, herr'⟩
  · rw [load_congr h]
    exact ⟨Iff.rfl, fun _ _ => rfl⟩
  · have hno := load_of_misplaced herr form self overrides
    have hno' := load_of_misplaced herr' form self overrides
    exact ⟨iff_of_false (fun ⟨net, h⟩ => hno' net h) fun ⟨net, h⟩ => hno net h,
      fun net h => absurd h (hno net)⟩

end Declaration

/-! ## A canal that is listed twice -/

namespace Canal

def upper : String × PlaceEntry := ("upper", { initial := 4, offset := some 0 })

def lock : String × PlaceEntry := ("lock", { capacity := 1, offset := some 1 })

def lower : String × PlaceEntry := ("lower", { offset := some 2 })

/-- The vectors are those of the arcs, entry by entry in the order of the offsets. -/
def declaration : Declaration where
  schema := some "canal"
  places := [lower, upper, lock]
  transitions := [("fill", {
    delta := some [-1, 1, 0]
    guards := [("lower", { delta := [0, 0, -3] })] })]
  arcs := [{ source := "upper", target := "fill" }, { source := "fill", target := "lock" },
    { source := "lower", target := "fill", weight := 3, inhibit := true }]

/-- The same places the other way round. -/
def relisted : Declaration := { declaration with places := [lock, upper, lower] }

theorem numbered : ∀ e ∈ declaration.places, e.2.offset ≠ none := by
  simp [declaration, upper, lock, lower]

theorem perm_relisted : relisted.places.Perm declaration.places :=
  List.reverse_perm [lower, upper, lock]

/-- What loading the canal comes to. -/
def Loads (form : Declaration.Form) (d : Declaration) : Prop :=
  ∃ net, (d.load form 0 {}).1 = .ok net ∧ net.initialVector = [4, 0, 0] ∧
    net.transitions.map Transition.delta = [[-1, 1, 0]]

theorem loads (form : Declaration.Form) : Loads form declaration := by
  have hloads : (declaration.load form 0 {}).1.map
      (fun net => (net.initialVector, net.transitions.map Transition.delta)) =
        .ok ([4, 0, 0], [[-1, 1, 0]]) := by
    cases form <;> rfl
  cases h : (declaration.load form 0 {}).1 with
  | error e =>
    rw [h] at hloads
    cases hloads
  | ok net =>
    rw [h] at hloads
    exact ⟨net, h, Prod.mk.inj (Except.ok.inj hloads)⟩

end Canal

namespace Declaration

open Canal

/-- In both forms the canal loads from either list, to one net whose upper basin comes first. -/
theorem load_canal : (∀ e ∈ declaration.places, e.2.offset ≠ none) ∧
    relisted.places.Perm declaration.places ∧ Loads .arcs relisted ∧ Loads .object relisted ∧
    relisted.load .arcs 0 {} = declaration.load .arcs 0 {} ∧
    relisted.load .object 0 {} = declaration.load .object 0 {} := by
  obtain ⟨net, hnet, hvectors⟩ := loads .arcs
  obtain ⟨net', hnet', hvectors'⟩ := loads .object
  have harcs : relisted.load .arcs 0 {} = declaration.load .arcs 0 {} :=
    (load_relisted numbered perm_relisted .arcs 0 {}).2 net hnet
  have hobject : relisted.load .object 0 {} = declaration.load .object 0 {} :=
    (load_relisted numbered perm_relisted .object 0 {}).2 net' hnet'
  exact ⟨numbered, perm_relisted, ⟨net, harcs ▸ hnet, hvectors⟩, ⟨net', hobject ▸ hnet', hvectors'⟩,
    harcs, hobject⟩

end Declaration

end TokenNet
