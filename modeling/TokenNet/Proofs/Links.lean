import TokenNet.Proofs.Compile
/-!
Compiling, transition by transition.  An arc list comes down to the links that its well-formed arcs
say, and each transition takes these in turn, whatever the others take: `Net.attachArcs_fst` and,
for the whole net, `Net.index_fst`.  Nothing but vectors changes, and from these two equations
follows what a change elsewhere in the net can do to them.
-/

namespace TokenNet

namespace Transition

/-- The transition with one link of its net compiled into it; the links of others leave it alone. -/
def joined (zeros : Vec) (t : Transition) (link : Link) : Transition :=
  if t.label = link.transition then
    match link.kind with
    | .input => { t with delta := t.delta.set link.offset (-link.weight) }
    | .output => { t with delta := t.delta.set link.offset link.weight }
    | .inhibitor =>
      let delta := zeros.set link.offset (-link.weight)
      { t with guards := t.guards.insert link.place { label := link.place, delta } }
  else t

def cleared (zeros : Vec) (t : Transition) : Transition :=
  { t with delta := zeros, truths := [], guards := [] }

/-- What compiling makes of a transition. -/
def compiled (zeros : Vec) (links : List Link) (t : Transition) : Transition :=
  links.foldl (joined zeros) (t.cleared zeros)

@[simp] theorem label_joined (zeros : Vec) (t : Transition) (link : Link) :
    (t.joined zeros link).label = t.label := by
  unfold joined
  split
  · cases link.kind <;> rfl
  · rfl

@[simp] theorem label_foldl_joined (zeros : Vec) (links : List Link) (t : Transition) :
    (links.foldl (joined zeros) t).label = t.label := by
  induction links generalizing t with
  | nil => rfl
  | cons link rest ih => rw [List.foldl_cons, ih, label_joined]

@[simp] theorem label_compiled (zeros : Vec) (links : List Link) (t : Transition) :
    (t.compiled zeros links).label = t.label :=
  label_foldl_joined zeros links _

@[simp] theorem cleared_joined (zeros : Vec) (t : Transition) (link : Link) (zeros' : Vec) :
    (t.joined zeros link).cleared zeros' = t.cleared zeros' := by
  unfold joined
  split
  · cases link.kind <;> rfl
  · rfl

/-- Compiling starts afresh, so it does not matter what was compiled before. -/
@[simp] theorem compiled_compiled (zeros zeros' : Vec) (links links' : List Link) (t : Transition) :
    (t.compiled zeros links).compiled zeros' links' = t.compiled zeros' links' := by
  have hcleared : ∀ (links : List Link) (s : Transition),
      (links.foldl (joined zeros) s).cleared zeros' = s.cleared zeros' := by
    intro links
    induction links with
    | nil => exact fun _ => rfl
    | cons link rest ih => exact fun s => (ih _).trans (cleared_joined zeros s link zeros')
  rw [compiled, compiled, hcleared]
  rfl

/-- A guard is known by its place, and neither it nor the transition was given truth values. -/
structure Whole (t : Transition) : Prop where
  truths : t.truths = []
  distinct : (Table.keys t.guards).Nodup
  guards : ∀ key guard, (key, guard) ∈ t.guards → guard.label = key ∧ guard.truths = []

theorem whole_cleared (zeros : Vec) (t : Transition) : (t.cleared zeros).Whole :=
  ⟨rfl, List.nodup_nil, fun _ _ h => absurd h List.not_mem_nil⟩

theorem Whole.joined {zeros : Vec} {t : Transition} (h : t.Whole) (link : Link) :
    (t.joined zeros link).Whole := by
  unfold Transition.joined
  split
  · cases link.kind with
    | input => exact ⟨h.truths, h.distinct, h.guards⟩
    | output => exact ⟨h.truths, h.distinct, h.guards⟩
    | inhibitor =>
      refine ⟨h.truths, Table.nodup_keys_insert h.distinct _ _, fun key guard hg => ?_⟩
      rcases Table.mem_insert hg with he | hg
      · cases he
        exact ⟨rfl, rfl⟩
      · exact h.guards key guard hg
  · exact h

theorem whole_compiled (zeros : Vec) (links : List Link) (t : Transition) :
    (t.compiled zeros links).Whole := by
  unfold compiled
  generalize hs : t.cleared zeros = start
  have h : start.Whole := hs ▸ whole_cleared zeros t
  clear hs
  induction links generalizing start with
  | nil => exact h
  | cons link rest ih => exact ih _ (h.joined link)

end Transition

namespace Net

/-! ## What a link needs of its net -/

theorem isSome_place? {net : Net} {label : String} :
    (net.place? label).isSome = true ↔ label ∈ net.places.map Place.label := by
  simp only [place?, List.find?_isSome, decide_eq_true_eq, List.mem_map]

theorem isSome_transition? {net : Net} {label : String} :
    (net.transition? label).isSome = true ↔ label ∈ net.transitions.map Transition.label := by
  simp only [transition?, List.find?_isSome, decide_eq_true_eq, List.mem_map]

theorem offset?_eq (net : Net) (label : String) :
    net.offset? label = (net.places.map Place.label).findIdx? fun l => decide (l = label) := by
  simp only [offset?, List.findIdx?_map, Function.comp_def]

theorem getElem?_of_offset? {net : Net} {label : String} {i : Nat}
    (h : net.offset? label = some i) : (net.places.map Place.label)[i]? = some label := by
  rw [offset?_eq, List.findIdx?_eq_some_iff_getElem] at h
  obtain ⟨hlt, hlabel, -⟩ := h
  exact List.getElem?_eq_some_iff.2 ⟨hlt, of_decide_eq_true hlabel⟩

theorem joint?_eq_some {arc : Arc} {kind : LinkKind} {place transition : String} :
    joint? arc = some (kind, place, transition) ↔
      (kind = .inhibitor ∧ arc.inhibit.truthy = true ∧ arc.source = .place place ∧
          arc.target = .transition transition) ∨
        (kind = .input ∧ arc.inhibit.truthy = false ∧ arc.source = .place place ∧
          arc.target = .transition transition) ∨
        (kind = .output ∧ arc.inhibit.truthy = false ∧ arc.source = .transition transition ∧
          arc.target = .place place) := by
  unfold joint?
  cases arc.inhibit.truthy <;> cases arc.source <;> cases arc.target <;>
    simp [eq_comm, and_comm, and_assoc]

/-- An arc says a link if it has that weight and shape, and both labels are declared. -/
theorem link?_eq_some_iff {net : Net} {arc : Arc} {link : Link} :
    net.link? arc = some link ↔ arc.weight.positive? = some link.weight ∧
      joint? arc = some (link.kind, link.place, link.transition) ∧
      net.offset? link.place = some link.offset ∧
      link.transition ∈ net.transitions.map Transition.label := by
  rw [← isSome_transition?]
  constructor
  · intro h
    obtain ⟨weight, hw, h⟩ := Option.bind_eq_some_iff.1 h
    obtain ⟨⟨kind, place, transition⟩, hj, h⟩ := Option.bind_eq_some_iff.1 h
    obtain ⟨offset, ho, h⟩ := Option.bind_eq_some_iff.1 h
    obtain ⟨t, ht, h⟩ := Option.bind_eq_some_iff.1 h
    cases h
    exact ⟨hw, hj, ho, by rw [ht]; rfl⟩
  · rintro ⟨hw, hj, ho, ht⟩
    obtain ⟨t, ht⟩ := Option.isSome_iff_exists.1 ht
    simp [link?, hw, hj, ho, ht]

/-- Of a net's nodes the links need their labels, and of its places the order too. -/
theorem link?_congr {net net' : Net} (hp : net'.places.map Place.label = net.places.map Place.label)
    (ht : net'.transitions.map Transition.label = net.transitions.map Transition.label)
    (arc : Arc) : net'.link? arc = net.link? arc := by
  refine Option.ext fun link => ?_
  rw [link?_eq_some_iff, link?_eq_some_iff, offset?_eq, offset?_eq, hp, ht]

theorem isSome_link? {net : Net} {arc : Arc} :
    (net.link? arc).isSome = true ↔ ∃ weight kind place transition,
      arc.weight.positive? = some weight ∧ joint? arc = some (kind, place, transition) ∧
        place ∈ net.places.map Place.label ∧ transition ∈ net.transitions.map Transition.label := by
  constructor
  · intro h
    obtain ⟨link, h⟩ := Option.isSome_iff_exists.1 h
    obtain ⟨hw, hj, ho, ht⟩ := link?_eq_some_iff.1 h
    refine ⟨_, _, _, _, hw, hj, ?_, ht⟩
    obtain ⟨hi, hl, -⟩ := List.findIdx?_eq_some_iff_getElem.1 ho
    exact List.mem_map.2 ⟨_, List.getElem_mem hi, by simpa using hl⟩
  · rintro ⟨weight, kind, place, transition, hw, hj, hp, ht⟩
    have ho : (net.offset? place).isSome = true := by
      simpa only [offset?, List.findIdx?_isSome, List.any_eq_true, decide_eq_true_eq,
        List.mem_map] using hp
    obtain ⟨offset, ho⟩ := Option.isSome_iff_exists.1 ho
    have hlink : net.link? arc = some ⟨kind, place, offset, transition, weight⟩ :=
      link?_eq_some_iff.2 ⟨hw, hj, ho, ht⟩
    rw [hlink]
    rfl

/-- What the well-formed arcs of the net say, in their order. -/
def links (net : Net) : List Link := net.arcs.filterMap net.link?

/-! ## Compiling as a map over the transitions -/

theorem attach_eq (net : Net) (link : Link) :
    net.attach link = { net with
      transitions := net.transitions.map fun t => t.joined net.emptyVector link } := rfl

theorem link?_attach (net : Net) (link : Link) : (net.attach link).link? = net.link? := by
  have ht : (net.attach link).transitions.map Transition.label =
      net.transitions.map Transition.label := by simp [attach_eq, Function.comp_def]
  exact funext (link?_congr rfl ht)

theorem link?_cleared (net : Net) : net.cleared.link? = net.link? := by
  have ht : net.cleared.transitions.map Transition.label =
      net.transitions.map Transition.label := by simp [cleared, Function.comp_def]
  have hp : net.cleared.places.map Place.label = net.places.map Place.label := rfl
  exact funext (link?_congr hp ht)

theorem attachArcs_fst (net : Net) (i : Nat) (arcs : List Arc) :
    (net.attachArcs i arcs).1 = { net with
      transitions := net.transitions.map fun t =>
        (arcs.filterMap net.link?).foldl (Transition.joined net.emptyVector) t } := by
  induction arcs generalizing net i with
  | nil => simp [attachArcs]
  | cons arc rest ih =>
    simp only [attachArcs]
    cases hl : net.link? arc with
    | none => simp only [ih, List.filterMap_cons, hl]
    | some link =>
      simp only [ih, link?_attach, List.filterMap_cons, hl, List.foldl_cons]
      simp only [attach_eq, List.map_map, Function.comp_def]
      rfl

theorem attachArcs_snd_eq_nil {net : Net} {i : Nat} {arcs : List Arc} :
    (net.attachArcs i arcs).2 = [] ↔ ∀ arc ∈ arcs, (net.link? arc).isSome = true := by
  induction arcs generalizing net i with
  | nil => simp [attachArcs]
  | cons arc rest ih =>
    simp only [attachArcs, List.forall_mem_cons]
    cases hl : net.link? arc with
    | none => simp
    | some link =>
      simp only [ih, link?_attach, Option.isSome_some, true_and]

/-- A net with arcs compiles without a finding if all of its arcs link. -/
theorem index_snd_eq_nil {net : Net} (h : net.hasArcs = true) :
    net.index.2 = [] ↔ ∀ arc ∈ net.arcs, (net.link? arc).isSome = true := by
  simp only [index, h, if_true]
  rw [attachArcs_snd_eq_nil, link?_cleared]

theorem index_fst {net : Net} (h : net.hasArcs = true) :
    net.index.1 = { net with
      transitions := net.transitions.map (Transition.compiled net.emptyVector net.links)
      indexed := net.index.2.isEmpty } := by
  simp only [index, h, if_true, attachArcs_fst, link?_cleared]
  simp only [cleared, List.map_map, Function.comp_def]
  rfl

theorem links_index (net : Net) : net.index.1.links = net.links := by
  cases h : net.hasArcs with
  | true =>
    have ht : net.index.1.transitions.map Transition.label =
        net.transitions.map Transition.label := by rw [index_fst h]; simp [Function.comp_def]
    have hlinks : net.index.1.link? = net.link? :=
      funext (link?_congr (by rw [places_index]) ht)
    rw [links, hlinks, index_fst h]
    rfl
  | false =>
    simp only [index, h, Bool.false_eq_true, if_false]
    rfl

/-- Every transition of a compiled net is what compiling the net again makes of it. -/
theorem compiled_of_mem_index {net : Net} (h : net.hasArcs = true) {t : Transition}
    (ht : t ∈ net.index.1.transitions) :
    t.compiled net.index.1.emptyVector net.index.1.links = t := by
  have hzeros : net.index.1.emptyVector = net.emptyVector := by
    rw [emptyVector, size, places_index]
    rfl
  rw [hzeros, links_index]
  rw [index_fst h] at ht
  obtain ⟨t', -, rfl⟩ := List.mem_map.1 ht
  exact Transition.compiled_compiled _ _ _ _ _

end Net

end TokenNet
