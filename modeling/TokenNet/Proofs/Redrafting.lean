import TokenNet.Declaration.Load
import TokenNet.Proofs.Export
/-!
Drafting a net again from its own declaration.  Every step goes through: what the steps check was
checked when the net was first drafted.  Nodes come back with doubles for coordinates and without
vectors, `Declaration.apply_declareNodes`, and arcs come back as they were.
-/

namespace TokenNet

/-! ## Nodes as they come back -/

namespace Place

def reread (p : Place) : Place := { p with position := p.position.doubles }

end Place

namespace Transition

def reread (t : Transition) : Transition := { t with position := t.position.doubles }

/-- Before it is compiled. -/
def bare (t : Transition) : Transition :=
  { label := t.label, role := t.role, position := t.position.doubles }

end Transition

/-- The roles that transitions ask for, each where it is first asked for. -/
def rolesOf (ts : List Transition) : List Role :=
  (ts.filterMap Transition.tag?).eraseDups.map fun s => { label := .text s }

theorem rolesOf_append_singleton (ts : List Transition) (t : Transition) :
    rolesOf (ts ++ [t]) = match t.tag? with
      | none => rolesOf ts
      | some s => if s ∈ ts.filterMap Transition.tag? then rolesOf ts
          else rolesOf ts ++ [{ label := .text s }] := by
  cases ht : t.tag? with
  | none => simp only [rolesOf, List.filterMap_append, List.filterMap_cons, ht,
      List.filterMap_nil, List.append_nil]
  | some s =>
    simp only [rolesOf, List.filterMap_append, List.filterMap_cons, ht, List.filterMap_nil,
      List.eraseDups_append, List.removeAll]
    generalize ts.filterMap Transition.tag? = tags
    by_cases hs : s ∈ tags <;> simp [hs, List.eraseDups_cons]

namespace Net

variable {net : Net}

theorem role?_of_rolesOf {ts : List Transition} (h : net.roles = rolesOf ts) (s : String) :
    net.role? (.text s) =
      if s ∈ ts.filterMap Transition.tag? then some { label := .text s } else none := by
  have hkey : ∀ l : String, (Datum.text l).key? = some (.text s) ↔ l = s := by
    simp [Datum.key?]
  rw [role?, if_pos (show (Key.text s).selfEqual = true from rfl), h, rolesOf, List.find?_map]
  simp only [Function.comp_def, hkey]
  split
  next hs =>
    have hsome : (List.find? (fun l => decide (l = s))
        (ts.filterMap Transition.tag?).eraseDups).isSome = true := by
      simpa using hs
    obtain ⟨l, hl⟩ := Option.isSome_iff_exists.1 hsome
    have hls : l = s := by simpa using List.find?_some hl
    rw [hl, hls, Option.map_some]
  next hs =>
    rw [Option.map_eq_none_iff, List.find?_eq_none]
    intro l hl
    have hmem := List.mem_eraseDups.1 hl
    simp only [decide_eq_true_eq]
    rintro rfl
    exact hs hmem

theorem newPlace_ok {config : Config} {p : Place} (hs : p.Sound config) (hne : p.label ≠ "")
    (hnew : p.label ∉ net.labels) (position : Position) :
    net.newPlace config (.text p.label) (.int p.initial) (.int p.capacity)
      (.position position.x position.y) = .ok { p with position } := by
  have hlabel : net.freshLabel (.text p.label) = .ok p.label :=
    freshLabel_eq_ok.2 ⟨rfl, hne, hnew⟩
  have hneg : ¬(p.initial < 0 ∨ p.capacity < 0) := by
    have := hs.initial
    have := hs.capacity
    omega
  have hover : ¬(config.validateCapacity = true ∧ 0 < p.capacity ∧ p.capacity < p.initial) :=
    fun ⟨hv, hc, hlt⟩ => absurd (hs.validated hv hc) (Int.not_le.2 hlt)
  simp only [newPlace, hlabel, count, newPosition, Position.ofDatum?]
  change (if _ then _ else _ : Except Failure Place) = _
  rw [if_neg hneg, if_neg hover]
  rfl

end Net

namespace Declaration

open Act Draft

variable {d : Draft}

/-- Places that are sound and have new labels go through. -/
theorem apply_declarePlaces {ps : List Place} (i : Nat) (hs : ∀ p ∈ ps, p.Sound d.config)
    (hnamed : "" ∉ ps.map Place.label) (hnew : (ps.map Place.label ++ d.net.labels).Nodup) :
    apply (declarePlaces ((ps.zipIdx i).map fun e => (e.1.label, e.1.entry e.2))) d =
      (.ok (), { d with net := { d.net with places := d.net.places ++ ps.map Place.reread } }) := by
  induction ps generalizing d i with
  | nil => simp [declarePlaces]
  | cons p rest ih =>
    simp only [List.map_cons, List.mem_cons, not_or, List.cons_append, List.nodup_cons,
      List.mem_append] at hnamed hnew
    rw [List.forall_mem_cons] at hs
    have hp := Net.newPlace_ok hs.1 (Ne.symm hnamed.1) hnew.1.2 p.position.doubles
    have hplace : apply (Draft.place (.text p.label) (.int (p.entry i).initial)
        (.int (p.entry i).capacity) (toDatum (p.entry i).position)) d =
          (.ok p.reread, { d with net := d.net.addPlace p.reread }) := by
      have hp' : d.net.newPlace d.config (.text p.label) (.int (p.entry i).initial)
          (.int (p.entry i).capacity) (toDatum (p.entry i).position) = .ok p.reread := hp
      rw [apply_place, hp']
    have hrest : (rest.map Place.label ++ (d.net.addPlace p.reread).labels).Nodup := by
      have hperm := (Net.labels_addPlace d.net p.reread).append_left (rest.map Place.label)
      rw [hperm.nodup_iff, List.perm_middle.nodup_iff, List.nodup_cons, List.mem_append]
      exact ⟨not_or.2 hnew.1, hnew.2⟩
    rw [List.zipIdx_cons, List.map_cons, declarePlaces, apply_bind_of_ok hplace,
      ih (d := { d with net := d.net.addPlace p.reread }) (i + 1) hs.2 hnamed.2 hrest]
    simp [Net.addPlace]

theorem apply_roleOf {ts : List Transition} (h : d.net.roles = rolesOf ts) {t : Transition}
    (ht : t.Tagged) : apply (roleOf (t.tag?.elim .null .text)) d =
      (.ok t.role, { d with net := { d.net with roles := rolesOf (ts ++ [t]) } }) := by
  rw [rolesOf_append_singleton]
  rcases ht with hr | ⟨s, hr⟩
  · have htag : t.tag? = none := by simp [Transition.tag?, hr]
    rw [htag, hr, ← h]
    rfl
  · have htag : t.tag? = some s := by simp [Transition.tag?, hr]
    rw [htag, hr]
    simp only [Option.elim_some, roleOf, apply_bind, apply_role, Datum.key?,
      Net.role?_of_rolesOf h]
    by_cases hs : s ∈ ts.filterMap Transition.tag? <;>
      simp only [hs, if_true, if_false, ← h, apply_pure, Net.addRole]

/-- Transitions that have new labels go through, and their roles are entered on the way. -/
theorem apply_declareTransitions {before ts : List Transition}
    (hroles : d.net.roles = rolesOf before) (htagged : ∀ t ∈ ts, t.Tagged)
    (hnamed : "" ∉ ts.map Transition.label)
    (hnew : (ts.map Transition.label ++ d.net.labels).Nodup) :
    apply (declareTransitions (ts.map fun t => (t.label, t.entry))) d =
      (.ok (), { d with net := { d.net with
        transitions := d.net.transitions ++ ts.map Transition.bare
        roles := rolesOf (before ++ ts) } }) := by
  induction ts generalizing d before with
  | nil => simp [declareTransitions, ← hroles]
  | cons t rest ih =>
    simp only [List.map_cons, List.mem_cons, not_or, List.cons_append, List.nodup_cons,
      List.mem_append] at hnamed hnew
    rw [List.forall_mem_cons] at htagged
    let mid : Net := { d.net with roles := rolesOf (before ++ [t]) }
    have hlabel : d.net.freshLabel (.text t.label) = .ok t.label :=
      Net.freshLabel_eq_ok.2 ⟨rfl, Ne.symm hnamed.1, hnew.1.2⟩
    have htransition : apply (Draft.transition (.text t.label) (t.tag?.elim .null .text)
        (toDatum t.entry.position)) d =
          (.ok t.bare, { d with net := mid.addTransition t.bare }) := by
      rw [apply_transition, hlabel, apply_roleOf hroles htagged.1]
      rfl
    have hrest : (rest.map Transition.label ++ (mid.addTransition t.bare).labels).Nodup := by
      have hperm := (Net.labels_addTransition mid t.bare).append_left (rest.map Transition.label)
      rw [hperm.nodup_iff, List.perm_middle.nodup_iff, List.nodup_cons, List.mem_append]
      exact ⟨not_or.2 hnew.1, hnew.2⟩
    have hstep : apply (declareTransitions ((t.label, t.entry) ::
        rest.map fun t => (t.label, t.entry))) d =
          apply (declareTransitions (rest.map fun t => (t.label, t.entry)))
            { d with net := mid.addTransition t.bare } := apply_bind_of_ok htransition
    rw [List.map_cons, hstep, ih (d := { d with net := mid.addTransition t.bare }) rfl htagged.2
      hnamed.2 hrest]
    simp [Net.addTransition, mid]

/-! ## The order of the places -/

/-- Offsets that are in order stay in order. -/
theorem foldl_insertByOffset {sorted es : List (String × PlaceEntry)}
    (h : (sorted ++ es).Pairwise fun a b => a.2.offset.getD 0 ≤ b.2.offset.getD 0) :
    es.foldl (fun sorted e => insertByOffset e sorted) sorted = sorted ++ es := by
  induction es generalizing sorted with
  | nil => simp
  | cons e rest ih =>
    have hlast : ∀ l : List (String × PlaceEntry),
        (∀ a ∈ l, a.2.offset.getD 0 ≤ e.2.offset.getD 0) → insertByOffset e l = l ++ [e] := by
      intro l hl
      induction l with
      | nil => rfl
      | cons a l ihl =>
        rw [List.forall_mem_cons] at hl
        rw [insertByOffset, if_neg (Int.not_lt.2 hl.1), ihl hl.2, List.cons_append]
    have hsorted := hlast sorted fun a ha =>
      (List.pairwise_append.1 h).2.2 a ha e List.mem_cons_self
    have hsplit : sorted ++ e :: rest = sorted ++ [e] ++ rest := by simp
    rw [List.foldl_cons, hsorted, hsplit, ih (hsplit ▸ h)]

theorem misnamed?_places (net : Net) :
    misnamed? PlaceEntry.label net.declaration.places = none := by
  simp only [Net.declaration]
  generalize net.places.zipIdx = es
  induction es with
  | nil => rfl
  | cons e rest ih => exact ih

theorem offsets_places (net : Net) :
    net.declaration.places.map (fun e => e.2.offset.getD 0) =
      (List.range net.declaration.places.length).map Int.ofNat := by
  simp only [Net.declaration, List.map_map, List.length_map, List.length_zipIdx]
  refine List.ext_getElem (by simp) fun i hi hi' => ?_
  simp [Place.entry]

/-- The places of a net's declaration stand in the order of their offsets already. -/
theorem orderedPlaces_declaration (net : Net) :
    net.declaration.orderedPlaces = .ok net.declaration.places := by
  rw [orderedPlaces, misnamed?_places]
  dsimp only
  split
  · rfl
  · have hgiven : (net.declaration.places.any fun e => e.2.offset.isNone) = false := by
      simp [Net.declaration, Place.entry]
    have hsorted : sortByOffset net.declaration.places = net.declaration.places := by
      refine (foldl_insertByOffset ?_).trans (List.nil_append _)
      rw [List.nil_append]
      have hpairwise :
          (net.declaration.places.map fun e => e.2.offset.getD 0).Pairwise (· ≤ ·) := by
        rw [offsets_places, List.pairwise_map]
        exact List.pairwise_le_range.imp fun h => Int.ofNat_le.2 h
      exact List.pairwise_map.1 hpairwise
    rw [if_neg (by simp [hgiven]), hsorted, if_pos (offsets_places net)]

/-! ## Nodes and arcs -/

/-- The net drafted again, before its arcs. -/
def nodesOf (net : Net) : Net :=
  { schema := net.schema, discipline := net.discipline, places := net.places.map Place.reread,
    transitions := net.transitions.map Transition.bare, roles := rolesOf net.transitions }

/-- The net drafted again, before it is compiled. -/
def draftOf (net : Net) : Net := { nodesOf net with arcs := net.arcs }

variable {config : Config} {net : Net}

/-- The draft that the net's declaration starts from. -/
def opened (net : Net) (self : Nat) (config : Config) : Draft where
  self := self
  net := { schema := net.schema, discipline := net.discipline }
  config := config

theorem openDraft_declaration (hp : net.Plain) (self : Nat) :
    net.declaration.openDraft self { config } = .ok (opened net self config) := by
  obtain ⟨s, hne, hs⟩ := hp.schema
  have hempty : s.isEmpty = false := by simpa [String.isEmpty_iff] using hne
  have hschema : resolvedSchema net.declaration .null = .ok net.schema := by
    simp [resolvedSchema, Net.declaration, hs, Datum.truthy, Datum.text?, hempty]
  have hopen : Draft.open? self net.schema (.text net.discipline.name) config =
      .ok (opened net self config) := by
    simp [Draft.open?, Datum.text?, opened]
  rw [openDraft, hschema]
  exact hopen

theorem apply_declareNodes (hp : net.Plain) (he : net.Exportable config) (self : Nat) :
    apply (declareNodes net.declaration) (opened net self config) =
      (.ok (), { opened net self config with net := nodesOf net }) := by
  have hnamed := not_or.1 (mt List.mem_append.2 he.named)
  let placed : Draft :=
    { opened net self config with
      net := { (opened net self config).net with places := net.places.map Place.reread } }
  have hplaces : apply (declarePlaces net.declaration.places) (opened net self config) =
      (.ok (), placed) :=
    apply_declarePlaces 0 he.sound hnamed.1 (by simpa [opened, Net.labels] using
      he.distinct.of_append_left)
  have hlabels : placed.net.labels = net.places.map Place.label := by
    simp [placed, opened, Net.labels, Place.reread, Function.comp_def]
  have htransitions : apply (declareTransitions net.declaration.transitions) placed =
      (.ok (), { placed with net := nodesOf net }) :=
    apply_declareTransitions (show placed.net.roles = rolesOf [] from rfl) hp.tagged hnamed.2
      (hlabels ▸ List.perm_append_comm.nodup_iff.1 he.distinct)
  rw [declareNodes, orderedPlaces_declaration, apply_bind_of_ok (apply_check _ _),
    apply_bind_of_ok hplaces, htransitions]

theorem link?_nodesOf (net : Net) : (nodesOf net).link? = net.link? :=
  funext fun arc => Net.link?_congr (by simp [nodesOf, Place.reread, Function.comp_def])
    (by simp [nodesOf, Transition.bare, Function.comp_def]) arc

theorem link?_draftOf (net : Net) : (draftOf net).link? = net.link? :=
  (funext fun arc => Net.link?_congr rfl rfl arc).trans (link?_nodesOf net)

theorem labels_nodesOf (net : Net) : (nodesOf net).labels = net.labels := by
  simp [nodesOf, Net.labels, Place.reread, Transition.bare, Function.comp_def]

theorem node?_of_link? (h : net.labels.Nodup) {arc : Arc} (hl : (net.link? arc).isSome = true) :
    net.node? arc.source.name = some arc.source ∧ net.node? arc.target.name = some arc.target := by
  obtain ⟨w, kind, place, transition, -, hj, hp, ht⟩ := Net.isSome_link?.1 hl
  rcases Net.joint?_eq_some.1 hj with ⟨-, -, hs, ht'⟩ | ⟨-, -, hs, ht'⟩ | ⟨-, -, hs, ht'⟩ <;>
    rw [hs, ht']
  · exact ⟨Net.node?_place h hp, Net.node?_transition ht⟩
  · exact ⟨Net.node?_place h hp, Net.node?_transition ht⟩
  · exact ⟨Net.node?_transition ht, Net.node?_place h hp⟩

/-- Nothing is lost of an arc whose inhibition is a truth value. -/
theorem arc_of_entry {arc : Arc} (h : arc.Proper) (hb : ∃ b, arc.inhibit = .bool b) :
    ({ source := arc.source, target := arc.target, weight := .int arc.entry.weight,
       inhibit := .bool arc.entry.inhibit } : Arc) = arc := by
  obtain ⟨w, hw, hweight⟩ := h.weight
  obtain ⟨b, hinhibit⟩ := hb
  have hpositive : arc.entry.weight = w := by
    simp [Arc.entry, hweight, Datum.positive?, hw]
  have htruth : arc.entry.inhibit = b := by
    rw [Arc.entry, hinhibit]
    rfl
  rw [hpositive, htruth, ← hweight, ← hinhibit]

/-- Arcs that link go through as they are, if what inhibits is a truth value. -/
theorem apply_declareArcs {arcs : List Arc} (h : d.net.labels.Nodup)
    (hl : ∀ arc ∈ arcs, (d.net.link? arc).isSome = true)
    (hb : ∀ arc ∈ arcs, ∃ b, arc.inhibit = .bool b) :
    apply (declareArcs (arcs.map Arc.entry)) d =
      (.ok (), { d with net := { d.net with arcs := d.net.arcs ++ arcs } }) := by
  induction arcs generalizing d with
  | nil => simp [declareArcs]
  | cons arc rest ih =>
    rw [List.forall_mem_cons] at hl hb
    obtain ⟨hsource, htarget⟩ := node?_of_link? h hl.1
    have hentry := arc_of_entry (Net.proper_of_link? hl.1) hb.1
    have harc : apply (Draft.arc arc.source arc.target (.int arc.entry.weight)
        (.bool arc.entry.inhibit)) d = (.ok arc, { d with net := d.net.addArc arc }) := by
      rw [apply_arc, Net.newArc_eq_ok.2 ⟨hentry.symm, hl.1⟩]
    have hlinks : (d.net.addArc arc).link? = d.net.link? :=
      funext fun a => Net.link?_congr rfl rfl a
    have hsource' : d.net.node? arc.entry.source = some arc.source := hsource
    have htarget' : d.net.node? arc.entry.target = some arc.target := htarget
    rw [List.map_cons, declareArcs, apply_bind_of_ok (apply_drafted d), hsource', htarget']
    dsimp only
    rw [apply_bind_of_ok harc, ih (d := { d with net := d.net.addArc arc }) h (hlinks ▸ hl.2) hb.2]
    simp [Net.addArc]

end Declaration

end TokenNet
