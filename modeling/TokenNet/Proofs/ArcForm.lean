import TokenNet.Proofs.Nodes
import TokenNet.Proofs.Writing
/-!
Which declarations load in arc form.  Main statement: `Declaration.load_arcs`.  The nodes have to
fit, and each arc has to join a place and a transition; then all of it compiles.  What is refused is
refused as a declaration, or as an arc between two nodes of the wrong kinds.

The refusal is met as long as the counts in its message can be written.  A count that is too long
takes its place: `Declaration.hoard_unwritten`.
-/

namespace TokenNet

namespace Declaration

open Act Draft

/-- Whether an arc joins a declared place and a declared transition, and runs from the place if it
inhibits. -/
def ArcFits (d : Declaration) (arc : ArcEntry) : Prop :=
  (arc.source ∈ Table.keys d.places ∧ arc.target ∈ Table.keys d.transitions) ∨
    (arc.inhibit = false ∧ arc.source ∈ Table.keys d.transitions ∧
      arc.target ∈ Table.keys d.places)

/-- Something is declared under the label. -/
def Names (d : Declaration) (label : String) : Prop :=
  label ∈ Table.keys d.places ∨ label ∈ Table.keys d.transitions

/-- The first arc that does not fit is one between two declared nodes. -/
def WrongKind (d : Declaration) (arcs : List ArcEntry) : Prop :=
  ∃ before arc after, arcs = before ++ arc :: after ∧ (∀ a ∈ before, d.ArcFits a) ∧
    ¬d.ArcFits arc ∧ d.Names arc.source ∧ d.Names arc.target

/-- The node under a label, as an end. -/
def endOf (d : Declaration) (label : String) : End :=
  if label ∈ Table.keys d.transitions then .transition label else .place label

def arcOf (d : Declaration) (arc : ArcEntry) : Arc where
  source := d.endOf arc.source
  target := d.endOf arc.target
  weight := .int arc.weight
  inhibit := .bool arc.inhibit

/-- The net with its nodes and these arcs. -/
def wired (d : Declaration) (title : String) (arcs : List Arc) : Net :=
  { d.nodes title with arcs }

/-- Why an arc between two nodes of the net with number `self` is refused. -/
inductive Mismatch (d : Declaration) (title : String) (self : Nat) : Failure → Prop
  | targetNotTransition (arcs : List Arc) (source target : String) :
      Mismatch d title self (.targetNotTransition self (d.wired title arcs) source (.place target))
  | targetNotPlace (arcs : List Arc) (source target : String) :
      Mismatch d title self (.targetNotPlace self (d.wired title arcs) source (.transition target))
  | inhibitorFromTransition (source : String) :
      Mismatch d title self (.inhibitorFromTransition (.text title) source)

variable {decl : Declaration} {title label : String} {self : Nat} {e : Failure} {config : Config}
  {arcs : List Arc} {arc : ArcEntry} {d : Draft}

theorem Mismatch.family (h : Mismatch decl title self e) : e.family = .arc := by
  cases h <;> rfl

/-! ## The nodes of the net -/

theorem mem_places_wired (h : decl.NodesFit config) :
    label ∈ (decl.wired title arcs).places.map Place.label ↔ label ∈ Table.keys decl.places := by
  have hlabels : (decl.wired title arcs).places.map Place.label = decl.laid.map Prod.fst := by
    simp [wired, nodes, placeOf, Function.comp_def]
  rw [hlabels]
  exact (h.laid.perm.map Prod.fst).mem_iff

theorem transitions_wired :
    (decl.wired title arcs).transitions.map Transition.label = Table.keys decl.transitions := by
  simp [wired, nodes, transitionOf, Table.keys, Function.comp_def]

theorem node?_wired (h : decl.NodesFit config) (hn : decl.Names label) :
    (decl.wired title arcs).node? label = some (decl.endOf label) := by
  rw [Net.node?, endOf]
  by_cases ht : label ∈ Table.keys decl.transitions
  · rw [if_pos ht, if_pos (Net.isSome_transition?.2 (transitions_wired ▸ ht))]
  · have hp : label ∈ Table.keys decl.places := hn.resolve_right ht
    rw [if_neg ht, if_neg (mt Net.isSome_transition?.1 (transitions_wired ▸ ht)),
      if_pos (Net.isSome_place?.2 ((mem_places_wired h).2 hp))]

theorem node?_wired_eq_none (h : decl.NodesFit config) (hn : ¬decl.Names label) :
    (decl.wired title arcs).node? label = none := by
  obtain ⟨hp, ht⟩ := not_or.1 hn
  rw [Net.node?, if_neg (mt Net.isSome_transition?.1 (transitions_wired ▸ ht)),
    if_neg (mt Net.isSome_place?.1 (mt (mem_places_wired h).1 hp))]

theorem placeLabel?_wired (h : decl.NodesFit config) (hp : label ∈ Table.keys decl.places) :
    (decl.wired title arcs).placeLabel? (.place label) = some label :=
  Net.placeLabel?_eq_some.2 ⟨rfl, (mem_places_wired h).2 hp⟩

theorem transitionLabel?_wired (ht : label ∈ Table.keys decl.transitions) :
    (decl.wired title arcs).transitionLabel? (.transition label) = some label :=
  Net.transitionLabel?_eq_some.2 ⟨rfl, transitions_wired ▸ ht⟩

/-- From a place an arc may lead to any transition. -/
theorem newArc_from_place (h : decl.NodesFit config) (self : Nat) (inhibit : Bool) {w : Int}
    (hw : 0 < w) {source target : String} (hs : source ∈ Table.keys decl.places) :
    (decl.wired title arcs).newArc self (.place source) (decl.endOf target) (.int w)
        (.bool inhibit) =
      if target ∈ Table.keys decl.transitions then
        .ok { source := .place source, target := decl.endOf target, weight := .int w,
              inhibit := .bool inhibit }
      else .error (.targetNotTransition self (decl.wired title arcs) source (.place target)) := by
  have hweight : (Datum.int w).positive? = some w := Datum.positive?_eq_some.2 ⟨rfl, hw⟩
  by_cases htt : target ∈ Table.keys decl.transitions
  · have htarget : decl.endOf target = .transition target := if_pos htt
    simp [Net.newArc, hweight, placeLabel?_wired h hs, htarget, transitionLabel?_wired htt, htt]
  · have htarget : decl.endOf target = .place target := if_neg htt
    have hnone : (decl.wired title arcs).transitionLabel? (.place target) = none := rfl
    simp [Net.newArc, hweight, placeLabel?_wired h hs, htarget, hnone, htt]

/-- From a transition an arc may lead to any place, if it does not inhibit. -/
theorem newArc_from_transition (h : decl.NodesFit config) (self : Nat) (inhibit : Bool) {w : Int}
    (hw : 0 < w) {source target : String} (hs : source ∈ Table.keys decl.transitions)
    (ht : decl.Names target) :
    (decl.wired title arcs).newArc self (.transition source) (decl.endOf target) (.int w)
        (.bool inhibit) =
      if inhibit = true then .error (.inhibitorFromTransition (.text title) source)
      else if target ∈ Table.keys decl.transitions then
        .error (.targetNotPlace self (decl.wired title arcs) source (.transition target))
      else .ok { source := .transition source, target := decl.endOf target, weight := .int w,
                 inhibit := .bool inhibit } := by
  have hweight : (Datum.int w).positive? = some w := Datum.positive?_eq_some.2 ⟨rfl, hw⟩
  have hno : (decl.wired title arcs).placeLabel? (.transition source) = none := rfl
  cases inhibit with
  | true =>
    simp [Net.newArc, hweight, hno, transitionLabel?_wired hs, Datum.truthy]
    rfl
  | false =>
    by_cases htt : target ∈ Table.keys decl.transitions
    · have htarget : decl.endOf target = .transition target := if_pos htt
      have hnone : (decl.wired title arcs).placeLabel? (.transition target) = none := rfl
      simp [Net.newArc, hweight, hno, transitionLabel?_wired hs, Datum.truthy, htarget, hnone, htt]
    · have htarget : decl.endOf target = .place target := if_neg htt
      have hplace : (decl.wired title arcs).placeLabel? (.place target) = some target :=
        placeLabel?_wired h (ht.resolve_right htt)
      simp [Net.newArc, hweight, hno, transitionLabel?_wired hs, Datum.truthy, htarget, hplace, htt]

/-- Between two nodes an arc is recorded exactly if it fits. -/
theorem newArc_cases (h : decl.NodesFit config) (title : String) (arcs : List Arc) (self : Nat)
    (hw : 0 < arc.weight) (hs : decl.Names arc.source) (ht : decl.Names arc.target) :
    (decl.ArcFits arc ∧ (decl.wired title arcs).newArc self (decl.endOf arc.source)
        (decl.endOf arc.target) (.int arc.weight) (.bool arc.inhibit) = .ok (decl.arcOf arc)) ∨
      (¬decl.ArcFits arc ∧ ∃ e, (decl.wired title arcs).newArc self (decl.endOf arc.source)
        (decl.endOf arc.target) (.int arc.weight) (.bool arc.inhibit) = .error e ∧
          Mismatch decl title self e) := by
  unfold arcOf
  by_cases hst : arc.source ∈ Table.keys decl.transitions
  · have hsp : arc.source ∉ Table.keys decl.places := fun hp => h.apart _ hp hst
    have hsource : decl.endOf arc.source = .transition arc.source := if_pos hst
    rw [hsource, newArc_from_transition h self arc.inhibit hw hst ht]
    by_cases hi : arc.inhibit = true
    · rw [if_pos hi]
      refine .inr ⟨?_, _, rfl, .inhibitorFromTransition _⟩
      rintro (hfit | hfit)
      · exact hsp hfit.1
      · exact Bool.false_ne_true (hfit.1.symm.trans hi)
    · rw [if_neg hi]
      by_cases htt : arc.target ∈ Table.keys decl.transitions
      · rw [if_pos htt]
        refine .inr ⟨?_, _, rfl, .targetNotPlace _ _ _⟩
        rintro (hfit | hfit)
        · exact hsp hfit.1
        · exact h.apart _ hfit.2.2 htt
      · rw [if_neg htt]
        exact .inl ⟨.inr ⟨Bool.eq_false_iff.2 hi, hst, ht.resolve_right htt⟩, rfl⟩
  · have hsp : arc.source ∈ Table.keys decl.places := hs.resolve_right hst
    have hsource : decl.endOf arc.source = .place arc.source := if_neg hst
    rw [hsource, newArc_from_place h self arc.inhibit hw hsp]
    by_cases htt : arc.target ∈ Table.keys decl.transitions
    · rw [if_pos htt]
      exact .inl ⟨.inl ⟨hsp, htt⟩, rfl⟩
    · rw [if_neg htt]
      refine .inr ⟨?_, _, rfl, .targetNotTransition _ _ _⟩
      rintro (hfit | hfit)
      · exact htt hfit.2
      · exact hst hfit.2.1

/-! ## Recording the arcs -/

theorem ArcFits.names (h : decl.ArcFits arc) : decl.Names arc.source ∧ decl.Names arc.target := by
  rcases h with h | h
  · exact ⟨.inl h.1, .inr h.2⟩
  · exact ⟨.inr h.2.1, .inl h.2.2⟩

theorem wrongKind_cons_of_fits {rest : List ArcEntry} (h : decl.ArcFits arc) :
    decl.WrongKind (arc :: rest) ↔ decl.WrongKind rest := by
  constructor
  · rintro ⟨_ | ⟨a, before⟩, bad, after, he, hbefore, hbad, hnames⟩
    · cases he
      exact absurd h hbad
    · cases he
      exact ⟨before, bad, after, rfl, fun a ha => hbefore a (List.mem_cons_of_mem _ ha), hbad,
        hnames⟩
  · rintro ⟨before, bad, after, rfl, hbefore, hbad, hnames⟩
    exact ⟨arc :: before, bad, after, rfl, List.forall_mem_cons.2 ⟨h, hbefore⟩, hbad, hnames⟩

theorem wrongKind_cons_of_not_fits {rest : List ArcEntry} (h : ¬decl.ArcFits arc) :
    decl.WrongKind (arc :: rest) ↔ decl.Names arc.source ∧ decl.Names arc.target := by
  constructor
  · rintro ⟨_ | ⟨a, before⟩, bad, after, he, hbefore, hbad, hnames⟩
    · cases he
      exact hnames
    · cases he
      exact absurd (hbefore arc List.mem_cons_self) h
  · exact fun hnames => ⟨[], arc, rest, rfl, fun _ ha => absurd ha List.not_mem_nil, h, hnames⟩

/-- Why the arcs of a declaration are refused: the first that does not fit is between nodes of the
wrong kinds, or names something that is not declared. -/
def Refusal (d : Declaration) (title : String) (self : Nat) (arcs : List ArcEntry) (e : Failure) :
    Prop :=
  (d.WrongKind arcs ∧ Mismatch d title self e) ∨ (¬d.WrongKind arcs ∧ Objection d title e)

/-- The first arc: it is recorded, or refused for its own sake. -/
theorem apply_declareArcs_cons (h : decl.NodesFit config) {done : List Arc}
    (hd : d.net = decl.wired title done) (hw : 0 < arc.weight) (rest : List ArcEntry) :
    (decl.ArcFits arc ∧ apply (declareArcs (arc :: rest)) d =
        apply (declareArcs rest) { d with net := decl.wired title (done ++ [decl.arcOf arc]) }) ∨
      (¬decl.ArcFits arc ∧ ∃ e, apply (declareArcs (arc :: rest)) d = (.error e, d) ∧
        Refusal decl title d.self (arc :: rest) e) := by
  have hunknown : ∀ label, ¬(decl.Names arc.source ∧ decl.Names arc.target) →
      Refusal decl title d.self (arc :: rest) (.unknownNode (.text title) label) := fun label hno =>
    .inr ⟨fun hwrong =>
      hno ((wrongKind_cons_of_not_fits fun hfit => hno hfit.names).1 hwrong), .unknownNode label⟩
  rw [declareArcs, apply_bind_of_ok (apply_drafted d), hd]
  by_cases hs : decl.Names arc.source
  · by_cases ht : decl.Names arc.target
    · rw [node?_wired h hs, node?_wired h ht]
      have harc := apply_arc (decl.endOf arc.source) (decl.endOf arc.target) (.int arc.weight)
        (.bool arc.inhibit) d
      rcases newArc_cases h title done d.self hw hs ht with ⟨hfit, hok⟩ | ⟨hno, e, herr, hbad⟩
      · rw [hd, hok] at harc
        exact .inl ⟨hfit, apply_bind_of_ok harc⟩
      · rw [hd, herr] at harc
        refine .inr ⟨hno, e, ?_, .inl ⟨(wrongKind_cons_of_not_fits hno).2 ⟨hs, ht⟩, hbad⟩⟩
        rw [apply_bind, harc]
    · rw [node?_wired h hs, node?_wired_eq_none h ht]
      exact .inr ⟨fun hfit => ht hfit.names.2, _, rfl, hunknown _ fun hn => ht hn.2⟩
  · rw [node?_wired_eq_none h hs]
    exact .inr ⟨fun hfit => hs hfit.names.1, _, rfl, hunknown _ fun hn => hs hn.1⟩

theorem settles_declareArcs (h : decl.NodesFit config) {done : List Arc} {arcs : List ArcEntry}
    (hd : d.net = decl.wired title done) (hw : ∀ arc ∈ arcs, 0 < arc.weight) :
    Settles (declareArcs arcs) d (∀ arc ∈ arcs, decl.ArcFits arc) ()
      { d with net := decl.wired title (done ++ arcs.map decl.arcOf) }
      (Refusal decl title d.self arcs) := by
  induction arcs generalizing d done with
  | nil =>
    rw [List.map_nil, List.append_nil, ← hd]
    exact .inl ⟨fun _ harc => absurd harc List.not_mem_nil, rfl⟩
  | cons arc rest ih =>
    rw [List.forall_mem_cons] at hw
    unfold Settles
    rw [List.forall_mem_cons]
    rcases apply_declareArcs_cons h hd hw.1 rest with ⟨hfit, hstep⟩ | ⟨hno, e, herr, he⟩
    · have hrest :=
        ih (d := { d with net := decl.wired title (done ++ [decl.arcOf arc]) }) rfl hw.2
      rw [List.append_assoc, List.singleton_append, ← List.map_cons] at hrest
      rw [hstep]
      refine (hrest.congr (and_iff_right hfit).symm).mono fun e _ he => ?_
      rwa [Refusal, wrongKind_cons_of_fits hfit]
    · exact .inr ⟨fun hall => hno hall.1, e, d, herr, he⟩

/-! ## What a refusal shows -/

theorem glossary_node (scene : Scene) (n : NodeName) : ∃ g : Glossary,
    scene.glossary.node n = (scene.nets[n.net]?).elim (some "") fun net => net.nodeLiteral g n :=
  ⟨_, rfl⟩

/-- A net has to be one of the scene, or the next. -/
theorem getElem?_holding (scene : Scene) (id : Nat) (net : Net) :
    (scene.holding id net).nets[id]? = if id ≤ scene.nets.length then some net else none := by
  rw [Scene.holding]
  rcases Nat.lt_trichotomy id scene.nets.length with hlt | heq | hgt
  · simp [hlt, hlt.le]
  · simp [heq]
  · simp [hgt.not_gt, hgt.not_ge]

theorem Coordinate.literal {x : Datum} (h : Coordinate x) (g : Glossary) :
    (x.literal g).isSome = true := by
  rcases h with rfl | ⟨x, rfl⟩
  · exact isSome_intText Decimal.brief_zero
  · rfl

theorem isSome_position {x y : Datum} (hx : Coordinate x) (hy : Coordinate y) (g : Glossary) :
    ((Datum.position x y).literal g).isSome = true := by
  simp [Datum.literal, isSome_phrase, hx.literal g, hy.literal g]

theorem isSome_placeLiteral (hp : decl.Proper) {e : String × PlaceEntry} (he : e ∈ decl.places)
    (g : Glossary) (i : Nat) : ((placeOf e).literal g i).isSome = true ↔
      ∀ n ∈ [(placeOf e).initial, (placeOf e).capacity], Decimal.Brief n := by
  have hposition : ((Datum.position (placeOf e).position.x
      (placeOf e).position.y).literal g).isSome = true :=
    isSome_position (hp.positions e he).1 (hp.positions e he).2 g
  rw [Place.literal, isSome_phrase]
  simp [hposition, isSome_intText_iff]

theorem isSome_transitionLiteral (hp : decl.Proper) {e : String × TransitionEntry}
    (he : e ∈ decl.transitions) (g : Glossary) :
    ((transitionOf e).literal g).isSome = true := by
  have hposition : ((Datum.position (transitionOf e).position.x
      (transitionOf e).position.y).literal g).isSome = true :=
    isSome_position (hp.positions' e he).1 (hp.positions' e he).2 g
  have hrole : ((transitionOf e).role.literal g).isSome = true := by
    unfold transitionOf
    cases e.2.role with
    | none => rfl
    | some s => simp [Datum.literal, isSome_phrase]
  have hdelta : (transitionOf e).spelled.literal.isSome = true := rfl
  have hguards : (transitionOf e).guards = [] := rfl
  have hempty : (braced []).isSome = true := rfl
  rw [Transition.literal, isSome_phrase]
  simp [hrole, hposition, hdelta, hguards, hempty]

theorem isSome_nodeLiteral_place (hp : decl.Proper) (hfit : decl.NodesFit config) (g : Glossary)
    (self : Nat) (label : String) :
    ((decl.wired title arcs).nodeLiteral g ⟨self, .place, label⟩).isSome = true ↔
      ∀ n ∈ ((decl.wired title arcs).place? label).elim [] fun p => [p.initial, p.capacity],
        Decimal.Brief n := by
  simp only [Net.nodeLiteral]
  cases hplace : (decl.wired title arcs).place? label with
  | none => simp
  | some p =>
    obtain ⟨e, he, rfl⟩ := List.mem_map.1 (List.mem_of_find?_eq_some hplace)
    have hoffset : ((decl.wired title arcs).offset? label).isSome = true := by
      rw [Net.offset?, List.findIdx?_isSome, List.any_eq_true]
      have hlabel := List.find?_some hplace
      exact ⟨placeOf e, List.mem_of_find?_eq_some hplace, hlabel⟩
    obtain ⟨i, hi⟩ := Option.isSome_iff_exists.1 hoffset
    rw [hi]
    exact isSome_placeLiteral hp (hfit.laid.perm.mem_iff.1 he) g i

theorem isSome_nodeLiteral_transition (hp : decl.Proper) (g : Glossary) (self : Nat)
    (label : String) :
    ((decl.wired title arcs).nodeLiteral g ⟨self, .transition, label⟩).isSome = true := by
  simp only [Net.nodeLiteral]
  cases ht : (decl.wired title arcs).transition? label with
  | none => rfl
  | some t =>
    obtain ⟨e, he, rfl⟩ := List.mem_map.1 (List.mem_of_find?_eq_some ht)
    exact isSome_transitionLiteral hp he g

/-- A node is shown as it stands in its net, if there is room for the net. -/
theorem endText_node (scene : Scene) (net : Net) {target : End} {n : NodeName}
    (ht : target.toDatum self = .node n) (hself : n.net = self) : ∃ g : Glossary,
    Failure.endText scene self net target =
      if self ≤ scene.nets.length then net.nodeLiteral g n else some "" := by
  obtain ⟨g, hg⟩ := glossary_node (scene.holding self net) n
  refine ⟨g, ?_⟩
  rw [Failure.endText, ht, Datum.literal, hg, hself, getElem?_holding]
  split <;> rfl

/-- A sentence about the net has a text if its end has one. -/
theorem isSome_about (g : Glossary) (head source tail : String) (text : Writing) :
    (Failure.about g (decl.wired title arcs).schema [head, source, tail, text]).isSome = true ↔
      text.isSome = true := by
  have hschema : (decl.wired title arcs).schema.plain g = some title := rfl
  rw [Failure.about, isSome_phrase]
  simp [hschema]

/-- Of a refused arc only the counts of a place are hard to tell. -/
theorem Mismatch.isSome_message (h : Mismatch decl title self e) (hp : decl.Proper)
    (hfit : decl.NodesFit config) (scene : Scene) : (e.message scene).isSome = true ↔
      (self ≤ scene.nets.length → ∀ n ∈ e.counts, Decimal.Brief n) := by
  cases h with
  | targetNotTransition arcs source target =>
    have hend : (End.place target).toDatum self = .node ⟨self, .place, target⟩ := rfl
    obtain ⟨g, hg⟩ := endText_node scene (decl.wired title arcs) hend rfl
    rw [Failure.message, isSome_about, hg]
    by_cases hroom : self ≤ scene.nets.length
    · rw [if_pos hroom, isSome_nodeLiteral_place hp hfit g self target]
      exact ⟨fun hbrief _ => hbrief, fun hbrief => hbrief hroom⟩
    · rw [if_neg hroom]
      exact iff_of_true rfl fun h => absurd h hroom
  | targetNotPlace arcs source target =>
    have hend : (End.transition target).toDatum self = .node ⟨self, .transition, target⟩ := rfl
    obtain ⟨g, hg⟩ := endText_node scene (decl.wired title arcs) hend rfl
    refine iff_of_true ?_ fun _ _ hn => absurd hn List.not_mem_nil
    rw [Failure.message, isSome_about, hg]
    split
    · exact isSome_nodeLiteral_transition hp g self target
    · rfl
  | inhibitorFromTransition source =>
    refine iff_of_true ?_ fun _ _ hn => absurd hn List.not_mem_nil
    simp [Failure.message, Failure.about, isSome_phrase, Datum.plain]

theorem Mismatch.brief (h : Mismatch decl title self e) (hfit : decl.NodesFit config)
    (hb : decl.Brief) : ∀ n ∈ e.counts, Decimal.Brief n := by
  cases h with
  | targetNotTransition arcs source target =>
    simp only [Failure.counts]
    cases hplace : (decl.wired title arcs).place? target with
    | none => exact fun _ hn => absurd hn List.not_mem_nil
    | some p =>
      obtain ⟨e, he, rfl⟩ := List.mem_map.1 (List.mem_of_find?_eq_some hplace)
      have hmem := hfit.laid.perm.mem_iff.1 he
      simp only [Option.elim_some, List.forall_mem_cons]
      exact ⟨hb.initial e hmem, hb.capacity e hmem, fun _ hn => absurd hn List.not_mem_nil⟩
  | targetNotPlace | inhibitorFromTransition => exact fun _ hn => absurd hn List.not_mem_nil

/-- What is met of a failure to load a net as the one with number `id`. -/
structure Shown (d : Declaration) (id : Nat) (e : Failure) : Prop where
  met : (∀ n ∈ e.counts, Decimal.Brief n) → ∀ scene : Scene, e.met scene = e
  unwritten : ∀ n ∈ e.counts, ¬Decimal.Brief n →
    ∀ scene : Scene, id ≤ scene.nets.length → e.met scene = .longNumber
  brief : d.Brief → ∀ n ∈ e.counts, Decimal.Brief n

theorem Shown.of_message
    (hm : ∀ scene : Scene, (∀ n ∈ e.counts, Decimal.Brief n) → (e.message scene).isSome = true)
    (hu : ∀ scene : Scene, self ≤ scene.nets.length → (e.message scene).isSome = true →
      ∀ n ∈ e.counts, Decimal.Brief n)
    (hb : decl.Brief → ∀ n ∈ e.counts, Decimal.Brief n) : decl.Shown self e where
  met h scene := Failure.met_of_isSome (hm scene h)
  unwritten n hn hlong scene hroom :=
    Failure.met_of_not_isSome fun hsome => hlong (hu scene hroom hsome n hn)
  brief := hb

theorem Objection.shown (h : Objection decl title e) : decl.Shown self e :=
  .of_message (fun scene => (h.isSome_message scene).2)
    (fun scene _ => (h.isSome_message scene).1) h.brief

theorem Mismatch.shown (h : Mismatch decl title self e) (hp : decl.Proper)
    (hfit : decl.NodesFit config) : decl.Shown self e :=
  .of_message (fun scene hbrief => (h.isSome_message hp hfit scene).2 fun _ => hbrief)
    (fun scene hroom hsome => (h.isSome_message hp hfit scene).1 hsome hroom) (h.brief hfit)

/-! ## The whole declaration -/

/-- Arcs that fit link, so all of them compile. -/
theorem index_wired (hp : decl.Proper) (h : decl.NodesFit config)
    (ha : ∀ arc ∈ decl.arcs, decl.ArcFits arc) :
    (decl.wired title (decl.arcs.map decl.arcOf)).index.2 = [] := by
  refine (Net.index_snd_eq_nil rfl).2 fun a hmem => ?_
  obtain ⟨arc, harc, rfl⟩ := List.mem_map.1 hmem
  obtain ⟨hs, ht⟩ := (ha arc harc).names
  rcases newArc_cases h title (decl.arcs.map decl.arcOf) 0 (hp.weight arc harc) hs ht with
    ⟨-, hok⟩ | ⟨hno, -⟩
  · exact (Net.newArc_eq_ok.1 hok).2
  · exact absurd (ha arc harc) hno

/-- Why a declaration is turned down in arc form. -/
def Rejection (d : Declaration) (config : Config) (title : String) (self : Nat) (e : Failure) :
    Prop :=
  (d.NodesFit config ∧ Refusal d title self d.arcs e) ∨ (¬d.NodesFit config ∧ Objection d title e)

/-- The arc form goes through exactly if the nodes and the arcs fit. -/
theorem settles_arcForm (hp : decl.Proper) (title : String) (self : Nat) (config : Config) :
    ∃ d' : Draft, d'.net = (decl.wired title (decl.arcs.map decl.arcOf)).index.1 ∧
      Settles (arcForm decl) (begun decl title self config)
        (decl.NodesFit config ∧ ∀ arc ∈ decl.arcs, decl.ArcFits arc) () d'
        (Rejection decl config title self) := by
  let net := decl.wired title (decl.arcs.map decl.arcOf)
  let drawn : Draft := { begun decl title self config with net }
  obtain ⟨notes, hbuild⟩ : ∃ notes, net.index.2 = [] →
      apply build drawn = (.ok (), { drawn with net := net.index.1, notes }) := by
    by_cases hnone : net.index.2 = []
    · obtain ⟨notes, hb⟩ := apply_build (d := drawn) hnone
      exact ⟨notes, fun _ => hb⟩
    · exact ⟨[], fun h => absurd h hnone⟩
  have hnodes : Settles (declareNodes decl) (begun decl title self config) _ () _
      (Rejection decl config title self) :=
    (settles_declareNodes hp title self config).mono fun _ hno he => .inr ⟨hno, he⟩
  have harcs : ∀ hfit : decl.NodesFit config, Settles (declareArcs decl.arcs)
      { begun decl title self config with net := decl.nodes title }
      (∀ arc ∈ decl.arcs, decl.ArcFits arc) () drawn (Rejection decl config title self) := by
    intro hfit
    have hrun : Settles (declareArcs decl.arcs)
        { begun decl title self config with net := decl.nodes title } _ ()
        { begun decl title self config with
          net := decl.wired title ([] ++ decl.arcs.map decl.arcOf) }
        (Refusal decl title self decl.arcs) := settles_declareArcs hfit rfl hp.weight
    exact hrun.mono fun _ _ he => .inl ⟨hfit, he⟩
  have hbuilt : decl.NodesFit config → (∀ arc ∈ decl.arcs, decl.ArcFits arc) →
      Settles build drawn True () { drawn with net := net.index.1, notes }
        (Rejection decl config title self) :=
    fun hfit hall => .inl ⟨trivial, hbuild (index_wired hp hfit hall)⟩
  refine ⟨{ drawn with net := net.index.1, notes }, rfl, ?_⟩
  have hform : Settles (arcForm decl) (begun decl title self config) _ () _ _ :=
    hnodes.bind fun hfit => (harcs hfit).bind fun hall => hbuilt hfit hall
  exact hform.congr (and_congr_right fun _ => iff_of_eq (and_true _))

theorem Rejection.family (h : Rejection decl config title self e) :
    (e.family = .arc ∨ e.family = .declaration) ∧
      (e.family = .arc ↔ decl.NodesFit config ∧ decl.WrongKind decl.arcs) := by
  have hobjected : Objection decl title e → ¬(decl.NodesFit config ∧ decl.WrongKind decl.arcs) →
      (e.family = .arc ∨ e.family = .declaration) ∧
        (e.family = .arc ↔ decl.NodesFit config ∧ decl.WrongKind decl.arcs) := fun hobj hno =>
    ⟨.inr hobj.family, iff_of_false (fun he => nomatch hobj.family.symm.trans he) hno⟩
  rcases h with ⟨hfit, ⟨hwrong, hbad⟩ | ⟨hno, hobj⟩⟩ | ⟨hno, hobj⟩
  · exact ⟨.inl hbad.family, iff_of_true hbad.family ⟨hfit, hwrong⟩⟩
  · exact hobjected hobj fun h => hno h.2
  · exact hobjected hobj fun h => hno h.1

theorem Rejection.shown (h : Rejection decl config title self e) (hp : decl.Proper) :
    decl.Shown self e := by
  rcases h with ⟨hfit, ⟨-, hbad⟩ | ⟨-, hobj⟩⟩ | ⟨-, hobj⟩
  · exact hbad.shown hp hfit
  · exact hobj.shown
  · exact hobj.shown

/-- What the net is that a declaration comes to. -/
theorem wired_compiled (hp : decl.Proper) (hfit : decl.NodesFit config)
    (hall : ∀ arc ∈ decl.arcs, decl.ArcFits arc) {net : Net}
    (hnet : (decl.wired title (decl.arcs.map decl.arcOf)).index.1 = net) :
    net.schema = .text title ∧
      (∃ laid, Laid decl.places laid ∧ net.places = laid.map placeOf ∧
        ∀ (i : Nat) (e : String × PlaceEntry), laid[i]? = some e → net.offset? e.1 = some i) ∧
      net.transitions.map Transition.label = Table.keys decl.transitions ∧
      net.arcs = decl.arcs.map decl.arcOf ∧ net.indexed = true := by
  have hindexed : net.indexed = true := hnet ▸ (Net.index_fits (index_wired hp hfit hall)).1
  have hkeys : (decl.wired title (decl.arcs.map decl.arcOf)).transitions.map Transition.label =
      Table.keys decl.transitions := transitions_wired
  rw [Net.index_fst rfl] at hnet
  subst hnet
  refine ⟨rfl, ⟨decl.laid, hfit.laid, rfl, fun i e hi => offset?_nodes hp hfit title hi⟩, ?_, rfl,
    hindexed⟩
  rw [← hkeys, List.map_map]
  exact List.map_congr_left fun t _ => Transition.label_compiled _ _ t

/-- Loading a declaration in arc form.  It goes through exactly if there is a schema, the one that
is given before the declaration's own, the nodes fit and the arcs fit; then the places are laid out
in the order of their offsets, and every arc is recorded and compiled.  Otherwise it fails as a
declaration, or as an arc if what is wrong first is an arc between nodes of the wrong kinds.  That
is what is met of the failure, unless its message shows a count or an offset that is too long to be
written; then the failure to write it is met. -/
theorem load_arcs (hp : decl.Proper) (self : Nat) (config : Config) (override : Option String) :
    ((∃ net, (decl.load .arcs self { schema := override.elim .null .text, config }).1 = .ok net) ↔
        decl.titleUnder override ≠ "" ∧ decl.NodesFit config ∧
          ∀ arc ∈ decl.arcs, decl.ArcFits arc) ∧
      (∀ net, (decl.load .arcs self { schema := override.elim .null .text, config }).1 = .ok net →
        net.schema = .text (decl.titleUnder override) ∧
        (∃ laid, Laid decl.places laid ∧ net.places = laid.map placeOf ∧
          ∀ (i : Nat) (e : String × PlaceEntry), laid[i]? = some e → net.offset? e.1 = some i) ∧
        net.transitions.map Transition.label = Table.keys decl.transitions ∧
        net.arcs = decl.arcs.map decl.arcOf ∧ net.indexed = true) ∧
      ∀ e, (decl.load .arcs self { schema := override.elim .null .text, config }).1 = .error e →
        (e.family = .arc ∨ e.family = .declaration) ∧
        (e.family = .arc ↔ decl.titleUnder override ≠ "" ∧ decl.NodesFit config ∧
          decl.WrongKind decl.arcs) ∧
        ((∀ n ∈ e.counts, Decimal.Brief n) → ∀ scene : Scene, e.met scene = e) ∧
        (∀ n ∈ e.counts, ¬Decimal.Brief n →
          ∀ scene : Scene, self ≤ scene.nets.length → e.met scene = .longNumber) ∧
        (decl.Brief → ∀ n ∈ e.counts, Decimal.Brief n) := by
  obtain ⟨d', hnet, hform⟩ := settles_arcForm hp (decl.titleUnder override) self config
  rcases load_cases (show Settles (Form.declare .arcs decl) _ _ () d' _ from hform) with
    ⟨htitle, ⟨hfit, hall⟩, hok⟩ | ⟨hno, e, herr, he⟩
  · rw [hok, hnet]
    refine ⟨⟨fun _ => ⟨htitle, hfit, hall⟩, fun _ => ⟨_, rfl⟩⟩, ?_, fun e he => (nomatch he)⟩
    exact fun net hn => wired_compiled hp hfit hall (Except.ok.inj hn)
  · rw [herr]
    refine ⟨⟨fun ⟨net, hn⟩ => (nomatch hn), fun h => absurd h hno⟩, fun net hn => (nomatch hn), ?_⟩
    rintro e' ⟨⟩
    rcases he with ⟨htitle, rfl⟩ | ⟨htitle, hrej⟩
    · have hobj : Objection decl "" .noSchema := .untitled
      have hshown : decl.Shown self .noSchema := hobj.shown
      exact ⟨.inr rfl, iff_of_false (fun he => nomatch he) fun h => h.1 htitle, hshown.met,
        hshown.unwritten, hshown.brief⟩
    · obtain ⟨hfamily, hiff⟩ := hrej.family
      have hshown := hrej.shown hp
      exact ⟨hfamily, hiff.trans (and_iff_right htitle).symm, hshown.met, hshown.unwritten,
        hshown.brief⟩

end Declaration

/-! ## A net listed in another order -/

namespace Loom

/-- A loom, whose second arc leads to the node so named.  What it weaves is listed first. -/
def data (target : String) : Datum := named [
  ("schema", .text "loom"),
  ("places", named [
    ("cloth", named [("offset", .int 1)]),
    ("yarn", named [("initial", .int 1), ("offset", .int 0)])]),
  ("transitions", named [("weave", named [])]),
  ("arcs", .list [
    named [("source", .text "yarn"), ("target", .text "weave")],
    named [("source", .text "weave"), ("target", .text target), ("weight", .int 2)]])]

def declaration (target : String) : Declaration where
  schema := some "loom"
  places := [("cloth", { offset := some 1 }), ("yarn", { initial := 1, offset := some 0 })]
  transitions := [("weave", {})]
  arcs := [{ source := "yarn", target := "weave" }, { source := "weave", target, weight := 2 }]

theorem ofDatum_data (target : String) :
    Declaration.ofDatum Origin.bare.glossary (data target) = .ok (declaration target) := rfl

theorem nodesFit (target : String) : (declaration target).NodesFit .default where
  placeLabels := by simp [Declaration.Labelled, declaration]
  transitionLabels := by simp [Declaration.Labelled, declaration]
  offsets := .inr (List.Perm.swap (some 0) (some 1) [])
  named := by simp [declaration, Table.keys]
  apart := by simp [declaration, Table.keys]
  within := by simp [declaration, Declaration.Within]

end Loom

namespace Declaration

theorem arcFits_loom {target : String} :
    (∀ arc ∈ (Loom.declaration target).arcs, (Loom.declaration target).ArcFits arc) ↔
      target = "cloth" ∨ target = "yarn" := by
  simp [ArcFits, Loom.declaration, Table.keys]

theorem wrongKind_loom : (Loom.declaration "weave").WrongKind (Loom.declaration "weave").arcs := by
  refine ⟨[{ source := "yarn", target := "weave" }],
    { source := "weave", target := "weave", weight := 2 }, [], rfl, ?_⟩
  simp [ArcFits, Names, Loom.declaration, Table.keys]

/-- The loom loads if its second arc leads to a place, and then the place that is listed last comes
first, as its offset says; with that arc back to its own transition it is refused as an arc. -/
theorem load_loom :
    (∃ net, ((Loom.declaration "cloth").load .arcs 0 {}).1 = .ok net ∧
        net.offset? "yarn" = some 0) ∧
      ∃ e, ((Loom.declaration "weave").load .arcs 0 {}).1 = .error e ∧ e.family = .arc := by
  have hplace := load_arcs (proper_of_ofDatum (Loom.ofDatum_data "cloth")) 0 .default none
  have hback := load_arcs (proper_of_ofDatum (Loom.ofDatum_data "weave")) 0 .default none
  constructor
  · obtain ⟨net, hnet⟩ := hplace.1.2 ⟨by decide, Loom.nodesFit "cloth", arcFits_loom.2 (.inl rfl)⟩
    obtain ⟨-, ⟨laid, hlaid, -, hoffset⟩, -⟩ := hplace.2.1 net hnet
    have hmem : ("yarn", ({ initial := 1, offset := some 0 } : PlaceEntry)) ∈ laid :=
      hlaid.perm.mem_iff.2 (.tail _ (.head _))
    obtain ⟨i, hi⟩ := List.mem_iff_getElem?.1 hmem
    have hzero : i = 0 := Int.ofNat.inj (hlaid.offsets i _ 0 hi rfl).symm
    exact ⟨net, hnet, hzero ▸ hoffset i _ hi⟩
  · cases he : ((Loom.declaration "weave").load .arcs 0 {}).1 with
    | ok net =>
      have hfits := (hback.1.1 ⟨net, he⟩).2.2
      exact absurd (arcFits_loom.1 hfits) (by decide)
    | error e =>
      have hfamily := (hback.2.2 e he).2.1
      exact ⟨e, rfl, hfamily.2 ⟨by decide, Loom.nodesFit "weave", wrongKind_loom⟩⟩

end Declaration

/-! ## A count that is too long -/

namespace Hoard

/-- A place that has room for one and is to start with `n`. -/
def data (n : Nat) : Datum := named [
  ("schema", .text "hoard"),
  ("places", named [("gold", named [("initial", .int n), ("capacity", .int 1)])])]

def declaration (n : Nat) : Declaration where
  schema := some "hoard"
  places := [("gold", { initial := n, capacity := 1 })]

/-- The least number of too many digits. -/
def untold : Nat := 10 ^ Decimal.maxRun

theorem ofDatum_data (n : Nat) :
    Declaration.ofDatum Origin.bare.glossary (data n) = .ok (declaration n) := rfl

end Hoard

namespace Declaration

open Act Draft

/-- It is refused for what it starts with, however much that is. -/
theorem load_hoard {n : Nat} (hn : 1 < n) : ((Hoard.declaration n).load .arcs 0 {}).1 =
    .error (.overCapacity (.text "hoard") "gold" n 1) := by
  let start := begun (Hoard.declaration n) "hoard" 0 .default
  have hover : Config.default.validateCapacity = true ∧ (0 : Int) < 1 ∧ (1 : Int) < n :=
    ⟨rfl, Int.one_pos, Int.ofNat_lt.2 hn⟩
  have hplace : start.net.newPlace start.config (.text "gold") (.int n) (.int 1)
      (toDatum ({} : PlaceEntry).position) = .error (.overCapacity (.text "hoard") "gold" n 1) := by
    refine (newPlace_eq start.net .default (e := ("gold", { initial := n, capacity := 1 }))
      (Int.natCast_nonneg n) Int.one_nonneg).trans ?_
    exact if_pos hover
  have hplaces : apply (declarePlaces (Hoard.declaration n).places) start =
      (.error (.overCapacity (.text "hoard") "gold" n 1), start) := by
    change apply (Draft.place (.text "gold") (.int n) (.int 1) (toDatum ({} : PlaceEntry).position)
      >>= fun _ => declarePlaces []) start = _
    rw [apply_bind, apply_place, hplace]
  have hform : apply (arcForm (Hoard.declaration n)) start =
      (.error (.overCapacity (.text "hoard") "gold" n 1), start) := by
    have hordered : (Hoard.declaration n).orderedPlaces = .ok (Hoard.declaration n).places := rfl
    have hnodes : apply (declareNodes (Hoard.declaration n)) start =
        (.error (.overCapacity (.text "hoard") "gold" n 1), start) := by
      rw [declareNodes, hordered, apply_bind_of_ok (apply_check _ _), apply_bind, hplaces]
    rw [arcForm, apply_bind, hnodes]
  exact congrArg (fun run : Except Failure Unit × Draft => run.1.map fun _ => run.2.net) hform

/-- A declaration that passes every check of its fields is refused for a place above its capacity,
and what is met is no failure of a declaration at all, since the count cannot be written. -/
theorem hoard_unwritten :
    ofDatum Origin.bare.glossary (Hoard.data Hoard.untold) = .ok (Hoard.declaration Hoard.untold) ∧
      ∃ e, ((Hoard.declaration Hoard.untold).load .arcs 0 {}).1 = .error e ∧
        e.family = .declaration ∧ (∀ scene : Scene, e.met scene = .longNumber) ∧
        Failure.longNumber.family = .other := by
  have hmany : 1 < Hoard.untold := Nat.one_lt_pow (by decide) (by decide)
  have hlong : ¬Decimal.Brief (Hoard.untold : Int) := by
    rw [Decimal.Brief, Int.natAbs_natCast, Hoard.untold]
    exact Nat.lt_irrefl _
  have hobj : Objection (Hoard.declaration Hoard.untold) "hoard"
      (.overCapacity (.text "hoard") "gold" Hoard.untold 1) :=
    .overCapacity (e := ("gold", { initial := Hoard.untold, capacity := 1 })) (.head _)
  refine ⟨Hoard.ofDatum_data _, _, load_hoard hmany, rfl, fun scene => ?_, rfl⟩
  refine Failure.met_of_not_isSome fun hsome => hlong ?_
  exact (hobj.isSome_message scene).1 hsome _ (.head _)

end Declaration

end TokenNet
