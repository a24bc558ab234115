import TokenNet.Proofs.Making
import TokenNet.Proofs.Plain
import TokenNet.Proofs.Redrafting
/-!
Loading a net from its own export.  In arc form every plain net that was built comes back: only its
coordinates are doubles now, and its roles are those that its transitions have.  Main statement:
`Draft.Reached.reload_arcs`.
-/

namespace TokenNet

open Act

/-- A net as loading gives it back. -/
def Net.reread (net : Net) : Net :=
  { net with
    places := net.places.map Place.reread
    transitions := net.transitions.map Transition.reread
    roles := rolesOf net.transitions }

/-- The net that is loaded from the net's export. -/
def Net.reload (form : Declaration.Form) (g : Glossary) (self : Nat) (config : Config) (net : Net) :
    Except Failure Net := do
  let declaration ← Declaration.parse g (← net.toDatum)
  (Declaration.load form self { config } declaration).1

/-! ## What building leaves -/

structure Net.Built (config : Config) (net : Net) : Prop where
  declared : net.Declared
  sound : ∀ p ∈ net.places, p.Sound config
  indexed : net.indexed = true
  vectors : net.VectorsFit
  /-- Compiling again changes nothing. -/
  settled : ∀ t ∈ net.transitions, t.compiled net.emptyVector net.links = t

theorem Draft.Reached.built {config : Config} {d d' : Draft} (h : Draft.Reached config d)
    (hb : apply Draft.build d = (.ok (), d')) : d'.net.Built config := by
  obtain ⟨hnet, hflaws⟩ := Draft.build_ok hb
  have hd := h.declared
  obtain ⟨hindexed, hvectors⟩ := Net.index_fits hflaws
  refine ⟨hnet ▸ hd.index, ?_, hnet ▸ hindexed, hnet ▸ hvectors, fun t ht => ?_⟩
  · rw [hnet, Net.places_index]
    exact h.sound.places
  · rw [hnet] at ht ⊢
    exact Net.compiled_of_mem_index hd.hasArcs ht

theorem Declaration.parse_eq_ok {g : Glossary} {data : Datum} {declaration : Declaration} :
    Declaration.parse g data = .ok declaration ↔
      Declaration.ofDatum g data = Checked.ok declaration := by
  rw [Declaration.parse]
  cases Declaration.ofDatum g data with
  | ok d =>
    exact ⟨fun h => congrArg Checked.ok (Except.ok.inj h), fun h =>
      congrArg _ (Checked.ok_inj.1 h)⟩
  | error faults => exact ⟨fun h => (nomatch h), fun h => (nomatch h)⟩

/-! ## Compiling what came back -/

namespace Transition

theorem reread_joined (zeros : Vec) (t : Transition) (link : Link) :
    t.reread.joined zeros link = (t.joined zeros link).reread := by
  unfold joined
  by_cases h : t.label = link.transition
  · have h' : t.reread.label = link.transition := h
    rw [if_pos h, if_pos h']
    cases link.kind <;> rfl
  · have h' : t.reread.label ≠ link.transition := h
    rw [if_neg h, if_neg h']

/-- The coordinates have no say in the vectors. -/
theorem compiled_bare (zeros : Vec) (links : List Link) (t : Transition) :
    t.bare.compiled zeros links = (t.compiled zeros links).reread := by
  have h : ∀ s : Transition, links.foldl (joined zeros) s.reread =
      (links.foldl (joined zeros) s).reread := by
    induction links with
    | nil => exact fun _ => rfl
    | cons link rest ih => exact fun s => by rw [List.foldl_cons, reread_joined, ih]; rfl
  exact h (t.cleared zeros)

end Transition

namespace Net

variable {config : Config} {net : Net}

theorem Built.exportable (h : net.Built config) : net.Exportable config :=
  h.declared.exportable h.sound

open Declaration (draftOf nodesOf)

theorem index_draftOf (h : net.Built config) :
    (draftOf net).index.2 = [] ∧ (draftOf net).index.1 = net.reread := by
  have hflaws : (draftOf net).index.2 = [] := by
    rw [index_snd_eq_nil rfl, Declaration.link?_draftOf]
    exact h.declared.linked
  have hzeros : (draftOf net).emptyVector = net.emptyVector := by
    simp [emptyVector, size, draftOf, nodesOf]
  have hlinks : (draftOf net).links = net.links := by
    rw [links, Declaration.link?_draftOf]
    rfl
  have htransitions : (net.transitions.map Transition.bare).map
      (Transition.compiled net.emptyVector net.links) = net.transitions.map Transition.reread := by
    rw [List.map_map]
    refine List.map_congr_left fun t ht => ?_
    rw [Function.comp_apply, Transition.compiled_bare, h.settled t ht]
  refine ⟨hflaws, ?_⟩
  rw [index_fst rfl, hflaws, hzeros, hlinks]
  simp only [draftOf, nodesOf, htransitions, reread, h.indexed, h.declared.arcsKept,
    List.isEmpty_nil]

theorem reload_eq (hp : net.Plain) (he : net.Exportable config) (form : Declaration.Form)
    (g : Glossary) (self : Nat) (config' : Config) :
    net.reload form g self config' =
      (Declaration.parse g net.exported >>= fun declaration =>
        (Declaration.load form self { config := config' } declaration).1) := by
  rw [reload, hp.toDatum_eq he]
  rfl

/-- A net is loaded from its export, by its declaration, if no arc is refused. -/
theorem reload_eq_ok {config' : Config} {form : Declaration.Form} {g : Glossary} {self : Nat}
    {loaded : Net} (hp : net.Plain) (he : net.Exportable config) :
    net.reload form g self config' = .ok loaded ↔
      (∀ arc ∈ net.arcs, arc.inhibit.truth?.isSome = true) ∧
        (Declaration.load form self { config := config' } net.declaration).1 = .ok loaded := by
  have hparse : ∀ declaration, Declaration.parse g net.exported = .ok declaration ↔
      (∀ arc ∈ net.arcs, arc.inhibit.truth?.isSome = true) ∧ declaration = net.declaration :=
    fun _ => Declaration.parse_eq_ok.trans (hp.check_eq_ok he)
  rw [reload_eq hp he]
  constructor
  · intro hload
    obtain ⟨declaration, hdeclaration, hload⟩ := Failure.ok_of_bind hload
    obtain ⟨hall, rfl⟩ := (hparse declaration).1 hdeclaration
    exact ⟨hall, hload⟩
  · rintro ⟨hall, hload⟩
    rw [(hparse net.declaration).2 ⟨hall, rfl⟩]
    exact hload

/-- A net comes back as the draft that its declaration leads to. -/
theorem reload_ok {form : Declaration.Form} {self : Nat} {d : Draft} (hp : net.Plain)
    (he : net.Exportable config) (hi : ∀ arc ∈ net.arcs, arc.inhibit.truth?.isSome = true)
    (h : apply (form.declare net.declaration) (Declaration.opened net self config) = (.ok (), d))
    (g : Glossary) : net.reload form g self config = .ok d.net := by
  refine (reload_eq_ok hp he).2 ⟨hi, ?_⟩
  rw [apply] at h
  rw [Declaration.load, Declaration.openDraft_declaration hp]
  simp only [h]
  rfl

/-- Without a truth value for what inhibits, an arc is refused, and with it the export. -/
theorem reload_error {arc : Arc} (hp : net.Plain) (he : net.Exportable config)
    (harc : arc ∈ net.arcs) (hi : arc.inhibit.truth? = none) (form : Declaration.Form)
    (g : Glossary) (self : Nat) :
    ∃ faults, net.reload form g self config = .error (.faults faults) := by
  rw [reload_eq hp he, Declaration.parse]
  cases hc : Declaration.ofDatum g net.exported with
  | error faults => exact ⟨faults, rfl⟩
  | ok decl =>
    have hall := ((hp.check_eq_ok he).1 hc).1 arc harc
    rw [hi] at hall
    cases hall

/-- The arc form gives a net back. -/
theorem Built.reload_eq_reread (h : net.Built config) (hp : net.Plain)
    (hi : ∀ arc ∈ net.arcs, ∃ b, arc.inhibit = .bool b) (g : Glossary) (self : Nat) :
    net.reload .arcs g self config = .ok net.reread := by
  have htruth : ∀ arc ∈ net.arcs, arc.inhibit.truth?.isSome = true := by
    intro arc harc
    obtain ⟨b, hb⟩ := hi arc harc
    rw [hb]
    rfl
  obtain ⟨hflaws, hindex⟩ := index_draftOf h
  have hnodes := Declaration.apply_declareNodes hp h.exportable self
  have harcs : apply (Declaration.declareArcs net.declaration.arcs)
      { Declaration.opened net self config with net := nodesOf net } =
        (.ok (), { Declaration.opened net self config with net := draftOf net }) :=
    Declaration.apply_declareArcs (by simpa [Declaration.labels_nodesOf] using h.declared.distinct)
      (by simpa [Declaration.link?_nodesOf] using h.declared.linked) hi
  obtain ⟨notes, hbuild⟩ := Draft.apply_build
    (d := { Declaration.opened net self config with net := draftOf net }) hflaws
  refine reload_ok (d := { Declaration.opened net self config with net := net.reread, notes })
    hp h.exportable htruth ?_ g
  rw [Declaration.Form.declare, Declaration.arcForm, apply_bind_of_ok hnodes,
    apply_bind_of_ok harcs, hbuild, hindex]

end Net

/-! ## Equal exports -/

namespace Datum

theorem equal_text (s : String) : (Datum.text s).equal (.text s) = true := by
  simp [equal, key?, Key.selfEqual]

theorem equal_int (n : Int) : (Datum.int n).equal (.int n) = true := by
  simp [equal, key?, Key.selfEqual]

theorem equal_bool (b : Bool) : (Datum.bool b).equal (.bool b) = true := by
  simp [equal, key?, Key.selfEqual]

theorem equal_list {ds ds' : List Datum} (h : List.Forall₂ (fun d d' => d.equal d' = true) ds ds') :
    (Datum.list ds).equal (.list ds') = true := by
  rw [equal]
  induction h with
  | nil => rfl
  | cons hd _ ih => rw [equalLists, hd, ih]; rfl

/-- Maps with the same keys and equal values. -/
theorem equal_named {es es' : List (String × Datum)}
    (h : List.Forall₂ (fun e e' => e.1 = e'.1 ∧ e.2.equal e'.2 = true) es es') :
    (named es).equal (named es') = true := by
  have hentries : ∀ ys : List (Datum × Datum),
      (∀ e ∈ es'.map fun e => (Datum.text e.1, e.2), e ∈ ys) →
        equalEntries (es.map fun e => (Datum.text e.1, e.2)) ys = true := by
    intro ys
    induction h with
    | nil => exact fun _ => rfl
    | @cons e e' _ _ he _ ih =>
      intro hsub
      rw [List.map_cons, List.forall_mem_cons] at hsub
      rw [List.map_cons, equalEntries, ih hsub.2, Bool.and_true, List.any_eq_true]
      exact ⟨_, hsub.1, by rw [he.1, equal_text, he.2]; rfl⟩
  simp only [named, equal, List.length_map, h.length_eq, decide_true, Bool.true_and]
  exact hentries _ fun _ he => he

section

variable {α : Type} {xs : List α} {data data' : α → Datum}

theorem equal_list_map (h : ∀ x ∈ xs, (data x).equal (data' x) = true) :
    (Datum.list (xs.map data)).equal (.list (xs.map data')) = true := by
  refine equal_list ?_
  rwa [List.forall₂_map_left_iff, List.forall₂_map_right_iff, List.forall₂_same]

theorem equal_named_map {key : α → String} (h : ∀ x ∈ xs, (data x).equal (data' x) = true) :
    (named (xs.map fun x => (key x, data x))).equal
      (named (xs.map fun x => (key x, data' x))) = true := by
  refine equal_named ?_
  rw [List.forall₂_map_left_iff, List.forall₂_map_right_iff, List.forall₂_same]
  exact fun x hx => ⟨rfl, h x hx⟩

end

theorem equal_vector (v : Vec) : (Datum.list (v.map .int)).equal (.list (v.map .int)) = true :=
  equal_list_map fun n _ => equal_int n

end Datum

theorem Position.equal_doubles {p : Position} (h : p.Exact) :
    p.doubles.toDatum.equal p.toDatum = true :=
  Datum.equal_named (by simp [doubles, h.1.equal_double, h.2.equal_double])

theorem Place.equal_reread {p : Place} (h : p.position.Exact) (i : Nat) :
    (Net.placeDatum i p.reread).equal (Net.placeDatum i p) = true :=
  Datum.equal_named (by
    simp [reread, Datum.equal_int, Position.equal_doubles h])

theorem Guard.equal_self {guard : Guard} (h : guard.truths = []) :
    guard.toDatum.equal guard.toDatum = true := by
  have hspelled : guard.spelled.toDatum = .list (guard.delta.map .int) :=
    Vec.Spelled.toDatum_of_truths h
  exact Datum.equal_named (by simp [hspelled, Datum.equal_text, Datum.equal_vector])

theorem Transition.equal_reread {t : Transition} (hw : t.Whole) (h : t.position.Exact) :
    t.reread.exported.equal t.exported = true := by
  have hrole : (t.tag?.elim Datum.null .text).equal (t.tag?.elim .null .text) = true := by
    cases t.tag? with
    | none => rfl
    | some s => exact Datum.equal_text s
  have hguards : (named (t.guards.map fun e => (e.1, e.2.toDatum))).equal
      (named (t.guards.map fun e => (e.1, e.2.toDatum))) = true :=
    Datum.equal_named_map fun e he => Guard.equal_self (hw.guards e.1 e.2 he).2
  have htag : t.reread.tag? = t.tag? := rfl
  refine Datum.equal_named ?_
  simp only [htag, List.forall₂_cons, List.Forall₂.nil, and_true, true_and]
  exact ⟨hrole, Position.equal_doubles h, Datum.equal_vector t.delta, hguards⟩

theorem Arc.equal_self {arc : Arc} (h : arc.Proper) (hb : ∃ b, arc.inhibit = .bool b) :
    arc.exported.equal arc.exported = true := by
  obtain ⟨w, -, hweight⟩ := h.weight
  obtain ⟨b, hinhibit⟩ := hb
  exact Datum.equal_named (by
    simp [hweight, hinhibit, Datum.equal_text, Datum.equal_int, Datum.equal_bool])

namespace Net

variable {config : Config} {net : Net}

theorem Plain.reread (h : net.Plain) : net.reread.Plain := by
  have hexact : ∀ p : Position, p.Exact → p.doubles.Exact := fun p hp =>
    ⟨Or.inl ⟨_, rfl, hp.1.isFinite_double⟩, Or.inl ⟨_, rfl, hp.2.isFinite_double⟩⟩
  refine ⟨h.schema, fun p hmem => ?_, fun t hmem => ?_, fun t hmem => ?_⟩
  · obtain ⟨p, hp, rfl⟩ := List.mem_map.1 hmem
    exact hexact _ (h.places p hp)
  · obtain ⟨t, ht, rfl⟩ := List.mem_map.1 hmem
    exact hexact _ (h.transitions t ht)
  · obtain ⟨t, ht, rfl⟩ := List.mem_map.1 hmem
    exact h.tagged t ht

theorem labels_reread (net : Net) : net.reread.labels = net.labels := by
  simp [reread, labels, Place.reread, Transition.reread, Function.comp_def]

theorem Exportable.reread (h : net.Exportable config) : net.reread.Exportable config := by
  refine ⟨labels_reread net ▸ h.distinct, labels_reread net ▸ h.named, fun p hmem => ?_,
    fun t hmem => ?_, h.proper⟩
  · obtain ⟨p, hp, rfl⟩ := List.mem_map.1 hmem
    exact ⟨(h.sound p hp).initial, (h.sound p hp).capacity, (h.sound p hp).validated⟩
  · obtain ⟨t, ht, rfl⟩ := List.mem_map.1 hmem
    exact ⟨(h.whole t ht).truths, (h.whole t ht).distinct, (h.whole t ht).guards⟩

/-- Read back, a net equals itself. -/
theorem equal_exported_reread (hp : net.Plain) (he : net.Exportable config)
    (hi : ∀ arc ∈ net.arcs, ∃ b, arc.inhibit = .bool b) :
    net.reread.exported.equal net.exported = true := by
  obtain ⟨s, -, hs⟩ := hp.schema
  have hplaces :
      (named (net.reread.places.zipIdx.map fun e => (e.1.label, placeDatum e.2 e.1))).equal
        (named (net.places.zipIdx.map fun e => (e.1.label, placeDatum e.2 e.1))) = true := by
    rw [Net.reread, List.zipIdx_map, List.map_map]
    exact Datum.equal_named_map fun e hmem =>
      Place.equal_reread (hp.places _ (List.fst_mem_of_mem_zipIdx hmem)) e.2
  have htransitions : (named (net.reread.transitions.map fun t => (t.label, t.exported))).equal
      (named (net.transitions.map fun t => (t.label, t.exported))) = true := by
    rw [Net.reread, List.map_map]
    exact Datum.equal_named_map fun t ht =>
      Transition.equal_reread (he.whole t ht) (hp.transitions t ht)
  have harcs : (Datum.list (net.arcs.map Arc.exported)).equal (.list (net.arcs.map Arc.exported)) =
      true :=
    Datum.equal_list_map fun arc harc => Arc.equal_self (he.proper arc harc) (hi arc harc)
  have hschema : net.reread.schema = .text s := hs
  refine Datum.equal_named ?_
  simp only [hs, hschema, List.forall₂_cons, List.Forall₂.nil, and_true, true_and]
  exact ⟨Datum.equal_text _, Datum.equal_text _, Datum.equal_text _, hplaces, htransitions, harcs⟩

end Net

namespace Draft

variable {config : Config} {d d' : Draft}

/-- A plain net that was built and whose arcs inhibit or do not, by a truth value, comes back from
its export.  The export of what came back equals its own, and so does everything that is compiled;
roles that no transition has are gone. -/
theorem Reached.reload_arcs (h : Reached config d) (hb : apply build d = (.ok (), d'))
    (hp : d'.net.Plain) (hi : ∀ arc ∈ d'.net.arcs, ∃ b, arc.inhibit = .bool b) (g : Glossary)
    (self : Nat) :
    ∃ loaded data data', d'.net.reload .arcs g self config = .ok loaded ∧
      d'.net.toDatum = .ok data ∧ loaded.toDatum = .ok data' ∧ data'.equal data = true ∧
      (loaded.places.map fun p => (p.label, p.initial, p.capacity)) =
        (d'.net.places.map fun p => (p.label, p.initial, p.capacity)) ∧
      (loaded.transitions.map fun t => (t.label, t.delta, t.guards)) =
        (d'.net.transitions.map fun t => (t.label, t.delta, t.guards)) ∧
      loaded.arcs = d'.net.arcs ∧ loaded.arcsKept = .bool true ∧ loaded.indexed = true ∧
      loaded.roles.map Role.label =
        (d'.net.transitions.filterMap Transition.tag?).eraseDups.map .text := by
  have hbuilt := h.built hb
  refine ⟨d'.net.reread, d'.net.exported, d'.net.reread.exported,
    hbuilt.reload_eq_reread hp hi g self, hp.toDatum_eq hbuilt.exportable,
    hp.reread.toDatum_eq hbuilt.exportable.reread,
    Net.equal_exported_reread hp hbuilt.exportable hi, ?_, ?_, rfl, hbuilt.declared.arcsKept,
    hbuilt.indexed, ?_⟩
  · simp [Net.reread, Place.reread, Function.comp_def]
  · simp [Net.reread, Transition.reread, Function.comp_def]
  · simp [Net.reread, rolesOf, Function.comp_def]

end Draft

/-! ## A net that comes back -/

namespace Kiosk

def one : Binary64 := { Binary64.zero false with exponent := ⟨1023, by decide⟩ }

/-- What is sold is taken from the stock, asked for twice, and nothing is sold when the till is
full.  How the last arc inhibits is left open. -/
def steps (inhibit : Datum) : List Draft.Step :=
  [.place (.text "stock") (.int 3) (.int 5) (.list [.int 1, .float one]),
    .place (.text "till") .null .null .null,
    .transition (.text "sell") (.text "clerk") (.position (.int 1) (.int 0)),
    .transition (.text "refill") .null .null,
    .arc (.place "stock") (.transition "sell") (.int 1) (.bool false),
    .arc (.transition "sell") (.place "till") (.int 2) (.bool false),
    .arc (.place "stock") (.transition "sell") (.int 1) (.bool false),
    .arc (.place "till") (.transition "sell") (.int 4) inhibit]

def start : Draft := { self := 0, net := { schema := .text "kiosk" }, config := .default }

def draft (inhibit : Datum) : Draft := start.follow (steps inhibit)

def built (inhibit : Datum) : Draft := after Draft.build (draft inhibit)

theorem reached_start : Draft.Reached .default start :=
  @Draft.Reached.opened .default 0 (.text "kiosk") (.text "petriNet") _ rfl

theorem reached_draft (inhibit : Datum) : Draft.Reached .default (draft inhibit) :=
  reached_start.follow _

theorem apply_build (inhibit : Datum) :
    apply Draft.build (draft inhibit) = (.ok (), built inhibit) := by
  obtain ⟨notes, hb⟩ := Draft.apply_build (reached_draft inhibit).declared.index_snd
  rw [built, after, hb]

theorem plain (inhibit : Datum) : (built inhibit).net.Plain := by
  have hone : (Datum.int 1).Exact := Or.inr ⟨1, rfl, one, by decide⟩
  have hstart : start.net.Plain := ⟨⟨"kiosk", by decide, rfl⟩, by simp [start], by simp [start],
    by simp [start]⟩
  have horigin : Draft.PlainPosition .null := by
    rintro p ⟨⟩
    exact ⟨Datum.exact_zero, Datum.exact_zero⟩
  have hsteps : ∀ s ∈ steps inhibit ++ [.build], s.Plain := by
    simp only [steps, List.cons_append, List.nil_append, List.forall_mem_cons]
    refine ⟨?_, horigin, ⟨Or.inr (Or.inl ⟨_, rfl⟩), ?_⟩, ⟨Or.inl rfl, horigin⟩, trivial, trivial,
      trivial, trivial, trivial, fun _ h => absurd h List.not_mem_nil⟩
    · rintro p ⟨⟩
      exact ⟨hone, Or.inl ⟨_, rfl, rfl⟩⟩
    · rintro p ⟨⟩
      exact ⟨hone, Datum.exact_zero⟩
  have hbuilt : built inhibit = start.follow (steps inhibit ++ [.build]) := by
    rw [Draft.follow, List.foldl_append]
    rfl
  rw [hbuilt]
  exact Draft.plain_follow reached_start.declared hstart hsteps

set_option maxRecDepth 8000 in
theorem arcs_built (inhibit : Datum) : (built inhibit).net.arcs =
    [⟨.place "stock", .transition "sell", .int 1, .bool false⟩,
      ⟨.transition "sell", .place "till", .int 2, .bool false⟩,
      ⟨.place "stock", .transition "sell", .int 1, .bool false⟩,
      ⟨.place "till", .transition "sell", .int 4, inhibit⟩] := by
  have hnet := (Draft.build_ok (apply_build inhibit)).1
  rw [hnet, Net.index_fst (reached_draft inhibit).declared.hasArcs]
  change (draft inhibit).net.arcs = _
  rfl

end Kiosk

namespace Draft

/-- The stock, the till and what is sold between them come back, the arc that was asked for twice
included. -/
theorem kiosk_reload_arcs :
    ∃ loaded data data',
      (Kiosk.built (.bool true)).net.reload .arcs Origin.bare.glossary 0 .default = .ok loaded ∧
      (Kiosk.built (.bool true)).net.toDatum = .ok data ∧ loaded.toDatum = .ok data' ∧
      data'.equal data = true ∧ loaded.indexed = true ∧
      loaded.arcs =
        [⟨.place "stock", .transition "sell", .int 1, .bool false⟩,
          ⟨.transition "sell", .place "till", .int 2, .bool false⟩,
          ⟨.place "stock", .transition "sell", .int 1, .bool false⟩,
          ⟨.place "till", .transition "sell", .int 4, .bool true⟩] := by
  have hinhibit : ∀ arc ∈ (Kiosk.built (.bool true)).net.arcs, ∃ b, arc.inhibit = .bool b := by
    rw [Kiosk.arcs_built]
    simp
  obtain ⟨loaded, data, data', hload, hdata, hdata', hequal, -, -, harcs, -, hindexed, -⟩ :=
    (Kiosk.reached_draft (.bool true)).reload_arcs (Kiosk.apply_build _) (Kiosk.plain _) hinhibit
      Origin.bare.glossary 0
  exact ⟨loaded, data, data', hload, hdata, hdata', hequal, hindexed,
    harcs.trans (Kiosk.arcs_built _)⟩

end Draft

end TokenNet
