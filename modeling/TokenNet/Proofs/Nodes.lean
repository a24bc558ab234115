import TokenNet.Proofs.Intact
import TokenNet.Proofs.Offsets
import TokenNet.Proofs.Proper
import TokenNet.Proofs.Redrafting
/-!
Which nodes a declaration may declare.  Main statement: `Declaration.settles_declareNodes`.  The
checks are spread over the keys, the order of the places and the drafting of each node; together
they come to `Declaration.NodesFit`, and whatever they do not let pass is objected to for one of the
causes in `Declaration.Objection`.
-/

namespace TokenNet

namespace Failure

/-- The kinds of failure that whoever loads a declaration tells apart. -/
inductive Family where
  | declaration
  | arc
  | indexing
  | other
deriving DecidableEq, Repr

def family : Failure → Family
  | .badLabel .. | .duplicateLabel .. | .countNotInt .. | .negativeCount .. | .overCapacity ..
  | .badPosition .. | .faults .. | .noSchema | .placeKey .. | .transitionKey .. | .someOffsets
  | .sparseOffsets .. | .unknownNode .. | .noDelta .. => .declaration
  | .invalidWeight .. | .targetNotTransition .. | .targetNotPlace ..
  | .inhibitorFromTransition .. | .unknownSource .. => .arc
  | .invalidArcs .. | .invalidVectors .. => .indexing
  | _ => .other

/-- The counts of places, and the offsets, that the message shows. -/
def counts : Failure → List Int
  | .negativeCount _ _ initial capacity | .overCapacity _ _ initial capacity => [initial, capacity]
  | .sparseOffsets sorted => sorted
  | .targetNotTransition _ net _ (.place label) =>
    (net.place? label).elim [] fun p => [p.initial, p.capacity]
  | _ => []

end Failure

/-! ## Declarations as values -/

namespace Declaration

open Act Draft

/-- The schema that a declaration is loaded under: an empty one counts for none. -/
def titleUnder (override : Option String) (d : Declaration) : String :=
  if override.getD "" = "" then d.schema.getD "" else override.getD ""

/-- A place does not start above its capacity, if it has one and that is looked at. -/
def Within (config : Config) (p : PlaceEntry) : Prop :=
  config.validateCapacity = true → 0 < p.capacity → p.initial ≤ p.capacity

/-- What a declaration needs for its nodes to be declared. -/
structure NodesFit (config : Config) (d : Declaration) : Prop where
  placeLabels : Labelled PlaceEntry.label d.places
  transitionLabels : Labelled TransitionEntry.label d.transitions
  offsets : Numbered d.places
  named : "" ∉ Table.keys d.places ++ Table.keys d.transitions
  apart : ∀ key ∈ Table.keys d.places, key ∉ Table.keys d.transitions
  within : ∀ e ∈ d.places, Within config e.2

/-- Every count of a place, and its offset, is of so few digits that it can be written. -/
structure Brief (d : Declaration) : Prop where
  initial : ∀ e ∈ d.places, Decimal.Brief e.2.initial
  capacity : ∀ e ∈ d.places, Decimal.Brief e.2.capacity
  offset : ∀ e ∈ d.places, Decimal.Brief (e.2.offset.getD 0)

def placeOf (e : String × PlaceEntry) : Place where
  label := e.1
  initial := e.2.initial
  capacity := e.2.capacity
  position := e.2.position

/-- A transition before any vectors are given to it. -/
def transitionOf (e : String × TransitionEntry) : Transition where
  label := e.1
  role := e.2.role.elim .null fun s => .role (.text s)
  position := e.2.position

/-- The places in their order, if there is one. -/
def laid (d : Declaration) : List (String × PlaceEntry) :=
  match d.orderedPlaces with
  | .ok laid => laid
  | .error _ => []

/-- The net as soon as its nodes are declared. -/
def nodes (d : Declaration) (title : String) : Net where
  schema := .text title
  discipline := d.discipline
  places := d.laid.map placeOf
  transitions := d.transitions.map transitionOf
  roles := rolesOf (d.transitions.map transitionOf)

/-! ## What may be objected to -/

/-- Why the nodes of a declaration, or the names in its arcs, are not let pass. -/
inductive Objection (d : Declaration) (title : String) : Failure → Prop
  | untitled : Objection d title .noSchema
  | placeKey (key label : String) : Objection d title (.placeKey key label)
  | transitionKey (key label : String) : Objection d title (.transitionKey key label)
  | someOffsets : Objection d title .someOffsets
  | sparseOffsets : Objection d title
      (.sparseOffsets ((sortByOffset d.places).map fun e => e.2.offset.getD 0))
  | unnamed : Objection d title (.badLabel (.text ""))
  | duplicate (key : String) : Objection d title (.duplicateLabel (.text title) key)
  | overCapacity {e : String × PlaceEntry} : e ∈ d.places →
      Objection d title (.overCapacity (.text title) e.1 e.2.initial e.2.capacity)
  | unknownNode (label : String) : Objection d title (.unknownNode (.text title) label)

variable {decl : Declaration} {title : String} {e : Failure}

theorem Objection.family (h : Objection decl title e) : e.family = .declaration := by
  cases h <;> rfl

theorem Objection.isSome_message (h : Objection decl title e) (scene : Scene) :
    (e.message scene).isSome = true ↔ ∀ n ∈ e.counts, Decimal.Brief n := by
  cases h with
  | overCapacity he =>
    simp [Failure.message, Failure.about, Failure.counts, isSome_phrase, isSome_intText_iff,
      Datum.plain]
  | sparseOffsets => simp [Failure.message, Failure.counts, isSome_phrase, isSome_vecText_iff]
  | _ =>
    simp [Failure.message, Failure.about, Failure.counts, isSome_phrase, Datum.plain, Datum.literal]

theorem Objection.brief (h : Objection decl title e) (hb : decl.Brief) :
    ∀ n ∈ e.counts, Decimal.Brief n := by
  cases h with
  | overCapacity he =>
    simp only [Failure.counts, List.forall_mem_cons]
    exact ⟨hb.initial _ he, hb.capacity _ he, fun _ hn => absurd hn List.not_mem_nil⟩
  | sparseOffsets =>
    intro n hn
    obtain ⟨e, he, rfl⟩ := List.mem_map.1 hn
    exact hb.offset e ((perm_sortByOffset decl.places).mem_iff.1 he)
  | _ => exact fun _ hn => absurd hn List.not_mem_nil

/-! ## Declaring the nodes -/

variable {d : Draft} {config : Config} {override : Option String}

theorem freshLabel_cases (decl : Declaration) (h : d.net.schema = .text title) (key : String) :
    (key ≠ "" ∧ key ∉ d.net.labels ∧ d.net.freshLabel (.text key) = .ok key) ∨
      (¬(key ≠ "" ∧ key ∉ d.net.labels) ∧
        ∃ e, d.net.freshLabel (.text key) = .error e ∧ Objection decl title e) := by
  by_cases hempty : key = ""
  · subst hempty
    exact .inr ⟨fun h => h.1 rfl, _, rfl, .unnamed⟩
  · have hisEmpty : key.isEmpty = false := by simpa [String.isEmpty_iff] using hempty
    by_cases hold : key ∈ d.net.labels
    · refine .inr ⟨fun h => h.2 hold, _, ?_, .duplicate key⟩
      rw [Net.freshLabel, hisEmpty, Net.declares_iff.2 hold, h]
      rfl
    · exact .inl ⟨hempty, hold, Net.freshLabel_eq_ok.2 ⟨rfl, hempty, hold⟩⟩

/-- Of the checks on a place with whole counts that are not negative two are left. -/
theorem newPlace_eq (net : Net) (config : Config) {e : String × PlaceEntry} (hi : 0 ≤ e.2.initial)
    (hc : 0 ≤ e.2.capacity) :
    net.newPlace config (.text e.1) (.int e.2.initial) (.int e.2.capacity) (toDatum e.2.position) =
      match net.freshLabel (.text e.1) with
      | .error err => .error err
      | .ok label =>
        if config.validateCapacity ∧ 0 < e.2.capacity ∧ e.2.capacity < e.2.initial then
          .error (.overCapacity net.schema label e.2.initial e.2.capacity)
        else .ok { placeOf e with label } := by
  have hneg : ¬(e.2.initial < 0 ∨ e.2.capacity < 0) := by omega
  rw [Net.newPlace]
  cases net.freshLabel (.text e.1) with
  | error err => rfl
  | ok label =>
    change (if _ then _ else _ : Except Failure Place) = _
    rw [if_neg hneg]
    split <;> rfl

theorem settles_place (h : d.net.schema = .text title) {e : String × PlaceEntry}
    (he : e ∈ decl.places) (hi : 0 ≤ e.2.initial) (hc : 0 ≤ e.2.capacity) :
    Settles (Draft.place (.text e.1) (.int e.2.initial) (.int e.2.capacity) (toDatum e.2.position))
      d ((e.1 ≠ "" ∧ e.1 ∉ d.net.labels) ∧ Within d.config e.2) (placeOf e)
      { d with net := d.net.addPlace (placeOf e) } (Objection decl title) := by
  rw [Settles, apply_place, newPlace_eq _ _ hi hc]
  rcases freshLabel_cases decl h e.1 with ⟨hne, hnew, hok⟩ | ⟨hno, err, herr, hobj⟩
  · simp only [hok]
    by_cases hw : Within d.config e.2
    · have hunder : ¬(d.config.validateCapacity = true ∧ 0 < e.2.capacity ∧
          e.2.capacity < e.2.initial) := by
        rintro ⟨hv, hpos, hlt⟩
        exact absurd (hw hv hpos) (Int.not_le.2 hlt)
      rw [if_neg hunder]
      exact .inl ⟨⟨⟨hne, hnew⟩, hw⟩, rfl⟩
    · have hover : d.config.validateCapacity = true ∧ 0 < e.2.capacity ∧
          e.2.capacity < e.2.initial := by
        rw [Within] at hw
        push Not at hw
        exact hw
      rw [if_pos hover, h]
      exact .inr ⟨fun hfit => hw hfit.2, _, _, rfl, .overCapacity he⟩
  · simp only [herr]
    exact .inr ⟨fun hfit => hno hfit.1, _, _, rfl, hobj⟩

/-- What a list of entries needs to be declared one after the other. -/
def Fresh (net : Net) (keys : List String) : Prop := ∀ key ∈ keys, key ≠ "" ∧ key ∉ net.labels

theorem fresh_cons {net net' : Net} {key : String} {keys : List String}
    (hn : (key :: keys).Nodup) (hl : net'.labels.Perm (key :: net.labels)) :
    (key ≠ "" ∧ key ∉ net.labels) ∧ Fresh net' keys ↔ Fresh net (key :: keys) := by
  unfold Fresh
  rw [List.forall_mem_cons]
  refine and_congr_right fun _ => forall₂_congr fun k hk => and_congr_right fun _ => ?_
  have hne : k ≠ key := fun he => (List.nodup_cons.1 hn).1 (he ▸ hk)
  rw [hl.mem_iff, List.mem_cons, not_or]
  exact and_iff_right hne

theorem settles_declarePlaces (hp : decl.Proper) {es : List (String × PlaceEntry)}
    (h : d.net.schema = .text title) (hes : ∀ e ∈ es, e ∈ decl.places)
    (hn : (es.map Prod.fst).Nodup) :
    Settles (declarePlaces es) d (Fresh d.net (es.map Prod.fst) ∧ ∀ e ∈ es, Within d.config e.2) ()
      { d with net := { d.net with places := d.net.places ++ es.map placeOf } }
      (Objection decl title) := by
  induction es generalizing d with
  | nil => exact .inl ⟨⟨by simp [Fresh], by simp⟩, by simp [declarePlaces]⟩
  | cons e rest ih =>
    rw [List.forall_mem_cons] at hes
    have hhead := settles_place h hes.1 (hp.initial e hes.1) (hp.capacity e hes.1)
    have hrest := ih (d := { d with net := d.net.addPlace (placeOf e) }) h hes.2
      (List.nodup_cons.1 hn).2
    have hall : Settles (declarePlaces (e :: rest)) d _ () _ _ :=
      hhead.bind (f := fun _ => declarePlaces rest) fun _ => hrest
    have hplaces : (d.net.addPlace (placeOf e)).places ++ rest.map placeOf =
        d.net.places ++ (e :: rest).map placeOf := by simp [Net.addPlace]
    rw [hplaces] at hall
    refine hall.congr ?_
    rw [List.forall_mem_cons, and_and_and_comm, List.map_cons,
      fresh_cons hn (Net.labels_addPlace d.net (placeOf e))]

theorem tag?_transitionOf (e : String × TransitionEntry) :
    (transitionOf e).tag? = e.2.role ∧ (transitionOf e).Tagged := by
  unfold Transition.tag? Transition.Tagged transitionOf
  cases e.2.role with
  | none => exact ⟨rfl, .inl rfl⟩
  | some s => exact ⟨rfl, .inr ⟨s, rfl⟩⟩

/-- The net with one transition more, and with its role. -/
def withTransition (net : Net) (before : List Transition) (t : Transition) : Net :=
  { net with roles := rolesOf (before ++ [t]) }.addTransition t

theorem settles_transition (decl : Declaration) {before : List Transition}
    (h : d.net.schema = .text title)
    (hroles : d.net.roles = rolesOf before) (e : String × TransitionEntry) :
    Settles (Draft.transition (.text e.1) (e.2.role.elim .null .text) (toDatum e.2.position)) d
      (e.1 ≠ "" ∧ e.1 ∉ d.net.labels) (transitionOf e)
      { d with net := withTransition d.net before (transitionOf e) } (Objection decl title) := by
  rw [Settles, apply_transition]
  rcases freshLabel_cases decl h e.1 with ⟨hne, hnew, hok⟩ | ⟨hno, err, herr, hobj⟩
  · have hrole := apply_roleOf hroles (tag?_transitionOf e).2
    rw [(tag?_transitionOf e).1] at hrole
    simp only [hok, hrole]
    exact .inl ⟨⟨hne, hnew⟩, rfl⟩
  · simp only [herr]
    exact .inr ⟨hno, _, _, rfl, hobj⟩

theorem declareTransitions_labelled {e : String × TransitionEntry}
    (h : ∀ l, e.2.label = some l → l = e.1) (rest : List (String × TransitionEntry)) :
    declareTransitions (e :: rest) =
      Draft.transition (.text e.1) (e.2.role.elim .null .text) (toDatum e.2.position) >>= fun _ =>
        declareTransitions rest := by
  obtain ⟨key, t⟩ := e
  rw [declareTransitions]
  cases hl : t.label with
  | none => rfl
  | some l =>
    have hkey : l = key := h l hl
    simp [hkey]

theorem apply_declareTransitions_misnamed {e : String × TransitionEntry} {label : String}
    (hl : e.2.label = some label) (hne : label ≠ e.1) (rest : List (String × TransitionEntry))
    (d : Draft) :
    apply (declareTransitions (e :: rest)) d = (.error (.transitionKey e.1 label), d) := by
  obtain ⟨key, t⟩ := e
  replace hl : t.label = some label := hl
  replace hne : label ≠ key := hne
  rw [declareTransitions, hl]
  simp only [ne_eq, hne, not_false_eq_true, if_true]
  rfl

theorem settles_declareTransitions {es : List (String × TransitionEntry)}
    {before : List Transition} (h : d.net.schema = .text title)
    (hroles : d.net.roles = rolesOf before) (hn : (es.map Prod.fst).Nodup) :
    Settles (declareTransitions es) d
      (Labelled TransitionEntry.label es ∧ Fresh d.net (es.map Prod.fst)) ()
      { d with net := { d.net with
        transitions := d.net.transitions ++ es.map transitionOf
        roles := rolesOf (before ++ es.map transitionOf) } } (Objection decl title) := by
  induction es generalizing d before with
  | nil =>
    exact .inl ⟨⟨by simp [Labelled], by simp [Fresh]⟩, by simp [declareTransitions, ← hroles]⟩
  | cons e rest ih =>
    by_cases hlabel : ∀ l, e.2.label = some l → l = e.1
    · have hall := (settles_transition decl h hroles e).bind
        (f := fun _ => declareTransitions rest) fun _ =>
          ih (d := { d with net := withTransition d.net before (transitionOf e) }) h rfl
            (List.nodup_cons.1 hn).2
      have hnet : { withTransition d.net before (transitionOf e) with
          transitions := (withTransition d.net before (transitionOf e)).transitions ++
            rest.map transitionOf
          roles := rolesOf (before ++ [transitionOf e] ++ rest.map transitionOf) } =
          { d.net with
            transitions := d.net.transitions ++ (e :: rest).map transitionOf
            roles := rolesOf (before ++ (e :: rest).map transitionOf) } := by
        simp [withTransition, Net.addTransition]
      simp only [hnet] at hall
      rw [declareTransitions_labelled hlabel]
      refine hall.congr ?_
      have hlabels : (withTransition d.net before (transitionOf e)).labels.Perm
          (e.1 :: d.net.labels) :=
        Net.labels_addTransition { d.net with roles := rolesOf (before ++ [transitionOf e]) }
          (transitionOf e)
      rw [and_left_comm, List.map_cons, fresh_cons hn hlabels, Labelled, Labelled,
        List.forall_mem_cons, and_iff_right hlabel]
    · push Not at hlabel
      obtain ⟨l, hl, hne⟩ := hlabel
      exact .inr ⟨fun hfit => hne (hfit.1 e List.mem_cons_self l hl), _, _,
        apply_declareTransitions_misnamed hl hne rest d, .transitionKey e.1 l⟩

/-- The draft that a declaration starts from. -/
def begun (decl : Declaration) (title : String) (self : Nat) (config : Config) : Draft where
  self := self
  net := { schema := .text title, discipline := decl.discipline }
  config := config

theorem Misplaced.objection (h : Misplaced decl.places e) : Objection decl title e := by
  cases h with
  | key _ => exact .placeKey _ _
  | some => exact .someOffsets
  | sparse _ => exact .sparseOffsets

/-- The conditions on the nodes in the order in which they are met, for places that are laid
out. -/
theorem nodesFit_iff {laid : List (String × PlaceEntry)} {config : Config} {net net' : Net}
    (hlabels : Labelled PlaceEntry.label decl.places) (hnumbered : Numbered decl.places)
    (hlaid : Laid decl.places laid) (hnet : net.labels = [])
    (hnet' : net'.labels = laid.map Prod.fst) :
    (Fresh net (laid.map Prod.fst) ∧ ∀ e ∈ laid, Within config e.2) ∧
        (Labelled TransitionEntry.label decl.transitions ∧
          Fresh net' (Table.keys decl.transitions)) ↔ decl.NodesFit config := by
  have hkeys : ∀ key, key ∈ laid.map Prod.fst ↔ key ∈ Table.keys decl.places :=
    fun key => (hlaid.perm.map Prod.fst).mem_iff
  constructor
  · rintro ⟨⟨hplaces, hwithin⟩, hlabelled, htransitions⟩
    refine ⟨hlabels, hlabelled, hnumbered, fun hmem => ?_, fun key hkey hkey' => ?_,
      fun e he => hwithin e (hlaid.perm.mem_iff.2 he)⟩
    · rcases List.mem_append.1 hmem with hmem | hmem
      · exact (hplaces "" ((hkeys "").2 hmem)).1 rfl
      · exact (htransitions "" hmem).1 rfl
    · exact (htransitions key hkey').2 (hnet' ▸ (hkeys key).2 hkey)
  · intro hfit
    refine ⟨⟨fun key hkey => ⟨?_, hnet ▸ List.not_mem_nil⟩,
      fun e he => hfit.within e (hlaid.perm.mem_iff.1 he)⟩, hfit.transitionLabels,
      fun key hkey => ⟨?_, fun hold => ?_⟩⟩
    · rintro rfl
      exact hfit.named (List.mem_append_left _ ((hkeys "").1 hkey))
    · rintro rfl
      exact hfit.named (List.mem_append_right _ hkey)
    · exact hfit.apart key ((hkeys key).1 (hnet' ▸ hold)) hkey

/-- Declaring the nodes goes through exactly if they fit. -/
theorem settles_declareNodes (hp : decl.Proper) (title : String) (self : Nat) (config : Config) :
    Settles (declareNodes decl) (begun decl title self config) (decl.NodesFit config) ()
      { begun decl title self config with net := decl.nodes title } (Objection decl title) := by
  rcases orderedPlaces_cases decl with ⟨hlabels, hnumbered, laid, hok, hlaid⟩ | ⟨hno, e, herr, he⟩
  · have hkeys : (laid.map Prod.fst).Perm (Table.keys decl.places) := hlaid.perm.map Prod.fst
    let placed : Draft := { begun decl title self config with
      net := { (begun decl title self config).net with places := laid.map placeOf } }
    have hlabelled : placed.net.labels = laid.map Prod.fst := by
      simp [placed, begun, Net.labels, placeOf, Function.comp_def]
    have hplaces : Settles (declarePlaces laid) (begun decl title self config) _ () placed
        (Objection decl title) :=
      settles_declarePlaces hp rfl (fun e he => hlaid.perm.mem_iff.1 he)
        (hkeys.nodup_iff.2 hp.placeKeys)
    have htransitions : Settles (declareTransitions decl.transitions) placed _ () _
        (Objection decl title) :=
      settles_declareTransitions rfl (show placed.net.roles = rolesOf [] from rfl)
        hp.transitionKeys
    have hrun : apply (declareNodes decl) (begun decl title self config) =
        apply (declarePlaces laid >>= fun _ => declareTransitions decl.transitions)
          (begun decl title self config) := by
      rw [declareNodes, hok]
      exact apply_bind_of_ok (apply_check _ _)
    have hnodes : decl.nodes title = { placed.net with
        transitions := placed.net.transitions ++ decl.transitions.map transitionOf
        roles := rolesOf ([] ++ decl.transitions.map transitionOf) } := by
      rw [nodes, Declaration.laid, hok]
      rfl
    rw [Settles, hrun, hnodes]
    exact (hplaces.bind (f := fun _ => declareTransitions decl.transitions)
      fun _ => htransitions).congr (nodesFit_iff hlabels hnumbered hlaid rfl hlabelled)
  · refine .inr ⟨fun hfit => hno ⟨hfit.placeLabels, hfit.offsets⟩, e,
      begun decl title self config, ?_, he.objection⟩
    rw [declareNodes, apply_bind, apply_check, herr]

theorem NodesFit.laid (h : decl.NodesFit config) : Laid decl.places decl.laid := by
  rcases orderedPlaces_cases decl with ⟨-, -, laid, hok, hlaid⟩ | ⟨hno, -⟩
  · rwa [Declaration.laid, hok]
  · exact absurd ⟨h.placeLabels, h.offsets⟩ hno

theorem nodup_labels_nodes (hp : decl.Proper) (h : decl.NodesFit config) :
    (decl.nodes title).labels.Nodup := by
  have hlabels : (decl.nodes title).labels =
      decl.laid.map Prod.fst ++ Table.keys decl.transitions := by
    simp [nodes, Net.labels, placeOf, transitionOf, Table.keys, Function.comp_def]
  have hkeys : (decl.laid.map Prod.fst).Perm (Table.keys decl.places) := h.laid.perm.map Prod.fst
  rw [hlabels, List.nodup_append]
  refine ⟨hkeys.nodup_iff.2 hp.placeKeys, hp.transitionKeys, fun key hkey key' hkey' he => ?_⟩
  exact h.apart key (hkeys.mem_iff.1 hkey) (he ▸ hkey')

/-- Every place stands at the offset at which it was laid out. -/
theorem offset?_nodes (hp : decl.Proper) (h : decl.NodesFit config) (title : String) {i : Nat}
    {e : String × PlaceEntry} (hi : decl.laid[i]? = some e) :
    (decl.nodes title).offset? e.1 = some i := by
  have hplace : (decl.nodes title).places[i]? = some (placeOf e) := by
    rw [nodes, List.getElem?_map, hi]
    rfl
  exact Net.offset?_of_getElem? (nodup_labels_nodes hp h) hplace

/-! ## Loading -/

theorem openDraft_eq (decl : Declaration) (self : Nat) (config : Config)
    (override : Option String) :
    decl.openDraft self { schema := override.elim .null .text, config } =
      if decl.titleUnder override = "" then .error .noSchema
      else .ok (begun decl (decl.titleUnder override) self config) := by
  have hschema : resolvedSchema decl (override.elim .null .text) =
      if decl.titleUnder override = "" then .error .noSchema
      else .ok (.text (decl.titleUnder override)) := by
    unfold resolvedSchema titleUnder
    cases override with
    | none => cases decl.schema <;> simp [Datum.truthy, String.isEmpty_iff]
    | some s =>
      by_cases hs : s = ""
      · cases decl.schema <;> simp [Datum.truthy, hs, String.isEmpty_iff]
      · simp [Datum.truthy, hs]
  have hopen : ∀ title : String,
      Draft.open? self (.text title) (.text decl.discipline.name) config =
        .ok (begun decl title self config) := by
    intro title
    simp [Draft.open?, Datum.text?, begun]
  rw [openDraft, hschema]
  split
  · rfl
  · exact hopen _

/-- A declaration that is loaded comes to the net that it settles on, or fails for want of a schema
or for what the form finds. -/
theorem load_cases {form : Form} {self : Nat} {config : Config} {override : Option String}
    {P : Prop} {d' : Draft} {K : Failure → Prop}
    (h : Settles (form.declare decl) (begun decl (decl.titleUnder override) self config) P ()
      d' K) :
    (decl.titleUnder override ≠ "" ∧ P ∧
        (decl.load form self { schema := override.elim .null .text, config }).1 = .ok d'.net) ∨
      (¬(decl.titleUnder override ≠ "" ∧ P) ∧ ∃ e,
        (decl.load form self { schema := override.elim .null .text, config }).1 = .error e ∧
          (decl.titleUnder override = "" ∧ e = .noSchema ∨
            decl.titleUnder override ≠ "" ∧ K e)) := by
  rw [load, openDraft_eq]
  by_cases htitle : decl.titleUnder override = ""
  · rw [if_pos htitle]
    exact .inr ⟨fun hfit => hfit.1 htitle, _, rfl, .inl ⟨htitle, rfl⟩⟩
  · rw [if_neg htitle]
    rcases h with ⟨hP, hrun⟩ | ⟨hP, e, left, hrun, he⟩
    · refine .inl ⟨htitle, hP, ?_⟩
      simp only [apply] at hrun
      simp only [hrun]
      rfl
    · refine .inr ⟨fun hfit => hP hfit.2, e, ?_, .inr ⟨htitle, he⟩⟩
      simp only [apply] at hrun
      simp only [hrun]
      rfl

end Declaration

end TokenNet
