import TokenNet.Proofs.Checking
import TokenNet.Proofs.Declared
import TokenNet.Proofs.Rounding
/-!
What is read back from the export of a net: the same net, in the shape of a declaration.  A net has
to be plain for that: numbers that doubles hold exactly for coordinates, and text for what tells
roles apart.  Main statements: `Net.Plain.toDatum_eq` and `Net.Plain.check_eq_ok`.
-/

namespace TokenNet

open Checked

/-- For checks that show nothing and read no number beyond all doubles: where their data comes from
does not matter to them. -/
def Origin.bare : Origin := { glossary := ⟨fun _ => none, fun _ _ => none, fun _ _ => none⟩ }

theorem Failure.mapM_ok {α β : Type} {f : α → Except Failure β} {g : α → β} {xs : List α}
    (h : ∀ x ∈ xs, f x = .ok (g x)) : xs.mapM f = .ok (xs.map g) := by
  induction xs with
  | nil => rfl
  | cons x rest ih =>
    rw [List.forall_mem_cons] at h
    rw [List.mapM_cons, h.1, ih h.2]
    rfl

namespace Datum

/-- A number that a double holds exactly. -/
def Exact (d : Datum) : Prop :=
  (∃ x, d = .float x ∧ x.isFinite = true) ∨
    ∃ n, d.whole? = some n ∧ ∃ x : Binary64, x.toInt? = some n

/-- The double that a coordinate is read as. -/
def double : Datum → Binary64
  | .float x => x
  | d => (d.whole?.bind Binary64.ofInt?).getD .nan

/-- The truth value that a datum is read as, if it is read as one. -/
def truth? (d : Datum) : Option Bool := Except.toOption (Check.bool .bare d)

theorem bool_eq_ok {o : Origin} {d : Datum} {b : Bool} :
    Check.bool o d = ok b ↔ d.truth? = some b := by
  have h : Check.bool o d = Check.bool .bare d := rfl
  rw [h, truth?]
  cases Check.bool .bare d with
  | ok c => exact ok_inj.trans (Option.some.injEq c b ▸ Iff.rfl)
  | error faults => exact ⟨fun h => (nomatch h), fun h => (nomatch h)⟩

theorem double_of_whole? {d : Datum} {n : Int} (hd : d.whole? = some n) {x : Binary64}
    (hx : x.toInt? = some n) :
    Binary64.ofInt? n = some d.double ∧ d.double.toInt? = some n := by
  obtain ⟨y, hy, hn⟩ := Binary64.ofInt?_of_toInt? hx
  have hdouble : d.double = y := by
    cases d with
    | int m => simp only [double, hd, Option.bind_some, hy, Option.getD_some]
    | bool b => simp only [double, hd, Option.bind_some, hy, Option.getD_some]
    | _ => cases hd
  rw [hdouble]
  exact ⟨hy, hn⟩

theorem exact_zero : (Datum.int 0).Exact :=
  Or.inr ⟨0, rfl, .zero false, (Binary64.toInt?_eq_some_iff rfl).2 (by
    simp [Binary64.signed, Binary64.significand, Binary64.zero])⟩

theorem Exact.coordinate {d : Datum} (h : d.Exact) (o : Origin) :
    Declaration.coordinate o d = ok (.float d.double) := by
  have hfloat : Check.float o d = ok d.double := by
    rcases h with ⟨x, rfl, -⟩ | ⟨n, hd, x, hx⟩
    · rfl
    · obtain ⟨hn, -⟩ := double_of_whole? hd hx
      cases d with
      | int m =>
        cases hd
        simp only [Check.float, hn]
      | bool b => cases b <;> rfl
      | _ => cases hd
  rw [Declaration.coordinate, hfloat, map_ok]

theorem Exact.isFinite_double {d : Datum} (h : d.Exact) : d.double.isFinite = true := by
  rcases h with ⟨x, rfl, hx⟩ | ⟨n, hd, x, hx⟩
  · exact hx
  · exact Binary64.isFinite_of_toInt? (double_of_whole? hd hx).2

/-- A coordinate that is read equals the one that was written. -/
theorem Exact.equal_double {d : Datum} (h : d.Exact) : (Datum.float d.double).equal d = true := by
  rcases h with ⟨x, rfl, hx⟩ | ⟨n, hd, x, hx⟩
  · simp [double, equal, Binary64.equal, Binary64.isNan, hx]
  · obtain ⟨-, hn⟩ := double_of_whole? hd hx
    have hcompare := (Binary64.compareInt_eq_iff (Binary64.isFinite_of_toInt? hn)).2 hn
    cases d with
    | int m =>
      cases hd
      simp only [equal, hcompare, decide_true]
    | bool b =>
      cases hd
      simp only [equal, hcompare, decide_true]
    | _ => cases hd

end Datum

namespace Position

def Exact (p : Position) : Prop := p.x.Exact ∧ p.y.Exact

/-- The position as it is read back. -/
def doubles (p : Position) : Position := { x := .float p.x.double, y := .float p.y.double }

theorem Exact.check {p : Position} (h : p.Exact) (o : Origin) :
    Declaration.position o p.toDatum = ok p.doubles := by
  simp [Declaration.position, toDatum, List.lookup_cons, h.1.coordinate, h.2.coordinate, doubles]

end Position

/-! ## The parts of a net -/

namespace Place

/-- The place as it is declared at the offset `i`. -/
def entry (i : Nat) (p : Place) : PlaceEntry where
  initial := p.initial
  capacity := p.capacity
  position := p.position.doubles
  offset := some i

theorem check_placeDatum {config : Config} {p : Place} (hs : p.Sound config)
    (hp : p.position.Exact) (o : Origin) (i : Nat) :
    Declaration.place o (Net.placeDatum i p) = ok (p.entry i) := by
  have hnatural : ∀ n : Int, 0 ≤ n → Check.natural o (.int n) = ok n := by
    intro n hn
    simp only [Check.natural, Check.int]
    exact if_pos hn
  have hoffset : Check.orNull Check.natural o (.int i) = ok (some (i : Int)) := by
    rw [Check.orNull, hnatural i (Int.natCast_nonneg i), map_ok]
    exact fun h => (nomatch h)
  simp [Declaration.place, Net.placeDatum, List.lookup_cons, hp.check, hnatural _ hs.initial,
    hnatural _ hs.capacity, hoffset, entry]

end Place

theorem check_vector (o : Origin) (v : Vec) :
    Declaration.vector o (.list (v.map .int)) = ok v := by
  have h : Check.list Check.int o (.list (v.map .int)) = ok (v.map id) :=
    Check.list_map fun n _ => rfl
  rwa [List.map_id] at h

/-- Without truth values among its entries a vector goes out as its numbers. -/
theorem Vec.Spelled.toDatum_of_truths {s : Vec.Spelled} (h : s.truths = []) :
    s.toDatum = .list (s.entries.map .int) := by
  rw [toDatum, show s = Vec.Spelled.ofVec s.entries from congrArg (Vec.Spelled.mk s.entries) h]
  exact congrArg Datum.list (Vec.Spelled.toData_ofVec s.entries)

namespace Guard

def entry (guard : Guard) : GuardEntry where
  label := some guard.label
  delta := guard.delta

theorem check_toDatum {guard : Guard} (h : guard.truths = []) (o : Origin) :
    Declaration.guard o guard.toDatum = ok guard.entry := by
  have hspelled : guard.spelled.toDatum = .list (guard.delta.map .int) :=
    Vec.Spelled.toDatum_of_truths h
  have hlabel : Declaration.label o (.text guard.label) = ok (some guard.label) := rfl
  simp [Declaration.guard, toDatum, List.lookup_cons, hspelled, hlabel, check_vector, entry]

end Guard

namespace Transition

/-- The text that tells the transition's role from others. -/
def tag? (t : Transition) : Option String :=
  match t.role with
  | .role (.text s) => some s
  | _ => none

/-- Without a role, or with one that is told by a text. -/
def Tagged (t : Transition) : Prop := t.role = .null ∨ ∃ s, t.role = .role (.text s)

def exported (t : Transition) : Datum :=
  named [("role", t.tag?.elim .null .text), ("position", t.position.toDatum),
    ("delta", .list (t.delta.map .int)),
    ("guards", named (t.guards.map fun e => (e.1, e.2.toDatum)))]

def entry (t : Transition) : TransitionEntry where
  role := t.tag?
  position := t.position.doubles
  delta := some t.delta
  guards := t.guards.map fun e => (e.1, e.2.entry)

theorem toDatum_eq {t : Transition} (hw : t.Whole) (ht : t.Tagged) :
    t.toDatum = .ok t.exported := by
  have hlabel : t.roleLabel = .ok (t.tag?.map .text) := by
    rcases ht with h | ⟨s, h⟩ <;> simp [roleLabel, tag?, h, Datum.truthy, Datum.label?]
  have hspelled : t.spelled.toDatum = .list (t.delta.map .int) :=
    Vec.Spelled.toDatum_of_truths hw.truths
  have helim : (t.tag?.map Datum.text).getD .null = t.tag?.elim .null .text := by
    cases t.tag? <;> rfl
  rw [toDatum, hlabel, hspelled, exported, ← helim]
  rfl

theorem check_exported {t : Transition} (hw : t.Whole) (hp : t.position.Exact) (o : Origin) :
    Declaration.transition o t.exported = ok t.entry := by
  have htable : Check.table Declaration.guard o
      (named (t.guards.map fun e => (e.1, e.2.toDatum))) =
        ok (t.guards.map fun e => (e.1, e.2.entry)) :=
    Check.table_named hw.distinct fun e he => Guard.check_toDatum (hw.guards e.1 e.2 he).2 o
  have hrole : Declaration.label o (t.tag?.elim .null .text) = ok t.tag? := by
    cases t.tag? <;> rfl
  have hdelta :
      Check.orNull Declaration.vector o (.list (t.delta.map .int)) = ok (some t.delta) := by
    rw [Check.orNull, check_vector, map_ok]
    exact fun h => (nomatch h)
  simp [Declaration.transition, exported, List.lookup_cons, hp.check, hrole, hdelta, htable, entry]

end Transition

/-- The label of a node. -/
def End.name : End → String
  | .place label => label
  | .transition label => label
  | .other _ => ""

namespace Arc

/-- An arc between two nodes with a positive weight. -/
structure Proper (arc : Arc) : Prop where
  source : arc.source.label? = some (.text arc.source.name)
  target : arc.target.label? = some (.text arc.target.name)
  weight : ∃ w : Int, 0 < w ∧ arc.weight = .int w

def exported (arc : Arc) : Datum :=
  named [("source", .text arc.source.name), ("target", .text arc.target.name),
    ("weight", arc.weight), ("inhibit", arc.inhibit)]

def entry (arc : Arc) : ArcEntry where
  source := arc.source.name
  target := arc.target.name
  weight := arc.weight.positive?.getD 1
  inhibit := arc.inhibit.truth?.getD false

theorem Proper.toDatum?_eq {arc : Arc} (h : arc.Proper) : arc.toDatum? = some arc.exported := by
  rw [toDatum?, h.source, h.target]
  rfl

/-- Only what inhibits may be refused. -/
theorem Proper.check_eq_ok {arc : Arc} (h : arc.Proper) {o : Origin} {a : ArcEntry} :
    Declaration.arc o arc.exported = ok a ↔ arc.inhibit.truth?.isSome = true ∧ a = arc.entry := by
  obtain ⟨w, hw, hweight⟩ := h.weight
  have hpositive : Check.positive o (.int w) = ok w := by
    simp only [Check.positive, Check.int]
    exact if_pos hw
  have hfields : Declaration.arc o arc.exported =
      ArcEntry.mk arc.source.name arc.target.name w <$>
        (Check.bool o arc.inhibit).under (.key "inhibit") := by
    simp [Declaration.arc, exported, List.lookup_cons, Check.text, hweight, hpositive]
  rw [hfields, map_eq_ok, Option.isSome_iff_exists]
  simp only [under_eq_ok, Datum.bool_eq_ok]
  constructor
  · rintro ⟨b, hb, rfl⟩
    exact ⟨⟨b, hb⟩, by simp [entry, hweight, Datum.positive?, hw, hb]⟩
  · rintro ⟨⟨b, hb⟩, rfl⟩
    exact ⟨b, hb, by simp [entry, hweight, Datum.positive?, hw, hb]⟩

theorem check_list_eq_ok {arcs : List Arc} (h : ∀ arc ∈ arcs, arc.Proper) {o : Origin}
    {as : List ArcEntry} : Check.list Declaration.arc o (.list (arcs.map exported)) = ok as ↔
      (∀ arc ∈ arcs, arc.inhibit.truth?.isSome = true) ∧ as = arcs.map entry := by
  rw [Check.list_map_eq_ok]
  induction arcs generalizing as with
  | nil => cases as <;> simp
  | cons arc rest ih =>
    rw [List.forall_mem_cons] at h
    cases as with
    | nil => simp
    | cons a as =>
      simp only [List.map_cons, List.cons.injEq, h.1.check_eq_ok, ih h.2, List.forall_mem_cons]
      exact and_and_and_comm

end Arc

theorem Net.proper_of_link? {net : Net} {arc : Arc} (h : (net.link? arc).isSome = true) :
    arc.Proper := by
  obtain ⟨w, kind, place, transition, hw, hj, -, -⟩ := isSome_link?.1 h
  obtain ⟨hweight, hpos⟩ := Datum.positive?_eq_some.1 hw
  rcases joint?_eq_some.1 hj with ⟨-, -, hs, ht⟩ | ⟨-, -, hs, ht⟩ | ⟨-, -, hs, ht⟩ <;>
    exact ⟨by rw [hs]; rfl, by rw [ht]; rfl, w, hpos, hweight⟩

/-! ## The whole net -/

namespace Net

structure Plain (net : Net) : Prop where
  schema : ∃ s, s ≠ "" ∧ net.schema = .text s
  places : ∀ p ∈ net.places, p.position.Exact
  transitions : ∀ t ∈ net.transitions, t.position.Exact
  tagged : ∀ t ∈ net.transitions, t.Tagged

def exported (net : Net) : Datum :=
  named [("schema", net.schema), ("type", .text net.discipline.name), ("version", .text "v0"),
    ("places", named (net.places.zipIdx.map fun e => (e.1.label, placeDatum e.2 e.1))),
    ("transitions", named (net.transitions.map fun t => (t.label, t.exported))),
    ("arcs", .list (net.arcs.map Arc.exported))]

def declaration (net : Net) : Declaration where
  schema := net.schema.text?
  discipline := net.discipline
  places := net.places.zipIdx.map fun e => (e.1.label, e.1.entry e.2)
  transitions := net.transitions.map fun t => (t.label, t.entry)
  arcs := net.arcs.map Arc.entry

/-- What a net must be for its export to be read back, apart from being plain. -/
structure Exportable (config : Config) (net : Net) : Prop where
  distinct : net.labels.Nodup
  named : "" ∉ net.labels
  sound : ∀ p ∈ net.places, p.Sound config
  whole : ∀ t ∈ net.transitions, t.Whole
  proper : ∀ arc ∈ net.arcs, arc.Proper

theorem Declared.exportable {config : Config} {net : Net} (h : net.Declared)
    (hs : ∀ p ∈ net.places, p.Sound config) : net.Exportable config :=
  ⟨h.distinct, h.named, hs, h.whole, fun arc harc => proper_of_link? (h.linked arc harc)⟩

variable {config : Config} {net : Net}

theorem Plain.toDatum_eq (hp : net.Plain) (he : net.Exportable config) :
    net.toDatum = .ok net.exported := by
  have htransitions : (net.transitions.mapM fun t => do return (t.label, ← t.toDatum)) =
      (.ok (net.transitions.map fun t => (t.label, t.exported)) : Except Failure _) :=
    Failure.mapM_ok fun t ht => by rw [Transition.toDatum_eq (he.whole t ht) (hp.tagged t ht)]; rfl
  have harcs : net.arcs.mapM arcDatum = .ok (net.arcs.map Arc.exported) :=
    Failure.mapM_ok fun arc harc => by rw [arcDatum, (he.proper arc harc).toDatum?_eq]
  rw [toDatum, htransitions, harcs]
  rfl

theorem Plain.check_eq_ok (hp : net.Plain) (he : net.Exportable config) {o : Origin}
    {d : Declaration} : Declaration.check o net.exported = ok d ↔
      (∀ arc ∈ net.arcs, arc.inhibit.truth?.isSome = true) ∧ d = net.declaration := by
  obtain ⟨s, -, hs⟩ := hp.schema
  have hplaces : Check.table Declaration.place o
      (named (net.places.zipIdx.map fun e => (e.1.label, placeDatum e.2 e.1))) =
        ok (net.places.zipIdx.map fun e => (e.1.label, e.1.entry e.2)) := by
    refine Check.table_named ?_ fun e hmem => ?_
    · have hlabels : net.places.zipIdx.map (Place.label ∘ Prod.fst) =
          net.places.map Place.label := by
        rw [← List.map_map, List.zipIdx_map_fst]
      exact hlabels ▸ he.distinct.of_append_left
    · have hp' := List.fst_mem_of_mem_zipIdx hmem
      exact Place.check_placeDatum (he.sound _ hp') (hp.places _ hp') o e.2
  have htransitions : Check.table Declaration.transition o
      (named (net.transitions.map fun t => (t.label, t.exported))) =
        ok (net.transitions.map fun t => (t.label, t.entry)) :=
    Check.table_named he.distinct.of_append_right fun t ht =>
      Transition.check_exported (he.whole t ht) (hp.transitions t ht) o
  have hdiscipline : Check.discipline o (.text net.discipline.name) = ok net.discipline := by
    simp [Check.discipline, Check.spelled?]
  have hlabel : Declaration.label o (.text s) = ok (some s) := rfl
  have hfields : Declaration.check o net.exported =
      (fun arcs => { net.declaration with arcs }) <$>
        (Check.list Declaration.arc o (.list (net.arcs.map Arc.exported))).under (.key "arcs") := by
    simp [Declaration.check, exported, declaration, List.lookup_cons, hs, hlabel, hdiscipline,
      Check.text, hplaces, htransitions, Datum.text?]
  rw [hfields, map_eq_ok]
  simp only [under_eq_ok, Arc.check_list_eq_ok he.proper]
  constructor
  · rintro ⟨as, ⟨hall, rfl⟩, rfl⟩
    exact ⟨hall, rfl⟩
  · rintro ⟨hall, rfl⟩
    exact ⟨_, ⟨hall, rfl⟩, rfl⟩

end Net

end TokenNet
