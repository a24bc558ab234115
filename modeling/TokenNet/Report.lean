import TokenNet.Json.Writer
import TokenNet.Stream
import TokenNet.Net.Export
/-!
What can be read off nets, firings and streams, as trees of named fields over values.

A node among the values of a report is shown as it stands, with its own values in turn.  Those were
given before the node was made, so nodes lead to ever earlier nodes and the number of all of them is
depth enough.
-/

namespace TokenNet

open CoreArithmetic

inductive Report where
  | datum (d : Datum)
  /-- A double as a bare number. -/
  | number (x : Binary64)
  | items (reports : List Report)
  | map (entries : List (Report × Report))
  | record (fields : List (String × Report))
deriving Inhabited

namespace Report

def null : Report := .datum .null

def text (s : String) : Report := .datum (.text s)

def int (n : Int) : Report := .datum (.int n)

def bool (b : Bool) : Report := .datum (.bool b)

def vec (v : Vec) : Report := .items (v.map int)

def spelled (s : Vec.Spelled) : Report := .items (s.render int bool)

def vec? (v : Option Vec) : Report := v.elim null vec

def tally (t : Vec.Tally) : Report := .record [("result", vec t.result), ("ok", bool t.ok)]

end Report

/-- Where reports find what their values refer to. -/
structure Gallery where
  node : NodeName → Report
  marking : Nat → Vec.Spelled

namespace Report

variable (v : Gallery)

mutual

def ofDatum : Datum → Report
  | .list ds => .items (ofData ds)
  | .map es => .map (ofEntries es)
  | .role label => .record [("role", ofDatum label)]
  | .position x y => .items [ofDatum x, ofDatum y]
  | .node n => v.node n
  | .thing .marking id => spelled (v.marking id)
  | d => .datum d

def ofData : List Datum → List Report
  | [] => []
  | d :: rest => ofDatum d :: ofData rest

def ofEntries : List (Datum × Datum) → List (Report × Report)
  | [] => []
  | (k, d) :: rest => (ofDatum k, ofDatum d) :: ofEntries rest

end

/-- The key of an entry as the name of a field. -/
def fieldName (k : Datum) : String :=
  match Json.keyText k with
  | .ok cs => String.ofList cs
  | .error _ => ""

mutual

/-- A schema as streams tell it, their history apart: numbers are bare and maps have fields. -/
def plain : Datum → Report
  | .float x => .number x
  | .list ds => .items (plainData ds)
  | .map es => .record (plainEntries es)
  | .thing .marking id => spelled (v.marking id)
  | d => .datum d

def plainData : List Datum → List Report
  | [] => []
  | d :: rest => plain d :: plainData rest

def plainEntries : List (Datum × Datum) → List (String × Report)
  | [] => []
  | (k, d) :: rest => (fieldName k, plain d) :: plainEntries rest

end

def position (p : Position) : Report := .items [ofDatum v p.x, ofDatum v p.y]

def place (offset : Nat) (p : Place) : Report :=
  .record [("place", text p.label), ("offset", int offset), ("initial", int p.initial),
    ("capacity", int p.capacity), ("position", position v p.position)]

def guard (key : String) (g : Guard) : Report :=
  .items [text key, .record [("label", text g.label), ("delta", spelled g.spelled)]]

def transition (t : Transition) : Report :=
  .record [("transition", text t.label), ("role", ofDatum v t.role),
    ("position", position v t.position), ("delta", spelled t.spelled),
    ("guards", .items (t.guards.map fun (key, g) => guard key g))]

/-- The node that an end of an arc of the net is. -/
def node (n : Net) : End → Report
  | .place label => match n.place? label, n.offset? label with
    | some p, some i => place v i p
    | _, _ => null
  | .transition label => (n.transition? label).elim null (transition v)
  | .other d => ofDatum v d

/-- A node at the end of an arc is told by its label. -/
def arcEnd : End → Report
  | .place label => text label
  | .transition label => text label
  | .other (.node n) => text n.label
  | .other d => ofDatum v d

def arc (a : Arc) : Report :=
  .items [arcEnd v a.source, arcEnd v a.target, ofDatum v a.weight, ofDatum v a.inhibit]

def arcs (net : Net) : Report := .items (net.arcs.map (arc v))

def roles (net : Net) : Report := .items (net.roles.map fun r => ofDatum v r.label)

def transitions (net : Net) : Report := .items (net.transitions.map (transition v))

def net (n : Net) : Report :=
  .record [("schema", ofDatum v n.schema), ("type", text n.discipline.name),
    ("indexed", bool n.indexed), ("arcs_reconstructed", ofDatum v n.arcsKept),
    ("places", .items (n.places.zipIdx.map fun (p, i) => place v i p)),
    ("transitions", transitions v n), ("arcs", arcs v n), ("roles", roles v n)]

def label? : Option End → Report
  | some (.place label) => text label
  | some (.transition label) => text label
  | _ => null

def shot (s : Shot) : Report :=
  .record [("result", vec? s.result), ("ok", bool s.ok), ("role", ofDatum v s.role)]

def outcome (o : Outcome) : Report :=
  .record [("action", ofDatum v o.action), ("multiplier", ofDatum v o.multiplier),
    ("marking", vec? o.marking), ("role", ofDatum v o.role), ("ok", bool o.ok)]

def event (e : Event) : Report :=
  .items [ofDatum v e.schema, ofDatum v e.action, ofDatum v e.multiplier]

def entry (e : Entry) : Report :=
  .record [("seq", int e.seq), ("event", event v e.event), ("marking", vec e.marking),
    ("ts", ofDatum v e.time)]

/-- Schemas in the order of their text or bytes, or of their value where they are numbers. -/
def schemaLe (a b : Datum) : Bool :=
  match a, b with
  | .text s, .text t => !decide (t < s)
  | .bytes s, .bytes t => !decide (t < s)
  | a, b => match a.number?, b.number? with
    | some x, some y => !y.lt x
    | _, _ => true

/-- The entries of a register in the order of their schemas. -/
def bySchema {α : Type} (r : Register α) : List (Datum × α) :=
  r.toList.mergeSort fun a b => schemaLe a.1 b.1

def schemas {ω : Type} (s : Stream ω) : Report :=
  .items (s.nets.toList.map fun (schema, _) => plain v schema)

def stream {ω : Type} (s : Stream ω) : Report :=
  .record [("seq", int s.seq), ("history", int s.history.length),
    ("nets", .items ((bySchema s.nets).map fun (schema, _) => plain v schema)),
    ("markings", .items ((bySchema s.markings).map fun (schema, m) =>
      .items [plain v schema, vec m]))]

end Report

namespace Gallery

def nodeWithin (catalog : Catalog) (marking : Nat → Vec.Spelled) : Nat → NodeName → Report
  | 0, n => .text n.label
  | depth + 1, n =>
    let e : End := match n.kind with | .place => .place n.label | .transition => .transition n.label
    (catalog[n.net]?).elim (.text n.label) fun net =>
      Report.node { node := nodeWithin catalog marking depth, marking } net e

def ofCatalog (catalog : Catalog) (marking : Nat → Vec.Spelled) : Gallery where
  node := nodeWithin catalog marking
    ((catalog.map fun net => net.places.length + net.transitions.length).sum + 1)
  marking

end Gallery

end TokenNet
