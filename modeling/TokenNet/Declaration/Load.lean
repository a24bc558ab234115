import TokenNet.Declaration.Basic
import TokenNet.Net.Draft
import TokenNet.Net.Export
import TokenNet.Json.Writer
/-!
Nets from declarations.  Both forms go through the drafting operations, so a loaded net satisfies
whatever a drafted one does; `arcForm` records the arcs and compiles them, `objectForm` takes over
the vectors and checks them.
-/

namespace TokenNet.Declaration

/-- Stable insertion by offset. -/
def insertByOffset (e : String × PlaceEntry) :
    List (String × PlaceEntry) → List (String × PlaceEntry)
  | [] => [e]
  | e' :: rest =>
    if e.2.offset.getD 0 < e'.2.offset.getD 0 then e :: e' :: rest
    else e' :: insertByOffset e rest

def sortByOffset (entries : List (String × PlaceEntry)) : List (String × PlaceEntry) :=
  entries.foldl (fun sorted e => insertByOffset e sorted) []

/-- The first entry whose own label contradicts its key. -/
def misnamed? {α : Type} (label : α → Option String) : Table String α → Option (String × String)
  | [] => none
  | (key, a) :: rest =>
    match label a with
    | some l => if l = key then misnamed? label rest else some (key, l)
    | none => misnamed? label rest

/-- Places in the order of their offsets, which must be all absent or `0, 1, …` in some order. -/
def orderedPlaces (d : Declaration) : Except Failure (List (String × PlaceEntry)) :=
  match misnamed? PlaceEntry.label d.places with
  | some (key, label) => .error (.placeKey key label)
  | none =>
    if d.places.all fun e => e.2.offset.isNone then .ok d.places
    else if d.places.any fun e => e.2.offset.isNone then .error .someOffsets
    else
      let sorted := sortByOffset d.places
      let offsets := sorted.map fun e => e.2.offset.getD 0
      if offsets = (List.range sorted.length).map Int.ofNat then .ok sorted
      else .error (.sparseOffsets offsets)

def toDatum (p : Position) : Datum := .position p.x p.y

/-- What the caller may override. -/
structure Overrides where
  schema : Datum := .null
  discipline : Datum := .null
  config : Config := .default

def resolvedSchema (d : Declaration) (override : Datum) : Except Failure Datum :=
  if override.truthy then .ok override
  else match d.schema with
    | some s => if s.isEmpty then .error .noSchema else .ok (.text s)
    | none => .error .noSchema

/-- The empty draft that a declaration starts from. -/
def openDraft (d : Declaration) (self : Nat) (overrides : Overrides) : Except Failure Draft := do
  let schema ← resolvedSchema d overrides.schema
  let discipline :=
    if overrides.discipline.truthy then overrides.discipline else .text d.discipline.name
  Draft.open? self schema discipline overrides.config

def declarePlaces : List (String × PlaceEntry) → Drafting Unit
  | [] => return
  | (key, p) :: rest => do
    let _ ← Draft.place (.text key) (.int p.initial) (.int p.capacity) (toDatum p.position)
    declarePlaces rest

def declareTransitions : List (String × TransitionEntry) → Drafting Unit
  | [] => return
  | (key, t) :: rest => do
    if let some label := t.label then
      if label ≠ key then throw (.transitionKey key label)
    let _ ← Draft.transition (.text key) (t.role.elim .null .text) (toDatum t.position)
    declareTransitions rest

def declareNodes (d : Declaration) : Drafting Unit := do
  declarePlaces (← Draft.check d.orderedPlaces)
  declareTransitions d.transitions

def declareArcs : List ArcEntry → Drafting Unit
  | [] => return
  | a :: rest => do
    let net ← Draft.drafted
    match net.node? a.source, net.node? a.target with
    | none, _ => throw (.unknownNode net.schema a.source)
    | _, none => throw (.unknownNode net.schema a.target)
    | some source, some target =>
      let _ ← Draft.arc source target (.int a.weight) (.bool a.inhibit)
      declareArcs rest

def arcForm (d : Declaration) : Drafting Unit := do
  declareNodes d
  declareArcs d.arcs
  Draft.build

/-- A guard without a label takes its key for one. -/
def guardOf (key : String) (g : GuardEntry) : Guard where
  label := match g.label with
    | some l => if l.isEmpty then key else l
    | none => key
  delta := g.delta

def attachVectors : List (String × TransitionEntry) → Drafting Unit
  | [] => return
  | (key, t) :: rest => do
    match t.delta with
    | none => throw (.noDelta (← Draft.drafted).schema key)
    | some delta =>
      let guards := t.guards.map fun (place, g) => (place, guardOf place g)
      Draft.edit fun net => net.modifyTransition key fun t => { t with delta, guards }
      attachVectors rest

def objectForm (d : Declaration) : Drafting Unit := do
  declareNodes d
  Draft.edit fun net => { net with arcsKept := .bool false }
  let schema := (← Draft.drafted).schema
  unless d.arcs.isEmpty do Draft.report [.arcsIgnored schema d.arcs.length]
  attachVectors d.transitions
  unless ← Draft.index do throw (.invalidVectors schema)

inductive Form where
  | arcs
  | object
deriving DecidableEq, Repr

def Form.declare : Form → Declaration → Drafting Unit
  | .arcs => arcForm
  | .object => objectForm

/-- The net, or why there is none, and what was reported on the way.  `self` is the number that the
net will have. -/
def load (form : Form) (self : Nat) (overrides : Overrides) (d : Declaration) :
    Except Failure Net × List Note :=
  match d.openDraft self overrides with
  | .error e => (.error e, [])
  | .ok draft =>
    let (result, draft) := (form.declare d).run.run draft
    (result.map fun _ => draft.net, draft.notes)

def parse (g : Glossary) (d : Datum) : Except Failure Declaration :=
  match ofDatum g d with
  | .ok decl => .ok decl
  | .error faults => .error (.faults faults)

/-- The form a net was made in, in which it can be loaded again. -/
def formOf (net : Net) : Form := if net.hasArcs then .arcs else .object

end TokenNet.Declaration

namespace TokenNet.Net

/-- Plain data as JSON text. -/
def written (layout : Json.Layout) (d : Datum) : Except Failure String :=
  match Json.write layout 0 d with
  | .ok cs => .ok (String.ofList cs)
  | .error .noForm => .error .wrongType
  | .error .longNumber => .error .longNumber

/-- The net's export as JSON text. -/
def dump (layout : Json.Layout) (net : Net) : Except Failure String := do
  written layout (← net.toDatum)

end TokenNet.Net
