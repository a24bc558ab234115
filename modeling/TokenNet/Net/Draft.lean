import TokenNet.Net.Query
import TokenNet.Note
/-!
Declaring a net step by step.  A draft is the net declared so far and the configuration it is
checked under.  A step checks what it is given against the net and then adds the result; it keeps
the draft it leaves behind also when it fails, so what a failed step has changed can be stated.

Arc ends are given as ends of the drafted net: `Net.endOf` reads them from values.
-/

namespace TokenNet

/-- `self` is the number that the net has, or will have, in its catalog. -/
structure Draft where
  self : Nat := 0
  net : Net
  config : Config := .default
  notes : List Note := []

abbrev Drafting (α : Type) := ExceptT Failure (StateM Draft) α

namespace Net

/-! ## What may be added -/

/-- A value as an end of the net with number `self`. -/
def endOf (self : Nat) (d : Datum) : End :=
  match d.unwrap with
  | .node n =>
    if n.net = self then
      match n.kind with | .place => .place n.label | .transition => .transition n.label
    else .other d.unwrap
  | other => .other other

def placeLabel? (net : Net) : End → Option String
  | .place label => if (net.place? label).isSome then some label else none
  | _ => none

def transitionLabel? (net : Net) : End → Option String
  | .transition label => if (net.transition? label).isSome then some label else none
  | _ => none

/-- Places and transitions share one set of labels. -/
def freshLabel (net : Net) : Datum → Except Failure String
  | .text s =>
    if s.isEmpty then .error (.badLabel (.text s))
    else if net.declares s then .error (.duplicateLabel net.schema s)
    else .ok s
  | d => .error (.badLabel d)

/-- Null counts as zero. -/
def count (net : Net) (place field : String) : Datum → Except Failure Int
  | .null => .ok 0
  | .int n => .ok n
  | d => .error (.countNotInt net.schema place field d)

def newPosition (d : Datum) : Except Failure Position :=
  match Position.ofDatum? d with
  | some p => .ok p
  | none => .error (.badPosition d)

def newPlace (net : Net) (config : Config) (label initial capacity position : Datum) :
    Except Failure Place := do
  let label ← net.freshLabel label
  let initial ← net.count label "initial" initial
  let capacity ← net.count label "capacity" capacity
  if initial < 0 ∨ capacity < 0 then
    throw (.negativeCount net.schema label initial capacity)
  else if config.validateCapacity ∧ 0 < capacity ∧ capacity < initial then
    throw (.overCapacity net.schema label initial capacity)
  else
    return { label, initial, capacity, position := ← newPosition position }

/-- Arcs join a place and a transition; an inhibitor arc starts at the place. -/
def newArc (net : Net) (self : Nat) (source target : End) (weight inhibit : Datum) :
    Except Failure Arc :=
  let arc : Arc := { source, target, weight, inhibit }
  if weight.positive?.isNone then .error (.invalidWeight weight)
  else match net.placeLabel? source, net.transitionLabel? source with
    | some label, _ =>
      if (net.transitionLabel? target).isSome then .ok arc
      else .error (.targetNotTransition self net label target)
    | none, some label =>
      if inhibit.truthy then .error (.inhibitorFromTransition net.schema label)
      else if (net.placeLabel? target).isSome then .ok arc
      else .error (.targetNotPlace self net label target)
    | none, none => .error (.unknownSource self net source)

def addPlace (net : Net) (p : Place) : Net := { net with places := net.places ++ [p] }

def addTransition (net : Net) (t : Transition) : Net :=
  { net with transitions := net.transitions ++ [t] }

def addArc (net : Net) (a : Arc) : Net := { net with arcs := net.arcs ++ [a] }

def addRole (net : Net) (r : Role) : Net := { net with roles := net.roles ++ [r] }

end Net

namespace Draft

/-! ## Steps -/

/-- An empty draft; the discipline is read from a value. -/
def open? (self : Nat) (schema discipline : Datum) (config : Config) : Except Failure Draft :=
  match discipline.text?.bind Discipline.ofName? with
  | some d => .ok { self, net := { schema, discipline := d }, config }
  | none => .error (.unknownDiscipline discipline)

def drafted : Drafting Net := do return (← get).net

def edit (f : Net → Net) : Drafting Unit :=
  modify fun draft => { draft with net := f draft.net }

def report (notes : List Note) : Drafting Unit :=
  modify fun draft => { draft with notes := draft.notes ++ notes }

def check {α : Type} : Except Failure α → Drafting α
  | .ok a => return a
  | .error e => throw e

def place (label initial capacity position : Datum) : Drafting Place := do
  let draft ← get
  let p ← check (draft.net.newPlace draft.config label initial capacity position)
  edit fun net => net.addPlace p
  return p

/-- The role under a label, declared on first use. -/
def role (label : Datum) : Drafting Role := do
  match label.key? with
  | none => throw .wrongType
  | some key =>
    match (← drafted).role? key with
    | some role => return role
    | none =>
      edit fun net => net.addRole { label }
      return { label }

/-- A text names a role of the net; any other value is carried as it is. -/
def roleOf (d : Datum) : Drafting Datum := do
  match d with
  | .text s => return .role (← role (.text s)).label
  | d => return d

/-- The role is declared before the position is looked at. -/
def transition (label role position : Datum) : Drafting Transition := do
  let label ← check ((← drafted).freshLabel label)
  let role ← roleOf role
  let position ← check (Net.newPosition position)
  let t : Transition := { label, role, position }
  edit fun net => net.addTransition t
  return t

def arc (source target : End) (weight inhibit : Datum) : Drafting Arc := do
  let draft ← get
  let a ← check (draft.net.newArc draft.self source target weight inhibit)
  edit fun net => net.addArc a
  return a

/-- Compiles what is drafted and says whether all of it compiled. -/
def index : Drafting Bool := do
  let (net, findings) := (← drafted).index
  edit fun _ => net
  report (findings.map (.finding (← get).self net.schema))
  if net.hasArcs then
    report [.indexed net.schema net.places.length net.transitions.length net.arcs.length
      findings.isEmpty]
  return findings.isEmpty

def build : Drafting Unit := do
  unless ← index do throw (.invalidArcs (← drafted).schema)

/-- Runs a whole declaration and builds what it drafted. -/
def declare (steps : Drafting Unit) : Drafting Unit := do
  steps
  build
  let net ← drafted
  report [.built net.schema net.discipline]

end Draft

end TokenNet
