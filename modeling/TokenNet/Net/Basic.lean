import TokenNet.Datum.Key
import TokenNet.Table
import TokenNet.Vector.Spelled
/-!
Place/transition nets as they are declared.  A place has no stored offset: its offset is its
position among the places, so vectors are indexed by declaration order.  An arc end names a node of
the net that holds the arc; anything else that was put there stays as the value it is.
-/

namespace TokenNet

/-- What a firing must satisfy besides, or instead of, the bounds of its vectors. -/
inductive Discipline where
  | petriNet
  | workflow
  | stateMachine
deriving DecidableEq, Repr

namespace Discipline

def name : Discipline → String
  | .petriNet => "petriNet"
  | .workflow => "workflow"
  | .stateMachine => "stateMachine"

def ofName? (s : String) : Option Discipline :=
  [petriNet, workflow, stateMachine].find? fun d => decide (d.name = s)

@[simp] theorem ofName?_name (d : Discipline) : ofName? d.name = some d := by
  cases d <;> rfl

end Discipline

structure Position where
  x : Datum := .int 0
  y : Datum := .int 0
deriving Inhabited

namespace Position

/-- Null is the origin, a map gives its entries under `x` and `y`, and whatever else consists of
two parts gives those. -/
def ofDatum? : Datum → Option Position
  | .null => some {}
  | .position x y => some { x, y }
  | .map entries =>
    some { x := (Datum.field? entries "x").getD (.int 0)
           y := (Datum.field? entries "y").getD (.int 0) }
  | .list [x, y] => some { x, y }
  | .text s => match s.toList with
    | [x, y] => some { x := .text (String.singleton x), y := .text (String.singleton y) }
    | _ => none
  | .bytes [x, y] => some { x := .int x.toNat, y := .int y.toNat }
  | _ => none

end Position

/-- The tag by which access to a transition is granted. -/
structure Role where
  label : Datum
deriving Inhabited

/-- A capacity of zero leaves the place unbounded. -/
structure Place where
  label : String
  initial : Int := 0
  capacity : Int := 0
  position : Position := {}
deriving Inhabited

/-- The compiled form of an inhibitor: minus its weight at the inhibiting place and zero elsewhere,
so that adding it to a marking stays within bounds exactly while the place holds enough. -/
structure Guard where
  label : String
  delta : Vec
  /-- Where `delta` was given truth values. -/
  truths : List Nat := []
deriving DecidableEq, Repr, Inhabited

namespace Guard

def spelled (guard : Guard) : Vec.Spelled := { entries := guard.delta, truths := guard.truths }

def setDelta (s : Vec.Spelled) (guard : Guard) : Guard :=
  { guard with delta := s.entries, truths := s.truths }

end Guard

/-- A role is a `Datum.role`, or null for none; any other value stays as it was given, and fails
where a role's label is asked for. -/
structure Transition where
  label : String
  role : Datum := .null
  position : Position := {}
  delta : Vec := []
  guards : Table String Guard := []
  /-- Where `delta` was given truth values. -/
  truths : List Nat := []
deriving Inhabited

/-- Which vector of a transition: its own delta, or that of the guard under a key. -/
structure VectorName where
  transition : String
  guard : Option String := none
deriving DecidableEq, Repr

namespace Transition

def spelled (t : Transition) : Vec.Spelled := { entries := t.delta, truths := t.truths }

/-- Without a guard under the key nothing changes. -/
def setVector (guard : Option String) (s : Vec.Spelled) (t : Transition) : Transition :=
  match guard with
  | none => { t with delta := s.entries, truths := s.truths }
  | some key => match t.guards.find? key with
    | some g => { t with guards := t.guards.insert key (g.setDelta s) }
    | none => t

end Transition

inductive End where
  | place (label : String)
  | transition (label : String)
  | other (d : Datum)
deriving Inhabited

/-- Weight and inhibition are checked when the arc is used, so an arc may hold any value there. -/
structure Arc where
  source : End
  target : End
  weight : Datum := .int 1
  inhibit : Datum := .bool false
deriving Inhabited

structure Net where
  schema : Datum
  discipline : Discipline := .petriNet
  places : List Place := []
  transitions : List Transition := []
  arcs : List Arc := []
  roles : List Role := []
  /-- Did the last compilation succeed? -/
  indexed : Bool := false
  /-- False for a net that was given its vectors instead of arcs.  Any value may be put here, and
  only its truth counts. -/
  arcsKept : Datum := .bool true
deriving Inhabited

namespace Net

def hasArcs (net : Net) : Bool := net.arcsKept.truthy

def place? (net : Net) (label : String) : Option Place :=
  net.places.find? fun p => decide (p.label = label)

def transition? (net : Net) (label : String) : Option Transition :=
  net.transitions.find? fun t => decide (t.label = label)

def offset? (net : Net) (label : String) : Option Nat :=
  net.places.findIdx? fun p => decide (p.label = label)

def declares (net : Net) (label : String) : Bool :=
  (net.place? label).isSome || (net.transition? label).isSome

/-- The role declared under a label; none under a label that differs from itself. -/
def role? (net : Net) (key : Key) : Option Role :=
  if key.selfEqual then net.roles.find? fun r => decide (r.label.key? = some key) else none

/-- The node under a label, transitions first. -/
def node? (net : Net) (label : String) : Option End :=
  if (net.transition? label).isSome then some (.transition label)
  else if (net.place? label).isSome then some (.place label)
  else none

def size (net : Net) : Nat := net.places.length

def emptyVector (net : Net) : Vec := Vec.zeros net.size

def initialVector (net : Net) : Vec := net.places.map Place.initial

def capacityVector (net : Net) : Vec := net.places.map Place.capacity

def modifyTransition (net : Net) (label : String) (f : Transition → Transition) : Net :=
  { net with transitions := net.transitions.map fun t => if t.label = label then f t else t }

def setVector (net : Net) (name : VectorName) (s : Vec.Spelled) : Net :=
  net.modifyTransition name.transition (Transition.setVector name.guard s)

@[simp] theorem length_emptyVector (net : Net) : net.emptyVector.length = net.size := by
  simp [emptyVector]

@[simp] theorem length_initialVector (net : Net) : net.initialVector.length = net.size := by
  simp [initialVector, size]

@[simp] theorem length_capacityVector (net : Net) : net.capacityVector.length = net.size := by
  simp [capacityVector, size]

@[simp] theorem places_modifyTransition (net : Net) (label : String) (f : Transition → Transition) :
    (net.modifyTransition label f).places = net.places := rfl

end Net

/-- Every net by the number under which it was opened.  Nets are shared: whoever holds the number
sees later edits. -/
abbrev Catalog := List Net

end TokenNet
