import TokenNet.Bench.Command
import TokenNet.Clock
import TokenNet.Declaration.Literal
import TokenNet.Declaration.Load
import TokenNet.Report
/-!
A bench: builders, nets, installations, markings, clocks and streams that stand under names and
refer to one another by number.  Nothing on a bench is ever discarded, so a number stays good.

Everything done on a bench is a `Session`, which keeps what it changed also when it fails.
-/

namespace TokenNet

namespace Bench

inductive Thing where
  | builder (id : Nat)
  | net (id : Nat)
  | installation (id : Nat)
  | handle (node : NodeName)
  | role (role : Role)
  | marking (id : Nat)
  | clock (id : Nat)
  | stream (id : Nat)

/-- A builder edits the net with its number. -/
structure Builder where
  net : Nat
  config : Config
deriving Inhabited

/-- The stream it observes, the tag it reports under, and what it does when it is called. -/
structure Observer where
  stream : Nat
  tag : String
  steps : List Command
  spoil : Bool
  raises : Option String

/-- What a stream asks for the time. -/
inductive Timepiece where
  | timeOfDay
  | clock (id : Nat)
  /-- A thing that has no time to tell. -/
  | none
deriving Inhabited

structure Stand where
  stream : Stream Observer
  timepiece : Timepiece
deriving Inhabited

/-- A vector of a net that is a marking itself, and so moves with it. -/
structure Tie where
  net : Nat
  vector : VectorName
  marking : Nat

end Bench

structure Bench where
  names : Table String Bench.Thing := []
  catalog : Catalog := []
  builders : List Bench.Builder := []
  installations : List Installation := []
  markings : List Vec.Spelled := []
  ties : List Bench.Tie := []
  clocks : List Clock := []
  streams : List Bench.Stand := []
  declarations : List Declaration := []
  /-- Are traces written to the log? -/
  traced : Bool := false
  /-- What was reported while the present command ran. -/
  log : List (Level × String) := []
  /-- The callbacks that ran while the present command ran. -/
  calls : List Report := []

abbrev Session (α : Type) := Act Bench α

namespace Bench

def lift {α : Type} : Except Failure α → Session α
  | .ok a => return a
  | .error e => throw e

def arithmetic {α : Type} : Except ArithmeticError α → Session α
  | .ok a => return a
  | .error e => throw (.ofArithmetic e)

def marked (b : Bench) (id : Nat) : Vec.Spelled := (b.markings[id]?).getD default

/-- The texts of what stands on the bench. -/
def scene (b : Bench) : Scene :=
  let text := fun (declared : Glossary → Declaration → Writing) kind id =>
    match kind with
    | .marking => (b.marked id).literal
    | .declaration =>
      (b.declarations[id]?).elim (some "")
        (declared ⟨fun n => n.label, fun _ _ => some "", fun _ _ => some ""⟩)
    | _ => some ""
  { nets := b.catalog, thing := text Declaration.literal, bare := text Declaration.bare }

def gallery (b : Bench) : Gallery := .ofCatalog b.catalog b.marked

/-- What was under way when a note could not be written is left as it stood: a net that was being
compiled keeps what had been compiled of it. -/
def abandon (n : Note) (b : Bench) : Bench :=
  match n with
  | .finding self _ found => { b with catalog := b.catalog.set self found.standing }
  | _ => b

/-- Notes show nets as they stand when they are entered. -/
def enter (n : Note) : Session Unit := do
  let b ← get
  if n.level = .warning ∨ b.traced then
    match n.message b.scene with
    | some text => set { b with log := b.log ++ [(n.level, text)] }
    | none => do
      set (b.abandon n)
      throw .longNumber

def report (notes : List Note) : Session Unit := notes.forM enter

def called (call : Report) : Session Unit := modify fun b => { b with calls := b.calls ++ [call] }

/-! ## Names -/

def find (name : String) : Session Thing := do
  match (← get).names.find? name with
  | some thing => return thing
  | none => throw (.missing name)

def keep (keptAs : Option String) (thing : Thing) : Session Unit :=
  match keptAs with
  | some name => modify fun b => { b with names := b.names.insert name thing }
  | none => return

/-- Where a net is asked for, a builder or an installation stands for its net. -/
def netId (name : String) : Session Nat := do
  let b ← get
  match ← find name with
  | .net id => return id
  | .builder id => return ((b.builders[id]?).getD default).net
  | .installation id => return ((b.installations[id]?).getD default).net
  | _ => throw .noAttribute

def netAt (id : Nat) : Session Net := do return ((← get).catalog[id]?).getD default

def netOf (name : String) : Session Net := do netAt (← netId name)

def builderOf (name : String) : Session Builder := do
  match ← find name with
  | .builder id => return ((← get).builders[id]?).getD default
  | _ => throw .noAttribute

def installationOf (name : String) : Session Installation := do
  match ← find name with
  | .installation id => return ((← get).installations[id]?).getD default
  | _ => throw .noAttribute

def engineOf (name : String) : Session Engine := do
  let r ← installationOf name
  return r.engine (← get).catalog

def markingAt (id : Nat) : Session Vec.Spelled := do return (← get).marked id

def clockId (name : String) : Session Nat := do
  match ← find name with
  | .clock id => return id
  | _ => throw .noAttribute

def clockAt (id : Nat) : Session Clock := do return ((← get).clocks[id]?).getD default

def streamId (name : String) : Session Nat := do
  match ← find name with
  | .stream id => return id
  | _ => throw .noAttribute

def streamAt (b : Bench) (id : Nat) : Stand := (b.streams[id]?).getD default

/-! ## New things -/

def addNet (net : Net) : Session Nat :=
  modifyGet fun b => (b.catalog.length, { b with catalog := b.catalog ++ [net] })

def addBuilder (builder : Builder) : Session Nat :=
  modifyGet fun b => (b.builders.length, { b with builders := b.builders ++ [builder] })

def addInstallation (r : Installation) : Session Nat :=
  modifyGet fun b => (b.installations.length, { b with installations := b.installations ++ [r] })

def addMarking (s : Vec.Spelled) : Session Nat :=
  modifyGet fun b => (b.markings.length, { b with markings := b.markings ++ [s] })

def addClock (clock : Clock) : Session Nat :=
  modifyGet fun b => (b.clocks.length, { b with clocks := b.clocks ++ [clock] })

def addStream (stand : Stand) : Session Nat :=
  modifyGet fun b => (b.streams.length, { b with streams := b.streams ++ [stand] })

def addDeclaration (d : Declaration) : Session Nat :=
  modifyGet fun b => (b.declarations.length, { b with declarations := b.declarations ++ [d] })

/-! ## Changes -/

def setNet (id : Nat) (net : Net) : Session Unit :=
  modify fun b => { b with catalog := b.catalog.set id net }

/-- The vectors tied to the marking move along. -/
def withMarking (id : Nat) (s : Vec.Spelled) (b : Bench) : Bench :=
  { b with
    markings := b.markings.set id s
    catalog := b.ties.foldl (fun catalog tie =>
      if tie.marking = id then catalog.modify tie.net fun net => net.setVector tie.vector s
      else catalog) b.catalog }

/-- From now on the vector is the marking, or no marking. -/
def tie (net : Nat) (vector : VectorName) (marking : Option Nat) : Session Unit :=
  modify fun b =>
    let others := b.ties.filter fun tie => !decide (tie.net = net ∧ tie.vector = vector)
    { b with ties := others ++ (marking.map fun id => { net, vector, marking := id }).toList }

/-- A net that is compiled from its arcs has vectors of its own. -/
def untie (net : Nat) : Session Unit :=
  modify fun b =>
    if ((b.catalog[net]?).getD default).hasArcs then
      { b with ties := b.ties.filter fun tie => !decide (tie.net = net) }
    else b

def setClock (id : Nat) (clock : Clock) : Session Unit :=
  modify fun b => { b with clocks := b.clocks.set id clock }

def withStream (id : Nat) (s : Stream Observer) (b : Bench) : Bench :=
  { b with streams := b.streams.set id { b.streamAt id with stream := s } }

/-- Runs drafting steps on a net of the catalog; what they changed stays when they fail. -/
def drafting {α : Type} (id : Nat) (config : Config) (steps : Drafting α) : Session α := do
  let (result, draft) := steps.run.run { self := id, net := ← netAt id, config }
  setNet id draft.net
  report draft.notes
  lift result

/-- Drafting steps that begin with compiling the net. -/
def compiling {α : Type} (id : Nat) (config : Config) (steps : Drafting α) : Session α := do
  untie id
  drafting id config steps

end Bench

end TokenNet
