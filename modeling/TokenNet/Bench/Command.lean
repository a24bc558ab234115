import TokenNet.Firing
/-!
Commands to a bench.  A command names the things it works on and gives its values as expressions,
because a value may refer to things that exist only when the command runs.  An argument that is
absent takes its default; one that is null was given as null.
-/

namespace TokenNet.Bench

inductive Expr where
  | datum (d : Datum)
  /-- A double, as text. -/
  | float (text : String)
  | list (items : List Expr)
  | map (entries : List (Expr × Expr))
  | named (name : String)
  | node (net label : String)
  | position (x y : Expr)
  | role (label : Expr)
  | event (schema action multiplier : Expr)
  /-- The export of a net, as a value and as text. -/
  | object (name : String)
  | dump (name : String)
  /-- A declaration checked beforehand. -/
  | declaration (e : Expr)
deriving Inhabited

/-- The tunables that are given, by their names. -/
abbrev Settings := List (String × Expr)

/-- How a net is opened.  A schema that is absent or false gives way to the name, if there is
one. -/
structure Opening where
  schema : Option Expr
  name : Option String := none
  discipline : Option Expr := none
  settings : Option Settings := none

structure Loading where
  object : Bool
  data : Expr
  schema : Option Expr := none
  discipline : Option Expr := none
  settings : Option Settings := none

inductive Slot where
  | every
  | fail
  | reload
  | action (action : Expr)

/-- A firing as it is asked for. -/
structure Aim where
  marking : String
  action : Expr
  multiplier : Option Expr := none

inductive ClockKind where
  | cycle (step : Option Expr)
  | wall
  | monotonic

/-- `keptAs` is the name under which the result is kept. -/
inductive Command where
  | openBuilder (opening : Opening) (keptAs : Option String)
  | place (on : String) (label : Expr) (initial capacity position : Option Expr)
      (keptAs : Option String)
  | transition (on : String) (label : Expr) (role position : Option Expr) (keptAs : Option String)
  | role (on : String) (label : Expr) (keptAs : Option String)
  /-- An arc from the node of a handle. -/
  | link (on : String) (target : Expr) (weight : Option Expr) (inhibit : Bool)
  | arc (on : String) (source target : Expr) (weight inhibit : Option Expr)
  | build (on : String) (keptAs : Option String)
  /-- Opens a builder, runs the steps with it under the name `builder`, and builds. -/
  | declare (opening : Opening) (steps : List Command) (drawn : Bool) (keptAs : Option String)
  | sample (name : String) (opening : Opening) (keptAs : Option String)
  | load (loading : Loading) (keptAs : Option String)
  | showNet (on : String)
  | object (on : String)
  | dump (on : String) (indent : Option Expr)
  | diagram (on : String)
  /-- Puts an arc into the list without any check, at an index or at the end. -/
  | insertArc (on : String) (source target : Expr) (weight inhibit : Option Expr)
      (index : Option Int)
  | setWeight (on : String) (arc : Int) (weight : Expr)
  | keepArcs (on : String) (value : Expr)
  | setDelta (on transition : String) (delta : Expr)
  | setGuard (on transition key label : String) (delta : Expr)
  | removeArc (on : String) (arc : Expr)
  | index (on : String)
  | vectors (on : String)
  | node (on : String) (label : Expr)
  | nearby (on : String) (x y : Expr) (threshold : Option Expr)
  | extent (on : String) (margin : Option Expr)
  | install (net : String) (settings : Option Settings) (keptAs : Option String)
  | marking (tokens : Expr) (keptAs : Option String)
  | initialMarking (on : String) (keptAs : Option String)
  | add (on : String) (state delta : Expr) (multiplier : Option Expr)
  | guardCheck (on : String) (aim : Aim)
  | arithmeticFails (on : String) (aim : Aim)
  | test (on : String) (aim : Aim)
  | fire (on : String) (aim : Aim) (callbacks : List Callback)
  | openClock (kind : ClockKind) (keptAs : Option String)
  | advance (on : String)
  | reset (on : String)
  | openStream (nets : List String) (clock : Option String) (settings : Option Settings)
      (keptAs : Option String)
  | update (on net : String)
  | current (on : String) (schema : Expr)
  | reload (on : String) (schema : Expr)
  | restart (on : String)
  | history (on : String)
  /-- Puts an observer into a slot: one that runs `steps`, then spoils the vector it was shown,
  then fails, each if so asked. -/
  | observe (on : String) (slot : Slot) (tag : String) (steps : List Command) (spoil : Bool)
      (raises : Option String)
  | unobserve (on : String) (slot : Slot)
  | ignore (on : String) (action : Expr)
  | dispatch (on : String) (value : Expr) (action multiplier : Option Expr)
deriving Inhabited

end TokenNet.Bench
