import TokenNet.Note
/-!
Firing transitions of a net against a marking.  A firing is tested first: an active guard blocks
it, then its delta is added within the capacities, then the net's discipline has the last word.
Only an accepted firing changes the marking.

`Engine.fire` says what a firing comes to and which marking it leaves.  `Caller.fire` does it: it
overwrites the marking where the caller has it, and calls back.

Capacities are held apart from the net because they are read once, when a net is put to use, while
the net itself may still be edited.
-/

namespace TokenNet

structure Engine where
  net : Net
  capacity : Vec
deriving Inhabited

/-- What a firing came to.  A blocked one has no vector; a refused one keeps the vector it was
refused for. -/
structure Shot where
  result : Option Vec
  ok : Bool
  role : Datum
deriving Inhabited

/-- What a caller may want to be told of a firing. -/
inductive Callback where
  | resolve
  | reject
deriving DecidableEq, Repr

namespace Callback

def name : Callback → String
  | .resolve => "resolve"
  | .reject => "reject"

end Callback

namespace Shot

/-- The one callback that a firing runs. -/
def callback (shot : Shot) : Callback := if shot.ok then .resolve else .reject

/-- A firing as it is traced. -/
def trace (shot : Shot) (schema action multiplier : Datum) : Note :=
  if shot.ok then .fired schema action multiplier (shot.result.getD [])
  else .refused schema action multiplier shot.result

end Shot

namespace Engine

/-- The engine of an indexed net. -/
def ofNet? (net : Net) : Except Failure Engine :=
  if net.indexed then .ok { net, capacity := net.capacityVector }
  else .error (.notIndexed net.schema)

def transition (e : Engine) (action : Datum) : Except Failure Transition :=
  if !action.truthy then .error .emptyAction
  else if action.key?.isNone then .error .wrongType
  else match action.text?.bind e.net.transition? with
    | some t => .ok t
    | none => .error (.unknownAction e.net.schema action)

def multiplier (value : Datum) : Except Failure Int :=
  match value.positive? with
  | some k => .ok k
  | none => .error (.badMultiplier value)

def add (e : Engine) (state delta : Vec) (k : Int) : Except Failure Vec.Tally :=
  match Vec.add? state delta k e.capacity with
  | some tally => .ok tally
  | none => .error (.lengths state.length delta.length e.capacity.length)

/-- A guard is active while adding it stays within bounds. -/
def anyActive (e : Engine) (marking : Vec) (k : Int) : Table String Guard → Except Failure Bool
  | [] => .ok false
  | (_, guard) :: rest => do
    if (← e.add marking guard.delta k).ok then return true else anyActive e marking k rest

def guardCheck (e : Engine) (marking : Vec) (action value : Datum) : Except Failure Bool := do
  let k ← multiplier value
  let t ← e.transition action
  e.anyActive marking k t.guards

/-- The arithmetic alone; `ok` says that it fails. -/
def arithmeticFails (e : Engine) (marking : Vec) (action value : Datum) :
    Except Failure Shot := do
  let k ← multiplier value
  let t ← e.transition action
  let tally ← e.add marking t.delta k
  return { result := some tally.result, ok := !tally.ok, role := t.role }

def test (e : Engine) (marking : Vec) (action value : Datum) : Except Failure Shot := do
  let t ← e.transition action
  let k ← multiplier value
  if ← e.anyActive marking k t.guards then
    return { result := none, ok := false, role := t.role }
  else
    let tally ← e.add marking t.delta k
    return { result := some tally.result, ok := tally.ok, role := t.role }

/-- A state machine adds its condition to the bounds; a workflow puts it in their place and cuts
negative entries off. -/
def discipline : Discipline → Shot → Shot
  | .petriNet, shot => shot
  | .stateMachine, shot =>
    { shot with ok := shot.ok && (shot.result.elim false Vec.elementary) }
  | .workflow, shot =>
    match shot.result with
    | none => shot
    | some v => { shot with result := some v.clip, ok := v.elementary }

/-- The marking that a shot leaves behind. -/
def commit (marking : Vec) (shot : Shot) : Vec :=
  if shot.ok then shot.result.getD marking else marking

def fire (e : Engine) (marking : Vec) (action value : Datum) : Except Failure (Shot × Vec) := do
  let shot := discipline e.net.discipline (← e.test marking action value)
  return (shot, commit marking shot)

end Engine

/-- Where a caller's marking is in a larger state, and the callbacks that it gives.  A callback
answers with the record as it leaves it, because it may change what it is handed. -/
structure Caller (σ : Type) where
  marking : σ → Vec
  withMarking : Vec → σ → σ
  report : Note → Act σ Unit
  given : Callback → Option (Shot → Act σ Shot)

namespace Caller

variable {σ : Type}

/-- A callback that is not given leaves the record alone. -/
def call (c : Caller σ) (which : Callback) (shot : Shot) : Act σ Shot :=
  match c.given which with
  | some callback => callback shot
  | none => return shot

/-- Fires against the caller's marking, which an accepted firing overwrites before anybody is told
of it. -/
def fire (c : Caller σ) (e : Engine) (action value : Datum) : Act σ Shot := do
  let (shot, next) ← Act.liftExcept (e.fire (c.marking (← get)) action value)
  if shot.ok then modify (c.withMarking next)
  c.report (shot.trace e.net.schema action value)
  c.call shot.callback shot

end Caller

end TokenNet
