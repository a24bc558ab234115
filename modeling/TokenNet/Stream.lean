import TokenNet.Config
import TokenNet.Datum.Register
import TokenNet.Firing
/-!
Streams: the current marking of each of a set of nets, the history of accepted firings, and the
observers told about every outcome.

`decide` says what a dispatched event comes to and changes nothing; `commit` enters an accepted
firing.  `dispatch` runs both and then the observers.  Observers may do anything, dispatching
included, so it is written over the state `σ` they act on; a `Site` says where in it the stream and
the nets are and how an observer is called.
-/

namespace TokenNet

structure Event where
  schema : Datum
  action : Datum
  multiplier : Datum
deriving Inhabited

/-- What a caller dispatches: a value, with an action and a multiplier of use only if the value is
the name of a net. -/
structure Request where
  value : Datum
  action : Datum := .null
  multiplier : Datum := .int 1

namespace Event

def toDatum (e : Event) : Datum := .event e.schema e.action e.multiplier

def fields : List String := ["schema", "action", "multiplier"]

/-- The fields of an event; no others may be present. -/
def ofEntries? (entries : List (Datum × Datum)) : Option Event := do
  if entries.any fun (k, _) => k.text?.all fun name => !fields.contains name then none
  return { schema := ← Datum.field? entries "schema", action := ← Datum.field? entries "action"
           multiplier := (Datum.field? entries "multiplier").getD (.int 1) }

def ofRequest (r : Request) : Except Failure Event :=
  match r.value with
  | .map entries => match ofEntries? entries with
    | some e => .ok e
    | none => .error .wrongType
  | .text _ => .ok { schema := r.value, action := r.action, multiplier := r.multiplier }
  | .event schema action multiplier => .ok { schema, action, multiplier }
  | d => .error (.undispatchable d)

end Event

/-- A net put to use: its number in the catalog and the capacities it had at that time. -/
structure Installation where
  net : Nat
  config : Config
  capacity : Vec
deriving Inhabited

namespace Installation

/-- The engine of the net as it stands now. -/
def engine (catalog : Catalog) (r : Installation) : Engine :=
  { net := (catalog[r.net]?).getD default, capacity := r.capacity }

def open? (catalog : Catalog) (net : Nat) (config : Config) : Except Failure Installation := do
  let e ← Engine.ofNet? ((catalog[net]?).getD default)
  return { net, config, capacity := e.capacity }

end Installation

/-- An accepted firing. -/
structure Entry where
  seq : Nat
  event : Event
  marking : Vec
  time : Datum
deriving Inhabited

/-- What observers are told and the dispatcher is answered. -/
structure Outcome where
  action : Datum
  multiplier : Datum
  marking : Option Vec
  role : Datum
  ok : Bool
deriving Inhabited

/-- A firing decided but not entered: the net it is of, its shot, and the marking it leaves. -/
structure Decision where
  key : Key
  schema : Datum
  shot : Shot
  next : Vec

/-- `ω` is whatever stands for an observer.  Every slot holds one observer at most; the slot of an
action may be there and be empty. -/
structure Stream (ω : Type) where
  config : Config := .default
  nets : Register Installation := []
  markings : Register Vec := []
  seq : Nat := 0
  history : List Entry := []
  onAction : Register (Option ω) := []
  onEvery : Option ω := none
  onFail : Option ω := none
  onReload : Option ω := none
deriving Inhabited

namespace Stream

variable {ω : Type}

def keyOf (d : Datum) : Except Failure Key :=
  match d.key? with
  | some k => .ok k
  | none => .error .wrongType

/-! ## Nets and markings -/

def schemaOf (catalog : Catalog) (r : Installation) : Datum := (r.engine catalog).net.schema

/-- The key that a net is registered under.  A schema that differs from itself finds nothing, so
the net then stands for its own schema. -/
def netKey (catalog : Catalog) (r : Installation) : Except Failure Key := do
  let key ← keyOf (schemaOf catalog r)
  return if key.selfEqual then key else .thing .net r.net

/-- Adds a net under its schema, or puts it in the place of the one there. -/
def register (catalog : Catalog) (r : Installation) (s : Stream ω) : Except Failure (Stream ω) := do
  let key ← netKey catalog r
  return { s with nets := s.nets.enter key (schemaOf catalog r) r }

def registerAll (catalog : Catalog) (s : Stream ω) : List Installation → Except Failure (Stream ω)
  | [] => .ok s
  | r :: rest => do registerAll catalog (← s.register catalog r) rest

/-- Registers a net and forgets the marking held under its schema; history stays. -/
def update (catalog : Catalog) (r : Installation) (s : Stream ω) : Except Failure (Stream ω) := do
  let key ← netKey catalog r
  return { s with
    nets := s.nets.enter key (schemaOf catalog r) r
    markings := s.markings.erase key }

def lookup (s : Stream ω) (schema : Datum) : Except Failure (Key × Installation) := do
  let key ← keyOf schema
  match s.nets.lookup? key with
  | some r => return (key, r)
  | none => throw (.unknownSchema schema)

/-- The marking held under a key, or else the one its net starts from. -/
def held (catalog : Catalog) (s : Stream ω) (key : Key) (r : Installation) : Vec :=
  (s.markings.lookup? key).getD (r.engine catalog).net.initialVector

def marking (catalog : Catalog) (s : Stream ω) (schema : Datum) : Except Failure Vec := do
  let (key, r) ← s.lookup schema
  return s.held catalog key r

def restart (s : Stream ω) : Stream ω := { s with seq := 0, history := [], markings := [] }

/-! ## Observers -/

def observe (s : Stream ω) (action : Datum) (observer : Option ω) : Except Failure (Stream ω) := do
  return { s with onAction := s.onAction.enter (← keyOf action) action observer }

/-- Without any slot there is nothing to look an action up in. -/
def ignore (s : Stream ω) (action : Datum) : Except Failure (Stream ω) := do
  if s.onAction.isEmpty then return s
  return { s with onAction := s.onAction.erase (← keyOf action) }

def observer? (s : Stream ω) (action : Datum) : Option ω := do
  (s.onAction.lookup? (← action.key?)).join

/-! ## Dispatch -/

/-- What an event comes to, without entering anything. -/
def decide (catalog : Catalog) (s : Stream ω) (e : Event) : Except Failure Decision := do
  let (key, r) ← s.lookup e.schema
  let (shot, next) ← (r.engine catalog).fire (s.held catalog key r) e.action e.multiplier
  return { key, schema := schemaOf catalog r, shot, next }

/-- A marking that is held is overwritten by the firing itself, before anything is reported. -/
def overwrite (s : Stream ω) (e : Event) (d : Decision) : Stream ω :=
  if d.shot.ok && (s.markings.lookup? d.key).isSome then
    { s with markings := s.markings.enter d.key e.schema d.next }
  else s

/-- The marking alone; it is entered before the time is asked for. -/
def hold (s : Stream ω) (e : Event) (d : Decision) : Stream ω :=
  { s with markings := s.markings.enter d.key e.schema d.next }

def commit (s : Stream ω) (e : Event) (d : Decision) (time : Datum) : Stream ω :=
  { s.hold e d with
    history := s.history ++ [{ seq := s.seq, event := e, marking := d.next, time }]
    seq := s.seq + 1 }

end Stream

/-- Where a stream is in a larger state, and how an observer acts on that state.  An observer
answers with the outcome as it leaves it, because it may change the vector it was shown. -/
structure Site (σ ω : Type) where
  stream : σ → Stream ω
  withStream : Stream ω → σ → σ
  catalog : σ → Catalog
  now : σ → Except Failure Datum
  report : Note → Act σ Unit
  call : ω → Outcome → Act σ Outcome
  callReload : ω → Datum → Act σ Unit

namespace Site

variable {σ ω : Type}

def get (site : Site σ ω) : Act σ (Stream ω) := do return site.stream (← MonadState.get)

def put (site : Site σ ω) (s : Stream ω) : Act σ Unit := modify (site.withStream s)

/-- An empty slot leaves the outcome alone.  `none` stands for whatever a slot may hold that does
not count as true; nothing else about it is ever looked at. -/
def tell (site : Site σ ω) (slot : Option ω) (o : Outcome) : Act σ Outcome :=
  match slot with
  | some observer => site.call observer o
  | none => return o

def reload (site : Site σ ω) (schema : Datum) : Act σ Unit := do
  match (← site.get).onReload with
  | some observer => site.callReload observer schema
  | none => return

/-- Every slot is looked at when its turn comes, so observers see what earlier ones registered. -/
def announce (site : Site σ ω) (e : Event) (o : Outcome) : Act σ Outcome := do
  let o ← site.tell (← site.get).onEvery o
  let o ← site.tell ((← site.get).observer? e.action) o
  site.reload e.schema
  return o

def accept (site : Site σ ω) (e : Event) (d : Decision) : Act σ Outcome := do
  let state ← MonadState.get
  let s := site.stream state
  site.put (s.hold e d)
  site.put (s.commit e d (← Act.liftExcept (site.now state)))
  site.report (.dispatched e.schema e.action s.seq d.next)
  site.announce e
    { action := e.action, multiplier := e.multiplier, marking := some d.next, role := d.shot.role
      ok := true }

def refuse (site : Site σ ω) (e : Event) (d : Decision) : Act σ Outcome := do
  site.report (.dispatchFailed e.schema e.action)
  site.tell (← site.get).onFail
    { action := e.action, multiplier := e.multiplier, marking := d.shot.result, role := d.shot.role
      ok := false }

def dispatch (site : Site σ ω) (r : Request) : Act σ Outcome := do
  let e ← Act.liftExcept (Event.ofRequest r)
  let state ← MonadState.get
  let s := site.stream state
  let d ← Act.liftExcept (s.decide (site.catalog state) e)
  site.put (s.overwrite e d)
  site.report (d.shot.trace d.schema e.action e.multiplier)
  if d.shot.ok then site.accept e d else site.refuse e d

end Site

end TokenNet
