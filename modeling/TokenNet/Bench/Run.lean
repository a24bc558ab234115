import TokenNet.Bench.Eval
import TokenNet.Sample
import TokenNet.Net.Diagram
/-!
Running commands on a bench.

Commands nest in two ways: a declaration runs steps, and an observer runs steps when a dispatch
calls it, which may dispatch again.  `perform` takes the running of inner commands as an argument;
`run` ties the knot with a limit on the depth, so an observer that dispatches to itself for ever
fails as too deep.
-/

namespace TokenNet.Bench

open CoreArithmetic

/-! ## Building -/

def openDraft (o : Opening) : Session Draft := do
  let given ← evalOr .null o.schema
  let schema := if given.truthy then given else o.name.elim given .text
  let discipline ← evalOr (.text "petriNet") o.discipline
  let config ← configOf o.settings
  lift (Draft.open? (← get).catalog.length schema discipline config)

def openBuilder (o : Opening) : Session Builder := do
  let draft ← openDraft o
  return { net := ← addNet draft.net, config := draft.config }

def openedReport (v : Gallery) (net : Net) : List (String × Report) :=
  [("schema", .ofDatum v net.schema), ("type", .text net.discipline.name)]

/-- The builder that is to declare a node.  A handle has the node itself where a builder has the
declaring of one, which nothing can be made of. -/
def declarer? (on : String) (kind : NodeKind) : Session (Option Builder) := do
  match ← find on with
  | .handle node => if node.kind = kind then return none else throw .noAttribute
  | _ => return some (← builderOf on)

def placeNode (on : String) (label : Expr) (initial capacity position : Option Expr)
    (keptAs : Option String) : Session Report := do
  let declarer ← declarer? on .place
  let label ← eval label
  let initial ← evalOr (.int 0) initial
  let capacity ← evalOr (.int 0) capacity
  let position ← unshared (← evalOr .null position)
  let some b := declarer | throw .wrongType
  let p ← drafting b.net b.config (Draft.place label initial capacity position)
  let node : NodeName := ⟨b.net, .place, p.label⟩
  keep keptAs (.handle node)
  let offset := ((← netAt b.net).offset? p.label).getD 0
  return .record [("node", (← get).gallery.node node), ("repr", .text node.handleText),
    ("label", .text p.label), ("offset", .int offset)]

def transitionNode (on : String) (label : Expr) (role position : Option Expr)
    (keptAs : Option String) : Session Report := do
  let declarer ← declarer? on .transition
  let label ← eval label
  let role ← evalOr .null role
  let position ← unshared (← evalOr .null position)
  let some b := declarer | throw .wrongType
  let t ← drafting b.net b.config (Draft.transition label role position)
  let node : NodeName := ⟨b.net, .transition, t.label⟩
  keep keptAs (.handle node)
  return .record [("node", (← get).gallery.node node), ("repr", .text node.handleText),
    ("label", .text t.label)]

/-- The role is asked for twice, to see whether one label gives one role. -/
def declareRole (on : String) (label : Expr) (keptAs : Option String) : Session Report := do
  let b ← builderOf on
  let role ← drafting b.net b.config (Draft.role (← eval label))
  let again ← drafting b.net b.config (Draft.role (← eval label))
  keep keptAs (.role role)
  let v := (← get).gallery
  return .record [("role", .ofDatum v role.label), ("same", .bool (role.label.equal again.label)),
    ("roles", .roles v (← netAt b.net))]

/-- Only a place can inhibit through its handle. -/
def link (on : String) (target : Expr) (weight : Option Expr) (inhibit : Bool) :
    Session Report := do
  match ← find on with
  | .handle node =>
    if inhibit && node.kind = .transition then throw .noAttribute
    let target ← eval target
    let weight ← evalOr (.int 1) weight
    let _ ← drafting node.net .default
      (Draft.arc (Net.endOf node.net (.node node)) (Net.endOf node.net target) weight
        (.bool inhibit))
    return .record [("chained", .bool true),
      ("arcs", .arcs (← get).gallery (← netAt node.net))]
  | _ => throw .noAttribute

def recordArc (on : String) (source target : Expr) (weight inhibit : Option Expr) :
    Session Report := do
  let b ← builderOf on
  let source ← eval source
  let target ← eval target
  let weight ← evalOr (.int 1) weight
  let inhibit ← evalOr (.bool false) inhibit
  let arc ← drafting b.net b.config
    (Draft.arc (Net.endOf b.net source) (Net.endOf b.net target) weight inhibit)
  return .record [("arc", .arc (← get).gallery arc),
    ("count", .int (← netAt b.net).arcs.length)]

def netReport (id : Nat) : Session Report := do return .net (← get).gallery (← netAt id)

def build (on : String) (keptAs : Option String) : Session Report := do
  let b ← builderOf on
  compiling b.net b.config Draft.build
  keep keptAs (.net b.net)
  netReport b.net

def sample (name : String) (o : Opening) (keptAs : Option String) : Session Report := do
  match Sample.named? name with
  | none => throw .noEntry
  | some steps =>
    let b ← openBuilder o
    drafting b.net b.config (Draft.declare steps)
    keep keptAs (.net b.net)
    netReport b.net

/-- Declarations checked beforehand are taken as they are. -/
def parse (data : Datum) : Session Declaration := do
  match data with
  | .thing .declaration id => return ((← get).declarations[id]?).getD {}
  | d => do lift (Declaration.parse (← get).scene.glossary (← settled d))

def loadNet (l : Loading) : Session Net := do
  let data ← eval l.data
  let schema ← evalOr .null l.schema
  let discipline ← evalOr .null l.discipline
  let config ← configOf l.settings
  let decl ← parse data
  let (result, notes) := decl.load (if l.object then .object else .arcs)
    (← get).catalog.length { schema, discipline, config }
  report notes
  lift result

def load (l : Loading) (keptAs : Option String) : Session Report := do
  let id ← addNet (← loadNet l)
  keep keptAs (.net id)
  netReport id

/-! ## Unchecked edits -/

/-- A position counted from the end if negative. -/
def position? (length : Nat) (i : Int) : Option Nat :=
  if 0 ≤ i then (if i.toNat < length then some i.toNat else none)
  else if -(length : Int) ≤ i then some (length + i).toNat else none

/-- Positions beyond either end insert there. -/
def clampedPosition (length : Nat) (i : Int) : Nat :=
  if 0 ≤ i then min i.toNat length else (length + i).toNat

def editNet (on : String) (f : Net → Net) : Session Unit := do
  let id ← netId on
  setNet id (f (← netAt id))

def arcPosition (on : String) (i : Int) : Session Nat := do
  match position? (← netOf on).arcs.length i with
  | some k => return k
  | none => throw .outOfRange

def insertArc (on : String) (source target : Expr) (weight inhibit : Option Expr)
    (position : Option Int) : Session Report := do
  let id ← netId on
  let source ← eval source
  let target ← eval target
  let weight ← evalOr (.int 1) weight
  let inhibit ← evalOr (.bool false) inhibit
  if position.any fun i => i < -2 ^ (63 : Nat) ∨ 2 ^ (63 : Nat) ≤ i then throw .tooLarge
  let net ← netAt id
  let arc : Arc :=
    { source := Net.endOf id source, target := Net.endOf id target, weight, inhibit }
  let k := (position.map (clampedPosition net.arcs.length)).getD net.arcs.length
  setNet id { net with arcs := net.arcs.take k ++ arc :: net.arcs.drop k }
  return .int (net.arcs.length + 1)

def setWeight (on : String) (i : Int) (weight : Expr) : Session Report := do
  let _ ← find on
  let weight ← eval weight
  let k ← arcPosition on i
  editNet on fun net => { net with arcs := net.arcs.modify k fun a => { a with weight } }
  return .null

/-- Anything but a marking can be given the flag; only a net has a use for it. -/
def keepArcs (on : String) (value : Expr) : Session Report := do
  let thing ← find on
  let value ← eval value
  match thing with
  | .builder _ | .net _ | .installation _ => editNet on fun net => { net with arcsKept := value }
  | .marking _ => throw .noAttribute
  | _ => pure ()
  return .null

def removeArc (on : String) (arc : Expr) : Session Report := do
  let _ ← netId on
  let some i := (← eval arc).whole? | throw .wrongType
  let k ← arcPosition on i
  editNet on fun net => { net with arcs := net.arcs.eraseIdx k }
  return .null

/-- Puts a vector into a transition.  A marking that is given is shared, not copied. -/
def setVector (on : String) (vector : VectorName) (value : Expr)
    (edit : Vec.Spelled → Transition → Transition) : Session Report := do
  let _ ← find on
  let (marking, s) ← tokens (← eval value)
  let id ← netId on
  if ((← netAt id).transition? vector.transition).isNone then throw .noEntry
  editNet on fun net => net.modifyTransition vector.transition (edit s)
  tie id vector marking
  return .null

def setDelta (on transition : String) (delta : Expr) : Session Report :=
  setVector on { transition } delta fun s t => t.setVector none s

def setGuard (on transition key label : String) (delta : Expr) : Session Report :=
  setVector on { transition, guard := some key } delta fun s t =>
    { t with guards := t.guards.insert key { label, delta := s.entries, truths := s.truths } }

/-! ## Queries -/

def index (on : String) : Session Report := do
  let id ← netId on
  let ok ← compiling id .default Draft.index
  let net ← netAt id
  return .record [("ok", .bool ok), ("indexed", .bool net.indexed),
    ("transitions", .transitions (← get).gallery net)]

/-- An installation keeps the capacities it started with. -/
def vectors (on : String) : Session Report := do
  let net ← netOf on
  let capacity ← match ← find on with
    | .installation _ => pure (← installationOf on).capacity
    | _ => pure net.capacityVector
  return .record [("empty", .vec net.emptyVector), ("initial", .vec net.initialVector),
    ("capacity", .vec capacity)]

def node (on : String) (label : Expr) : Session Report := do
  let net ← netOf on
  match ← eval label with
  | .text s => return (net.node? s).elim .null (Report.node (← get).gallery net)
  | d => if d.key?.isNone then throw .wrongType else return .null

/-- Null stands for the default, and an installation goes by its own configuration. -/
def tuned (on : String) (given : Option Expr) (of : Config → Datum) : Session Datum := do
  let d ← match ← find on with
    | .installation _ => pure (of (← installationOf on).config)
    | _ => evalOr .null given
  match d with
  | .null => return of .default
  | d => return d

def nearby (on : String) (x y : Expr) (threshold : Option Expr) : Session Report := do
  let net ← netOf on
  let x ← eval x
  let y ← eval y
  let threshold ← tuned on threshold Config.proximity
  return .label? (← arithmetic (net.nearby? x y threshold))

def extent (on : String) (margin : Option Expr) : Session Report := do
  let net ← netOf on
  let margin ← tuned on margin Config.margin
  let (width, height) ← arithmetic (net.extent margin)
  return .items [.datum width, .datum height]

def diagram (net : Net) : Session String := do lift (net.diagram (← get).scene.glossary)

/-! ## Firing -/

def install (name : String) (settings : Option Settings) (keptAs : Option String) :
    Session Report := do
  let _ ← find name
  let config ← configOf settings
  let id ← netId name
  let r ← lift (Installation.open? (← get).catalog id config)
  keep keptAs (.installation (← addInstallation r))
  return .record (openedReport (← get).gallery (← netAt id) ++ [("capacity", .vec r.capacity)])

def newMarking (s : Vec.Spelled) (keptAs : Option String) : Session Report := do
  keep keptAs (.marking (← addMarking s))
  return .spelled s

/-- A marking that is given gets one more name. -/
def givenMarking (value : Expr) (keptAs : Option String) : Session Report := do
  match ← tokens (← eval value) with
  | (some id, s) =>
    keep keptAs (.marking id)
    return .spelled s
  | (none, s) => newMarking s keptAs

def add (on : String) (state delta : Expr) (multiplier : Option Expr) : Session Report := do
  let e ← engineOf on
  let (_, state) ← tokens (← eval state)
  let (_, delta) ← tokens (← eval delta)
  let k := (← evalOr (.int 1) multiplier).whole?
  let tally ← lift (e.add state.entries delta.entries (k.getD 1))
  if k.isNone ∧ tally.result ≠ [] then throw .wrongType
  return .tally tally

/-- Only nets and installations have a vector to start from. -/
def initialMarking (on : String) (keptAs : Option String) : Session Report := do
  match ← find on with
  | .net _ | .installation _ => newMarking (.ofVec (← netOf on).initialVector) keptAs
  | _ => throw .noAttribute

/-- The engine, the marking's number and the values of a firing.  A thing that is no marking has no
number. -/
def aim (on : String) (a : Aim) : Session (Engine × Option Nat × Datum × Datum) := do
  let e ← engineOf on
  let id := match ← find a.marking with
    | .marking id => some id
    | _ => none
  let action ← eval a.action
  let multiplier ← evalOr (.int 1) a.multiplier
  return (e, id, action, multiplier)

/-- Without a marking a firing fails when its delta would be added. -/
def misfire {α : Type} (e : Engine) (action multiplier : Datum) : Session α := do
  let _ ← lift (e.transition action)
  let _ ← lift (Engine.multiplier multiplier)
  throw .wrongType

def guardCheck (on : String) (a : Aim) : Session Report := do
  let (e, id, action, multiplier) ← aim on a
  match id with
  | some id => return .bool (← lift (e.guardCheck (← markingAt id).entries action multiplier))
  | none =>
    let _ ← lift (Engine.multiplier multiplier)
    let t ← lift (e.transition action)
    if t.guards.isEmpty then return .bool false else throw .wrongType

def arithmeticFails (on : String) (a : Aim) : Session Report := do
  let (e, id, action, multiplier) ← aim on a
  match id with
  | some id =>
    let shot ← lift (e.arithmeticFails (← markingAt id).entries action multiplier)
    return .shot (← get).gallery shot
  | none =>
    let _ ← lift (Engine.multiplier multiplier)
    misfire e action multiplier

def test (on : String) (a : Aim) : Session Report := do
  let (e, id, action, multiplier) ← aim on a
  let some id := id | misfire e action multiplier
  let shot ← lift (e.test (← markingAt id).entries action multiplier)
  return .shot (← get).gallery shot

/-- Callbacks note that they ran, and with what. -/
def caller (id : Nat) (callbacks : List Callback) : Caller Bench where
  marking b := (b.marked id).entries
  withMarking v := withMarking id (.ofVec v)
  report := enter
  given which := if which ∈ callbacks then
      some fun shot => do
        called (.items [.text which.name, .shot (← get).gallery shot])
        return shot
    else none

def fire (on : String) (a : Aim) (callbacks : List Callback) : Session Report := do
  let (e, id, action, multiplier) ← aim on a
  let some id := id | misfire e action multiplier
  let shot ← (caller id callbacks).fire e action multiplier
  return .shot (← get).gallery shot

/-! ## Clocks and streams -/

def openClock (kind : ClockKind) (keptAs : Option String) : Session Report := do
  match kind with
  | .cycle step =>
    let clock := Clock.ofStep (← evalOr (.int 1) step)
    keep keptAs (.clock (← addClock clock))
    return .datum clock.now
  | .wall =>
    keep keptAs (.clock (← addClock .wall))
    return .record [("non_decreasing", .bool true)]
  | .monotonic =>
    keep keptAs (.clock (← addClock .monotonic))
    return .record [("non_decreasing", .bool true)]

def advance (on : String) : Session Report := do
  let id ← clockId on
  let clock ← arithmetic (← clockAt id).advance
  setClock id clock
  return .datum clock.now

def reset (on : String) : Session Report := do
  let id ← clockId on
  let clock := (← clockAt id).reset
  setClock id clock
  return .datum clock.now

/-- A net is put to use under the stream's configuration; an installation already is. -/
def installationFor (config : Config) (name : String) : Session Installation := do
  match ← find name with
  | .installation _ => installationOf name
  | .net id => lift (Installation.open? (← get).catalog id config)
  | _ => throw .noAttribute

def registerNets (s : Stream Observer) : List String → Session (Stream Observer)
  | [] => return s
  | name :: rest => do
    let r ← installationFor s.config name
    registerNets (← lift (s.register (← get).catalog r)) rest

/-- Names are looked up before anything is done with what they stand for. -/
def findAll (names : List String) : Session Unit := names.forM fun name => discard (find name)

def schemas (s : Stream Observer) : Session Report := do
  return .schemas (← get).gallery s

/-- An empty marking counts as no clock at all. -/
def timepiece (name : Option String) : Session Timepiece := do
  match name with
  | none => return .timeOfDay
  | some name => match ← find name with
    | .clock id => return .clock id
    | .marking id => return if (← markingAt id).entries.isEmpty then .timeOfDay else .none
    | _ => return .none

def openStream (nets : List String) (clock : Option String) (settings : Option Settings)
    (keptAs : Option String) : Session Report := do
  let timepiece ← timepiece clock
  findAll nets
  let config ← configOf settings
  let s ← registerNets { config } nets
  keep keptAs (.stream (← addStream { stream := s, timepiece }))
  schemas s

/-- Runs a change of a stream. -/
def changeStream (id : Nat) (f : Stream Observer → Except Failure (Stream Observer)) :
    Session Unit := do
  let s ← lift (f ((← get).streamAt id).stream)
  modify (withStream id s)

def update (on name : String) : Session Report := do
  let id ← streamId on
  let r ← installationFor ((← get).streamAt id).stream.config name
  let catalog := (← get).catalog
  changeStream id (Stream.update catalog r)
  report [.replaced (Stream.schemaOf catalog r)]
  schemas ((← get).streamAt id).stream

def current (on : String) (schema : Expr) : Session Report := do
  let id ← streamId on
  let schema ← eval schema
  let b ← get
  return .vec (← lift ((b.streamAt id).stream.marking b.catalog schema))

def history (on : String) : Session Report := do
  let id ← streamId on
  let b ← get
  return .items ((b.streamAt id).stream.history.map (.entry b.gallery))

/-- A cleared slot is an empty one. -/
def setSlot (id : Nat) (slot : Slot) (observer : Option Observer) : Session Unit := do
  match slot with
  | .every => changeStream id fun s => .ok { s with onEvery := observer }
  | .fail => changeStream id fun s => .ok { s with onFail := observer }
  | .reload => changeStream id fun s => .ok { s with onReload := observer }
  | .action action =>
    let action ← eval action
    changeStream id fun s => s.observe action observer

section

variable (inner : Command → Session Unit)

/-- Every observer tells its tag, what it was shown and how far the stream has come, before it
does anything. -/
def callObserver (o : Observer) (shown : Report) : Session Unit := do
  let seq := ((← get).streamAt o.stream).stream.seq
  called (.items [.text o.tag, shown, .int seq])
  o.steps.forM inner

def raise (o : Observer) : Session Unit :=
  match o.raises with
  | some message => throw (.raised message)
  | none => return

def callOutcome (o : Observer) (outcome : Outcome) : Session Outcome := do
  callObserver inner o (.outcome (← get).gallery outcome)
  raise o
  return if o.spoil then { outcome with marking := outcome.marking.map (· ++ [-7]) } else outcome

/-- A reload shows no vector that could be spoilt. -/
def callReload (o : Observer) (schema : Datum) : Session Unit := do
  callObserver inner o (.items [.plain (← get).gallery schema, .text "reload"])
  if o.spoil then throw .noAttribute
  raise o

def timeAt (b : Bench) (id : Nat) : Except Failure Datum :=
  match (b.streamAt id).timepiece with
  | .timeOfDay => .ok .null
  | .clock c => .ok ((b.clocks[c]?).elim .null Clock.now)
  | .none => .error .noAttribute

def site (id : Nat) : Site Bench Observer where
  stream b := (b.streamAt id).stream
  withStream s b := withStream id s b
  catalog b := b.catalog
  now b := timeAt b id
  report := enter
  call := callOutcome inner
  callReload := callReload inner

def dispatch (on : String) (value : Expr) (action multiplier : Option Expr) : Session Report := do
  let id ← streamId on
  let value ← eval value
  let action ← evalOr .null action
  let multiplier ← evalOr (.int 1) multiplier
  let outcome ← (site inner id).dispatch { value, action, multiplier }
  return .outcome (← get).gallery outcome

def reload (on : String) (schema : Expr) : Session Report := do
  let id ← streamId on
  (site inner id).reload (← eval schema)
  return .null

/-- The steps find the builder under its name; the first that fails ends the declaration. -/
def declare (o : Opening) (steps : List Command) (drawn : Bool) (keptAs : Option String) :
    Session Report := do
  let b ← openBuilder o
  keep (some "builder") (.builder (← addBuilder b))
  steps.forM inner
  compiling b.net b.config (Draft.declare (return))
  let net ← netReport b.net
  let result ←
    if drawn then
      pure (.record [("spec", net), ("mermaid", .text (← diagram (← netAt b.net)))])
    else pure net
  keep keptAs (.net b.net)
  return result

def perform : Command → Session Report
  | .openBuilder o keptAs => do
    let b ← openBuilder o
    keep keptAs (.builder (← addBuilder b))
    return .record (openedReport (← get).gallery (← netAt b.net))
  | .place on label initial capacity position keptAs =>
    placeNode on label initial capacity position keptAs
  | .transition on label role position keptAs => transitionNode on label role position keptAs
  | .role on label keptAs => declareRole on label keptAs
  | .link on target weight inhibit => link on target weight inhibit
  | .arc on source target weight inhibit => recordArc on source target weight inhibit
  | .build on keptAs => build on keptAs
  | .declare o steps drawn keptAs => declare inner o steps drawn keptAs
  | .sample name o keptAs => sample name o keptAs
  | .load l keptAs => load l keptAs
  | .showNet on => do netReport (← netId on)
  | .object on => do
    let d ← exported (← netOf on)
    return .ofDatum (← get).gallery d
  | .dump on indent => do
    let _ ← find on
    let indent ← evalOr defaultIndent indent
    return .text (← dumped indent (← netOf on))
  | .diagram on => do return .text (← diagram (← netOf on))
  | .insertArc on source target weight inhibit position =>
    insertArc on source target weight inhibit position
  | .setWeight on i weight => setWeight on i weight
  | .keepArcs on value => keepArcs on value
  | .setDelta on transition delta => setDelta on transition delta
  | .setGuard on transition key label delta => setGuard on transition key label delta
  | .removeArc on arc => removeArc on arc
  | .index on => index on
  | .vectors on => vectors on
  | .node on label => node on label
  | .nearby on x y threshold => nearby on x y threshold
  | .extent on margin => extent on margin
  | .install net settings keptAs => install net settings keptAs
  | .marking tokens keptAs => givenMarking tokens keptAs
  | .initialMarking on keptAs => initialMarking on keptAs
  | .add on state delta multiplier => add on state delta multiplier
  | .guardCheck on a => guardCheck on a
  | .arithmeticFails on a => arithmeticFails on a
  | .test on a => test on a
  | .fire on a callbacks => fire on a callbacks
  | .openClock kind keptAs => openClock kind keptAs
  | .advance on => advance on
  | .reset on => reset on
  | .openStream nets clock settings keptAs => openStream nets clock settings keptAs
  | .update on net => update on net
  | .current on schema => current on schema
  | .reload on schema => reload inner on schema
  | .restart on => do
    let id ← streamId on
    changeStream id fun s => .ok s.restart
    return .null
  | .history on => history on
  | .observe on slot tag steps spoil raises => do
    let id ← streamId on
    setSlot id slot (some { stream := id, tag, steps, spoil, raises })
    return .null
  | .unobserve on slot => do
    setSlot (← streamId on) slot none
    return .null
  | .ignore on action => do
    let id ← streamId on
    let action ← eval action
    changeStream id fun s => s.ignore action
    return .null
  | .dispatch on value action multiplier => dispatch inner on value action multiplier

end

def run : Nat → Command → Session Report
  | 0, _ => throw .tooDeep
  | depth + 1, c => perform (fun c => discard (run depth c)) c

/-- Deep enough for every nesting that ends. -/
def maxDepth : Nat := 1000

end TokenNet.Bench
