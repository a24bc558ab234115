import TokenNet.Bench.Run
/-!
What a command answers: its report or its failure, and what else can be seen after it — the stream
it worked on, the marking it fired against, the callbacks that ran, and the log.
-/

namespace TokenNet.Bench

structure Answer where
  result : Except Failure Report
  /-- The message of a failure, nets shown as they stand after it. -/
  message : String := ""
  state : Option Report := none
  marking : Option Report := none
  calls : List Report := []
  log : List (Level × String) := []

/-- The thing a command works on, for the commands that may work on a stream. -/
def subject? : Command → Option String
  | .place on .. | .transition on .. | .role on .. | .link on .. | .arc on .. | .build on ..
  | .showNet on | .object on | .dump on .. | .diagram on | .insertArc on .. | .setWeight on ..
  | .keepArcs on .. | .setDelta on .. | .setGuard on .. | .removeArc on .. | .index on
  | .vectors on | .node on .. | .nearby on .. | .extent on .. | .initialMarking on ..
  | .add on .. | .guardCheck on .. | .arithmeticFails on .. | .test on .. | .fire on ..
  | .advance on | .reset on | .update on .. | .current on .. | .reload on .. | .restart on
  | .history on | .observe on .. | .unobserve on .. | .ignore on .. | .dispatch on .. => some on
  | _ => none

def streamReport (b : Bench) (name : String) : Option Report :=
  match b.names.find? name with
  | some (.stream id) => some (.stream b.gallery (b.streamAt id).stream)
  | _ => none

def markingReport (b : Bench) : Command → Option Report
  | .fire _ a _ =>
    match b.names.find? a.marking with
    | some (.marking id) => some (.spelled (b.marked id))
    | _ => none
  | _ => none

/-- Callbacks are told of where they can run. -/
def callsBack : Command → Bool
  | .fire .. | .dispatch .. | .reload .. => true
  | _ => false

/-- Runs a session with a fresh log and answers what it came to. -/
def observe (session : Session Report) (b : Bench) : Answer × Bench :=
  let (result, b) := session.run.run { b with log := [], calls := [] }
  match result with
  | .ok report => ({ result := .ok report, log := b.log }, b)
  | .error e =>
    let (e, message) := e.told b.scene
    ({ result := .error e, message, log := b.log }, b)

def answer (b : Bench) (c : Command) : Answer × Bench :=
  let (a, b) := observe (run maxDepth c) b
  ({ a with
      state := (subject? c).bind b.streamReport
      marking := b.markingReport c
      calls := if callsBack c then b.calls else [] }, b)

def answers (b : Bench) : List Command → List Answer
  | [] => []
  | c :: rest =>
    let (a, b) := b.answer c
    a :: answers b rest

/-! ## Single questions -/

/-- What one load gives, and whether its export loads to an equal net again. -/
def appraise (l : Loading) : Session Report := do
  let config ← configOf l.settings
  let net ← loadNet l
  let (width, height) ← arithmetic (net.extent Config.default.margin)
  let drawing ← diagram net
  let line ← dumped .null net
  let decl ← parse (.text (← dumped defaultIndent net))
  let (result, notes) :=
    decl.load (Declaration.formOf net) (← get).catalog.length { config }
  report notes
  let again ← lift result
  let before ← exported net
  let after ← exported again
  let v := (← get).gallery
  return .record [("spec", .net v net), ("initial", .vec net.initialVector),
    ("capacity", .vec net.capacityVector), ("size", .items [.datum width, .datum height]),
    ("mermaid", .text drawing), ("dump", .text line), ("round_trip", .bool (before.equal after))]

def position (e : Expr) : Session Report := do
  let d ← eval e
  match Position.ofDatum? d with
  | some p => return .position (← get).gallery p
  | none => throw (.badPosition d)

def gridPosition (x y : Expr) (settings : Option Settings) : Session Report := do
  let config ← configOf settings
  let x ← eval x
  let y ← eval y
  let p ← arithmetic (config.pos x y)
  return .position (← get).gallery p

def addition (state delta : Vec) (k : Int) (capacity : Vec) : Session Report := do
  return .tally (← lift (({ net := default, capacity } : Engine).add state delta k))

end TokenNet.Bench
