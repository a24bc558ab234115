import TokenNet.Clock
import TokenNet.Proofs.Dispatch
import TokenNet.Proofs.Making
/-!
A stream among everything that can be done around it: nets are declared and loaded, put to use and
edited further, the clock moves, and the observers of the stream run programs of their own, which
may do all of this and dispatch again.  The time is read off any timebase that answers.  Logging is
left out, since it changes nothing here.

Whatever is done moves the world in one of nine ways, `World.Move`.  A property that every move
keeps is kept by every program at every depth, and that is the induction behind everything said of
whole runs: `Behaviour.keeps_run`.
-/

namespace TokenNet

/-- What happened to a stream. -/
inductive Mark where
  | restarted
  /-- The net under the key was replaced. -/
  | updated (key : Key)
  | fired (f : Firing)

/-- What tells the time: a clock, and how it is read.  That it answers is assumed.  One that fails
is asked when the marking of a firing has been entered and nothing else of it has. -/
structure Timebase where
  clock : Clock
  read : Clock → Except Failure Datum := fun clock => .ok clock.now
  answers : ∀ clock, ∃ time, read clock = .ok time := by exact fun clock => ⟨clock.now, rfl⟩

namespace Timebase

def ofStep (step : Datum) : Timebase := { clock := .ofStep step }

def wall : Timebase := { clock := .wall }

/-- The time it is. -/
def now (t : Timebase) : Datum :=
  match t.read t.clock with
  | .ok time => time
  | .error _ => .null

theorem read_clock (t : Timebase) : t.read t.clock = .ok t.now := by
  obtain ⟨time, h⟩ := t.answers t.clock
  simp only [now, h]

def advance (t : Timebase) : Except ArithmeticError Timebase := do
  return { t with clock := ← t.clock.advance }

def reset (t : Timebase) : Timebase := { t with clock := t.clock.reset }

end Timebase

/-- One stream, and what it depends on.  A net that was loaded is kept as a draft too, because it
may be edited further. -/
structure World (ω : Type) where
  drafts : List Draft := []
  installations : List Installation := []
  timebase : Timebase := .wall
  stream : Stream ω := {}
  /-- What happened to the stream since it was opened, the latest first.  Nothing depends on it. -/
  journal : List Mark := []

/-- What stands for a net where a stream takes one: a net that is yet to be put to use, or an
installation. -/
inductive Operand where
  | net (id : Nat)
  | installation (id : Nat)

/-- The calls that a program can make.  An empty observer clears its slot. -/
inductive Op (ω : Type) where
  | draft (schema discipline : Datum) (config : Config)
  | load (form : Declaration.Form) (overrides : Declaration.Overrides) (decl : Declaration)
  | edit (id : Nat) (step : Draft.Step)
  | install (id : Nat) (config : Config)
  | dispatch (r : Request)
  | update (net : Operand)
  | restart
  | reload (schema : Datum)
  | on (action : Datum) (observer : Option ω)
  | off (action : Datum)
  | onEvery (observer : Option ω)
  | onFail (observer : Option ω)
  | onReload (observer : Option ω)
  | advance
  | reset

/-- Programs that call one thing after another.  What they call next may depend on what was answered
and on everything there is to see. -/
inductive Script (ω α : Type) where
  | done (result : Except Failure α)
  | call (op : Op ω) (rest : Except Failure (Option Outcome) → World ω → Script ω α)

/-- Makes the calls in turn, whatever they answer. -/
def Script.calls {ω : Type} : List (Op ω) → Script ω Unit
  | [] => .done (.ok ())
  | op :: rest => .call op fun _ _ => calls rest

structure Behaviour (ω : Type) where
  onOutcome : ω → Outcome → Script ω Outcome
  onReload : ω → Datum → Script ω Unit

namespace World

variable {ω : Type}

def catalog (w : World ω) : Catalog := w.drafts.map Draft.net

def site (call : ω → Outcome → Act (World ω) Outcome)
    (callReload : ω → Datum → Act (World ω) Unit) : Site (World ω) ω where
  stream := stream
  withStream s w := { w with stream := s }
  catalog := catalog
  now w := w.timebase.read w.timebase.clock
  report _ := pure ()
  call := call
  callReload := callReload

/-! ## What is called -/

def opened (schema discipline : Datum) (config : Config) (w : World ω) :
    Except Failure (World ω) := do
  let d ← Draft.open? w.drafts.length schema discipline config
  return { w with drafts := w.drafts ++ [d] }

def loaded (form : Declaration.Form) (overrides : Declaration.Overrides) (decl : Declaration)
    (w : World ω) : Except Failure (World ω) := do
  let net ← (decl.load form w.drafts.length overrides).1
  let d : Draft := { self := w.drafts.length, net, config := overrides.config }
  return { w with drafts := w.drafts ++ [d] }

def edited (id : Nat) (step : Draft.Step) (w : World ω) : Except Failure Unit × World ω :=
  match w.drafts[id]? with
  | none => (.error .noAttribute, w)
  | some d =>
    ((Act.apply step.run d).1, { w with drafts := w.drafts.set id (Act.after step.run d) })

def installed (id : Nat) (config : Config) (w : World ω) : Except Failure (World ω) := do
  let inst ← Installation.open? w.catalog id config
  return { w with installations := w.installations ++ [inst] }

/-- A net is put to use under the configuration of the stream. -/
def installation (w : World ω) (config : Config) : Operand → Except Failure Installation
  | .net id => Installation.open? w.catalog id config
  | .installation id => match w.installations[id]? with
    | some inst => .ok inst
    | none => .error .noAttribute

def updated (net : Operand) (w : World ω) : Except Failure (World ω) := do
  let inst ← w.installation w.stream.config net
  let key ← Stream.netKey w.catalog inst
  let s ← w.stream.update w.catalog inst
  return { w with stream := s, journal := .updated key :: w.journal }

def restarted (w : World ω) : World ω :=
  { w with stream := w.stream.restart, journal := .restarted :: w.journal }

/-- Notes the firing that a request comes to, just before it is entered. -/
def foreseen (r : Request) (w : World ω) : World ω :=
  match w.stream.firing? w.catalog r with
  | some f => { w with journal := .fired f :: w.journal }
  | none => w

def fired (f : Firing) (w : World ω) : World ω :=
  { w with
    stream := w.stream.commit f.event f.toDecision w.timebase.now
    journal := .fired f :: w.journal }

def rewired (f : Stream ω → Except Failure (Stream ω)) (w : World ω) :
    Except Failure (World ω) := do
  return { w with stream := ← f w.stream }

def advanced (w : World ω) : Except Failure (World ω) :=
  match w.timebase.advance with
  | .ok timebase => .ok { w with timebase }
  | .error e => .error (.ofArithmetic e)

def registerAll (w : World ω) (s : Stream ω) : List Operand → Except Failure (Stream ω)
  | [] => .ok s
  | net :: rest => do
    let inst ← w.installation s.config net
    w.registerAll (← s.register w.catalog inst) rest

/-- The world with a new stream over the nets. -/
def withOpened (timebase : Timebase) (config : Config) (nets : List Operand) (w : World ω) :
    Except Failure (World ω) := do
  return { w with stream := ← w.registerAll { config } nets, timebase, journal := [] }

/-- Runs what happens either altogether or not at all. -/
def alter (f : World ω → Except Failure (World ω)) : Act (World ω) (Option Outcome) := do
  let w ← Act.liftExcept (f (← get))
  set w
  return none

end World

namespace Op

variable {ω : Type}

def perform (site : Site (World ω) ω) : Op ω → Act (World ω) (Option Outcome)
  | draft schema discipline config => World.alter (World.opened schema discipline config)
  | load form overrides decl => World.alter (World.loaded form overrides decl)
  | edit id step => do
    let (result, w) := (← get).edited id step
    set w
    Act.liftExcept result
    return none
  | install id config => World.alter (World.installed id config)
  | dispatch r => do
    modify (World.foreseen r)
    return some (← site.dispatch r)
  | update net => World.alter (World.updated net)
  | restart => World.alter fun w => .ok w.restarted
  | reload schema => do
    site.reload schema
    return none
  | on action observer => World.alter (World.rewired fun s => s.observe action observer)
  | off action => World.alter (World.rewired fun s => s.ignore action)
  | onEvery observer => World.alter (World.rewired fun s => .ok { s with onEvery := observer })
  | onFail observer => World.alter (World.rewired fun s => .ok { s with onFail := observer })
  | onReload observer => World.alter (World.rewired fun s => .ok { s with onReload := observer })
  | advance => World.alter World.advanced
  | reset => World.alter fun w => .ok { w with timebase := w.timebase.reset }

end Op

def Script.run {ω α : Type} (site : Site (World ω) ω) : Script ω α → Act (World ω) α
  | .done result => Act.liftExcept result
  | .call op rest => do
    let answer ← Act.attempt (op.perform site)
    let w ← get
    (rest answer w).run site

/-- The world as a site whose observers are called at most `depth` deep. -/
def Behaviour.site {ω : Type} (b : Behaviour ω) : Nat → Site (World ω) ω
  | 0 => World.site (fun _ _ => throw .tooDeep) fun _ _ => throw .tooDeep
  | depth + 1 =>
    World.site (fun observer o => (b.onOutcome observer o).run (b.site depth))
      fun observer schema => (b.onReload observer schema).run (b.site depth)

/-! ## A small world -/

namespace Relay

/-- One place has a token, and the transition moves it on to the other. -/
def steps : List Draft.Step :=
  [.place (.text "here") (.int 1) (.int 1) .null, .place (.text "there") (.int 0) (.int 1) .null,
    .transition (.text "pass") .null .null,
    .arc (.place "here") (.transition "pass") (.int 1) (.bool false),
    .arc (.transition "pass") (.place "there") (.int 1) (.bool false), .build]

/-- Observers that fail, with their name for a message. -/
def failing : Behaviour String where
  onOutcome name _ := .done (.error (.raised name))
  onReload name _ := .done (.error (.raised name))

def prepare : Script String Unit :=
  .calls (.draft (.text "relay") (.text "stateMachine") .default :: steps.map (.edit 0))

def opened : World String :=
  match (Act.after (prepare.run (failing.site 0)) {}).withOpened (.ofStep (.int 1)) .default
    [.net 0] with
  | .ok w => w
  | .error _ => {}

/-- Its stream is observed by one that fails. -/
def world : World String :=
  Act.after ((Script.calls [.onEvery (some "stop")]).run (failing.site 0)) opened

def request : Request := { value := .text "relay", action := .text "pass" }

end Relay

end TokenNet
