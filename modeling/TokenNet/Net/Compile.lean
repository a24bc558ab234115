import TokenNet.Net.Basic
/-!
Compiling a net: arcs become one delta per transition and one guard per inhibited pair.  An arc
that joins no place and transition of the net, or carries no positive weight, is reported and
leaves the vectors alone; the arcs behind it are compiled all the same.

A net that came with its vectors has no arcs; `index` then checks the vectors instead.
-/

namespace TokenNet

inductive LinkKind where
  | input
  | output
  | inhibitor
deriving DecidableEq, Repr

/-- What a well-formed arc says. -/
structure Link where
  kind : LinkKind
  place : String
  offset : Nat
  transition : String
  weight : Int
deriving DecidableEq, Repr

/-- What may be wrong with a net. -/
inductive Flaw where
  | invalidWeight (i : Nat) (arc : Arc)
  | malformed (i : Nat) (arc : Arc)
  | deltaSize (transition : String) (size expected : Nat)
  | badGuard (key transition : String)

/-- A flaw, and the net as it stood when the flaw was met: what an arc holds may show the vectors of
that moment. -/
structure Finding where
  flaw : Flaw
  standing : Net

namespace Net

/-- The kind of link between two ends, with the labels of its place and its transition. -/
def joint? (arc : Arc) : Option (LinkKind × String × String) :=
  match arc.inhibit.truthy, arc.source, arc.target with
  | true, .place p, .transition t => some (.inhibitor, p, t)
  | false, .place p, .transition t => some (.input, p, t)
  | false, .transition t, .place p => some (.output, p, t)
  | _, _, _ => none

def link? (net : Net) (arc : Arc) : Option Link := do
  let weight ← arc.weight.positive?
  let (kind, place, transition) ← joint? arc
  let offset ← net.offset? place
  let _ ← net.transition? transition
  return { kind, place, offset, transition, weight }

/-- A later link between the same two nodes overwrites the entry of an earlier one. -/
def attach (net : Net) (link : Link) : Net :=
  net.modifyTransition link.transition fun t =>
    match link.kind with
    | .input => { t with delta := t.delta.set link.offset (-link.weight) }
    | .output => { t with delta := t.delta.set link.offset link.weight }
    | .inhibitor =>
      let delta := net.emptyVector.set link.offset (-link.weight)
      { t with guards := t.guards.insert link.place { label := link.place, delta } }

def finding (net : Net) (i : Nat) (arc : Arc) : Finding :=
  match arc.weight.positive? with
  | none => { flaw := .invalidWeight i arc, standing := net }
  | some _ => { flaw := .malformed i arc, standing := net }

/-- Arcs are numbered from `i` on. -/
def attachArcs (net : Net) (i : Nat) : List Arc → Net × List Finding
  | [] => (net, [])
  | arc :: rest =>
    match net.link? arc with
    | some link => (net.attach link).attachArcs (i + 1) rest
    | none =>
      let (compiled, findings) := net.attachArcs (i + 1) rest
      (compiled, net.finding i arc :: findings)

def cleared (net : Net) : Net :=
  { net with transitions := net.transitions.map fun t =>
      { t with delta := net.emptyVector, truths := [], guards := [] } }

/-- A single negative entry at the offset of the guard's place, under the label of that place. -/
def guardFits (net : Net) (key : String) (guard : Guard) : Bool :=
  match net.offset? guard.label with
  | none => false
  | some offset =>
    decide (key = guard.label) && decide (guard.delta.length = net.size) &&
      (guard.delta.zipIdx.all fun (v, i) =>
        if i = offset then decide (v < 0) else decide (v = 0))

def vectorFlaws (net : Net) (t : Transition) : List Flaw :=
  (if t.delta.length = net.size then [] else [.deltaSize t.label t.delta.length net.size]) ++
    t.guards.filterMap fun (key, guard) =>
      if net.guardFits key guard then none else some (.badGuard key t.label)

def vectorFindings (net : Net) : List Finding :=
  (net.transitions.flatMap net.vectorFlaws).map fun flaw => { flaw, standing := net }

/-- The compiled net and what was wrong with it; the net counts as indexed if nothing was. -/
def index (net : Net) : Net × List Finding :=
  if net.hasArcs then
    let (compiled, findings) := net.cleared.attachArcs 0 net.arcs
    ({ compiled with indexed := findings.isEmpty }, findings)
  else
    let findings := net.vectorFindings
    ({ net with indexed := findings.isEmpty }, findings)

@[simp] theorem places_attach (net : Net) (link : Link) :
    (net.attach link).places = net.places := rfl

theorem places_attachArcs (net : Net) (i : Nat) (arcs : List Arc) :
    (net.attachArcs i arcs).1.places = net.places := by
  induction arcs generalizing net i with
  | nil => rfl
  | cons arc rest ih =>
    simp only [attachArcs]
    split
    · rw [ih, places_attach]
    · exact ih net (i + 1)

theorem places_index (net : Net) : net.index.1.places = net.places := by
  unfold index
  split
  · exact places_attachArcs net.cleared 0 net.arcs
  · rfl

theorem indexed_index (net : Net) : net.index.1.indexed = net.index.2.isEmpty := by
  unfold index
  split <;> rfl

end Net

end TokenNet
