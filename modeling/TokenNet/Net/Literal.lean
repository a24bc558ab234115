import TokenNet.Net.Basic
import TokenNet.Datum.Literal
/-!
How nodes and nets show in messages.

A node shows with all its parts, and so does a net; either may hold a value that leads back to it.
So what is being shown is kept track of, and whatever is met again inside itself shows as dots.
Every step into a node or a net adds one that was not there before, which is why the number of all
of them is depth enough.
-/

namespace TokenNet

open CoreArithmetic

inductive ArcSlot where
  | source
  | target
  | weight
  | inhibit
deriving DecidableEq, Repr

/-- Whatever may be met again inside itself.  The slot of an arc is met again only if showing
began at its value. -/
inductive Referent where
  | node (name : NodeName)
  | net (id : Nat)
  | slot (net arc : Nat) (slot : ArcSlot)
deriving DecidableEq, Repr

/-- What messages are about: the nets by their numbers, and the texts of all other things. -/
structure Scene where
  nets : Catalog
  thing : ThingKind → Nat → Writing
  bare : ThingKind → Nat → Writing

namespace Place

def literal (g : Glossary) (offset : Nat) (p : Place) : Writing :=
  phrase ["PlaceSpec(label=", Text.quote p.label, ", offset=", countText offset, ", initial=",
    intText p.initial, ", capacity=", intText p.capacity, ", position=",
    (Datum.position p.position.x p.position.y).literal g, ")"]

end Place

namespace Guard

def literal (guard : Guard) : Writing :=
  phrase ["GuardSpec(label=", Text.quote guard.label, ", delta=", guard.spelled.literal, ")"]

end Guard

namespace Transition

def literal (g : Glossary) (t : Transition) : Writing :=
  let guards :=
    braced (t.guards.map fun (key, guard) => phrase [Text.quote key, ": ", guard.literal])
  phrase ["TransitionSpec(label=", Text.quote t.label, ", role=", t.role.literal g, ", position=",
    (Datum.position t.position.x t.position.y).literal g, ", delta=", t.spelled.literal,
    ", guards=", guards, ")"]

end Transition

namespace End

/-- An end of an arc of the net with number `self`, as a value. -/
def toDatum (self : Nat) : End → Datum
  | .place label => .node ⟨self, .place, label⟩
  | .transition label => .node ⟨self, .transition, label⟩
  | .other d => d

end End

namespace Discipline

def literal (d : Discipline) : String :=
  let member := match d with
    | .petriNet => "PETRI_NET"
    | .workflow => "WORKFLOW"
    | .stateMachine => "STATE_MACHINE"
  "<NetType." ++ member ++ ": " ++ Text.quote d.name ++ ">"

end Discipline

/-- A value met again inside itself. -/
def dots (g : Glossary) : Datum → Writing
  | .list _ => "[...]"
  | .map _ => "\x7b...\x7d"
  | .role _ | .position _ _ | .event _ _ _ => "..."
  | d => d.literal g

namespace Arc

/-- `again` says which slots are being shown already. -/
def literal (g : Glossary) (again : ArcSlot → Bool) (self : Nat) (arc : Arc) : Writing :=
  let part := fun slot (d : Datum) => if again slot then dots g d else d.literal g
  phrase ["ArcSpec(source=", part .source (arc.source.toDatum self), ", target=",
    part .target (arc.target.toDatum self), ", weight=", part .weight arc.weight, ", inhibit=",
    part .inhibit arc.inhibit, ")"]

end Arc

namespace Net

def nodeLiteral (g : Glossary) (net : Net) (n : NodeName) : Writing :=
  match n.kind with
  | .place => match net.place? n.label, net.offset? n.label with
    | some p, some i => p.literal g i
    | _, _ => n.label
  | .transition => (net.transition? n.label).elim (some n.label) (Transition.literal g)

def literal (g : Glossary) (again : Nat → ArcSlot → Bool) (self : Nat) (net : Net) : Writing :=
  let node := fun kind label => phrase [Text.quote label, ": ", g.node ⟨self, kind, label⟩]
  let places := net.places.map fun p => node .place p.label
  let transitions := net.transitions.map fun t => node .transition t.label
  let arcs := net.arcs.zipIdx.map fun (arc, i) => arc.literal g (again i) self
  let roles := net.roles.map fun r =>
    phrase [r.label.literal g, ": ", (Datum.role r.label).literal g]
  phrase ["NetSpec(schema=", net.schema.literal g, ", type=", net.discipline.literal, ", places=",
    braced places, ", transitions=", braced transitions, ", arcs=", bracketed arcs, ", roles=",
    braced roles, ", indexed=", boolText net.indexed, ", arcs_reconstructed=",
    net.arcsKept.literal g, ")"]

end Net

namespace Scene

/-- The number of nets and nodes, and one more. -/
def size (scene : Scene) : Nat :=
  (scene.nets.map fun net => net.places.length + net.transitions.length + 1).sum + 1

/-- The texts inside what is `being` shown. -/
def within (scene : Scene) : Nat → List Referent → Glossary
  | 0, _ => { node := fun n => n.label, thing := scene.thing, bare := scene.bare }
  | depth + 1, being =>
    let enter := fun (r : Referent) (shown : Glossary → Net → Writing) (id : Nat) =>
      if being.contains r then some "..."
      else (scene.nets[id]?).elim (some "") (shown (within scene depth (r :: being)))
    let net := fun id =>
      enter (.net id) (fun g net =>
        net.literal g (fun arc slot => being.contains (.slot id arc slot)) id) id
    { node := fun n => enter (.node n) (fun g net => net.nodeLiteral g n) n.net
      thing := fun kind id => if kind = .net then net id else scene.thing kind id
      bare := fun kind id => if kind = .net then net id else scene.bare kind id }

def glossary (scene : Scene) : Glossary := scene.within scene.size []

/-- The texts inside the value in a slot. -/
def inside (scene : Scene) (r : Referent) : Glossary := scene.within scene.size [r]

/-- The scene in which a net is the one with number `id`: a new one, if that number is the next. -/
def holding (scene : Scene) (id : Nat) (net : Net) : Scene :=
  { scene with
    nets := if id < scene.nets.length then scene.nets.set id net else scene.nets ++ [net] }

end Scene

end TokenNet
