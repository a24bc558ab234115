import TokenNet.Note
/-!
A net as plain data: the form that declarations are read from.
-/

namespace TokenNet

def named (entries : List (String × Datum)) : Datum :=
  .map (entries.map fun (name, d) => (.text name, d))

namespace Position

def toDatum (p : Position) : Datum := named [("x", p.x), ("y", p.y)]

end Position

namespace Guard

def toDatum (guard : Guard) : Datum :=
  named [("label", .text guard.label), ("delta", guard.spelled.toDatum)]

end Guard

namespace Datum

/-- The label of a value that has one. -/
def label? : Datum → Option Datum
  | .role label => some label
  | .node n => some (.text n.label)
  | .handle n => some (.text n.label)
  | _ => none

end Datum

namespace Transition

/-- The label of the role, if there is a role; a value that is false counts as none.  Fails on one
that has no label. -/
def roleLabel (t : Transition) : Except Failure (Option Datum) :=
  if !t.role.truthy then .ok none
  else match t.role.label? with
    | some label => .ok (some label)
    | none => .error .noAttribute

def toDatum (t : Transition) : Except Failure Datum := do
  return named [("role", (← t.roleLabel).getD .null), ("position", t.position.toDatum),
    ("delta", t.spelled.toDatum),
    ("guards", named (t.guards.map fun (key, guard) => (key, guard.toDatum)))]

end Transition

namespace End

def label? : End → Option Datum
  | .place label => some (.text label)
  | .transition label => some (.text label)
  | .other d => d.label?

end End

namespace Arc

def toDatum? (arc : Arc) : Option Datum := do
  return named [("source", ← arc.source.label?), ("target", ← arc.target.label?),
    ("weight", arc.weight), ("inhibit", arc.inhibit)]

end Arc

namespace Net

def placeDatum (offset : Nat) (p : Place) : Datum :=
  named [("offset", .int offset), ("initial", .int p.initial), ("capacity", .int p.capacity),
    ("position", p.position.toDatum)]

def arcDatum (arc : Arc) : Except Failure Datum :=
  match arc.toDatum? with
  | some d => .ok d
  | none => .error .noAttribute

/-- Fails on a role or an arc end without a label. -/
def toDatum (net : Net) : Except Failure Datum := do
  let transitions ← net.transitions.mapM fun t => return (t.label, ← t.toDatum)
  let arcs ← net.arcs.mapM arcDatum
  return named [("schema", net.schema), ("type", .text net.discipline.name),
    ("version", .text "v0"),
    ("places", named (net.places.zipIdx.map fun (p, i) => (p.label, placeDatum i p))),
    ("transitions", named transitions), ("arcs", .list arcs)]

/-- A net without arcs loses nothing that it had, but cannot be compiled again from its export. -/
def exportNotes (net : Net) : List Note :=
  if net.hasArcs then [] else [.exportedWithoutArcs net.schema]

end Net

end TokenNet
