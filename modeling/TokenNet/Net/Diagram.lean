import TokenNet.Net.Export
/-!
A net drawn as the text of a Mermaid flow chart, from its compiled vectors: a line per node, then
per transition a line for each entry of its delta and for each guard.
-/

namespace TokenNet.Net

open CoreArithmetic

def isIdChar (c : Char) : Bool :=
  (decide ('0' ≤ c) && decide (c ≤ '9')) || (decide ('A' ≤ c) && decide (c ≤ 'Z')) ||
    (decide ('a' ≤ c) && decide (c ≤ 'z')) || c = '_'

/-- The kind of the node, then its label with every other character replaced. -/
def diagramId (kind : Char) (label : String) : String :=
  String.ofList (kind :: '_' :: label.toList.map fun c => if isIdChar c then c else '_')

/-- The parts of a line, which is indented. -/
def line (parts : List Writing) : Except Failure String :=
  Failure.ofWriting (phrase ("    " :: parts))

def placeLine (p : Place) : Except Failure String :=
  let capacity := if p.capacity = 0 then some "" else phrase ["/", intText p.capacity]
  line [diagramId 'p' p.label, "((\"", p.label, "<br/>", intText p.initial, capacity, "\"))"]

def transitionLine (g : Glossary) (t : Transition) : Except Failure String := do
  let role := (← t.roleLabel).elim (some "") fun label => phrase ["<br/>", label.plain g]
  line [diagramId 't' t.label, "[\"", t.label, role, "\"]"]

/-- Tokens flow from the transition to the place, or back if the entry is negative; a single token
goes unlabelled. -/
def edgeLine (place transition : String) (v : Int) : Except Failure String :=
  let weight := if 1 < v.natAbs then phrase ["|", intText v.natAbs, "|"] else some ""
  if 0 < v then line [transition, " -->", weight, " ", place]
  else line [place, " -->", weight, " ", transition]

def guardLine (transition key : String) (guard : Guard) : Except Failure String :=
  line [diagramId 'p' key, " --o|", intText guard.delta.sum.natAbs, "| ", transition]

/-- Entries beyond the places have nothing to be drawn to. -/
def edgeLines (transition : String) : List Place → Vec → Except Failure (List String)
  | _, [] => .ok []
  | [], v :: rest => if v = 0 then edgeLines transition [] rest else .error .noEntry
  | p :: places, v :: rest => do
    if v = 0 then edgeLines transition places rest
    else
      let first ← edgeLine (diagramId 'p' p.label) transition v
      return first :: (← edgeLines transition places rest)

def transitionEdges (net : Net) (t : Transition) : Except Failure (List String) := do
  let id := diagramId 't' t.label
  let edges ← edgeLines id net.places t.delta
  return edges ++ (← t.guards.mapM fun (key, guard) => guardLine id key guard)

def diagramLines (g : Glossary) (net : Net) : Except Failure (List String) := do
  let places ← net.places.mapM placeLine
  let transitions ← net.transitions.mapM (transitionLine g)
  let edges ← net.transitions.mapM net.transitionEdges
  return "graph LR" :: places ++ transitions ++ edges.flatten

def diagram (g : Glossary) (net : Net) : Except Failure String := do
  return "\n".intercalate (← net.diagramLines g)

end TokenNet.Net
