import TokenNet.Config
/-!
Queries on the layout of a net.  Coordinates are whatever the declaration gave, so both queries can
fail on coordinates that are no numbers.
-/

namespace TokenNet

namespace Position

/-- Strictly nearer than the threshold on one axis. -/
def nearOn (given coordinate threshold : Datum) : Except ArithmeticError Bool := do
  let gap ← (← given.toNumber).sub (← coordinate.toNumber)
  return gap.abs.lt (← threshold.toNumber)

/-- The second axis is looked at only if the first one is near. -/
def near (p : Position) (x y threshold : Datum) : Except ArithmeticError Bool := do
  if ← nearOn x p.x threshold then nearOn y p.y threshold else return false

end Position

namespace Net

/-- Every node's end and position, places first. -/
def layout (net : Net) : List (End × Position) :=
  net.places.map (fun p => (.place p.label, p.position)) ++
    net.transitions.map (fun t => (.transition t.label, t.position))

def firstNear (x y threshold : Datum) :
    List (End × Position) → Except ArithmeticError (Option End)
  | [] => .ok none
  | (e, p) :: rest => do
    if ← p.near x y threshold then return some e else firstNear x y threshold rest

def nearby? (net : Net) (x y threshold : Datum) : Except ArithmeticError (Option End) :=
  firstNear x y threshold net.layout

/-- The larger one; the first unless the second exceeds it. -/
def larger (a b : Datum) : Except ArithmeticError Datum := do
  if (← a.toNumber).lt (← b.toNumber) then return b else return a

/-- Width and height that hold every node and the margin. -/
def extent (net : Net) (margin : Datum) : Except ArithmeticError (Datum × Datum) := do
  let (x, y) ← net.layout.foldlM
    (fun (limit : Datum × Datum) (_, p) => do
      return (← larger limit.1 p.x, ← larger limit.2 p.y))
    (Datum.int 0, Datum.int 0)
  return (← x.add margin, ← y.add margin)

end Net

end TokenNet
