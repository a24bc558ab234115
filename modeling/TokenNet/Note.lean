import TokenNet.Failure
import TokenNet.Net.Compile
/-!
What operations report while they run: warnings about nets, and traces of what was done.
-/

namespace TokenNet

inductive Level where
  | debug
  | warning
deriving DecidableEq, Repr

namespace Level

def name : Level → String
  | .debug => "DEBUG"
  | .warning => "WARNING"

end Level

inductive Note where
  /-- In the net with number `self`. -/
  | finding (self : Nat) (schema : Datum) (found : Finding)
  | indexed (schema : Datum) (places transitions arcs : Nat) (ok : Bool)
  | built (schema : Datum) (discipline : Discipline)
  | arcsIgnored (schema : Datum) (count : Nat)
  | exportedWithoutArcs (schema : Datum)
  | fired (schema action multiplier : Datum) (marking : Vec)
  | refused (schema action multiplier : Datum) (attempted : Option Vec)
  | dispatched (schema action : Datum) (seq : Nat) (marking : Vec)
  | dispatchFailed (schema action : Datum)
  | replaced (schema : Datum)

namespace Note

def level : Note → Level
  | .finding .. | .arcsIgnored _ _ | .exportedWithoutArcs _ => .warning
  | _ => .debug

/-- The text of a value in a slot of an arc. -/
def slotText (scene : Scene) (self i : Nat) (slot : ArcSlot) (d : Datum) : Writing :=
  d.literal (scene.inside (.slot self i slot))

/-- `scene` shows the net with number `self` as it stood when the flaw was met. -/
def flawText (scene : Scene) (self : Nat) : Flaw → Writing
  | .invalidWeight i arc =>
    phrase ["arc #", countText i, " has invalid weight ",
      slotText scene self i .weight arc.weight]
  | .malformed i arc =>
    phrase ["arc #", countText i, " is malformed (",
      slotText scene self i .source (arc.source.toDatum self), " -> ",
      slotText scene self i .target (arc.target.toDatum self), ", inhibit=",
      arc.inhibit.plain (scene.inside (.slot self i .inhibit)), ")"]
  | .deltaSize transition size expected =>
    phrase ["delta of ", transition, " has ", countText size, " entries, expected ",
      countText expected]
  | .badGuard key transition => phrase ["bad guard ", key, " on ", transition]

/-- A firing asked for, in the words of its trace. -/
def firingText (g : Glossary) (schema action multiplier : Datum) : Writing :=
  phrase ["[fire] ", schema.plain g, ".", action.plain g, " x", multiplier.plain g]

def message (scene : Scene) (note : Note) : Writing :=
  let g := scene.glossary
  match note with
  | .finding self schema found =>
    phrase ["[index] ", schema.plain g, ": ",
      flawText (scene.holding self found.standing) self found.flaw]
  | .indexed schema places transitions arcs ok =>
    phrase ["[index] ", schema.plain g, ": places=", countText places, " transitions=",
      countText transitions, " arcs=", countText arcs, " ok=", boolText ok]
  | .built schema discipline =>
    phrase ["[build] ", schema.plain g, " (", discipline.name, ") built"]
  | .arcsIgnored schema count =>
    phrase ["[load] ", schema.plain g, ": ignoring ", countText count, " arcs in object form"]
  | .exportedWithoutArcs schema =>
    phrase ["[export] ", schema.plain g,
      " was loaded from precomputed deltas; arcs are not reconstructed"]
  | .fired schema action multiplier marking =>
    phrase [firingText g schema action multiplier, " -> ", vecText marking]
  | .refused schema action multiplier attempted =>
    phrase [firingText g schema action multiplier, " rejected (",
      attempted.elim (some "None") vecText, ")"]
  | .dispatched schema action seq marking =>
    phrase ["[dispatch] ", schema.plain g, ".", action.plain g, " seq=", countText seq, " -> ",
      vecText marking]
  | .dispatchFailed schema action =>
    phrase ["[dispatch] ", schema.plain g, ".", action.plain g, " failed"]
  | .replaced schema => phrase ["[stream] replaced net ", schema.plain g]

end Note

end TokenNet
