import TokenNet.Number.Binary64
/-!
The values that callers hand to a net: numbers, text, lists and maps, and the few objects of this
library that travel as values themselves.  Labels, weights, roles and events are checked when they
are used, not when they are written, so their types hold a `Datum` wherever a caller may put one.
-/

namespace TokenNet

inductive NodeKind where
  | place
  | transition
deriving DecidableEq, Repr

/-- A node is never removed from its net and its label is unique there, so these three tell it
from every other node. -/
structure NodeName where
  net : Nat
  kind : NodeKind
  label : String
deriving DecidableEq, Repr

/-- The stateful things a caller can name.  A marking is a vector, shared by whoever was handed
it. -/
inductive ThingKind where
  | builder
  | net
  | installation
  | marking
  | clock
  | stream
  | declaration
deriving DecidableEq, Repr

inductive Datum where
  | null
  | bool (b : Bool)
  | int (n : Int)
  | float (x : Binary64)
  | text (s : String)
  | bytes (b : List UInt8)
  | list (items : List Datum)
  | map (entries : List (Datum × Datum))
  | role (label : Datum)
  | position (x y : Datum)
  | event (schema action multiplier : Datum)
  | node (name : NodeName)
  | handle (name : NodeName)
  | thing (kind : ThingKind) (id : Nat)
deriving Inhabited

namespace Datum

/-- Zeros, empty text and empty containers are false, and so is null. -/
def truthy : Datum → Bool
  | .null => false
  | .bool b => b
  | .int n => decide (n ≠ 0)
  | .float x => decide (x.magnitudeBits ≠ 0)
  | .text s => !s.isEmpty
  | .bytes b => !b.isEmpty
  | .list items => !items.isEmpty
  | .map entries => !entries.isEmpty
  | _ => true

def typeName : Datum → String
  | .null => "NoneType"
  | .bool _ => "bool"
  | .int _ => "int"
  | .float _ => "float"
  | .text _ => "str"
  | .bytes _ => "bytes"
  | .list _ => "list"
  | .map _ => "dict"
  | .role _ => "RoleSpec"
  | .position _ _ => "Position"
  | .event _ _ _ => "DispatchEvent"
  | .node n => match n.kind with | .place => "PlaceSpec" | .transition => "TransitionSpec"
  | .handle n => match n.kind with | .place => "PlaceRef" | .transition => "TransitionRef"
  | .thing kind _ => match kind with
    | .builder => "NetBuilder"
    | .net => "NetSpec"
    | .installation => "NetRuntime"
    | .marking => "list"
    | .clock => "CycleClock"
    | .stream => "MarkingStream"
    | .declaration => "NetDeclaration"

/-- A handle stands for its node. -/
def unwrap : Datum → Datum
  | .handle n => .node n
  | d => d

def text? : Datum → Option String
  | .text s => some s
  | _ => none

/-- A whole number, for which a truth value passes as well. -/
def whole? : Datum → Option Int
  | .int n => some n
  | .bool b => some (if b then 1 else 0)
  | _ => none

/-- A whole number above zero. -/
def positive? : Datum → Option Int
  | .int n => if 0 < n then some n else none
  | _ => none

theorem positive?_eq_some {d : Datum} {n : Int} : d.positive? = some n ↔ d = .int n ∧ 0 < n := by
  cases d with
  | int m =>
    simp only [positive?, Option.ite_none_right_eq_some, Option.some.injEq, int.injEq]
    constructor
    · rintro ⟨h, rfl⟩
      exact ⟨rfl, h⟩
    · rintro ⟨rfl, h⟩
      exact ⟨h, rfl⟩
  | _ => simp [positive?]

end Datum

end TokenNet
