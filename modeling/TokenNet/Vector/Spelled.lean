import TokenNet.Datum.Literal
import TokenNet.Vector
/-!
Vectors as callers give them.  A truth value counts as one or zero in every sum, but shows as it was
given until something else is put in its place.
-/

namespace TokenNet.Vec

/-- A vector and the offsets at which truth values were given. -/
structure Spelled where
  entries : Vec
  truths : List Nat := []
deriving DecidableEq, Repr, Inhabited

namespace Spelled

def ofVec (v : Vec) : Spelled := { entries := v }

def truth? : Datum × Nat → Option Nat
  | (.bool _, i) => some i
  | _ => none

def truthOffsets (items : List Datum) : List Nat := items.zipIdx.filterMap truth?

/-- None if some item does not count as a whole number. -/
def ofData? (items : List Datum) : Option Spelled :=
  (items.mapM Datum.whole?).map fun entries =>
    { entries, truths := truthOffsets items }

/-- The entries in turn, each as a whole number or as a truth value. -/
def render {α : Type} (whole : Int → α) (truth : Bool → α) (s : Spelled) : List α :=
  s.entries.zipIdx.map fun (n, i) =>
    if i ∈ s.truths then truth (decide (n ≠ 0)) else whole n

def toData (s : Spelled) : List Datum := s.render .int .bool

def toDatum (s : Spelled) : Datum := .list s.toData

def literal (s : Spelled) : Writing := bracketed (s.render intText fun b => boolText b)

@[simp] theorem toData_ofVec (v : Vec) : (ofVec v).toData = v.map .int := by
  apply List.ext_getElem? fun i => ?_
  cases h : v[i]? <;> simp [toData, render, ofVec, h]

end Spelled

end TokenNet.Vec
