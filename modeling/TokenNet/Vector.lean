/-!
Integer vectors indexed by place offset: markings, deltas, guards and capacities.  `add?` moves a
marking by a multiple of a delta and says whether every entry stays within its bounds; the moved
vector is kept either way, because a refused move is still reported.
-/

namespace TokenNet

abbrev Vec := List Int

namespace Vec

/-- A capacity of zero or less bounds nothing. -/
def fits (capacity value : Int) : Bool :=
  decide (0 ≤ value) && (decide (capacity ≤ 0) || decide (value ≤ capacity))

/-- Entrywise `fits`.  False when the lengths differ, so a vector within bounds has the length of
its capacities. -/
def within : Vec → Vec → Bool
  | [], [] => true
  | c :: cs, v :: vs => fits c v && within cs vs
  | _, _ => false

def moved (state delta : Vec) (multiplier : Int) : Vec :=
  List.zipWith (fun value change => value + change * multiplier) state delta

structure Tally where
  result : Vec
  ok : Bool
deriving DecidableEq, Repr

/-- `none` when the three lengths differ. -/
def add? (state delta : Vec) (multiplier : Int) (capacity : Vec) : Option Tally :=
  if state.length = delta.length ∧ delta.length = capacity.length then
    let result := moved state delta multiplier
    some { result, ok := within capacity result }
  else
    none

/-- At most one marked place, and none above one token. -/
def elementary (v : Vec) : Bool :=
  v.all (fun n => decide (n ≤ 1)) && decide (v.countP (fun n => decide (0 < n)) ≤ 1)

def clip (v : Vec) : Vec := v.map (fun n => max 0 n)

def zeros (size : Nat) : Vec := List.replicate size 0

@[simp] theorem length_zeros (size : Nat) : (zeros size).length = size := by
  simp [zeros]

@[simp] theorem length_clip (v : Vec) : (clip v).length = v.length := by
  simp [clip]

theorem length_moved (state delta : Vec) (k : Int) :
    (moved state delta k).length = min state.length delta.length := by
  simp [moved]

end Vec

end TokenNet
