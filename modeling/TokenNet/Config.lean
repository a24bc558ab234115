import TokenNet.Net.Basic
import TokenNet.Datum.Arithmetic
/-!
The tunables of declarations and queries.  They are always handed over explicitly.
-/

namespace TokenNet

/-- The numbers that declarations and queries depend on. -/
structure Config where
  /-- Largest distance, on each axis, at which `nearby?` finds a node. -/
  proximity : Datum
  /-- Room that `extent` adds beyond the furthest node. -/
  margin : Datum
  /-- Refuse places that start above their capacity. -/
  validateCapacity : Bool
  /-- Pixels per unit of the grid. -/
  grid : Datum
deriving Inhabited

namespace Config

def default : Config where
  proximity := .float (.ofRatio false 24 1)
  margin := .float (.ofRatio false 100 1)
  validateCapacity := true
  grid := .float (.ofRatio false 60 1)

/-- Grid coordinates as a position in pixels. -/
def pos (config : Config) (x y : Datum) : Except ArithmeticError Position := do
  return { x := ← x.mul config.grid, y := ← y.mul config.grid }

end Config

end TokenNet
