import TokenNet.Datum.Arithmetic
/-!
Clocks that stamp history.  A cycle clock moves only when told to; the other two read time outside
the library, so nothing is said about their values.
-/

namespace TokenNet

inductive Clock where
  | cycle (now step : Datum)
  | wall
  | monotonic
deriving Inhabited

namespace Clock

def ofStep (step : Datum) : Clock := .cycle (.int 0) step

def now : Clock → Datum
  | .cycle now _ => now
  | _ => .null

def advance : Clock → Except ArithmeticError Clock
  | .cycle now step => return .cycle (← now.add step) step
  | clock => return clock

def reset : Clock → Clock
  | .cycle _ step => .cycle (.int 0) step
  | clock => clock

end Clock

end TokenNet
