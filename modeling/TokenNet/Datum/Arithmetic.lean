import TokenNet.Datum.Basic
/-!
Arithmetic on values.  Whole numbers stay whole among themselves and become doubles beside a
double; a truth value counts as zero or one.  Coordinates keep the form in which they were given
because of these rules.
-/

namespace TokenNet

open CoreArithmetic

/-- The ways in which arithmetic on values fails. -/
inductive ArithmeticError where
  | notNumbers
  | tooLarge
  /-- A repetition that would not fit in memory. -/
  | tooLong
deriving DecidableEq, Repr

inductive Number where
  | int (n : Int)
  | float (x : Binary64)
deriving DecidableEq, Repr

namespace Number

def toDatum : Number → Datum
  | .int n => .int n
  | .float x => .float x

def toBinary64 : Number → Except ArithmeticError Binary64
  | .int n => match Binary64.ofInt? n with
    | some x => .ok x
    | none => .error .tooLarge
  | .float x => .ok x

def combine (onInts : Int → Int → Int) (onFloats : Binary64 → Binary64 → Binary64)
    (a b : Number) : Except ArithmeticError Number :=
  match a, b with
  | .int m, .int n => .ok (.int (onInts m n))
  | a, b => do
    let x ← a.toBinary64
    let y ← b.toBinary64
    return .float (onFloats x y)

def add (a b : Number) : Except ArithmeticError Number := combine (· + ·) Binary64.add a b

def sub (a b : Number) : Except ArithmeticError Number := combine (· - ·) Binary64.sub a b

def mul (a b : Number) : Except ArithmeticError Number := combine (· * ·) Binary64.mul a b

def abs : Number → Number
  | .int n => .int n.natAbs
  | .float x => .float x.abs

/-- Exact, also between a whole number and a double. -/
def lt : Number → Number → Bool
  | .int m, .int n => decide (m < n)
  | .float x, .float y => x.lt y
  | .float x, .int n => decide (x.compareInt n = some .lt)
  | .int n, .float x => decide (x.compareInt n = some .gt)

end Number

namespace Datum

def number? : Datum → Option Number
  | .bool b => some (.int (if b then 1 else 0))
  | .int n => some (.int n)
  | .float x => some (.float x)
  | _ => none

def toNumber (d : Datum) : Except ArithmeticError Number :=
  match d.number? with
  | some n => .ok n
  | none => .error .notNumbers

def add (a b : Datum) : Except ArithmeticError Datum := do
  return (← (← a.toNumber).add (← b.toNumber)).toDatum

def repeatList {α : Type} (items : List α) (n : Int) : List α :=
  (List.replicate n.toNat items).flatten

/-- The bound of 64-bit sizes. -/
def maxSize : Nat := 2 ^ (63 : Nat) - 1

/-- No value of this length or more is ever made. -/
def memory : Nat := 2 ^ (32 : Nat)

/-- Text, bytes and lists are repeated by a whole number on either side, which must be a 64-bit
one.  A list that would outgrow the 64-bit sizes is too long, and so is whatever would not fit in
memory; other sequences that outgrow those sizes are too large. -/
def repetition {α : Type} (items : List α) (overflow : ArithmeticError) (n : Int) :
    Except ArithmeticError (List α) :=
  if n < -(maxSize : Int) - 1 ∨ maxSize < n then .error .tooLarge
  else if items.isEmpty then .ok []
  else if maxSize < items.length * n.toNat then .error overflow
  else if memory ≤ items.length * n.toNat then .error .tooLong
  else .ok (repeatList items n)

def repeated (d : Datum) (n : Int) : Except ArithmeticError Datum :=
  match d with
  | .text s => (repetition s.toList .tooLarge n).map fun cs => .text (String.ofList cs)
  | .bytes b => (repetition b .tooLarge n).map .bytes
  | .list items => (repetition items .tooLong n).map .list
  | _ => .error .notNumbers

def mul (a b : Datum) : Except ArithmeticError Datum :=
  match a.number?, b.number? with
  | some x, some y => return (← x.mul y).toDatum
  | none, some (.int n) => a.repeated n
  | some (.int n), none => b.repeated n
  | _, _ => .error .notNumbers

end Datum

end TokenNet
