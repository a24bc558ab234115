/-!
Double-precision numbers as their three fields.  A finite value is a whole significand times a
power of two, so sums and products are taken exactly in the integers and rounded once, by
`ofRatio`; comparison is the order of `ordinal`.
-/

namespace TokenNet

/-! Powers and sums are those of the core library, also in scopes where monoids have their own. -/

namespace CoreArithmetic

scoped instance (priority := 2000) natPow : Pow Nat Nat := instPowNat

scoped instance (priority := 2000) intPow : Pow Int Nat := instPowNat

scoped instance (priority := 2000) natZero : Zero Nat := ⟨0⟩

scoped instance (priority := 2000) intZero : Zero Int := ⟨0⟩

end CoreArithmetic

open CoreArithmetic

structure Binary64 where
  negative : Bool
  exponent : Fin 2048
  fraction : Fin (2 ^ (52 : Nat))
deriving DecidableEq, Inhabited, Repr

namespace Binary64

def zero (negative : Bool) : Binary64 := ⟨negative, 0, 0⟩

def infinity (negative : Bool) : Binary64 := ⟨negative, 2047, 0⟩

def nan : Binary64 := ⟨false, 2047, ⟨2 ^ (51 : Nat), by decide⟩⟩

def isFinite (x : Binary64) : Bool := decide (x.exponent.val < 2047)

def isNan (x : Binary64) : Bool := !x.isFinite && decide (0 < x.fraction.val)

def isInfinite (x : Binary64) : Bool := !x.isFinite && decide (x.fraction.val = 0)

/-- Exponent and fraction read as one number.  It grows with the magnitude, which is why rounding
may carry from the fraction into the exponent by plain addition. -/
def magnitudeBits (x : Binary64) : Nat := x.exponent.val * 2 ^ (52 : Nat) + x.fraction.val

/-- Infinity caps every larger pattern. -/
def ofMagnitudeBits (negative : Bool) (bits : Nat) : Binary64 :=
  let b := min bits (2047 * 2 ^ (52 : Nat))
  { negative
    exponent := ⟨b / 2 ^ (52 : Nat), by
      have : b ≤ 2047 * 2 ^ (52 : Nat) := Nat.min_le_right _ _
      omega⟩
    fraction := ⟨b % 2 ^ (52 : Nat), Nat.mod_lt _ (by decide)⟩ }

/-- A finite value has the magnitude `significand * 2 ^ scale`. -/
def significand (x : Binary64) : Nat :=
  if x.exponent.val = 0 then x.fraction.val else 2 ^ (52 : Nat) + x.fraction.val

def scale (x : Binary64) : Int := (max 1 x.exponent.val : Nat) - 1075

/-- The nearest whole number, a half going to the even neighbour. -/
def divNearest (num den : Nat) : Nat :=
  let q := num / den
  let r := num % den
  if 2 * r < den then q else if den < 2 * r then q + 1 else q + q % 2

/-- The `e` with `2 ^ e ≤ num / den < 2 ^ (e + 1)`, for positive arguments. -/
def ratioLog2 (num den : Nat) : Int :=
  let e : Int := (num.log2 : Int) - den.log2
  let reached := if 0 ≤ e then den * 2 ^ e.toNat ≤ num else den ≤ num * 2 ^ (-e).toNat
  if reached then e else e - 1

/-- The double nearest to `num / den`, ties to even. -/
def ofRatio (negative : Bool) (num den : Nat) : Binary64 :=
  if num = 0 then zero negative
  else
    let q := max (ratioLog2 num den - 52) (-1074)
    let m :=
      if 0 ≤ q then divNearest num (den * 2 ^ q.toNat)
      else divNearest (num * 2 ^ (-q).toNat) den
    ofMagnitudeBits negative (m + (q + 1074).toNat * 2 ^ (52 : Nat))

def ofScaled (negative : Bool) (n : Nat) (q : Int) : Binary64 :=
  if 0 ≤ q then ofRatio negative (n * 2 ^ q.toNat) 1 else ofRatio negative n (2 ^ (-q).toNat)

/-- `none` when the nearest double is infinite. -/
def ofInt? (n : Int) : Option Binary64 :=
  let x := ofRatio (decide (n < 0)) n.natAbs 1
  if x.isFinite then some x else none

/-- The value as a whole multiple of `2 ^ scale`. -/
def signed (x : Binary64) : Int := if x.negative then -(x.significand : Int) else x.significand

/-- The whole number that a finite value is, if it is one. -/
def toInt? (x : Binary64) : Option Int :=
  if !x.isFinite then none
  else if 0 ≤ x.scale then some (x.signed * 2 ^ x.scale.toNat)
  else
    let d : Int := 2 ^ (-x.scale).toNat
    if x.signed % d = 0 then some (x.signed / d) else none

def neg (x : Binary64) : Binary64 := { x with negative := !x.negative }

def abs (x : Binary64) : Binary64 := { x with negative := false }

/-- An exact zero is negative only when both operands are. -/
def add (x y : Binary64) : Binary64 :=
  if x.isNan || y.isNan then nan
  else if x.isInfinite then
    if y.isInfinite && x.negative != y.negative then nan else x
  else if y.isInfinite then y
  else
    let q := min x.scale y.scale
    let n := x.signed * 2 ^ (x.scale - q).toNat + y.signed * 2 ^ (y.scale - q).toNat
    if n = 0 then zero (x.negative && y.negative)
    else ofScaled (decide (n < 0)) n.natAbs q

def sub (x y : Binary64) : Binary64 := add x y.neg

def mul (x y : Binary64) : Binary64 :=
  let negative := x.negative != y.negative
  if x.isNan || y.isNan then nan
  else if x.isInfinite || y.isInfinite then
    if x.magnitudeBits = 0 ∨ y.magnitudeBits = 0 then nan else infinity negative
  else ofScaled negative (x.significand * y.significand) (x.scale + y.scale)

/-- Both zeros have ordinal zero. -/
def ordinal (x : Binary64) : Int := if x.negative then -(x.magnitudeBits : Int) else x.magnitudeBits

def lt (x y : Binary64) : Bool := !x.isNan && !y.isNan && decide (x.ordinal < y.ordinal)

def equal (x y : Binary64) : Bool := !x.isNan && !y.isNan && decide (x.ordinal = y.ordinal)

/-- `x` against a whole number, exactly: no conversion can round it.  `none` for nan. -/
def compareInt (x : Binary64) (n : Int) : Option Ordering :=
  if x.isNan then none
  else if x.isInfinite then some (if x.negative then .lt else .gt)
  else if 0 ≤ x.scale then some (compare (x.signed * 2 ^ x.scale.toNat) n)
  else some (compare x.signed (n * 2 ^ (-x.scale).toNat))

end Binary64

end TokenNet
