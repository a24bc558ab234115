import TokenNet.Number.Binary64
/-!
Decimal text of numbers.  A double is written with the fewest digits that read back as the same
double; `ofDecimal` is the reading, so `shortest` tests each candidate with the reader itself.
-/

namespace TokenNet

open CoreArithmetic

namespace Decimal

def isDigit (c : Char) : Bool := decide ('0' ≤ c) && decide (c ≤ '9')

def digitChar (d : Nat) : Char := Char.ofNat (48 + d)

def digitValue (c : Char) : Nat := c.toNat - 48

/-- The decimal digits of `n` in front of `rest`; a division by ten per step, so that any `fuel`
above `n` is enough. -/
def digitsInto : Nat → Nat → List Char → List Char
  | 0, _, rest => rest
  | fuel + 1, n, rest =>
    if n < 10 then digitChar n :: rest
    else digitsInto fuel (n / 10) (digitChar (n % 10) :: rest)

/-- The decimal digits of `n`, most significant first. -/
def digits (n : Nat) : List Char := digitsInto (n + 1) n []

def ofDigits (cs : List Char) : Nat := cs.foldl (fun n c => 10 * n + digitValue c) 0

/-- The longest run of digits that is read, or written, as a whole number. -/
def maxRun : Nat := 4300

/-- None for a number of more than `maxRun` digits. -/
def ofInt? (n : Int) : Option (List Char) :=
  let ds := digits n.natAbs
  if maxRun < ds.length then none else some (if n < 0 then '-' :: ds else ds)

/-- `coefficient * 10 ^ exponent` to the nearest double.  The two first tests only spare the
arithmetic on exponents that are far out of range. -/
def toBinary64 (negative : Bool) (coefficient : Nat) (exponent : Int) : Binary64 :=
  let size := (digits coefficient).length
  if coefficient = 0 ∨ exponent + size < -330 then .zero negative
  else if 310 < exponent + size then .infinity negative
  else if 0 ≤ exponent then .ofRatio negative (coefficient * 10 ^ exponent.toNat) 1
  else .ofRatio negative coefficient (10 ^ (-exponent).toNat)

/-- The `e` with `10 ^ e ≤ num / den < 10 ^ (e + 1)`, for positive arguments. -/
def ratioLog10 (num den : Nat) : Int :=
  if den ≤ num then ((digits (num / den)).length : Int) - 1
  else
    let j := (digits (den / num)).length - 1
    if den ≤ num * 10 ^ j then -(j : Int) else -(j : Int) - 1

def dropZeros : Nat → Nat → Int → Nat × Int
  | 0, c, e => (c, e)
  | fuel + 1, c, e => if c ≠ 0 ∧ c % 10 = 0 then dropZeros fuel (c / 10) (e + 1) else (c, e)

/-- Of the two neighbours of `num / den` on the grid of step `10 ^ e` those that read back as
`x`; of two the nearer, and the even one when they are equally near. -/
def onGrid (x : Binary64) (num den : Nat) (e : Int) : Option Nat :=
  let top := if 0 ≤ e then num else num * 10 ^ (-e).toNat
  let bottom := if 0 ≤ e then den * 10 ^ e.toNat else den
  let low := top / bottom
  let rest := top % bottom
  let hit := fun c => toBinary64 false c e = x
  if hit low then
    if hit (low + 1) ∧ (bottom < 2 * rest ∨ bottom = 2 * rest ∧ low % 2 = 1) then some (low + 1)
    else some low
  else if hit (low + 1) then some (low + 1)
  else none

/-- The first grid, from the coarsest on, that holds a decimal reading back as `x`. -/
def search (x : Binary64) (num den : Nat) (e : Int) : List Nat → Option (Nat × Int)
  | [] => none
  | n :: rest =>
    let step := e - n
    match onGrid x num den step with
    | some c => some (dropZeros 20 c step)
    | none => search x num den e rest

/-- Every double is a finite decimal; this one is exact and may be long. -/
def exact (x : Binary64) : Nat × Int :=
  if 0 ≤ x.scale then (x.significand * 2 ^ x.scale.toNat, 0)
  else (x.significand * 5 ^ (-x.scale).toNat, x.scale)

/-- Coefficient and exponent of the shortest decimal that reads back as the magnitude of `x`. -/
def shortest (x : Binary64) : Nat × Int :=
  if x.significand = 0 then (0, 0)
  else
    let num := if 0 ≤ x.scale then x.significand * 2 ^ x.scale.toNat else x.significand
    let den := if 0 ≤ x.scale then 1 else 2 ^ (-x.scale).toNat
    (search x.abs num den (ratioLog10 num den) (List.range 17)).getD (exact x)

/-- The parts of a number's text on which formats disagree. -/
structure Style where
  nan : String
  infinity : String

/-- Exponent sign always, and at least two exponent digits. -/
def exponentText (e : Int) : List Char :=
  let ds := digits e.natAbs
  'e' :: (if e < 0 then '-' else '+') :: (if ds.length < 2 then '0' :: ds else ds)

/-- Positional from `10 ^ -4` up to `10 ^ 16`, always with a fraction; else one leading digit and
an exponent. -/
def layout (coefficient : Nat) (exponent : Int) : List Char :=
  let ds := digits coefficient
  let lead : Int := exponent + ds.length - 1
  if -4 ≤ lead ∧ lead < 16 then
    if 0 ≤ exponent then ds ++ List.replicate exponent.toNat '0' ++ ['.', '0']
    else if 0 ≤ lead then
      ds.take (lead.toNat + 1) ++ '.' :: ds.drop (lead.toNat + 1)
    else '0' :: '.' :: List.replicate (-lead - 1).toNat '0' ++ ds
  else
    match ds with
    | [d] => d :: exponentText lead
    | d :: more => d :: '.' :: more ++ exponentText lead
    | [] => []

def ofBinary64 (style : Style) (x : Binary64) : List Char :=
  if x.isNan then style.nan.toList
  else
    let body :=
      if x.isInfinite then style.infinity.toList
      else let (c, e) := shortest x; layout c e
    if x.negative then '-' :: body else body

end Decimal

end TokenNet
