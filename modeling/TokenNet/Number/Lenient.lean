import TokenNet.Number.Decimal
import TokenNet.Text.Basic
/-!
Numbers read leniently out of text.  A text is first read strictly; what fails is cleaned and read
strictly once more, so cleaning never changes the value of a number that needs none.

For whole numbers cleaning drops blanks around the number, a plus, zeros in front, a fraction of
zeros, and single underscores.  A minus may also stand behind leading zeros, and among those any
number of underscores may stand.  For doubles it drops blanks, or else single underscores; an
underscore may then stand beside a point or a sign as well.
-/

namespace TokenNet.Decimal

/-! ## Whole numbers -/

inductive IntReading where
  | value (n : Int)
  /-- More digits than `maxRun`, in a number that needs no cleaning. -/
  | tooLong
  | malformed
deriving DecidableEq, Repr

/-- A minus, then digits of which the first is zero only if it is the last. -/
def readStrict (cs : List Char) : IntReading :=
  let negative := cs.head? = some '-'
  let cs := if negative then cs.drop 1 else cs
  let run := cs.takeWhile isDigit
  let rest := cs.dropWhile isDigit
  if run.isEmpty || (run.head? = some '0' && run.length ≠ 1) then .malformed
  else if maxRun < run.length then .tooLong
  else if rest.isEmpty then .value (if negative then -(ofDigits run : Int) else ofDigits run)
  else .malformed

def opensNumber (c : Char) : Bool := c = '-' || decide ('1' ≤ c) && decide (c ≤ '9')

/-- What is left of a number behind a leading zero.  `last` is the character in front: it is kept
before a point and at the end. -/
def behindZero (last : Char) : List Char → Option (List Char)
  | [] => some [last]
  | c :: rest =>
    if c = '0' ∨ c = '_' then behindZero c rest
    else if c = '.' then some (last :: c :: rest)
    else if opensNumber c then some (c :: rest)
    else none

def dropZeros? : List Char → Option (List Char)
  | [] => none
  | c :: rest =>
    if c = '0' then behindZero c rest else if opensNumber c then some (c :: rest) else none

/-- Drops a fraction of zeros. -/
def dropFraction (cs : List Char) : List Char :=
  let isMark := fun c : Char => c != '.'
  match cs.dropWhile isMark with
  | _ :: zero :: zeros => if (zero :: zeros).all (· = '0') then cs.takeWhile isMark else cs
  | _ => cs

/-- Does every underscore stand alone and between two other characters? -/
def separated : List Char → Bool
  | [] => true
  | '_' :: _ => false
  | [_] => true
  | _ :: '_' :: rest => !rest.isEmpty && separated rest
  | _ :: rest => separated rest

def dropUnderscores (cs : List Char) : List Char :=
  if separated cs then cs.filter (· ≠ '_') else cs

/-- The number without what the strict reader does not take.  Only one sign is allowed. -/
def clean? (cs : List Char) : Option (List Char) :=
  let tidy := fun cs => (dropZeros? cs).map fun cs => dropUnderscores (dropFraction cs)
  match Text.trim cs with
  | '-' :: rest => (tidy rest).map ('-' :: ·)
  | '+' :: '-' :: _ => none
  | '+' :: rest => tidy rest
  | cs => tidy cs

def readInt (cs : List Char) : IntReading :=
  match readStrict cs with
  | .malformed => match (clean? cs).map readStrict with
    | some (.value n) => .value n
    | _ => .malformed
  | reading => reading

/-! ## Doubles -/

def lower (c : Char) : Char := if 'A' ≤ c ∧ c ≤ 'Z' then Char.ofNat (c.toNat + 32) else c

/-- Whether a minus stood in front, and what follows the sign. -/
def unsigned : List Char → Bool × List Char
  | '-' :: rest => (true, rest)
  | '+' :: rest => (false, rest)
  | cs => (false, cs)

/-- The exponent that a text is, mark included; nothing stands for zero. -/
def exponent? : List Char → Option Int
  | [] => some 0
  | mark :: cs => do
    let (negative, ds) := unsigned cs
    if lower mark ≠ 'e' ∨ ds.isEmpty ∨ !ds.all isDigit then none
    let n : Int := ofDigits ds
    return if negative then -n else n

/-- Digits with a point among or beside them and an exponent behind, or one of the words for
infinity and nan in any case. -/
def readDouble? (cs : List Char) : Option Binary64 :=
  let (negative, cs) := unsigned cs
  let word := cs.map lower
  if word = "inf".toList ∨ word = "infinity".toList then some (.infinity negative)
  else if word = "nan".toList then some .nan
  else do
    let whole := cs.takeWhile isDigit
    let rest := cs.dropWhile isDigit
    let behind := match rest with
      | '.' :: more => more
      | _ => []
    let fraction := behind.takeWhile isDigit
    if whole.isEmpty && fraction.isEmpty then none
    let exponent ← exponent? (if rest.head? = some '.' then behind.dropWhile isDigit else rest)
    return toBinary64 negative (ofDigits (whole ++ fraction)) (exponent - fraction.length)

/-- A double with blanks around it, or one with underscores in it. -/
def readLenient? (cs : List Char) : Option Binary64 :=
  readDouble? (Text.trim cs) <|>
    if separated cs then readDouble? (cs.filter (· ≠ '_')) else none

end TokenNet.Decimal
