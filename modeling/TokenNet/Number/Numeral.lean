import TokenNet.Number.Lenient
import TokenNet.Text.Basic
/-!
Numerals as people write them: the digits of any script, blanks around the number, and single
underscores between digits.
-/

namespace TokenNet.Decimal

def isAsciiBlank (c : Char) : Bool := c = ' ' || (decide ('\t' ≤ c) && decide (c ≤ '\r'))

/-- The ASCII character that a character counts as in a number. -/
def asciiForm (c : Char) : Char :=
  if c.toNat < 0x7f then c
  else if Text.isBlank c then ' '
  else (Text.digitBeyondAscii? c).elim '?' digitChar

/-- Does every underscore stand between two digits?  `last` says whether a digit is in front. -/
def amongDigits (last : Bool) : List Char → Bool
  | [] => true
  | '_' :: c :: rest => last && isDigit c && amongDigits true rest
  | ['_'] => false
  | c :: rest => amongDigits (isDigit c) rest

def readNumeral? (text : List Char) : Option Binary64 :=
  let cs := text.map asciiForm
  let cs := ((cs.dropWhile isAsciiBlank).reverse.dropWhile isAsciiBlank).reverse
  if amongDigits false cs then readDouble? (cs.filter (· ≠ '_')) else none

end TokenNet.Decimal
