import TokenNet.Datum.Basic
import TokenNet.Number.Decimal
/-!
JSON text as tokens.  The grammar is that of RFC 8259 with `NaN`, `Infinity` and `-Infinity` added;
`lex` accepts a text when it is a run of tokens and blanks, and leaves to the reader how tokens may
follow one another.  Two tokens need no blank between them, so `01` and `nullnull` are two tokens
each and are refused there.
-/

namespace TokenNet.Json

inductive Token where
  | listOpen
  | listClose
  | mapOpen
  | mapClose
  | comma
  | colon
  | scalar (d : Datum)

def isBlank (c : Char) : Bool := c = ' ' || c = '\t' || c = '\n' || c = '\r'

open Decimal (isDigit)

/-! ## Strings -/

/-- A character written as itself or by a short escape, or a 16-bit unit written by its code. -/
inductive Piece where
  | char (c : Char)
  | unit (n : Nat)

def hexValue? (c : Char) : Option Nat :=
  if isDigit c then some (c.toNat - 48)
  else if 'a' ≤ c ∧ c ≤ 'f' then some (c.toNat - 87)
  else if 'A' ≤ c ∧ c ≤ 'F' then some (c.toNat - 55)
  else none

def unit? (a b c d : Char) : Option Nat := do
  return (((← hexValue? a) * 16 + (← hexValue? b)) * 16 + (← hexValue? c)) * 16 + (← hexValue? d)

def shortEscape? (c : Char) : Option Char :=
  if c = '"' ∨ c = '\\' ∨ c = '/' then some c
  else if c = 'n' then some '\n'
  else if c = 'r' then some '\r'
  else if c = 't' then some '\t'
  else if c = 'b' then some '\x08'
  else if c = 'f' then some '\x0c'
  else none

def onto (p : Piece) (r : List Piece × List Char) : List Piece × List Char := (p :: r.1, r.2)

/-- The pieces up to the closing quote, and the text behind it. -/
def pieces : List Char → Option (List Piece × List Char)
  | [] => none
  | c :: rest =>
    if c = '"' then some ([], rest)
    else if c = '\\' then
      match rest with
      | [] => none
      | e :: more =>
        if e = 'u' then
          match more with
          | h₁ :: h₂ :: h₃ :: h₄ :: tail => do
            let n ← unit? h₁ h₂ h₃ h₄
            return onto (.unit n) (← pieces tail)
          | _ => none
        else do
          let c ← shortEscape? e
          return onto (.char c) (← pieces more)
    else if c.toNat < 0x20 then none
    else do return onto (.char c) (← pieces rest)

def isHighUnit (n : Nat) : Bool := decide (0xD800 ≤ n) && decide (n < 0xDC00)

def isLowUnit (n : Nat) : Bool := decide (0xDC00 ≤ n) && decide (n < 0xE000)

/-- A high unit needs a low one right behind it, and a low unit stands nowhere else. -/
def assemble : List Piece → Option (List Char)
  | [] => some []
  | .char c :: rest => do return c :: (← assemble rest)
  | .unit n :: rest =>
    if isHighUnit n then
      match rest with
      | .unit m :: more =>
        if isLowUnit m then do
          return Char.ofNat (0x10000 + (n - 0xD800) * 0x400 + (m - 0xDC00)) :: (← assemble more)
        else none
      | _ => none
    else if isLowUnit n then none
    else do return Char.ofNat n :: (← assemble rest)

/-! ## Numbers -/

/-- A fraction mark, if there is one, needs a digit behind it. -/
def fraction? (cs : List Char) : Option (Option (List Char) × List Char) :=
  match cs with
  | '.' :: rest =>
    let ds := rest.takeWhile isDigit
    if ds.isEmpty then none else some (some ds, rest.dropWhile isDigit)
  | _ => some (none, cs)

def exponent? (cs : List Char) : Option (Option Int × List Char) :=
  match cs with
  | e :: rest =>
    if e = 'e' ∨ e = 'E' then
      let (negative, rest) := match rest with
        | '-' :: more => (true, more)
        | '+' :: more => (false, more)
        | _ => (false, rest)
      let ds := rest.takeWhile isDigit
      if ds.isEmpty then none
      else
        let n : Int := Decimal.ofDigits ds
        some (some (if negative then -n else n), rest.dropWhile isDigit)
    else some (none, cs)
  | [] => some (none, cs)

/-- A number without fraction and exponent is whole; every other one is a double.  In front of the
fraction there may not be more than `Decimal.maxRun` digits. -/
def magnitude? (negative : Bool) (cs : List Char) : Option (Datum × List Char) := do
  let whole := cs.takeWhile isDigit
  let rest := cs.dropWhile isDigit
  if whole.isEmpty || (whole.length ≠ 1 && whole.head? = some '0') then none
  if Decimal.maxRun < whole.length then none
  let (fraction, rest) ← fraction? rest
  let (exponent, rest) ← exponent? rest
  if fraction.isNone && exponent.isNone then
    let n : Int := Decimal.ofDigits whole
    return (.int (if negative then -n else n), rest)
  else
    let ds := fraction.getD []
    let coefficient := Decimal.ofDigits (whole ++ ds)
    return (.float (Decimal.toBinary64 negative coefficient (exponent.getD 0 - ds.length)), rest)

def word? (word : List Char) (cs : List Char) : Option (List Char) :=
  if word.isPrefixOf cs then some (cs.drop word.length) else none

/-- The first spelling that `cs` starts with. -/
def firstWord? : List (List Char × Datum) → List Char → Option (Datum × List Char)
  | [], _ => none
  | (word, d) :: others, cs =>
    match word? word cs with
    | some rest => some (d, rest)
    | none => firstWord? others cs

def words : List (List Char × Datum) :=
  [("null".toList, .null), ("true".toList, .bool true), ("false".toList, .bool false),
    ("NaN".toList, .float .nan), ("Infinity".toList, .float (.infinity false)),
    ("-Infinity".toList, .float (.infinity true))]

def number? (cs : List Char) : Option (Datum × List Char) :=
  match cs with
  | '-' :: rest => magnitude? true rest
  | _ => magnitude? false cs

/-! ## Tokens -/

/-- The token at the head of a text that starts with no blank. -/
def next? (cs : List Char) : Option (Token × List Char) :=
  match cs with
  | '[' :: rest => some (.listOpen, rest)
  | ']' :: rest => some (.listClose, rest)
  | '{' :: rest => some (.mapOpen, rest)
  | '}' :: rest => some (.mapClose, rest)
  | ',' :: rest => some (.comma, rest)
  | ':' :: rest => some (.colon, rest)
  | '"' :: rest => do
    let (ps, rest) ← pieces rest
    return (.scalar (.text (String.ofList (← assemble ps))), rest)
  | _ => do
    let (d, rest) ← firstWord? words cs <|> number? cs
    return (.scalar d, rest)

/-- Every token takes a character at least, so one step per character suffices. -/
def lexWithin : Nat → List Char → Option (List Token)
  | 0, _ => none
  | fuel + 1, cs =>
    match cs.dropWhile isBlank with
    | [] => some []
    | c :: rest => do
      let (t, rest) ← next? (c :: rest)
      return t :: (← lexWithin fuel rest)

def lex (cs : List Char) : Option (List Token) := lexWithin (cs.length + 1) cs

end TokenNet.Json
