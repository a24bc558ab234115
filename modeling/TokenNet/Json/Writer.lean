import TokenNet.Datum.Basic
import TokenNet.Number.Decimal
import TokenNet.Text.Quoted
/-!
JSON text of values, on one line or with one item a line.  Only ASCII is written: every other
character goes out as one or two 16-bit units.  Values without a JSON form make the writing fail,
and so do whole numbers of too many digits.
-/

namespace TokenNet.Json

/-- Numbers in JSON text. -/
def numberStyle : Decimal.Style := ⟨"NaN", "Infinity"⟩

def unitEscape (n : Nat) : List Char := '\\' :: 'u' :: Text.hex 4 n

def escapeChar (c : Char) : List Char :=
  if c = '"' ∨ c = '\\' then ['\\', c]
  else if c = '\n' then ['\\', 'n']
  else if c = '\r' then ['\\', 'r']
  else if c = '\t' then ['\\', 't']
  else if c = '\x0c' then ['\\', 'f']
  else if c = '\x08' then ['\\', 'b']
  else if 0x20 ≤ c.toNat ∧ c.toNat ≤ 0x7e then [c]
  else if c.toNat < 0x10000 then unitEscape c.toNat
  else
    let n := c.toNat - 0x10000
    unitEscape (0xD800 + n / 0x400) ++ unitEscape (0xDC00 + n % 0x400)

def quoted (cs : List Char) : List Char := '"' :: cs.flatMap escapeChar ++ ['"']

/-- On one line, or with every item on a line of its own behind one `unit` per level. -/
inductive Layout where
  | line
  | indented (unit : List Char)

namespace Layout

def lineBreak : Layout → Nat → List Char
  | .line, _ => []
  | .indented unit, depth => '\n' :: (List.replicate depth unit).flatten

def comma : Layout → Nat → List Char
  | .line, _ => [',', ' ']
  | .indented unit, depth => ',' :: lineBreak (.indented unit) depth

end Layout

/-- Why a value cannot be written. -/
inductive Obstacle where
  | noForm
  | longNumber
deriving DecidableEq, Repr

abbrev Written := Except Obstacle (List Char)

def writeInt (n : Int) : Written :=
  match Decimal.ofInt? n with
  | some cs => .ok cs
  | none => .error .longNumber

/-- Keys are text; a number, a truth value or null lends its own text. -/
def keyText : Datum → Written
  | .text s => .ok s.toList
  | .int n => writeInt n
  | .float x => .ok (Decimal.ofBinary64 numberStyle x)
  | .bool b => .ok (if b then "true".toList else "false".toList)
  | .null => .ok "null".toList
  | _ => .error .noForm

mutual

/-- `depth` counts the containers around the value. -/
def write (layout : Layout) (depth : Nat) : Datum → Written
  | .null => .ok "null".toList
  | .bool b => .ok (if b then "true".toList else "false".toList)
  | .int n => writeInt n
  | .float x => .ok (Decimal.ofBinary64 numberStyle x)
  | .text s => .ok (quoted s.toList)
  | .list [] => .ok ['[', ']']
  | .list (d :: rest) => do
    let body ← writeItems layout (depth + 1) (d :: rest)
    return '[' :: layout.lineBreak (depth + 1) ++ body ++ layout.lineBreak depth ++ [']']
  | .map [] => .ok ['{', '}']
  | .map (e :: rest) => do
    let body ← writeEntries layout (depth + 1) (e :: rest)
    return '{' :: layout.lineBreak (depth + 1) ++ body ++ layout.lineBreak depth ++ ['}']
  | _ => .error .noForm

def writeItems (layout : Layout) (depth : Nat) : List Datum → Written
  | [] => .ok []
  | d :: rest => do
    let head ← write layout depth d
    match rest with
    | [] => return head
    | _ :: _ => return head ++ layout.comma depth ++ (← writeItems layout depth rest)

def writeEntries (layout : Layout) (depth : Nat) : List (Datum × Datum) → Written
  | [] => .ok []
  | (k, v) :: rest => do
    let key ← keyText k
    let value ← write layout depth v
    let head := quoted key ++ ':' :: ' ' :: value
    match rest with
    | [] => return head
    | _ :: _ => return head ++ layout.comma depth ++ (← writeEntries layout depth rest)

end

end TokenNet.Json
