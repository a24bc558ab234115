import TokenNet.Failure
import TokenNet.Number.Lenient
import TokenNet.Text.Basic
/-!
Checking values against the form they should have.  A check collects every fault instead of
stopping at the first, so checks are combined by `seq`, which keeps the faults of both sides in
order; the path of a fault grows outwards through `under`.
-/

namespace TokenNet

open CoreArithmetic

def Checked (α : Type) : Type := Except (List Fault) α

namespace Checked

def ok {α : Type} (a : α) : Checked α := Except.ok a

def fault {α : Type} (kind : FaultKind) : Checked α := Except.error [⟨[], kind⟩]

def seq {α β : Type} (f : Checked (α → β)) (a : Checked α) : Checked β :=
  match f, a with
  | .ok f, .ok a => .ok (f a)
  | .ok _, .error e => .error e
  | .error e, .ok _ => .error e
  | .error e, .error e' => .error (e ++ e')

instance : Applicative Checked where
  pure := ok
  seq f a := seq f (a ())

def under {α : Type} (locator : Locator) : Checked α → Checked α
  | .ok a => .ok a
  | .error faults => .error (faults.map fun f => { f with path := locator :: f.path })

/-- Every item on its own, under its index from `i` on. -/
def each {α : Type} (check : Datum → Checked α) (i : Nat) : List Datum → Checked (List α)
  | [] => ok []
  | d :: rest => List.cons <$> (check d).under (.index i) <*> each check (i + 1) rest

end Checked

/-- Where checked data comes from.  The glossary shows the keys of maps that are no text. -/
structure Origin where
  fromJson : Bool := false
  glossary : Glossary

/-- What a declared field must satisfy. -/
abbrev Check (α : Type) := Origin → Datum → Checked α

namespace Check

/-! ## Plain values -/

def text : Check String
  | _, .text s => .ok s
  | _, .bytes b => match Text.ofUtf8? b with
    | some s => .ok s
    | none => .fault .stringUnicode
  | _, _ => .fault .stringType

def orNull {α : Type} (check : Check α) : Check (Option α)
  | _, .null => .ok none
  | o, d => some <$> check o d

/-- The text of a value that is text or bytes; `none` inside for bytes that are no text. -/
def spelled? : Datum → Option (Option (List Char))
  | .text s => some (some s.toList)
  | .bytes b => some ((Text.ofUtf8? b).map String.toList)
  | _ => none

/-- The 64-bit range. -/
def inWord (n : Int) : Bool := decide (-2 ^ (63 : Nat) ≤ n) && decide (n < 2 ^ (63 : Nat))

/-- Inside the range, ends excluded: no double outside of it passes for a whole number. -/
def withinWord (n : Int) : Bool := decide (-2 ^ (63 : Nat) < n) && decide (n < 2 ^ (63 : Nat))

def intText : Option (List Char) → Checked Int
  | none => .fault .intParsing
  | some cs => match Decimal.readInt cs with
    | .value n => .ok n
    | .tooLong => .fault .intParsingSize
    | .malformed => .fault .intParsing

def int : Check Int := fun _ d =>
  match d with
  | .bool b => .ok (if b then 1 else 0)
  | .int n => .ok n
  | .float x =>
    if !x.isFinite then .fault .finiteNumber
    else match x.toInt? with
      | none => .fault .intFromFloat
      | some n => if withinWord n then .ok n else .fault .intParsingSize
  | d => (spelled? d).elim (.fault .intType) intText

def natural : Check Int := fun o d =>
  match int o d with
  | .ok n => if 0 ≤ n then .ok n else .fault .greaterThanEqual
  | .error e => .error e

def positive : Check Int := fun o d =>
  match int o d with
  | .ok n => if 0 < n then .ok n else .fault .greaterThan
  | .error e => .error e

def floatText (cs : Option (List Char)) : Checked Binary64 :=
  match cs.bind Decimal.readLenient? with
  | some x => .ok x
  | none => .fault .floatParsing

/-- A whole number beyond all doubles is infinite in JSON and no double elsewhere. -/
def float : Check Binary64 := fun o d =>
  match d with
  | .bool b => .ok (.ofRatio false (if b then 1 else 0) 1)
  | .int n => match Binary64.ofInt? n with
    | some x => .ok x
    | none => if o.fromJson then .ok (.infinity (decide (n < 0))) else .fault .floatType
  | .float x => .ok x
  | d => (spelled? d).elim (.fault .floatType) floatText

def falseWords : List String := ["0", "off", "f", "false", "n", "no"]

def trueWords : List String := ["1", "on", "t", "true", "y", "yes"]

def ofInt (n : Int) : Checked Bool :=
  if n = 0 then .ok false else if n = 1 then .ok true else .fault .boolParsing

def boolText (cs : Option (List Char)) : Checked Bool :=
  match cs.map fun cs => String.ofList (cs.map Decimal.lower) with
  | none => .fault .boolParsing
  | some word =>
    if falseWords.contains word then .ok false
    else if trueWords.contains word then .ok true
    else .fault .boolParsing

def bool : Check Bool := fun _ d =>
  match d with
  | .bool b => .ok b
  | .int n => if inWord n then ofInt n else .fault .boolType
  | .float x => match x.toInt? with
    | some n => if withinWord n then ofInt n else .fault .boolType
    | none => .fault .boolType
  | d => (spelled? d).elim (.fault .boolType) boolText

def discipline : Check Discipline := fun _ d =>
  match (spelled? d).join.bind fun cs => Discipline.ofName? (String.ofList cs) with
  | some discipline => .ok discipline
  | none => .fault .unknownName

/-! ## Containers -/

/-- A checked declaration passes for the list of its six fields. -/
def list {α : Type} (check : Check α) : Check (List α)
  | o, .list items => .each (check o) 0 items
  | o, .thing .declaration _ => .each (check o) 0 (List.replicate 6 (.list []))
  | _, _ => .fault .listType

/-- How a key that should have been text shows in a path. -/
def keyLocator (g : Glossary) : Datum → Locator
  | .text s => .key s
  | .bool b => .index (if b then 1 else 0)
  | .int n => if inWord n then .index n else .key (((Datum.int n).literal g).getD "")
  | d => .key ((d.literal g).getD "")

def entry {α : Type} (check : Check α) (o : Origin) (k v : Datum) : Checked (String × α) :=
  let locator := keyLocator o.glossary k
  Prod.mk <$> ((text o k).under (.key "[key]")).under locator <*> (check o v).under locator

def entries {α : Type} (check : Check α) (o : Origin) :
    List (Datum × Datum) → Checked (List (String × α))
  | [] => .ok []
  | (k, v) :: rest => List.cons <$> entry check o k v <*> entries check o rest

/-- Every entry is checked, repeated keys included; the last value under a key is kept, at the
place of the first. -/
def table {α : Type} (check : Check α) : Check (Table String α)
  | o, .map es =>
    (fun checked => checked.foldl (fun t (k, a) => Table.insert t k a) []) <$> entries check o es
  | _, _ => .fault .dictType

/-! ## Records -/

/-- The entries of a record that is being checked. -/
structure Fields where
  origin : Origin
  entries : List (Datum × Datum)

/-- A record ignores the entries that it has no field for. -/
def record {α : Type} (check : Fields → Checked α) : Check α
  | origin, .map entries => check { origin, entries }
  | _, _ => .fault .modelType

namespace Fields

/-- Among repeated entries the last is the field. -/
def find? (fs : Fields) (name : String) : Option Datum := Datum.field? fs.entries.reverse name

def field {α : Type} (fs : Fields) (name : String) (default : α) (check : Check α) :
    Checked α :=
  match fs.find? name with
  | none => .ok default
  | some d => (check fs.origin d).under (.key name)

def required {α : Type} (fs : Fields) (name : String) (check : Check α) : Checked α :=
  match fs.find? name with
  | none => Checked.under (.key name) (.fault .missing)
  | some d => (check fs.origin d).under (.key name)

/-- The field under the first of two names that is present. -/
def either {α : Type} (fs : Fields) (name other : String) (default : α) (check : Check α) :
    Checked α :=
  if (fs.find? name).isSome then fs.field name default check else fs.field other default check

end Fields

end Check

end TokenNet
