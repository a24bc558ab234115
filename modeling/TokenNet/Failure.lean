import TokenNet.Net.Literal
import TokenNet.Datum.Arithmetic
/-!
Everything that makes an operation fail, by cause, and the message of each; and actions, which may
fail.  A refused firing is no failure: it is an outcome like an accepted one.
-/

namespace TokenNet

/-- The ways in which declared data misses its form. -/
inductive FaultKind where
  | jsonInvalid
  | modelType
  | dictType
  | listType
  | missing
  | stringType
  | stringUnicode
  | unknownName
  | intType
  | intParsing
  | intParsingSize
  | intFromFloat
  | finiteNumber
  | greaterThan
  | greaterThanEqual
  | floatType
  | floatParsing
  | boolType
  | boolParsing
deriving DecidableEq, Repr

inductive Locator where
  | key (name : String)
  | index (i : Int)
deriving DecidableEq, Repr

structure Fault where
  path : List Locator
  kind : FaultKind
deriving DecidableEq, Repr

/-- Where the message shows nodes, the cause carries the net they stand in and its number. -/
inductive Failure where
  -- declaring nodes
  | badLabel (label : Datum)
  | duplicateLabel (schema : Datum) (label : String)
  | countNotInt (schema : Datum) (place field : String) (value : Datum)
  | negativeCount (schema : Datum) (place : String) (initial capacity : Int)
  | overCapacity (schema : Datum) (place : String) (initial capacity : Int)
  | badPosition (value : Datum)
  | unknownDiscipline (value : Datum)
  -- recording arcs
  | invalidWeight (weight : Datum)
  | targetNotTransition (self : Nat) (net : Net) (source : String) (target : End)
  | targetNotPlace (self : Nat) (net : Net) (source : String) (target : End)
  | inhibitorFromTransition (schema : Datum) (source : String)
  | unknownSource (self : Nat) (net : Net) (source : End)
  -- compiling
  | invalidArcs (schema : Datum)
  | invalidVectors (schema : Datum)
  -- declared data
  | faults (faults : List Fault)
  | modelFaults (faults : List Fault)
  | noSchema
  | placeKey (key label : String)
  | transitionKey (key label : String)
  | someOffsets
  | sparseOffsets (sorted : List Int)
  | unknownNode (schema : Datum) (label : String)
  | noDelta (schema : Datum) (label : String)
  -- firing
  | notIndexed (schema : Datum)
  | unknownSchema (schema : Datum)
  | emptyAction
  | unknownAction (schema action : Datum)
  | badMultiplier (value : Datum)
  | lengths (state delta capacity : Nat)
  | undispatchable (value : Datum)
  -- values of the wrong kind, where no rule of a net is broken
  | notNumeral (text : String)
  /-- A whole number of too many digits to be written. -/
  | longNumber
  | wrongType
  | tooLarge
  | tooLong
  | noEntry
  | outOfRange
  | noAttribute
  | tooDeep
  -- the caller's own
  | raised (message : String)
  | missing (name : String)

namespace Failure

def ofArithmetic : ArithmeticError → Failure
  | .notNumbers => .wrongType
  | .tooLarge => .tooLarge
  | .tooLong => .tooLong

/-- An end of an arc, in the net that `self` is the number of. -/
def endText (scene : Scene) (self : Nat) (net : Net) (e : End) : Writing :=
  (e.toDatum self).literal (scene.holding self net).glossary

/-- A sentence about a net, behind the net's schema. -/
def about (g : Glossary) (schema : Datum) (parts : List Writing) : Writing :=
  phrase (schema.plain g :: ": " :: parts)

def quotedPhrase (parts : List Writing) : Writing := (phrase parts).map Text.quote

/-- The text of a failure to write a number. -/
def longNumberText : String :=
  "Exceeds the limit (4300 digits) for integer string conversion; use "
    ++ "sys.set_int_max_str_digits() to increase the limit"

/-- Failed look-ups show their sentence quoted. -/
def message (scene : Scene) (failure : Failure) : Writing :=
  let g := scene.glossary
  match failure with
  | .badLabel label => phrase ["label must be a non-empty string, got ", label.literal g]
  | .duplicateLabel schema label => about g schema ["node '", label, "' already declared"]
  | .countNotInt schema place field value =>
    about g schema ["place '", place, "' ", field, " must be an int, got ", value.literal g]
  | .negativeCount schema place initial capacity =>
    about g schema ["place '", place, "' has negative initial/capacity (", intText initial, "/",
      intText capacity, ")"]
  | .overCapacity schema place initial capacity =>
    about g schema ["place '", place, "' initial ", intText initial, " exceeds capacity ",
      intText capacity]
  | .badPosition value => phrase ["position must be an (x, y) pair, got ", value.literal g]
  | .unknownDiscipline value => phrase [value.literal g, " is not a valid NetType"]
  | .invalidWeight weight =>
    phrase ["arc weight must be a positive int, got ", weight.literal g]
  | .targetNotTransition self net source target =>
    about g net.schema ["target of '", source, "' must be a transition, got ",
      endText scene self net target]
  | .targetNotPlace self net source target =>
    about g net.schema ["target of '", source, "' must be a place, got ",
      endText scene self net target]
  | .inhibitorFromTransition schema source =>
    about g schema ["inhibitor arcs must start at a place, got '", source, "'"]
  | .unknownSource self net source =>
    about g net.schema ["unknown arc source ", endText scene self net source]
  | .invalidArcs schema => about g schema ["invalid declaration"]
  | .invalidVectors schema => about g schema ["precomputed vectors do not match the places"]
  | .faults _ => "invalid declaration"
  | .modelFaults _ => "invalid declaration"
  | .noSchema => "declaration has no schema"
  | .placeKey key label => phrase ["place key '", key, "' does not match label '", label, "'"]
  | .transitionKey key label =>
    phrase ["transition key '", key, "' does not match label '", label, "'"]
  | .someOffsets => "place offsets must be given for every place or for none"
  | .sparseOffsets sorted => phrase ["place offsets must be dense from 0, got ", vecText sorted]
  | .unknownNode schema label => about g schema ["arc references unknown node '", label, "'"]
  | .noDelta schema label => about g schema ["transition '", label, "' has no delta"]
  | .notIndexed schema => about g schema ["net must be indexed before firing"]
  | .unknownSchema schema => quotedPhrase ["model not found: ", schema.plain g]
  | .emptyAction => Text.quote "action is empty"
  | .unknownAction schema action =>
    quotedPhrase [schema.plain g, ": action not found: ", action.plain g]
  | .badMultiplier value =>
    phrase ["multiplier must be a positive int, got ", value.literal g]
  | .lengths state delta capacity =>
    phrase ["vector length mismatch: state=", countText state, " delta=", countText delta,
      " capacity=", countText capacity]
  | .undispatchable value => phrase ["cannot dispatch ", value.typeName, ": ", value.literal g]
  | .raised message => message
  | .missing name => name
  | .notNumeral text => phrase ["could not convert string to float: ", Text.quote text]
  | .longNumber => longNumberText
  | .wrongType | .tooLarge | .tooLong | .noEntry | .outOfRange | .noAttribute | .tooDeep => ""

/-- A failure with its message.  One whose message would show a number too long to be written
gives way to the failure to write it. -/
def told (scene : Scene) (failure : Failure) : Failure × String :=
  match failure.message scene with
  | some message => (failure, message)
  | none => (.longNumber, longNumberText)

/-- A text that has to be written. -/
def ofWriting : Writing → Except Failure String
  | some s => .ok s
  | none => .error .longNumber

end Failure

/-- Actions that keep the state they leave behind also when they fail. -/
abbrev Act (σ α : Type) := ExceptT Failure (StateM σ) α

def Act.liftExcept {σ α : Type} : Except Failure α → Act σ α
  | .ok a => return a
  | .error e => throw e

end TokenNet
