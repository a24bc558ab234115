import TokenNet.Datum.Basic
import TokenNet.Number.Decimal
import TokenNet.Text.Quoted
/-!
How a value shows in a message.  Nodes live in nets that may still be edited, so the text of a
node or of another stateful thing is supplied by whoever knows the nets.

A whole number of too many digits has no text, and then nothing has that would show it.
-/

namespace TokenNet

/-- A text, or none if a number in it is too long to be written. -/
abbrev Writing := Option String

/-- The parts one behind the other. -/
def phrase (parts : List Writing) : Writing := (parts.mapM id).map String.join

/-- Numbers inside messages. -/
def literalStyle : Decimal.Style := ⟨"nan", "inf"⟩

def floatText (x : Binary64) : String := String.ofList (Decimal.ofBinary64 literalStyle x)

def intText (n : Int) : Writing := (Decimal.ofInt? n).map String.ofList

/-- A count of things, which are never too many to be written. -/
def countText (n : Nat) : String := String.ofList (Decimal.digits n)

def boolText (b : Bool) : String := if b then "True" else "False"

def joined (separator : String) (parts : List Writing) : Writing :=
  (parts.mapM id).map separator.intercalate

def joinComma (parts : List Writing) : Writing := joined ", " parts

def bracketed (parts : List Writing) : Writing := phrase ["[", joinComma parts, "]"]

def braced (parts : List Writing) : Writing := phrase ["\x7b", joinComma parts, "\x7d"]

/-- `[1, -2]`, as vectors show in messages. -/
def vecText (v : List Int) : Writing := bracketed (v.map intText)

/-- The text of the values that only a catalog of nets can show.  `bare` is the text of a thing
that is the subject of a sentence. -/
structure Glossary where
  node : NodeName → Writing
  thing : ThingKind → Nat → Writing
  bare : ThingKind → Nat → Writing

namespace NodeName

/-- A handle shows by its label alone. -/
def handleText (n : NodeName) : String :=
  (match n.kind with | .place => "PlaceRef(" | .transition => "TransitionRef(") ++ n.label ++ ")"

end NodeName

namespace Datum

mutual

def literal (g : Glossary) : Datum → Writing
  | .null => "None"
  | .bool b => boolText b
  | .int n => intText n
  | .float x => floatText x
  | .text s => Text.quote s
  | .bytes b => Text.quoteBytes b
  | .list items => bracketed (literals g items)
  | .map entries => braced (entryLiterals g entries)
  | .role label => phrase ["RoleSpec(label=", label.literal g, ")"]
  | .position x y => phrase ["Position(x=", x.literal g, ", y=", y.literal g, ")"]
  | .event s a m =>
    phrase ["DispatchEvent(schema=", s.literal g, ", action=", a.literal g, ", multiplier=",
      m.literal g, ")"]
  | .node n => g.node n
  | .handle n => n.handleText
  | .thing kind id => g.thing kind id

def literals (g : Glossary) : List Datum → List Writing
  | [] => []
  | d :: rest => d.literal g :: literals g rest

def entryLiterals (g : Glossary) : List (Datum × Datum) → List Writing
  | [] => []
  | (k, v) :: rest => phrase [k.literal g, ": ", v.literal g] :: entryLiterals g rest

end

/-- A value that is the subject of a sentence shows bare. -/
def plain (g : Glossary) : Datum → Writing
  | .text s => s
  | .thing kind id => g.bare kind id
  | d => d.literal g

end Datum

end TokenNet
