import TokenNet.Declaration.Basic
/-!
How a checked declaration shows in messages: every field with its name, given or not.
-/

namespace TokenNet

def optionText {α : Type} (text : α → Writing) (a : Option α) : Writing :=
  a.elim (some "None") text

def quoted (s : String) : Writing := Text.quote s

/-- The entries of a table under quoted keys. -/
def tableText {α : Type} (text : α → Writing) (t : Table String α) : Writing :=
  braced (t.map fun (key, a) => phrase [quoted key, ": ", text a])

namespace Position

def declaredText (g : Glossary) (p : Position) : Writing :=
  phrase ["PositionModel(x=", p.x.literal g, ", y=", p.y.literal g, ")"]

end Position

namespace PlaceEntry

def literal (g : Glossary) (p : PlaceEntry) : Writing :=
  phrase ["PlaceModel(label=", optionText quoted p.label, ", initial=", intText p.initial,
    ", capacity=", intText p.capacity, ", position=", p.position.declaredText g, ", offset=",
    optionText intText p.offset, ")"]

end PlaceEntry

namespace GuardEntry

def literal (guard : GuardEntry) : Writing :=
  phrase ["GuardModel(label=", optionText quoted guard.label, ", delta=", vecText guard.delta,
    ")"]

end GuardEntry

namespace TransitionEntry

def literal (g : Glossary) (t : TransitionEntry) : Writing :=
  phrase ["TransitionModel(label=", optionText quoted t.label, ", role=",
    optionText quoted t.role, ", position=", t.position.declaredText g, ", delta=",
    optionText vecText t.delta, ", guards=", tableText GuardEntry.literal t.guards, ")"]

end TransitionEntry

namespace ArcEntry

def literal (arc : ArcEntry) : Writing :=
  phrase ["ArcModel(source=", quoted arc.source, ", target=", quoted arc.target, ", weight=",
    intText arc.weight, ", inhibit=", boolText arc.inhibit, ")"]

end ArcEntry

namespace Declaration

def fieldTexts (g : Glossary) (d : Declaration) : List Writing :=
  [phrase ["schema_name=", optionText quoted d.schema], phrase ["type=", d.discipline.literal],
    phrase ["version=", quoted d.version],
    phrase ["places=", tableText (PlaceEntry.literal g) d.places],
    phrase ["transitions=", tableText (TransitionEntry.literal g) d.transitions],
    phrase ["arcs=", bracketed (d.arcs.map ArcEntry.literal)]]

def literal (g : Glossary) (d : Declaration) : Writing :=
  phrase ["NetDeclaration(", joinComma (d.fieldTexts g), ")"]

/-- The fields alone. -/
def bare (g : Glossary) (d : Declaration) : Writing := joined " " (d.fieldTexts g)

end Declaration

end TokenNet
