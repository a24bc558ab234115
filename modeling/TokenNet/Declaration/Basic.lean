import TokenNet.Declaration.Check
import TokenNet.Json.Reader
/-!
Declarations: a whole net as plain data.  The same data serves two purposes.  With arcs it is
compiled like a net drafted step by step; with a delta per transition it already carries what
compilation would produce.
-/

namespace TokenNet

structure PlaceEntry where
  label : Option String := none
  initial : Int := 0
  capacity : Int := 0
  position : Position := {}
  offset : Option Int := none

structure GuardEntry where
  label : Option String := none
  delta : Vec

structure TransitionEntry where
  label : Option String := none
  role : Option String := none
  position : Position := {}
  delta : Option Vec := none
  guards : Table String GuardEntry := []

structure ArcEntry where
  source : String
  target : String
  weight : Int := 1
  inhibit : Bool := false

structure Declaration where
  schema : Option String := none
  discipline : Discipline := .petriNet
  version : String := "v0"
  places : Table String PlaceEntry := []
  transitions : Table String TransitionEntry := []
  arcs : List ArcEntry := []

namespace Declaration

/-- A coordinate that is given becomes a double; one left out stays the whole number zero. -/
def coordinate : Check Datum := fun o d => Datum.float <$> Check.float o d

def position : Check Position := Check.record fun fs =>
  Position.mk <$> fs.field "x" (.int 0) coordinate
    <*> fs.field "y" (.int 0) coordinate

def label : Check (Option String) := Check.orNull Check.text

def place : Check PlaceEntry := Check.record fun fs =>
  PlaceEntry.mk <$> fs.field "label" none label
    <*> fs.field "initial" 0 Check.natural
    <*> fs.field "capacity" 0 Check.natural
    <*> fs.field "position" {} position
    <*> fs.field "offset" none (Check.orNull Check.natural)

def vector : Check Vec := Check.list Check.int

def guard : Check GuardEntry := Check.record fun fs =>
  GuardEntry.mk <$> fs.field "label" none label
    <*> fs.required "delta" vector

def transition : Check TransitionEntry := Check.record fun fs =>
  TransitionEntry.mk <$> fs.field "label" none label
    <*> fs.field "role" none label
    <*> fs.field "position" {} position
    <*> fs.field "delta" none (Check.orNull vector)
    <*> fs.field "guards" [] (Check.table guard)

def arc : Check ArcEntry := Check.record fun fs =>
  ArcEntry.mk <$> fs.required "source" Check.text
    <*> fs.required "target" Check.text
    <*> fs.field "weight" 1 Check.positive
    <*> fs.field "inhibit" false Check.bool

def check : Check Declaration := Check.record fun fs =>
  Declaration.mk <$> fs.either "schema" "schema_name" none label
    <*> fs.either "type" "modelType" .petriNet Check.discipline
    <*> fs.field "version" "v0" Check.text
    <*> fs.field "places" [] (Check.table place)
    <*> fs.field "transitions" [] (Check.table transition)
    <*> fs.field "arcs" [] (Check.list arc)

def ofText (g : Glossary) (s : String) : Checked Declaration :=
  match Json.read? s.toList with
  | some d => check { fromJson := true, glossary := g } d
  | none => .fault .jsonInvalid

/-- Text and bytes are read as JSON; every other value is checked as it is. -/
def ofDatum (g : Glossary) : Datum → Checked Declaration
  | .text s => ofText g s
  | .bytes b => match Text.ofUtf8? b with
    | some s => ofText g s
    | none => .fault .jsonInvalid
  | d => check { glossary := g } d

end Declaration

end TokenNet
