import TokenNet.Bench.Basic
import TokenNet.Number.Numeral
/-!
Values of expressions on a bench.

A marking that is referred to stays shared: whoever keeps the value sees later firings.  So `eval`
leaves it as it is, and `settled` puts the vector in its place where a value is used up at once.
-/

namespace TokenNet.Bench

/-- What a name stands for, as a value.  An empty vector cannot change, so it is shared by none. -/
def valueOf (name : String) : Session Datum := do
  match ← find name with
  | .builder id => return .thing .builder id
  | .net id => return .thing .net id
  | .installation id => return .thing .installation id
  | .handle node => return .handle node
  | .role role => return .role role.label
  | .marking id => return if (← markingAt id).entries.isEmpty then .list [] else .thing .marking id
  | .clock id => return .thing .clock id
  | .stream id => return .thing .stream id

mutual

def settle (marked : Nat → Vec.Spelled) : Datum → Datum
  | .thing .marking id => (marked id).toDatum
  | .list items => .list (settleAll marked items)
  | .map entries => .map (settleEntries marked entries)
  | .role label => .role (settle marked label)
  | .position x y => .position (settle marked x) (settle marked y)
  | d => d

def settleAll (marked : Nat → Vec.Spelled) : List Datum → List Datum
  | [] => []
  | d :: rest => settle marked d :: settleAll marked rest

def settleEntries (marked : Nat → Vec.Spelled) : List (Datum × Datum) → List (Datum × Datum)
  | [] => []
  | (k, d) :: rest => (settle marked k, settle marked d) :: settleEntries marked rest

end

def settled (d : Datum) : Session Datum := do return settle (← get).marked d

/-- The items of a marking are its own; whatever is inside another value stays shared. -/
def unshared (d : Datum) : Session Datum := do
  match d with
  | .thing .marking id => return (← markingAt id).toDatum
  | d => return d

/-- A value as a vector, and the marking that it is, if it is one. -/
def tokens (d : Datum) : Session (Option Nat × Vec.Spelled) := do
  match d with
  | .thing .marking id => return (some id, ← markingAt id)
  | .list items => match Vec.Spelled.ofData? items with
    | some s => return (none, s)
    | none => throw .wrongType
  | _ => throw .wrongType

def nodeValue (net label : String) : Session Datum := do
  let id ← netId net
  return ((← netAt id).node? label).elim .null (End.toDatum id)

def exported (net : Net) : Session Datum := do
  report net.exportNotes
  lift net.toDatum

/-- Null writes on one line; a number indents by as many blanks, and text by itself. -/
def layoutOf : Datum → Except Failure Json.Layout
  | .null => .ok .line
  | .text s => .ok (.indented s.toList)
  | d => match (Datum.text " ").mul d with
    | .ok (.text s) => .ok (.indented s.toList)
    | .ok _ => .error .wrongType
    | .error e => .error (.ofArithmetic e)

def defaultIndent : Datum := .int 2

/-- The net is exported before the indentation is looked at. -/
def dumped (indent : Datum) (net : Net) : Session String := do
  let d ← settled (← exported net)
  lift (Net.written (← lift (layoutOf indent)) d)

def checkedDeclaration (d : Datum) : Session Datum := do
  match d with
  | .thing .declaration _ => return d
  | d => match Declaration.check { glossary := (← get).scene.glossary } (← settled d) with
    | .ok decl => return .thing .declaration (← addDeclaration decl)
    | .error faults => throw (.modelFaults faults)

mutual

def eval : Expr → Session Datum
  | .datum d => return d
  | .float text => do
    match Decimal.readNumeral? text.toList with
    | some x => return .float x
    | none => throw (.notNumeral text)
  | .list items => return .list (← evalItems items)
  | .map entries => return .map (← evalEntries [] entries).toList
  | .named name => valueOf name
  | .node net label => nodeValue net label
  | .position x y => return .position (← eval x) (← eval y)
  | .role label => return .role (← eval label)
  | .event s a m => return .event (← eval s) (← eval a) (← eval m)
  | .object name => do exported (← netOf name)
  | .dump name => do return .text (← dumped defaultIndent (← netOf name))
  | .declaration e => do checkedDeclaration (← eval e)

def evalItems : List Expr → Session (List Datum)
  | [] => return []
  | e :: rest => return (← eval e) :: (← evalItems rest)

/-- Entries are made one after the other, so a key that can be none ends the evaluation there. -/
def evalEntries (made : Register Datum) : List (Expr × Expr) → Session (Register Datum)
  | [] => return made
  | (k, v) :: rest => do
    let k ← eval k
    let v ← eval v
    match k.key? with
    | some key => evalEntries (made.enter key k v) rest
    | none => throw .wrongType

end

/-- The value of an argument, or its default. -/
def evalOr (default : Datum) : Option Expr → Session Datum
  | some e => eval e
  | none => return default

def settingNames : List String :=
  ["proximity_threshold", "size_margin", "validate_capacity", "grid"]

/-- Every setting is evaluated before their names are looked at. -/
def configOf : Option Settings → Session Config
  | none => return .default
  | some settings => do
    let given ← settings.mapM fun (name, e) => return (name, ← eval e)
    if given.any fun (name, _) => !settingNames.contains name then throw .wrongType
    let setting := fun name default => (given.lookup name).getD default
    return { proximity := setting "proximity_threshold" Config.default.proximity
             margin := setting "size_margin" Config.default.margin
             validateCapacity := (setting "validate_capacity" (.bool true)).truthy
             grid := ← settled (setting "grid" Config.default.grid) }

end TokenNet.Bench
