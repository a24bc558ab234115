import TokenNet.Json.Token
/-!
JSON values from tokens.  The reader is a machine that takes one token at a time and keeps the
containers still open on a stack, so reading is a fold over the tokens and ends with them.

A map is read with every entry in order, repeated keys included: which of several wins differs from
place to place and is decided by whoever uses the map.
-/

namespace TokenNet.Json

inductive Frame where
  /-- The items read so far, the last one first. -/
  | list (items : List Datum)
  /-- The entries read so far, the last one first, and the key whose value is being read. -/
  | map (entries : List (Datum × Datum)) (key : String)

/-- What the machine waits for, and the containers around it. -/
inductive State where
  | value (around : List Frame)
  | firstItem (around : List Frame)
  | firstKey (around : List Frame)
  | key (entries : List (Datum × Datum)) (around : List Frame)
  | colon (entries : List (Datum × Datum)) (key : String) (around : List Frame)
  | complete (d : Datum) (around : List Frame)

/-- Deeper nesting is refused. -/
def maxDepth : Nat := 200

def begin? (t : Token) (around : List Frame) : Option State :=
  match t with
  | .scalar d => some (.complete d around)
  | .listOpen => if around.length < maxDepth then some (.firstItem around) else none
  | .mapOpen => if around.length < maxDepth then some (.firstKey around) else none
  | _ => none

def step? : State → Token → Option State
  | .value around, t => begin? t around
  | .firstItem around, .listClose => some (.complete (.list []) around)
  | .firstItem around, t => begin? t (.list [] :: around)
  | .firstKey around, .mapClose => some (.complete (.map []) around)
  | .firstKey around, .scalar (.text k) => some (.colon [] k around)
  | .key entries around, .scalar (.text k) => some (.colon entries k around)
  | .colon entries k around, .colon => some (.value (.map entries k :: around))
  | .complete d (.list items :: around), .comma => some (.value (.list (d :: items) :: around))
  | .complete d (.list items :: around), .listClose =>
    some (.complete (.list (d :: items).reverse) around)
  | .complete d (.map entries k :: around), .comma => some (.key ((.text k, d) :: entries) around)
  | .complete d (.map entries k :: around), .mapClose =>
    some (.complete (.map ((.text k, d) :: entries).reverse) around)
  | _, _ => none

def ofTokens? (ts : List Token) : Option Datum :=
  match ts.foldlM step? (.value []) with
  | some (.complete d []) => some d
  | _ => none

def read? (cs : List Char) : Option Datum := do ofTokens? (← lex cs)

end TokenNet.Json
