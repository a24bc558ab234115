import TokenNet.Datum.Basic
/-!
Values as keys.  Numbers of equal value are one key however they are written, so a value is
reduced to a `Key` before it is looked up; lists, maps, roles and positions have none.  A key that
holds nan differs even from itself.
-/

namespace TokenNet

inductive Key where
  | null
  | whole (n : Int)
  | real (x : Binary64)
  | text (s : String)
  | bytes (b : List UInt8)
  | event (schema action multiplier : Key)
  | node (name : NodeName)
  | handle (name : NodeName)
  | thing (kind : ThingKind) (id : Nat)
deriving DecidableEq

namespace Key

def selfEqual : Key → Bool
  | .real x => !x.isNan
  | .event schema action multiplier =>
    schema.selfEqual && action.selfEqual && multiplier.selfEqual
  | _ => true

end Key

namespace Datum

def key? : Datum → Option Key
  | .null => some .null
  | .bool b => some (.whole (if b then 1 else 0))
  | .int n => some (.whole n)
  | .float x => some (match x.toInt? with | some n => .whole n | none => .real x)
  | .text s => some (.text s)
  | .bytes b => some (.bytes b)
  | .event s a m => do
    let s ← s.key?
    let a ← a.key?
    let m ← m.key?
    return .event s a m
  | .node n => some (.node n)
  | .handle n => some (.handle n)
  | .thing .net _ => none
  | .thing .marking _ => none
  | .thing .declaration _ => none
  | .thing kind id => some (.thing kind id)
  | .list _ => none
  | .map _ => none
  | .role _ => none
  | .position _ _ => none

/-- The value under a text key. -/
def field? (entries : List (Datum × Datum)) (name : String) : Option Datum :=
  match entries with
  | [] => none
  | (.text s, v) :: rest => if s = name then some v else field? rest name
  | _ :: rest => field? rest name

mutual

/-- Equal values: numbers by value, maps without regard to order. -/
def equal : Datum → Datum → Bool
  | .list xs, d => match d with | .list ys => equalLists xs ys | _ => false
  | .map xs, d => match d with
    | .map ys => decide (xs.length = ys.length) && equalEntries xs ys
    | _ => false
  | .role l, d => match d with | .role l' => l.equal l' | _ => false
  | .position x y, d => match d with
    | .position x' y' => x.equal x' && y.equal y'
    | _ => false
  | .float x, d => match d with
    | .float y => x.equal y
    | .int n => decide (x.compareInt n = some .eq)
    | .bool b => decide (x.compareInt (if b then 1 else 0) = some .eq)
    | _ => false
  | d, .float y => match d with
    | .int n => decide (y.compareInt n = some .eq)
    | .bool b => decide (y.compareInt (if b then 1 else 0) = some .eq)
    | _ => false
  | d, d' => match d.key?, d'.key? with
    | some k, some k' => k.selfEqual && decide (k = k')
    | _, _ => false

def equalLists : List Datum → List Datum → Bool
  | [], ys => ys.isEmpty
  | x :: xs, ys => match ys with
    | [] => false
    | y :: ys => x.equal y && equalLists xs ys

def equalEntries : List (Datum × Datum) → List (Datum × Datum) → Bool
  | [], _ => true
  | (k, v) :: rest, ys => ys.any (fun e => k.equal e.1 && v.equal e.2) && equalEntries rest ys

end

end Datum

end TokenNet
