import TokenNet.Datum.Key
import TokenNet.Table
/-!
Tables under values.  An entry is found under every value that is the same key, and it keeps the
value it was first entered under.  A key that differs from itself is never found, so entering it
again makes another entry.
-/

namespace TokenNet

abbrev Register (α : Type) := Table Key (Datum × α)

namespace Register

variable {α : Type}

def lookup? (r : Register α) (k : Key) : Option α :=
  if k.selfEqual then (Table.find? r k).map Prod.snd else none

/-- The value that an entry was first made under. -/
def written (r : Register α) (k : Key) (d : Datum) : Datum := (Table.find? r k).elim d Prod.fst

def enter (r : Register α) (k : Key) (d : Datum) (a : α) : Register α :=
  if k.selfEqual then Table.insert r k (written r k d, a) else r ++ [(k, d, a)]

/-- The entries in the order in which they were first made. -/
def toList (r : Register α) : List (Datum × α) := r.map Prod.snd

theorem lookup?_enter (r : Register α) (k k' : Key) (d : Datum) (a : α)
    (h : k.selfEqual = true) :
    (enter r k d a).lookup? k' = if k = k' then some a else r.lookup? k' := by
  simp only [enter, lookup?, h, if_true, Table.find?_insert]
  by_cases hk : k = k'
  · subst hk
    simp [h]
  · simp [hk]

theorem lookup?_erase (r : Register α) (k k' : Key) :
    lookup? (Table.erase r k) k' = if k = k' then none else r.lookup? k' := by
  simp only [lookup?, Table.find?_erase]
  by_cases hk : k = k' <;> simp [hk]

end Register

end TokenNet
