/-!
Tables under distinct keys, listed in the order in which the keys first came.  Writing to a key
already present keeps its place.
-/

namespace TokenNet

abbrev Table (κ α : Type) := List (κ × α)

namespace Table

variable {κ α : Type} [DecidableEq κ]

def find? (t : Table κ α) (k : κ) : Option α :=
  match t with
  | [] => none
  | (k', a) :: rest => if k' = k then some a else find? rest k

def insert (t : Table κ α) (k : κ) (a : α) : Table κ α :=
  match t with
  | [] => [(k, a)]
  | (k', a') :: rest => if k' = k then (k', a) :: rest else (k', a') :: insert rest k a

def erase (t : Table κ α) (k : κ) : Table κ α :=
  t.filter fun e => !decide (e.1 = k)

def keys (t : Table κ α) : List κ := t.map Prod.fst

@[simp] theorem find?_nil (k : κ) : find? ([] : Table κ α) k = none := rfl

theorem find?_insert (t : Table κ α) (k k' : κ) (a : α) :
    (insert t k a).find? k' = if k = k' then some a else t.find? k' := by
  induction t with
  | nil => simp [insert, find?]
  | cons e rest ih =>
    obtain ⟨l, b⟩ := e
    by_cases hl : l = k
    · subst hl
      by_cases hk : l = k' <;> simp [insert, find?, hk]
    · simp only [insert, hl, if_false, find?, ih]
      by_cases hk : k = k'
      · subst hk
        simp [hl]
      · simp [hk]

theorem keys_insert_of_mem (t : Table κ α) (k : κ) (a : α) (h : k ∈ t.keys) :
    (insert t k a).keys = t.keys := by
  induction t with
  | nil => simp [keys] at h
  | cons e rest ih =>
    obtain ⟨l, b⟩ := e
    by_cases hl : l = k
    · simp [insert, hl, keys]
    · have hr : k ∈ keys rest := by
        simp only [keys, List.map_cons, List.mem_cons] at h ⊢
        exact h.resolve_left fun e => hl e.symm
      simp only [insert, hl, if_false]
      simpa [keys] using ih hr

theorem keys_insert_of_not_mem (t : Table κ α) (k : κ) (a : α) (h : k ∉ t.keys) :
    (insert t k a).keys = t.keys ++ [k] := by
  induction t with
  | nil => simp [insert, keys]
  | cons e rest ih =>
    obtain ⟨l, b⟩ := e
    simp only [keys, List.map_cons, List.mem_cons, not_or] at h
    have hl : l ≠ k := fun e => h.1 e.symm
    simp only [insert, hl, if_false]
    have := ih h.2
    simp only [keys] at this ⊢
    simp [this]

theorem find?_erase (t : Table κ α) (k k' : κ) :
    (erase t k).find? k' = if k = k' then none else t.find? k' := by
  induction t with
  | nil => simp [erase, find?]
  | cons e rest ih =>
    obtain ⟨l, b⟩ := e
    simp only [erase] at ih
    by_cases hl : l = k
    · subst hl
      simp only [erase, List.filter_cons, decide_true, Bool.not_true, Bool.false_eq_true,
        if_false, ih, find?]
      by_cases hk : l = k' <;> simp [hk]
    · simp only [erase, List.filter_cons, hl, decide_false, Bool.not_false, if_true, find?, ih]
      by_cases hk : k = k'
      · subst hk
        simp [hl]
      · simp [hk]

end Table

end TokenNet
