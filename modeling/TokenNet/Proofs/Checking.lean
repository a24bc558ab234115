import TokenNet.Declaration.Basic
import TokenNet.Net.Export
import TokenNet.Proofs.Tables
/-!
When a check passes.  A combination passes exactly if each of its parts does, and the path under
which a part is checked has no say in it; so what a check makes of a list or a table is what it
makes of the items, and what it makes of a record is what it makes of the fields.
-/

namespace TokenNet

namespace Checked

variable {α β : Type}

theorem seq_eq (f : Checked (α → β)) (c : Checked α) : f <*> c = seq f c := rfl

@[simp] theorem map_ok (f : α → β) (a : α) : f <$> ok a = ok (f a) := rfl

@[simp] theorem ok_seq (f : α → β) (c : Checked α) : (ok f <*> c) = f <$> c := rfl

@[simp] theorem under_ok (locator : Locator) (a : α) : (ok a).under locator = ok a := rfl

@[simp] theorem ok_inj {a b : α} : ok a = ok b ↔ a = b := Except.ok.injEq a b ▸ Iff.rfl

@[simp] theorem under_eq_ok {locator : Locator} {c : Checked α} {a : α} :
    c.under locator = ok a ↔ c = ok a := by
  cases c with
  | ok b => exact Iff.rfl
  | error faults => exact ⟨fun h => (nomatch h), fun h => (nomatch h)⟩

theorem seq_eq_ok {f : Checked (α → β)} {c : Checked α} {b : β} :
    (f <*> c) = ok b ↔ ∃ g a, f = ok g ∧ c = ok a ∧ g a = b := by
  rw [seq_eq]
  cases f with
  | ok g => cases c with
    | ok a =>
      constructor
      · intro h
        exact ⟨g, a, rfl, rfl, ok_inj.1 h⟩
      · rintro ⟨g', a', hg, ha, h⟩
        rw [← h, ok_inj.1 hg, ok_inj.1 ha]
        rfl
    | error faults => exact ⟨fun h => (nomatch h), fun ⟨_, _, _, h, _⟩ => (nomatch h)⟩
  | error faults =>
    refine ⟨fun h => ?_, fun ⟨_, _, h, _⟩ => (nomatch h)⟩
    cases c <;> cases h

theorem map_eq_ok {f : α → β} {c : Checked α} {b : β} :
    f <$> c = ok b ↔ ∃ a, c = ok a ∧ f a = b := by
  rw [← ok_seq, seq_eq_ok]
  constructor
  · rintro ⟨g, a, hg, ha, h⟩
    exact ⟨a, ha, by rw [← h, ok_inj.1 hg]⟩
  · rintro ⟨a, ha, h⟩
    exact ⟨f, a, rfl, ha, h⟩

/-- A list passes exactly if every item does. -/
theorem each_eq_ok {check : Datum → Checked α} {i : Nat} {items : List Datum} {as : List α} :
    each check i items = ok as ↔ items.map check = as.map ok := by
  induction items generalizing i as with
  | nil =>
    rw [each, ok_inj]
    cases as <;> simp
  | cons d rest ih =>
    simp only [each, seq_eq_ok, map_eq_ok, under_eq_ok, ih, List.map_cons]
    cases as with
    | nil => simp
    | cons a as =>
      simp only [List.map_cons, List.cons.injEq]
      constructor
      · rintro ⟨g, as', ⟨a', ha, rfl⟩, has, h⟩
        cases h
        exact ⟨ha, has⟩
      · rintro ⟨ha, has⟩
        exact ⟨_, as, ⟨a, ha, rfl⟩, has, rfl⟩

end Checked

namespace Check

open Checked

variable {α β : Type} {o : Origin}

/-! ## Lists and tables -/

theorem list_map_eq_ok {check : Check α} {data : β → Datum} {xs : List β} {as : List α} :
    list check o (.list (xs.map data)) = ok as ↔
      (xs.map fun x => check o (data x)) = as.map ok := by
  rw [list, each_eq_ok, List.map_map]
  rfl

theorem list_map {check : Check α} {data : β → Datum} {xs : List β} {value : β → α}
    (h : ∀ x ∈ xs, check o (data x) = ok (value x)) :
    list check o (.list (xs.map data)) = ok (xs.map value) := by
  rw [list_map_eq_ok, List.map_map]
  exact List.map_congr_left h

theorem foldl_insert {t es : Table String α} (h : (Table.keys (t ++ es)).Nodup) :
    es.foldl (fun t e => Table.insert t e.1 e.2) t = t ++ es := by
  induction es generalizing t with
  | nil => simp
  | cons e rest ih =>
    have hsplit : t ++ e :: rest = t ++ [e] ++ rest := by simp
    have hfresh : e.1 ∉ Table.keys t := by
      simp only [Table.keys, List.map_append, List.map_cons] at h
      exact fun hmem => (List.nodup_append.1 h).2.2 _ hmem _ List.mem_cons_self rfl
    rw [List.foldl_cons, Table.insert_of_not_mem hfresh, hsplit, ih (hsplit ▸ h)]

theorem entries_named {check : Check α} {key : β → String} {data : β → Datum} {xs : List β}
    {value : β → α} (h : ∀ x ∈ xs, check o (data x) = ok (value x)) :
    entries check o (xs.map fun x => (.text (key x), data x)) =
      ok (xs.map fun x => (key x, value x)) := by
  induction xs with
  | nil => rfl
  | cons x rest ih =>
    rw [List.forall_mem_cons] at h
    simp only [List.map_cons, entries, entry, text, h.1, ih h.2, under_ok, map_ok, ok_seq]

/-- A table under distinct keys is read entry by entry. -/
theorem table_named {check : Check α} {key : β → String} {data : β → Datum} {xs : List β}
    {value : β → α} (hkeys : (xs.map key).Nodup)
    (h : ∀ x ∈ xs, check o (data x) = ok (value x)) :
    table check o (named (xs.map fun x => (key x, data x))) =
      ok (xs.map fun x => (key x, value x)) := by
  have hnodup : (Table.keys ([] ++ xs.map fun x => (key x, value x))).Nodup := by
    simpa [Table.keys, Function.comp_def] using hkeys
  simp only [named, table, List.map_map, Function.comp_def, entries_named h, map_ok]
  rw [foldl_insert hnodup, List.nil_append]

/-! ## Records -/

namespace Fields

/-- The fields of a record that is written as named entries. -/
def ofNamed (o : Origin) (es : List (String × Datum)) : Fields where
  origin := o
  entries := es.map fun e => (.text e.1, e.2)

@[simp] theorem record_named (check : Fields → Checked α) (es : List (String × Datum)) :
    record check o (named es) = check (ofNamed o es) := rfl

theorem find?_ofNamed (es : List (String × Datum)) (name : String) :
    (ofNamed o es).find? name = es.reverse.lookup name := by
  rw [find?, ofNamed, ← List.map_reverse]
  induction es.reverse with
  | nil => rfl
  | cons e rest ih =>
    obtain ⟨key, d⟩ := e
    rw [List.map_cons, Datum.field?, List.lookup_cons, ih]
    by_cases h : key = name
    · rw [if_pos h, beq_iff_eq.2 h.symm]
    · rw [if_neg h, beq_eq_false_iff_ne.2 (Ne.symm h)]

@[simp] theorem field_ofNamed (es : List (String × Datum)) (name : String) (default : α)
    (check : Check α) : (ofNamed o es).field name default check =
      (es.reverse.lookup name).elim (ok default) fun d => (check o d).under (.key name) := by
  rw [field, find?_ofNamed]
  cases es.reverse.lookup name <;> rfl

@[simp] theorem required_ofNamed (es : List (String × Datum)) (name : String) (check : Check α) :
    (ofNamed o es).required name check =
      (es.reverse.lookup name).elim (under (.key name) (fault .missing)) fun d =>
        (check o d).under (.key name) := by
  rw [required, find?_ofNamed]
  cases es.reverse.lookup name <;> rfl

@[simp] theorem either_ofNamed (es : List (String × Datum)) (name other : String) (default : α)
    (check : Check α) : (ofNamed o es).either name other default check =
      if (es.reverse.lookup name).isSome then (ofNamed o es).field name default check
      else (ofNamed o es).field other default check := by
  rw [either, find?_ofNamed]

end Fields

end Check

end TokenNet
