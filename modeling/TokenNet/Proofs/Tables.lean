import TokenNet.Datum.Register
/-!
Laws of tables and registers that say what is in them after a change.  A register is orderly when
its keys are distinct and equal to themselves: then everything in it is found.
-/

namespace TokenNet

namespace Table

variable {κ α : Type} [DecidableEq κ]

theorem insert_insert (t : Table κ α) (k : κ) (a b : α) :
    insert (insert t k a) k b = insert t k b := by
  induction t with
  | nil => simp [insert]
  | cons e rest ih =>
    obtain ⟨l, c⟩ := e
    by_cases hl : l = k <;> simp [insert, hl, ih]

theorem insert_of_not_mem {t : Table κ α} {k : κ} (h : k ∉ keys t) (a : α) :
    insert t k a = t ++ [(k, a)] := by
  induction t with
  | nil => rfl
  | cons e rest ih =>
    obtain ⟨l, b⟩ := e
    simp only [keys, List.map_cons, List.mem_cons, not_or] at h
    have hl : l ≠ k := fun e => h.1 e.symm
    simp only [insert, hl, if_false, ih h.2, List.cons_append]

theorem mem_insert {t : Table κ α} {k : κ} {a : α} {e : κ × α} (h : e ∈ insert t k a) :
    e = (k, a) ∨ e ∈ t := by
  induction t with
  | nil => exact Or.inl (by simpa [insert] using h)
  | cons e' rest ih =>
    obtain ⟨l, c⟩ := e'
    by_cases hl : l = k
    · simp only [insert, hl, if_true, List.mem_cons] at h
      exact h.imp id (List.mem_cons_of_mem _)
    · simp only [insert, hl, if_false, List.mem_cons] at h
      rcases h with rfl | h
      · exact Or.inr List.mem_cons_self
      · exact (ih h).imp id (List.mem_cons_of_mem _)

theorem find?_of_mem {t : Table κ α} {k : κ} {a : α} (hd : (keys t).Nodup) (h : (k, a) ∈ t) :
    t.find? k = some a := by
  induction t with
  | nil => simp at h
  | cons e rest ih =>
    obtain ⟨l, c⟩ := e
    simp only [keys, List.map_cons, List.nodup_cons] at hd
    rcases List.mem_cons.1 h with he | hr
    · obtain ⟨rfl, rfl⟩ := Prod.mk.inj he
      simp [find?]
    · have hl : l ≠ k := fun e => hd.1 (e ▸ List.mem_map_of_mem hr)
      simpa [find?, hl] using ih hd.2 hr

theorem find?_append_of_ne (t : Table κ α) {k k' : κ} (h : k ≠ k') (a : α) :
    (t ++ [(k, a)]).find? k' = t.find? k' := by
  induction t with
  | nil => simp [find?, h]
  | cons e rest ih =>
    obtain ⟨l, b⟩ := e
    simp only [List.cons_append, find?, ih]

theorem nodup_keys_insert {t : Table κ α} (h : (keys t).Nodup) (k : κ) (a : α) :
    (keys (insert t k a)).Nodup := by
  by_cases hk : k ∈ keys t
  · rwa [keys_insert_of_mem t k a hk]
  · rw [keys_insert_of_not_mem t k a hk]
    exact List.nodup_append.2 ⟨h, by simp, fun x hx y hy => by
      rintro rfl
      exact hk (List.mem_singleton.1 hy ▸ hx)⟩

/-! Entries written one after the other, the later over the earlier. -/

theorem mem_foldl_insert {t : Table κ α} {entries : List (κ × α)} {e : κ × α}
    (h : e ∈ entries.foldl (fun t e => insert t e.1 e.2) t) : e ∈ t ∨ e ∈ entries := by
  induction entries generalizing t with
  | nil => exact Or.inl h
  | cons e' rest ih =>
    rcases ih h with ht | hrest
    · rcases mem_insert ht with rfl | ht
      · exact Or.inr List.mem_cons_self
      · exact Or.inl ht
    · exact Or.inr (List.mem_cons_of_mem _ hrest)

theorem nodup_keys_foldl_insert {t : Table κ α} (h : (keys t).Nodup) (entries : List (κ × α)) :
    (keys (entries.foldl (fun t e => insert t e.1 e.2) t)).Nodup := by
  induction entries generalizing t with
  | nil => exact h
  | cons e rest ih => exact ih (nodup_keys_insert h e.1 e.2)

theorem keys_erase_sublist (t : Table κ α) (k : κ) : (keys (erase t k)).Sublist (keys t) :=
  List.filter_sublist.map Prod.fst

end Table

namespace Register

variable {α : Type}

theorem written_enter (r : Register α) (k : Key) (d : Datum) (a : α) (h : k.selfEqual = true) :
    written (enter r k d a) k d = written r k d := by
  simp [written, enter, h, Table.find?_insert]

theorem enter_enter (r : Register α) (k : Key) (d : Datum) (a b : α) (h : k.selfEqual = true) :
    enter (enter r k d a) k d b = enter r k d b := by
  rw [enter, if_pos h, written_enter r k d a h]
  simp only [enter, h, if_true, Table.insert_insert]

/-- What is entered under one key changes nothing under another. -/
theorem lookup?_enter_of_ne (r : Register α) {k k' : Key} (h : k ≠ k') (d : Datum) (a : α) :
    (enter r k d a).lookup? k' = r.lookup? k' := by
  by_cases hk : k.selfEqual = true
  · rw [lookup?_enter r k k' d a hk, if_neg h]
  · rw [enter, if_neg hk]
    simp only [lookup?, Table.find?_append_of_ne r h]

theorem mem_enter {r : Register α} {k : Key} {d : Datum} {a : α} {e : Key × Datum × α}
    (h : e ∈ enter r k d a) : (e.1 = k ∧ e.2.2 = a) ∨ e ∈ r := by
  by_cases hk : k.selfEqual = true
  · rw [enter, if_pos hk] at h
    exact (Table.mem_insert h).imp (fun e => by simp [e]) id
  · rw [enter, if_neg hk] at h
    rcases List.mem_append.1 h with h | h
    · exact Or.inr h
    · exact Or.inl (by simp [List.mem_singleton.1 h])

theorem selfEqual_of_lookup? {r : Register α} {k : Key} {a : α} (h : r.lookup? k = some a) :
    k.selfEqual = true := by
  unfold lookup? at h
  split at h
  next hk => exact hk
  next => simp at h

theorem mem_of_lookup? {r : Register α} {k : Key} {a : α} (h : r.lookup? k = some a) :
    ∃ d, (k, d, a) ∈ r := by
  rw [lookup?, if_pos (selfEqual_of_lookup? h)] at h
  induction r with
  | nil => simp at h
  | cons e rest ih =>
    obtain ⟨l, d, c⟩ := e
    by_cases hl : l = k
    · simp only [Table.find?, hl, if_true, Option.map_some, Option.some.injEq] at h
      exact ⟨d, by simp [hl, ← h]⟩
    · obtain ⟨d', hd'⟩ := ih (by simpa [Table.find?, hl] using h)
      exact ⟨d', List.mem_cons_of_mem _ hd'⟩

/-- Every key is there once and equals itself. -/
structure Orderly (r : Register α) : Prop where
  distinct : (Table.keys r).Nodup
  selfEqual : ∀ k ∈ Table.keys r, k.selfEqual = true

theorem Orderly.nil : Orderly ([] : Register α) := ⟨by simp [Table.keys], by simp [Table.keys]⟩

theorem Orderly.lookup?_of_mem {r : Register α} (hr : Orderly r) {k : Key} {d : Datum} {a : α}
    (h : (k, d, a) ∈ r) : r.lookup? k = some a := by
  have hk : k.selfEqual = true := hr.selfEqual k (List.mem_map_of_mem h)
  simp [lookup?, hk, Table.find?_of_mem hr.distinct h]

theorem Orderly.enter {r : Register α} (hr : Orderly r) {k : Key} (hk : k.selfEqual = true)
    (d : Datum) (a : α) : Orderly (Register.enter r k d a) := by
  rw [Register.enter, if_pos hk]
  refine ⟨Table.nodup_keys_insert hr.distinct k _, fun l hl => ?_⟩
  obtain ⟨e, he, rfl⟩ := List.mem_map.1 hl
  rcases Table.mem_insert he with rfl | he
  · exact hk
  · exact hr.selfEqual _ (List.mem_map_of_mem he)

theorem Orderly.erase {r : Register α} (hr : Orderly r) (k : Key) : Orderly (Table.erase r k) :=
  ⟨hr.distinct.sublist (Table.keys_erase_sublist r k),
    fun l hl => hr.selfEqual l ((Table.keys_erase_sublist r k).subset hl)⟩

end Register

end TokenNet
