import TokenNet.Proofs.Lexing
/-!
From tokens to a value.  What was written is read as `asRead` says, unless containers are nested in
it beyond what the reader follows: `read?_write`.
-/

namespace TokenNet.Json

mutual

/-- How many containers stand inside one another. -/
def depth : Datum → Nat
  | .list items => depthOfItems items + 1
  | .map entries => depthOfEntries entries + 1
  | _ => 0

def depthOfItems : List Datum → Nat
  | [] => 0
  | d :: rest => max (depth d) (depthOfItems rest)

def depthOfEntries : List (Datum × Datum) → Nat
  | [] => 0
  | (_, v) :: rest => max (depth v) (depthOfEntries rest)

end

/-- The machine after these tokens. -/
def run (s : State) (ts : List Token) : Option State := ts.foldlM step? s

theorem run_cons (s : State) (t : Token) (ts : List Token) :
    run s (t :: ts) = (step? s t).bind fun s' => run s' ts := rfl

theorem run_append (s : State) (ts ts' : List Token) :
    run s (ts ++ ts') = (run s ts).bind fun s' => run s' ts' := List.foldlM_append

/-- The first item of a list is read like any other value. -/
theorem run_firstItem (d : Datum) (around : List Frame) (ts : List Token) :
    run (.firstItem around) (tokens d ++ ts) =
      run (.value (.list [] :: around)) (tokens d ++ ts) := by
  cases d with
  | list items => cases items <;> rfl
  | map entries => cases entries <;> rfl
  | _ => rfl

/-- One part after another: each needs its room. -/
theorem run_append_of {s s' : State} {ts ts' : List Token} {fits fits' : Prop} [Decidable fits]
    [Decidable fits'] {result : State} (h : run s ts = if fits then some s' else none)
    (h' : run s' ts' = if fits' then some result else none) :
    run s (ts ++ ts') = if fits ∧ fits' then some result else none := by
  rw [run_append, h]
  by_cases hf : fits
  · simp only [hf, if_true, true_and, Option.bind_some, h']
  · simp only [hf, if_false, false_and, Option.bind_none]

mutual

theorem run_tokens : ∀ (d : Datum) (around : List Frame),
    run (.value around) (tokens d) =
      if depth d ≤ maxDepth - around.length then some (.complete (asRead d) around) else none
  | .null, _ | .bool _, _ | .int _, _ | .float _, _ | .text _, _ | .bytes _, _ | .role _, _
  | .position _ _, _ | .event _ _ _, _ | .node _, _ | .handle _, _ | .thing _ _, _ => by
    simp [depth, tokens, run, step?, begin?]
  | .list [], around => by
    rw [tokens, run_cons, step?, begin?, depth, depthOfItems]
    by_cases hroom : around.length < maxDepth
    · rw [if_pos hroom, if_pos (by omega)]
      rfl
    · rw [if_neg hroom, if_neg (by omega)]
      rfl
  | .list (d :: items), around => by
    rw [tokens, run_cons, step?, begin?, depth, depthOfItems]
    by_cases hroom : around.length < maxDepth
    · rw [if_pos hroom, Option.bind_some, run_firstItem,
        run_append_of (run_tokens d (.list [] :: around))
          (run_itemTokens items (asRead d) [] around)]
      simp only [List.length_cons, asRead, asReadItems, List.reverse_nil, List.nil_append]
      exact if_congr (by omega) rfl rfl
    · rw [if_neg hroom, if_neg (by omega)]
      rfl
  | .map [], around => by
    rw [tokens, run_cons, step?, begin?, depth, depthOfEntries]
    by_cases hroom : around.length < maxDepth
    · rw [if_pos hroom, if_pos (by omega)]
      rfl
    · rw [if_neg hroom, if_neg (by omega)]
      rfl
  | .map ((k, v) :: entries), around => by
    rw [tokens, run_cons, step?, begin?, depth, depthOfEntries]
    by_cases hroom : around.length < maxDepth
    · rw [if_pos hroom]
      change run (.value (.map [] (keyName k) :: around)) (tokens v ++ entryTokens entries) = _
      rw [run_append_of (run_tokens v (.map [] (keyName k) :: around))
        (run_entryTokens entries (asRead v) (keyName k) [] around)]
      simp only [List.length_cons, asRead, asReadEntries, List.reverse_nil, List.nil_append]
      exact if_congr (by omega) rfl rfl
    · rw [if_neg hroom, if_neg (by omega)]
      rfl

theorem run_itemTokens : ∀ (items : List Datum) (d : Datum) (before : List Datum)
    (around : List Frame),
    run (.complete d (.list before :: around)) (itemTokens items) =
      if depthOfItems items ≤ maxDepth - (around.length + 1) then
        some (.complete (.list (before.reverse ++ d :: asReadItems items)) around)
      else none
  | [], d, before, around => by
    rw [depthOfItems, if_pos (Nat.zero_le _), asReadItems, ← List.reverse_cons]
    rfl
  | d' :: items, d, before, around => by
    rw [itemTokens, run_cons]
    change run (.value (.list (d :: before) :: around)) (tokens d' ++ itemTokens items) = _
    rw [run_append_of (run_tokens d' (.list (d :: before) :: around))
      (run_itemTokens items (asRead d') (d :: before) around)]
    simp only [List.length_cons, asReadItems, List.reverse_cons, List.append_assoc,
      List.singleton_append, depthOfItems]
    exact if_congr (by omega) rfl rfl

theorem run_entryTokens : ∀ (entries : List (Datum × Datum)) (d : Datum) (k : String)
    (before : List (Datum × Datum)) (around : List Frame),
    run (.complete d (.map before k :: around)) (entryTokens entries) =
      if depthOfEntries entries ≤ maxDepth - (around.length + 1) then
        some (.complete (.map (before.reverse ++ (.text k, d) :: asReadEntries entries)) around)
      else none
  | [], d, k, before, around => by
    rw [depthOfEntries, if_pos (Nat.zero_le _), asReadEntries, ← List.reverse_cons]
    rfl
  | (k', v) :: entries, d, k, before, around => by
    rw [entryTokens, run_cons]
    change run (.value (.map ((.text k, d) :: before) (keyName k') :: around))
      (tokens v ++ entryTokens entries) = _
    rw [run_append_of (run_tokens v (.map ((.text k, d) :: before) (keyName k') :: around))
      (run_entryTokens entries (asRead v) (keyName k') ((.text k, d) :: before) around)]
    simp only [List.length_cons, asReadEntries, List.reverse_cons, List.append_assoc,
      List.singleton_append, depthOfEntries]
    exact if_congr (by omega) rfl rfl

end

theorem ofTokens?_tokens (d : Datum) :
    ofTokens? (tokens d) = if depth d ≤ maxDepth then some (asRead d) else none := by
  have hrun := run_tokens d []
  rw [List.length_nil, Nat.sub_zero, run] at hrun
  rw [ofTokens?, hrun]
  by_cases hdepth : depth d ≤ maxDepth
  · rw [if_pos hdepth, if_pos hdepth]
  · rw [if_neg hdepth, if_neg hdepth]

/-- Reading what was written. -/
theorem read?_write {layout : Layout} (hl : layout.Blank) {d : Datum} {n : Nat} {cs : List Char}
    (h : write layout n d = .ok cs) :
    read? cs = if depth d ≤ maxDepth then some (asRead d) else none := by
  rw [read?, lex_write hl h]
  exact ofTokens?_tokens d

end TokenNet.Json
