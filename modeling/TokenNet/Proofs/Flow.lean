import Mathlib.Data.List.Induction
import TokenNet.Proofs.Agreement
/-!
What an arc list comes down to, place by place.  Main statement: `Net.index_eq`.  The entry of a
transition at a place is what the last well-formed arc between the two carries, whatever came before
it and whatever stands between them; a place inhibits with the weight of the last arc that says so,
and at the position of the first.  Nothing of earlier vectors is left.
-/

namespace TokenNet

namespace Table

variable {κ α : Type} [DecidableEq κ]

/-! ## Tables written entry by entry -/

/-- What is listed last under a key. -/
def last? (entries : List (κ × α)) (k : κ) : Option α :=
  ((entries.filter fun e => decide (e.1 = k)).getLast?).map Prod.snd

theorem last?_append_singleton (entries : List (κ × α)) (e : κ × α) (k : κ) :
    last? (entries ++ [e]) k = if e.1 = k then some e.2 else last? entries k := by
  by_cases hk : e.1 = k <;> simp [last?, List.filter_append, hk]

theorem last?_map {β : Type} (f : κ → α → β) (entries : List (κ × α)) (k : κ) :
    last? (entries.map fun e => (e.1, f e.1 e.2)) k = (last? entries k).map (f k) := by
  induction entries using List.reverseRecOn with
  | nil => rfl
  | append_singleton entries e ih =>
    rw [List.map_append, List.map_singleton, last?_append_singleton, last?_append_singleton, ih]
    by_cases hk : e.1 = k
    · rw [if_pos hk, if_pos hk, Option.map_some, hk]
    · rw [if_neg hk, if_neg hk]

theorem isSome_last? {entries : List (κ × α)} {k : κ} (h : k ∈ entries.map Prod.fst) :
    (last? entries k).isSome = true := by
  obtain ⟨e, he, rfl⟩ := List.mem_map.1 h
  rw [last?, Option.isSome_map, List.getLast?_isSome]
  exact List.ne_nil_of_mem (List.mem_filter.2 ⟨he, decide_eq_true rfl⟩)

/-- Keys stand in the order in which they are first written. -/
theorem keys_foldl_insert (entries : List (κ × α)) :
    keys (entries.foldl (fun t e => insert t e.1 e.2) []) = (entries.map Prod.fst).eraseDups := by
  induction entries using List.reverseRecOn with
  | nil => rfl
  | append_singleton entries e ih =>
    rw [List.foldl_append, List.foldl_cons, List.foldl_nil, List.map_append, List.eraseDups_append]
    by_cases he : e.1 ∈ entries.map Prod.fst
    · rw [keys_insert_of_mem _ _ _ (ih ▸ List.mem_eraseDups.2 he), ih]
      simp [List.removeAll, he]
    · rw [keys_insert_of_not_mem _ _ _ (ih ▸ mt List.mem_eraseDups.1 he), ih]
      simp [List.removeAll, he, List.eraseDups_cons]

theorem find?_foldl_insert (entries : List (κ × α)) (k : κ) :
    find? (entries.foldl (fun t e => insert t e.1 e.2) []) k = last? entries k := by
  induction entries using List.reverseRecOn with
  | nil => rfl
  | append_singleton entries e ih =>
    rw [List.foldl_append, List.foldl_cons, List.foldl_nil, find?_insert, ih,
      last?_append_singleton]

/-- A table is its keys, each with what is found under it. -/
theorem eq_map_keys {t : Table κ α} {f : κ → α} (hd : (keys t).Nodup)
    (h : ∀ k ∈ keys t, t.find? k = some (f k)) : t = (keys t).map fun k => (k, f k) := by
  rw [keys, List.map_map]
  refine (List.map_id t).symm.trans (List.map_congr_left fun e he => ?_)
  have hfound := find?_of_mem hd (k := e.1) (a := e.2) he
  rw [h e.1 (List.mem_map_of_mem he)] at hfound
  exact Prod.ext rfl (Option.some.inj hfound).symm

end Table

/-! ## What arcs say of a place and a transition -/

/-- What an arc between the two nodes carries to the place as the transition fires: its weight, or
minus its weight if it runs from the place.  Nothing if the weight is no whole number above zero, if
the arc inhibits, or if it does not join the two. -/
def Arc.carried? (place transition : String) (arc : Arc) : Option Int :=
  match arc.inhibit.truthy, arc.source, arc.target with
  | false, .place p, .transition t =>
    if p = place ∧ t = transition then arc.weight.positive?.map Neg.neg else none
  | false, .transition t, .place p =>
    if p = place ∧ t = transition then arc.weight.positive? else none
  | _, _, _ => none

namespace Net

/-- The place from which an arc inhibits the transition, if that is a place of the net, and the
weight under which it does. -/
def inhibition? (net : Net) (transition : String) (arc : Arc) : Option (String × Int) :=
  match arc.inhibit.truthy, arc.source, arc.target with
  | true, .place p, .transition t =>
    if (net.place? p).isSome ∧ t = transition then arc.weight.positive?.map (p, ·) else none
  | _, _, _ => none

/-- What the transition adds to the place: of several arcs between them the last one stands. -/
def flow (net : Net) (place transition : String) : Int :=
  (net.arcs.filterMap (Arc.carried? place transition)).getLast?.getD 0

def inhibitions (net : Net) (transition : String) : List (String × Int) :=
  net.arcs.filterMap (net.inhibition? transition)

/-- The places that inhibit the transition, in the order of the first arc of each. -/
def inhibitors (net : Net) (transition : String) : List String :=
  ((net.inhibitions transition).map Prod.fst).eraseDups

/-- The guard by which a place inhibits under a weight. -/
def inhibitor (net : Net) (place : String) (weight : Int) : Guard where
  label := place
  delta := net.places.map fun p => if p.label = place then -weight else 0

/-- The net without anything that compiling writes. -/
def uncompiled (net : Net) : Net := { net.cleared with indexed := false }

variable {net : Net} {arc : Arc} {link : Link} {t : Transition} {place transition : String}

theorem carried?_eq_some {n : Int} : arc.carried? place transition = some n ↔
    ∃ w, arc.weight.positive? = some w ∧
      ((joint? arc = some (.input, place, transition) ∧ n = -w) ∨
        (joint? arc = some (.output, place, transition) ∧ n = w)) := by
  simp only [joint?_eq_some, reduceCtorEq, false_and, true_and, false_or, or_false]
  unfold Arc.carried?
  constructor
  · intro h
    split at h
    next hi hs ht =>
      obtain ⟨⟨rfl, rfl⟩, hweight⟩ := Option.ite_none_right_eq_some.1 h
      obtain ⟨w, hw, rfl⟩ := Option.map_eq_some_iff.1 hweight
      exact ⟨w, hw, .inl ⟨⟨hi, hs, ht⟩, rfl⟩⟩
    next hi hs ht =>
      obtain ⟨⟨rfl, rfl⟩, hw⟩ := Option.ite_none_right_eq_some.1 h
      exact ⟨n, hw, .inr ⟨⟨hi, hs, ht⟩, rfl⟩⟩
    next => cases h
  · rintro ⟨w, hw, ⟨⟨hi, hs, ht⟩, rfl⟩ | ⟨⟨hi, hs, ht⟩, rfl⟩⟩ <;> simp [hi, hs, ht, hw]

theorem inhibition?_eq_some {e : String × Int} : net.inhibition? transition arc = some e ↔
    arc.weight.positive? = some e.2 ∧ joint? arc = some (.inhibitor, e.1, transition) ∧
      e.1 ∈ net.places.map Place.label := by
  simp only [joint?_eq_some, reduceCtorEq, false_and, true_and, or_false, ← isSome_place?]
  unfold inhibition?
  constructor
  · intro h
    split at h
    next hi hs ht =>
      obtain ⟨⟨hp, rfl⟩, hweight⟩ := Option.ite_none_right_eq_some.1 h
      obtain ⟨w, hw, rfl⟩ := Option.map_eq_some_iff.1 hweight
      exact ⟨hw, ⟨hi, hs, ht⟩, hp⟩
    next => cases h
  · rintro ⟨hw, ⟨hi, hs, ht⟩, hp⟩
    simp [hi, hs, ht, hw, hp]

/-! ## One arc after the other -/

/-- An arc that says nothing carries nothing between nodes of the net. -/
theorem carried?_of_link?_none (hl : net.link? arc = none)
    (hp : place ∈ net.places.map Place.label)
    (ht : transition ∈ net.transitions.map Transition.label) :
    arc.carried? place transition = none := by
  rw [Option.eq_none_iff_forall_ne_some]
  intro n hn
  obtain ⟨w, hw, hj⟩ := carried?_eq_some.1 hn
  have hsome : (net.link? arc).isSome = true := by
    rcases hj with ⟨hj, -⟩ | ⟨hj, -⟩ <;> exact isSome_link?.2 ⟨w, _, _, _, hw, hj, hp, ht⟩
  rw [hl] at hsome
  cases hsome

theorem inhibition?_of_link?_none (hl : net.link? arc = none)
    (ht : transition ∈ net.transitions.map Transition.label) :
    net.inhibition? transition arc = none := by
  rw [Option.eq_none_iff_forall_ne_some]
  intro e he
  obtain ⟨hw, hj, hp⟩ := inhibition?_eq_some.1 he
  have hsome := isSome_link?.2 ⟨_, _, _, _, hw, hj, hp, ht⟩
  rw [hl] at hsome
  cases hsome

/-- What a link carries is what its arc does. -/
theorem carried?_of_link? (hl : net.link? arc = some link) : arc.carried? place transition =
    if link.place = place ∧ link.transition = transition then
      match link.kind with
      | .input => some (-link.weight)
      | .output => some link.weight
      | .inhibitor => none
    else none := by
  obtain ⟨hw, hj, -, -⟩ := link?_eq_some_iff.1 hl
  unfold Arc.carried?
  rcases joint?_eq_some.1 hj with ⟨hk, hi, hs, ht⟩ | ⟨hk, hi, hs, ht⟩ | ⟨hk, hi, hs, ht⟩ <;>
    simp [hk, hi, hs, ht, hw]

theorem inhibition?_of_link? (hl : net.link? arc = some link) :
    net.inhibition? transition arc =
      if link.kind = .inhibitor ∧ link.transition = transition then some (link.place, link.weight)
      else none := by
  obtain ⟨hw, hj, ho, -⟩ := link?_eq_some_iff.1 hl
  have hp : (net.place? link.place).isSome = true := by
    rw [isSome_place?]
    obtain ⟨hi, hlabel, -⟩ := List.findIdx?_eq_some_iff_getElem.1 ho
    exact List.mem_map.2 ⟨_, List.getElem_mem hi, of_decide_eq_true hlabel⟩
  unfold inhibition?
  rcases joint?_eq_some.1 hj with ⟨hk, hi, hs, ht⟩ | ⟨hk, hi, hs, ht⟩ | ⟨hk, hi, hs, ht⟩ <;>
    simp [hk, hi, hs, ht, hw, hp]

theorem getElem?_of_link? (hl : net.link? arc = some link) :
    (net.places.map Place.label)[link.offset]? = some link.place :=
  getElem?_of_offset? (link?_eq_some_iff.1 hl).2.2.1

/-- One link decides one entry, if it is not an inhibitor. -/
theorem delta_joined (hn : (net.places.map Place.label).Nodup) (hl : net.link? arc = some link)
    {f : String → Int} (hd : t.delta = net.places.map fun p => f p.label) :
    (t.joined net.emptyVector link).delta =
      net.places.map fun p => (arc.carried? p.label t.label).getD (f p.label) := by
  have hset : ∀ n : Int, t.delta.set link.offset n =
      net.places.map fun p => if p.label = link.place then n else f p.label := by
    intro n
    have hmap : (net.places.map Place.label).map f = t.delta := by
      rw [hd, List.map_map]
      rfl
    rw [← hmap, Vec.map_set hn (getElem?_of_link? hl), List.map_map]
    rfl
  unfold Transition.joined
  by_cases ht : t.label = link.transition
  · rw [if_pos ht]
    cases hk : link.kind with
    | input | output =>
      simp only [hset]
      refine List.map_congr_left fun p _ => ?_
      by_cases hp : p.label = link.place <;>
        simp [carried?_of_link? hl, hk, ht, hp, eq_comm]
    | inhibitor =>
      simp only [hd]
      exact List.map_congr_left fun p _ => by simp [carried?_of_link? hl, hk]
  · rw [if_neg ht, hd]
    exact List.map_congr_left fun p _ => by simp [carried?_of_link? hl, Ne.symm ht]

/-- The induction over the arcs: each that carries something overwrites the entry. -/
theorem delta_foldl_joined (hn : (net.places.map Place.label).Nodup)
    (ht : t.label ∈ net.transitions.map Transition.label) {f : String → Int}
    (hd : t.delta = net.places.map fun p => f p.label) (arcs : List Arc) :
    ((arcs.filterMap net.link?).foldl (Transition.joined net.emptyVector) t).delta =
      net.places.map fun p =>
        (arcs.filterMap (Arc.carried? p.label t.label)).getLast?.getD (f p.label) := by
  induction arcs generalizing t f with
  | nil => exact hd
  | cons arc rest ih =>
    cases hl : net.link? arc with
    | none =>
      rw [List.filterMap_cons_none hl, ih ht hd]
      refine List.map_congr_left fun p hp => ?_
      rw [List.filterMap_cons_none (carried?_of_link?_none hl (List.mem_map_of_mem hp) ht)]
    | some link =>
      have hlabel := Transition.label_joined net.emptyVector t link
      rw [List.filterMap_cons_some hl, List.foldl_cons,
        ih (f := fun l => (arc.carried? l t.label).getD (f l)) (hlabel.symm ▸ ht)
          (delta_joined hn hl hd), hlabel]
      refine List.map_congr_left fun p _ => ?_
      cases hc : arc.carried? p.label t.label with
      | none => rw [List.filterMap_cons_none hc, Option.getD_none]
      | some n => rw [List.filterMap_cons_some hc, List.getLast?_cons, Option.getD_some]; rfl

theorem guards_joined (hn : (net.places.map Place.label).Nodup) (hl : net.link? arc = some link) :
    (t.joined net.emptyVector link).guards = match net.inhibition? t.label arc with
      | some e => t.guards.insert e.1 (net.inhibitor e.1 e.2)
      | none => t.guards := by
  rw [inhibition?_of_link? hl]
  unfold Transition.joined
  by_cases ht : t.label = link.transition
  · cases hk : link.kind with
    | input | output => simp [ht]
    | inhibitor =>
      have hzeros : net.emptyVector = (net.places.map Place.label).map fun _ => 0 := by
        rw [List.map_const', List.length_map]
        rfl
      have hdelta : net.emptyVector.set link.offset (-link.weight) =
          net.places.map fun p => if p.label = link.place then -link.weight else 0 := by
        rw [hzeros, Vec.map_set hn (getElem?_of_link? hl), List.map_map]
        rfl
      simp [ht, hdelta, inhibitor]
  · simp [ht, Ne.symm ht]

theorem guards_foldl_joined (hn : (net.places.map Place.label).Nodup)
    (ht : t.label ∈ net.transitions.map Transition.label) (arcs : List Arc) :
    ((arcs.filterMap net.link?).foldl (Transition.joined net.emptyVector) t).guards =
      ((arcs.filterMap (net.inhibition? t.label)).map fun e => (e.1, net.inhibitor e.1 e.2)).foldl
        (fun guards e => guards.insert e.1 e.2) t.guards := by
  induction arcs generalizing t with
  | nil => rfl
  | cons arc rest ih =>
    cases hl : net.link? arc with
    | none =>
      rw [List.filterMap_cons_none hl, ih ht,
        List.filterMap_cons_none (inhibition?_of_link?_none hl ht)]
    | some link =>
      have hlabel := Transition.label_joined net.emptyVector t link
      rw [List.filterMap_cons_some hl, List.foldl_cons, ih (hlabel.symm ▸ ht), hlabel,
        guards_joined hn hl]
      cases hi : net.inhibition? t.label arc with
      | none => rw [List.filterMap_cons_none hi]
      | some e => rw [List.filterMap_cons_some hi]; rfl

/-! ## The whole net -/

/-- The guards of the transition: one per inhibiting place, with the last weight. -/
def guardsOf (net : Net) (transition : String) : Table String Guard :=
  (net.inhibitors transition).map fun place =>
    (place, net.inhibitor place ((Table.last? (net.inhibitions transition) place).getD 0))

theorem guards_compiled (hn : (net.places.map Place.label).Nodup)
    (ht : t.label ∈ net.transitions.map Transition.label) :
    (t.compiled net.emptyVector net.links).guards = net.guardsOf t.label := by
  let entries := (net.inhibitions t.label).map fun e => (e.1, net.inhibitor e.1 e.2)
  have hkeys : (entries.map Prod.fst).eraseDups = net.inhibitors t.label := by
    simp only [entries, List.map_map]
    rfl
  have hfold : (t.compiled net.emptyVector net.links).guards =
      entries.foldl (fun guards e => Table.insert guards e.1 e.2) [] :=
    guards_foldl_joined (t := t.cleared net.emptyVector) hn ht net.arcs
  rw [hfold, guardsOf, ← hkeys, ← Table.keys_foldl_insert]
  refine Table.eq_map_keys
    (Table.nodup_keys_foldl_insert (t := []) List.nodup_nil entries) fun k hk => ?_
  rw [Table.keys_foldl_insert, hkeys, inhibitors, List.mem_eraseDups] at hk
  obtain ⟨w, hw⟩ := Option.isSome_iff_exists.1 (Table.isSome_last? hk)
  rw [Table.find?_foldl_insert, Table.last?_map, hw, Option.map_some, Option.getD_some]

/-- What compiling makes of a transition of the net, entry by entry and guard by guard. -/
theorem compiled_eq (hn : (net.places.map Place.label).Nodup)
    (ht : t.label ∈ net.transitions.map Transition.label) :
    t.compiled net.emptyVector net.links = { t with
      delta := net.places.map fun p => net.flow p.label t.label
      truths := []
      guards := net.guardsOf t.label } := by
  have hdelta : (t.compiled net.emptyVector net.links).delta =
      net.places.map fun p => net.flow p.label t.label := by
    refine delta_foldl_joined (t := t.cleared net.emptyVector) (f := fun _ => 0) hn ht ?_
      net.arcs
    exact List.map_const'.symm
  have htruths := (Transition.whole_compiled net.emptyVector net.links t).truths
  have hrest := Transition.compiled_compiled net.emptyVector net.emptyVector net.links [] t
  calc t.compiled net.emptyVector net.links
    _ = { (t.compiled net.emptyVector net.links).cleared net.emptyVector with
          delta := (t.compiled net.emptyVector net.links).delta
          truths := (t.compiled net.emptyVector net.links).truths
          guards := (t.compiled net.emptyVector net.links).guards } := rfl
    _ = { t.cleared net.emptyVector with
          delta := net.places.map fun p => net.flow p.label t.label
          truths := []
          guards := net.guardsOf t.label } := by
      rw [hdelta, htruths, guards_compiled hn ht,
        show (t.compiled net.emptyVector net.links).cleared net.emptyVector =
          t.cleared net.emptyVector from hrest]
    _ = _ := rfl

/-- Compiling starts from the nodes and the arcs, whatever was compiled into the net before. -/
theorem index_uncompiled (h : net.hasArcs = true) : net.uncompiled.index.1 = net.index.1 := by
  have hlink : net.uncompiled.link? = net.link? := link?_cleared net
  have hlinks : net.uncompiled.links = net.links := by
    rw [links, hlink]
    rfl
  have hflaws : net.uncompiled.index.2.isEmpty = net.index.2.isEmpty := by
    rw [Bool.eq_iff_iff, List.isEmpty_iff, List.isEmpty_iff, index_snd_eq_nil h,
      index_snd_eq_nil (show net.uncompiled.hasArcs = true from h), hlink]
    exact Iff.rfl
  have hstart : net.uncompiled.transitions.map (Transition.compiled net.emptyVector net.links) =
      net.transitions.map (Transition.compiled net.emptyVector net.links) := by
    show (net.transitions.map (Transition.cleared net.emptyVector)).map _ = _
    rw [List.map_map]
    rfl
  rw [index_fst h, index_fst (show net.uncompiled.hasArcs = true from h), hlinks, hflaws,
    show net.uncompiled.emptyVector = net.emptyVector from rfl, hstart]
  rfl

theorem uncompiled_index (h : net.hasArcs = true) : net.index.1.uncompiled = net.uncompiled := by
  have hcleared : net.index.1.transitions.map (Transition.cleared net.emptyVector) =
      net.transitions.map (Transition.cleared net.emptyVector) := by
    rw [index_fst h]
    show (net.transitions.map _).map _ = _
    rw [List.map_map]
    exact List.map_congr_left fun t _ =>
      Transition.compiled_compiled net.emptyVector net.emptyVector net.links [] t
  have hrest : net.index.1.uncompiled = { net.uncompiled with
      transitions := net.index.1.transitions.map (Transition.cleared net.emptyVector) } := by
    rw [index_fst h]
    rfl
  rw [hrest, hcleared]
  rfl

/-- Compiling a net with arcs, whatever these are and whatever was compiled into the net before: a
transition adds to each place what the last well-formed arc between the two carries, and has a guard
for each place from which a well-formed arc inhibits it, in the order of the first such arc of each
and with the weight of the last.  All else stays.  Only the nodes and the arcs matter for that, so
compiling again changes nothing. -/
theorem index_eq (h : net.hasArcs = true) (hn : net.labels.Nodup) :
    net.index.1 = { net with
        transitions := net.transitions.map fun t => { t with
          delta := net.places.map fun p => net.flow p.label t.label
          truths := []
          guards := net.guardsOf t.label }
        indexed := net.index.2.isEmpty } ∧
      (∀ net' : Net, net'.uncompiled = net.uncompiled → net'.index.1 = net.index.1) ∧
      net.index.1.index.1 = net.index.1 := by
  have hagain : ∀ net' : Net, net'.uncompiled = net.uncompiled → net'.index.1 = net.index.1 := by
    intro net' he
    have h' : net'.hasArcs = true := (congrArg Net.hasArcs he).trans h
    rw [← index_uncompiled h', he, index_uncompiled h]
  have hplaces : (net.places.map Place.label).Nodup := (List.nodup_append.1 hn).1
  have hmap : net.transitions.map (Transition.compiled net.emptyVector net.links) =
      net.transitions.map fun t => { t with
        delta := net.places.map fun p => net.flow p.label t.label
        truths := []
        guards := net.guardsOf t.label } :=
    List.map_congr_left fun t ht => compiled_eq hplaces (List.mem_map_of_mem ht)
  refine ⟨?_, hagain, hagain _ (uncompiled_index h)⟩
  rw [index_fst h, hmap]

end Net

/-! ## A lock whose arcs were written over -/

namespace Lock

def draft : Draft :=
  Draft.follow { self := 0, net := { schema := .text "lock" }, config := .default }
    [.place (.text "low") (.int 3) .null .null, .place (.text "high") .null .null .null,
      .transition (.text "lift") .null .null]

theorem reached : Draft.Reached .default draft :=
  Draft.Reached.follow (@Draft.Reached.opened .default 0 (.text "lock") (.text "petriNet") _ rfl) _

/-- The arcs join the same nodes again and again, four of them join none, and the vectors are left
from elsewhere. -/
def net : Net := { draft.net with
  transitions := draft.net.transitions.map fun t =>
    { t with delta := [7], guards := [("weir", { label := "low", delta := [] })] }
  arcs := [{ source := .place "high", target := .transition "lift", inhibit := .bool true },
    { source := .place "low", target := .transition "lift" },
    { source := .place "low", target := .transition "lift", weight := .int 2, inhibit := .int 1 },
    { source := .transition "lift", target := .place "high", weight := .int 3 },
    { source := .transition "lift", target := .place "low", weight := .int 4 },
    { source := .transition "lift", target := .place "high", weight := .int 0 },
    { source := .transition "lift", target := .place "low", weight := .bool true },
    { source := .other (.text "low"), target := .transition "lift" },
    { source := .transition "lift", target := .transition "lift" },
    { source := .place "high", target := .transition "lift", weight := .int 5,
      inhibit := .bool true }]
  indexed := true }

theorem distinct : net.labels.Nodup := reached.declared.distinct

end Lock

namespace Net

/-- The later of two arcs counts, whichever way they run, and places inhibit in the order in which
they are first named. -/
theorem lock_index_eq :
    Draft.Reached .default Lock.draft ∧ Lock.net.labels = Lock.draft.net.labels ∧
    Lock.net.hasArcs = true ∧ Lock.net.labels.Nodup ∧
    Lock.net.index.1.transitions.map (fun t => (t.delta, t.guards)) =
      [([4, 3], [("high", { label := "high", delta := [0, -5] }),
        ("low", { label := "low", delta := [-2, 0] })])] ∧
    Lock.net.index.1.indexed = false ∧
    Lock.net.uncompiled.index.1 = Lock.net.index.1 ∧
    Lock.net.index.1.index.1 = Lock.net.index.1 := by
  obtain ⟨heq, hagain, hidem⟩ := index_eq (show Lock.net.hasArcs = true from rfl) Lock.distinct
  refine ⟨Lock.reached, rfl, rfl, Lock.distinct, ?_, ?_, hagain _ ?_, hidem⟩
  · rw [heq]
    decide
  · rw [heq]
    decide
  · rfl

end Net

end TokenNet
