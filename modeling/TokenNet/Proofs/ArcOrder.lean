import Mathlib.Algebra.BigOperators.Group.List.Basic
import Mathlib.Algebra.Ring.Int.Defs
import TokenNet.Proofs.Flow
import TokenNet.Proofs.Malformed
/-!
The order in which arcs are recorded.  It decides which of two arcs stands where both write the same
entry, and nothing else.  Main statement: `Draft.apply_index_perm`.  While no two well-formed arcs
join the same two nodes, but for an inhibitor beside an arc that carries tokens, every order of the
arcs compiles alike, and an entry is what the arcs to the place bring less what those from it take.
-/

namespace TokenNet

/-! ## Arcs that write the same entry -/

/-- The weight of an arc, if it makes a link of this kind between the two nodes. -/
def Arc.weightAs? (kind : LinkKind) (place transition : String) (arc : Arc) : Option Int :=
  if Net.joint? arc = some (kind, place, transition) then arc.weight.positive? else none

/-- Both arcs join the same place and transition, and either both inhibit or neither does. -/
def Arc.Meets (arc arc' : Arc) : Prop :=
  ∃ joint ∈ Net.joint? arc, ∃ joint' ∈ Net.joint? arc',
    joint.2 = joint'.2 ∧ (joint.1 = .inhibitor ↔ joint'.1 = .inhibitor)

instance (arc arc' : Arc) : Decidable (arc.Meets arc') :=
  inferInstanceAs (Decidable (∃ joint ∈ Net.joint? arc, ∃ joint' ∈ Net.joint? arc', _))

namespace Net

/-- No two well-formed arcs write the same entry. -/
def Unrepeated (net : Net) : Prop :=
  net.arcs.Pairwise fun arc arc' => net.Joins arc → net.Joins arc' → ¬arc.Meets arc'

instance (net : Net) : Decidable net.Unrepeated :=
  inferInstanceAs (Decidable (List.Pairwise _ net.arcs))

/-- What the arcs that make links of this kind between the two nodes weigh together. -/
def total (net : Net) (kind : LinkKind) (place transition : String) : Int :=
  (net.arcs.filterMap (Arc.weightAs? kind place transition)).sum

end Net

/-- The transitions are one, with the same delta and the same guard under every label; the guards
may stand in another order. -/
structure Transition.SameVectors (t t' : Transition) : Prop where
  label : t'.label = t.label
  role : t'.role = t.role
  position : t'.position = t.position
  delta : t'.delta = t.delta
  guards : ∀ place, t'.guards.find? place = t.guards.find? place

namespace Net

variable {net net' : Net} {arc : Arc} {place transition : String} {t : Transition} {arcs : List Arc}

theorem Unrepeated.perm (h : net.Unrepeated) (hp : arcs.Perm net.arcs) :
    ({ net with arcs }).Unrepeated := by
  have hsymm : ∀ {arc arc' : Arc}, (net.Joins arc → net.Joins arc' → ¬arc.Meets arc') →
      net.Joins arc' → net.Joins arc → ¬arc'.Meets arc := by
    rintro arc arc' hno hj' hj ⟨joint', ha', joint, ha, hends, hiff⟩
    exact hno hj hj' ⟨joint, ha, joint', ha', hends.symm, hiff.symm⟩
  have hlink : ({ net with arcs } : Net).link? = net.link? := funext (link?_congr rfl rfl)
  show arcs.Pairwise fun arc arc' =>
    ({ net with arcs } : Net).Joins arc → ({ net with arcs } : Net).Joins arc' → ¬arc.Meets arc'
  simp only [joins_congr hlink]
  exact (hp.pairwise_iff hsymm).2 h

/-! ## At most one arc for each entry -/

theorem joins_of_joint? {kind : LinkKind} {w : Int} (hw : arc.weight.positive? = some w)
    (hj : joint? arc = some (kind, place, transition)) (hp : place ∈ net.places.map Place.label)
    (ht : transition ∈ net.transitions.map Transition.label) : net.Joins arc :=
  isSome_link?_iff_joins.1 (isSome_link?.2 ⟨w, kind, place, transition, hw, hj, hp, ht⟩)

/-- What is carried between nodes of the net, a well-formed arc carries that does not inhibit. -/
theorem joins_of_carried? {n : Int} (h : arc.carried? place transition = some n)
    (hp : place ∈ net.places.map Place.label)
    (ht : transition ∈ net.transitions.map Transition.label) :
    net.Joins arc ∧ ∃ kind, kind ≠ .inhibitor ∧ joint? arc = some (kind, place, transition) := by
  obtain ⟨w, hw, ⟨hj, -⟩ | ⟨hj, -⟩⟩ := carried?_eq_some.1 h
  · exact ⟨joins_of_joint? hw hj hp ht, .input, by decide, hj⟩
  · exact ⟨joins_of_joint? hw hj hp ht, .output, by decide, hj⟩

theorem Unrepeated.carried (h : net.Unrepeated) (hp : place ∈ net.places.map Place.label)
    (ht : transition ∈ net.transitions.map Transition.label) :
    (net.arcs.filterMap (Arc.carried? place transition)).Pairwise fun _ _ => False := by
  refine List.pairwise_filterMap.2 (List.Pairwise.imp (fun {arc arc'} hno n hn n' hn' => ?_) h)
  obtain ⟨hjoins, kind, hk, hj⟩ := joins_of_carried? hn hp ht
  obtain ⟨hjoins', kind', hk', hj'⟩ := joins_of_carried? hn' hp ht
  exact hno hjoins hjoins' ⟨_, hj, _, hj', rfl, iff_of_false hk hk'⟩

theorem Unrepeated.inhibitions (h : net.Unrepeated)
    (ht : transition ∈ net.transitions.map Transition.label) :
    (net.inhibitions transition).Pairwise fun e e' => e.1 ≠ e'.1 := by
  refine List.pairwise_filterMap.2 (List.Pairwise.imp (fun {arc arc'} hno e he e' he' heq => ?_) h)
  obtain ⟨hw, hj, hp⟩ := inhibition?_eq_some.1 he
  obtain ⟨hw', hj', hp'⟩ := inhibition?_eq_some.1 he'
  exact hno (joins_of_joint? hw hj hp ht) (joins_of_joint? hw' hj' hp' ht)
    ⟨_, hj, _, hj', congrArg (·, transition) heq, Iff.rfl⟩

/-! ## Deltas -/

/-- Of arcs of which one at most counts, the last is all of them. -/
theorem getLast?_eq_sum {l : List Int} (h : l.Pairwise fun _ _ => False) :
    l.getLast?.getD 0 = l.sum := by
  match l, h with
  | [], _ => rfl
  | [n], _ => exact (Int.add_zero n).symm
  | _ :: n :: _, h => exact ((List.pairwise_cons.1 h).1 n List.mem_cons_self).elim

theorem carried?_eq (arc : Arc) (place transition : String) : arc.carried? place transition =
    ((arc.weightAs? .input place transition).map Neg.neg).or
      (arc.weightAs? .output place transition) := by
  unfold Arc.carried? Arc.weightAs? joint?
  cases arc.inhibit.truthy <;> cases arc.source <;> cases arc.target <;> simp
  · split <;> rfl

theorem weightAs?_eq_none {kind kind' : LinkKind} (h : kind ≠ kind') {w : Int}
    (hw : arc.weightAs? kind place transition = some w) :
    arc.weightAs? kind' place transition = none := by
  have hj := (Option.ite_none_right_eq_some.1 hw).1
  exact if_neg fun hj' => h (Prod.mk.inj (Option.some.inj (hj.symm.trans hj'))).1

/-- What is carried between two nodes is what is brought to the place less what is taken from it. -/
theorem sum_carried (arcs : List Arc) (place transition : String) :
    (arcs.filterMap (Arc.carried? place transition)).sum =
      (arcs.filterMap (Arc.weightAs? .output place transition)).sum -
        (arcs.filterMap (Arc.weightAs? .input place transition)).sum := by
  induction arcs with
  | nil => rfl
  | cons arc rest ih =>
    have hc := carried?_eq arc place transition
    cases hin : arc.weightAs? .input place transition with
    | some w =>
      have hout : arc.weightAs? .output place transition = none :=
        weightAs?_eq_none (by decide) hin
      rw [hin] at hc
      rw [List.filterMap_cons_some hc, List.filterMap_cons_some hin,
        List.filterMap_cons_none hout, List.sum_cons, List.sum_cons, ih]
      omega
    | none =>
      rw [hin] at hc
      rw [List.filterMap_cons_none hin]
      cases hout : arc.weightAs? .output place transition with
      | some w =>
        rw [hout] at hc
        rw [List.filterMap_cons_some hc, List.filterMap_cons_some hout, List.sum_cons,
          List.sum_cons, ih]
        omega
      | none =>
        rw [hout] at hc
        rw [List.filterMap_cons_none hc, List.filterMap_cons_none hout, ih]

theorem flow_eq (h : net.Unrepeated) (hp : place ∈ net.places.map Place.label)
    (ht : transition ∈ net.transitions.map Transition.label) :
    net.flow place transition =
      net.total .output place transition - net.total .input place transition := by
  rw [flow, getLast?_eq_sum (h.carried hp ht), sum_carried]
  rfl

theorem total_perm (hp : arcs.Perm net.arcs) (kind : LinkKind) (place transition : String) :
    ({ net with arcs } : Net).total kind place transition = net.total kind place transition :=
  (hp.filterMap _).sum_eq

/-! ## Guards -/

/-- Under distinct keys it does not matter in which order entries are written. -/
theorem last?_perm {α : Type} {entries entries' : List (String × α)}
    (hd : entries.Pairwise fun e e' => e.1 ≠ e'.1) (hp : entries'.Perm entries) (key : String) :
    Table.last? entries' key = Table.last? entries key := by
  have hnone : ∀ {l : List (String × α)}, l.Pairwise (fun e e' => e.1 ≠ e'.1) →
      (l.filter fun e => decide (e.1 = key)).Pairwise fun _ _ => False := by
    intro l hl
    refine List.Pairwise.imp_of_mem (fun {e e'} he he' hne => ?_) (hl.filter _)
    have hkey : e.1 = key := of_decide_eq_true (List.mem_filter.1 he).2
    have hkey' : e'.1 = key := of_decide_eq_true (List.mem_filter.1 he').2
    exact hne (hkey.trans hkey'.symm)
  have hd' : entries'.Pairwise fun e e' => e.1 ≠ e'.1 :=
    (hp.pairwise_iff fun hne => Ne.symm hne).2 hd
  have hfilter := (hp.filter fun e => decide (e.1 = key)).eq_of_pairwise
    (fun _ _ _ _ hab _ => hab.elim) (hnone hd') (hnone hd)
  rw [Table.last?, hfilter, Table.last?]

theorem find?_guardsOf (hn : (net.places.map Place.label).Nodup)
    (ht : t.label ∈ net.transitions.map Transition.label) (place : String) :
    (net.guardsOf t.label).find? place =
      (Table.last? (net.inhibitions t.label) place).map (net.inhibitor place) := by
  have hfold : (t.compiled net.emptyVector net.links).guards =
      ((net.inhibitions t.label).map fun e => (e.1, net.inhibitor e.1 e.2)).foldl
        (fun guards e => Table.insert guards e.1 e.2) [] :=
    guards_foldl_joined (t := t.cleared net.emptyVector) hn ht net.arcs
  rw [← guards_compiled hn ht, hfold, Table.find?_foldl_insert, Table.last?_map]

/-! ## The whole net -/

theorem sameVectors_compiled (h : net.Unrepeated) (hn : (net.places.map Place.label).Nodup)
    (hp : arcs.Perm net.arcs) (ht : t.label ∈ net.transitions.map Transition.label) :
    (t.compiled net.emptyVector net.links).SameVectors
      (t.compiled ({ net with arcs } : Net).emptyVector ({ net with arcs } : Net).links) := by
  have h' : ({ net with arcs } : Net).Unrepeated := h.perm hp
  have hn' : (({ net with arcs } : Net).places.map Place.label).Nodup := hn
  have ht' : t.label ∈ ({ net with arcs } : Net).transitions.map Transition.label := ht
  rw [compiled_eq hn ht, compiled_eq hn' ht']
  refine ⟨rfl, rfl, rfl, List.map_congr_left fun p hmem => ?_, fun place => ?_⟩
  · have hplace : p.label ∈ net.places.map Place.label := List.mem_map_of_mem hmem
    rw [flow_eq h hplace ht, flow_eq h' hplace ht', total_perm hp, total_perm hp]
  · have hinhibitions : (({ net with arcs } : Net).inhibitions t.label).Perm
        (net.inhibitions t.label) := hp.filterMap _
    rw [find?_guardsOf hn ht, find?_guardsOf hn' ht', last?_perm (h.inhibitions ht) hinhibitions]
    rfl

/-- Compiling the arcs in another order gives every transition the same vectors. -/
theorem sameVectors_index (harcs : net.hasArcs = true) (h : net.Unrepeated)
    (hn : (net.places.map Place.label).Nodup) (hp : arcs.Perm net.arcs) :
    List.Forall₂ Transition.SameVectors net.index.1.transitions
      ({ net with arcs } : Net).index.1.transitions := by
  have harcs' : ({ net with arcs } : Net).hasArcs = true := harcs
  rw [index_fst harcs, index_fst harcs', List.forall₂_map_left_iff,
    List.forall₂_map_right_iff, List.forall₂_same]
  exact fun t ht => sameVectors_compiled h hn hp (List.mem_map_of_mem ht)

/-- Each entry of a delta is what the arcs between the two nodes come to. -/
theorem delta_index (harcs : net.hasArcs = true) (h : net.Unrepeated)
    (hn : (net.places.map Place.label).Nodup) (ht : t ∈ net.index.1.transitions) :
    t.delta = net.places.map fun p =>
      net.total .output p.label t.label - net.total .input p.label t.label := by
  rw [index_fst harcs] at ht
  obtain ⟨t, hmem, rfl⟩ := List.mem_map.1 ht
  have hlabel : t.label ∈ net.transitions.map Transition.label := List.mem_map_of_mem hmem
  rw [compiled_eq hn hlabel]
  exact List.map_congr_left fun p hp => flow_eq h (List.mem_map_of_mem hp) hlabel

theorem isEmpty_index_snd_perm (harcs : net.hasArcs = true) (hp : arcs.Perm net.arcs) :
    ({ net with arcs } : Net).index.2.isEmpty = net.index.2.isEmpty := by
  have hlink : ({ net with arcs } : Net).link? = net.link? := funext (link?_congr rfl rfl)
  have harcs' : ({ net with arcs } : Net).hasArcs = true := harcs
  rw [isEmpty_index_snd harcs, isEmpty_index_snd harcs', decide_eq_decide]
  simp only [joins_congr hlink]
  exact forall_congr' fun arc => imp_congr_left hp.mem_iff

end Net

namespace Draft

open Act

variable {d : Draft} {arcs : List Arc}

/-- Compiling a net with arcs no two of which write the same entry, some of which may be malformed,
before and after the arcs were put into another order.  The verdict is the same, and so is every
delta and every guard; and a delta has at each place the weights of the arcs from the transition to
the place less those of the arcs from the place to the transition. -/
theorem apply_index_perm (harcs : d.net.hasArcs = true)
    (hn : (d.net.places.map Place.label).Nodup) (h : d.net.Unrepeated)
    (hp : arcs.Perm d.net.arcs) :
    ∃ (verdict : Bool) (d₁ d₂ : Draft), apply index d = (.ok verdict, d₁) ∧
      apply index { d with net := { d.net with arcs } } = (.ok verdict, d₂) ∧
      d₁.net.indexed = verdict ∧ d₂.net.indexed = verdict ∧
      List.Forall₂ Transition.SameVectors d₁.net.transitions d₂.net.transitions ∧
      ∀ t ∈ d₁.net.transitions, t.delta = d.net.places.map fun p =>
        d.net.total .output p.label t.label - d.net.total .input p.label t.label := by
  obtain ⟨notes, hrun⟩ := apply_index d
  obtain ⟨notes', hrun'⟩ := apply_index { d with net := { d.net with arcs } }
  have hverdict := Net.isEmpty_index_snd_perm harcs hp
  rw [hverdict] at hrun'
  exact ⟨_, _, _, hrun, hrun', Net.indexed_index d.net, (Net.indexed_index _).trans hverdict,
    Net.sameVectors_index harcs h hn hp, fun _ ht => Net.delta_index harcs h hn ht⟩

end Draft

/-! ## A press with damaged arcs -/

namespace Press

/-- The oil inhibits the transition that also takes from it, and two of the arcs are damaged. -/
def arcs : List Arc :=
  [{ source := .place "olives", target := .transition "squeeze", weight := .int 5 },
    { source := .place "oil", target := .transition "squeeze", weight := .int 7,
      inhibit := .bool true },
    { source := .transition "squeeze", target := .place "oil", weight := .int 0 },
    { source := .transition "squeeze", target := .place "oil", weight := .int 2 },
    { source := .place "olives", target := .transition "squeeze", weight := .int 9,
      inhibit := .int 1 },
    { source := .place "oil", target := .place "olives" }]

def net : Net where
  schema := .text "press"
  places := [{ label := "olives", initial := 10 }, { label := "oil" }]
  transitions := [{ label := "squeeze" }]
  arcs := arcs

def draft : Draft := { net }

end Press

namespace Draft

open Act Press

/-- With the arcs the other way round the guards come in another order, and nothing else changes. -/
theorem press_index_perm : draft.net.Unrepeated ∧ arcs.reverse.Perm draft.net.arcs ∧
    ∃ (d₁ d₂ : Draft), apply index draft = (.ok false, d₁) ∧
      apply index { draft with net := { draft.net with arcs := arcs.reverse } } = (.ok false, d₂) ∧
      List.Forall₂ Transition.SameVectors d₁.net.transitions d₂.net.transitions ∧
      d₁.net.transitions.map (fun t => (t.delta, t.guards.map Prod.fst)) =
        [([-5, 2], ["oil", "olives"])] ∧
      d₂.net.transitions.map (fun t => (t.delta, t.guards.map Prod.fst)) =
        [([-5, 2], ["olives", "oil"])] := by
  have hu : draft.net.Unrepeated := by decide
  have hp : arcs.reverse.Perm draft.net.arcs := List.reverse_perm arcs
  obtain ⟨verdict, d₁, d₂, h₁, h₂, hverdict, -, hsame, -⟩ := apply_index_perm rfl (by decide) hu hp
  obtain ⟨notes, hrun₁⟩ := apply_index draft
  obtain ⟨notes', hrun₂⟩ :=
    apply_index { draft with net := { draft.net with arcs := arcs.reverse } }
  obtain ⟨hfst, hd₁⟩ := Prod.mk.inj (h₁.symm.trans hrun₁)
  obtain ⟨-, hd₂⟩ := Prod.mk.inj (h₂.symm.trans hrun₂)
  have hfalse : verdict = false := (Except.ok.inj hfst).trans (by decide)
  rw [hfalse] at h₁ h₂
  have hvectors : draft.net.index.1.transitions.map (fun t => (t.delta, t.guards.map Prod.fst)) =
      [([-5, 2], ["oil", "olives"])] := by decide
  have hvectors' : ({ draft.net with arcs := arcs.reverse } : Net).index.1.transitions.map
      (fun t => (t.delta, t.guards.map Prod.fst)) = [([-5, 2], ["olives", "oil"])] := by decide
  refine ⟨hu, hp, d₁, d₂, h₁, h₂, hsame, ?_, ?_⟩
  · rw [hd₁]
    exact hvectors
  · rw [hd₂]
    exact hvectors'

end Draft

/-- Of two arcs that write the same entry the later one stands, so the order of these matters. -/
example (arc : Arc) (h : arc = { source := .place "oil", target := .transition "squeeze" }) :
    [arc :: Press.arcs, Press.arcs ++ [arc]].map (fun arcs =>
      ({ Press.net with arcs } : Net).index.1.transitions.map Transition.delta) =
        [[[-5, 2]], [[-5, -1]]] := by
  subst h
  decide

end TokenNet
