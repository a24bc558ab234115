import TokenNet.Proofs.WellFormed
/-!
Arcs that say nothing.  Main statement: `Draft.apply_index_of_hasArcs`.  Each arc that joins no
place and transition of the net is reported once, in its turn, and that is all it does: the verdict
is whether there is such an arc, and the vectors are those of the net without them.
-/

namespace TokenNet

namespace Net

variable {net : Net}

instance (net : Net) (arc : Arc) : Decidable (net.Joins arc) :=
  decidable_of_iff _ isSome_link?_iff_joins

/-- What is wrong with the arcs that join nothing, each under its number. -/
def arcFlaws (net : Net) (i : Nat) (arcs : List Arc) : List Flaw :=
  ((arcs.zipIdx i).filter fun e => !decide (net.Joins e.1)).map fun e =>
    if e.1.weight.positive?.isSome then .malformed e.2 e.1 else .invalidWeight e.2 e.1

/-- The net with the arcs that join something. -/
def pruned (net : Net) : Net := { net with arcs := net.arcs.filter fun arc => net.Joins arc }

theorem flaw_finding (net : Net) (i : Nat) (arc : Arc) : (net.finding i arc).flaw =
    if arc.weight.positive?.isSome then .malformed i arc else .invalidWeight i arc := by
  unfold finding
  cases arc.weight.positive? <;> rfl

theorem joins_congr {net net' : Net} (h : net'.link? = net.link?) (arc : Arc) :
    net'.Joins arc ↔ net.Joins arc := by
  rw [← isSome_link?_iff_joins, ← isSome_link?_iff_joins, h]

/-- One report for each arc that joins nothing, in the order of the arcs. -/
theorem flaws_attachArcs (net : Net) (i : Nat) (arcs : List Arc) :
    (net.attachArcs i arcs).2.map Finding.flaw = net.arcFlaws i arcs := by
  induction arcs generalizing net i with
  | nil => rfl
  | cons arc rest ih =>
    simp only [attachArcs, arcFlaws, List.zipIdx_cons]
    cases hl : net.link? arc with
    | some link =>
      have hj : net.Joins arc := isSome_link?_iff_joins.1 (by rw [hl]; rfl)
      have hrest : (net.attach link).arcFlaws (i + 1) rest = net.arcFlaws (i + 1) rest := by
        simp only [arcFlaws, joins_congr (link?_attach net link)]
      rw [List.filter_cons_of_neg (by simpa using hj), ih, hrest]
      rfl
    | none =>
      have hj : ¬ net.Joins arc := fun h => by
        have hsome := isSome_link?_iff_joins.2 h
        rw [hl] at hsome
        cases hsome
      rw [List.filter_cons_of_pos (by simpa using hj), List.map_cons, List.map_cons, ih,
        flaw_finding]
      rfl

theorem flaws_index (h : net.hasArcs = true) :
    net.index.2.map Finding.flaw = net.arcFlaws 0 net.arcs := by
  have hfindings : net.index.2 = (net.cleared.attachArcs 0 net.arcs).2 := by
    simp only [index, h, if_true]
  rw [hfindings, flaws_attachArcs]
  simp only [arcFlaws, joins_congr (link?_cleared net)]

theorem isEmpty_index_snd (h : net.hasArcs = true) :
    net.index.2.isEmpty = decide (∀ arc ∈ net.arcs, net.Joins arc) := by
  rw [Bool.eq_iff_iff, List.isEmpty_iff, decide_eq_true_iff, index_snd_eq_nil h]
  simp only [isSome_link?_iff_joins]

/-- Arcs that join nothing have no part in what the net is compiled from. -/
theorem links_pruned (net : Net) : net.pruned.links = net.links := by
  have hlink : net.pruned.link? = net.link? := funext (link?_congr rfl rfl)
  show (net.arcs.filter fun arc => net.Joins arc).filterMap net.pruned.link? = _
  rw [hlink, List.filterMap_filter]
  refine List.filterMap_congr fun arc _ => ?_
  by_cases hj : net.Joins arc
  · rw [if_pos (decide_eq_true hj)]
  · have hnone : net.link? arc = none := by
      rw [← Option.not_isSome_iff_eq_none]
      exact fun hsome => hj (isSome_link?_iff_joins.1 hsome)
    rw [if_neg (by simpa using hj), hnone]

theorem transitions_index_pruned (h : net.hasArcs = true) :
    net.pruned.index.1.transitions = net.index.1.transitions := by
  rw [index_fst (show net.pruned.hasArcs = true from h), index_fst h, links_pruned]
  rfl

end Net

namespace Draft

open Act

variable {d : Draft}

/-- Whatever the arcs are, all of them are looked at.  The verdict, which is also what the net is
marked with, is whether each joins something; there is one warning for each that does not, in the
order of the arcs, and a trace behind them; and the vectors are those of the net without these
arcs. -/
theorem apply_index_of_hasArcs (h : d.net.hasArcs = true) :
    ∃ (findings : List Finding) (trace : Note) (d' : Draft),
      apply index d = (.ok (decide (∀ arc ∈ d.net.arcs, d.net.Joins arc)), d') ∧
      d'.net.indexed = decide (∀ arc ∈ d.net.arcs, d.net.Joins arc) ∧
      d'.notes = d.notes ++ findings.map (Note.finding d.self d.net.schema) ++ [trace] ∧
      trace.level = .debug ∧
      (∀ found ∈ findings, (Note.finding d.self d.net.schema found).level = .warning) ∧
      findings.map Finding.flaw = d.net.arcFlaws 0 d.net.arcs ∧
      d'.net.transitions = d.net.pruned.index.1.transitions := by
  have hafter : d.net.index.1.hasArcs = true := by
    rw [Net.index_fst h]
    exact h
  have hrun : ∃ trace : Note, trace.level = .debug ∧ apply index d =
      (.ok d.net.index.2.isEmpty, { d with
        net := d.net.index.1
        notes := d.notes ++ d.net.index.2.map (.finding d.self d.net.index.1.schema) ++
          [trace] }) := by
    simp only [index, apply_bind, apply_drafted, apply_edit, report, apply_modify, apply_get,
      hafter, if_true, apply_pure]
    exact ⟨_, rfl, rfl⟩
  have hschema : d.net.index.1.schema = d.net.schema := by rw [Net.index_fst h]
  obtain ⟨trace, hlevel, hrun⟩ := hrun
  rw [Net.isEmpty_index_snd h, hschema] at hrun
  exact ⟨d.net.index.2, trace, _, hrun, (Net.indexed_index d.net).trans (Net.isEmpty_index_snd h),
    rfl, hlevel, fun _ _ => rfl, Net.flaws_index h, (Net.transitions_index_pruned h).symm⟩

end Draft

/-! ## A dock with damaged arcs -/

namespace Dock

/-- Arcs that join nothing stand before, between and behind the two that do: one from a place of
another net, one that inhibits from a transition, one whose weight is a truth value, one between two
places. -/
def damaged : Draft := { draft with
  net := { draft.net with
    arcs := [{ source := .other (.node ⟨1, .place, "quay"⟩), target := .transition "load" },
      { source := .place "quay", target := .transition "load", weight := .int 2 },
      { source := .transition "load", target := .place "ship", inhibit := .bool true },
      { source := .place "quay", target := .transition "load", weight := .bool true },
      { source := .transition "load", target := .place "ship", weight := .int 2 },
      { source := .place "ship", target := .place "quay" }] } }

end Dock

namespace Draft

open Act Dock

/-- Four of six arcs are reported, and the other two are compiled. -/
theorem apply_index_damaged : damaged.net.hasArcs = true ∧
    ∃ (findings : List Finding) (trace : Note) (d' : Draft),
      apply index damaged = (.ok false, d') ∧ d'.net.indexed = false ∧
      d'.notes = damaged.notes ++ findings.map (Note.finding 0 (.text "dock")) ++ [trace] ∧
      findings.map Finding.flaw =
        [.malformed 0
            { source := .other (.node ⟨1, .place, "quay"⟩), target := .transition "load" },
          .malformed 2
            { source := .transition "load", target := .place "ship", inhibit := .bool true },
          .invalidWeight 3
            { source := .place "quay", target := .transition "load", weight := .bool true },
          .malformed 5 { source := .place "ship", target := .place "quay" }] ∧
      d'.net.transitions.map Transition.delta = [[-2, 2]] := by
  obtain ⟨findings, trace, d', hrun, hindexed, hnotes, -, -, hflaws, hvectors⟩ :=
    apply_index_of_hasArcs (d := damaged) rfl
  refine ⟨rfl, findings, trace, d', hrun, hindexed, hnotes, hflaws, ?_⟩
  rw [hvectors]
  rfl

end Draft

end TokenNet
