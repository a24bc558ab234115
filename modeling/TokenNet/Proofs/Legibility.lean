import TokenNet.Proofs.Diagram
import TokenNet.Proofs.Writing
/-!
What can be read off a diagram.  A net is drawn exactly if every number and role that the diagram
shows can be written, `Net.diagram_isOk_iff`.  Main statement: `Net.Made.eqVectors_of_diagram`.  Two
nets that have the same nodes, and are drawn alike, have the same deltas and the same guards, as
long as no two nodes share an id.
-/

namespace TokenNet

/-! ## What is needed for a net to be drawn -/

namespace Net

/-- Every number and every role that the diagram shows can be written. -/
structure Drawable (g : Glossary) (net : Net) : Prop where
  places : ∀ p ∈ net.places, Decimal.Brief p.initial ∧ Decimal.Brief p.capacity
  roles : ∀ t ∈ net.transitions, ∃ label, t.roleLabel = .ok label ∧
    ∀ d ∈ label, (d.plain g).isSome = true
  vectors : ∀ t ∈ net.transitions, t.Brief

variable {net net' : Net} {t t' : Transition} {g : Glossary}

theorem placeLine_isOk_iff {p : Place} :
    (∃ s, placeLine p = .ok s) ↔ Decimal.Brief p.initial ∧ Decimal.Brief p.capacity := by
  have hcapacity : (if p.capacity = 0 then some "" else phrase ["/", intText p.capacity]).isSome =
      true ↔ Decimal.Brief p.capacity := by
    split
    next h => exact iff_of_true rfl (h ▸ Decimal.brief_zero)
    · simp [isSome_phrase, isSome_intText_iff]
  simp only [placeLine]
  rw [line_isOk_iff, ← hcapacity, ← isSome_intText_iff]
  simp

theorem transitionLine_isOk_iff : (∃ s, transitionLine g t = .ok s) ↔
    ∃ label, t.roleLabel = .ok label ∧ ∀ d ∈ label, (d.plain g).isSome = true := by
  cases hl : t.roleLabel with
  | error e => simp [transitionLine, hl, bind, Except.bind]
  | ok label =>
    have hline : transitionLine g t = line [diagramId 't' t.label, "[\"", t.label,
        label.elim (some "") fun label => phrase ["<br/>", label.plain g], "\"]"] := by
      rw [transitionLine, hl]
      rfl
    rw [hline, line_isOk_iff]
    cases label <;> simp [isSome_phrase]

theorem brief_ofFlow?_iff {a : Place × Int} :
    (∀ e ∈ Edge.ofFlow? t.label a, Decimal.Brief e.weight) ↔ Decimal.Brief a.2 := by
  obtain ⟨p, v⟩ := a
  simp only [Edge.ofFlow?]
  split
  next h => exact iff_of_true (by simp) (h ▸ Decimal.brief_zero)
  · simp only [Option.mem_some, forall_eq']
    exact Decimal.brief_natAbs

/-- All entries of a guard but one are zero. -/
theorem brief_ofGuard_iff (hv : net.VectorsFit) (ht : t ∈ net.transitions) {a : String × Guard}
    (ha : a ∈ t.guards) :
    Decimal.Brief (Edge.ofGuard t.label a).weight ↔ ∀ v ∈ a.2.delta, Decimal.Brief v := by
  obtain ⟨i, w, ho, -, -, hdelta⟩ := guardFits_iff.1 (hv.guards t ht a.1 a.2 ha)
  have hi := offset_lt ho
  have hzeros : ∀ v ∈ net.emptyVector, Decimal.Brief v := fun v hmem => by
    rw [(List.mem_replicate.1 hmem).2]
    exact Decimal.brief_zero
  rw [Edge.ofGuard, Decimal.brief_natAbs, hdelta, sum_guard net hi]
  exact ⟨Transition.brief_set hzeros i, fun hall => hall _ (List.mem_set (by simpa using hi) _)⟩

theorem brief_edgesOf_iff (hv : net.VectorsFit) (ht : t ∈ net.transitions) :
    (∀ e ∈ net.edgesOf t, Decimal.Brief e.weight) ↔ t.Brief := by
  have hdelta : (net.places.zip t.delta).map Prod.snd = t.delta :=
    List.map_snd_zip (Nat.le_of_eq (hv.delta t ht))
  have hentries : (∀ v ∈ t.delta, Decimal.Brief v) ↔
      ∀ a ∈ net.places.zip t.delta, ∀ e ∈ Edge.ofFlow? t.label a, Decimal.Brief e.weight := by
    simp only [brief_ofFlow?_iff]
    conv_lhs => rw [← hdelta, List.forall_mem_map]
  have hguards : (∀ a ∈ t.guards, ∀ v ∈ a.2.delta, Decimal.Brief v) ↔
      ∀ a ∈ t.guards, Decimal.Brief (Edge.ofGuard t.label a).weight :=
    forall₂_congr fun a ha => (brief_ofGuard_iff hv ht ha).symm
  rw [edgesOf, List.forall_mem_append, List.forall_mem_map, ← hguards]
  constructor
  · rintro ⟨hflows, hguards⟩
    exact ⟨hentries.2 fun a ha e he => hflows e (List.mem_filterMap.2 ⟨a, ha, he⟩), hguards⟩
  · rintro ⟨hdelta, hguards⟩
    refine ⟨fun e he => ?_, hguards⟩
    obtain ⟨a, ha, he⟩ := List.mem_filterMap.1 he
    exact hentries.1 hdelta a ha e he

/-- A net is drawn exactly if what the diagram shows can be written. -/
theorem diagram_isOk_iff (hv : net.VectorsFit) :
    (∃ text, net.diagram g = .ok text) ↔ net.Drawable g := by
  have hplaces : (∃ ps, net.places.mapM placeLine = .ok ps) ↔
      ∀ p ∈ net.places, Decimal.Brief p.initial ∧ Decimal.Brief p.capacity := by
    simp only [Failure.mapM_isOk_iff, placeLine_isOk_iff]
  have htransitions : (∃ ts, net.transitions.mapM (transitionLine g) = .ok ts) ↔
      ∀ t ∈ net.transitions, ∃ label, t.roleLabel = .ok label ∧
        ∀ d ∈ label, (d.plain g).isSome = true := by
    simp only [Failure.mapM_isOk_iff, transitionLine_isOk_iff]
  have hedges : (∃ es, net.edges.mapM Edge.draw = .ok es) ↔ ∀ t ∈ net.transitions, t.Brief := by
    rw [Failure.mapM_isOk_iff, edges, List.forall_mem_flatMap]
    refine forall₂_congr fun t ht => ?_
    simp only [Edge.draw_isOk_iff]
    exact brief_edgesOf_iff hv ht
  rw [diagram, diagramLines_eq hv]
  constructor
  · rintro ⟨text, h⟩
    obtain ⟨lines, h, -⟩ := Failure.ok_of_bind h
    obtain ⟨ps, hp, h⟩ := Failure.ok_of_bind h
    obtain ⟨ts, ht, h⟩ := Failure.ok_of_bind h
    obtain ⟨es, he, -⟩ := Failure.ok_of_bind h
    exact ⟨hplaces.1 ⟨ps, hp⟩, htransitions.1 ⟨ts, ht⟩, hedges.1 ⟨es, he⟩⟩
  · intro h
    obtain ⟨ps, hp⟩ := hplaces.2 h.places
    obtain ⟨ts, ht⟩ := htransitions.2 h.roles
    obtain ⟨es, he⟩ := hedges.2 h.vectors
    rw [hp, ht, he]
    exact ⟨_, rfl⟩

end Net

/-! ## Reading the lines back -/

/-- Lines that hold no line break can be told apart behind the same text. -/
theorem eq_of_intercalate {head lines lines' : List String} (hne : head ≠ [])
    (hl : ∀ line ∈ lines, '\n' ∉ line.toList) (hl' : ∀ line ∈ lines', '\n' ∉ line.toList)
    (h : "\n".intercalate (head ++ lines) = "\n".intercalate (head ++ lines')) :
    lines = lines' := by
  have htail : ∀ lines : List String, "\n".intercalate (head ++ lines) =
      "\n".intercalate head ++ "\n".intercalate ("" :: lines) := by
    intro lines
    cases lines with
    | nil => simp
    | cons line rest =>
      rw [String.intercalate_append_of_ne_nil hne (List.cons_ne_nil _ _),
        String.intercalate_cons_cons, String.empty_append, String.append_assoc]
  have hsplit : ∀ lines : List String, (∀ line ∈ lines, '\n' ∉ line.toList) →
      ("\n".intercalate ("" :: lines)).toList.splitOn '\n' = [] :: lines.map String.toList := by
    intro lines hl
    rw [String.toList_intercalate]
    exact List.splitOn_intercalate '\n' (by simpa using hl) (List.cons_ne_nil _ _)
  rw [htail, htail, String.append_right_inj] at h
  have hlists := congrArg (fun text => text.toList.splitOn '\n') h
  simp only [hsplit lines hl, hsplit lines' hl', List.cons.injEq, true_and] at hlists
  exact List.map_injective_iff.2 (fun _ _ => String.toList_inj.1) hlists

namespace Net

/-- The places have the same labels and counts, the transitions the same labels and roles. -/
structure SameNodes (net net' : Net) : Prop where
  places : net'.places.map (fun p => (p.label, p.initial, p.capacity)) =
    net.places.map fun p => (p.label, p.initial, p.capacity)
  transitions : net'.transitions.map (fun t => (t.label, t.roleLabel)) =
    net.transitions.map fun t => (t.label, t.roleLabel)

end Net

/-- The transitions have the same delta and the same guards in the same order, wherever truth values
may have been given for entries. -/
structure Transition.EqVectors (t t' : Transition) : Prop where
  delta : t'.delta = t.delta
  guards : t'.guards.map (fun e => (e.1, e.2.label, e.2.delta)) =
    t.guards.map fun e => (e.1, e.2.label, e.2.delta)

namespace Net

variable {net net' : Net} {t t' : Transition} {g : Glossary} {text : String}

theorem SameNodes.placeLabels (h : net.SameNodes net') :
    net'.places.map Place.label = net.places.map Place.label := by
  simpa only [List.map_map, Function.comp_def] using congrArg (List.map Prod.fst) h.places

theorem SameNodes.transitionLabels (h : net.SameNodes net') :
    net'.transitions.map Transition.label = net.transitions.map Transition.label := by
  simpa only [List.map_map, Function.comp_def] using congrArg (List.map Prod.fst) h.transitions

theorem SameNodes.placeLines (h : net.SameNodes net') :
    net'.places.mapM placeLine = net.places.mapM placeLine := by
  refine Failure.mapM_congr ?_
  have hplaces := h.places
  rw [← List.forall₂_eq_eq_eq, List.forall₂_map_left_iff, List.forall₂_map_right_iff] at hplaces
  refine hplaces.imp fun p p' hp => ?_
  obtain ⟨hlabel, hinitial, hcapacity⟩ : p.label = p'.label ∧ p.initial = p'.initial ∧
    p.capacity = p'.capacity := by simpa using hp
  simp only [placeLine, hlabel, hinitial, hcapacity]

theorem SameNodes.transitionLines (h : net.SameNodes net') (g : Glossary) :
    net'.transitions.mapM (transitionLine g) = net.transitions.mapM (transitionLine g) := by
  refine Failure.mapM_congr ?_
  have htransitions := h.transitions
  rw [← List.forall₂_eq_eq_eq, List.forall₂_map_left_iff, List.forall₂_map_right_iff]
    at htransitions
  refine htransitions.imp fun t t' ht => ?_
  obtain ⟨hlabel, hrole⟩ := Prod.mk.inj ht
  simp only [transitionLine, hlabel, hrole]

theorem SameNodes.readApart (h : net.SameNodes net') (ha : net.ReadApart) : net'.ReadApart := by
  refine ⟨?_, ?_⟩
  · rw [h.placeLabels]
    exact ha.places
  · rw [h.transitionLabels]
    exact ha.transitions

theorem SameNodes.among (h : net.SameNodes net') {e : Edge} (he : e.Among net') : e.Among net :=
  ⟨h.placeLabels ▸ he.place, h.transitionLabels ▸ he.transition, he.positive⟩

theorem ReadApart.nodup_places (h : net.ReadApart) : (net.places.map Place.label).Nodup :=
  h.places.of_map

theorem ReadApart.nodup_transitions (h : net.ReadApart) :
    (net.transitions.map Transition.label).Nodup :=
  h.transitions.of_map

theorem among_of_mem_edges (hn : (net.places.map Place.label).Nodup) (hv : net.VectorsFit)
    {e : Edge} (he : e ∈ net.edges) : e.Among net := by
  obtain ⟨t, ht, he⟩ := List.mem_flatMap.1 he
  exact ((mem_edgesOf hn hv ht).1 he).among ht

/-! ## From the text to the edges -/

theorem ReadApart.eq_of_drawn (h : net.ReadApart) {edges edges' : List Edge} {lines : List String}
    (hd : List.Forall₂ (fun e line => e.draw = .ok line) edges lines)
    (hd' : List.Forall₂ (fun e line => e.draw = .ok line) edges' lines)
    (he : ∀ e ∈ edges, e.Among net) (he' : ∀ e ∈ edges', e.Among net) : edges' = edges := by
  induction hd generalizing edges' with
  | nil =>
    cases hd'
    rfl
  | cons hline _ ih =>
    cases hd' with
    | cons hline' hrest' =>
      rw [List.forall_mem_cons] at he he'
      rw [h.eq_of_draw he.1 he'.1 hline hline', ih hrest' he.2 he'.2]

theorem break_not_mem_of_drawn {edges : List Edge} {lines : List String}
    (hd : List.Forall₂ (fun e line => e.draw = .ok line) edges lines)
    (he : ∀ e ∈ edges, e.Among net) : ∀ line ∈ lines, '\n' ∉ line.toList := by
  induction hd with
  | nil => exact fun _ h => absurd h List.not_mem_nil
  | @cons e line edges lines hline _ ih =>
    rw [List.forall_mem_cons] at he ⊢
    refine ⟨?_, ih he.2⟩
    have hbrief := Edge.draw_isOk_iff.1 ⟨line, hline⟩
    rw [Edge.draw_of_brief he.1.positive hbrief, Except.ok.injEq] at hline
    rw [← hline, String.toList_ofList]
    exact e.break_not_mem_text

theorem SameNodes.edges_eq (h : net.SameNodes net') (ha : net.ReadApart) (hv : net.VectorsFit)
    (hv' : net'.VectorsFit) (hd : net.diagram g = .ok text) (hd' : net'.diagram g = .ok text) :
    net'.edges = net.edges := by
  have hamong : ∀ e ∈ net.edges, e.Among net := fun _ => among_of_mem_edges ha.nodup_places hv
  have hamong' : ∀ e ∈ net'.edges, e.Among net := fun _ he =>
    h.among (among_of_mem_edges (h.readApart ha).nodup_places hv' he)
  obtain ⟨places, transitions, lines, hp, ht, hlines, htext⟩ := diagram_eq_ok hv hd
  obtain ⟨places', transitions', lines', hp', ht', hlines', htext'⟩ := diagram_eq_ok hv' hd'
  rw [h.placeLines, hp] at hp'
  rw [h.transitionLines, ht] at ht'
  cases hp'
  cases ht'
  have hsame : lines = lines' := eq_of_intercalate (List.cons_ne_nil _ _)
    (break_not_mem_of_drawn hlines hamong) (break_not_mem_of_drawn hlines' hamong')
    (htext.symm.trans htext')
  exact ha.eq_of_drawn hlines (hsame ▸ hlines') hamong hamong'

/-! ## From the edges to the vectors -/

theorem transition_kind_of_ofFlow? {a : Place × Int} {e : Edge}
    (h : Edge.ofFlow? t.label a = some e) : e.transition = t.label ∧ e.kind ≠ .inhibitor := by
  simp only [Edge.ofFlow?] at h
  split at h
  · cases h
  · obtain rfl := Option.some.inj h
    refine ⟨rfl, ?_⟩
    simp only
    split <;> decide

theorem transition_of_mem_edgesOf {e : Edge} (h : e ∈ net.edgesOf t) : e.transition = t.label := by
  rcases List.mem_append.1 h with h | h
  · obtain ⟨a, -, ha⟩ := List.mem_filterMap.1 h
    exact (transition_kind_of_ofFlow? ha).1
  · obtain ⟨a, -, rfl⟩ := List.mem_map.1 h
    rfl

/-- Each edge names its transition, so the edges of one are found among all. -/
theorem filter_edges (hn : (net.transitions.map Transition.label).Nodup)
    (ht : t ∈ net.transitions) :
    net.edges.filter (fun e => decide (e.transition = t.label)) = net.edgesOf t := by
  have hself : ∀ s : Transition, s.label = t.label →
      (net.edgesOf s).filter (fun e => decide (e.transition = t.label)) = net.edgesOf s :=
    fun s hs => List.filter_eq_self.2 fun e he =>
      decide_eq_true ((transition_of_mem_edgesOf he).trans hs)
  have hother : ∀ s : Transition, s.label ≠ t.label →
      (net.edgesOf s).filter (fun e => decide (e.transition = t.label)) = [] :=
    fun s hs => List.filter_eq_nil_iff.2 fun e he =>
      mt of_decide_eq_true (transition_of_mem_edgesOf he ▸ hs)
  rw [edges]
  generalize net.transitions = ts at hn ht ⊢
  induction ts with
  | nil => exact absurd ht List.not_mem_nil
  | cons s rest ih =>
    rw [List.map_cons, List.nodup_cons] at hn
    rw [List.flatMap_cons, List.filter_append]
    rcases List.mem_cons.1 ht with rfl | ht
    · have hrest : (rest.flatMap net.edgesOf).filter (fun e => decide (e.transition = t.label)) =
          [] := by
        rw [List.filter_flatMap, List.flatMap_eq_nil_iff]
        exact fun s hs => hother s fun hl => hn.1 (hl ▸ List.mem_map_of_mem hs)
      rw [hself t rfl, hrest, List.append_nil]
    · have hs : s.label ≠ t.label := fun hl => hn.1 (hl ▸ List.mem_map_of_mem ht)
      rw [hother s hs, List.nil_append, ih hn.2 ht]

theorem filter_edgesOf (net : Net) (t : Transition) :
    (net.edgesOf t).filter (fun e => decide (e.kind = .inhibitor)) =
      t.guards.map (Edge.ofGuard t.label) := by
  have hentries : ((net.places.zip t.delta).filterMap (Edge.ofFlow? t.label)).filter
      (fun e => decide (e.kind = .inhibitor)) = [] := by
    refine List.filter_eq_nil_iff.2 fun e he => ?_
    obtain ⟨a, -, ha⟩ := List.mem_filterMap.1 he
    exact mt of_decide_eq_true (transition_kind_of_ofFlow? ha).2
  have hguards : (t.guards.map (Edge.ofGuard t.label)).filter
      (fun e => decide (e.kind = .inhibitor)) = t.guards.map (Edge.ofGuard t.label) := by
    refine List.filter_eq_self.2 fun e he => ?_
    obtain ⟨a, -, rfl⟩ := List.mem_map.1 he
    rfl
  rw [edgesOf, List.filter_append, hentries, hguards, List.nil_append]

theorem delta_eq (hn : (net.places.map Place.label).Nodup)
    (hp : net'.places.map Place.label = net.places.map Place.label) (hl : t'.label = t.label)
    (hd : t.delta.length = net.size) (hd' : t'.delta.length = net'.size)
    (h : ∀ e, net.Connects t e ↔ net'.Connects t' e) : t'.delta = t.delta := by
  have hsize : net'.size = net.size := by simpa [size] using congrArg List.length hp
  have hentry : ∀ {i : Nat} {v : Int}, i < net.places.length → v ≠ 0 →
      (t.delta[i]? = some v ↔ t'.delta[i]? = some v) := by
    intro i v hi hne
    have hi' : i < net'.places.length := Nat.lt_of_lt_of_eq hi hsize.symm
    have hlabel : net'.places[i].label = net.places[i].label := by
      have hlabels := List.getElem_of_eq hp (i := i) (by rwa [List.length_map])
      rwa [List.getElem_map, List.getElem_map] at hlabels
    rw [← connects_iff hn (List.getElem?_eq_getElem hi) hne,
      ← connects_iff (hp ▸ hn) (List.getElem?_eq_getElem hi') hne, hlabel, hl]
    exact h _
  refine List.ext_getElem (by rw [hd, hd', hsize]) fun i hi' hi => ?_
  have hentry := fun {v : Int} (hne : v ≠ 0) => hentry (hd ▸ hi) hne
  by_cases hzero : t.delta[i] = 0
  · refine by_contra fun hne => ?_
    have hne' : t'.delta[i] ≠ 0 := fun h => hne (h.trans hzero.symm)
    have hback := (hentry hne').2 (List.getElem?_eq_getElem hi')
    exact hne (List.getElem_eq_iff hi |>.2 hback).symm
  · exact List.getElem_eq_iff hi' |>.2 ((hentry hzero).1 (List.getElem?_eq_getElem hi))

/-- A guard as its edge tells it. -/
def guardFrom (net : Net) (e : Edge) : String × String × Vec :=
  (e.place, e.place, net.emptyVector.set ((net.offset? e.place).getD 0) (-(e.weight : Int)))

theorem guardFrom_ofGuard (hv : net.VectorsFit) (ht : t ∈ net.transitions) {a : String × Guard}
    (ha : a ∈ t.guards) :
    net.guardFrom (Edge.ofGuard t.label a) = (a.1, a.2.label, a.2.delta) := by
  obtain ⟨i, w, ho, hkey, hw, hdelta⟩ := guardFits_iff.1 (hv.guards t ht a.1 a.2 ha)
  have hweight : ((Edge.ofGuard t.label a).weight : Int) = w := by
    rw [Edge.ofGuard, hdelta, sum_guard net (offset_lt ho)]
    show ((-w).natAbs : Int) = w
    omega
  simp only [guardFrom, hweight]
  simp only [Edge.ofGuard, hkey, ho, hdelta, Option.getD_some]

theorem guards_eq (hv : net.VectorsFit) (hv' : net'.VectorsFit) (ht : t ∈ net.transitions)
    (ht' : t' ∈ net'.transitions) (hp : net'.places.map Place.label = net.places.map Place.label)
    (h : t'.guards.map (Edge.ofGuard t'.label) = t.guards.map (Edge.ofGuard t.label)) :
    t'.guards.map (fun e => (e.1, e.2.label, e.2.delta)) =
      t.guards.map fun e => (e.1, e.2.label, e.2.delta) := by
  have hfrom : net'.guardFrom = net.guardFrom := by
    have hsize : net'.size = net.size := by simpa [size] using congrArg List.length hp
    funext e
    rw [guardFrom, guardFrom, emptyVector, emptyVector, hsize, offset?_eq, offset?_eq, hp]
  have hread := congrArg (List.map net.guardFrom) h
  rw [List.map_map, List.map_map] at hread
  rw [← List.map_congr_left fun a ha => guardFrom_ofGuard hv ht ha,
    ← List.map_congr_left fun a ha => guardFrom_ofGuard hv' ht' ha, hfrom]
  exact hread

theorem SameNodes.eqVectors (h : net.SameNodes net') (ha : net.ReadApart) (hv : net.VectorsFit)
    (hv' : net'.VectorsFit) (he : net'.edges = net.edges) :
    List.Forall₂ Transition.EqVectors net.transitions net'.transitions := by
  have ha' := h.readApart ha
  have hlabels := h.transitionLabels.symm
  rw [← List.forall₂_eq_eq_eq, List.forall₂_map_left_iff, List.forall₂_map_right_iff] at hlabels
  rw [List.forall₂_iff_zip] at hlabels ⊢
  refine ⟨hlabels.1, fun {t t'} hmem => ?_⟩
  obtain ⟨ht, ht'⟩ := List.of_mem_zip hmem
  have hl : t'.label = t.label := (hlabels.2 hmem).symm
  have hedges : net'.edgesOf t' = net.edgesOf t := by
    rw [← filter_edges ha.nodup_transitions ht, ← filter_edges ha'.nodup_transitions ht', he, hl]
  refine ⟨delta_eq ha.nodup_places h.placeLabels hl (hv.delta t ht) (hv'.delta t' ht') fun e => ?_,
    guards_eq hv hv' ht ht' h.placeLabels ?_⟩
  · rw [← mem_edgesOf ha.nodup_places hv ht, ← mem_edgesOf ha'.nodup_places hv' ht', hedges]
  · rw [← filter_edgesOf net t, ← filter_edgesOf net' t', hedges]

/-- Two nets that were made and not changed since, with the same nodes in the same order and no two
nodes under one id.  Each is drawn exactly if the numbers and roles that its diagram shows can be
written, and if both are drawn as the same text then every transition has the same delta and the
same guards in both. -/
theorem Made.eqVectors_of_diagram {config config' : Config} (h : Made config net)
    (h' : Made config' net') (hsame : net.SameNodes net') (hids : net.ids.Nodup) (g : Glossary) :
    ((∃ text, net.diagram g = .ok text) ↔ net.Drawable g) ∧
    ((∃ text, net'.diagram g = .ok text) ↔ net'.Drawable g) ∧
    (∀ text, net.diagram g = .ok text → net'.diagram g = .ok text →
      List.Forall₂ Transition.EqVectors net.transitions net'.transitions) := by
  have hv := h.sound.vectors
  have hv' := h'.sound.vectors
  have ha := nodup_ids_iff.1 hids
  exact ⟨diagram_isOk_iff hv, diagram_isOk_iff hv', fun text hd hd' =>
    hsame.eqVectors ha hv hv' (hsame.edges_eq ha hv hv' hd hd')⟩

end Net

/-! ## A kiln that is declared twice -/

namespace Kiln

/-- The glossary does not matter where roles are text. -/
abbrev glossary : Glossary := Origin.bare.glossary

/-- Three heaps of ash stop the fire. -/
def draft : Draft :=
  Draft.follow { self := 0, net := { schema := .text "kiln" }, config := .default }
    [.place (.text "wood") (.int 5) .null .null, .place (.text "ash bin") .null (.int 8) .null,
      .transition (.text "burn") (.text "stoker") .null,
      .arc (.place "ash bin") (.transition "burn") (.int 3) (.bool true),
      .arc (.place "wood") (.transition "burn") (.int 2) (.bool false),
      .arc (.transition "burn") (.place "ash bin") (.int 1) (.bool false)]

theorem reached : Draft.Reached .default draft :=
  Draft.Reached.follow (@Draft.Reached.opened .default 0 (.text "kiln") (.text "petriNet") _ rfl) _

def built : Draft := Act.after Draft.build draft

theorem made : built.net.Made .default := Net.made_of_build reached rfl

/-- The same kiln from its vectors. -/
def declared : Declaration where
  schema := some "kiln"
  places := [("wood", { initial := 5 }), ("ash bin", { capacity := 8 })]
  transitions := [("burn", {
    role := some "stoker"
    delta := some [-2, 1]
    guards := [("ash bin", { delta := [0, -3] })] })]

def text : String :=
  "graph LR\n    p_wood((\"wood<br/>5\"))\n    p_ash_bin((\"ash bin<br/>0/8\"))\n" ++
    "    t_burn[\"burn<br/>stoker\"]\n    p_wood -->|2| t_burn\n    t_burn --> p_ash_bin\n" ++
    "    p_ash_bin --o|3| t_burn"

theorem diagram_built : built.net.diagram glossary = .ok text := by rfl

theorem diagram_declared :
    (declared.load .object 0 {}).1.map (fun net => net.diagram glossary) = .ok (.ok text) := by rfl

theorem nodes_declared : (declared.load .object 0 {}).1.map (fun net =>
      (net.places.map (fun p => (p.label, p.initial, p.capacity)),
        net.transitions.map fun t => (t.label, t.roleLabel))) =
    .ok (built.net.places.map (fun p => (p.label, p.initial, p.capacity)),
      built.net.transitions.map fun t => (t.label, t.roleLabel)) := by rfl

/-- A transition that brings so many tokens. -/
def hoard (n : Int) : Declaration where
  schema := some "hoard"
  places := [("vault", {})]
  transitions := [("haul", { delta := some [n] })]

end Kiln

namespace Net

open Kiln

/-- The kiln that was built and the one loaded from its vectors are drawn alike, so their vectors
are the same. -/
theorem kiln_eqVectors : ∃ net, (declared.load .object 0 {}).1 = .ok net ∧ net.Made .default ∧
    built.net.Made .default ∧ built.net.SameNodes net ∧ built.net.ids.Nodup ∧
    built.net.diagram glossary = .ok text ∧ net.diagram glossary = .ok text ∧
    List.Forall₂ Transition.EqVectors built.net.transitions net.transitions := by
  obtain ⟨net, hnet, hnodes⟩ := Failure.ok_of_map nodes_declared
  obtain ⟨hplaces, htransitions⟩ := Prod.mk.inj hnodes
  have hdiagram := diagram_declared
  rw [hnet] at hdiagram
  have htext : net.diagram glossary = .ok text := Except.ok.inj hdiagram
  have hmade : net.Made .default := .loaded hnet
  have hsame : built.net.SameNodes net := ⟨hplaces, htransitions⟩
  have hids : built.net.ids.Nodup := by decide
  obtain ⟨-, -, heq⟩ := Made.eqVectors_of_diagram made hmade hsame hids glossary
  exact ⟨net, hnet, hmade, made, hsame, hids, diagram_built, htext, heq text diagram_built htext⟩

/-- A number of more than 4300 digits may stand in a delta, but not in a diagram. -/
theorem hoard_undrawn : ∃ net,
    ((hoard (10 ^ Decimal.maxRun : Nat)).load .object 0 {}).1 = .ok net ∧
    net.Made .default ∧ net.SameNodes net ∧ net.ids.Nodup ∧
    ∃ e, net.diagram glossary = .error e := by
  have hloads : ∀ n : Int, ((hoard n).load .object 0 {}).1.map (fun net =>
      (net.places.map Place.label, net.transitions.map Transition.label,
        net.transitions.map Transition.delta)) = .ok (["vault"], ["haul"], [[n]]) := by
    intro n
    rfl
  obtain ⟨net, hnet, hnodes⟩ := Failure.ok_of_map (hloads _)
  obtain ⟨hplaces, hrest⟩ := Prod.mk.inj hnodes
  obtain ⟨htransitions, hdeltas⟩ := Prod.mk.inj hrest
  have hids : net.ids.Nodup :=
    nodup_ids_iff.2 ⟨by rw [hplaces]; decide, by rw [htransitions]; decide⟩
  have hmade : net.Made .default := .loaded hnet
  refine ⟨net, hnet, hmade, ⟨rfl, rfl⟩, hids, ?_⟩
  cases hdiagram : net.diagram glossary with
  | error e => exact ⟨e, rfl⟩
  | ok text =>
    have hdrawable := (diagram_isOk_iff hmade.sound.vectors).1 ⟨text, hdiagram⟩
    obtain ⟨t, ht, hdelta⟩ := List.mem_map.1 (hdeltas ▸ List.mem_cons_self)
    have hbrief := (hdrawable.vectors t ht).delta _ (hdelta ▸ List.mem_cons_self)
    exact absurd hbrief (Nat.lt_irrefl _)

end Net

end TokenNet
