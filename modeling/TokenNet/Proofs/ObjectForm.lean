import TokenNet.Proofs.Alike
import TokenNet.Proofs.Reload
/-!
Loading a net from its own export in object form.  The vectors that compiling left pass the check
that vectors of other origin have to pass, so a plain net comes back as it is but without its arcs,
and runs as it did.  Main statement: `Draft.Reached.reload_object`.
-/

namespace TokenNet

open Act

namespace Declaration

open Draft

theorem guardOf_entry {key : String} {guard : Guard}
    (h : guard.label = key ∧ guard.truths = []) : guardOf key guard.entry = guard := by
  obtain ⟨rfl, ht⟩ := h
  cases guard with
  | mk label delta truths =>
    simp only at ht
    subst ht
    simp [guardOf, Guard.entry]

theorem guards_entry {t : Transition} (h : t.Whole) :
    (t.entry.guards.map fun e => (e.1, guardOf e.1 e.2)) = t.guards := by
  rw [Transition.entry, List.map_map]
  conv_rhs => rw [← List.map_id t.guards]
  refine List.map_congr_left fun e he => ?_
  simp only [Function.comp_apply, guardOf_entry (h.guards e.1 e.2 he), id_eq]

/-- A transition with the vectors that were compiled into another. -/
def lent (t s : Transition) : Transition :=
  { s with delta := t.delta, guards := t.entry.guards.map fun e => (e.1, guardOf e.1 e.2) }

theorem lent_bare {t : Transition} (h : t.Whole) : lent t t.bare = t.reread := by
  simp only [lent, guards_entry h, Transition.bare, Transition.reread, h.truths]

/-- Vectors go to the transition under whose label they stand, and to no other. -/
theorem transitions_modifyTransition {net : Net} {done rest : List Transition} {t : Transition}
    (h : net.transitions = done ++ t :: rest) (f : Transition → Transition)
    (hdone : t.label ∉ done.map Transition.label) (hrest : t.label ∉ rest.map Transition.label) :
    (net.modifyTransition t.label f).transitions = done ++ f t :: rest := by
  have hother : ∀ l : List Transition, t.label ∉ l.map Transition.label →
      (l.map fun s => if s.label = t.label then f s else s) = l := by
    intro l hl
    conv_rhs => rw [← List.map_id l]
    refine List.map_congr_left fun s hs => ?_
    have hne : s.label ≠ t.label := fun he => hl (he ▸ List.mem_map_of_mem hs)
    exact if_neg hne
  rw [Net.modifyTransition, h]
  simp only [List.map_append, List.map_cons, hother done hdone, hother rest hrest, if_true]

theorem apply_attachVectors {d : Draft} {done ts : List Transition} (hw : ∀ t ∈ ts, t.Whole)
    (hnew : (done.map Transition.label ++ ts.map Transition.label).Nodup)
    (h : d.net.transitions = done ++ ts.map Transition.bare) :
    apply (attachVectors (ts.map fun t => (t.label, t.entry))) d =
      (.ok (), { d with net := { d.net with
        transitions := done ++ ts.map Transition.reread } }) := by
  induction ts generalizing d done with
  | nil =>
    rw [List.map_nil] at h
    rw [List.map_nil, List.map_nil, ← h]
    rfl
  | cons t rest ih =>
    rw [List.forall_mem_cons] at hw
    have hlabels : (rest.map Transition.bare).map Transition.label = rest.map Transition.label := by
      simp [Transition.bare, Function.comp_def]
    have hsplit : (done ++ [t.reread]).map Transition.label ++ rest.map Transition.label =
        done.map Transition.label ++ (t :: rest).map Transition.label := by
      simp [Transition.reread]
    have hnodup := List.nodup_append.1 hnew
    have hdone : t.bare.label ∉ done.map Transition.label := fun hmem =>
      hnodup.2.2 _ hmem _ (List.mem_cons_self) rfl
    have hrest : t.bare.label ∉ (rest.map Transition.bare).map Transition.label := by
      rw [hlabels]
      exact (List.nodup_cons.1 hnodup.2.1).1
    have hedit : (d.net.modifyTransition t.label (lent t)).transitions =
        done ++ [t.reread] ++ rest.map Transition.bare := by
      rw [List.append_assoc, List.singleton_append, ← lent_bare hw.1]
      exact transitions_modifyTransition h (lent t) hdone hrest
    have hstep : apply (attachVectors ((t :: rest).map fun t => (t.label, t.entry))) d =
        apply (attachVectors (rest.map fun t => (t.label, t.entry)))
          { d with net := d.net.modifyTransition t.label (lent t) } := rfl
    rw [hstep, ih (d := { d with net := d.net.modifyTransition t.label (lent t) }) hw.2
      (hsplit ▸ hnew) hedit]
    simp [Net.modifyTransition]

end Declaration

namespace Net

variable {config : Config} {net : Net}

/-- A net as loading gives it back in object form. -/
def bereft (net : Net) : Net := { net.reread with arcs := [], arcsKept := .bool false }

theorem VectorsFit.bereft (h : net.VectorsFit) : net.bereft.VectorsFit := by
  have hsize : net.bereft.size = net.size := by simp [Net.bereft, Net.reread, size]
  have hoffset : ∀ label, net.bereft.offset? label = net.offset? label := by
    intro label
    simp [offset?_eq, Net.bereft, Net.reread, Place.reread, Function.comp_def]
  have hfits : ∀ key guard, net.bereft.guardFits key guard = net.guardFits key guard := by
    intro key guard
    rw [guardFits, guardFits, hsize, hoffset]
  refine ⟨fun t ht => ?_, fun t ht key guard hg => ?_⟩
  · obtain ⟨t', ht', rfl⟩ := List.mem_map.1 ht
    exact hsize ▸ h.delta t' ht'
  · obtain ⟨t', ht', rfl⟩ := List.mem_map.1 ht
    exact hfits key guard ▸ h.guards t' ht' key guard hg

theorem Built.index_bereft (h : net.Built config) :
    ({ net.bereft with indexed := false } : Net).index.2 = [] ∧
      ({ net.bereft with indexed := false } : Net).index.1 = net.bereft := by
  have hflaws : ({ net.bereft with indexed := false } : Net).vectorFindings = [] :=
    List.map_eq_nil_iff.2 (vectorFlaws_of_vectorsFit (h.vectors.bereft.congr rfl rfl))
  have hindexed : net.bereft.indexed = true := h.indexed
  have hkept : ({ net.bereft with indexed := false } : Net).hasArcs = false := rfl
  rw [index, hkept]
  simp only [Bool.false_eq_true, if_false, hflaws, List.isEmpty_nil, true_and]
  rw [← hindexed]

/-- What the object form declares before any vectors are attached. -/
def unlinked (net : Net) : Net := { Declaration.nodesOf net with arcsKept := .bool false }

theorem Built.apply_attachVectors (h : net.Built config) {d : Draft} (hd : d.net = net.unlinked)
    (schema : Datum) : ∃ left : Draft, left.net = net.bereft ∧
      apply (do
        Declaration.attachVectors net.declaration.transitions
        unless ← Draft.index do throw (.invalidVectors schema)) d = (.ok (), left) := by
  obtain ⟨hflaws, hindex⟩ := h.index_bereft
  have hdistinct : (([] : List Transition).map Transition.label ++
      net.transitions.map Transition.label).Nodup := h.declared.distinct.of_append_right
  have hbare : d.net.transitions = [] ++ net.transitions.map Transition.bare := by
    rw [hd]
    rfl
  have hvectors : apply (Declaration.attachVectors net.declaration.transitions) d =
      (.ok (), { d with net := { net.bereft with indexed := false } }) := by
    rw [declaration, Declaration.apply_attachVectors h.declared.whole hdistinct hbare, hd]
    rfl
  obtain ⟨notes, hi⟩ := Draft.apply_index { d with net := { net.bereft with indexed := false } }
  refine ⟨{ d with net := ({ net.bereft with indexed := false } : Net).index.1, notes }, hindex, ?_⟩
  rw [apply_bind_of_ok hvectors, apply_bind_of_ok hi]
  simp only [hflaws, List.isEmpty_nil, if_true]
  rfl

/-- The object form gives a net back without its arcs. -/
theorem Built.reload_eq_bereft (h : net.Built config) (hp : net.Plain)
    (hi : ∀ arc ∈ net.arcs, arc.inhibit.truth?.isSome = true) (g : Glossary) (self : Nat) :
    net.reload .object g self config = .ok net.bereft := by
  have hdeclare : ∃ left : Draft, left.net = net.bereft ∧
      apply (Declaration.Form.declare .object net.declaration)
        (Declaration.opened net self config) = (.ok (), left) := by
    have hnodes := Declaration.apply_declareNodes hp h.exportable self
    rw [Declaration.Form.declare, Declaration.objectForm, apply_bind_of_ok hnodes,
      apply_bind_of_ok (Draft.apply_edit _ _), apply_bind_of_ok (Draft.apply_drafted _)]
    dsimp only
    -- The warning about arcs comes or does not; it changes nothing but the notes.
    split
    · exact h.apply_attachVectors rfl _
    · rw [Draft.report, apply_bind_of_ok (apply_modify _ _)]
      exact h.apply_attachVectors rfl _
  obtain ⟨left, hleft, hdeclare⟩ := hdeclare
  exact hleft ▸ reload_ok hp h.exportable hi hdeclare g

theorem alike_bereft (net : Net) : net.Alike net.bereft := by
  refine ⟨rfl, rfl, ?_, ?_, rfl, fun label => ?_⟩
  · simp [bereft, reread, initialVector, Place.reread, Function.comp_def]
  · simp [bereft, reread, capacityVector, Place.reread, Function.comp_def]
  · have hlabel : (fun t : Transition => decide (t.label = label)) ∘ Transition.reread =
        fun t => decide (t.label = label) := rfl
    have hunplaced : Transition.unplaced ∘ Transition.reread = Transition.unplaced := rfl
    rw [transition?, transition?, bereft, reread, List.find?_map, hlabel, Option.map_map, hunplaced]

end Net

/-! ## Its export -/

/-- The entry under one name replaced. -/
def Datum.withEntry (d : Datum) (name : String) (value : Datum) : Datum :=
  match d with
  | .map entries => .map (entries.map fun e => if e.1.text? = some name then (e.1, value) else e)
  | d => d

namespace Net

variable {config : Config} {net : Net}

theorem withEntry_arcs (net : Net) : net.exported.withEntry "arcs" (.list []) =
    ({ net with arcs := [] } : Net).exported := by
  simp [exported, named, Datum.withEntry, Datum.text?]

theorem toDatum_bereft (hp : net.Plain) (he : net.Exportable config) :
    net.bereft.toDatum = .ok ({ net with arcs := [] } : Net).reread.exported := by
  have hplain : net.bereft.Plain :=
    ⟨hp.reread.schema, hp.reread.places, hp.reread.transitions, hp.reread.tagged⟩
  have hexportable : net.bereft.Exportable config :=
    ⟨he.reread.distinct, he.reread.named, he.reread.sound, he.reread.whole,
      fun _ harc => absurd harc List.not_mem_nil⟩
  exact hplain.toDatum_eq hexportable

theorem equal_exported_bereft (hp : net.Plain) (he : net.Exportable config) :
    ({ net with arcs := [] } : Net).reread.exported.equal
      (net.exported.withEntry "arcs" (.list [])) = true := by
  have hplain : ({ net with arcs := [] } : Net).Plain :=
    ⟨hp.schema, hp.places, hp.transitions, hp.tagged⟩
  have hexportable : ({ net with arcs := [] } : Net).Exportable config :=
    ⟨he.distinct, he.named, he.sound, he.whole, fun _ harc => absurd harc List.not_mem_nil⟩
  rw [withEntry_arcs]
  exact equal_exported_reread hplain hexportable fun _ harc => absurd harc List.not_mem_nil

end Net

namespace Draft

variable {ω : Type} {config : Config} {d d' : Draft}
  {call : ω → Outcome → Act (World ω) Outcome} {callReload : ω → Datum → Act (World ω) Unit}

/-- A plain net that was built comes back in object form exactly if what inhibits is read as a truth
value at each of its arcs.  What comes back is exported as the net is, without arcs, and streams
over the two answer any requests in any order alike and record the same. -/
theorem Reached.reload_object (h : Reached config d) (hb : apply build d = (.ok (), d'))
    (hp : d'.net.Plain) (g : Glossary) (self : Nat) :
    ((∃ loaded, d'.net.reload .object g self config = .ok loaded) ↔
        ∀ arc ∈ d'.net.arcs, arc.inhibit.truth?.isSome = true) ∧
      ∀ loaded, d'.net.reload .object g self config = .ok loaded →
        (∃ data data', d'.net.toDatum = .ok data ∧ loaded.toDatum = .ok data' ∧
          data'.equal (data.withEntry "arcs" (.list [])) = true) ∧
        ∀ (timebase : Timebase) (c : Config), ∃ w w' : World ω,
          World.ofNet d'.net timebase c = .ok w ∧ World.ofNet loaded timebase c = .ok w' ∧
            ∀ rs, (World.answers (World.site call callReload) rs w').1 =
                (World.answers (World.site call callReload) rs w).1 ∧
              (World.answers (World.site call callReload) rs w').2.stream =
                (World.answers (World.site call callReload) rs w).2.stream := by
  have hbuilt := h.built hb
  have he := hbuilt.exportable
  have hok : (∀ arc ∈ d'.net.arcs, arc.inhibit.truth?.isSome = true) →
      d'.net.reload .object g self config = .ok d'.net.bereft :=
    fun hi => hbuilt.reload_eq_bereft hp hi g self
  have hall : ∀ loaded, d'.net.reload .object g self config = .ok loaded →
      ∀ arc ∈ d'.net.arcs, arc.inhibit.truth?.isSome = true :=
    fun loaded hl => ((Net.reload_eq_ok hp he).1 hl).1
  refine ⟨⟨fun ⟨loaded, hl⟩ => hall loaded hl, fun hi => ⟨_, hok hi⟩⟩, fun loaded hl => ?_⟩
  have hloaded := hl.symm.trans (hok (hall loaded hl))
  cases hloaded
  obtain ⟨s, -, hs⟩ := hp.schema
  exact ⟨⟨_, _, hp.toDatum_eq he, Net.toDatum_bereft hp he, Net.equal_exported_bereft hp he⟩,
    fun timebase c => World.ofNet_alike (Net.alike_bereft d'.net) hbuilt.indexed hs timebase c⟩

/-- Whoever runs the kiosk from its object form sees no difference. -/
theorem kiosk_reload_object :
    ∃ loaded, (Kiosk.built (.text "yes")).net.reload .object Origin.bare.glossary 0 .default =
        .ok loaded ∧
      ∃ w w' : World Empty, World.ofNet (Kiosk.built (.text "yes")).net .wall .default = .ok w ∧
        World.ofNet loaded .wall .default = .ok w' ∧
        ∀ rs, (World.answers (World.site nofun nofun) rs w').1 =
            (World.answers (World.site nofun nofun) rs w).1 ∧
          (World.answers (World.site nofun nofun) rs w').2.stream =
            (World.answers (World.site nofun nofun) rs w).2.stream := by
  have hread : ∀ arc ∈ (Kiosk.built (.text "yes")).net.arcs, arc.inhibit.truth?.isSome = true := by
    rw [Kiosk.arcs_built]
    simp only [List.forall_mem_cons, List.not_mem_nil, false_implies, implies_true, and_true]
    exact ⟨rfl, rfl, rfl, rfl⟩
  obtain ⟨hiff, hloaded⟩ := @Reached.reload_object Empty .default _ _ nofun nofun
    (Kiosk.reached_draft (.text "yes")) (Kiosk.apply_build _) (Kiosk.plain _)
    Origin.bare.glossary 0
  obtain ⟨loaded, hl⟩ := hiff.2 hread
  exact ⟨loaded, hl, (hloaded loaded hl).2 .wall .default⟩

/-- The number five inhibits, but it is no truth value to whoever reads it back. -/
theorem kiosk_five_refused :
    Reached .default (Kiosk.draft (.int 5)) ∧
      apply build (Kiosk.draft (.int 5)) = (.ok (), Kiosk.built (.int 5)) ∧
      (Kiosk.built (.int 5)).net.Plain ∧
      ∃ faults, (Kiosk.built (.int 5)).net.reload .object Origin.bare.glossary 0 .default =
        .error (.faults faults) := by
  have hbuilt := (Kiosk.reached_draft (.int 5)).built (Kiosk.apply_build _)
  have hmem : (⟨.place "till", .transition "sell", .int 4, .int 5⟩ : Arc) ∈
      (Kiosk.built (.int 5)).net.arcs := by
    rw [Kiosk.arcs_built]
    simp
  exact ⟨Kiosk.reached_draft _, Kiosk.apply_build _, Kiosk.plain _,
    Net.reload_error (Kiosk.plain _) hbuilt.exportable hmem rfl .object _ 0⟩

end Draft

end TokenNet
