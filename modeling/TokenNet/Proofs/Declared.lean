import TokenNet.Proofs.Drafting
import TokenNet.Proofs.Links
/-!
What declaring keeps true of a net, whatever is declared and whatever fails on the way: labels name
one node each, every recorded arc links, and vectors are as compiling leaves them.  Main statement:
`Draft.Reached.declared`.  So a draft always compiles, `Net.Declared.index_snd`, and building it
never fails, `Draft.apply_build`.
-/

namespace TokenNet

namespace Net

/-- Places and transitions share one set of labels. -/
def labels (net : Net) : List String :=
  net.places.map Place.label ++ net.transitions.map Transition.label

structure Declared (net : Net) : Prop where
  distinct : net.labels.Nodup
  named : "" ∉ net.labels
  linked : ∀ arc ∈ net.arcs, (net.link? arc).isSome = true
  arcsKept : net.arcsKept = .bool true
  whole : ∀ t ∈ net.transitions, t.Whole

theorem Declared.hasArcs {net : Net} (h : net.Declared) : net.hasArcs = true := by
  rw [Net.hasArcs, h.arcsKept]
  rfl

theorem declares_iff {net : Net} {label : String} :
    net.declares label = true ↔ label ∈ net.labels := by
  rw [declares, Bool.or_eq_true, isSome_place?, isSome_transition?, labels, List.mem_append]

theorem node?_place {net : Net} (h : net.labels.Nodup) {label : String}
    (hmem : label ∈ net.places.map Place.label) : net.node? label = some (.place label) := by
  have hnot : ¬(net.transition? label).isSome = true := by
    rw [isSome_transition?]
    exact fun ht => (List.nodup_append.1 h).2.2 label hmem label ht rfl
  rw [node?, if_neg hnot, if_pos (isSome_place?.2 hmem)]

theorem node?_transition {net : Net} {label : String}
    (hmem : label ∈ net.transitions.map Transition.label) :
    net.node? label = some (.transition label) := by
  rw [node?, if_pos (isSome_transition?.2 hmem)]

theorem freshLabel_eq_ok {net : Net} {d : Datum} {label : String} :
    net.freshLabel d = .ok label ↔ d = .text label ∧ label ≠ "" ∧ label ∉ net.labels := by
  rw [← declares_iff]
  cases d with
  | text s =>
    simp only [freshLabel, Datum.text.injEq]
    by_cases hs : s = ""
    · rw [if_pos (String.isEmpty_iff.2 hs)]
      simp only [reduceCtorEq, false_iff]
      rintro ⟨rfl, hne, -⟩
      exact hne hs
    · rw [if_neg (mt String.isEmpty_iff.1 hs)]
      split
      next hd =>
        simp only [reduceCtorEq, false_iff]
        rintro ⟨rfl, -, hnot⟩
        exact hnot hd
      next hd =>
        simp only [Except.ok.injEq]
        constructor
        · rintro rfl
          exact ⟨rfl, hs, hd⟩
        · exact fun h => h.1
  | _ => simp [freshLabel]

theorem newPlace_eq_ok {net : Net} {config : Config} {label initial capacity position : Datum}
    {p : Place} (h : net.newPlace config label initial capacity position = .ok p) :
    p.label ≠ "" ∧ p.label ∉ net.labels ∧ newPosition position = .ok p.position := by
  obtain ⟨l, hl, h⟩ := Failure.ok_of_bind h
  obtain ⟨i, -, h⟩ := Failure.ok_of_bind h
  obtain ⟨c, -, h⟩ := Failure.ok_of_bind h
  split at h
  · cases h
  · split at h
    · cases h
    · obtain ⟨pos, hpos, h⟩ := Failure.ok_of_bind h
      cases h
      obtain ⟨-, hne, hnew⟩ := freshLabel_eq_ok.1 hl
      exact ⟨hne, hnew, hpos⟩

theorem placeLabel?_eq_some {net : Net} {e : End} {label : String} :
    net.placeLabel? e = some label ↔ e = .place label ∧ label ∈ net.places.map Place.label := by
  cases e with
  | place l =>
    simp only [placeLabel?, isSome_place?, Option.ite_none_right_eq_some, Option.some.injEq,
      End.place.injEq]
    constructor
    · rintro ⟨h, rfl⟩
      exact ⟨rfl, h⟩
    · rintro ⟨rfl, h⟩
      exact ⟨h, rfl⟩
  | transition l => simp [placeLabel?]
  | other d => simp [placeLabel?]

theorem transitionLabel?_eq_some {net : Net} {e : End} {label : String} :
    net.transitionLabel? e = some label ↔
      e = .transition label ∧ label ∈ net.transitions.map Transition.label := by
  cases e with
  | transition l =>
    simp only [transitionLabel?, isSome_transition?, Option.ite_none_right_eq_some,
      Option.some.injEq, End.transition.injEq]
    constructor
    · rintro ⟨h, rfl⟩
      exact ⟨rfl, h⟩
    · rintro ⟨rfl, h⟩
      exact ⟨h, rfl⟩
  | place l => simp [transitionLabel?]
  | other d => simp [transitionLabel?]

/-- An arc that may be recorded is one that links. -/
theorem newArc_eq_ok {net : Net} {self : Nat} {source target : End} {weight inhibit : Datum}
    {arc : Arc} : net.newArc self source target weight inhibit = .ok arc ↔
      arc = { source, target, weight, inhibit } ∧ (net.link? arc).isSome = true := by
  unfold newArc
  rw [isSome_link?]
  constructor
  · intro h
    split at h
    · cases h
    next hw =>
    simp only [Option.isNone_iff_eq_none] at hw
    obtain ⟨w, hw⟩ := Option.ne_none_iff_exists'.1 hw
    split at h
    next label hs =>
      obtain ⟨rfl, hp⟩ := placeLabel?_eq_some.1 hs
      split at h
      next hsome =>
        obtain ⟨t, hsome⟩ := Option.isSome_iff_exists.1 hsome
        obtain ⟨rfl, ht⟩ := transitionLabel?_eq_some.1 hsome
        cases h
        cases hi : inhibit.truthy with
        | true => exact ⟨rfl, w, .inhibitor, label, t, hw, by simp [joint?, hi], hp, ht⟩
        | false => exact ⟨rfl, w, .input, label, t, hw, by simp [joint?, hi], hp, ht⟩
      · cases h
    next label _ hs =>
      obtain ⟨rfl, ht⟩ := transitionLabel?_eq_some.1 hs
      split at h
      · cases h
      next hi =>
        split at h
        next hsome =>
          obtain ⟨p, hsome⟩ := Option.isSome_iff_exists.1 hsome
          obtain ⟨rfl, hp⟩ := placeLabel?_eq_some.1 hsome
          cases h
          exact ⟨rfl, w, .output, p, label, hw, by simp [joint?, hi], hp, ht⟩
        · cases h
    · cases h
  · rintro ⟨rfl, w, kind, p, t, hw, hj, hp, ht⟩
    have hplace : net.placeLabel? (.place p) = some p := placeLabel?_eq_some.2 ⟨rfl, hp⟩
    have htransition : net.transitionLabel? (.transition t) = some t :=
      transitionLabel?_eq_some.2 ⟨rfl, ht⟩
    simp only at hw
    rcases joint?_eq_some.1 hj with ⟨-, -, rfl, rfl⟩ | ⟨-, -, rfl, rfl⟩ | ⟨-, hi, rfl, rfl⟩
    · simp [hw, hplace, htransition]
    · simp [hw, hplace, htransition]
    · have hnone : net.placeLabel? (.transition t) = none := rfl
      simp only at hi
      simp [hw, hplace, htransition, hnone, hi]

/-! ## Adding to a net -/

section

variable {net : Net}

theorem isSome_link?_mono {net' : Net} {arc : Arc} (h : (net.link? arc).isSome = true)
    (hp : net.places.map Place.label ⊆ net'.places.map Place.label)
    (ht : net.transitions.map Transition.label ⊆ net'.transitions.map Transition.label) :
    (net'.link? arc).isSome = true := by
  obtain ⟨w, kind, p, t, hw, hj, hmem, hmem'⟩ := isSome_link?.1 h
  exact isSome_link?.2 ⟨w, kind, p, t, hw, hj, hp hmem, ht hmem'⟩

theorem labels_addPlace (net : Net) (p : Place) :
    (net.addPlace p).labels.Perm (p.label :: net.labels) := by
  simp only [labels, addPlace, List.map_append, List.map_cons, List.map_nil,
    List.append_assoc, List.singleton_append]
  exact List.perm_middle

theorem Declared.addPlace (h : net.Declared) {p : Place} (hne : p.label ≠ "")
    (hnew : p.label ∉ net.labels) : (net.addPlace p).Declared := by
  have hperm := labels_addPlace net p
  refine ⟨hperm.nodup_iff.2 (List.nodup_cons.2 ⟨hnew, h.distinct⟩), fun hmem => ?_,
    fun arc harc => isSome_link?_mono (h.linked arc harc) ?_ (List.Subset.refl _), h.arcsKept,
    h.whole⟩
  · rcases List.mem_cons.1 (hperm.mem_iff.1 hmem) with he | hmem
    · exact hne he.symm
    · exact h.named hmem
  · simp [Net.addPlace]

theorem labels_addTransition (net : Net) (t : Transition) :
    (net.addTransition t).labels.Perm (t.label :: net.labels) := by
  simp only [labels, addTransition, List.map_append, List.map_cons, List.map_nil,
    ← List.append_assoc]
  exact List.perm_append_singleton _ _

theorem Declared.addTransition (h : net.Declared) {t : Transition} (hne : t.label ≠ "")
    (hnew : t.label ∉ net.labels) (hw : t.Whole) : (net.addTransition t).Declared := by
  have hperm := labels_addTransition net t
  refine ⟨hperm.nodup_iff.2 (List.nodup_cons.2 ⟨hnew, h.distinct⟩), fun hmem => ?_,
    fun arc harc => isSome_link?_mono (h.linked arc harc) (List.Subset.refl _) ?_, h.arcsKept,
    fun t' ht' => ?_⟩
  · rcases List.mem_cons.1 (hperm.mem_iff.1 hmem) with he | hmem
    · exact hne he.symm
    · exact h.named hmem
  · simp [Net.addTransition]
  · rcases List.mem_append.1 ht' with ht' | ht'
    · exact h.whole t' ht'
    · exact List.mem_singleton.1 ht' ▸ hw

theorem Declared.addArc (h : net.Declared) {arc : Arc} (hl : (net.link? arc).isSome = true) :
    (net.addArc arc).Declared := by
  have hlinks : (net.addArc arc).link? = net.link? := funext fun a => link?_congr rfl rfl a
  refine ⟨h.distinct, h.named, fun a ha => ?_, h.arcsKept, h.whole⟩
  rw [hlinks]
  rcases List.mem_append.1 ha with ha | ha
  · exact h.linked a ha
  · exact List.mem_singleton.1 ha ▸ hl

theorem Declared.withRoles (h : net.Declared) (roles : List Role) :
    { net with roles }.Declared :=
  ⟨h.distinct, h.named, h.linked, h.arcsKept, h.whole⟩

theorem Declared.index (h : net.Declared) : net.index.1.Declared := by
  rw [index_fst h.hasArcs]
  have ht : (net.transitions.map (Transition.compiled net.emptyVector net.links)).map
      Transition.label = net.transitions.map Transition.label := by simp [Function.comp_def]
  refine ⟨?_, ?_, fun arc harc => ?_, h.arcsKept, fun t ht => ?_⟩
  · simpa only [labels, ht] using h.distinct
  · simpa only [labels, ht] using h.named
  · exact isSome_link?_mono (h.linked arc harc) (List.Subset.refl _) (ht ▸ List.Subset.refl _)
  · obtain ⟨t', -, rfl⟩ := List.mem_map.1 ht
    exact Transition.whole_compiled _ _ _

/-- Nothing is found wrong with a net that was declared. -/
theorem Declared.index_snd (h : net.Declared) : net.index.2 = [] :=
  (index_snd_eq_nil h.hasArcs).2 h.linked

end

/-- The role that a net has yet to declare for a transition so tagged. -/
def newRole? (net : Net) : Datum → Option Role
  | .text s => if (net.role? (.text s)).isNone then some { label := .text s } else none
  | _ => none

end Net

namespace Draft

open Act

/-! ## Steps -/

theorem apply_role (label : Datum) (d : Draft) :
    apply (role label) d = match label.key? with
      | none => (.error .wrongType, d)
      | some key => match d.net.role? key with
        | some r => (.ok r, d)
        | none => (.ok { label }, { d with net := d.net.addRole { label } }) := by
  unfold role
  cases label.key? with
  | none => rfl
  | some key =>
    simp only [apply_bind, apply_drafted]
    cases d.net.role? key <;> rfl

/-- The draft with one role more, if there is one to add. -/
def withRole (d : Draft) (role : Option Role) : Draft :=
  { d with net := { d.net with roles := d.net.roles ++ role.toList } }

@[simp] theorem withRole_none (d : Draft) : d.withRole none = d := by simp [withRole]

/-- Asking for the role of a transition never fails. -/
theorem apply_roleOf_eq (tag : Datum) (d : Draft) :
    ∃ role, apply (roleOf tag) d = (.ok role, d.withRole (d.net.newRole? tag)) := by
  cases tag with
  | text s =>
    simp only [roleOf, Net.newRole?, apply_bind, apply_role, Datum.key?]
    cases d.net.role? (.text s) with
    | none => exact ⟨_, rfl⟩
    | some r => exact ⟨.role r.label, by simp⟩
  | _ => exact ⟨_, Prod.ext rfl (withRole_none d).symm⟩

theorem after_roleOf (tag : Datum) (d : Draft) :
    ∃ roles, after (roleOf tag) d = { d with net := { d.net with roles } } := by
  obtain ⟨role, h⟩ := apply_roleOf_eq tag d
  rw [after, h]
  exact ⟨_, rfl⟩

theorem apply_transition (label tag position : Datum) (d : Draft) :
    apply (transition label tag position) d = match d.net.freshLabel label with
      | .error e => (.error e, d)
      | .ok label => match apply (roleOf tag) d with
        | (.error e, d') => (.error e, d')
        | (.ok role, d') => match Net.newPosition position with
          | .error e => (.error e, d')
          | .ok position =>
            (.ok { label, role, position },
              { d' with net := d'.net.addTransition { label, role, position } }) := by
  simp only [transition, apply_bind, apply_drafted, apply_check]
  cases d.net.freshLabel label with
  | error e => rfl
  | ok label =>
    dsimp only
    rcases apply (roleOf tag) d with ⟨_ | role, d'⟩
    · rfl
    · cases Net.newPosition position <;> rfl

/-- What a step can leave of the net it found: the net with other roles, if with any, the net with
what was found fit to be added, or the compiled net. -/
inductive Step.Leaves (d : Draft) : Step → Net → Prop
  | roles (s : Step) (roles : List Role) : Leaves d s { d.net with roles }
  | place {label initial capacity position : Datum} {p : Place} :
      d.net.newPlace d.config label initial capacity position = .ok p →
        Leaves d (.place label initial capacity position) (d.net.addPlace p)
  | transition {label tag position role : Datum} {l : String} {pos : Position} {d' : Draft}
      (roles : List Role) : d.net.freshLabel label = .ok l →
        apply (roleOf tag) d = (.ok role, d') → Net.newPosition position = .ok pos →
          Leaves d (.transition label tag position)
            ({ d.net with roles }.addTransition { label := l, role, position := pos })
  | arc {source target : End} {weight inhibit : Datum} {arc : Arc} :
      d.net.newArc d.self source target weight inhibit = .ok arc →
        Leaves d (.arc source target weight inhibit) (d.net.addArc arc)
  | build : Leaves d .build d.net.index.1

theorem Step.leaves (s : Step) (d : Draft) : s.Leaves d (after s.run d).net := by
  have unchanged : s.Leaves d d.net := .roles s d.net.roles
  cases s with
  | place label initial capacity position =>
    rw [run, after_discard, after, apply_place]
    split
    next p hp => exact .place hp
    next => exact unchanged
  | transition label tag position =>
    rw [run, after_discard, after, apply_transition]
    split
    next => exact unchanged
    next l hl =>
      obtain ⟨roles, hroles⟩ := after_roleOf tag d
      rcases hr : apply (roleOf tag) d with ⟨_ | role, d'⟩ <;> rw [after, hr] at hroles <;>
        subst hroles
      · exact .roles _ roles
      · cases hpos : Net.newPosition position with
        | error e => exact .roles _ roles
        | ok pos => exact .transition roles hl hr hpos
  | role label =>
    rw [run, after_discard, after, apply_role]
    split
    · exact unchanged
    · split
      · exact unchanged
      · exact .roles _ (d.net.roles ++ [_])
  | arc source target weight inhibit =>
    rw [run, after_discard, after, apply_arc]
    split
    next arc ha => exact .arc ha
    next => exact unchanged
  | build =>
    obtain ⟨notes, hi⟩ := apply_index d
    have hnet : (after Draft.build d).net = d.net.index.1 := by
      rw [after, Draft.build, apply_bind_of_ok hi]
      cases d.net.index.2.isEmpty <;> rfl
    exact hnet ▸ .build

theorem Step.keeps_declared (s : Step) : Keeps (fun d => d.net.Declared) s.run := by
  intro d h
  have hleaves := s.leaves d
  generalize (after s.run d).net = net at hleaves ⊢
  cases hleaves with
  | roles _ roles => exact h.withRoles roles
  | place hp =>
    obtain ⟨hne, hnew, -⟩ := Net.newPlace_eq_ok hp
    exact h.addPlace hne hnew
  | transition roles hl _ _ =>
    obtain ⟨-, hne, hnew⟩ := Net.freshLabel_eq_ok.1 hl
    exact (h.withRoles roles).addTransition hne hnew
      ⟨rfl, List.nodup_nil, fun _ _ hg => absurd hg List.not_mem_nil⟩
  | arc ha => exact h.addArc (Net.newArc_eq_ok.1 ha).2
  | build => exact h.index

theorem Reached.declared {config : Config} {d : Draft} (h : Reached config d) :
    d.net.Declared := by
  induction h with
  | opened h =>
    obtain ⟨_, rfl⟩ := open?_eq_ok h
    exact ⟨List.nodup_nil, List.not_mem_nil, by simp, rfl, by simp⟩
  | step s _ ih => exact s.keeps_declared _ ih

/-- Building compiles, and fails only if that finds something. -/
theorem apply_build {d : Draft} (h : d.net.index.2 = []) :
    ∃ notes, apply build d = (.ok (), { d with net := d.net.index.1, notes }) := by
  obtain ⟨notes, hi⟩ := apply_index d
  refine ⟨notes, ?_⟩
  simp only [build, apply_bind, hi, h]
  rfl

/-- What was drafted without a flaw is compiled. -/
theorem apply_declare {steps : Drafting Unit} {d d' : Draft} (h : apply steps d = (.ok (), d'))
    (hi : d'.net.index.2 = []) : ∃ notes,
      apply (declare steps) d = (.ok (), { d' with net := d'.net.index.1, notes }) := by
  obtain ⟨notes, hbuild⟩ := apply_build hi
  refine ⟨notes ++ [.built d'.net.index.1.schema d'.net.index.1.discipline], ?_⟩
  rw [declare, apply_bind_of_ok h, apply_bind_of_ok hbuild]
  rfl

end Draft

end TokenNet
