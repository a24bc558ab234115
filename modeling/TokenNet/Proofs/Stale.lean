import TokenNet.Proofs.WellFormed
/-!
What the flag of a net says about its vectors while declaring goes on.  Main statement:
`Draft.Reached.indexed_iff_built`.  Building compiles, and no other step does: vectors stay as the
last build left them, and what is declared behind it has none, while the flag stays up.
-/

namespace TokenNet

namespace Net

/-- Compiling the net would leave its vectors as they are, with an entry for each place. -/
structure Compiled (net : Net) : Prop where
  delta : ∀ t ∈ net.transitions, t.delta.length = net.size
  stable : net.index.1.transitions = net.transitions

/-- The net holds what the built one did, and behind it what was declared since. -/
structure Extends (built net : Net) : Prop where
  places : built.places <+: net.places
  transitions : ∃ more, net.transitions = built.transitions ++ more ∧
    ∀ t ∈ more, t.delta = [] ∧ t.guards = []
  arcs : built.arcs <+: net.arcs

variable {net built : Net}

theorem transitions_index (h : net.hasArcs = true) : net.index.1.transitions =
    net.transitions.map (Transition.compiled net.emptyVector net.links) := by
  rw [index_fst h]

theorem Declared.compiled_index (h : net.Declared) : net.index.1.Compiled := by
  refine ⟨(index_fits h.index_snd).2.delta, ?_⟩
  rw [transitions_index h.index.hasArcs]
  exact List.map_congr_left (fun t ht => compiled_of_mem_index h.hasArcs ht) |>.trans
    (List.map_id _)

theorem Compiled.congr (h : built.Compiled) (hbuilt : built.hasArcs = true)
    (hnet : net.hasArcs = true) (hp : net.places = built.places)
    (ht : net.transitions = built.transitions) (ha : net.arcs = built.arcs) : net.Compiled := by
  have hzeros : net.emptyVector = built.emptyVector := by rw [emptyVector, size, hp]; rfl
  have hlinks : net.links = built.links := by
    rw [links, links, ha]
    exact congrArg (built.arcs.filterMap ·) (funext (link?_congr (by rw [hp]) (by rw [ht])))
  refine ⟨fun t hmem => ?_, ?_⟩
  · rw [size, hp]
    exact h.delta t (ht ▸ hmem)
  · rw [transitions_index hnet, hzeros, hlinks, ht, ← transitions_index hbuilt]
    exact h.stable

theorem Extends.refl (net : Net) : net.Extends net :=
  ⟨List.prefix_rfl, ⟨[], (List.append_nil _).symm, fun _ h => absurd h List.not_mem_nil⟩,
    List.prefix_rfl⟩

theorem Extends.trans {mid : Net} (h : built.Extends mid) (h' : mid.Extends net) :
    built.Extends net := by
  obtain ⟨more, hmore, hbare⟩ := h.transitions
  obtain ⟨more', hmore', hbare'⟩ := h'.transitions
  refine ⟨h.places.trans h'.places, ⟨more ++ more', ?_, ?_⟩, h.arcs.trans h'.arcs⟩
  · rw [hmore', hmore, List.append_assoc]
  · exact fun t ht => (List.mem_append.1 ht).elim (hbare t) (hbare' t)

/-- A place or a transition that was declared since has left vectors without an entry for each
place, unless the net has no nodes of the other sort. -/
theorem Extends.kept (h : built.Extends net) (hbuilt : built.Compiled) (hnet : net.Compiled) :
    (net.places = built.places ∨ net.transitions = []) ∧
      (net.transitions = built.transitions ∨ net.places = []) := by
  obtain ⟨more, hmore, hbare⟩ := h.transitions
  -- The vectors of the net have the lengths they had when it was built, or none at all.
  have hsize : ∀ t ∈ more, net.size = 0 := fun t ht => by
    rw [← hnet.delta t (hmore ▸ List.mem_append_right _ ht), (hbare t ht).1]
    rfl
  have hkept : ∀ t ∈ built.transitions, built.size = net.size := fun t ht => by
    rw [← hbuilt.delta t ht, hnet.delta t (hmore ▸ List.mem_append_left _ ht)]
  have hle : built.size ≤ net.size := h.places.length_le
  constructor
  · cases ht : net.transitions with
    | nil => exact Or.inr rfl
    | cons t rest =>
      have hmem : t ∈ built.transitions ++ more := hmore ▸ ht ▸ List.mem_cons_self
      have heq : built.size = net.size := by
        rcases List.mem_append.1 hmem with hmem | hmem
        · exact hkept t hmem
        · have := hsize t hmem
          omega
      exact Or.inl (h.places.eq_of_length heq).symm
  · cases more with
    | nil => exact Or.inl (hmore.trans (List.append_nil _))
    | cons t rest => exact Or.inr (List.length_eq_zero_iff.1 (hsize t List.mem_cons_self))

end Net

namespace Draft

open Act

variable {config : Config} {d : Draft}

/-- The draft is what steps other than building have made of one that was just built. -/
structure BuiltAs (config : Config) (d built : Draft) : Prop where
  before : ∃ before, Reached config before ∧ apply build before = (.ok (), built)
  since : ∃ steps, Step.build ∉ steps ∧ built.follow steps = d

theorem follow_append (d : Draft) (steps steps' : List Step) :
    d.follow (steps ++ steps') = (d.follow steps).follow steps' :=
  List.foldl_append

/-- Only building compiles, and only building sets the flag. -/
theorem Step.extends {s : Step} (hs : s ≠ .build) (d : Draft) :
    d.net.Extends (after s.run d).net ∧ (after s.run d).net.indexed = d.net.indexed := by
  have hleaves := s.leaves d
  generalize (after s.run d).net = net at hleaves ⊢
  have hrefl := Net.Extends.refl d.net
  cases hleaves with
  | roles _ _ => exact ⟨⟨hrefl.places, hrefl.transitions, hrefl.arcs⟩, rfl⟩
  | place _ =>
    exact ⟨⟨List.prefix_append _ _, hrefl.transitions, hrefl.arcs⟩, rfl⟩
  | transition _ _ _ _ =>
    refine ⟨⟨hrefl.places, ⟨[_], rfl, fun t ht => ?_⟩, hrefl.arcs⟩, rfl⟩
    obtain rfl := List.mem_singleton.1 ht
    exact ⟨rfl, rfl⟩
  | arc _ => exact ⟨⟨hrefl.places, hrefl.transitions, List.prefix_append _ _⟩, rfl⟩
  | build => exact absurd rfl hs

theorem extends_follow (d : Draft) {steps : List Step} (hs : Step.build ∉ steps) :
    d.net.Extends (d.follow steps).net ∧ (d.follow steps).net.indexed = d.net.indexed := by
  induction steps generalizing d with
  | nil => exact ⟨Net.Extends.refl _, rfl⟩
  | cons s rest ih =>
    have hstep := Step.extends (fun h => hs (h ▸ List.mem_cons_self)) d
    have hrest := ih (after s.run d) fun h => hs (List.mem_cons_of_mem _ h)
    exact ⟨hstep.1.trans hrest.1, hrest.2.trans hstep.2⟩

theorem BuiltAs.extends {built : Draft} (h : BuiltAs config d built) :
    built.net.Compiled ∧ built.net.Extends d.net ∧ built.net.hasArcs = true ∧
      d.net.indexed = true := by
  obtain ⟨before, hbefore, hbuild⟩ := h.before
  obtain ⟨steps, hsteps, rfl⟩ := h.since
  obtain ⟨hnet, hclean⟩ := build_ok hbuild
  obtain ⟨hext, hindexed⟩ := extends_follow built hsteps
  refine ⟨hnet ▸ hbefore.declared.compiled_index, hext, hnet ▸ hbefore.declared.index.hasArcs, ?_⟩
  rw [hindexed, hnet]
  exact (Net.index_fits hclean).1

theorem Reached.exists_built (h : Reached config d) (hi : d.net.indexed = true) :
    ∃ built, BuiltAs config d built := by
  induction h with
  | opened h =>
    obtain ⟨_, rfl⟩ := open?_eq_ok h
    cases hi
  | @step d s hd ih =>
    by_cases hs : s = .build
    · subst hs
      obtain ⟨notes, hb⟩ := apply_build hd.declared.index_snd
      refine ⟨_, ⟨d, hd, hb⟩, [], List.not_mem_nil, ?_⟩
      rw [Step.run, after, hb]
      rfl
    · obtain ⟨built, hbuilt, steps, hsteps, rfl⟩ := ih ((Step.extends hs d).2 ▸ hi)
      refine ⟨built, hbuilt, steps ++ [s], ?_, follow_append built steps [s]⟩
      rw [List.mem_append, List.mem_singleton]
      exact fun h => h.elim hsteps (Ne.symm hs)

/-- The flag is up, and an engine can be had, from the first build on.  The vectors are those of the
last build, whose net was compiled and has only been added to.  With nothing added the net is
compiled still; with a place added behind a transition, or a transition behind a place, it is not,
whatever the flag says. -/
theorem Reached.indexed_iff_built (h : Reached config d) :
    (d.net.indexed = true ↔ ∃ built, BuiltAs config d built) ∧
      ((∃ e, Engine.ofNet? d.net = .ok e) ↔ ∃ built, BuiltAs config d built) ∧
      ∀ built, BuiltAs config d built →
        built.net.Compiled ∧ built.net.Extends d.net ∧
        (d.net.places = built.net.places → d.net.transitions = built.net.transitions →
          d.net.arcs = built.net.arcs → d.net.Compiled) ∧
        (d.net.Compiled → (d.net.places = built.net.places ∨ d.net.transitions = []) ∧
          (d.net.transitions = built.net.transitions ∨ d.net.places = [])) := by
  have hiff : d.net.indexed = true ↔ ∃ built, BuiltAs config d built :=
    ⟨h.exists_built, fun ⟨_, hb⟩ => hb.extends.2.2.2⟩
  refine ⟨hiff, ?_, fun built hb => ?_⟩
  · rw [← hiff, Engine.ofNet?]
    cases d.net.indexed <;> simp
  · obtain ⟨hcompiled, hext, harcs, -⟩ := hb.extends
    exact ⟨hcompiled, hext, hcompiled.congr harcs h.declared.hasArcs, hext.kept hcompiled⟩

end Draft

/-! ## A place declared behind a build -/

namespace Pier

def steps : List Draft.Step :=
  [.place (.text "quay") (.int 2) .null .null, .transition (.text "load") .null .null,
    .arc (.place "quay") (.transition "load") (.int 1) (.bool false)]

def draft : Draft :=
  Draft.follow { self := 0, net := { schema := .text "pier" }, config := .default } steps

def built : Draft := Act.after Draft.build draft

def outgrown : Draft := built.follow [.place (.text "ship") .null .null .null]

theorem reached_draft : Draft.Reached .default draft :=
  Draft.Reached.follow (@Draft.Reached.opened .default 0 (.text "pier") (.text "petriNet") _ rfl) _

theorem reached_outgrown : Draft.Reached .default outgrown :=
  reached_draft.follow [.build, .place (.text "ship") .null .null .null]

theorem outgrown_builtAs : Draft.BuiltAs .default outgrown built :=
  ⟨⟨draft, reached_draft, rfl⟩, _, by simp, rfl⟩

end Pier

namespace Draft

open Pier

theorem pier_compiled : built.net.Compiled ∧ ¬outgrown.net.Compiled ∧
    ∃ e, Engine.ofNet? outgrown.net = .ok e := by
  obtain ⟨-, hengine, hall⟩ := Reached.indexed_iff_built reached_outgrown
  obtain ⟨hcompiled, -, -, hkept⟩ := hall built outgrown_builtAs
  refine ⟨hcompiled, fun hnet => ?_, hengine.2 ⟨_, outgrown_builtAs⟩⟩
  rcases (hkept hnet).1 with hplaces | hnone
  · exact absurd (congrArg List.length hplaces) (by decide)
  · exact absurd (congrArg List.length hnone) (by decide)

/-- The flag is up and an engine can be had, but there are two places and one entry. -/
theorem pier_outgrown : Reached .default outgrown ∧ outgrown.net.indexed = true ∧
    outgrown.net.size = 2 ∧ (∃ t ∈ outgrown.net.transitions, t.delta.length = 1) ∧
      ∃ e, Engine.ofNet? outgrown.net = .ok e ∧
        e.fire outgrown.net.initialVector (.text "load") (.int 1) = .error (.lengths 2 1 2) :=
  ⟨reached_outgrown, rfl, rfl, ⟨_, List.mem_singleton.2 rfl, rfl⟩, _, rfl, rfl⟩

end Draft

end TokenNet
