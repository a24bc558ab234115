import TokenNet.Proofs.Declared
import TokenNet.Proofs.Making
/-!
What a firing takes from the places that feed its transition.  Of several arcs that move tokens
between the same two nodes the last one stands, in whichever direction it runs, so the law is one of
standing arcs: a place that stands as an input holds the weight times the multiplier whenever the
firing is accepted, and gives up exactly that, `Engine.input_held`.  An arc that was overwritten
asks for nothing, `Engine.overwritten_input_fires`.
-/

namespace TokenNet

/-- The link moves tokens between the transition and the place at the offset. -/
def Link.Joins (link : Link) (transition : String) (i : Nat) : Prop :=
  link.kind ≠ .inhibitor ∧ link.transition = transition ∧ link.offset = i

namespace Transition

variable {zeros : Vec} {t : Transition} {link : Link} {i : Nat}

@[simp] theorem length_delta_joined : (t.joined zeros link).delta.length = t.delta.length := by
  unfold joined
  split
  · cases link.kind <;> simp
  · rfl

theorem getElem?_delta_joined_of_not_joins (h : ¬link.Joins t.label i) :
    (t.joined zeros link).delta[i]? = t.delta[i]? := by
  unfold joined
  split
  next hl =>
    cases hk : link.kind with
    | inhibitor => rfl
    | input | output =>
      have hne : link.offset ≠ i := fun ho => h ⟨by simp [hk], hl.symm, ho⟩
      exact List.getElem?_set_ne hne
  · rfl

theorem getElem?_delta_joined_input (hk : link.kind = .input) (hl : link.transition = t.label)
    (ho : link.offset < t.delta.length) :
    (t.joined zeros link).delta[link.offset]? = some (-link.weight) := by
  simp only [joined, hl, if_true, hk]
  exact List.getElem?_set_self ho

theorem length_delta_foldl_joined (links : List Link) :
    (links.foldl (joined zeros) t).delta.length = t.delta.length := by
  induction links generalizing t with
  | nil => rfl
  | cons link rest ih => rw [List.foldl_cons, ih, length_delta_joined]

theorem getElem?_delta_foldl_joined {links : List Link}
    (h : ∀ link ∈ links, ¬link.Joins t.label i) :
    (links.foldl (joined zeros) t).delta[i]? = t.delta[i]? := by
  induction links generalizing t with
  | nil => rfl
  | cons link rest ih =>
    have hrest : ∀ l ∈ rest, ¬l.Joins (t.joined zeros link).label i := fun l hl => by
      rw [label_joined]
      exact h l (List.mem_cons_of_mem _ hl)
    rw [List.foldl_cons, ih hrest, getElem?_delta_joined_of_not_joins (h link List.mem_cons_self)]

/-- The last link between the two nodes decides the entry. -/
theorem getElem?_delta_compiled_input {before after : List Link} (hk : link.kind = .input)
    (hl : link.transition = t.label) (ho : link.offset < zeros.length)
    (hlast : ∀ l ∈ after, ¬l.Joins t.label link.offset) :
    (t.compiled zeros (before ++ link :: after)).delta[link.offset]? = some (-link.weight) := by
  unfold compiled
  rw [List.foldl_append, List.foldl_cons]
  generalize hs : before.foldl (joined zeros) (t.cleared zeros) = s
  have hlabel : s.label = t.label := by rw [← hs, label_foldl_joined]; rfl
  have hsize : s.delta.length = zeros.length := by rw [← hs, length_delta_foldl_joined]; rfl
  rw [getElem?_delta_foldl_joined (by rwa [label_joined, hlabel]),
    getElem?_delta_joined_input hk (hl.trans hlabel.symm) (hsize ▸ ho)]

end Transition

namespace Net

/-- The last arc that moves tokens between the two nodes runs from the place, which stands at the
offset `i`, to the transition, and has the weight `w`. -/
structure Feeds (net : Net) (place transition : String) (i : Nat) (w : Int) : Prop where
  standing : ∃ before arc after, net.arcs = before ++ arc :: after ∧
    net.link? arc = some ⟨.input, place, i, transition, w⟩ ∧
    ∀ a ∈ after, ∀ link, net.link? a = some link → link.kind ≠ .inhibitor →
      ¬(link.place = place ∧ link.transition = transition)

theorem place_of_offset? {net : Net} {label label' : String} {i : Nat}
    (h : net.offset? label = some i) (h' : net.offset? label' = some i) : label = label' := by
  obtain ⟨_, hp, -⟩ := List.findIdx?_eq_some_iff_getElem.1 h
  obtain ⟨_, hp', -⟩ := List.findIdx?_eq_some_iff_getElem.1 h'
  simp only [decide_eq_true_eq] at hp hp'
  exact hp.symm.trans hp'

/-- Compiling gives a standing input its weight. -/
theorem Feeds.delta {net : Net} {place transition : String} {i : Nat} {w : Int}
    (h : net.Feeds place transition i w) {t : Transition} (ht : t.label = transition) :
    (t.compiled net.emptyVector net.links).delta[i]? = some (-w) := by
  obtain ⟨before, arc, after, harcs, hlink, hlast⟩ := h.standing
  have ho : net.offset? place = some i := (link?_eq_some_iff.1 hlink).2.2.1
  have hlinks : net.links = before.filterMap net.link? ++
      ⟨.input, place, i, transition, w⟩ :: after.filterMap net.link? := by
    rw [links, harcs, List.filterMap_append, List.filterMap_cons, hlink]
  rw [hlinks]
  refine Transition.getElem?_delta_compiled_input rfl ht.symm (by simpa using offset_lt ho) ?_
  rintro l hl ⟨hk, hlabel, hoffset⟩
  obtain ⟨a, ha, hal⟩ := List.mem_filterMap.1 hl
  have hplace := (link?_eq_some_iff.1 hal).2.2.1
  rw [hoffset] at hplace
  exact hlast a ha l hal hk ⟨place_of_offset? hplace ho, hlabel.trans ht⟩

end Net

/-! ## Firing -/

namespace Engine

variable {config : Config} {d d' : Draft} {e : Engine} {marking next : Vec} {action value : Datum}
  {t : Transition} {k : Int} {shot : Shot}

/-- Outside workflows, an accepted firing finds at every place that feeds its transition the weight
times the multiplier, and takes exactly that. -/
theorem input_held (hd : Draft.Reached config d)
    (hb : Act.apply Draft.build d = (.ok (), d')) (he : ofNet? d'.net = .ok e)
    (hdisc : d'.net.discipline ≠ .workflow) (ht : e.transition action = .ok t)
    (hk : multiplier value = .ok k) (hf : e.fire marking action value = .ok (shot, next))
    (hok : shot.ok = true) {place : String} {i : Nat} {w : Int}
    (hfeeds : d'.net.Feeds place t.label i w) :
    ∃ n, marking[i]? = some n ∧ w * k ≤ n ∧ next[i]? = some (n - w * k) := by
  obtain rfl := ofNet?_eq_ok he
  obtain ⟨t', k', ht', hk', -, hm, -, hacc, rfl⟩ := fire_accepted hf hok
  obtain rfl : t = t' := Except.ok.inj (ht.symm.trans ht')
  obtain rfl : k = k' := Except.ok.inj (hk.symm.trans hk')
  have hmem := transition_mem ht
  obtain ⟨hnet, -⟩ := Draft.build_ok hb
  simp only [hnet] at hmem hfeeds
  have hdelta : t.delta[i]? = some (-w) := by
    have := hfeeds.delta rfl
    rwa [Net.compiled_of_mem_index hd.declared.hasArcs hmem] at this
  have hi : i < marking.length := hm ▸ (List.getElem?_eq_some_iff.1 hdelta).1
  have hheld : marking[i]? = some marking[i] := List.getElem?_eq_getElem hi
  have hmoved := Vec.getElem?_moved (k := k) hheld hdelta
  have hwithin : Vec.within d'.net.capacityVector (Vec.moved marking t.delta k) = true ∧
      d'.net.discipline.settled (Vec.moved marking t.delta k) = Vec.moved marking t.delta k := by
    simp only at hacc
    cases hdd : d'.net.discipline with
    | petriNet => exact ⟨by simpa [Discipline.accepts, hdd] using hacc, rfl⟩
    | stateMachine =>
      simp only [Discipline.accepts, hdd, Bool.and_eq_true] at hacc
      exact ⟨hacc.1, rfl⟩
    | workflow => exact absurd hdd hdisc
  have hge := nonneg_of_within hwithin.1 _ (List.mem_of_getElem? hmoved)
  rw [Int.neg_mul] at hge hmoved
  refine ⟨marking[i], hheld, by omega, ?_⟩
  simp only [hwithin.2, hmoved]
  rfl

end Engine

/-! ## A place that feeds a transition twice -/

namespace Toll

/-- Of the two arcs the first asks for three coins, the second for one. -/
def steps : List Draft.Step :=
  [.place (.text "purse") (.int 1) .null .null, .transition (.text "pay") .null .null,
    .arc (.place "purse") (.transition "pay") (.int 3) (.bool false),
    .arc (.place "purse") (.transition "pay") (.int 1) (.bool false)]

def draft : Draft :=
  Draft.follow { self := 0, net := { schema := .text "toll" }, config := .default } steps

def built : Draft := Act.after Draft.build draft

def engine : Engine := { net := built.net, capacity := built.net.capacityVector }

theorem reached_draft : Draft.Reached .default draft :=
  Draft.Reached.follow (@Draft.Reached.opened .default 0 (.text "toll") (.text "petriNet") _ rfl) _

theorem apply_build : Act.apply Draft.build draft = (.ok (), built) := rfl

theorem feeds : built.net.Feeds "purse" "pay" 0 1 :=
  ⟨[_], _, [], rfl, rfl, by simp⟩

end Toll

namespace Engine

open Toll

/-- The second arc stands, and the one coin it asks for is taken. -/
theorem toll_input_held : ∃ shot, engine.fire [1] (.text "pay") (.int 1) = .ok (shot, [0]) ∧
    shot.ok = true ∧
      ∃ n, ([1] : Vec)[0]? = some n ∧ 1 * 1 ≤ n ∧ ([0] : Vec)[0]? = some (n - 1 * 1) := by
  refine ⟨_, rfl, rfl, ?_⟩
  exact input_held reached_draft apply_build rfl (by decide)
    (show engine.transition (.text "pay") = .ok _ from rfl)
    (show multiplier (.int 1) = .ok 1 from rfl)
    (show engine.fire [1] (.text "pay") (.int 1) = .ok (_, [0]) from rfl) rfl feeds

/-- The first arc was recorded as well, but the firing goes through with less than it asks for. -/
theorem overwritten_input_fires :
    Draft.Reached .default draft ∧ Act.apply Draft.build draft = (.ok (), built) ∧
      ofNet? built.net = .ok engine ∧ built.net.discipline = .petriNet ∧
      (∃ arc ∈ built.net.arcs, built.net.link? arc = some ⟨.input, "purse", 0, "pay", 3⟩) ∧
      ∃ shot, engine.fire [1] (.text "pay") (.int 1) = .ok (shot, [0]) ∧ shot.ok = true ∧
        ¬∃ n, ([1] : Vec)[0]? = some n ∧ 3 * 1 ≤ n := by
  refine ⟨reached_draft, apply_build, rfl, rfl, ⟨_, List.mem_cons_self, rfl⟩, _, rfl, rfl, ?_⟩
  rintro ⟨n, hn, hle⟩
  obtain rfl : 1 = n := Option.some.inj hn
  omega

end Engine

end TokenNet
