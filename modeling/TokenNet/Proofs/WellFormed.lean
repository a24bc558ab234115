import Mathlib.Data.List.Nodup
import TokenNet.Proofs.Declared
/-!
The shape of a net while it is declared, `Net.WellFormed`, whichever steps are taken and whichever
of them fail.  Main statement: `Draft.Reached.wellFormed`.  Every node is found under its label,
places stay at the offsets at which they were declared, and building goes through.
-/

namespace TokenNet

namespace Net

/-- The arc joins a place and a transition of the net under a whole weight above zero, and runs from
the place if it inhibits. -/
structure Joins (net : Net) (arc : Arc) : Prop where
  weight : ∃ w, arc.weight = .int w ∧ 0 < w
  ends : ∃ p ∈ net.places, ∃ t ∈ net.transitions,
    (arc.source = .place p.label ∧ arc.target = .transition t.label) ∨
      (arc.inhibit.truthy = false ∧ arc.source = .transition t.label ∧
        arc.target = .place p.label)

structure WellFormed (config : Config) (net : Net) : Prop where
  distinct : net.labels.Nodup
  named : "" ∉ net.labels
  offsets : ∀ (i : Nat) (p : Place), net.places[i]? = some p → net.offset? p.label = some i
  counts : ∀ p ∈ net.places, p.Sound config
  arcs : ∀ arc ∈ net.arcs, net.Joins arc

variable {net : Net}

/-- Arcs that link are those that join. -/
theorem isSome_link?_iff_joins {arc : Arc} : (net.link? arc).isSome = true ↔ net.Joins arc := by
  rw [isSome_link?]
  constructor
  · rintro ⟨w, kind, place, transition, hw, hj, hp, ht⟩
    obtain ⟨p, hpmem, rfl⟩ := List.mem_map.1 hp
    obtain ⟨t, htmem, rfl⟩ := List.mem_map.1 ht
    refine ⟨⟨w, Datum.positive?_eq_some.1 hw⟩, p, hpmem, t, htmem, ?_⟩
    rcases joint?_eq_some.1 hj with ⟨-, -, hends⟩ | ⟨-, -, hends⟩ | ⟨-, hends⟩
    · exact Or.inl hends
    · exact Or.inl hends
    · exact Or.inr hends
  · rintro ⟨⟨w, hw⟩, p, hp, t, ht, hends⟩
    have hw := Datum.positive?_eq_some.2 hw
    have hp : p.label ∈ net.places.map Place.label := List.mem_map_of_mem hp
    have ht : t.label ∈ net.transitions.map Transition.label := List.mem_map_of_mem ht
    rcases hends with ⟨hs, htarget⟩ | ⟨hi, hs, htarget⟩
    · cases hi : arc.inhibit.truthy with
      | true => exact ⟨w, _, _, _, hw, joint?_eq_some.2 (.inl ⟨rfl, hi, hs, htarget⟩), hp, ht⟩
      | false =>
        exact ⟨w, _, _, _, hw, joint?_eq_some.2 (.inr (.inl ⟨rfl, hi, hs, htarget⟩)), hp, ht⟩
    · exact ⟨w, _, _, _, hw, joint?_eq_some.2 (.inr (.inr ⟨rfl, hi, hs, htarget⟩)), hp, ht⟩

/-- Under distinct labels the offset of a place is the position at which it stands. -/
theorem offset?_of_nodup (h : (net.places.map Place.label).Nodup) {i : Nat} {p : Place}
    (hp : net.places[i]? = some p) : net.offset? p.label = some i := by
  have hi : (net.places.map Place.label)[i]? = some p.label := by rw [List.getElem?_map, hp]; rfl
  rw [offset?_eq, List.findIdx?_eq_some_iff_getElem]
  obtain ⟨hlt, hget⟩ := List.getElem?_eq_some_iff.1 hi
  refine ⟨hlt, by simpa using hget, fun j hj hfound => ?_⟩
  have hjlt : j < (net.places.map Place.label).length := Nat.lt_trans hj hlt
  have heq : (net.places.map Place.label)[j] = (net.places.map Place.label)[i] := by
    rw [hget]
    exact of_decide_eq_true hfound
  exact absurd ((List.Nodup.getElem_inj_iff h).1 heq) (Nat.ne_of_lt hj)

theorem offset?_of_getElem? (h : net.labels.Nodup) {i : Nat} {p : Place}
    (hp : net.places[i]? = some p) : net.offset? p.label = some i :=
  offset?_of_nodup (List.nodup_append.1 h).1 hp

/-- Under distinct labels an entry is found under its own. -/
theorem find?_label {α : Type} (label : α → String) {l : List α} (h : (l.map label).Nodup) {a : α}
    (ha : a ∈ l) : l.find? (fun b => decide (label b = label a)) = some a := by
  have hsome : (l.find? fun b => decide (label b = label a)).isSome = true :=
    List.find?_isSome.2 ⟨a, ha, decide_eq_true rfl⟩
  obtain ⟨b, hb⟩ := Option.isSome_iff_exists.1 hsome
  have hlabel : label b = label a := by simpa using List.find?_some hb
  rw [hb, List.inj_on_of_nodup_map h (List.mem_of_find?_eq_some hb) ha hlabel]

theorem place?_of_mem (h : net.labels.Nodup) {p : Place} (hp : p ∈ net.places) :
    net.place? p.label = some p :=
  find?_label Place.label (List.nodup_append.1 h).1 hp

theorem transition?_of_mem (h : net.labels.Nodup) {t : Transition} (ht : t ∈ net.transitions) :
    net.transition? t.label = some t :=
  find?_label Transition.label (List.nodup_append.1 h).2.1 ht

theorem Declared.toWellFormed (h : net.Declared) {config : Config}
    (hs : ∀ p ∈ net.places, p.Sound config) : net.WellFormed config :=
  ⟨h.distinct, h.named, fun _ _ => offset?_of_getElem? h.distinct, hs,
    fun arc harc => isSome_link?_iff_joins.1 (h.linked arc harc)⟩

end Net

namespace Draft

open Act

variable {config : Config} {d : Draft}

/-- Places are added behind those that are there, and none is ever changed. -/
theorem Step.places_prefix (s : Step) (d : Draft) :
    d.net.places <+: (after s.run d).net.places := by
  have hleaves := s.leaves d
  generalize (after s.run d).net = net at hleaves ⊢
  cases hleaves with
  | place _ => exact List.prefix_append _ _
  | build => exact Net.places_index d.net ▸ List.prefix_rfl
  | roles | transition | arc => exact List.prefix_rfl

theorem places_prefix_follow (d : Draft) (steps : List Step) :
    d.net.places <+: (d.follow steps).net.places := by
  induction steps generalizing d with
  | nil => exact List.prefix_rfl
  | cons s rest ih => exact (s.places_prefix d).trans (ih _)

/-- Whatever was declared, and whatever failed on the way: the net is well-formed, the vectors it
starts from and is bounded by have the counts of each place at its offset, its nodes are found under
their labels, no later step moves a place, and building compiles the net. -/
theorem Reached.wellFormed (h : Reached config d) :
    d.net.WellFormed config ∧
      (∀ (i : Nat) (p : Place), d.net.places[i]? = some p →
        d.net.initialVector[i]? = some p.initial ∧ d.net.capacityVector[i]? = some p.capacity ∧
          d.net.place? p.label = some p ∧ d.net.node? p.label = some (.place p.label)) ∧
      (∀ t ∈ d.net.transitions, d.net.transition? t.label = some t ∧
        d.net.node? t.label = some (.transition t.label)) ∧
      (∀ steps, d.net.places <+: (d.follow steps).net.places) ∧
      ∃ d', apply build d = (.ok (), d') ∧ d'.net.indexed = true := by
  have hdecl := h.declared
  refine ⟨hdecl.toWellFormed h.sound.places, fun i p hp => ?_, fun t ht => ?_,
    places_prefix_follow d, ?_⟩
  · have hmem := List.mem_of_getElem? hp
    refine ⟨?_, ?_, Net.place?_of_mem hdecl.distinct hmem,
      Net.node?_place hdecl.distinct (List.mem_map_of_mem hmem)⟩
    · rw [Net.initialVector, List.getElem?_map, hp]
      rfl
    · rw [Net.capacityVector, List.getElem?_map, hp]
      rfl
  · exact ⟨Net.transition?_of_mem hdecl.distinct ht, Net.node?_transition (List.mem_map_of_mem ht)⟩
  · obtain ⟨notes, hb⟩ := apply_build hdecl.index_snd
    exact ⟨_, hb, (Net.index_fits hdecl.index_snd).1⟩

end Draft

/-! ## A declaration with calls that fail -/

namespace Dock

/-- A label given twice, an arc without weight, and a place that starts above its capacity are
refused; the rest is declared. -/
def steps : List Draft.Step :=
  [.place (.text "quay") (.int 2) (.int 3) .null, .place (.text "quay") .null .null .null,
    .transition (.text "load") (.text "crew") .null,
    .arc (.place "quay") (.transition "load") (.int 2) (.bool false),
    .arc (.place "quay") (.transition "load") (.int 0) (.bool false),
    .place (.text "ship") (.int 5) (.int 3) .null, .place (.text "ship") .null .null .null,
    .arc (.transition "load") (.place "ship") (.int 2) (.bool false)]

def draft : Draft :=
  Draft.follow { self := 0, net := { schema := .text "dock" }, config := .default } steps

theorem reached : Draft.Reached .default draft :=
  Draft.Reached.follow (@Draft.Reached.opened .default 0 (.text "dock") (.text "petriNet") _ rfl) _

end Dock

namespace Draft

open Act Dock

/-- Two places and two arcs are left, and the net compiles. -/
theorem dock_wellFormed : draft.net.places.map Place.label = ["quay", "ship"] ∧
    draft.net.arcs.length = 2 ∧ draft.net.WellFormed .default ∧
      draft.net.initialVector[0]? = some 2 ∧ draft.net.node? "ship" = some (.place "ship") ∧
        ∃ d', apply build draft = (.ok (), d') ∧ d'.net.indexed = true := by
  obtain ⟨hwell, hplaces, -, -, hbuild⟩ := Reached.wellFormed reached
  exact ⟨rfl, rfl, hwell, (hplaces 0 _ rfl).1, (hplaces 1 _ rfl).2.2.2, hbuild⟩

end Draft

end TokenNet
