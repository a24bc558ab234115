import Mathlib.Data.List.Forall2
import TokenNet.Proofs.WellFormed
/-!
Vectors that hold the same counts in the order of two lists of labels.  Everything a firing does
with vectors respects this, provided that one list is a permutation of the other: entries are moved
one by one, and the tests on a moved vector ask about all of its entries together.  So engines whose
vectors agree fire alike, `Engine.Agree.fire`.
-/

namespace TokenNet

namespace Vec

/-- Each label has one count, and the vectors list the counts in the order of the labels. -/
def Agree (ls ls' : List String) (v v' : Vec) : Prop :=
  ∃ count : String → Int, v = ls.map count ∧ v' = ls'.map count

variable {ls ls' : List String} {v v' d d' c c' : Vec} {i j : Nat} {label : String}

/-- Under one label there is one count. -/
theorem Agree.getElem? (h : Agree ls ls' v v') (hi : ls[i]? = some label)
    (hj : ls'[j]? = some label) : v[i]? = v'[j]? := by
  obtain ⟨count, rfl, rfl⟩ := h
  simp only [List.getElem?_map, hi, hj]

theorem Agree.length (h : Agree ls ls' v v') : v.length = ls.length ∧ v'.length = ls'.length := by
  obtain ⟨count, rfl, rfl⟩ := h
  exact ⟨List.length_map _, List.length_map _⟩

theorem Agree.perm (h : Agree ls ls' v v') (hp : ls.Perm ls') : v.Perm v' := by
  obtain ⟨count, rfl, rfl⟩ := h
  exact hp.map count

theorem agree_zeros (ls ls' : List String) : Agree ls ls' (zeros ls.length) (zeros ls'.length) :=
  ⟨fun _ => 0, List.map_const'.symm, List.map_const'.symm⟩

theorem Agree.moved (hv : Agree ls ls' v v') (hd : Agree ls ls' d d') (k : Int) :
    Agree ls ls' (moved v d k) (moved v' d' k) := by
  obtain ⟨value, rfl, rfl⟩ := hv
  obtain ⟨change, rfl, rfl⟩ := hd
  refine ⟨fun l => value l + change l * k, ?_, ?_⟩ <;>
    simp only [Vec.moved, List.zipWith_map, List.zipWith_self]

theorem Agree.clip (h : Agree ls ls' v v') : Agree ls ls' v.clip v'.clip := by
  obtain ⟨count, rfl, rfl⟩ := h
  exact ⟨fun l => max 0 (count l), List.map_map, List.map_map⟩

theorem map_set (hn : ls.Nodup) (hi : ls[i]? = some label) (count : String → Int) (n : Int) :
    (ls.map count).set i n = ls.map fun l => if l = label then n else count l := by
  obtain ⟨hlt, rfl⟩ := List.getElem?_eq_some_iff.1 hi
  refine List.ext_getElem (by simp) fun m hm _ => ?_
  have hm : m < ls.length := by simpa using hm
  simp only [List.getElem_set, List.getElem_map, List.Nodup.getElem_inj_iff hn, eq_comm]

/-- An entry that is overwritten under one label is overwritten for both. -/
theorem Agree.set (h : Agree ls ls' v v') (hn : ls.Nodup) (hn' : ls'.Nodup)
    (hi : ls[i]? = some label) (hj : ls'[j]? = some label) (n : Int) :
    Agree ls ls' (v.set i n) (v'.set j n) := by
  obtain ⟨count, rfl, rfl⟩ := h
  exact ⟨fun l => if l = label then n else count l, map_set hn hi count n, map_set hn' hj count n⟩

theorem within_map (ls : List String) (bound count : String → Int) :
    within (ls.map bound) (ls.map count) = ls.all fun l => fits (bound l) (count l) := by
  induction ls with
  | nil => rfl
  | cons l rest ih => simp only [List.map_cons, within, ih, List.all_cons]

theorem Agree.within (hp : ls.Perm ls') (hc : Agree ls ls' c c') (hv : Agree ls ls' v v') :
    within c' v' = within c v := by
  obtain ⟨bound, rfl, rfl⟩ := hc
  obtain ⟨count, rfl, rfl⟩ := hv
  rw [within_map, within_map, hp.all_eq]

theorem Agree.elementary (hp : ls.Perm ls') (h : Agree ls ls' v v') :
    elementary v' = elementary v := by
  have hperm := h.perm hp
  rw [Vec.elementary, Vec.elementary, hperm.all_eq, hperm.countP_eq]

/-- What is read off distinct labels in two orders agrees. -/
theorem agree_of_perm {α : Type} {label : α → String} {f : α → Int} {as as' : List α}
    (hn : (as.map label).Nodup)
    (hp : (as.map fun a => (label a, f a)).Perm (as'.map fun a => (label a, f a))) :
    Agree (as.map label) (as'.map label) (as.map f) (as'.map f) := by
  let count := fun l => ((as.find? fun a => decide (label a = l)).map f).getD 0
  have hcount : ∀ a ∈ as, count (label a) = f a := fun a ha => by
    simp only [count, Net.find?_label label hn ha, Option.map_some, Option.getD_some]
  have hcount' : ∀ a' ∈ as', count (label a') = f a' := by
    intro a' ha'
    obtain ⟨a, ha, heq⟩ := List.mem_map.1 (hp.mem_iff.2 (List.mem_map_of_mem ha'))
    obtain ⟨hlabel, hf⟩ := Prod.mk.inj heq
    rw [← hlabel, hcount a ha, hf]
  refine ⟨count, ?_, ?_⟩ <;> rw [List.map_map]
  · exact List.map_congr_left fun a ha => (hcount a ha).symm
  · exact List.map_congr_left fun a ha => (hcount' a ha).symm

end Vec

/-! ## Transitions compiled from the same links -/

theorem Table.forall₂_insert {κ α β : Type} [DecidableEq κ] {R : α → β → Prop} {t : Table κ α}
    {t' : Table κ β} (h : List.Forall₂ (fun e e' => e'.1 = e.1 ∧ R e.2 e'.2) t t') (k : κ) {a : α}
    {b : β} (hab : R a b) :
    List.Forall₂ (fun e e' => e'.1 = e.1 ∧ R e.2 e'.2) (Table.insert t k a)
      (Table.insert t' k b) := by
  induction h with
  | nil => exact .cons ⟨rfl, hab⟩ .nil
  | @cons e e' rest rest' he hrest ih =>
    obtain ⟨l, x⟩ := e
    obtain ⟨l', x'⟩ := e'
    obtain ⟨rfl, hx⟩ := he
    simp only [insert]
    split
    · exact .cons ⟨rfl, hab⟩ hrest
    · exact .cons ⟨rfl, hx⟩ ih

variable {ls ls' : List String}

/-- The same link, found at the offset of its place in either order. -/
structure Link.Agree (ls ls' : List String) (link link' : Link) : Prop where
  kind : link'.kind = link.kind
  place : link'.place = link.place
  transition : link'.transition = link.transition
  weight : link'.weight = link.weight
  offset : ls[link.offset]? = some link.place
  offset' : ls'[link'.offset]? = some link.place

namespace Transition

structure Agree (ls ls' : List String) (t t' : Transition) : Prop where
  label : t'.label = t.label
  role : t'.role = t.role
  delta : Vec.Agree ls ls' t.delta t'.delta
  guards : List.Forall₂ (fun e e' => e'.1 = e.1 ∧ Vec.Agree ls ls' e.2.delta e'.2.delta)
    t.guards t'.guards

variable {t t' : Transition} {link link' : Link} {links links' : List Link}

theorem Agree.joined (h : t.Agree ls ls' t') (hn : ls.Nodup) (hn' : ls'.Nodup)
    (hl : link.Agree ls ls' link') :
    (t.joined (Vec.zeros ls.length) link).Agree ls ls'
      (t'.joined (Vec.zeros ls'.length) link') := by
  by_cases hc : t.label = link.transition
  · have hc' : t'.label = link'.transition := by rw [h.label, hl.transition, hc]
    rw [Transition.joined, if_pos hc, Transition.joined, if_pos hc', hl.kind]
    cases link.kind with
    | input =>
      exact ⟨h.label, h.role, hl.weight ▸ h.delta.set hn hn' hl.offset hl.offset' _, h.guards⟩
    | output =>
      exact ⟨h.label, h.role, hl.weight ▸ h.delta.set hn hn' hl.offset hl.offset' _, h.guards⟩
    | inhibitor =>
      have hdelta := (Vec.agree_zeros ls ls').set hn hn' hl.offset hl.offset' (-link.weight)
      rw [hl.weight, hl.place]
      exact ⟨h.label, h.role, h.delta, Table.forall₂_insert
        (R := fun guard guard' : Guard => Vec.Agree ls ls' guard.delta guard'.delta) h.guards
          link.place hdelta⟩
  · have hc' : t'.label ≠ link'.transition := by rwa [h.label, hl.transition]
    rw [Transition.joined, if_neg hc, Transition.joined, if_neg hc']
    exact h

/-- The induction over the links: those of one list take effect where those of the other do. -/
theorem agree_compiled (hn : ls.Nodup) (hn' : ls'.Nodup) (hlabel : t'.label = t.label)
    (hrole : t'.role = t.role) (hl : List.Forall₂ (Link.Agree ls ls') links links') :
    (t.compiled (Vec.zeros ls.length) links).Agree ls ls'
      (t'.compiled (Vec.zeros ls'.length) links') := by
  have hcleared : (t.cleared (Vec.zeros ls.length)).Agree ls ls'
      (t'.cleared (Vec.zeros ls'.length)) := ⟨hlabel, hrole, Vec.agree_zeros ls ls', .nil⟩
  unfold compiled
  generalize t.cleared (Vec.zeros ls.length) = start at hcleared
  generalize t'.cleared (Vec.zeros ls'.length) = start' at hcleared
  induction hl generalizing start start' with
  | nil => exact hcleared
  | cons hlink _ ih => exact ih _ _ (hcleared.joined hn hn' hlink)

end Transition

/-! ## Firing -/

structure Shot.Agree (ls ls' : List String) (shot shot' : Shot) : Prop where
  result : Option.Rel (Vec.Agree ls ls') shot.result shot'.result
  ok : shot'.ok = shot.ok
  role : shot'.role = shot.role

namespace Engine

/-- What is seen of one engine is seen of the other, vectors in the order of their labels. -/
structure Agree (ls ls' : List String) (e e' : Engine) : Prop where
  schema : e'.net.schema = e.net.schema
  discipline : e'.net.discipline = e.net.discipline
  initial : Vec.Agree ls ls' e.net.initialVector e'.net.initialVector
  capacity : Vec.Agree ls ls' e.capacity e'.capacity
  transitions : ∀ label, Option.Rel (Transition.Agree ls ls') (e.net.transition? label)
    (e'.net.transition? label)

variable {e e' : Engine} {marking marking' delta delta' : Vec} {action value : Datum} {k : Int}

theorem Agree.transition (h : e.Agree ls ls' e') (action : Datum) :
    Failure.Matched (Transition.Agree ls ls') (e.transition action) (e'.transition action) := by
  unfold Engine.transition
  split
  · exact .error _
  · split
    · exact .error _
    · have hfound : Option.Rel (Transition.Agree ls ls') (action.text?.bind e.net.transition?)
          (action.text?.bind e'.net.transition?) := by
        cases action.text? with
        | none => exact .none
        | some label => exact h.transitions label
      rw [h.schema]
      generalize action.text?.bind e.net.transition? = found,
        action.text?.bind e'.net.transition? = found' at hfound
      cases hfound with
      | none => exact .error _
      | some ht => exact .ok ht

/-- Vectors that agree have the lengths that are asked for, so they are always added. -/
theorem Agree.add (h : e.Agree ls ls' e') (hp : ls.Perm ls')
    (hm : Vec.Agree ls ls' marking marking') (hd : Vec.Agree ls ls' delta delta') :
    Failure.Matched (fun tally tally' : Vec.Tally =>
        Vec.Agree ls ls' tally.result tally'.result ∧ tally'.ok = tally.ok)
      (e.add marking delta k) (e'.add marking' delta' k) := by
  have hleft : e.add marking delta k = .ok ⟨Vec.moved marking delta k,
      Vec.within e.capacity (Vec.moved marking delta k)⟩ :=
    add_eq_ok.2 ⟨hm.length.1.trans hd.length.1.symm,
      hd.length.1.trans h.capacity.length.1.symm, rfl⟩
  have hright : e'.add marking' delta' k = .ok ⟨Vec.moved marking' delta' k,
      Vec.within e'.capacity (Vec.moved marking' delta' k)⟩ :=
    add_eq_ok.2 ⟨hm.length.2.trans hd.length.2.symm,
      hd.length.2.trans h.capacity.length.2.symm, rfl⟩
  rw [hleft, hright]
  exact .ok ⟨hm.moved hd k, Vec.Agree.within hp h.capacity (hm.moved hd k)⟩

theorem Agree.anyActive (h : e.Agree ls ls' e') (hp : ls.Perm ls')
    (hm : Vec.Agree ls ls' marking marking') {guards guards' : Table String Guard}
    (hg : List.Forall₂ (fun g g' => g'.1 = g.1 ∧ Vec.Agree ls ls' g.2.delta g'.2.delta)
      guards guards') :
    e'.anyActive marking' k guards' = e.anyActive marking k guards := by
  induction hg with
  | nil => rfl
  | @cons g g' rest rest' hdelta _ ih =>
    have hadd := h.add (k := k) hp hm hdelta.2
    simp only [Engine.anyActive]
    generalize e.add marking g.2.delta k = added, e'.add marking' g'.2.delta k = added' at hadd
    cases hadd with
    | error failure => rfl
    | ok htally => simp only [bind, Except.bind, htally.2, ih]

theorem Agree.test (h : e.Agree ls ls' e') (hp : ls.Perm ls')
    (hm : Vec.Agree ls ls' marking marking') (action value : Datum) :
    Failure.Matched (Shot.Agree ls ls') (e.test marking action value)
      (e'.test marking' action value) := by
  refine (h.transition action).bind fun t t' ht => ?_
  cases multiplier value with
  | error failure => exact .error failure
  | ok k =>
    have hactive := h.anyActive (k := k) hp hm ht.guards
    simp only [bind, Except.bind, hactive]
    cases e.anyActive marking k t.guards with
    | error failure => exact .error failure
    | ok blocked =>
      cases blocked with
      | true => exact .ok ⟨.none, rfl, ht.role⟩
      | false =>
        exact (h.add hp hm ht.delta).bind fun _ _ htally =>
          .ok ⟨.some htally.1, htally.2, ht.role⟩

theorem agree_discipline (hp : ls.Perm ls') (d : Discipline) {shot shot' : Shot}
    (h : shot.Agree ls ls' shot') : (discipline d shot).Agree ls ls' (discipline d shot') := by
  obtain ⟨result, ok, role⟩ := shot
  obtain ⟨result', ok', role'⟩ := shot'
  obtain ⟨hresult, rfl, rfl⟩ := h
  cases d with
  | petriNet => exact ⟨hresult, rfl, rfl⟩
  | stateMachine =>
    refine ⟨hresult, ?_, rfl⟩
    cases hresult with
    | none => rfl
    | some hv => simp only [discipline, Option.elim_some, hv.elementary hp]
  | workflow =>
    cases hresult with
    | none => exact ⟨.none, rfl, rfl⟩
    | some hv => exact ⟨.some hv.clip, hv.elementary hp, rfl⟩

theorem agree_commit {shot shot' : Shot} (h : shot.Agree ls ls' shot')
    (hm : Vec.Agree ls ls' marking marking') :
    Vec.Agree ls ls' (commit marking shot) (commit marking' shot') := by
  obtain ⟨result, ok, role⟩ := shot
  obtain ⟨result', ok', role'⟩ := shot'
  obtain ⟨hresult, rfl, rfl⟩ := h
  unfold commit
  split
  · cases hresult with
    | none => exact hm
    | some hv => exact hv
  · exact hm

/-- Engines that agree fire alike: both fail with the same failure, or what they report and leave
behind agrees. -/
theorem Agree.fire (h : e.Agree ls ls' e') (hp : ls.Perm ls')
    (hm : Vec.Agree ls ls' marking marking') (action value : Datum) :
    Failure.Matched (fun fired fired' : Shot × Vec =>
        fired.1.Agree ls ls' fired'.1 ∧ Vec.Agree ls ls' fired.2 fired'.2)
      (e.fire marking action value) (e'.fire marking' action value) := by
  refine (h.test hp hm action value).bind fun shot shot' hshot => .ok ?_
  have hsaid := agree_discipline hp e.net.discipline hshot
  rw [h.discipline]
  exact ⟨hsaid, agree_commit hsaid hm⟩

end Engine

end TokenNet
