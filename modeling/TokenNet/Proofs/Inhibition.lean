import TokenNet.Proofs.Making
/-!
When a guard is found active.  A guard is tested by taking its tokens off the marking within all the
bounds, so it is found active when its place holds enough and what then remains is below every
capacity.  On a marking within its capacities that last part says nothing, and every marking that a
firing leaves is one; the marking a net starts from need not be.
-/

namespace TokenNet

namespace Vec

def Holds (marking : Vec) (i : Nat) (amount : Int) : Prop :=
  ∃ n, marking[i]? = some n ∧ amount ≤ n

/-- With `amount` tokens taken off at the offset `i`, no count is above a capacity that bounds. -/
def Clears (capacity marking : Vec) (i : Nat) (amount : Int) : Prop :=
  ∀ (j : Nat) (c n : Int), capacity[j]? = some c → marking[j]? = some n → 0 < c →
    (if j = i then n - amount else n) ≤ c

theorem clears_of_within {capacity marking : Vec} (h : within capacity marking = true) (i : Nat)
    {amount : Int} (ha : 0 ≤ amount) : Clears capacity marking i amount := by
  intro j c n hc hn hpos
  have hle := ((within_iff.1 h).2 j c n hc hn).2 hpos
  split <;> omega

theorem getElem?_moved_single {marking : Vec} {i j : Nat} {w k n : Int} (hi : i < marking.length)
    (hn : marking[j]? = some n) :
    (moved marking ((zeros marking.length).set i (-w)) k)[j]? =
      some (if j = i then n - w * k else n) := by
  have hj : j < marking.length := (List.getElem?_eq_some_iff.1 hn).1
  by_cases hji : j = i
  · subst hji
    have hd : ((zeros marking.length).set j (-w))[j]? = some (-w) :=
      List.getElem?_set_self (by simpa using hj)
    rw [getElem?_moved hn hd, if_pos rfl, Int.neg_mul, ← Int.sub_eq_add_neg]
  · have hd : ((zeros marking.length).set i (-w))[j]? = some 0 := by
      rw [List.getElem?_set_ne (Ne.symm hji)]
      simp [zeros, hj]
    rw [getElem?_moved hn hd, if_neg hji, Int.zero_mul, Int.add_zero]

/-- Taking tokens off one place stays within bounds exactly if the place holds enough and nothing is
above its capacity afterwards. -/
theorem within_moved_single {capacity marking : Vec} {i : Nat} {w k : Int}
    (hlen : capacity.length = marking.length) (hpos : marking.Nonneg)
    (hi : i < marking.length) :
    within capacity (moved marking ((zeros marking.length).set i (-w)) k) = true ↔
      Holds marking i (w * k) ∧ Clears capacity marking i (w * k) := by
  have hmoved : (moved marking ((zeros marking.length).set i (-w)) k).length = marking.length := by
    simp [length_moved]
  rw [within_iff, hmoved]
  constructor
  · rintro ⟨-, hall⟩
    have hat : ∀ (j : Nat) (c n : Int), capacity[j]? = some c → marking[j]? = some n →
        0 ≤ (if j = i then n - w * k else n) ∧ (0 < c → (if j = i then n - w * k else n) ≤ c) :=
      fun j c n hc hn => hall j c _ hc (getElem?_moved_single hi hn)
    refine ⟨?_, fun j c n hc hn => (hat j c n hc hn).2⟩
    have hic : i < capacity.length := hlen ▸ hi
    have hc : capacity[i]? = some capacity[i] := by simp
    have hn : marking[i]? = some marking[i] := by simp
    have hge := (hat i _ _ hc hn).1
    simp only [if_true] at hge
    exact ⟨marking[i], hn, by omega⟩
  · rintro ⟨⟨held, hheld, hle⟩, hclears⟩
    refine ⟨hlen, fun j c m hc hm => ?_⟩
    have hj : j < marking.length := hmoved ▸ (List.getElem?_eq_some_iff.1 hm).1
    have hn : marking[j]? = some marking[j] := by simp
    have hval := (getElem?_moved_single (w := w) (k := k) hi hn).symm.trans hm
    simp only [Option.some.injEq] at hval
    rw [← hval]
    refine ⟨?_, hclears j c _ hc hn⟩
    split
    next hji =>
      subst hji
      rw [hn, Option.some.injEq] at hheld
      omega
    next => exact hpos _ (List.getElem_mem hj)

end Vec

namespace Engine

variable {e : Engine} {marking next : Vec} {action value : Datum} {t : Transition} {k : Int}
  {shot : Shot}

/-- Markings that firings lead to from the one the net starts from. -/
inductive Reached (e : Engine) : Vec → Prop
  | initial : Reached e e.net.initialVector
  | fire {marking next : Vec} {action value : Datum} {shot : Shot} : Reached e marking →
      e.fire marking action value = .ok (shot, next) → Reached e next

theorem Admits.within (h : e.Admits marking) : Vec.within e.capacity marking = true := by
  refine Vec.within_iff.2 ⟨h.length.symm, fun i c n hc hn => ⟨h.nonneg n (List.mem_of_getElem? hn),
    fun hpos => h.bounded i c n hc hn (by omega)⟩⟩

theorem Reached.within (hcap : e.capacity.Nonneg) (h : e.Reached marking) :
    marking = e.net.initialVector ∨ Vec.within e.capacity marking = true := by
  induction h with
  | initial => exact Or.inl rfl
  | @fire marking next action value shot _ hf ih =>
    cases hok : shot.ok with
    | true => exact Or.inr (admits_of_fire hcap hf hok).within
    | false => rwa [fire_refused hf hok]

theorem guardCheck_eq (ht : e.transition action = .ok t) (hk : multiplier value = .ok k) :
    e.guardCheck marking action value = e.anyActive marking k t.guards := by
  unfold guardCheck
  rw [hk, ht]
  rfl

theorem anyActive_eq {guards : Table String Guard}
    (h : ∀ key guard, (key, guard) ∈ guards →
      marking.length = guard.delta.length ∧ guard.delta.length = e.capacity.length) :
    e.anyActive marking k guards = .ok (guards.any fun entry =>
      Vec.within e.capacity (Vec.moved marking entry.2.delta k)) := by
  induction guards with
  | nil => rfl
  | cons entry rest ih =>
    obtain ⟨key, guard⟩ := entry
    obtain ⟨hm, hc⟩ := h key guard List.mem_cons_self
    have hadd : e.add marking guard.delta k = .ok ⟨Vec.moved marking guard.delta k,
        Vec.within e.capacity (Vec.moved marking guard.delta k)⟩ := add_eq_ok.2 ⟨hm, hc, rfl⟩
    have hrest := ih fun key' guard' hmem => h key' guard' (List.mem_cons_of_mem _ hmem)
    cases hw : Vec.within e.capacity (Vec.moved marking guard.delta k) <;>
      simp [anyActive, hadd, hw, hrest, bind, Except.bind, pure, Except.pure]

/-- The guards of a net whose vectors fit are as long as any of its markings. -/
theorem length_guards (hv : e.net.VectorsFit) (hc : e.capacity.length = e.net.size)
    (hm : marking.length = e.net.size) (ht : t ∈ e.net.transitions) :
    ∀ key guard, (key, guard) ∈ t.guards →
      marking.length = guard.delta.length ∧ guard.delta.length = e.capacity.length := by
  intro key guard hg
  have hguard := hv.length_guard ht hg
  exact ⟨hm.trans hguard.symm, hguard.trans hc.symm⟩

section

variable {config : Config} {net : Net}

/-- What a transition's guards come to on any marking of the net's length without negative counts:
some inhibitor's place holds enough, and taking it off clears every capacity. -/
theorem anyActive_of_fits (hnet : e.net.VectorsFit) (hcap : e.capacity.length = e.net.size)
    (hlen : marking.length = e.net.size) (hpos : marking.Nonneg)
    (ht : t ∈ e.net.transitions) :
    ∃ blocked, e.anyActive marking k t.guards = .ok blocked ∧
      (blocked = true ↔ ∃ place i w, e.net.Inhibits t place i w ∧
        Vec.Holds marking i (w * k) ∧ Vec.Clears e.capacity marking i (w * k)) := by
  have hlengths := length_guards hnet hcap hlen ht
  have hzeros : e.net.emptyVector = Vec.zeros marking.length := by rw [hlen]; rfl
  have hsingle : ∀ (i : Nat) (w : Int), i < e.net.size →
      (Vec.within e.capacity (Vec.moved marking (e.net.emptyVector.set i (-w)) k) = true ↔
        Vec.Holds marking i (w * k) ∧ Vec.Clears e.capacity marking i (w * k)) := by
    intro i w hi
    rw [hzeros]
    exact Vec.within_moved_single (hcap.trans hlen.symm) hpos (hlen ▸ hi)
  refine ⟨_, anyActive_eq hlengths, ?_⟩
  rw [List.any_eq_true]
  constructor
  · rintro ⟨⟨key, guard⟩, hg, hw⟩
    obtain ⟨i, w, ho, hkey, hwpos, hd⟩ := Net.guardFits_iff.1 (hnet.guards t ht key guard hg)
    simp only [hd] at hw
    exact ⟨key, i, w, ⟨⟨guard, hg, hkey.symm, hd⟩, hkey ▸ ho, hwpos⟩,
      (hsingle i w (Net.offset_lt ho)).1 hw⟩
  · rintro ⟨place, i, w, ⟨⟨guard, hg, -, hd⟩, ho, -⟩, hactive⟩
    refine ⟨(place, guard), hg, ?_⟩
    simp only [hd]
    exact (hsingle i w (Net.offset_lt ho)).2 hactive

def Inhibited (e : Engine) (t : Transition) (marking : Vec) (k : Int) : Prop :=
  ∃ place i w, e.net.Inhibits t place i w ∧ Vec.Holds marking i (w * k)

/-- Whichever inhibitor has enough, some place is above its capacity with its tokens taken off. -/
def Hidden (e : Engine) (t : Transition) (marking : Vec) (k : Int) : Prop :=
  e.Inhibited t marking k ∧ ∀ place i w, e.net.Inhibits t place i w →
    Vec.Holds marking i (w * k) → ¬Vec.Clears e.capacity marking i (w * k)

/-- The guard that is found is one that no place above its capacity hides. -/
theorem found_iff : (∃ place i w, e.net.Inhibits t place i w ∧ Vec.Holds marking i (w * k) ∧
      Vec.Clears e.capacity marking i (w * k)) ↔
    e.Inhibited t marking k ∧ ¬e.Hidden t marking k := by
  constructor
  · rintro ⟨place, i, w, hinh, hheld, hclear⟩
    exact ⟨⟨place, i, w, hinh, hheld⟩, fun hhidden => hhidden.2 place i w hinh hheld hclear⟩
  · rintro ⟨hin, hnot⟩
    refine Classical.byContradiction fun hnone => hnot ⟨hin, fun place i w hinh hheld hclear => ?_⟩
    exact hnone ⟨place, i, w, hinh, hheld, hclear⟩

theorem not_hidden_of_within (hk : 0 < k) (h : Vec.within e.capacity marking = true) :
    ¬e.Hidden t marking k := by
  rintro ⟨⟨place, i, w, hin, hheld⟩, hnone⟩
  have hwk : 0 ≤ w * k := Int.mul_nonneg (Int.le_of_lt hin.positive) (Int.le_of_lt hk)
  exact hnone place i w hin hheld (Vec.clears_of_within h i hwk)

theorem within_initialVector (hnet : net.Sound config)
    (h : ∀ p ∈ net.places, 0 < p.capacity → p.initial ≤ p.capacity) :
    Vec.within net.capacityVector net.initialVector = true := by
  refine Vec.within_iff.2 ⟨by simp, fun i c n hc hn => ?_⟩
  simp only [Net.capacityVector, Net.initialVector, List.getElem?_map,
    Option.map_eq_some_iff] at hc hn
  obtain ⟨p, hp, rfl⟩ := hc
  obtain ⟨q, hq, rfl⟩ := hn
  obtain rfl : p = q := Option.some.inj (hp.symm.trans hq)
  exact ⟨(hnet.places p (List.mem_of_getElem? hp)).initial, h p (List.mem_of_getElem? hp)⟩

/-- Whether or not it is within the capacities, a reached marking has an entry for each place and
none below zero. -/
theorem Reached.vectors (hm : Reached { net, capacity := net.capacityVector } marking)
    (hs : net.Sound config) : marking.length = net.size ∧ marking.Nonneg := by
  rcases hm.within (Net.nonneg_capacityVector hs.places) with rfl | hw
  · exact ⟨by simp, Net.nonneg_initialVector hs.places⟩
  · exact ⟨by simpa using (Vec.within_iff.1 hw).1.symm, nonneg_of_within hw⟩

/-- On every marking that firings lead to, a transition is found blocked exactly if it is inhibited,
save where the inhibitors are hidden.  That can happen on the marking the net starts from, and only
there if some place starts above its capacity, which a validating configuration rules out.  An
inhibited transition whose inhibitors are not hidden is never fired. -/
theorem guardCheck_iff_inhibited (hnet : net.Made config) (he : ofNet? net = .ok e)
    (hm : e.Reached marking) (ht : e.transition action = .ok t) (hk : multiplier value = .ok k) :
    ∃ blocked, e.guardCheck marking action value = .ok blocked ∧
      ((blocked = true ↔ e.Inhibited t marking k) ↔ ¬e.Hidden t marking k) ∧
      (e.Inhibited t marking k → ¬e.Hidden t marking k →
        e.fire marking action value =
          .ok ({ result := none, ok := false, role := t.role }, marking)) ∧
      ((config.validateCapacity = true ∨ marking ≠ net.initialVector ∨
          ∀ p ∈ net.places, 0 < p.capacity → p.initial ≤ p.capacity) →
        ¬e.Hidden t marking k) := by
  have hs := hnet.sound
  obtain rfl := ofNet?_eq_ok he
  have hreach := hm.within (Net.nonneg_capacityVector hs.places)
  obtain ⟨hlen, hpos⟩ := hm.vectors hs
  obtain ⟨blocked, hb, hiff⟩ := anyActive_of_fits (k := k) hs.vectors (by simp) hlen hpos
    (transition_mem ht)
  rw [found_iff] at hiff
  -- With the guard's verdict split into the two, the law fails exactly where the second part does.
  refine ⟨blocked, by rw [guardCheck_eq ht hk, hb], ⟨fun hlaw hhidden => ?_, fun hnot => ?_⟩,
    fun hin hnot => ?_, fun hstart => ?_⟩
  · exact (hiff.1 (hlaw.2 hhidden.1)).2 hhidden
  · rw [hiff]
    exact and_iff_left hnot
  · obtain rfl := hiff.2 ⟨hin, hnot⟩
    exact fire_of_blocked ht hk hb
  · refine not_hidden_of_within (multiplier_eq_ok.1 hk).2 ?_
    rcases hreach with rfl | hw
    · rcases hstart with hv | hne | hall
      · exact within_initialVector hs fun p hp => (hs.places p hp).validated hv
      · exact absurd rfl hne
      · exact within_initialVector hs hall
    · exact hw

end

end Engine

/-! ## One net that starts within its capacity, and one above it -/

namespace Gate

/-- The place inhibits the transition as soon as it holds anything, and feeds it three tokens. -/
def steps (initial : Int) : List Draft.Step :=
  [.place (.text "held") (.int initial) (.int 3) .null, .transition (.text "open") .null .null,
    .arc (.place "held") (.transition "open") (.int 1) (.bool true),
    .arc (.place "held") (.transition "open") (.int 3) (.bool false)]

def draft (config : Config) (initial : Int) : Draft :=
  Draft.follow { self := 0, net := { schema := .text "gate" }, config } (steps initial)

def built (config : Config) (initial : Int) : Net :=
  (Act.after Draft.build (draft config initial)).net

def engine (config : Config) (initial : Int) : Engine where
  net := built config initial
  capacity := (built config initial).capacityVector

/-- The defaults, but for places that may start above their capacity. -/
def lax : Config := { Config.default with validateCapacity := false }

theorem reached_draft (config : Config) (initial : Int) :
    Draft.Reached config (draft config initial) :=
  Draft.Reached.follow
    (@Draft.Reached.opened config 0 (.text "gate") (.text "petriNet") _ rfl) _

theorem made_within : (built .default 2).Made .default :=
  Net.made_of_build (reached_draft .default 2) rfl

theorem made_above : (built lax 5).Made lax := Net.made_of_build (reached_draft lax 5) rfl

end Gate

namespace Engine

open Gate

theorem gate_within_blocked :
    ∃ t, (engine .default 2).transition (.text "open") = .ok t ∧
      (engine .default 2).Inhibited t [2] 1 ∧
      (engine .default 2).guardCheck [2] (.text "open") (.int 1) = .ok true := by
  have ht : ∃ t, (engine .default 2).transition (.text "open") = .ok t := ⟨_, rfl⟩
  obtain ⟨t, ht⟩ := ht
  have hin : (engine .default 2).Inhibited t [2] 1 := by
    cases ht
    exact ⟨"held", 0, 1, ⟨⟨_, List.mem_singleton.2 rfl, rfl, rfl⟩, rfl, by decide⟩, 2, rfl,
      by decide⟩
  obtain ⟨blocked, hb, hlaw, -, hclear⟩ := guardCheck_iff_inhibited (k := 1) made_within rfl
    (.initial (e := engine .default 2)) ht (show multiplier (.int 1) = .ok 1 from rfl)
  obtain rfl := (hlaw.2 (hclear (Or.inl rfl))).2 hin
  exact ⟨t, ht, hin, hb⟩

/-- The place holds five tokens, four of which would still be above its capacity, so the guard is
not found active and the transition fires. -/
theorem gate_above_fires :
    (built lax 5).Made lax ∧ ofNet? (built lax 5) = .ok (engine lax 5) ∧
      (engine lax 5).Reached [5] ∧ ∃ t,
        (engine lax 5).transition (.text "open") = .ok t ∧ (engine lax 5).Inhibited t [5] 1 ∧
        (engine lax 5).guardCheck [5] (.text "open") (.int 1) = .ok false ∧
        ∃ shot, (engine lax 5).fire [5] (.text "open") (.int 1) = .ok (shot, [2]) ∧
          shot.ok = true := by
  refine ⟨made_above, rfl, .initial (e := engine lax 5), _, rfl, ?_, rfl, _, rfl, rfl⟩
  exact ⟨"held", 0, 1, ⟨⟨_, List.mem_singleton.2 rfl, rfl, rfl⟩, rfl, by decide⟩, 5, rfl,
    by decide⟩

end Engine

end TokenNet
