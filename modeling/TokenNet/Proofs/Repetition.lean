import Mathlib
import TokenNet.Proofs.Disciplines
import TokenNet.Proofs.Rule
/-!
Firing by a multiplier against firing by one as many times over.  The one firing looks at the last
marking only and the others at every marking on the way, so this is about what lies in between: a
step of a way made in equal steps stays between its ends, and cutting off negative entries once
comes to the same as doing so after every step.  Main statement: `Engine.accepted?_eq_run?`.
-/

namespace TokenNet

namespace Vec

variable {capacity v delta : Vec} {k : Int} {i : Nat}

/-- What is left of a way after its first step goes on in the same direction. -/
theorem mul_succ_eq (change : Int) (n : Nat) : ∃ rest, change * ((n : Int) + 1) = change + rest ∧
    (0 ≤ change → 0 ≤ rest) ∧ (change ≤ 0 → rest ≤ 0) := by
  refine ⟨change * n, by ring, fun h => ?_, fun h => ?_⟩
  · exact Int.mul_nonneg h (Int.natCast_nonneg n)
  · exact Int.mul_nonpos_of_nonpos_of_nonneg h (Int.natCast_nonneg n)

/-- Every entry of a moved vector comes of an entry of the state and one of the delta. -/
theorem exists_of_getElem?_moved {n : Int} (h : (moved v delta k)[i]? = some n) :
    ∃ value change, v[i]? = some value ∧ delta[i]? = some change ∧ n = value + change * k := by
  obtain ⟨value, change, hv, hd, hn⟩ := List.getElem?_zipWith_eq_some.1 h
  exact ⟨value, change, hv, hd, hn.symm⟩

theorem moved_moved (v delta : Vec) (k l : Int) :
    moved (moved v delta k) delta l = moved v delta (k + l) := by
  induction v generalizing delta with
  | nil => rfl
  | cons value v ih =>
    cases delta with
    | nil => rfl
    | cons change delta =>
      have hhead : value + change * k + change * l = value + change * (k + l) := by ring
      have htail : moved (moved v delta k) delta l = moved v delta (k + l) := ih delta
      simp only [moved, List.zipWith_cons_cons] at htail ⊢
      rw [hhead, htail]

/-- An entry that the first step cuts off has a negative change, so the steps after it cut it off
again. -/
theorem clip_moved_clip (hv : v.Nonneg) (n : Nat) :
    clip (moved (clip (moved v delta 1)) delta n) = clip (moved v delta ((n : Int) + 1)) := by
  induction v generalizing delta with
  | nil => rfl
  | cons value v ih =>
    cases delta with
    | nil => rfl
    | cons change delta =>
      have hvalue : 0 ≤ value := hv value List.mem_cons_self
      have hhead : max 0 (max 0 (value + change * 1) + change * n) =
          max 0 (value + change * ((n : Int) + 1)) := by
        obtain ⟨rest, hrest, hup, hdown⟩ := mul_succ_eq change n
        have hmul : change * (n : Int) = rest := by linarith
        rw [hmul, hrest]
        omega
      have htail := @ih delta fun m hm => hv m (List.mem_cons_of_mem _ hm)
      simp only [moved, clip, List.zipWith_cons_cons, List.map_cons] at htail ⊢
      rw [hhead, htail]

theorem inBounds_first {n : Nat} (hv : InBounds capacity v)
    (h : InBounds capacity (moved v delta ((n : Int) + 1))) :
    InBounds capacity (moved v delta 1) := by
  refine ⟨?_, fun i m hm => ?_, fun i c m hc hm hpos => ?_⟩
  · rw [length_moved, ← h.length, length_moved]
  · obtain ⟨value, change, hvalue, hchange, rfl⟩ := exists_of_getElem?_moved hm
    have hstart := hv.nonneg i value hvalue
    have hend := h.nonneg i _ (getElem?_moved hvalue hchange)
    obtain ⟨rest, hrest, hup, hdown⟩ := mul_succ_eq change n
    omega
  · obtain ⟨value, change, hvalue, hchange, rfl⟩ := exists_of_getElem?_moved hm
    have hstart := hv.bounded i c value hc hvalue hpos
    have hend := h.bounded i c _ hc (getElem?_moved hvalue hchange) hpos
    obtain ⟨rest, hrest, hup, hdown⟩ := mul_succ_eq change n
    omega

/-- Where there is a token after the first step, there is one at the end: if the step took any
away, it took the only one. -/
theorem single_first {n : Nat} (hone : ∀ m ∈ v, m ≤ 1)
    (h : Single (moved v delta ((n : Int) + 1))) : Single (moved v delta 1) := by
  have holds : ∀ (i : Nat) (m : Int), (moved v delta 1)[i]? = some m → 0 < m →
      ∃ last, (moved v delta ((n : Int) + 1))[i]? = some last ∧ 0 < last := by
    intro i m hm hpos
    obtain ⟨value, change, hvalue, hchange, rfl⟩ := exists_of_getElem?_moved hm
    refine ⟨_, getElem?_moved hvalue hchange, ?_⟩
    have hstart := hone value (List.mem_of_getElem? hvalue)
    obtain ⟨rest, hrest, hup, -⟩ := mul_succ_eq change n
    omega
  refine ⟨fun i m hm => ?_, fun i j m m' hm hm' hpos hpos' => ?_⟩
  · obtain ⟨value, change, hvalue, hchange, rfl⟩ := exists_of_getElem?_moved hm
    have hstart := hone value (List.mem_of_getElem? hvalue)
    have hend := h.le_one i _ (getElem?_moved hvalue hchange)
    obtain ⟨rest, hrest, hup, hdown⟩ := mul_succ_eq change n
    omega
  · obtain ⟨last, hlast, hlastPos⟩ := holds i m hm hpos
    obtain ⟨last', hlast', hlastPos'⟩ := holds j m' hm' hpos'
    exact h.unique i j last last' hlast hlast' hlastPos hlastPos'

end Vec

namespace Discipline

variable {d : Discipline} {capacity v delta : Vec}

/-- What a discipline lets pass shows in the vector it settles. -/
theorem accepts_congr {raw raw' : Vec} (h : d.settled raw = d.settled raw') :
    d.accepts capacity raw = d.accepts capacity raw' := by
  cases d with
  | petriNet | stateMachine =>
    simp only [settled] at h
    rw [h]
  | workflow =>
    simp only [settled] at h
    simp only [accepts]
    rw [← Vec.elementary_clip, h, Vec.elementary_clip]

/-- Settling after the first step changes nothing of what is settled at the end. -/
theorem settled_moved_settled (d : Discipline) (hv : v.Nonneg) (delta : Vec) (n : Nat) :
    d.settled (Vec.moved (d.settled (Vec.moved v delta 1)) delta n) =
      d.settled (Vec.moved v delta ((n : Int) + 1)) := by
  cases d with
  | petriNet | stateMachine =>
    simp only [settled]
    rw [Vec.moved_moved, Int.add_comm]
  | workflow => exact Vec.clip_moved_clip hv n

/-- What lets the whole way pass lets its first step pass. -/
theorem accepts_first {n : Nat} (hv : Vec.InBounds capacity v)
    (hone : d ≠ .petriNet → ∀ m ∈ v, m ≤ 1)
    (h : d.accepts capacity (Vec.moved v delta ((n : Int) + 1)) = true) :
    d.accepts capacity (Vec.moved v delta 1) = true := by
  rw [accepts_iff_allows] at h ⊢
  cases d with
  | petriNet => exact Vec.inBounds_first hv h
  | stateMachine =>
    have hone := hone (by decide)
    exact ⟨Vec.inBounds_first hv h.1, Vec.single_first hone h.2⟩
  | workflow => exact Vec.single_first (hone (by decide)) h

/-- Of a vector that is let pass and settled, no entry is above one, save in a plain net. -/
theorem le_one_settled {raw : Vec} (hd : d ≠ .petriNet) (h : d.accepts capacity raw = true) :
    ∀ m ∈ d.settled raw, m ≤ 1 := by
  cases d with
  | petriNet => exact absurd rfl hd
  | stateMachine =>
    simp only [accepts, Bool.and_eq_true] at h
    exact (Vec.elementary_iff.1 h.2).1
  | workflow =>
    simp only [accepts] at h
    rw [← Vec.elementary_clip] at h
    exact (Vec.elementary_iff.1 h).1

/-- A vector that is let pass is within its bounds once it is settled: a place that has a bound has
room for one. -/
theorem inBounds_settled {raw : Vec} (hlen : raw.length = capacity.length)
    (h : d.accepts capacity raw = true) : Vec.InBounds capacity (d.settled raw) := by
  have hone := fun hd => le_one_settled (d := d) hd h
  cases d with
  | petriNet => exact Vec.within_iff_inBounds.1 h
  | stateMachine =>
    simp only [accepts, Bool.and_eq_true] at h
    exact Vec.within_iff_inBounds.1 h.1
  | workflow =>
    refine ⟨(length_settled _ raw).trans hlen,
      fun i n hn => Vec.nonneg_of_mem_clip (List.mem_of_getElem? hn), fun i c n _ hn hpos => ?_⟩
    have hle := hone (by decide) n (List.mem_of_getElem? hn)
    omega

end Discipline

namespace Engine

variable {e : Engine} {marking next : Vec} {action : Datum} {t : Transition} {k : Int}

/-- An accepted move is made on vectors of one length, and leaves what the next can start from. -/
theorem accepted?_sound {value : Datum} (ht : e.transition action = .ok t)
    (h : e.accepted? marking (action, value) = some next) :
    t.delta.length = e.capacity.length ∧ Vec.InBounds e.capacity next ∧
      (e.net.discipline ≠ .petriNet → ∀ m ∈ next, m ≤ 1) := by
  unfold accepted? at h
  split at h
  next shot left hf =>
    split at h
    next hok =>
      cases h
      obtain ⟨t', k, ht', -, -, hm, hc, hpass, rfl⟩ := fire_accepted hf hok
      obtain rfl := Except.ok.inj (ht.symm.trans ht')
      exact ⟨hc, Discipline.inBounds_settled (length_moved_of_lengths hm hc) hpass,
        fun hd => Discipline.le_one_settled hd hpass⟩
    next => cases h
  next => cases h

/-- With no guards the discipline alone decides. -/
theorem accepted?_of_unguarded (ht : e.transition action = .ok t) (hg : t.guards = [])
    (hk : 0 < k) (hm : marking.length = t.delta.length)
    (hc : t.delta.length = e.capacity.length) :
    e.accepted? marking (action, .int k) =
      if e.net.discipline.accepts e.capacity (Vec.moved marking t.delta k) then
        some (e.net.discipline.settled (Vec.moved marking t.delta k))
      else none := by
  have hmul : multiplier (.int k) = .ok k := multiplier_eq_ok.2 ⟨rfl, hk⟩
  have hclear : e.anyActive marking k t.guards = .ok false := by
    rw [hg]
    rfl
  simp only [accepted?, fire_of_clear ht hmul hclear hm hc, openShot, commit]
  by_cases hpass : e.net.discipline.accepts e.capacity (Vec.moved marking t.delta k) = true
  · simp only [hpass, if_true, Option.getD_some]
  · simp only [if_neg hpass]

/-- The step of the induction: one firing more is a firing by one, and then all the others. -/
theorem accepted?_succ (ht : e.transition action = .ok t) (hg : t.guards = [])
    (hc : t.delta.length = e.capacity.length) (hm : Vec.InBounds e.capacity marking)
    (hone : e.net.discipline ≠ .petriNet → ∀ m ∈ marking, m ≤ 1) {n : Nat} (hn : 0 < n) :
    e.accepted? marking (action, .int ((n : Int) + 1)) =
      (e.accepted? marking (action, .int 1)).bind
        fun next => e.accepted? next (action, .int n) := by
  have hlen : marking.length = t.delta.length := hm.length.trans hc.symm
  rw [accepted?_of_unguarded ht hg (by omega) hlen hc,
    accepted?_of_unguarded ht hg Int.one_pos hlen hc]
  have hfirst : e.net.discipline.accepts e.capacity
        (Vec.moved marking t.delta ((n : Int) + 1)) = true →
      e.net.discipline.accepts e.capacity (Vec.moved marking t.delta 1) = true :=
    Discipline.accepts_first hm hone
  have hsettled := e.net.discipline.settled_moved_settled (Vec.nonneg_of_inBounds hm) t.delta n
  cases hpass : e.net.discipline.accepts e.capacity (Vec.moved marking t.delta 1) with
  | false =>
    rw [if_neg fun h => Bool.false_ne_true (hpass.symm.trans (hfirst h))]
    rfl
  | true =>
    have hlenFirst : (e.net.discipline.settled (Vec.moved marking t.delta 1)).length =
        t.delta.length := by
      rw [Discipline.length_settled, Vec.length_moved, hlen, Nat.min_self]
    simp only [if_true, Option.bind_some]
    rw [accepted?_of_unguarded ht hg (by omega) hlenFirst hc,
      Discipline.accepts_congr hsettled, hsettled]

/-- The induction: a firing by one leaves a marking from which the rest can be done in the same
way. -/
theorem accepted?_times (ht : e.transition action = .ok t) (hg : t.guards = [])
    (hc : t.delta.length = e.capacity.length) (hm : Vec.InBounds e.capacity marking)
    (hone : e.net.discipline ≠ .petriNet → ∀ m ∈ marking, m ≤ 1) (n : Nat) :
    e.accepted? marking (action, .int ((n : Int) + 1)) =
      (e.run? marking (List.replicate (n + 1) (action, .int 1))).map
        fun trace => trace.getLastD marking := by
  induction n generalizing marking with
  | zero =>
    show e.accepted? marking (action, .int 1) = _
    simp only [List.replicate, run?]
    cases e.accepted? marking (action, .int 1) with
    | none => rfl
    | some next => rfl
  | succ n ih =>
    rw [accepted?_succ ht hg hc hm hone n.succ_pos, List.replicate_succ, run?]
    cases hnext : e.accepted? marking (action, .int 1) with
    | none => rfl
    | some next =>
      obtain ⟨-, hin, hleft⟩ := accepted?_sound ht hnext
      have hrest := ih hin hleft
      rw [Option.bind_some, Nat.cast_succ, hrest]
      simp only [Option.map_map, Function.comp_def, List.getLastD_cons]

/-- A transition without guards fires by a multiplier exactly if it fires as many times by one, each
time from what the last firing left, and both end in the same marking.  A state machine and a
workflow must start with at most one token. -/
theorem accepted?_eq_run? (hm : Vec.InBounds e.capacity marking)
    (hone : e.net.discipline ≠ .petriNet → Vec.Single marking)
    (ht : e.transition action = .ok t) (hg : t.guards = []) {n : Nat} (hn : 0 < n) :
    e.accepted? marking (action, .int n) =
      (e.run? marking (List.replicate n (action, .int 1))).map
        fun trace => trace.getLastD marking := by
  obtain ⟨n, rfl⟩ := Nat.exists_eq_succ_of_ne_zero (Nat.ne_of_gt hn)
  by_cases hc : t.delta.length = e.capacity.length
  · refine accepted?_times ht hg hc hm (fun hd m hmem => ?_) n
    obtain ⟨i, hi⟩ := List.mem_iff_getElem?.1 hmem
    exact (hone hd).le_one i m hi
  · -- Vectors of two lengths let no firing pass, be it by one or by more.
    have hnone : ∀ value, e.accepted? marking (action, value) = none := fun value =>
      Option.eq_none_iff_forall_ne_some.2 fun next h => hc (accepted?_sound ht h).1
    rw [hnone, List.replicate_succ, run?, hnone]
    rfl

open Ferry

set_option maxRecDepth 1024 in
/-- Three can leave a boat that holds one, in one go or one by one.  Two can arrive in neither way,
although the first of them could. -/
theorem ferry_repeats :
    engine.accepted? [0, 1, 0] (.text "leave", .int (3 : Nat)) = some [0, 0, 0] ∧
      engine.accepted? [0, 0, 0] (.text "arrive", .int (2 : Nat)) = none := by
  have hfull : Vec.InBounds engine.capacity [0, 1, 0] := Vec.within_iff_inBounds.1 rfl
  have hempty : Vec.InBounds engine.capacity [0, 0, 0] := Vec.within_iff_inBounds.1 rfl
  obtain ⟨t, ht, hg⟩ : ∃ t, engine.transition (.text "leave") = .ok t ∧ t.guards = [] :=
    ⟨_, rfl, rfl⟩
  obtain ⟨t', ht', hg'⟩ : ∃ t, engine.transition (.text "arrive") = .ok t ∧ t.guards = [] :=
    ⟨_, rfl, rfl⟩
  have hleave := accepted?_eq_run? hfull (fun _ => Vec.elementary_iff_single.1 rfl) ht hg
    (n := 3) (by decide)
  have harrive := accepted?_eq_run? hempty (fun _ => Vec.elementary_iff_single.1 rfl) ht' hg'
    (n := 2) (by decide)
  refine ⟨hleave.trans ?_, harrive.trans ?_⟩
  · rfl
  · rfl

end Engine

end TokenNet
