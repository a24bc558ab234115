import TokenNet.Proofs.Callers
import TokenNet.Proofs.Inhibition
/-!
The firing rule, entry by entry.  On a marking within its bounds a firing of a declared action by a
positive multiplier always comes to something, and `Engine.fire_rule` says to what: whether a guard
blocks it, what the discipline asks of the moved vector, which marking the caller is left with,
which vector is reported, and which callback is called, once and with what.

Guards are tested by arithmetic on whole vectors.  That this comes down to one place holding enough
is where the bounds of the marking are needed: with tokens taken off, no other place can be above
its capacity.
-/

namespace TokenNet

namespace Vec

/-- An entry for each capacity, none below zero, and none above a capacity that bounds. -/
structure InBounds (capacity v : Vec) : Prop where
  length : v.length = capacity.length
  nonneg : ∀ (i : Nat) (n : Int), v[i]? = some n → 0 ≤ n
  bounded : ∀ (i : Nat) (c n : Int), capacity[i]? = some c → v[i]? = some n → 0 < c → n ≤ c

/-- No place holds more than one token, and no two places hold any. -/
structure Single (v : Vec) : Prop where
  le_one : ∀ (i : Nat) (n : Int), v[i]? = some n → n ≤ 1
  unique : ∀ (i j : Nat) (m n : Int), v[i]? = some m → v[j]? = some n → 0 < m → 0 < n → i = j

theorem within_iff_inBounds {capacity v : Vec} : within capacity v = true ↔ InBounds capacity v := by
  rw [within_iff]
  constructor
  · intro h
    refine ⟨h.1.symm, fun i n hn => ?_, fun i c n hc hn => (h.2 i c n hc hn).2⟩
    have hi : i < capacity.length := h.1 ▸ (List.getElem?_eq_some_iff.1 hn).1
    exact (h.2 i capacity[i] n (by simp) hn).1
  · intro h
    exact ⟨h.length.symm, fun i c n hc hn => ⟨h.nonneg i n hn, h.bounded i c n hc hn⟩⟩

theorem nonneg_of_inBounds {capacity v : Vec} (h : InBounds capacity v) : v.Nonneg := by
  intro n hn
  obtain ⟨i, hi⟩ := List.mem_iff_getElem?.1 hn
  exact h.nonneg i n hi

/-- Counting the places that hold something finds one at most, or two of them are the same. -/
theorem countP_pos_le_one_iff {v : Vec} : v.countP (fun n => decide (0 < n)) ≤ 1 ↔
    ∀ (i j : Nat) (m n : Int), v[i]? = some m → v[j]? = some n → 0 < m → 0 < n → i = j := by
  induction v with
  | nil => simp
  | cons head rest ih =>
    by_cases hhead : 0 < head
    · rw [List.countP_cons_of_pos (by simpa using hhead), ← Nat.succ_eq_add_one, Nat.succ_le_succ_iff,
        Nat.le_zero, List.countP_eq_zero]
      constructor
      · intro h i j m n hm hn hmpos hnpos
        have at_head : ∀ (i : Nat) (m : Int), (head :: rest)[i]? = some m → 0 < m → i = 0 := by
          intro i m hm hmpos
          cases i with
          | zero => rfl
          | succ i => exact absurd (decide_eq_true hmpos) (h m (List.mem_of_getElem? hm))
        rw [at_head i m hm hmpos, at_head j n hn hnpos]
      · intro h n hn hpos
        obtain ⟨j, hj⟩ := List.mem_iff_getElem?.1 hn
        have := h 0 (j + 1) head n rfl hj hhead (of_decide_eq_true hpos)
        omega
    · rw [List.countP_cons_of_neg (by simpa using hhead), ih]
      constructor
      · intro h i j m n hm hn hmpos hnpos
        cases i with
        | zero => exact absurd (Option.some.inj hm ▸ hmpos) hhead
        | succ i =>
          cases j with
          | zero => exact absurd (Option.some.inj hn ▸ hnpos) hhead
          | succ j => rw [h i j m n hm hn hmpos hnpos]
      · intro h i j m n hm hn hmpos hnpos
        have := h (i + 1) (j + 1) m n hm hn hmpos hnpos
        omega

theorem elementary_iff_single {v : Vec} : elementary v = true ↔ Single v := by
  rw [elementary_iff, countP_pos_le_one_iff]
  constructor
  · intro h
    exact ⟨fun i n hn => h.1 n (List.mem_of_getElem? hn), h.2⟩
  · intro h
    refine ⟨fun n hn => ?_, h.unique⟩
    obtain ⟨i, hi⟩ := List.mem_iff_getElem?.1 hn
    exact h.le_one i n hi

end Vec

namespace Discipline

/-- The condition that a discipline puts on the moved vector. -/
def Allows (d : Discipline) (capacity raw : Vec) : Prop :=
  match d with
  | .petriNet => Vec.InBounds capacity raw
  | .stateMachine => Vec.InBounds capacity raw ∧ Vec.Single raw
  | .workflow => Vec.Single raw

theorem accepts_iff_allows {d : Discipline} {capacity raw : Vec} :
    d.accepts capacity raw = true ↔ d.Allows capacity raw := by
  cases d with
  | petriNet => exact Vec.within_iff_inBounds
  | stateMachine =>
    simp only [accepts, Allows, Bool.and_eq_true, Vec.within_iff_inBounds,
      Vec.elementary_iff_single]
  | workflow => exact Vec.elementary_iff_single

end Discipline

namespace Engine

variable {e : Engine} {config : Config} {net : Net} {marking : Vec} {action value : Datum}
  {t : Transition} {k : Int}

/-- Within bounds nothing hides an inhibitor, so the guards are found active exactly if the
transition is inhibited. -/
theorem anyActive_of_inBounds (hv : e.net.VectorsFit) (hc : e.capacity.length = e.net.size)
    (hm : Vec.InBounds e.capacity marking) (ht : t ∈ e.net.transitions) (hk : 0 < k) :
    ∃ blocked, e.anyActive marking k t.guards = .ok blocked ∧
      (blocked = true ↔ e.Inhibited t marking k) := by
  obtain ⟨blocked, hb, hiff⟩ := anyActive_of_fits (k := k) hv hc (hm.length.trans hc)
    (Vec.nonneg_of_inBounds hm) ht
  refine ⟨blocked, hb, ?_⟩
  rw [hiff, found_iff]
  exact and_iff_left (not_hidden_of_within hk (Vec.within_iff_inBounds.2 hm))

/-- What a firing from a marking within bounds comes to, on any net that was made.  It is accepted
exactly if no inhibitor's place holds enough and the discipline allows the moved vector.  Then that
vector, cut off at zero in a workflow, is the caller's marking when `resolve` is called; otherwise
`reject` is called, and the marking is as it was.  The vector is reported either way, save where a
guard blocked the firing. -/
theorem fire_rule {σ : Type} {c : Caller σ} {I : σ → Prop} {st : σ} (hnet : net.Made config)
    (he : ofNet? net = .ok e) (hc : c.Lawful I) (hst : I st)
    (hm : Vec.InBounds e.capacity (c.marking st)) (ht : e.transition action = .ok t)
    (hk : multiplier value = .ok k) :
    ∃ (raw : Vec) (shot : Shot), raw.length = net.size ∧ t.delta.length = net.size ∧
      (∀ (i : Nat) (n change : Int), (c.marking st)[i]? = some n → t.delta[i]? = some change →
        raw[i]? = some (n + k * change)) ∧
      (shot.ok = true ↔
        ¬e.Inhibited t (c.marking st) k ∧ net.discipline.Allows net.capacityVector raw) ∧
      (shot.ok = true →
        c.Calls e action value st .resolve shot (net.discipline.settled raw)) ∧
      (shot.ok = false → c.Calls e action value st .reject shot (c.marking st)) ∧
      (e.Inhibited t (c.marking st) k → shot.result = none) ∧
      (¬e.Inhibited t (c.marking st) k → shot.result = some (net.discipline.settled raw)) := by
  have hs := hnet.sound
  obtain rfl := ofNet?_eq_ok he
  have hmem := transition_mem ht
  have hsize : t.delta.length = net.size := hs.vectors.delta t hmem
  have hdelta : t.delta.length = net.capacityVector.length := by
    rw [hsize, Net.length_capacityVector]
  have hlen : (c.marking st).length = t.delta.length := hm.length.trans hdelta.symm
  obtain ⟨blocked, hb, hiff⟩ := anyActive_of_inBounds hs.vectors (by simp) hm hmem
    (multiplier_eq_ok.1 hk).2
  have hraw : (Vec.moved (c.marking st) t.delta k).length = net.size := by
    rw [Vec.length_moved, hlen, Nat.min_self, hsize]
  have hentry : ∀ (i : Nat) (n change : Int), (c.marking st)[i]? = some n →
      t.delta[i]? = some change →
      (Vec.moved (c.marking st) t.delta k)[i]? = some (n + k * change) := by
    intro i n change hn hd
    rw [Vec.getElem?_moved hn hd, Int.mul_comm]
  cases blocked with
  | true =>
    have hin := hiff.1 rfl
    have hfire := fire_of_blocked ht hk hb
    refine ⟨_, _, hraw, hsize, hentry, ?_, ?_, hc.calls_reject hst hfire, ?_, ?_⟩
    · exact ⟨fun h => absurd h Bool.false_ne_true, fun h => absurd hin h.1⟩
    · exact fun h => absurd h Bool.false_ne_true
    · exact fun _ => rfl
    · exact fun h => absurd hin h
  | false =>
    have hout : ¬Engine.Inhibited _ t (c.marking st) k := fun h => Bool.false_ne_true (hiff.2 h)
    have hfire := fire_of_clear ht hk hb hlen hdelta
    refine ⟨_, _, hraw, hsize, hentry, ?_, ?_, hc.calls_reject hst hfire, ?_, ?_⟩
    · exact Discipline.accepts_iff_allows.trans (and_iff_right hout).symm
    · intro hok
      have hcommit : commit (c.marking st) _ = net.discipline.settled _ := if_pos hok
      exact hcommit ▸ hc.calls_resolve hst hfire hok
    · exact fun h => absurd h hout
    · exact fun _ => rfl

end Engine

/-! ## A crossing that a storm blocks -/

namespace Ferry

/-- Passengers arrive at the dock, go aboard unless there is a storm, and leave the boat. -/
def steps : List Draft.Step :=
  [.place (.text "dock") (.int 1) (.int 1) .null, .place (.text "boat") .null (.int 1) .null,
    .place (.text "storm") .null .null .null, .transition (.text "arrive") .null .null,
    .transition (.text "board") .null .null, .transition (.text "leave") .null .null,
    .arc (.transition "arrive") (.place "dock") (.int 1) (.bool false),
    .arc (.place "dock") (.transition "board") (.int 1) (.bool false),
    .arc (.transition "board") (.place "boat") (.int 1) (.bool false),
    .arc (.place "storm") (.transition "board") (.int 1) (.bool true),
    .arc (.place "boat") (.transition "leave") (.int 1) (.bool false)]

def draft : Draft :=
  Draft.follow { self := 0, net := { schema := .text "ferry", discipline := .workflow }
                 config := .default } steps

def net : Net := (Act.after Draft.build draft).net

def engine : Engine := { net, capacity := net.capacityVector }

set_option maxRecDepth 1024 in
theorem made : net.Made .default :=
  Net.made_of_build (Draft.Reached.follow
    (@Draft.Reached.opened .default 0 (.text "ferry") (.text "workflow") _ rfl) _) rfl

/-- A caller who keeps nothing but the marking and is called back either way. -/
def crew : Caller Vec where
  marking v := v
  withMarking v _ := v
  report _ := return ()
  given _ := some fun shot => return shot

theorem lawful_crew : crew.Lawful fun _ => True where
  marking_withMarking _ _ _ := rfl
  withMarking _ _ _ := trivial
  report _ _ _ _ v _ := ⟨v, rfl, rfl⟩

/-- Which callback boarding from a marking runs, and the marking that it finds. -/
def boarded (marking : Vec) : List (Callback × Vec) :=
  (Act.apply (crew.recording.fire engine (.text "board") (.int 1)) (marking, [])).2.2.map
    fun call => (call.which, call.marking)

theorem boarded_eq {marking : Vec} {which : Callback} {shot : Shot} {next : Vec}
    (h : crew.Calls engine (.text "board") (.int 1) marking which shot next) :
    boarded marking = [(which, next)] := by
  obtain ⟨mid, -, -, h⟩ := h
  rw [boarded, h]
  rfl

end Ferry

namespace Engine

open Ferry

set_option maxRecDepth 1024 in
/-- Nobody at the dock counts as somebody in a workflow, so the boat fills all the same; in a storm
it does not. -/
theorem ferry_rule : ∃ t, engine.transition (.text "board") = .ok t ∧
    (¬engine.Inhibited t [0, 0, 0] 1 ∧ ∃ shot,
      crew.Calls engine (.text "board") (.int 1) [0, 0, 0] .resolve shot [0, 1, 0]) ∧
    (engine.Inhibited t [1, 0, 1] 1 ∧ ∃ shot,
      crew.Calls engine (.text "board") (.int 1) [1, 0, 1] .reject shot [1, 0, 1] ∧
        shot.result = none) := by
  have hcalm : Vec.InBounds engine.capacity (crew.marking [0, 0, 0]) :=
    Vec.within_iff_inBounds.1 rfl
  have hstorm : Vec.InBounds engine.capacity (crew.marking [1, 0, 1]) :=
    Vec.within_iff_inBounds.1 rfl
  obtain ⟨t, ht⟩ : ∃ t, engine.transition (.text "board") = .ok t := ⟨_, rfl⟩
  have hk : multiplier (.int 1) = .ok 1 := rfl
  have hin : engine.Inhibited t [1, 0, 1] 1 := by
    cases ht
    exact ⟨"storm", 2, 1, ⟨⟨_, List.mem_singleton.2 rfl, rfl, rfl⟩, rfl, by decide⟩, 1, rfl,
      by decide⟩
  obtain ⟨raw, calm, -, -, -, hcalmOk, hleft, hkept, -⟩ :=
    fire_rule made rfl lawful_crew trivial hcalm ht hk
  obtain ⟨_, storm, -, -, -, hstormOk, -, huntouched, hresult, -⟩ :=
    fire_rule made rfl lawful_crew trivial hstorm ht hk
  have hboarded : boarded [0, 0, 0] = [(.resolve, [0, 1, 0])] := rfl
  have hok : calm.ok = true := by
    refine eq_true_of_ne_false fun h => ?_
    have hrejected := (boarded_eq (hkept h)).symm.trans hboarded
    cases hrejected
  have hmoved : Ferry.net.discipline.settled raw = [0, 1, 0] :=
    congrArg Prod.snd (List.head_eq_of_cons_eq ((boarded_eq (hleft hok)).symm.trans hboarded))
  have hrefused : storm.ok = false :=
    Bool.eq_false_iff.2 fun h => (hstormOk.1 h).1 hin
  exact ⟨t, ht, ⟨(hcalmOk.1 hok).1, calm, hmoved ▸ hleft hok⟩,
    hin, storm, huntouched hrefused, hresult hin⟩

end Engine

end TokenNet
