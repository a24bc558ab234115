import Mathlib
import TokenNet.Proofs.Declared
import TokenNet.Proofs.Inhibition
/-!
The three disciplines side by side, on nets with the same vectors.  What a state machine accepts is
what a petri net and a workflow both accept, and it leaves what either of them leaves, since cutting
off negative entries changes nothing within bounds.  Main statement: `Engine.disciplines_ordered`,
for one firing and for runs of any length.
-/

namespace TokenNet

theorem Vec.clip_of_nonneg {v : Vec} (h : v.Nonneg) : v.clip = v := by
  have hentry : ∀ n ∈ v, max 0 n = id n := fun n hn => by
    have hge := h n hn
    simp only [id_eq]
    omega
  rw [clip, List.map_congr_left hentry, List.map_id]

namespace Discipline

/-- A state machine lets pass what the two others both let pass. -/
theorem accepts_stateMachine {capacity raw : Vec} :
    stateMachine.accepts capacity raw = true ↔
      petriNet.accepts capacity raw = true ∧ workflow.accepts capacity raw = true := by
  simp only [accepts, Bool.and_eq_true]

/-- Within bounds no discipline changes the vector. -/
theorem settled_of_within (d : Discipline) {capacity raw : Vec}
    (h : Vec.within capacity raw = true) : d.settled raw = raw := by
  cases d with
  | workflow => exact Vec.clip_of_nonneg (Engine.nonneg_of_within h)
  | petriNet | stateMachine => rfl

/-- What a state machine lets pass, every discipline does, and leaves it as it is. -/
theorem accepts_of_stateMachine (d : Discipline) {capacity raw : Vec}
    (h : stateMachine.accepts capacity raw = true) :
    d.accepts capacity raw = true ∧ d.settled raw = raw := by
  have hboth := accepts_stateMachine.1 h
  refine ⟨?_, d.settled_of_within hboth.1⟩
  cases d with
  | petriNet => exact hboth.1
  | workflow => exact hboth.2
  | stateMachine => exact h

end Discipline

namespace Engine

/-- The engine with its net put under a discipline. -/
def under (d : Discipline) (e : Engine) : Engine :=
  { e with net := { e.net with discipline := d } }

/-- The marking that an accepted move leaves; none if it is refused or fails. -/
def accepted? (e : Engine) (marking : Vec) (move : Datum × Datum) : Option Vec :=
  match e.fire marking move.1 move.2 with
  | .ok (shot, next) => if shot.ok then some next else none
  | .error _ => none

/-- The markings that one move after another leaves, if all of them are accepted. -/
def run? (e : Engine) (marking : Vec) : List (Datum × Datum) → Option (List Vec)
  | [] => some []
  | move :: rest =>
    match e.accepted? marking move with
    | some next => (e.run? next rest).map (next :: ·)
    | none => none

variable {e : Engine} {marking next : Vec} {move : Datum × Datum} {action value : Datum}
  {t : Transition} {k : Int}

theorem anyActive_under (d : Discipline) (guards : Table String Guard) :
    (e.under d).anyActive marking k guards = e.anyActive marking k guards := by
  have hcapacity : (e.under d).capacity = e.capacity := rfl
  exact anyActive_congr hcapacity k guards

/-- The discipline only has its say on the moved vector. -/
theorem accepted?_under {d : Discipline} : (e.under d).accepted? marking move = some next ↔
    ∃ t k, e.transition move.1 = .ok t ∧ multiplier move.2 = .ok k ∧
      e.anyActive marking k t.guards = .ok false ∧ marking.length = t.delta.length ∧
      t.delta.length = e.capacity.length ∧
      d.accepts e.capacity (Vec.moved marking t.delta k) = true ∧
      next = d.settled (Vec.moved marking t.delta k) := by
  unfold accepted?
  constructor
  · intro h
    split at h
    next shot left hf =>
      split at h
      next hok =>
        cases h
        obtain ⟨t, k, ht, hk, hb, hm, hc, hacc, hnext⟩ := fire_accepted hf hok
        rw [anyActive_under] at hb
        exact ⟨t, k, ht, hk, hb, hm, hc, hacc, hnext⟩
      next => cases h
    next => cases h
  · rintro ⟨t, k, ht, hk, hb, hm, hc, hacc, rfl⟩
    rw [← anyActive_under d] at hb
    rw [fire_of_clear (e := e.under d) ht hk hb hm hc]
    have hok : ((e.under d).openShot marking t k).ok = true := hacc
    simp only [hok, if_true, commit]
    rfl

theorem accepted?_of_stateMachine (d : Discipline)
    (h : (e.under .stateMachine).accepted? marking move = some next) :
    (e.under d).accepted? marking move = some next := by
  obtain ⟨t, k, ht, hk, hb, hm, hc, hacc, hnext⟩ := accepted?_under.1 h
  obtain ⟨haccepts, hsettled⟩ := d.accepts_of_stateMachine hacc
  exact accepted?_under.2 ⟨t, k, ht, hk, hb, hm, hc, haccepts, hnext.trans hsettled.symm⟩

theorem run?_append (e : Engine) (marking : Vec) (moves moves' : List (Datum × Datum)) :
    e.run? marking (moves ++ moves') = (e.run? marking moves).bind fun trace =>
      (e.run? (trace.getLastD marking) moves').map (trace ++ ·) := by
  induction moves generalizing marking with
  | nil => simp [run?]
  | cons move rest ih =>
    rw [List.cons_append, run?, run?]
    cases e.accepted? marking move with
    | none => rfl
    | some next =>
      simp only [ih]
      cases e.run? next rest with
      | none => rfl
      | some trace =>
        simp only [Option.bind_some, Option.map_some, List.getLastD_cons, Option.map_map]
        rfl

/-- The induction over a run: whatever a state machine passes through, every discipline does. -/
theorem run?_of_stateMachine (d : Discipline) {moves : List (Datum × Datum)} {trace : List Vec}
    (h : (e.under .stateMachine).run? marking moves = some trace) :
    (e.under d).run? marking moves = some trace := by
  induction moves generalizing marking trace with
  | nil => exact h
  | cons move rest ih =>
    simp only [run?] at h ⊢
    cases hsm : (e.under .stateMachine).accepted? marking move with
    | none => simp [hsm] at h
    | some next =>
      rw [hsm] at h
      obtain ⟨left, hleft, rfl⟩ := Option.map_eq_some_iff.1 h
      rw [accepted?_of_stateMachine d hsm]
      simp only [ih hleft, Option.map_some]

/-- On vectors that fit, every move of a declared action by a positive multiplier comes to something
under each discipline: it is blocked under all of them, or each has its say on the moved vector. -/
theorem fire_under (hv : e.net.VectorsFit) (hc : e.capacity.length = e.net.size)
    (hm : marking.length = e.net.size) (ht : e.transition action = .ok t)
    (hk : multiplier value = .ok k) :
    (∀ d, (e.under d).fire marking action value =
        .ok ({ result := none, ok := false, role := t.role }, marking)) ∨
      ∀ d, (e.under d).fire marking action value =
        .ok ((e.under d).openShot marking t k,
          commit marking ((e.under d).openShot marking t k)) := by
  have hmem := transition_mem ht
  have hguards := length_guards hv hc hm hmem
  have hdelta := hv.delta t hmem
  have hany := anyActive_eq (e := e) (k := k) hguards
  generalize (t.guards.any fun entry =>
    Vec.within e.capacity (Vec.moved marking entry.2.delta k)) = blocked at hany
  cases blocked with
  | true =>
    refine Or.inl fun d => fire_of_blocked (e := e.under d) ht hk ?_
    rw [anyActive_under, hany]
  | false =>
    refine Or.inr fun d => fire_of_clear (e := e.under d) ht hk ?_ (hm.trans hdelta.symm)
      (hdelta.trans hc.symm)
    rw [anyActive_under, hany]

/-- One compiled net under each of the three disciplines, on any marking of its length.  Every move
of a declared action by a positive multiplier comes to something under each; the state machine
accepts it exactly if the petri net and the workflow both do, and then all three leave the same
marking.  So a run that the state machine accepts throughout is accepted throughout by the two
others, which pass through the same markings. -/
theorem disciplines_ordered (hv : e.net.VectorsFit) (hc : e.capacity.length = e.net.size)
    (hm : marking.length = e.net.size) :
    (∀ action value t k, e.transition action = .ok t → multiplier value = .ok k →
      ∃ machine petri workflow : Shot × Vec,
        (e.under .stateMachine).fire marking action value = .ok machine ∧
        (e.under .petriNet).fire marking action value = .ok petri ∧
        (e.under .workflow).fire marking action value = .ok workflow ∧
        (machine.1.ok = true ↔ petri.1.ok = true ∧ workflow.1.ok = true) ∧
        (machine.1.ok = true → petri.2 = machine.2 ∧ workflow.2 = machine.2)) ∧
      ∀ moves trace, (e.under .stateMachine).run? marking moves = some trace →
        (e.under .petriNet).run? marking moves = some trace ∧
          (e.under .workflow).run? marking moves = some trace := by
  refine ⟨fun action value t k ht hk => ?_, fun moves trace h =>
    ⟨run?_of_stateMachine .petriNet h, run?_of_stateMachine .workflow h⟩⟩
  rcases fire_under hv hc hm ht hk with hfire | hfire
  · exact ⟨_, _, _, hfire _, hfire _, hfire _, by simp, by simp⟩
  · refine ⟨_, _, _, hfire _, hfire _, hfire _, Discipline.accepts_stateMachine, fun hok => ?_⟩
    have hleft : ∀ d, commit marking ((e.under d).openShot marking t k) =
        Vec.moved marking t.delta k := fun d => by
      obtain ⟨haccepts, hsettled⟩ := d.accepts_of_stateMachine hok
      have hshot : ((e.under d).openShot marking t k).ok = true := haccepts
      simp only [commit, hshot, if_true]
      exact hsettled
    simp only [hleft, and_self]

end Engine

/-! ## A net that runs under all three -/

namespace Shuttle

/-- One token goes to the far side and comes back. -/
def steps : List Draft.Step :=
  [.place (.text "near") (.int 1) (.int 1) .null, .place (.text "far") (.int 0) (.int 1) .null,
    .transition (.text "cross") .null .null, .transition (.text "return") .null .null,
    .arc (.place "near") (.transition "cross") (.int 1) (.bool false),
    .arc (.transition "cross") (.place "far") (.int 1) (.bool false),
    .arc (.place "far") (.transition "return") (.int 1) (.bool false),
    .arc (.transition "return") (.place "near") (.int 1) (.bool false)]

def draft : Draft :=
  Draft.follow { self := 0, net := { schema := .text "shuttle" }, config := .default } steps

def engine : Engine := { net := draft.net.index.1, capacity := draft.net.capacityVector }

theorem vectorsFit : engine.net.VectorsFit := by
  have hreached : Draft.Reached .default draft := Draft.Reached.follow
    (@Draft.Reached.opened .default 0 (.text "shuttle") (.text "petriNet") _ rfl) _
  dsimp only [engine]
  exact (Net.index_fits hreached.declared.index_snd).2

end Shuttle

namespace Engine

open Shuttle

set_option maxRecDepth 1024 in
/-- Crossing from the empty near side is for workflows only, so the state machine refuses it; there
and back from the near side goes through under all three. -/
theorem shuttle_ordered :
    (∃ machine workflow : Shot × Vec,
        (engine.under .stateMachine).fire [0, 0] (.text "cross") (.int 1) = .ok machine ∧
        (engine.under .workflow).fire [0, 0] (.text "cross") (.int 1) = .ok workflow ∧
        workflow.1.ok = true ∧ machine.1.ok = false) ∧
      (engine.under .petriNet).run? [1, 0]
          [(.text "cross", .int 1), (.text "return", .int 1)] = some [[0, 1], [1, 0]] ∧
      (engine.under .workflow).run? [1, 0]
          [(.text "cross", .int 1), (.text "return", .int 1)] = some [[0, 1], [1, 0]] := by
  obtain ⟨hfire, -⟩ := @disciplines_ordered engine [0, 0] vectorsFit (by cbv) (by cbv)
  obtain ⟨-, hruns⟩ := @disciplines_ordered engine [1, 0] vectorsFit (by cbv) (by cbv)
  obtain ⟨machine, petri, workflow, hm, hp, hw, hiff, -⟩ :=
    hfire (.text "cross") (.int 1) _ 1 rfl rfl
  have hpetri : petri.1.ok = false := by
    cases hp
    rfl
  have hworkflow : workflow.1.ok = true := by
    cases hw
    rfl
  have hrun : (engine.under .stateMachine).run? [1, 0]
      [(.text "cross", .int 1), (.text "return", .int 1)] = some [[0, 1], [1, 0]] := by cbv
  refine ⟨⟨machine, workflow, hm, hw, hworkflow, ?_⟩, hruns _ _ hrun⟩
  rw [Bool.eq_false_iff]
  exact fun hok => Bool.false_ne_true (hpetri.symm.trans (hiff.1 hok).1)

end Engine

end TokenNet
