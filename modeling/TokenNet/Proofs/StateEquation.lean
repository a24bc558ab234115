import Mathlib
import TokenNet.Proofs.Unedited
/-!
The state equation.  Main statement: `World.Unedited.state_equation`.  While a net is left alone its
marking is what it starts from, with the multiples of deltas added that its accepted firings were
of; so it does not matter in which order these came.  A workflow is left out, since it cuts negative
entries off.
-/

namespace TokenNet

namespace Net

/-- The action names a transition of the net, with an entry for each place, and the multiplier is
whole and above zero. -/
structure Fires (net : Net) (move : Datum × Datum) (t : Transition) (k : Int) : Prop where
  transition : move.1.text?.bind net.transition? = some t
  multiplier : move.2 = .int k
  positive : 0 < k
  length : t.delta.length = net.size

/-- What a move adds at an offset. -/
def change (net : Net) (i : Nat) (move : Datum × Datum) : Int :=
  match move.1.text?.bind net.transition?, move.2.positive? with
  | some t, some k => t.delta.getD i 0 * k
  | _, _ => 0

/-- The marking that the net starts from, with all moves added. -/
def summed (net : Net) (moves : List (Datum × Datum)) : Vec :=
  net.places.mapIdx fun i p => p.initial + (moves.map (net.change i)).sum

variable {net : Net} {moves moves' : List (Datum × Datum)} {move : Datum × Datum} {t : Transition}
  {k : Int}

theorem Fires.change (h : net.Fires move t k) (i : Nat) :
    net.change i move = t.delta.getD i 0 * k := by
  simp only [Net.change, h.transition, h.multiplier, Datum.positive?_eq_some.2 ⟨rfl, h.positive⟩]

theorem summed_nil (net : Net) : net.summed [] = net.initialVector :=
  List.ext_getElem? fun i => by simp [summed, initialVector]

theorem length_summed (net : Net) (moves : List (Datum × Datum)) :
    (net.summed moves).length = net.size := by
  simp [summed, size]

theorem summed_perm (h : moves.Perm moves') : net.summed moves = net.summed moves' := by
  unfold summed
  congr 1
  funext i p
  rw [(h.map (net.change i)).sum_eq]

/-- One more firing adds one more move. -/
theorem moved_summed (h : net.Fires move t k) (moves : List (Datum × Datum)) :
    Vec.moved (net.summed moves) t.delta k = net.summed (move :: moves) := by
  refine List.ext_getElem? fun i => ?_
  cases hp : net.places[i]? with
  | none =>
    have hnone : ∀ moves, (net.summed moves)[i]? = none := fun moves => by simp [summed, hp]
    simp [Vec.moved, List.getElem?_zipWith, hnone]
  | some p =>
    have hi : i < t.delta.length := h.length ▸ (List.getElem?_eq_some_iff.1 hp).1
    have hdelta : t.delta[i]? = some (t.delta.getD i 0) := by simp [hi]
    have hsum : ∀ moves, (net.summed moves)[i]? =
        some (p.initial + (moves.map (net.change i)).sum) := fun moves => by simp [summed, hp]
    rw [Vec.getElem?_moved (hsum moves) hdelta, hsum, List.map_cons, List.sum_cons, h.change]
    congr 1
    omega

end Net

theorem Discipline.settled_of_ne {d : Discipline} (h : d ≠ .workflow) (raw : Vec) :
    d.settled raw = raw := by
  cases d with
  | workflow => exact absurd rfl h
  | petriNet | stateMachine => rfl

/-- An accepted firing from a marking of the net moves it by a multiple of a delta. -/
theorem Engine.fires_of_fire {e : Engine} {marking next : Vec} {action value : Datum} {shot : Shot}
    (hd : e.net.discipline ≠ .workflow) (hm : marking.length = e.net.size)
    (h : e.fire marking action value = .ok (shot, next)) (hok : shot.ok = true) :
    ∃ t k, e.net.Fires (action, value) t k ∧ next = Vec.moved marking t.delta k := by
  obtain ⟨t, k, ht, hk, -, hlen, -, -, rfl⟩ := fire_accepted h hok
  obtain ⟨label, rfl, -, hfind⟩ := transition_eq_ok.1 ht
  obtain ⟨rfl, hpos⟩ := multiplier_eq_ok.1 hk
  exact ⟨t, k, ⟨hfind, rfl, hpos, hlen ▸ hm⟩, Discipline.settled_of_ne hd _⟩

/-- A chain of firings of one engine, by induction from the earliest. -/
theorem Mark.Chained.left_eq {e : Engine} {fs : List Firing} (h : Chained fs)
    (hd : e.net.discipline ≠ .workflow) (he : ∀ f ∈ fs, f.engine = e) :
    left e.net.initialVector fs = e.net.summed (fs.map fun f => f.event.move) ∧
      ∀ f ∈ fs, ∃ t k, e.net.Fires f.event.move t k := by
  induction fs with
  | nil => exact ⟨(Net.summed_nil _).symm, fun f hf => absurd hf List.not_mem_nil⟩
  | cons f rest ih =>
    obtain ⟨hok, hfire, hrest⟩ := h
    obtain ⟨hleft, hall⟩ := ih hrest fun g hg => he g (List.mem_cons_of_mem _ hg)
    rw [he f List.mem_cons_self, hleft] at hfire
    obtain ⟨t, k, hfires, hnext⟩ :=
      Engine.fires_of_fire hd (Net.length_summed _ _) hfire hok
    refine ⟨?_, List.forall_mem_cons.2 ⟨⟨t, k, hfires⟩, hall⟩⟩
    calc left e.net.initialVector (f :: rest) = f.next := rfl
      _ = Vec.moved (e.net.summed (rest.map fun f => f.event.move)) t.delta k := hnext
      _ = e.net.summed ((f :: rest).map fun f => f.event.move) := Net.moved_summed hfires _

namespace World

variable {ω : Type} {w : World ω} {n : Nat} {d : Draft} {schema : Datum} {key : Key}
  {inst : Installation}

theorem Spared.marking_eq (hw : Spared n d w) (hl : w.stream.lookup schema = .ok (key, inst))
    (hn : inst.net = n) (hd : d.net.discipline ≠ .workflow) :
    w.stream.marking w.catalog schema = .ok (d.net.summed (w.accepted key)) ∧
      ∀ move ∈ w.accepted key, ∃ t k, d.net.Fires move t k := by
  have he : inst.engine w.catalog = { net := d.net, capacity := inst.capacity } :=
    engine_of_draft (hn ▸ hw.draft)
  obtain ⟨hleft, hfires⟩ := (hw.linked.chained key).left_eq
    (e := { net := d.net, capacity := inst.capacity }) hd
    (hw.fired key inst (Stream.lookup_eq_ok hl).2 hn)
  rw [hw.linked.kept.accepted_eq]
  refine ⟨?_, List.forall_mem_map.2 hfires⟩
  simp only [Stream.marking, hl, bind, Except.bind, pure, Except.pure, hw.linked.kept.held_eq, he,
    hleft]

/-- While a net that is no workflow is left alone, whatever else is done and fails, its marking is
what it starts from and the sum of its accepted moves, each of which is the positive multiple of a
delta of the net.  Two such runs of one net, be it on one stream or two, that accepted the same
moves in any order have come to the same marking. -/
theorem Unedited.state_equation {b : Behaviour ω} (h : Unedited b n d w)
    (hl : w.stream.lookup schema = .ok (key, inst)) (hn : inst.net = n)
    (hd : d.net.discipline ≠ .workflow) :
    w.stream.marking w.catalog schema = .ok (d.net.summed (w.accepted key)) ∧
      (∀ move ∈ w.accepted key, ∃ t k, d.net.Fires move t k) ∧
      ∀ {ω' : Type} {b' : Behaviour ω'} {n' : Nat} {d' : Draft} {w' : World ω'} {schema' : Datum}
        {key' : Key} {inst' : Installation}, Unedited b' n' d' w' →
        w'.stream.lookup schema' = .ok (key', inst') → inst'.net = n' → d'.net = d.net →
        (w'.accepted key').Perm (w.accepted key) →
        w'.stream.marking w'.catalog schema' = w.stream.marking w.catalog schema := by
  obtain ⟨hmarking, hfires⟩ := h.spared.marking_eq hl hn hd
  refine ⟨hmarking, hfires, fun h' hl' hn' hnet hperm => ?_⟩
  rw [(h'.spared.marking_eq hl' hn' (hnet ▸ hd)).1, hmarking, hnet, Net.summed_perm hperm]

end World

/-! ## Two runs in a different order -/

namespace Mill

/-- Grain is sown and ground. -/
def steps : List Draft.Step :=
  [.place (.text "grain") (.int 3) .null .null, .transition (.text "sow") .null .null,
    .transition (.text "grind") .null .null,
    .arc (.transition "sow") (.place "grain") (.int 1) (.bool false),
    .arc (.place "grain") (.transition "grind") (.int 1) (.bool false), .build]

def draft : Draft :=
  Draft.follow { self := 0, net := { schema := .text "mill" }, config := .default } steps

def prepare : Script String Unit :=
  .calls (.draft (.text "mill") (.text "petriNet") .default :: steps.map (.edit 0))

def opened : World String :=
  match (Act.after (prepare.run (Relay.failing.site 0)) {}).withOpened (.ofStep (.int 1)) .default
    [.net 0] with
  | .ok w => w
  | .error _ => {}

def move (action : String) (k : Int) : Op String :=
  .dispatch { value := .text "mill", action := .text action, multiplier := .int k }

def dispatched (ops : List (Op String)) : World String :=
  Act.after ((Script.calls ops).run (Relay.failing.site 0)) opened

/-- Five grains cannot be ground, and nothing can be baked. -/
def groundFirst : World String := dispatched [move "grind" 2, move "grind" 5, move "sow" 1]

def sownFirst : World String := dispatched [move "sow" 1, move "bake" 1, move "grind" 2]

def inst : Installation := { net := 0, config := .default, capacity := [0] }

theorem reached_opened : World.Reached Relay.failing opened :=
  @World.Reached.opened String Relay.failing prepare 0 (.ofStep (.int 1)) .default [.net 0] opened
    rfl

theorem unedited {ops : List (Op String)} (h : ∀ op ∈ ops, op.Spares 0) :
    World.Unedited Relay.failing 0 draft (dispatched ops) :=
  .ran 0 ⟨fun _ _ => trivial, fun _ _ => trivial⟩ (Script.all_calls h)
    (.since reached_opened rfl fun _ _ _ _ => rfl)

theorem lookup_groundFirst :
    groundFirst.stream.lookup (.text "mill") = .ok (.text "mill", inst) := by cbv

theorem lookup_sownFirst :
    sownFirst.stream.lookup (.text "mill") = .ok (.text "mill", inst) := by cbv

theorem accepted_groundFirst : groundFirst.accepted (.text "mill") =
    [(.text "sow", .int 1), (.text "grind", .int 2)] := by cbv

theorem accepted_sownFirst : sownFirst.accepted (.text "mill") =
    [(.text "grind", .int 2), (.text "sow", .int 1)] := by cbv

end Mill

namespace World

open Mill

theorem mill_state_equation :
    groundFirst.stream.marking groundFirst.catalog (.text "mill") = .ok [2] ∧
      sownFirst.stream.marking sownFirst.catalog (.text "mill") =
        groundFirst.stream.marking groundFirst.catalog (.text "mill") := by
  have hground : Unedited Relay.failing 0 draft groundFirst := unedited (by simp [move, Op.Spares])
  have hsown : Unedited Relay.failing 0 draft sownFirst := unedited (by simp [move, Op.Spares])
  obtain ⟨hmarking, -, hother⟩ :=
    Unedited.state_equation hground lookup_groundFirst rfl (by decide)
  have hsummed : draft.net.summed [(.text "sow", .int 1), (.text "grind", .int 2)] = [2] := by cbv
  have hperm : (sownFirst.accepted (.text "mill")).Perm (groundFirst.accepted (.text "mill")) := by
    rw [accepted_groundFirst, accepted_sownFirst]
    exact List.Perm.swap _ _ _
  rw [accepted_groundFirst, hsummed] at hmarking
  exact ⟨hmarking, hother hsown lookup_sownFirst rfl rfl hperm⟩

end World

end TokenNet
