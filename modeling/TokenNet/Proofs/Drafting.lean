import TokenNet.Net.Draft
import TokenNet.Proofs.Act
import TokenNet.Proofs.Firing
/-!
Drafting step by step, as one relation: `Draft.Reached config d` says that some sequence of steps,
each of which may have failed, led to the draft `d`.  Each drafting operation is given as an
equation first; what every step keeps is then a case analysis.
-/

namespace TokenNet

namespace Draft

open Act

/-- One step of declaring a net, with the values it is given. -/
inductive Step where
  | place (label initial capacity position : Datum)
  | transition (label role position : Datum)
  | role (label : Datum)
  | arc (source target : End) (weight inhibit : Datum)
  | build

def Step.run : Step → Drafting Unit
  | .place label initial capacity position => discard (Draft.place label initial capacity position)
  | .transition label tag position => discard (Draft.transition label tag position)
  | .role label => discard (Draft.role label)
  | .arc source target weight inhibit => discard (Draft.arc source target weight inhibit)
  | .build => Draft.build

/-- Drafts that declaring leads to under a configuration.  A step that fails counts: the draft it
leaves behind is one to go on from. -/
inductive Reached (config : Config) : Draft → Prop
  | opened {self : Nat} {schema discipline : Datum} {d : Draft} :
    open? self schema discipline config = .ok d → Reached config d
  | step {d : Draft} (s : Step) : Reached config d → Reached config (after s.run d)

def follow (d : Draft) (steps : List Step) : Draft := steps.foldl (fun d s => after s.run d) d

theorem Reached.follow {config : Config} {d : Draft} (h : Reached config d) (steps : List Step) :
    Reached config (d.follow steps) := by
  induction steps generalizing d with
  | nil => exact h
  | cons s rest ih => exact ih (.step s h)

/-! ## The operations as equations -/

theorem open?_eq_ok {self : Nat} {schema discipline : Datum} {config : Config} {d : Draft}
    (h : open? self schema discipline config = .ok d) :
    ∃ disc : Discipline, d = { self, net := { schema, discipline := disc }, config } := by
  unfold open? at h
  split at h
  next disc _ =>
    cases h
    exact ⟨disc, rfl⟩
  next => cases h

@[simp] theorem apply_check {α : Type} (x : Except Failure α) (d : Draft) :
    apply (check x) d = (x, d) := by
  cases x <;> rfl

@[simp] theorem apply_edit (f : Net → Net) (d : Draft) :
    apply (edit f) d = (.ok (), { d with net := f d.net }) := rfl

@[simp] theorem apply_drafted (d : Draft) : apply drafted d = (.ok d.net, d) := rfl

theorem apply_place (label initial capacity position : Datum) (d : Draft) :
    apply (place label initial capacity position) d =
      match d.net.newPlace d.config label initial capacity position with
      | .ok p => (.ok p, { d with net := d.net.addPlace p })
      | .error e => (.error e, d) := by
  simp only [place, apply_bind, apply_get, apply_check]
  cases d.net.newPlace d.config label initial capacity position <;> rfl

theorem apply_arc (source target : End) (weight inhibit : Datum) (d : Draft) :
    apply (arc source target weight inhibit) d =
      match d.net.newArc d.self source target weight inhibit with
      | .ok a => (.ok a, { d with net := d.net.addArc a })
      | .error e => (.error e, d) := by
  simp only [arc, apply_bind, apply_get, apply_check]
  cases d.net.newArc d.self source target weight inhibit <;> rfl

theorem apply_index (d : Draft) :
    ∃ notes, apply index d =
      (.ok d.net.index.2.isEmpty, { d with net := d.net.index.1, notes }) := by
  cases h : d.net.index.1.hasArcs <;>
    simp only [index, apply_bind, apply_drafted, apply_edit, report, apply_modify, apply_get, h,
      if_true, Bool.false_eq_true, if_false, apply_pure] <;>
    exact ⟨_, rfl⟩

/-- A draft that is compiled and let pass compiled without a finding. -/
theorem passed_ok {fail : Drafting Unit} (hfail : ∀ d, ∃ e d', apply fail d = (.error e, d'))
    {d d' : Draft}
    (h : apply (index >>= fun ok => if ok = true then pure () else fail) d = (.ok (), d')) :
    d'.net = d.net.index.1 ∧ d.net.index.2 = [] := by
  obtain ⟨notes, hi⟩ := apply_index d
  simp only [apply_bind, hi] at h
  cases hf : d.net.index.2 with
  | nil =>
    simp only [hf, List.isEmpty_nil, if_true, apply_pure, Prod.mk.injEq, true_and] at h
    subst h
    exact ⟨rfl, rfl⟩
  | cons f fs =>
    obtain ⟨e, left, he⟩ := hfail { d with net := d.net.index.1, notes }
    simp only [hf, List.isEmpty_cons, Bool.false_eq_true, if_false] at h
    rw [he] at h
    cases h

theorem build_ok {d d' : Draft} (h : apply build d = (.ok (), d')) :
    d'.net = d.net.index.1 ∧ d.net.index.2 = [] :=
  passed_ok (fun _ => ⟨_, _, rfl⟩) h

end Draft

/-! ## Counts -/

/-- The counts of a place as declaring lets them pass. -/
structure Place.Sound (config : Config) (p : Place) : Prop where
  initial : 0 ≤ p.initial
  capacity : 0 ≤ p.capacity
  validated : config.validateCapacity = true → 0 < p.capacity → p.initial ≤ p.capacity

theorem Net.nonneg_capacityVector {net : Net} {config : Config}
    (h : ∀ p ∈ net.places, p.Sound config) : net.capacityVector.Nonneg := by
  intro c hc
  obtain ⟨p, hp, rfl⟩ := List.mem_map.1 hc
  exact (h p hp).capacity

theorem Net.nonneg_initialVector {net : Net} {config : Config}
    (h : ∀ p ∈ net.places, p.Sound config) : net.initialVector.Nonneg := by
  intro n hn
  obtain ⟨p, hp, rfl⟩ := List.mem_map.1 hn
  exact (h p hp).initial

theorem Net.sound_newPlace {net : Net} {config : Config} {label initial capacity position : Datum}
    {p : Place} (h : net.newPlace config label initial capacity position = .ok p) :
    p.Sound config := by
  obtain ⟨label, -, h⟩ := Failure.ok_of_bind h
  obtain ⟨i, -, h⟩ := Failure.ok_of_bind h
  obtain ⟨c, -, h⟩ := Failure.ok_of_bind h
  split at h
  · cases h
  next hneg =>
    split at h
    · cases h
    next hover =>
      obtain ⟨pos, -, h⟩ := Failure.ok_of_bind h
      cases h
      exact ⟨by simp only; omega, by simp only; omega,
        fun hv hc => Int.not_lt.1 fun hlt => hover ⟨hv, hc, hlt⟩⟩

namespace Draft

open Act

/-- What declaring never gives up: the configuration, and sound counts at every place. -/
structure Sound (config : Config) (d : Draft) : Prop where
  config_eq : d.config = config
  places : ∀ p ∈ d.net.places, p.Sound config

variable {config : Config}

theorem sound_open? {self : Nat} {schema discipline : Datum} {d : Draft}
    (h : open? self schema discipline config = .ok d) : d.Sound config := by
  obtain ⟨_, rfl⟩ := open?_eq_ok h
  exact ⟨rfl, by simp⟩

theorem keeps_edit {f : Net → Net} (hf : ∀ net, (f net).places = net.places) :
    Keeps (Sound config) (edit f) :=
  keeps_modify fun d h => ⟨h.config_eq, by simpa [hf] using h.places⟩

theorem keeps_report (notes : List Note) : Keeps (Sound config) (report notes) :=
  keeps_modify fun _ h => ⟨h.config_eq, h.places⟩

theorem keeps_check {α : Type} (x : Except Failure α) : Keeps (Sound config) (check x) := by
  intro d h
  simpa [after] using h

theorem keeps_drafted : Keeps (Sound config) drafted := fun _ h => h

theorem keeps_place (label initial capacity position : Datum) :
    Keeps (Sound config) (place label initial capacity position) := by
  intro d h
  simp only [after, apply_place]
  split
  next p hp =>
    refine ⟨h.config_eq, fun q hq => ?_⟩
    rcases List.mem_append.1 hq with hq | hq
    · exact h.places q hq
    · rw [List.mem_singleton.1 hq, ← h.config_eq]
      exact Net.sound_newPlace hp
  next => exact h

theorem keeps_role (label : Datum) : Keeps (Sound config) (role label) := by
  unfold role
  split
  · exact keeps_throw _
  next key _ =>
    refine keeps_bind keeps_drafted fun net => ?_
    split
    · exact keeps_pure _
    · exact keeps_bind (keeps_edit fun _ => rfl) fun _ => keeps_pure _

theorem keeps_transition (label role position : Datum) :
    Keeps (Sound config) (transition label role position) := by
  refine keeps_bind keeps_drafted fun net => keeps_bind (keeps_check _) fun label => ?_
  refine keeps_bind ?_ fun role => keeps_bind (keeps_check _) fun position =>
    keeps_bind (keeps_edit fun _ => rfl) fun _ => keeps_pure _
  unfold roleOf
  split
  · exact keeps_bind (keeps_role _) fun _ => keeps_pure _
  · exact keeps_pure _

theorem keeps_arc (source target : End) (weight inhibit : Datum) :
    Keeps (Sound config) (arc source target weight inhibit) := by
  intro d h
  simp only [after, apply_arc]
  split
  · exact ⟨h.config_eq, h.places⟩
  · exact h

theorem keeps_index : Keeps (Sound config) index := by
  intro d h
  obtain ⟨notes, hi⟩ := apply_index d
  simp only [after, hi]
  exact ⟨h.config_eq, by simpa [Net.places_index] using h.places⟩

theorem keeps_build : Keeps (Sound config) build := by
  refine keeps_bind keeps_index fun ok => ?_
  cases ok with
  | true => exact keeps_pure _
  | false => exact keeps_bind keeps_drafted fun _ => keeps_throw _

theorem Step.keeps (s : Step) : Keeps (Sound config) s.run := by
  cases s with
  | place label initial capacity position => exact keeps_discard (keeps_place _ _ _ _)
  | transition label role position => exact keeps_discard (keeps_transition _ _ _)
  | role label => exact keeps_discard (keeps_role label)
  | arc source target weight inhibit => exact keeps_discard (keeps_arc _ _ _ _)
  | build => exact keeps_build

theorem Reached.sound {d : Draft} (h : Reached config d) : d.Sound config := by
  induction h with
  | opened h => exact sound_open? h
  | step s _ ih => exact s.keeps _ ih

end Draft

end TokenNet
