import TokenNet.Proofs.Act
import TokenNet.Proofs.Firing
import TokenNet.Proofs.Tables
/-!
What a request comes to.  `Stream.decided` reads it off the stream before anything is done, and
`Stream.firing?` is the firing that is entered then, if it is accepted, with the engine that fired.
Entering it writes the marking more than once, and `commit_overwrite` says that only the last time
counts.
-/

namespace TokenNet

/-- A firing that was accepted: what was decided, on which event, and the engine that fired. -/
structure Firing extends Decision where
  event : Event
  engine : Engine

/-- One stream is another with one firing entered. -/
structure Stream.Entered {ω : Type} (e : Event) (d : Decision) (time : Datum) (s s' : Stream ω) :
    Prop where
  history : s'.history = s.history ++ [{ seq := s.seq, event := e, marking := d.next, time }]
  seq : s'.seq = s.seq + 1
  nets : s'.nets = s.nets
  key : e.schema.key? = some d.key
  held : s'.markings.lookup? d.key = some d.next
  others : ∀ key, key ≠ d.key → s'.markings.lookup? key = s.markings.lookup? key
  marking : ∀ catalog, s'.marking catalog e.schema = .ok d.next

namespace Stream

variable {ω : Type} {catalog : Catalog} {s : Stream ω} {r : Request} {f : Firing} {e : Event}
  {d : Decision} {schema : Datum} {key : Key} {inst : Installation}

def decided (catalog : Catalog) (s : Stream ω) (r : Request) :
    Except Failure (Event × Decision) := do
  let e ← Event.ofRequest r
  return (e, ← s.decide catalog e)

/-- The firing that a request comes to.  There is none if nothing can be decided, and none if what
is decided is refused. -/
def firing? (catalog : Catalog) (s : Stream ω) (r : Request) : Option Firing := do
  let (event, d) ← (s.decided catalog r).toOption
  let inst ← s.nets.lookup? d.key
  if d.shot.ok then some { d with event, engine := inst.engine catalog } else none

theorem keyOf_eq_ok {d : Datum} : keyOf d = .ok key ↔ d.key? = some key := by
  unfold keyOf
  cases d.key? <;> simp

theorem lookup_eq_ok (h : s.lookup schema = .ok (key, inst)) :
    schema.key? = some key ∧ s.nets.lookup? key = some inst := by
  obtain ⟨key', hk, h⟩ := Failure.ok_of_bind h
  split at h
  next found hfound =>
    cases h
    exact ⟨keyOf_eq_ok.1 hk, hfound⟩
  next => cases h

theorem lookup_of_key (hk : schema.key? = some key) (h : s.nets.lookup? key = some inst) :
    s.lookup schema = .ok (key, inst) := by
  simp [lookup, keyOf, hk, h, bind, Except.bind, pure, Except.pure]

theorem decided_eq (hr : Event.ofRequest r = .ok e) (hk : e.schema.key? = some key)
    (hn : s.nets.lookup? key = some inst) : s.decided catalog r =
      ((inst.engine catalog).fire (s.held catalog key inst) e.action e.multiplier).map fun fired =>
        (e, { key, schema := schemaOf catalog inst, shot := fired.1, next := fired.2 }) := by
  rw [decided, hr]
  simp only [bind, Except.bind, decide, lookup_of_key hk hn]
  cases (inst.engine catalog).fire (s.held catalog key inst) e.action e.multiplier <;> rfl

/-- Whatever is decided was decided by the engine of a registered net, on the marking held. -/
theorem decided_eq_ok (h : s.decided catalog r = .ok (e, d)) :
    Event.ofRequest r = .ok e ∧ s.decide catalog e = .ok d ∧ ∃ inst,
      e.schema.key? = some d.key ∧ s.nets.lookup? d.key = some inst ∧
        (inst.engine catalog).fire (s.held catalog d.key inst) e.action e.multiplier =
          .ok (d.shot, d.next) := by
  obtain ⟨e', he, h⟩ := Failure.ok_of_bind h
  obtain ⟨d', hd, h⟩ := Failure.ok_of_bind h
  cases h
  refine ⟨he, hd, ?_⟩
  obtain ⟨⟨key, inst⟩, hl, hd⟩ := Failure.ok_of_bind hd
  obtain ⟨⟨shot, next⟩, hf, hd⟩ := Failure.ok_of_bind hd
  cases hd
  exact ⟨inst, (lookup_eq_ok hl).1, (lookup_eq_ok hl).2, hf⟩

theorem selfEqual_of_decided (h : s.decided catalog r = .ok (e, d)) : d.key.selfEqual = true := by
  obtain ⟨-, -, inst, -, hn, -⟩ := decided_eq_ok h
  exact Register.selfEqual_of_lookup? hn

theorem firing?_eq_some (h : s.firing? catalog r = some f) :
    s.decided catalog r = .ok (f.event, f.toDecision) ∧ f.shot.ok = true ∧ ∃ inst,
      s.nets.lookup? f.key = some inst ∧ f.engine = inst.engine catalog ∧
        f.engine.fire (s.held catalog f.key inst) f.event.action f.event.multiplier =
          .ok (f.shot, f.next) := by
  unfold firing? at h
  cases hd : s.decided catalog r with
  | error failure => simp [hd, Except.toOption] at h
  | ok decided =>
    obtain ⟨e, d⟩ := decided
    obtain ⟨-, -, inst, -, hn, hf⟩ := decided_eq_ok hd
    simp only [hd, Except.toOption, hn, Option.bind_eq_bind, Option.bind_some,
      Option.ite_none_right_eq_some, Option.some.injEq] at h
    obtain ⟨hok, rfl⟩ := h
    exact ⟨rfl, hok, inst, hn, rfl, hf⟩

theorem firing?_of_decided (h : s.decided catalog r = .ok (e, d)) (hok : d.shot.ok = true) :
    ∃ f, s.firing? catalog r = some f ∧ f.event = e ∧ f.toDecision = d := by
  obtain ⟨-, -, inst, -, hn, -⟩ := decided_eq_ok h
  exact ⟨{ d with event := e, engine := inst.engine catalog },
    by simp [firing?, h, hn, hok, Except.toOption], rfl, rfl⟩

theorem firing?_of_error {failure : Failure} (h : s.decided catalog r = .error failure) :
    s.firing? catalog r = none := by
  simp [firing?, h, Except.toOption]

theorem firing?_of_refused (h : s.decided catalog r = .ok (e, d)) (hok : d.shot.ok = false) :
    s.firing? catalog r = none := by
  simp [firing?, h, hok, Except.toOption]

/-! ## Entering a firing -/

theorem overwrite_of_refused (h : d.shot.ok = false) : s.overwrite e d = s := by
  simp [overwrite, h]

/-- A marking that was overwritten already is entered as if it had not been. -/
theorem commit_overwrite (hk : d.key.selfEqual = true) (time : Datum) :
    (s.overwrite e d).commit e d time = s.commit e d time := by
  unfold overwrite
  split
  · simp only [commit, hold, Register.enter_enter _ _ _ _ _ hk]
  · rfl

theorem lookup?_commit (hk : d.key.selfEqual = true) (time : Datum) (key : Key) :
    (s.commit e d time).markings.lookup? key =
      if d.key = key then some d.next else s.markings.lookup? key :=
  Register.lookup?_enter _ _ _ _ _ hk

theorem entered_commit (h : s.decided catalog r = .ok (e, d)) (time : Datum) :
    Entered e d time s (s.commit e d time) := by
  obtain ⟨-, -, inst, hkey, hn, -⟩ := decided_eq_ok h
  have hself := selfEqual_of_decided h
  have hheld : (s.commit e d time).markings.lookup? d.key = some d.next := by
    rw [lookup?_commit hself, if_pos rfl]
  refine ⟨rfl, rfl, rfl, hkey, hheld, fun key hne => ?_, fun catalog => ?_⟩
  · rw [lookup?_commit hself, if_neg (Ne.symm hne)]
  · have hl : (s.commit e d time).lookup e.schema = .ok (d.key, inst) := lookup_of_key hkey hn
    simp only [marking, hl, held, hheld, bind, Except.bind, pure, Except.pure, Option.getD_some]

end Stream

end TokenNet
