import TokenNet.Bench.Run
import TokenNet.Proofs.Act
import TokenNet.Proofs.Firing
/-!
What a caller meets with.  Whatever a firing comes to, it is done to the caller's marking first, and
then one callback is called, once, with the record that is answered: `Caller.Lawful.calls`.  The
same is said of the firings of a bench by `Bench.fire_calls`.
-/

namespace TokenNet

open Act

/-- A callback was called: which, what it was handed, and the marking as it found it. -/
structure Callback.Call where
  which : Callback
  shot : Shot
  marking : Vec

namespace Caller

variable {σ : Type} {c : Caller σ} {I : σ → Prop} {e : Engine} {action value : Datum} {st : σ}
  {shot : Shot} {next : Vec}

/-- On states that satisfy `I` the marking that is written is the one that is read afterwards, and
tracing a firing goes through and leaves the marking alone. -/
structure Lawful (c : Caller σ) (I : σ → Prop) : Prop where
  marking_withMarking : ∀ v st, I st → c.marking (c.withMarking v st) = v
  withMarking : ∀ v st, I st → I (c.withMarking v st)
  report : ∀ (shot : Shot) (schema action value : Datum) (st : σ), I st → ∃ st',
    apply (c.report (shot.trace schema action value)) st = (.ok (), st') ∧
      c.marking st' = c.marking st

/-- The caller who also keeps a log of the callbacks called. -/
def recording (c : Caller σ) : Caller (σ × List Callback.Call) where
  marking p := c.marking p.1
  withMarking v p := (c.withMarking v p.1, p.2)
  report note := (c.report note).logged fun _ => []
  given which := (c.given which).map fun callback shot =>
    (callback shot).logged fun st => [{ which, shot, marking := c.marking st }]

/-- A firing ends with one callback, which finds the marking at `next`.  What it makes of the record
is the answer, and what it leaves is left.  It is called once, if it was given, and no other is. -/
def Calls (c : Caller σ) (e : Engine) (action value : Datum) (st : σ) (which : Callback)
    (shot : Shot) (next : Vec) : Prop :=
  ∃ mid, c.marking mid = next ∧
    apply (c.fire e action value) st = apply (c.call which shot) mid ∧
    apply (c.recording.fire e action value) (st, []) =
      ((apply (c.call which shot) mid).1, (apply (c.call which shot) mid).2,
        (c.given which).toList.map fun _ => { which, shot, marking := next })

theorem apply_fire (h : e.fire (c.marking st) action value = .ok (shot, next)) :
    apply (c.fire e action value) st =
      apply (c.report (shot.trace e.net.schema action value) >>= fun _ => c.call shot.callback shot)
        (if shot.ok then c.withMarking next st else st) := by
  have hdecided : apply (Act.liftExcept (e.fire (c.marking st) action value)) st =
      (.ok (shot, next), st) := by
    rw [apply_liftExcept, h]
  rw [fire, apply_bind_of_ok (apply_get st), apply_bind_of_ok hdecided]
  cases hok : shot.ok with
  | false => simp only [hok, Bool.false_eq_true, if_false]
  | true => simp only [hok, if_true, apply_bind_of_ok (apply_modify _ st)]

/-- A firing that raises does nothing and calls nobody. -/
theorem apply_fire_of_error {failure : Failure}
    (h : e.fire (c.marking st) action value = .error failure) :
    apply (c.fire e action value) st = (.error failure, st) := by
  simp only [fire, apply_bind, apply_get, apply_liftExcept, h]

theorem apply_call_recording (which : Callback) (shot : Shot) (st : σ) (log : List Callback.Call) :
    apply (c.recording.call which shot) (st, log) =
      ((apply (c.call which shot) st).1, (apply (c.call which shot) st).2,
        log ++ (c.given which).toList.map fun _ => { which, shot, marking := c.marking st }) := by
  unfold call
  cases h : c.given which with
  | none => simp [recording, h]
  | some callback => simp [recording, h]

/-- Once the firing is decided, its marking is in place when the callback is called. -/
theorem Lawful.calls (hc : c.Lawful I) (hst : I st)
    (h : e.fire (c.marking st) action value = .ok (shot, next)) :
    c.Calls e action value st shot.callback shot next := by
  obtain ⟨placed, hplaced, hmarking, hI⟩ : ∃ placed,
      (if shot.ok then c.withMarking next st else st) = placed ∧ c.marking placed = next ∧
        I placed := by
    refine ⟨_, rfl, ?_⟩
    split
    next hok => exact ⟨hc.marking_withMarking next st hst, hc.withMarking next st hst⟩
    next hok => exact ⟨(Engine.fire_refused h (Bool.eq_false_iff.2 hok)).symm, hst⟩
  obtain ⟨mid, hreport, hmid⟩ := hc.report shot e.net.schema action value placed hI
  have hrun : apply (c.fire e action value) st = apply (c.call shot.callback shot) mid := by
    rw [apply_fire h, hplaced, apply_bind_of_ok hreport]
  have hfire : e.fire (c.recording.marking (st, [])) action value = .ok (shot, next) := h
  have hrecorded : (if shot.ok then c.recording.withMarking next (st, []) else (st, [])) =
      (placed, []) := by
    rw [← hplaced]
    cases shot.ok <;> rfl
  have hlogged : apply (c.recording.report (shot.trace e.net.schema action value)) (placed, []) =
      (.ok (), mid, []) := by
    simp [recording, hreport]
  refine ⟨mid, hmid.trans hmarking, hrun, ?_⟩
  rw [apply_fire hfire, hrecorded, apply_bind_of_ok hlogged, apply_call_recording, hmid, hmarking,
    List.nil_append]

theorem Lawful.calls_resolve (hc : c.Lawful I) (hst : I st)
    (h : e.fire (c.marking st) action value = .ok (shot, next)) (hok : shot.ok = true) :
    c.Calls e action value st .resolve shot next := by
  have hcallback : shot.callback = .resolve := if_pos hok
  exact hcallback ▸ hc.calls hst h

theorem Lawful.calls_reject (hc : c.Lawful I) (hst : I st)
    (h : e.fire (c.marking st) action value = .ok (shot, next)) (hok : shot.ok = false) :
    c.Calls e action value st .reject shot (c.marking st) := by
  have hcallback : shot.callback = .reject := if_neg (Bool.eq_false_iff.1 hok)
  have hnext : next = c.marking st := Engine.fire_refused h hok
  exact hcallback ▸ hnext ▸ hc.calls hst h

end Caller

/-! ## Firings on a bench -/

theorem Shot.level_trace (shot : Shot) (schema action value : Datum) :
    (shot.trace schema action value).level = .debug := by
  unfold Shot.trace
  split <;> rfl

namespace Bench

variable {b : Bench} {id : Nat} {on : String} {a : Aim} {callbacks : List Callback} {e : Engine}
  {action value : Datum} {shot : Shot} {next : Vec}

theorem marked_withMarking (h : id < b.markings.length) (s : Vec.Spelled) :
    (b.withMarking id s).marked id = s := by
  simp [marked, withMarking, h]

theorem apply_enter_trace (h : b.traced = false) (shot : Shot) (schema action value : Datum) :
    apply (enter (shot.trace schema action value)) b = (.ok (), b) := by
  simp [enter, apply_bind, Shot.level_trace, h]

/-- What is said of lawful callers is said of a bench that writes no traces. -/
theorem lawful_caller (id : Nat) (callbacks : List Callback) :
    (caller id callbacks).Lawful fun b => id < b.markings.length ∧ b.traced = false where
  marking_withMarking v b hb := congrArg Vec.Spelled.entries (marked_withMarking hb.1 _)
  withMarking v b hb := by simpa [caller, withMarking] using hb
  report shot schema action value b hb := ⟨b, apply_enter_trace hb.2 shot schema action value, rfl⟩

theorem apply_call_caller (id : Nat) (callbacks : List Callback) (which : Callback) (shot : Shot)
    (b : Bench) : ∃ b',
    apply ((caller id callbacks).call which shot) b = (.ok shot, b') ∧
      b'.markings = b.markings ∧ b'.calls = b.calls ++ if which ∈ callbacks then
        [.items [.text which.name, .shot b'.gallery shot]] else [] := by
  by_cases h : which ∈ callbacks
  · refine ⟨{ b with calls := b.calls ++ [.items [.text which.name, .shot b.gallery shot]] }, ?_,
      rfl, ?_⟩
    · simp only [Caller.call, caller, h, if_true]
      rfl
    · rw [if_pos h]
      rfl
  · refine ⟨b, ?_, rfl, ?_⟩
    · simp only [Caller.call, caller, h, if_false]
      rfl
    · rw [if_neg h, List.append_nil]

/-- A bench that writes no traces fires in place.  The callback that the firing runs notes itself
once, if it was asked for, and the marking is as the firing leaves it. -/
theorem fire_calls (haim : apply (aim on a) b = (.ok (e, some id, action, value), b))
    (hid : id < b.markings.length) (htraced : b.traced = false)
    (h : e.fire (b.marked id).entries action value = .ok (shot, next)) :
    ∃ b', apply (fire on a callbacks) b = (.ok (.shot b'.gallery shot), b') ∧
      (b'.marked id).entries = next ∧
      b'.calls = b.calls ++ if shot.callback ∈ callbacks then
        [.items [.text shot.callback.name, .shot b'.gallery shot]] else [] := by
  let placed := if shot.ok then b.withMarking id (.ofVec next) else b
  obtain ⟨hmarking, hsame, hquiet⟩ : (placed.marked id).entries = next ∧
      placed.calls = b.calls ∧ placed.traced = false := by
    cases hok : shot.ok with
    | false =>
      have hplaced : placed = b := by simp only [placed, hok, Bool.false_eq_true, if_false]
      rw [hplaced]
      exact ⟨(Engine.fire_refused h hok).symm, rfl, htraced⟩
    | true =>
      have hplaced : placed = b.withMarking id (.ofVec next) := by
        simp only [placed, hok, if_true]
      rw [hplaced, marked_withMarking hid]
      exact ⟨rfl, rfl, htraced⟩
  obtain ⟨b', hcall, hmarkings, hcalls⟩ :=
    apply_call_caller id callbacks shot.callback shot placed
  have hfired : apply ((caller id callbacks).fire e action value) b = (.ok shot, b') := by
    have hfire : e.fire ((caller id callbacks).marking b) action value = .ok (shot, next) := h
    have hreport : apply ((caller id callbacks).report (shot.trace e.net.schema action value))
        placed = (.ok (), placed) := apply_enter_trace hquiet shot e.net.schema action value
    rw [Caller.apply_fire hfire]
    exact (apply_bind_of_ok hreport).trans hcall
  refine ⟨b', ?_, ?_, hsame ▸ hcalls⟩
  · rw [fire, apply_bind_of_ok haim, apply_bind_of_ok hfired]
    rfl
  · rw [marked, hmarkings]
    exact hmarking

end Bench

end TokenNet
