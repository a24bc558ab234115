import TokenNet.Proofs.Dispatch
/-!
What a dispatch comes to, wherever its stream is kept: it fails with nothing done, or it tells
`onFail` with nothing done, or it enters a firing altogether and announces it.  The site must read
and write its stream by itself and make nothing of what is reported.
-/

namespace TokenNet

open Act

/-- What observers are shown of a firing that was entered. -/
def World.outcome (e : Event) (d : Decision) : Outcome where
  action := e.action
  multiplier := e.multiplier
  marking := some d.next
  role := d.shot.role
  ok := true

/-- What `onFail` is shown of a firing that was refused. -/
def World.refusal (e : Event) (d : Decision) : Outcome where
  action := e.action
  multiplier := e.multiplier
  marking := d.shot.result
  role := d.shot.role
  ok := false

namespace Site

variable {σ ω : Type} {site : Site σ ω} {st : σ} {r : Request} {e : Event} {d : Decision}

/-- The stream is a part of the state that can be replaced by itself, the time does not depend on
it, and reporting does nothing. -/
structure Plain (site : Site σ ω) : Prop where
  stream_withStream : ∀ s st, site.stream (site.withStream s st) = s
  withStream_withStream : ∀ s s' st,
    site.withStream s (site.withStream s' st) = site.withStream s st
  withStream_stream : ∀ st, site.withStream (site.stream st) st = st
  now_withStream : ∀ s st, site.now (site.withStream s st) = site.now st
  report : ∀ note, site.report note = pure ()

theorem apply_get (site : Site σ ω) (st : σ) : apply site.get st = (.ok (site.stream st), st) := rfl

theorem apply_put (site : Site σ ω) (s : Stream ω) (st : σ) :
    apply (site.put s) st = (.ok (), site.withStream s st) := rfl

/-- What cannot be decided fails, and nothing has been done. -/
theorem apply_dispatch_of_error {failure : Failure}
    (h : (site.stream st).decided (site.catalog st) r = .error failure) :
    apply (site.dispatch r) st = (.error failure, st) := by
  unfold Stream.decided at h
  cases he : Event.ofRequest r with
  | error failure' =>
    rw [he] at h
    cases h
    simp only [Site.dispatch, apply_bind, apply_liftExcept, he]
  | ok e =>
    cases hd : (site.stream st).decide (site.catalog st) e with
    | error failure' =>
      simp only [he, hd, bind, Except.bind, Except.error.injEq] at h
      subst h
      simp only [Site.dispatch, apply_bind, apply_liftExcept, Act.apply_get, he, hd]
    | ok d => simp [he, hd, bind, Except.bind, pure, Except.pure] at h

/-- A refused firing is told to `onFail`, and nothing has been done before. -/
theorem Plain.apply_dispatch_of_refused (hs : site.Plain)
    (h : (site.stream st).decided (site.catalog st) r = .ok (e, d)) (hok : d.shot.ok = false) :
    apply (site.dispatch r) st =
      apply (site.tell (site.stream st).onFail (World.refusal e d)) st := by
  obtain ⟨he, hd, -⟩ := Stream.decided_eq_ok h
  simp only [Site.dispatch, Site.refuse, apply_bind, apply_liftExcept, Act.apply_get, he, hd,
    apply_put, apply_get, apply_pure, hs.report, hok, Bool.false_eq_true, if_false,
    Stream.overwrite_of_refused hok, hs.withStream_stream, World.refusal]

/-- An accepted firing is entered, and then the observers are told. -/
theorem Plain.apply_dispatch_of_accepted (hs : site.Plain) {time : Datum}
    (h : (site.stream st).decided (site.catalog st) r = .ok (e, d)) (hok : d.shot.ok = true)
    (hnow : site.now st = .ok time) :
    apply (site.dispatch r) st =
      apply (site.announce e (World.outcome e d))
        (site.withStream ((site.stream st).commit e d time) st) := by
  obtain ⟨he, hd, -⟩ := Stream.decided_eq_ok h
  simp only [Site.dispatch, Site.accept, apply_bind, apply_liftExcept, Act.apply_get, he, hd,
    apply_put, apply_pure, hs.report, hok, if_true, hs.stream_withStream, hs.now_withStream, hnow,
    hs.withStream_withStream, World.outcome, Stream.commit_overwrite (Stream.selfEqual_of_decided h)]

/-! ## What telling observers inherits from them -/

section

variable {P : (α : Type) → Act σ α → Prop} (hP : Inherited P)
include hP

theorem tell_of_inherited (hcall : ∀ observer o, P _ (site.call observer o)) (slot : Option ω)
    (o : Outcome) : P _ (site.tell slot o) := by
  cases slot with
  | none => exact hP.pure o
  | some observer => exact hcall observer o

theorem reload_of_inherited (hget : P _ site.get)
    (hreload : ∀ observer schema, P _ (site.callReload observer schema)) (schema : Datum) :
    P _ (site.reload schema) := by
  refine hP.bind hget fun s => ?_
  split
  · exact hreload _ _
  · exact hP.pure ()

theorem announce_of_inherited (hget : P _ site.get)
    (hcall : ∀ observer o, P _ (site.call observer o))
    (hreload : ∀ observer schema, P _ (site.callReload observer schema)) (e : Event)
    (o : Outcome) : P _ (site.announce e o) := by
  refine hP.bind hget fun _ => hP.bind (tell_of_inherited hP hcall _ _) fun _ => ?_
  refine hP.bind hget fun _ => hP.bind (tell_of_inherited hP hcall _ _) fun _ => ?_
  exact hP.bind (reload_of_inherited hP hget hreload _) fun _ => hP.pure _

end

end Site

end TokenNet
