import TokenNet.Proofs.Sites
import TokenNet.Proofs.World
/-!
A dispatch is all or nothing.  Either it comes to no firing, and then the stream is as before when
`onFail` is told, or it comes to one, and then that has been entered altogether when the first of
the other observers is told.
-/

namespace TokenNet

namespace World

open Act

variable {ω : Type} {w : World ω} {r : Request} {e : Event} {d : Decision}
  {call : ω → Outcome → Act (World ω) Outcome} {callReload : ω → Datum → Act (World ω) Unit}

/-! ## What a dispatch comes to -/

@[simp] theorem apply_stream : apply (site call callReload).get w = (.ok w.stream, w) := rfl

theorem plain_site : (site call callReload).Plain :=
  ⟨fun _ _ => rfl, fun _ _ _ => rfl, fun _ => rfl, fun _ _ => rfl, fun _ => rfl⟩

/-- What cannot be decided fails, and nothing has been done. -/
theorem apply_dispatch_of_error {failure : Failure}
    (h : w.stream.decided w.catalog r = .error failure) :
    apply ((site call callReload).dispatch r) w = (.error failure, w) :=
  Site.apply_dispatch_of_error h

/-- A refused firing is told to `onFail`, and nothing has been done before. -/
theorem apply_dispatch_of_refused (h : w.stream.decided w.catalog r = .ok (e, d))
    (hok : d.shot.ok = false) :
    apply ((site call callReload).dispatch r) w =
      apply ((site call callReload).tell w.stream.onFail (refusal e d)) w :=
  plain_site.apply_dispatch_of_refused h hok

/-- An accepted firing is entered, and then the observers are told. -/
theorem apply_dispatch_of_accepted (h : w.stream.decided w.catalog r = .ok (e, d))
    (hok : d.shot.ok = true) :
    apply ((site call callReload).dispatch r) w =
      apply ((site call callReload).announce e (outcome e d))
        { w with stream := w.stream.commit e d w.timebase.now } :=
  plain_site.apply_dispatch_of_accepted h hok (Timebase.read_clock _)

/-! ## What telling observers keeps -/

section

variable {I : World ω → Prop} (hcall : ∀ observer o, Keeps I (call observer o))
  (hreload : ∀ observer schema, Keeps I (callReload observer schema))
include hcall

theorem keeps_tell (slot : Option ω) (o : Outcome) :
    Keeps I ((site call callReload).tell slot o) :=
  Site.tell_of_inherited inherited_keeps hcall slot o

omit hcall in
include hreload in
theorem keeps_reload (schema : Datum) : Keeps I ((site call callReload).reload schema) :=
  Site.reload_of_inherited inherited_keeps (fun _ h => h) hreload schema

include hreload in
theorem keeps_announce (e : Event) (o : Outcome) :
    Keeps I ((site call callReload).announce e o) :=
  Site.announce_of_inherited inherited_keeps (fun _ h => h) hcall hreload e o

end

/-- Observers may fail but leave the stream alone.  Then a request that cannot be decided fails with
everything as it was, one that is refused leaves the stream as it was, and one that is accepted
leaves it with exactly that firing entered, whether or not an observer fails. -/
theorem dispatch_all_or_nothing
    (hcall : ∀ observer o (w : World ω), (after (call observer o) w).stream = w.stream)
    (hreload : ∀ observer schema (w : World ω),
      (after (callReload observer schema) w).stream = w.stream) (w : World ω) (r : Request) :
    match w.stream.decided w.catalog r with
    | .error failure => apply ((site call callReload).dispatch r) w = (.error failure, w)
    | .ok (e, d) =>
      if d.shot.ok then
        Stream.Entered e d w.timebase.now w.stream
          (after ((site call callReload).dispatch r) w).stream
      else (after ((site call callReload).dispatch r) w).stream = w.stream := by
  have keeps_call : ∀ (s : Stream ω) observer o,
      Keeps (fun w : World ω => w.stream = s) (call observer o) :=
    fun s observer o w h => (hcall observer o w).trans h
  have keeps_callReload : ∀ (s : Stream ω) observer schema,
      Keeps (fun w : World ω => w.stream = s) (callReload observer schema) :=
    fun s observer schema w h => (hreload observer schema w).trans h
  cases hd : w.stream.decided w.catalog r with
  | error failure => exact apply_dispatch_of_error hd
  | ok decided =>
    obtain ⟨e, d⟩ := decided
    cases hok : d.shot.ok with
    | false =>
      simp only [hok, Bool.false_eq_true, if_false, after, apply_dispatch_of_refused hd hok]
      exact keeps_tell (keeps_call w.stream) _ _ w rfl
    | true =>
      have hstream : (after ((site call callReload).dispatch r) w).stream =
          w.stream.commit e d w.timebase.now := by
        simp only [after, apply_dispatch_of_accepted hd hok]
        exact keeps_announce (keeps_call _) (keeps_callReload _) _ _ _ rfl
      simp only [hok, if_true, hstream]
      exact Stream.entered_commit hd _

/-- The token is passed on although the observer that is told of it fails. -/
theorem relay_dispatch_failing :
    let fail : String → Outcome → Act (World String) Outcome := fun name _ => throw (.raised name)
    let failReload : String → Datum → Act (World String) Unit := fun name _ => throw (.raised name)
    let dispatched := (site fail failReload).dispatch Relay.request
    ∃ e d, Relay.world.stream.decided Relay.world.catalog Relay.request = .ok (e, d) ∧
      d.shot.ok = true ∧ d.next = [0, 1] ∧
      (apply dispatched Relay.world).1 = .error (.raised "stop") ∧
      Stream.Entered e d Relay.world.timebase.now Relay.world.stream
        (after dispatched Relay.world).stream := by
  intro fail failReload dispatched
  exact ⟨_, _, rfl, rfl, rfl, rfl, @dispatch_all_or_nothing String fail failReload
    (fun _ _ _ => rfl) (fun _ _ _ => rfl) Relay.world Relay.request⟩

end World

end TokenNet
