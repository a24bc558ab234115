import TokenNet.Proofs.Runs
/-!
Observers that look on.  They do not raise, they leave the stream and its nets alone, and each makes
of an outcome what it likes.  Then every call to the stream has the effect that it has by itself,
and whether it fails, and how, can be read off the stream before.  So can the whole answer, if what
an observer makes of an outcome depends on nothing else: `World.Onlookers.perform`.
-/

namespace TokenNet

open Act

namespace Stream

variable {ω : Type}

/-- The outcome as whoever is in the slot leaves it. -/
def shown (tells : ω → Outcome → Outcome) (slot : Option ω) (o : Outcome) : Outcome :=
  slot.elim o fun observer => tells observer o

/-- What a dispatcher is answered if observers do no more than change the outcome. -/
def answer (tells : ω → Outcome → Outcome) (catalog : Catalog) (s : Stream ω) (r : Request) :
    Except Failure Outcome := do
  let (e, d) ← s.decided catalog r
  return if d.shot.ok then
    shown tells (s.observer? e.action) (shown tells s.onEvery (World.outcome e d))
  else shown tells s.onFail (World.refusal e d)

end Stream

/-- The call is one to the stream, or moves the clock. -/
def Op.OnStream {ω : Type} : Op ω → Prop
  | draft .. | load .. | edit .. | install .. => False
  | _ => True

/-- What a call is answered if observers do no more than change outcomes. -/
def Op.answer {ω : Type} (tells : ω → Outcome → Outcome) (w : World ω) :
    Op ω → Except Failure (Option Outcome)
  | dispatch r => (w.stream.answer tells w.catalog r).map some
  | op => (op.effect w).map fun _ => none

/-- The world that the effect of a call leaves. -/
def Op.left {ω : Type} (w : World ω) (op : Op ω) : World ω :=
  match op.effect w with
  | .ok w' => w'
  | .error _ => w

namespace World

variable {ω : Type} {w w' v : World ω} {op : Op ω}
  {call : ω → Outcome → Act (World ω) Outcome} {callReload : ω → Datum → Act (World ω) Unit}

/-- The stream and the nets are as they were. -/
structure Undisturbed (w w' : World ω) : Prop where
  nets : w.SameNets w'
  stream : w'.stream = w.stream

theorem Undisturbed.refl (w : World ω) : w.Undisturbed w := ⟨.refl w, rfl⟩

theorem Undisturbed.trans (h : w.Undisturbed w') (h' : w'.Undisturbed v) : w.Undisturbed v :=
  ⟨h.nets.trans h'.nets, h'.stream.trans h.stream⟩

/-- Observers that neither raise nor disturb anything.  What each answers is up to it. -/
structure Onlookers (call : ω → Outcome → Act (World ω) Outcome)
    (callReload : ω → Datum → Act (World ω) Unit) : Prop where
  call : ∀ observer o (w : World ω), ∃ o' w',
    apply (call observer o) w = (.ok o', w') ∧ w.Undisturbed w'
  callReload : ∀ observer schema (w : World ω), ∃ w',
    apply (callReload observer schema) w = (.ok (), w') ∧ w.Undisturbed w'

/-- What an observer makes of an outcome depends on that outcome alone. -/
def Tells (call : ω → Outcome → Act (World ω) Outcome) (tells : ω → Outcome → Outcome) : Prop :=
  ∀ observer o (w : World ω), (apply (call observer o) w).1 = .ok (tells observer o)

/-- An answer that fails as the expected one does, and that is the expected one if observers keep to
the outcome. -/
structure Heard {α : Type} (call : ω → Outcome → Act (World ω) Outcome)
    (expected : (ω → Outcome → Outcome) → Except Failure α) (answer : Except Failure α) : Prop where
  settled : ∀ tells, answer.map (fun _ => ()) = (expected tells).map fun _ => ()
  told : ∀ tells, Tells call tells → answer = expected tells

theorem Heard.of_eq {α : Type} {answer : Except Failure α} : Heard call (fun _ => answer) answer :=
  ⟨fun _ => rfl, fun _ _ => rfl⟩

theorem Heard.of_ok {α : Type} {expected : (ω → Outcome → Outcome) → Except Failure α}
    {g : (ω → Outcome → Outcome) → α} {a : α} (hexpected : ∀ tells, expected tells = .ok (g tells))
    (ha : ∀ tells, Tells call tells → a = g tells) : Heard call expected (.ok a) where
  settled tells := by
    rw [hexpected]
    rfl
  told tells ht := by rw [hexpected, ha tells ht]

theorem Heard.map {α β : Type} {expected : (ω → Outcome → Outcome) → Except Failure α}
    {answer : Except Failure α} (h : Heard call expected answer) (f : α → β) :
    Heard call (fun tells => (expected tells).map f) (answer.map f) where
  settled tells := by
    have hsettled := h.settled tells
    generalize expected tells = x at hsettled
    cases answer <;> cases x <;> first | exact hsettled | rfl
  told tells ht := congrArg (Except.map f) (h.told tells ht)

section

variable (h : Onlookers call callReload)
include h

theorem Onlookers.tell (slot : Option ω) (o : Outcome) (w : World ω) : ∃ o' w',
    apply ((site call callReload).tell slot o) w = (.ok o', w') ∧ w.Undisturbed w' ∧
      ∀ tells, Tells call tells → o' = Stream.shown tells slot o := by
  cases slot with
  | none => exact ⟨o, w, rfl, .refl w, fun _ _ => rfl⟩
  | some observer =>
    obtain ⟨o', w', hcall, hw'⟩ := h.call observer o w
    refine ⟨o', w', hcall, hw', fun tells ht => ?_⟩
    have hanswer := ht observer o w
    rw [hcall] at hanswer
    exact Except.ok.inj hanswer

theorem Onlookers.reload (schema : Datum) (w : World ω) : ∃ w',
    apply ((site call callReload).reload schema) w = (.ok (), w') ∧ w.Undisturbed w' := by
  simp only [Site.reload, apply_bind, apply_stream]
  cases w.stream.onReload with
  | none => exact ⟨w, rfl, .refl w⟩
  | some observer => exact h.callReload observer schema w

theorem Onlookers.announce (e : Event) (o : Outcome) (w : World ω) : ∃ o' w',
    apply ((site call callReload).announce e o) w = (.ok o', w') ∧ w.Undisturbed w' ∧
      ∀ tells, Tells call tells → o' = Stream.shown tells (w.stream.observer? e.action)
        (Stream.shown tells w.stream.onEvery o) := by
  obtain ⟨o₁, w₁, hevery, h₁, htold₁⟩ := h.tell w.stream.onEvery o w
  obtain ⟨o₂, w₂, haction, h₂, htold₂⟩ := h.tell (w.stream.observer? e.action) o₁ w₁
  obtain ⟨w₃, hreload, h₃⟩ := h.reload e.schema w₂
  refine ⟨o₂, w₃, ?_, (h₁.trans h₂).trans h₃, fun tells ht => ?_⟩
  · simp only [Site.announce, apply_bind, apply_stream, hevery, haction, hreload, apply_pure,
      h₁.stream]
  · rw [htold₂ tells ht, htold₁ tells ht]

/-- A dispatch has its effect and is answered, and that is all. -/
theorem Onlookers.dispatch (r : Request) (w : World ω) : ∃ answer w',
    apply ((site call callReload).dispatch r) w = (answer, w') ∧
      Heard call (fun tells => w.stream.answer tells w.catalog r) answer ∧
      ((w.stream.firing? w.catalog r).elim w w.fired).Undisturbed w' := by
  cases hd : w.stream.decided w.catalog r with
  | error failure =>
    have hanswer : ∀ tells, w.stream.answer tells w.catalog r = .error failure := by
      intro tells
      rw [Stream.answer, hd]
      rfl
    refine ⟨.error failure, w, apply_dispatch_of_error hd, ?_, ?_⟩
    · exact ⟨fun tells => by rw [hanswer], fun tells _ => (hanswer tells).symm⟩
    · rw [Stream.firing?_of_error hd]
      exact .refl w
  | ok decided =>
    obtain ⟨e, d⟩ := decided
    cases hok : d.shot.ok with
    | false =>
      obtain ⟨o, w', hfail, hw', htold⟩ := h.tell w.stream.onFail (refusal e d) w
      have hanswer : ∀ tells, w.stream.answer tells w.catalog r =
          .ok (Stream.shown tells w.stream.onFail (refusal e d)) := by
        intro tells
        simp only [Stream.answer, hd, bind, Except.bind, hok]
        rfl
      refine ⟨.ok o, w', (apply_dispatch_of_refused hd hok).trans hfail, .of_ok hanswer htold, ?_⟩
      rw [Stream.firing?_of_refused hd hok]
      exact hw'
    | true =>
      obtain ⟨f, hf, rfl, rfl⟩ := Stream.firing?_of_decided hd hok
      obtain ⟨o, w', hannounce, hw', htold⟩ := h.announce f.event (outcome f.event f.toDecision)
        { w with stream := w.stream.commit f.event f.toDecision w.timebase.now }
      have hanswer : ∀ tells, w.stream.answer tells w.catalog r =
          .ok (Stream.shown tells (w.stream.observer? f.event.action)
            (Stream.shown tells w.stream.onEvery (outcome f.event f.toDecision))) := by
        intro tells
        simp only [Stream.answer, hd, bind, Except.bind, hok]
        rfl
      refine ⟨.ok o, w', (apply_dispatch_of_accepted hd hok).trans hannounce,
        .of_ok hanswer htold, ?_⟩
      rw [hf]
      exact ⟨⟨hw'.nets.drafts, hw'.nets.installations⟩, hw'.stream⟩

end

/-- That a firing is under way is noted in the journal alone. -/
theorem undisturbed_foreseen (r : Request) (w : World ω) : w.Undisturbed (w.foreseen r) := by
  unfold foreseen
  split <;> exact ⟨⟨rfl, rfl⟩, rfl⟩

theorem Onlookers.perform_dispatch (h : Onlookers call callReload) (r : Request)
    (w : World ω) : ∃ answer w',
    apply ((Op.dispatch r).perform (site call callReload)) w = (answer, w') ∧
      Heard call (fun tells => (Op.dispatch r).answer tells w) answer ∧
      ((Op.dispatch r).left w).Undisturbed w' := by
  have hforeseen := undisturbed_foreseen r w
  obtain ⟨answer, w', happly, hheard, hw'⟩ := h.dispatch r (w.foreseen r)
  rw [hforeseen.stream, hforeseen.nets.catalog] at hheard hw'
  refine ⟨answer.map some, w', ?_, hheard.map some, ?_⟩
  · simp only [Op.perform, apply_bind, apply_modify, happly]
    cases answer <;> rfl
  · have hleft : (Op.dispatch r).left w = (w.stream.firing? w.catalog r).elim w w.fired := rfl
    rw [hleft]
    cases hf : w.stream.firing? w.catalog r with
    | none =>
      rw [hf] at hw'
      exact hforeseen.trans hw'
    | some f =>
      rw [hf] at hw'
      have hfired : (w.fired f).Undisturbed ((w.foreseen r).fired f) := by
        unfold foreseen
        split <;> exact ⟨⟨rfl, rfl⟩, rfl⟩
      exact hfired.trans hw'

/-- Every call to the stream has its effect and is answered, and that is all. -/
theorem Onlookers.perform (h : Onlookers call callReload) (hop : op.OnStream)
    (w : World ω) : ∃ answer w',
    apply (op.perform (site call callReload)) w = (answer, w') ∧
      Heard call (fun tells => op.answer tells w) answer ∧ (op.left w).Undisturbed w' := by
  have altered : ∀ f : World ω → Except Failure (World ω), ∃ answer w',
      apply (alter f) w = (answer, w') ∧
        Heard call (fun _ => (f w).map fun _ => none) answer ∧
        (match f w with
          | .ok w' => w'
          | .error _ => w : World ω).Undisturbed w' := by
    intro f
    rw [apply_alter]
    cases f w with
    | error failure => exact ⟨_, w, rfl, .of_eq, .refl w⟩
    | ok w' => exact ⟨_, w', rfl, .of_eq, .refl w'⟩
  cases op with
  | draft | load | edit | install => exact hop.elim
  | dispatch r => exact h.perform_dispatch r w
  | reload schema =>
    obtain ⟨w', happly, hw'⟩ := h.reload schema w
    refine ⟨.ok none, w', ?_, .of_eq, hw'⟩
    simp only [Op.perform, apply_bind, happly]
    rfl
  | update | restart | on | off | onEvery | onFail | onReload | advance | reset =>
    exact altered _

end World

end TokenNet
