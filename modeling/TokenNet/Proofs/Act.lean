import TokenNet.Stream
/-!
Running actions.  An action answers or fails and leaves a state either way, so what can be said of
one is said of the pair `apply` gives.  Drafting steps are actions on drafts, and what is proved
here serves both.
-/

namespace TokenNet

namespace Act

variable {σ α β : Type}

/-- What an action answers from a state, and the state it leaves. -/
def apply (act : Act σ α) (st : σ) : Except Failure α × σ := act.run.run st

def after (act : Act σ α) (st : σ) : σ := (apply act st).2

@[simp] theorem apply_pure (a : α) (st : σ) : apply (pure a : Act σ α) st = (.ok a, st) := rfl

@[simp] theorem apply_get (st : σ) : apply (get : Act σ σ) st = (.ok st, st) := rfl

@[simp] theorem apply_set (st' st : σ) : apply (set st' : Act σ PUnit) st = (.ok (), st') := rfl

@[simp] theorem apply_modify (f : σ → σ) (st : σ) :
    apply (modify f : Act σ Unit) st = (.ok (), f st) := rfl

theorem apply_bind (x : Act σ α) (f : α → Act σ β) (st : σ) :
    apply (x >>= f) st = match apply x st with
      | (.ok a, st') => apply (f a) st'
      | (.error e, st') => (.error e, st') := by
  rcases h : apply x st with ⟨_ | a, st'⟩ <;>
    simp only [apply] at h <;> simp only [apply, ExceptT.run_bind, StateT.run_bind, h] <;> rfl

theorem apply_bind_of_ok {x : Act σ α} {f : α → Act σ β} {st st' : σ} {a : α}
    (h : apply x st = (.ok a, st')) : apply (x >>= f) st = apply (f a) st' := by
  rw [apply_bind, h]

/-- A loop in which every round goes through.  `stage` is the state after what is behind it. -/
theorem apply_forIn {ρ : Type} {l : List ρ} {f : ρ → PUnit → Act σ (ForInStep PUnit)}
    (stage : List ρ → σ) (hround : ∀ before a rest, l = before ++ a :: rest →
      apply (f a ⟨⟩) (stage before) = (.ok (.yield ⟨⟩), stage (before ++ [a]))) :
    apply (forIn l PUnit.unit f) (stage []) = (.ok ⟨⟩, stage l) := by
  have go : ∀ rest before, l = before ++ rest →
      apply (forIn rest PUnit.unit f) (stage before) = (.ok ⟨⟩, stage l) := by
    intro rest
    induction rest with
    | nil =>
      intro before h
      rw [h, List.append_nil]
      rfl
    | cons a rest ih =>
      intro before h
      rw [List.forIn_cons, apply_bind_of_ok (hround before a rest h)]
      exact ih (before ++ [a]) (by rw [h, List.append_assoc, List.singleton_append])
  exact go l [] rfl

theorem after_bind_pure (x : Act σ α) (f : α → β) (st : σ) :
    after (x >>= fun a => pure (f a)) st = after x st := by
  simp only [after, apply_bind]
  rcases apply x st with ⟨_ | a, st'⟩ <;> rfl

theorem after_discard (x : Act σ α) (st : σ) : after (discard x) st = after x st :=
  after_bind_pure x (fun _ => ()) st

theorem apply_discard_error {x : Act σ α} {e : Failure} {st st' : σ} :
    apply (discard x) st = (.error e, st') ↔ apply x st = (.error e, st') := by
  change apply (x >>= fun _ => pure ()) st = _ ↔ _
  rw [apply_bind]
  rcases apply x st with ⟨_ | a, mid⟩ <;> simp

@[simp] theorem apply_liftExcept (x : Except Failure α) (st : σ) :
    apply (Act.liftExcept x) st = (x, st) := by
  cases x <;> rfl

/-- Runs an action to see what it answers, be it a failure. -/
def attempt (act : Act σ α) : Act σ (Except Failure α) :=
  ExceptT.mk do return .ok (← act.run)

theorem apply_bind_ok {x : Act σ α} {f : α → Act σ β} {st st' : σ} {b : β}
    (h : apply (x >>= f) st = (.ok b, st')) :
    ∃ a mid, apply x st = (.ok a, mid) ∧ apply (f a) mid = (.ok b, st') := by
  rw [apply_bind] at h
  rcases hx : apply x st with ⟨e | a, mid⟩
  · simp [hx] at h
  · exact ⟨a, mid, rfl, by simpa [hx] using h⟩

/-- The action, which also leaves in a log what `entry` makes of the state that it ran from. -/
def logged {τ : Type} (entry : σ → List τ) (act : Act σ α) : Act (σ × List τ) α :=
  ExceptT.mk fun (st, log) =>
    let (answer, st') := apply act st
    (answer, (st', log ++ entry st))

@[simp] theorem apply_logged {τ : Type} (entry : σ → List τ) (act : Act σ α) (st : σ)
    (log : List τ) : apply (logged entry act) (st, log) =
      ((apply act st).1, (apply act st).2, log ++ entry st) := rfl

/-! ## What actions keep -/

/-- Whatever the action answers, it leads from states that satisfy `I` to such states only. -/
def Keeps (I : σ → Prop) (act : Act σ α) : Prop := ∀ st, I st → I (after act st)

variable {I : σ → Prop}

theorem Keeps.left {act : Act σ α} (hk : Keeps I act) {st st' : σ} {r : Except Failure α}
    (hst : I st) (h : apply act st = (r, st')) : I st' := by
  have hafter := hk st hst
  rwa [after, h] at hafter

theorem keeps_pure (a : α) : Keeps I (pure a : Act σ α) := fun _ h => h

theorem keeps_throw (e : Failure) : Keeps I (throw e : Act σ α) := fun _ h => h

theorem keeps_get : Keeps I (get : Act σ σ) := fun _ h => h

theorem keeps_liftExcept (x : Except Failure α) : Keeps I (Act.liftExcept x : Act σ α) := by
  intro st h
  simpa [after] using h

theorem keeps_modify {f : σ → σ} (hf : ∀ st, I st → I (f st)) :
    Keeps I (modify f : Act σ Unit) := fun st h => hf st h

theorem keeps_bind {x : Act σ α} {f : α → Act σ β} (hx : Keeps I x) (hf : ∀ a, Keeps I (f a)) :
    Keeps I (x >>= f) := by
  intro st h
  have hmid := hx st h
  simp only [after, apply_bind] at hmid ⊢
  rcases hr : apply x st with ⟨_ | a, mid⟩ <;> rw [hr] at hmid
  · exact hmid
  · exact hf a mid hmid

theorem keeps_attempt {x : Act σ α} (hx : Keeps I x) : Keeps I (attempt x) := hx

theorem keeps_discard {x : Act σ α} (hx : Keeps I x) : Keeps I (discard x) :=
  keeps_bind hx fun _ => keeps_pure _

/-! ## Actions that never fail -/

/-- From every state the action comes to an answer. -/
def Answers (act : Act σ α) : Prop := ∀ st, ∃ a st', apply act st = (.ok a, st')

theorem answers_pure (a : α) : Answers (pure a : Act σ α) := fun st => ⟨a, st, rfl⟩

theorem answers_bind {x : Act σ α} {f : α → Act σ β} (hx : Answers x)
    (hf : ∀ a, Answers (f a)) : Answers (x >>= f) := by
  intro st
  obtain ⟨a, mid, ha⟩ := hx st
  rw [apply_bind_of_ok ha]
  exact hf a mid

/-! ## What actions inherit from their parts -/

/-- What holds of an action as soon as it holds of the actions it is put together from. -/
structure Inherited (P : (α : Type) → Act σ α → Prop) : Prop where
  pure : ∀ {α : Type} (a : α), P α (pure a)
  bind : ∀ {α β : Type} {x : Act σ α} {f : α → Act σ β}, P α x → (∀ a, P β (f a)) → P β (x >>= f)

theorem inherited_keeps : Inherited fun (α : Type) (act : Act σ α) => Keeps I act :=
  ⟨keeps_pure, keeps_bind⟩

theorem inherited_answers : Inherited fun (α : Type) (act : Act σ α) => Answers act :=
  ⟨answers_pure, answers_bind⟩

/-! ## Actions that are decided beforehand -/

section

variable {x : Act σ α} {f : α → Act σ β} {st mid st' : σ} {a : α} {b : β} {P Q : Prop}
  {K K' : Failure → Prop}

/-- Exactly if `P` holds, the action goes through from the state, with this answer and to this
state; otherwise it fails for a cause in `K`. -/
def Settles (x : Act σ α) (st : σ) (P : Prop) (a : α) (st' : σ) (K : Failure → Prop) : Prop :=
  (P ∧ apply x st = (.ok a, st')) ∨ (¬P ∧ ∃ e left, apply x st = (.error e, left) ∧ K e)

theorem Settles.bind (hx : Settles x st P a mid K) (hf : P → Settles (f a) mid Q b st' K) :
    Settles (x >>= f) st (P ∧ Q) b st' K := by
  rcases hx with ⟨hP, hx⟩ | ⟨hP, e, left, hx, he⟩
  · rw [Settles, apply_bind_of_ok hx]
    rcases hf hP with ⟨hQ, hy⟩ | ⟨hQ, hy⟩
    · exact .inl ⟨⟨hP, hQ⟩, hy⟩
    · exact .inr ⟨fun h => hQ h.2, hy⟩
  · exact .inr ⟨fun h => hP h.1, e, left, by rw [apply_bind, hx], he⟩

theorem Settles.congr (h : Settles x st P a st' K) (hPQ : P ↔ Q) : Settles x st Q a st' K := by
  rwa [Settles, ← hPQ]

theorem Settles.mono (h : Settles x st P a st' K) (hK : ∀ e, ¬P → K e → K' e) :
    Settles x st P a st' K' :=
  h.imp_right fun ⟨hP, e, left, hx, he⟩ => ⟨hP, e, left, hx, hK e hP he⟩

end

end Act

end TokenNet
