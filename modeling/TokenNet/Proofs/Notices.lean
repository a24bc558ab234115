import TokenNet.Proofs.Replay
/-!
Who is told what.  The slots of a stream hold what the latest calls left in them, so a list of calls
says who is to be told of a dispatch, and in which order.  That these are told and nobody else is
said of a site that keeps a log of every call that it makes of an observer, with what the observer
was shown and the stream as it then stood.  Observers may raise, but leave the stream alone.

Main statement: `World.observers_told`.  The log changes nothing else: `World.forget_recording`.
-/

namespace TokenNet

open Act

/-! ## The slots of a stream -/

inductive Slot where
  | every
  | fail
  | reload
  | action (label : String)

def Stream.slot {ω : Type} (s : Stream ω) : Slot → Option ω
  | .every => s.onEvery
  | .fail => s.onFail
  | .reload => s.onReload
  | .action label => s.observer? (.text label)

/-- What a call leaves in a slot, if it is about that slot at all. -/
def Op.sets? {ω : Type} : Op ω → Slot → Option (Option ω)
  | onEvery observer, .every => some observer
  | onFail observer, .fail => some observer
  | onReload observer, .reload => some observer
  | on action observer, .action label =>
    if action.key? = some (.text label) then some observer else none
  | off action, .action label => if action.key? = some (.text label) then some none else none
  | _, _ => none

/-- Whoever the latest of the calls that are about a slot left in it. -/
def Slot.holder? {ω : Type} (ops : List (Op ω)) (slot : Slot) : Option ω :=
  (ops.reverse.findSome? fun op => op.sets? slot).join

namespace World

variable {ω : Type} {w w' : World ω} {op : Op ω} {slot : Slot}
  {call : ω → Outcome → Act (World ω) Outcome} {callReload : ω → Datum → Act (World ω) Unit}

theorem slot_observe {s s' : Stream ω} {action : Datum} {observer : Option ω}
    (h : s.observe action observer = .ok s') :
    s'.slot slot = ((Op.on action observer).sets? slot).getD (s.slot slot) := by
  obtain ⟨key, hkey, h⟩ := Failure.ok_of_bind h
  cases h
  cases slot with
  | every | fail | reload => rfl
  | action label =>
    simp only [Stream.slot, Stream.observer?, Op.sets?, Stream.keyOf_eq_ok.1 hkey, Datum.key?,
      Option.bind_eq_bind, Option.bind_some, Option.some.injEq]
    by_cases hk : key = .text label
    · subst hk
      rw [Register.lookup?_enter _ _ _ _ _ rfl, if_pos rfl, if_pos rfl]
      rfl
    · rw [Register.lookup?_enter_of_ne _ hk, if_neg hk]
      rfl

theorem slot_ignore {s s' : Stream ω} {action : Datum} (h : s.ignore action = .ok s') :
    s'.slot slot = ((Op.off action).sets? slot).getD (s.slot slot) := by
  cases slot with
  | every | fail | reload =>
    have hothers : s'.onEvery = s.onEvery ∧ s'.onFail = s.onFail ∧ s'.onReload = s.onReload := by
      unfold Stream.ignore at h
      split at h
      · cases h
        exact ⟨rfl, rfl, rfl⟩
      · obtain ⟨key, -, h⟩ := Failure.ok_of_bind h
        cases h
        exact ⟨rfl, rfl, rfl⟩
    simp only [Stream.slot, Op.sets?, hothers, Option.getD_none]
  | action label =>
    simp only [Stream.slot, Stream.observer?, Op.sets?, Datum.key?, Option.bind_eq_bind,
      Option.bind_some]
    unfold Stream.ignore at h
    split at h
    next hempty =>
      cases h
      rw [List.isEmpty_iff.1 hempty]
      split <;> rfl
    · obtain ⟨key, hkey, h⟩ := Failure.ok_of_bind h
      cases h
      simp only [Stream.keyOf_eq_ok.1 hkey, Register.lookup?_erase, Option.some.injEq]
      split <;> rfl

/-- A call that has its effect leaves in every slot what it is to leave there. -/
theorem slot_of_effect (h : op.effect w = .ok w') :
    w'.stream.slot slot = (op.sets? slot).getD (w.stream.slot slot) := by
  cases op with
  | draft | load | install =>
    obtain ⟨_, -, h⟩ := Failure.ok_of_bind h
    cases h
    cases slot <;> rfl
  | edit id step =>
    cases h
    have hstream : (w.edited id step).2.stream = w.stream := by
      unfold edited
      split <;> rfl
    cases slot <;> rw [hstream] <;> rfl
  | dispatch r =>
    cases h
    cases w.stream.firing? w.catalog r <;> cases slot <;> rfl
  | update net =>
    obtain ⟨_, -, h⟩ := Failure.ok_of_bind h
    obtain ⟨_, -, h⟩ := Failure.ok_of_bind h
    obtain ⟨_, hs, h⟩ := Failure.ok_of_bind h
    obtain ⟨_, -, hs⟩ := Failure.ok_of_bind hs
    cases hs
    cases h
    cases slot <;> rfl
  | on action observer =>
    obtain ⟨_, hs, h⟩ := Failure.ok_of_bind h
    cases h
    exact slot_observe hs
  | off action =>
    obtain ⟨_, hs, h⟩ := Failure.ok_of_bind h
    cases h
    exact slot_ignore hs
  | advance =>
    simp only [Op.effect, advanced] at h
    split at h
    · cases h
      cases slot <;> rfl
    · cases h
  | restart | reload | reset | onEvery | onFail | onReload =>
    cases h
    cases slot <;> rfl

/-- A call that is about a slot goes through. -/
theorem effect_of_sets? {holder : Option ω} (h : op.sets? slot = some holder) (w : World ω) :
    ∃ w', op.effect w = .ok w' := by
  cases op with
  | onEvery | onFail | onReload => exact ⟨_, rfl⟩
  | on action observer =>
    cases slot with
    | every | fail | reload => cases h
    | action label =>
      obtain ⟨hkey, -⟩ := Option.ite_none_right_eq_some.1 h
      simp only [Op.effect, rewired, Stream.observe, Stream.keyOf_eq_ok.2 hkey]
      exact ⟨_, rfl⟩
  | off action =>
    cases slot with
    | every | fail | reload => cases h
    | action label =>
      obtain ⟨hkey, -⟩ := Option.ite_none_right_eq_some.1 h
      simp only [Op.effect, rewired, Stream.ignore, Stream.keyOf_eq_ok.2 hkey]
      split <;> exact ⟨_, rfl⟩
  | draft | load | edit | install | dispatch | update | restart | reload | advance | reset =>
    cases slot <;> cases h

/-- Such a call tells nobody. -/
theorem perform_of_sets? {holder : Option ω} (h : op.sets? slot = some holder)
    (site : Site (World ω) ω) : op.perform site = alter op.effect := by
  cases op with
  | onEvery | onFail | onReload | on | off => rfl
  | draft | load | edit | install | dispatch | update | restart | reload | advance | reset =>
    cases slot <;> cases h

section

variable
  (hcall : ∀ observer o (w : World ω), (after (call observer o) w).stream = w.stream)
  (hreload : ∀ observer schema (w : World ω),
    (after (callReload observer schema) w).stream = w.stream)
include hcall hreload

/-- Whether it goes through or not, a call leaves in every slot what it is to leave there. -/
theorem slot_of_perform (op : Op ω) (slot : Slot) (w : World ω) :
    (after (op.perform (site call callReload)) w).stream.slot slot =
      (op.sets? slot).getD (w.stream.slot slot) := by
  cases hsets : op.sets? slot with
  | none =>
    have hkeeps : Keeps (fun w' : World ω => w'.stream.slot slot = w.stream.slot slot)
        (op.perform (site call callReload)) := by
      refine keeps_perform (fun w₁ w₂ heffect hw₁ => ?_) (fun observer o w₁ hw₁ => ?_)
        fun observer schema w₁ hw₁ => ?_
      · rw [slot_of_effect heffect, hsets]
        exact hw₁
      · rw [hcall]
        exact hw₁
      · rw [hreload]
        exact hw₁
    exact hkeeps w rfl
  | some holder =>
    obtain ⟨w', heffect⟩ := effect_of_sets? hsets w
    rw [perform_of_sets? hsets, after, apply_alter, heffect]
    exact (slot_of_effect heffect).trans (congrArg (Option.getD · _) hsets)

/-- The induction over calls: of those that are about a slot the latest counts. -/
theorem slot_of_calls (ops : List (Op ω)) (slot : Slot) (w : World ω) :
    (after ((Script.calls ops).run (site call callReload)) w).stream.slot slot =
      (ops.reverse.findSome? fun op => op.sets? slot).getD (w.stream.slot slot) := by
  induction ops generalizing w with
  | nil => rfl
  | cons op rest ih =>
    have hrest := ih (after (op.perform (site call callReload)) w)
    rw [slot_of_perform hcall hreload] at hrest
    have hstep : after ((Script.calls (op :: rest)).run (site call callReload)) w =
        after ((Script.calls rest).run (site call callReload))
          (after (op.perform (site call callReload)) w) := rfl
    rw [hstep, hrest, List.reverse_cons, List.findSome?_append]
    cases rest.reverse.findSome? fun op => op.sets? slot with
    | some holder => rfl
    | none =>
      simp only [Option.none_or, List.findSome?_cons, List.findSome?_nil, Option.getD_none]
      cases op.sets? slot <;> rfl

end

end World

/-! ## A log of calls -/

inductive Shown where
  | outcome (o : Outcome)
  | reload (schema : Datum)

/-- An observer was called: what it was shown, and the stream as it stood. -/
structure Call (ω : Type) where
  observer : ω
  shown : Shown
  stream : Stream ω

/-- Somebody who is to be told of the outcome, or of a reload. -/
inductive Notice (ω : Type) where
  | outcome (observer : ω)
  | reload (observer : ω) (schema : Datum)

/-- What came of telling some observers in turn: the calls made, the answer, and what is left. -/
structure Telling (ω : Type) where
  calls : List (Call ω)
  answer : Except Failure Outcome
  left : World ω

namespace Notice

variable {ω : Type}

def observer : Notice ω → ω
  | outcome observer => observer
  | reload observer _ => observer

def shown (o : Outcome) : Notice ω → Shown
  | outcome _ => .outcome o
  | reload _ schema => .reload schema

def act (call : ω → Outcome → Act (World ω) Outcome) (callReload : ω → Datum → Act (World ω) Unit)
    (o : Outcome) : Notice ω → Act (World ω) Outcome
  | outcome observer => call observer o
  | reload observer schema => do
    callReload observer schema
    return o

/-- Calls one observer after another, up to the first that raises. -/
def tellAll (call : ω → Outcome → Act (World ω) Outcome)
    (callReload : ω → Datum → Act (World ω) Unit) : List (Notice ω) → Outcome → World ω → Telling ω
  | [], o, w => { calls := [], answer := .ok o, left := w }
  | notice :: rest, o, w =>
    let called := { observer := notice.observer, shown := notice.shown o, stream := w.stream }
    match apply (notice.act call callReload o) w with
    | (.error failure, w') => { calls := [called], answer := .error failure, left := w' }
    | (.ok o', w') =>
      let more := tellAll call callReload rest o' w'
      { more with calls := called :: more.calls }

end Notice

namespace World

variable {ω : Type}

/-- The world and the calls made so far. -/
abbrev Logged (ω : Type) := World ω × List (Call ω)

/-- Logs the call of an observer and makes it. -/
def logging {α : Type} (observer : ω) (shown : Shown) (act : Act (World ω) α) :
    Act (Logged ω) α :=
  act.logged fun w => [{ observer, shown, stream := w.stream }]

/-- The world as a site that keeps a log. -/
def recording (call : ω → Outcome → Act (World ω) Outcome)
    (callReload : ω → Datum → Act (World ω) Unit) : Site (Logged ω) ω where
  stream p := p.1.stream
  withStream s p := ({ p.1 with stream := s }, p.2)
  catalog p := p.1.catalog
  now p := p.1.timebase.read p.1.timebase.clock
  report _ := pure ()
  call observer o := logging observer (.outcome o) (call observer o)
  callReload observer schema := logging observer (.reload schema) (callReload observer schema)

/-- An answer and a state with the log left out. -/
def forget {α : Type} (p : α × Logged ω) : α × World ω := (p.1, p.2.1)

variable {w : World ω} {log : List (Call ω)} {r : Request} {e : Event} {d : Decision} {o : Outcome}
  {call : ω → Outcome → Act (World ω) Outcome} {callReload : ω → Datum → Act (World ω) Unit}

theorem plain_recording : (recording call callReload).Plain :=
  ⟨fun _ _ => rfl, fun _ _ _ => rfl, fun _ => rfl, fun _ _ => rfl, fun _ => rfl⟩

@[simp] theorem apply_logging {α : Type} (observer : ω) (shown : Shown) (act : Act (World ω) α) :
    apply (logging observer shown act) (w, log) = ((apply act w).1, (apply act w).2,
      log ++ [{ observer, shown, stream := w.stream }]) := rfl

theorem recording_of_error {failure : Failure} (h : w.stream.decided w.catalog r = .error failure) :
    apply ((recording call callReload).dispatch r) (w, log) = (.error failure, (w, log)) :=
  @Site.apply_dispatch_of_error _ _ (recording call callReload) (w, log) r failure h

theorem recording_of_refused (h : w.stream.decided w.catalog r = .ok (e, d))
    (hok : d.shot.ok = false) :
    apply ((recording call callReload).dispatch r) (w, log) =
      apply ((recording call callReload).tell w.stream.onFail (refusal e d)) (w, log) :=
  @Site.Plain.apply_dispatch_of_refused _ _ (recording call callReload) (w, log) r e d
    plain_recording h hok

theorem recording_of_accepted (h : w.stream.decided w.catalog r = .ok (e, d))
    (hok : d.shot.ok = true) :
    apply ((recording call callReload).dispatch r) (w, log) =
      apply ((recording call callReload).announce e (outcome e d))
        ({ w with stream := w.stream.commit e d w.timebase.now }, log) :=
  @Site.Plain.apply_dispatch_of_accepted _ _ (recording call callReload) (w, log) r e d
    plain_recording w.timebase.now h hok (Timebase.read_clock _)

/-! ### The log changes nothing else -/

/-- Without the log the one action is the other. -/
def Forgets {α : Type} (act : Act (Logged ω) α) (act' : Act (World ω) α) : Prop :=
  ∀ w log, forget (apply act (w, log)) = apply act' w

theorem Forgets.bind {α β : Type} {x : Act (Logged ω) α} {x' : Act (World ω) α}
    {f : α → Act (Logged ω) β} {f' : α → Act (World ω) β} (hx : Forgets x x')
    (hf : ∀ a, Forgets (f a) (f' a)) : Forgets (x >>= f) (x' >>= f') := by
  intro w log
  rw [apply_bind, apply_bind, ← hx w log]
  rcases apply x (w, log) with ⟨failure | a, w', log'⟩
  · rfl
  · exact hf a w' log'

theorem forgets_tell (slot : Option ω) (o : Outcome) :
    Forgets ((recording call callReload).tell slot o) ((site call callReload).tell slot o) := by
  cases slot <;> exact fun _ _ => rfl

theorem forgets_reload (schema : Datum) :
    Forgets ((recording call callReload).reload schema) ((site call callReload).reload schema) := by
  intro w log
  simp only [Site.reload, apply_bind, Site.apply_get]
  cases h : w.stream.onReload <;> simp only [recording, site, h] <;> rfl

theorem forgets_announce (e : Event) (o : Outcome) :
    Forgets ((recording call callReload).announce e o) ((site call callReload).announce e o) := by
  have hget : Forgets (recording call callReload).get (site call callReload).get := fun _ _ => rfl
  refine hget.bind fun _ => (forgets_tell _ _).bind fun _ => ?_
  refine hget.bind fun _ => (forgets_tell _ _).bind fun _ => ?_
  exact (forgets_reload _).bind fun _ => fun _ _ => rfl

/-- A dispatch that is logged is the dispatch, whatever its observers do. -/
theorem forget_recording (r : Request) :
    Forgets ((recording call callReload).dispatch r) ((site call callReload).dispatch r) := by
  intro w log
  cases hd : w.stream.decided w.catalog r with
  | error failure =>
    rw [recording_of_error hd, apply_dispatch_of_error hd]
    rfl
  | ok decided =>
    obtain ⟨e, d⟩ := decided
    cases hok : d.shot.ok with
    | false =>
      rw [recording_of_refused hd hok, apply_dispatch_of_refused hd hok]
      exact forgets_tell _ _ w log
    | true =>
      rw [recording_of_accepted hd hok, apply_dispatch_of_accepted hd hok]
      exact forgets_announce _ _ _ log

end World

/-! ## What is logged -/

namespace Telling

variable {ω : Type}

/-- The answer and the state that telling leaves after a log. -/
def logged (log : List (Call ω)) (t : Telling ω) : Except Failure Outcome × World.Logged ω :=
  (t.answer, t.left, log ++ t.calls)

/-- One telling after another, unless somebody raised. -/
def followed (t : Telling ω) (next : Outcome → World ω → Telling ω) : Telling ω :=
  match t.answer with
  | .error _ => t
  | .ok o => { next o t.left with calls := t.calls ++ (next o t.left).calls }

end Telling

namespace Notice

variable {ω : Type}

/-- Who is to be told of a firing that was entered, in this order. -/
def ofAccepted (holder : Slot → Option ω) (label : String) (schema : Datum) : List (Notice ω) :=
  (holder .every).toList.map outcome ++
    ((holder (.action label)).toList.map outcome ++ (holder .reload).toList.map (reload · schema))

/-- Who is to be told of a firing that was refused. -/
def ofRefused (holder : Slot → Option ω) : List (Notice ω) := (holder .fail).toList.map outcome

variable {w : World ω} {o : Outcome} {notices : List (Notice ω)}
  {call : ω → Outcome → Act (World ω) Outcome} {callReload : ω → Datum → Act (World ω) Unit}

theorem tellAll_append (notices more : List (Notice ω)) (o : Outcome) (w : World ω) :
    tellAll call callReload (notices ++ more) o w =
      (tellAll call callReload notices o w).followed (tellAll call callReload more) := by
  induction notices generalizing o w with
  | nil => rfl
  | cons notice rest ih =>
    simp only [List.cons_append, tellAll]
    rcases apply (notice.act call callReload o) w with ⟨failure | o', w'⟩
    · rfl
    · simp only [ih]
      rcases tellAll call callReload rest o' w' with ⟨calls, answer, left⟩
      cases answer <;> rfl

section

variable
  (hcall : ∀ observer o (w : World ω), (after (call observer o) w).stream = w.stream)
  (hreload : ∀ observer schema (w : World ω),
    (after (callReload observer schema) w).stream = w.stream)
include hcall hreload

theorem stream_act (notice : Notice ω) (o : Outcome) (w : World ω) :
    (after (notice.act call callReload o) w).stream = w.stream := by
  cases notice with
  | outcome observer => exact hcall observer o w
  | reload observer schema =>
    have hafter : after ((reload observer schema).act call callReload o) w =
        after (callReload observer schema) w := after_bind_pure _ _ _
    rw [hafter, hreload]

/-- Everybody sees the stream as it was when the first was called, and it is left like that. -/
theorem stream_tellAll (notices : List (Notice ω)) (o : Outcome) (w : World ω) :
    (tellAll call callReload notices o w).left.stream = w.stream ∧
      ∀ c ∈ (tellAll call callReload notices o w).calls, c.stream = w.stream := by
  induction notices generalizing o w with
  | nil => exact ⟨rfl, fun _ hc => nomatch hc⟩
  | cons notice rest ih =>
    have hact := stream_act hcall hreload notice o w
    simp only [tellAll]
    rcases hr : apply (notice.act call callReload o) w with ⟨failure | o', w'⟩
    · rw [after, hr] at hact
      refine ⟨hact, fun c hc => ?_⟩
      rw [List.mem_singleton.1 hc]
    · rw [after, hr] at hact
      obtain ⟨hleft, hcalls⟩ := ih o' w'
      refine ⟨hleft.trans hact, fun c hc => ?_⟩
      rcases List.mem_cons.1 hc with rfl | hc
      · rfl
      · exact (hcalls c hc).trans hact

end

end Notice

namespace World

variable {ω : Type} {w before start : World ω} {log : List (Call ω)} {e : Event} {o : Outcome}
  {timebase : Timebase} {config : Config} {nets : List Operand} {label : String}
  {call : ω → Outcome → Act (World ω) Outcome} {callReload : ω → Datum → Act (World ω) Unit}

open Notice

theorem recording_tell (slot : Option ω) (o : Outcome) (w : World ω) (log : List (Call ω)) :
    apply ((recording call callReload).tell slot o) (w, log) =
      (tellAll call callReload (slot.toList.map .outcome) o w).logged log := by
  cases slot with
  | none => simp [Site.tell, tellAll, Telling.logged]
  | some observer =>
    show apply (logging observer (.outcome o) (call observer o)) (w, log) = _
    simp only [apply_logging, Option.toList_some, List.map_cons, List.map_nil, tellAll, act,
      Notice.observer, shown, Telling.logged]
    rcases apply (call observer o) w with ⟨failure | o', w'⟩ <;> rfl

theorem recording_reload (schema : Datum) (o : Outcome) (w : World ω) (log : List (Call ω)) :
    apply (do (recording call callReload).reload schema; return o) (w, log) =
      (tellAll call callReload (w.stream.onReload.toList.map (.reload · schema)) o w).logged log := by
  simp only [Site.reload, bind_assoc, apply_bind, Site.apply_get]
  have hstream : (recording call callReload).stream (w, log) = w.stream := rfl
  rw [hstream]
  cases w.stream.onReload with
  | none => simp [tellAll, Telling.logged]
  | some observer =>
    have hcalled : apply ((recording call callReload).callReload observer schema) (w, log) =
        ((apply (callReload observer schema) w).1, (apply (callReload observer schema) w).2,
          log ++ [{ observer, shown := .reload schema, stream := w.stream }]) := rfl
    simp only [hcalled, Option.toList_some, List.map_cons, List.map_nil, tellAll, act,
      Notice.observer, shown, Telling.logged, apply_bind]
    rcases apply (callReload observer schema) w with ⟨failure | _, w'⟩ <;> rfl

/-- One telling after another: what comes second starts from what the first one left. -/
theorem logged_bind {x : Act (Logged ω) Outcome} {f : Outcome → Act (Logged ω) Outcome}
    {t : Telling ω} {next : Outcome → World ω → Telling ω}
    (hx : apply x (w, log) = t.logged log)
    (hf : ∀ o log, apply (f o) (t.left, log) = (next o t.left).logged log) :
    apply (x >>= f) (w, log) = (t.followed next).logged log := by
  rw [apply_bind, hx]
  obtain ⟨calls, answer, left⟩ := t
  cases answer with
  | error failure => rfl
  | ok o =>
    have hnext := hf o (log ++ calls)
    simp only [Telling.logged, Telling.followed] at hnext ⊢
    rw [hnext, List.append_assoc]

section

variable
  (hcall : ∀ observer o (w : World ω), (after (call observer o) w).stream = w.stream)
  (hreload : ∀ observer schema (w : World ω),
    (after (callReload observer schema) w).stream = w.stream)
include hcall hreload

/-- As nobody changes the slots, those are told who were in them at first. -/
theorem recording_announce (haction : e.action = .text label) (o : Outcome) (w : World ω)
    (log : List (Call ω)) :
    apply ((recording call callReload).announce e o) (w, log) =
      (tellAll call callReload (ofAccepted w.stream.slot label e.schema) o w).logged log := by
  rw [Site.announce, apply_bind_of_ok (Site.apply_get _ _), ofAccepted, tellAll_append]
  refine logged_bind (recording_tell _ o w log) fun o₁ log₁ => ?_
  obtain ⟨hfirst, -⟩ := stream_tellAll hcall hreload
    ((w.stream.slot .every).toList.map .outcome) o w
  generalize (tellAll call callReload ((w.stream.slot .every).toList.map .outcome) o w).left = w₁
    at hfirst ⊢
  rw [apply_bind_of_ok (Site.apply_get _ _), ← hfirst, tellAll_append, haction]
  refine logged_bind (recording_tell _ o₁ w₁ log₁) fun o₂ log₂ => ?_
  obtain ⟨hsecond, -⟩ := stream_tellAll hcall hreload
    ((w₁.stream.slot (.action label)).toList.map .outcome) o₁ w₁
  generalize (tellAll call callReload
    ((w₁.stream.slot (.action label)).toList.map .outcome) o₁ w₁).left = w₂ at hsecond ⊢
  rw [← hsecond]
  exact recording_reload e.schema o₂ w₂ log₂

/-- Whatever calls were made of a stream since it was opened, they say who is told of the next
dispatch: nobody if there is nothing to be decided; on a firing that is entered, whoever the latest
calls left in the slots of every firing, of this action and of reloads, in this order up to the
first that raises, once it has been entered; on one that is refused, whoever they left in the slot
of failures. -/
theorem observers_told (hopen : before.withOpened timebase config nets = .ok start)
    (ops : List (Op ω)) (r : Request) (log : List (Call ω)) :
    let w := after ((Script.calls ops).run (site call callReload)) start
    let dispatched := apply ((recording call callReload).dispatch r) (w, log)
    (∀ failure, w.stream.decided w.catalog r = .error failure →
      dispatched = (.error failure, (w, log))) ∧
    (∀ e d, w.stream.decided w.catalog r = .ok (e, d) → d.shot.ok = true →
      ∃ label, e.action = .text label ∧
        let told := tellAll call callReload
          (ofAccepted (Slot.holder? ops) label e.schema) (outcome e d)
          { w with stream := w.stream.commit e d w.timebase.now }
        dispatched = told.logged log ∧
          ∀ c ∈ told.calls, Stream.Entered e d w.timebase.now w.stream c.stream) ∧
    ∀ e d, w.stream.decided w.catalog r = .ok (e, d) → d.shot.ok = false →
      let told := tellAll call callReload (ofRefused (Slot.holder? ops)) (refusal e d) w
      dispatched = told.logged log ∧ ∀ c ∈ told.calls, c.stream = w.stream := by
  intro w dispatched
  have hslots : w.stream.slot = Slot.holder? ops := by
    funext slot
    obtain ⟨haction, hevery, hfail, hreloaded⟩ := (new_of_withOpened hopen).unobserved
    have hempty : start.stream.slot slot = none := by
      cases slot with
      | every => exact hevery
      | fail => exact hfail
      | reload => exact hreloaded
      | action label => simp [Stream.slot, Stream.observer?, haction, Datum.key?, Register.lookup?]
    rw [slot_of_calls hcall hreload, hempty, Slot.holder?]
    cases ops.reverse.findSome? fun op => op.sets? slot <;> rfl
  rw [← hslots]
  refine ⟨fun failure hd => recording_of_error hd, fun e d hd hok => ?_, fun e d hd hok => ?_⟩
  · obtain ⟨-, -, inst, -, -, hfire⟩ := Stream.decided_eq_ok hd
    obtain ⟨t, k, ht, -⟩ := Engine.fire_ok hfire
    obtain ⟨label, haction, -⟩ := Engine.transition_eq_ok.1 ht
    refine ⟨label, haction, ?_, fun c hc => ?_⟩
    · exact (recording_of_accepted hd hok).trans
        (recording_announce hcall hreload haction _ _ log)
    · rw [(stream_tellAll hcall hreload _ _ _).2 c hc]
      exact Stream.entered_commit hd _
  · refine ⟨?_, (stream_tellAll hcall hreload _ _ w).2⟩
    exact (recording_of_refused hd hok).trans (recording_tell _ _ w log)

end

end World

/-! ## Somebody is replaced, and somebody raises -/

namespace Relay

/-- The one who was to be told that the token is passed on is replaced. -/
def watched : List (Op String) :=
  [.onEvery (some "log"), .on (.text "pass") (some "first"), .onReload (some "draw"),
    .on (.text "pass") (some "stop"), .onFail (some "retry"), .on (.text "back") (some "log"),
    .off (.text "back")]

def stop (observer : String) (o : Outcome) : Act (World String) Outcome :=
  if observer = "stop" then throw (.raised observer) else return o

def draw (_ : String) (_ : Datum) : Act (World String) Unit := return

/-- The world that the calls leave. -/
def called (ops : List (Op String)) : World String :=
  after ((Script.calls ops).run (World.site stop draw)) opened

end Relay

namespace World

open Relay

set_option maxRecDepth 2048 in
/-- As "stop" raises, nobody draws the reload.  Passing the token on once more is refused, and only
the one in the slot of failures is told. -/
theorem relay_observers_told :
    (∃ told : Telling String, apply ((recording stop draw).dispatch request)
        (called watched, []) = told.logged [] ∧
      told.calls.map Call.observer = ["log", "stop"] ∧ told.answer = .error (.raised "stop")) ∧
    ∃ told : Telling String, apply ((recording stop draw).dispatch request)
        (called (watched ++ [.dispatch request]), []) = told.logged [] ∧
      told.calls.map Call.observer = ["retry"] := by
  have hcall : ∀ (observer : String) (o : Outcome) (w : World String),
      (after (stop observer o) w).stream = w.stream := by
    intro observer o w
    unfold stop
    split <;> rfl
  have hopen : World.withOpened (.ofStep (.int 1)) .default [.net 0]
      (after (prepare.run (failing.site 0)) {}) = .ok Relay.opened := rfl
  have hreload : ∀ (observer : String) (schema : Datum) (w : World String),
      (after (draw observer schema) w).stream = w.stream := fun _ _ _ => rfl
  have hfirst : ((called watched).stream.decided (called watched).catalog request).map
      (fun decided => (decided.1.action, decided.2.shot.ok)) = .ok (.text "pass", true) := by cbv
  have hagain : ((called (watched ++ [.dispatch request])).stream.decided
      (called (watched ++ [.dispatch request])).catalog request).map
      (fun decided => (decided.1.action, decided.2.shot.ok)) = .ok (.text "pass", false) := by cbv
  obtain ⟨-, haccepted, -⟩ := observers_told hcall hreload hopen watched request []
  obtain ⟨-, -, hrefused⟩ := observers_told hcall hreload hopen (watched ++ [.dispatch request])
    request []
  obtain ⟨⟨e, d⟩, hd, hverdict⟩ := Failure.ok_of_map hfirst
  obtain ⟨⟨e', d'⟩, hd', hverdict'⟩ := Failure.ok_of_map hagain
  obtain ⟨haction, hok⟩ := Prod.mk.inj hverdict
  obtain ⟨-, hok'⟩ := Prod.mk.inj hverdict'
  obtain ⟨label, hlabel, htold, -⟩ := haccepted e d hd hok
  obtain ⟨htold', -⟩ := hrefused e' d' hd' hok'
  cases haction.symm.trans hlabel
  exact ⟨⟨_, htold, rfl, rfl⟩, _, htold', rfl⟩

end World

end TokenNet
