import Mathlib
import TokenNet.Proofs.Alike
import TokenNet.Proofs.Runs
/-!
Replaying history.  As long as neither nets nor what they are registered as change, what is decided
of a request depends on the current markings alone, and these come about by accepted firings alone.
So a stream that is sent the events of a history, and nothing else, accepts every one of them and
ends up where the history did: `World.Ran.replays`.  What was refused or failed in between, what
happened before a restart, and what observers did beside it leaves no trace.
-/

namespace TokenNet

open Act

/-- The request for an event once more. -/
def Event.request (e : Event) : Request := { value := e.toDatum }

theorem Event.ofRequest_request (e : Event) : Event.ofRequest e.request = .ok e := rfl

/-- An entry without its time. -/
def Entry.told (entry : Entry) : Nat × Event × Vec := (entry.seq, entry.event, entry.marking)

/-- The call leaves nets as they are, and registered as they are. -/
def Op.Settled {ω : Type} : Op ω → Prop
  | draft .. | load .. | edit .. | install .. | update .. => False
  | _ => True

namespace Stream

variable {ω : Type} {catalog : Catalog} {s s' : Stream ω} {r : Request} {e : Event} {d : Decision}

/-- Nets and current markings are all that a decision depends on. -/
theorem decided_congr (hn : s'.nets = s.nets) (hm : s'.markings = s.markings) (catalog : Catalog)
    (r : Request) : s'.decided catalog r = s.decided catalog r := by
  simp only [decided, decide, lookup, held, hn, hm]

theorem decided_request (h : s.decided catalog r = .ok (e, d)) :
    s.decided catalog e.request = .ok (e, d) := by
  obtain ⟨-, hd, -⟩ := decided_eq_ok h
  simp only [decided, Event.ofRequest_request, hd, bind, Except.bind, pure, Except.pure]

/-- Nothing has been dispatched, and nobody is told of what will be. -/
structure New (s : Stream ω) : Prop where
  markings : s.markings = []
  seq : s.seq = 0
  history : s.history = []
  unobserved : s.Unobserved

end Stream

namespace World

variable {ω : Type} {w w' fresh : World ω} {call : ω → Outcome → Act (World ω) Outcome}
  {callReload : ω → Datum → Act (World ω) Unit}

/-- Worlds that programs lead to from a given one if neither they nor the observers that they come
to make calls of another kind. -/
inductive Ran (b : Behaviour ω) (P : Op ω → Prop) (start : World ω) : World ω → Prop
  | nothing : Ran b P start start
  | more {w : World ω} {script : Script ω Unit} (depth : Nat) : script.All P → Ran b P start w →
    Ran b P start (after (script.run (b.site depth)) w)

theorem Ran.keeps {b : Behaviour ω} {P : Op ω → Prop} {I : World ω → Prop} {start : World ω}
    (h : Ran b P start w) (hI : ∀ op, P op → ∀ w w', op.effect w = .ok w' → I w → I w')
    (hb : b.All P) (hstart : I start) : I w := by
  induction h with
  | nothing => exact hstart
  | more depth hs _ ih => exact Behaviour.keeps_calls hI hb depth hs _ ih

/-! ## Opening a stream once more -/

/-- What a stream is opened as depends neither on the clock nor on the stream that was there. -/
theorem withOpened_again {timebase : Timebase} {config : Config} {nets : List Operand}
    {before start : World ω} (h : before.withOpened timebase config nets = .ok start)
    (hw : start.SameNets w) (timebase' : Timebase) :
    w.withOpened timebase' config nets = .ok { start with timebase := timebase' } := by
  obtain ⟨s, hs, rfl⟩ := withOpened_eq_ok h
  have hsame : before.SameNets w := ⟨hw.drafts, hw.installations⟩
  rw [withOpened, hsame.registerAll, hs, hw.drafts, hw.installations]
  rfl

theorem new_of_withOpened {timebase : Timebase} {config : Config} {nets : List Operand}
    (h : w.withOpened timebase config nets = .ok w') : w'.stream.New := by
  obtain ⟨s, hs, rfl⟩ := withOpened_eq_ok h
  rw [registerAll_eq hs]
  exact ⟨rfl, rfl, rfl, rfl, rfl, rfl, rfl⟩

/-! ## Calls that leave nets alone -/

/-- Of the stream such a call changes the observers, forgets what was dispatched, or enters a
firing. -/
theorem effect_of_settled {op : Op ω} (hop : op.Settled) (h : op.effect w = .ok w') :
    w.SameNets w' ∧ (w.stream.SameRecord w'.stream ∨ w'.stream = w.stream.restart ∨
      ∃ r f, w.stream.firing? w.catalog r = some f ∧ w' = w.fired f) := by
  have same : w.stream.SameRecord w.stream := ⟨rfl, rfl, rfl, rfl⟩
  cases op with
  | draft | load | edit | install | update => exact hop.elim
  | dispatch r =>
    cases h
    cases hf : w.stream.firing? w.catalog r with
    | none => exact ⟨⟨rfl, rfl⟩, Or.inl same⟩
    | some f => exact ⟨⟨rfl, rfl⟩, Or.inr (Or.inr ⟨r, f, hf, rfl⟩)⟩
  | restart =>
    cases h
    exact ⟨⟨rfl, rfl⟩, Or.inr (Or.inl rfl)⟩
  | on action observer =>
    obtain ⟨s, hs, h⟩ := Failure.ok_of_bind h
    cases h
    exact ⟨⟨rfl, rfl⟩, Or.inl (sameRecord_observe hs)⟩
  | off action =>
    obtain ⟨s, hs, h⟩ := Failure.ok_of_bind h
    cases h
    exact ⟨⟨rfl, rfl⟩, Or.inl (sameRecord_ignore hs)⟩
  | onEvery | onFail | onReload =>
    cases h
    exact ⟨⟨rfl, rfl⟩, Or.inl ⟨rfl, rfl, rfl, rfl⟩⟩
  | advance =>
    simp only [Op.effect, advanced] at h
    split at h
    · cases h
      exact ⟨⟨rfl, rfl⟩, Or.inl same⟩
    · cases h
  | reload | reset =>
    cases h
    exact ⟨⟨rfl, rfl⟩, Or.inl same⟩

/-! ## Sending the events once more -/

theorem answers_append (site : Site (World ω) ω) (rs rs' : List Request) (w : World ω) :
    answers site (rs ++ rs') w =
      ((answers site rs w).1 ++ (answers site rs' (answers site rs w).2).1,
        (answers site rs' (answers site rs w).2).2) := by
  induction rs generalizing w with
  | nil => rfl
  | cons r rest ih => simp only [List.cons_append, answers, ih]

/-- The two streams hold and tell the same, apart from the time, and the second is not observed. -/
structure Rerun (w w' : World ω) : Prop where
  catalog : w'.catalog = w.catalog
  nets : w'.stream.nets = w.stream.nets
  markings : w'.stream.markings = w.stream.markings
  seq : w'.stream.seq = w.stream.seq
  history : w'.stream.history.map Entry.told = w.stream.history.map Entry.told
  unobserved : w'.stream.Unobserved

/-- What one stream accepts the other accepts when it is sent the event. -/
theorem Rerun.fired {r : Request} {f : Firing} (h : w.Rerun w')
    (hf : w.stream.firing? w.catalog r = some f) :
    ∃ w'', apply ((site call callReload).dispatch f.event.request) w' =
      (.ok (outcome f.event f.toDecision), w'') ∧ (w.fired f).Rerun w'' := by
  obtain ⟨hd, hok, -⟩ := Stream.firing?_eq_some hf
  have hd' : w'.stream.decided w'.catalog f.event.request = .ok (f.event, f.toDecision) := by
    rw [h.catalog, Stream.decided_congr h.nets h.markings]
    exact Stream.decided_request hd
  refine ⟨{ w' with stream := w'.stream.commit f.event f.toDecision w'.timebase.now }, ?_, ?_⟩
  · simp only [apply_dispatch_unobserved h.unobserved, hd', hok, if_true]
  · refine ⟨h.catalog, h.nets, ?_, congrArg (· + 1) h.seq, ?_, h.unobserved.onAction,
      h.unobserved.onEvery, h.unobserved.onFail, h.unobserved.onReload⟩
    · simp only [World.fired, Stream.commit, Stream.hold, h.markings]
    · simp only [World.fired, Stream.commit, List.map_append, h.history, h.seq]
      rfl

/-- Sent to the fresh world, the events of history are all accepted and leave what history left. -/
structure Replays (site : Site (World ω) ω) (fresh w : World ω) : Prop where
  same : fresh.SameNets w
  nets : w.stream.nets = fresh.stream.nets
  accepted : ∃ (outcomes : List Outcome) (w' : World ω),
    answers site (w.stream.history.map fun entry => entry.event.request) fresh =
      (outcomes.map .ok, w') ∧
    outcomes.map (fun o => (o.ok, o.marking)) =
      w.stream.history.map (fun entry => (true, some entry.marking)) ∧
    w.Rerun w'

theorem Replays.of_new {site : Site (World ω) ω} (hnew : fresh.stream.New)
    (hw : fresh.SameNets w) (hn : w.stream.nets = fresh.stream.nets) (hm : w.stream.markings = [])
    (hs : w.stream.seq = 0) (hh : w.stream.history = []) : Replays site fresh w := by
  refine ⟨hw, hn, [], fresh, ?_, ?_, hw.symm.catalog, hn.symm, ?_, ?_, ?_, hnew.unobserved⟩
  · rw [hh]
    rfl
  · rw [hh]
    rfl
  · rw [hm, hnew.markings]
  · rw [hs, hnew.seq]
  · rw [hh, hnew.history]

theorem Replays.of_sameRecord {site : Site (World ω) ω} (h : Replays site fresh w)
    (hw : w.SameNets w') (hs : w.stream.SameRecord w'.stream) : Replays site fresh w' := by
  obtain ⟨outcomes, replayed, ha, ho, hr⟩ := h.accepted
  refine ⟨h.same.trans hw, hs.nets.trans h.nets, outcomes, replayed, ?_, ?_, ?_⟩
  · rw [hs.history, ha]
  · rw [hs.history, ho]
  · refine ⟨hr.catalog.trans hw.symm.catalog, hr.nets.trans hs.nets.symm,
      hr.markings.trans hs.markings.symm, hr.seq.trans hs.seq.symm, ?_, hr.unobserved⟩
    rw [hs.history, hr.history]

/-- One more firing is one more event to be sent. -/
theorem Replays.fired {r : Request} {f : Firing} (h : Replays (site call callReload) fresh w)
    (hf : w.stream.firing? w.catalog r = some f) :
    Replays (site call callReload) fresh (w.fired f) := by
  obtain ⟨outcomes, replayed, ha, ho, hr⟩ := h.accepted
  obtain ⟨again, hagain, hrerun⟩ := @Rerun.fired ω w replayed call callReload r f hr hf
  refine ⟨⟨h.same.drafts, h.same.installations⟩, h.nets,
    outcomes ++ [outcome f.event f.toDecision], again, ?_, ?_, hrerun⟩
  · simp only [World.fired, Stream.commit, List.map_append, List.map_cons, List.map_nil,
      answers_append, ha, answers, hagain]
  · simp only [World.fired, Stream.commit, List.map_append, ho]
    rfl

theorem Replays.effect {op : Op ω} (hnew : fresh.stream.New) (hop : op.Settled)
    (h : op.effect w = .ok w') (hw : Replays (site call callReload) fresh w) :
    Replays (site call callReload) fresh w' := by
  obtain ⟨hsame, hs | hs | ⟨r, f, hf, rfl⟩⟩ := effect_of_settled hop h
  · exact hw.of_sameRecord hsame hs
  · refine .of_new hnew (hw.same.trans hsame) ?_ ?_ ?_ ?_ <;> rw [hs]
    · exact hw.nets
    all_goals rfl
  · exact hw.fired hf

/-- Programs and observers of any kind, as long as they leave nets alone, run on a stream that was
opened over any nets.  Then a stream that is opened over the same nets under the same configuration
and is sent the events of the history one by one accepts all of them, with the markings that the
history tells, and its history tells the same in number, event and marking; the current markings of
all schemas agree. -/
theorem Ran.replays {before start : World ω} {b : Behaviour ω} {timebase : Timebase}
    {config : Config} {nets : List Operand}
    (hopen : before.withOpened timebase config nets = .ok start)
    (hb : b.All Op.Settled) (h : Ran b Op.Settled start w) (timebase' : Timebase) :
    ∃ (fresh : World ω) (outcomes : List Outcome) (replayed : World ω),
      w.withOpened timebase' config nets = .ok fresh ∧
      answers (site call callReload) (w.stream.history.map fun entry => entry.event.request) fresh =
        (outcomes.map .ok, replayed) ∧
      outcomes.map (fun o => (o.ok, o.marking)) =
        w.stream.history.map (fun entry => (true, some entry.marking)) ∧
      replayed.stream.history.map Entry.told = w.stream.history.map Entry.told ∧
      ∀ schema, replayed.stream.marking replayed.catalog schema =
        w.stream.marking w.catalog schema := by
  let fresh : World ω := { start with timebase := timebase' }
  have hnew : start.stream.New := new_of_withOpened hopen
  have hw : Replays (site call callReload) fresh w :=
    h.keeps (fun op hop w w' he hw => hw.effect hnew hop he) hb
      (.of_new hnew ⟨rfl, rfl⟩ rfl hnew.markings hnew.seq hnew.history)
  obtain ⟨outcomes, replayed, ha, ho, hr⟩ := hw.accepted
  refine ⟨fresh, outcomes, replayed, ?_, ha, ho, hr.history, fun schema => ?_⟩
  · exact withOpened_again hopen ⟨hw.same.drafts, hw.same.installations⟩ timebase'
  · simp only [Stream.marking, Stream.lookup, Stream.held, hr.nets, hr.markings, hr.catalog]

end World

/-! ## A run with all of that in it -/

namespace Silo

/-- There is room for three. -/
def steps : List Draft.Step :=
  [.place (.text "silo") (.int 0) (.int 3) .null, .transition (.text "fill") .null .null,
    .arc (.transition "fill") (.place "silo") (.int 1) (.bool false), .build]

def request (action : String) (k : Int) : Request :=
  { value := .text "silo", action := .text action, multiplier := .int k }

/-- An observer that fills in one more whenever it is told of anything, and then fails. -/
def greedy : Behaviour Unit where
  onOutcome _ _ := .call (.dispatch (request "fill" 1)) fun _ _ => .done (.error (.raised "more"))
  onReload _ _ := .done (.ok ())

def prepared : World Unit :=
  Act.after (Script.run (greedy.site 0)
    (.calls (.draft (.text "silo") (.text "petriNet") .default :: steps.map (.edit 0)))) {}

def start : World Unit :=
  match prepared.withOpened (.ofStep (.int 1)) .default [.net 0] with
  | .ok w => w
  | .error _ => {}

/-- Filling in two is followed by the observer's one, and then the silo is full. -/
def ops : List (Op Unit) :=
  [.dispatch (request "fill" 3), .restart, .onEvery (some ()), .dispatch (request "empty" 1),
    .dispatch (request "fill" 2), .advance, .dispatch (request "fill" 1)]

def worked : World Unit := Act.after ((Script.calls ops).run (greedy.site 1)) start

theorem withOpened_prepared :
    prepared.withOpened (.ofStep (.int 1)) .default [.net 0] = .ok start := rfl

theorem ran_worked : World.Ran greedy Op.Settled start worked :=
  .more 1 (Script.all_calls (by simp [ops, Op.Settled])) .nothing

end Silo

namespace World

open Silo

set_option maxRecDepth 2048 in
/-- What was there before the restart is gone, and so is what was refused or failed after it. -/
theorem silo_replays :
    worked.stream.history.map (fun entry => (entry.event.multiplier, entry.marking)) =
        [(.int 2, [2]), (.int 1, [3])] ∧
      ∃ (fresh : World Unit) (outcomes : List Outcome) (replayed : World Unit),
        worked.withOpened .wall .default [.net 0] = .ok fresh ∧
        answers (greedy.site 0) (worked.stream.history.map fun entry => entry.event.request) fresh =
          (outcomes.map .ok, replayed) ∧
        outcomes.map (fun o => (o.ok, o.marking)) = [(true, some [2]), (true, some [3])] ∧
        replayed.stream.marking replayed.catalog (.text "silo") = .ok [3] := by
  have hhistory : worked.stream.history.map
      (fun entry => (entry.event.multiplier, entry.marking)) = [(.int 2, [2]), (.int 1, [3])] := by
    cbv
  have hmarking : worked.stream.marking worked.catalog (.text "silo") = .ok [3] := by cbv
  have hbehaves : greedy.All Op.Settled :=
    ⟨fun _ _ => ⟨trivial, fun _ _ => trivial⟩, fun _ _ => trivial⟩
  obtain ⟨fresh, outcomes, replayed, hopen, hanswers, houtcomes, -, hagree⟩ :=
    Ran.replays withOpened_prepared hbehaves ran_worked .wall
  refine ⟨hhistory, fresh, outcomes, replayed, hopen, hanswers, ?_, (hagree _).trans hmarking⟩
  have hmarkings := congrArg (List.map fun told : Datum × Vec => (true, some told.2)) hhistory
  simp only [List.map_map, Function.comp_def, List.map_cons, List.map_nil] at hmarkings
  rw [houtcomes, hmarkings]

end World

end TokenNet
