import TokenNet.Proofs.Atomicity
/-!
Whole runs.  A call has an effect of its own, `Op.effect`, and the rest of what it does is up to the
programs of the observers that it comes to.  `Behaviour.keeps_calls` is the induction over programs
and over the depth of observers: what the effect of every call keeps, every run keeps.  All of these
effects are moves of the world, `Move`, so what every move keeps is kept by every program,
`Behaviour.keeps_run`; for a property that some calls would break there are the programs that do not
make them, `Script.All`.
-/

namespace TokenNet

/-- Streams that differ in their observers at most. -/
structure Stream.SameRecord {ω : Type} (s s' : Stream ω) : Prop where
  nets : s'.nets = s.nets
  markings : s'.markings = s.markings
  seq : s'.seq = s.seq
  history : s'.history = s.history

/-- The same nets stand in the same places, and so do installations. -/
structure World.SameNets {ω : Type} (w w' : World ω) : Prop where
  drafts : w'.drafts = w.drafts
  installations : w'.installations = w.installations

namespace World

variable {ω : Type} {w w' : World ω}

inductive Move : World ω → World ω → Prop
  | opened {w : World ω} {schema discipline : Datum} {config : Config} {d : Draft} :
    Draft.open? w.drafts.length schema discipline config = .ok d →
    Move w { w with drafts := w.drafts ++ [d] }
  | loaded {w : World ω} {form : Declaration.Form} {self : Nat}
      {overrides : Declaration.Overrides} {decl : Declaration} {net : Net} :
    (decl.load form self overrides).1 = .ok net →
    Move w { w with drafts := w.drafts ++ [{ self, net, config := overrides.config }] }
  | edited {w : World ω} {id : Nat} {d : Draft} (step : Draft.Step) : w.drafts[id]? = some d →
    Move w { w with drafts := w.drafts.set id (Act.after step.run d) }
  | installed {w : World ω} {id : Nat} {config : Config} {inst : Installation} :
    Installation.open? w.catalog id config = .ok inst →
    Move w { w with installations := w.installations ++ [inst] }
  | fired {w : World ω} {r : Request} {f : Firing} : w.stream.firing? w.catalog r = some f →
    Move w (w.fired f)
  | updated {w : World ω} {net : Operand} {inst : Installation} {key : Key} :
    w.installation w.stream.config net = .ok inst → Stream.netKey w.catalog inst = .ok key →
    Move w { w with
      stream := { w.stream with
        nets := w.stream.nets.enter key (Stream.schemaOf w.catalog inst) inst
        markings := w.stream.markings.erase key }
      journal := .updated key :: w.journal }
  | restarted {w : World ω} : Move w w.restarted
  | rewired {w : World ω} {s : Stream ω} : w.stream.SameRecord s → Move w { w with stream := s }
  | timed {w : World ω} (timebase : Timebase) : Move w { w with timebase }

/-- Every move from a world that satisfies `I` leads to another. -/
def Stable (I : World ω → Prop) : Prop := ∀ w w' : World ω, Move w w' → I w → I w'

end World

/-- What a call does to the world by itself, without its observers. -/
def Op.effect {ω : Type} : Op ω → World ω → Except Failure (World ω)
  | draft schema discipline config, w => w.opened schema discipline config
  | load form overrides decl, w => w.loaded form overrides decl
  | edit id step, w => .ok (w.edited id step).2
  | install id config, w => w.installed id config
  | dispatch r, w => .ok ((w.stream.firing? w.catalog r).elim w w.fired)
  | update net, w => w.updated net
  | restart, w => .ok w.restarted
  | reload _, w => .ok w
  | on action observer, w => w.rewired fun s => s.observe action observer
  | off action, w => w.rewired fun s => s.ignore action
  | onEvery observer, w => w.rewired fun s => .ok { s with onEvery := observer }
  | onFail observer, w => w.rewired fun s => .ok { s with onFail := observer }
  | onReload observer, w => w.rewired fun s => .ok { s with onReload := observer }
  | advance, w => w.advanced
  | reset, w => .ok { w with timebase := w.timebase.reset }

namespace World

variable {ω : Type} {w w' : World ω}

/-! ## Opening a stream -/

theorem register_eq_ok {s s' : Stream ω} {catalog : Catalog} {inst : Installation}
    (h : s.register catalog inst = .ok s') : ∃ key,
      s' = { s with nets := s.nets.enter key (Stream.schemaOf catalog inst) inst } := by
  obtain ⟨key, -, h⟩ := Failure.ok_of_bind h
  cases h
  exact ⟨key, rfl⟩

/-- Registering changes nothing but what is registered. -/
theorem registerAll_eq {s s' : Stream ω} {nets : List Operand} (h : w.registerAll s nets = .ok s') :
    s' = { s with nets := s'.nets } := by
  induction nets generalizing s with
  | nil =>
    cases h
    rfl
  | cons net rest ih =>
    obtain ⟨inst, -, h⟩ := Failure.ok_of_bind h
    obtain ⟨mid, hr, h⟩ := Failure.ok_of_bind h
    obtain ⟨key, rfl⟩ := register_eq_ok hr
    have hrest := ih h
    exact hrest

theorem registerAll_holds {P : Stream ω → Prop} {s s' : Stream ω} {nets : List Operand}
    (hP : ∀ (s s' : Stream ω) (net : Operand) (inst : Installation),
      w.installation s.config net = .ok inst → s.register w.catalog inst = .ok s' → P s → P s')
    (hs : P s) (h : w.registerAll s nets = .ok s') : P s' := by
  induction nets generalizing s with
  | nil =>
    cases h
    exact hs
  | cons net rest ih =>
    obtain ⟨inst, hi, h⟩ := Failure.ok_of_bind h
    obtain ⟨mid, hr, h⟩ := Failure.ok_of_bind h
    exact ih (hP _ _ _ _ hi hr hs) h

theorem withOpened_eq_ok {timebase : Timebase} {config : Config} {nets : List Operand}
    (h : w.withOpened timebase config nets = .ok w') : ∃ s,
      w.registerAll { config } nets = .ok s ∧
        w' = { w with stream := s, timebase, journal := [] } := by
  obtain ⟨s, hs, h⟩ := Failure.ok_of_bind h
  cases h
  exact ⟨s, hs, rfl⟩

namespace SameNets

theorem refl (w : World ω) : w.SameNets w := ⟨rfl, rfl⟩

theorem symm (h : w.SameNets w') : w'.SameNets w := ⟨h.drafts.symm, h.installations.symm⟩

theorem trans {v : World ω} (h : w.SameNets w') (h' : w'.SameNets v) : w.SameNets v :=
  ⟨h'.drafts.trans h.drafts, h'.installations.trans h.installations⟩

theorem catalog (h : w.SameNets w') : w'.catalog = w.catalog := by
  simp only [World.catalog, h.drafts]

theorem installation (h : w.SameNets w') : w'.installation = w.installation := by
  funext config net
  cases net <;> simp only [World.installation, h.catalog, h.installations]

theorem registerAll (h : w.SameNets w') (s : Stream ω) (nets : List Operand) :
    w'.registerAll s nets = w.registerAll s nets := by
  induction nets generalizing s with
  | nil => rfl
  | cons net rest ih => simp only [World.registerAll, h.installation, h.catalog, ih]

end SameNets

/-! ## Every effect moves the world -/

theorem move_of_opened {schema discipline : Datum} {config : Config}
    (h : w.opened schema discipline config = .ok w') : Move w w' := by
  obtain ⟨d, hd, h⟩ := Failure.ok_of_bind h
  cases h
  exact .opened hd

theorem move_of_loaded {form : Declaration.Form} {overrides : Declaration.Overrides}
    {decl : Declaration} (h : w.loaded form overrides decl = .ok w') : Move w w' := by
  obtain ⟨net, hnet, h⟩ := Failure.ok_of_bind h
  cases h
  exact .loaded hnet

theorem move_of_installed {id : Nat} {config : Config} (h : w.installed id config = .ok w') :
    Move w w' := by
  obtain ⟨inst, hi, h⟩ := Failure.ok_of_bind h
  cases h
  exact .installed hi

theorem move_of_updated {net : Operand} (h : w.updated net = .ok w') : Move w w' := by
  obtain ⟨inst, hi, h⟩ := Failure.ok_of_bind h
  obtain ⟨key, hk, h⟩ := Failure.ok_of_bind h
  obtain ⟨s, hs, h⟩ := Failure.ok_of_bind h
  obtain ⟨key', hk', hs⟩ := Failure.ok_of_bind hs
  obtain rfl : key = key' := Except.ok.inj (hk.symm.trans hk')
  cases hs
  cases h
  exact .updated hi hk

theorem move_of_rewired {g : Stream ω → Except Failure (Stream ω)}
    (hg : ∀ s s', g s = .ok s' → s.SameRecord s') (h : w.rewired g = .ok w') : Move w w' := by
  obtain ⟨s, hs, h⟩ := Failure.ok_of_bind h
  cases h
  exact .rewired (hg _ _ hs)

theorem move_of_advanced (h : w.advanced = .ok w') : Move w w' := by
  unfold advanced at h
  split at h
  · cases h
    exact .timed _
  · cases h

theorem sameRecord_observe {s s' : Stream ω} {action : Datum} {observer : Option ω}
    (h : s.observe action observer = .ok s') : s.SameRecord s' := by
  obtain ⟨key, -, h⟩ := Failure.ok_of_bind h
  cases h
  exact ⟨rfl, rfl, rfl, rfl⟩

theorem sameRecord_ignore {s s' : Stream ω} {action : Datum} (h : s.ignore action = .ok s') :
    s.SameRecord s' := by
  unfold Stream.ignore at h
  split at h
  · cases h
    exact ⟨rfl, rfl, rfl, rfl⟩
  · obtain ⟨key, -, h⟩ := Failure.ok_of_bind h
    cases h
    exact ⟨rfl, rfl, rfl, rfl⟩

/-- What a call does by itself is a move, unless it leaves the world as it is. -/
theorem move_of_effect {op : Op ω} (h : op.effect w = .ok w') : w' = w ∨ Move w w' := by
  cases op with
  | draft schema discipline config => exact .inr (move_of_opened h)
  | load form overrides decl => exact .inr (move_of_loaded h)
  | edit id step =>
    cases h
    unfold edited
    split
    · exact .inl rfl
    next d hd => exact .inr (.edited step hd)
  | install id config => exact .inr (move_of_installed h)
  | dispatch r =>
    cases h
    cases hf : w.stream.firing? w.catalog r with
    | none => exact .inl rfl
    | some f => exact .inr (.fired hf)
  | update net => exact .inr (move_of_updated h)
  | restart =>
    cases h
    exact .inr .restarted
  | reload schema =>
    cases h
    exact .inl rfl
  | on action observer => exact .inr (move_of_rewired (fun _ _ => sameRecord_observe) h)
  | off action => exact .inr (move_of_rewired (fun _ _ => sameRecord_ignore) h)
  | onEvery observer | onFail observer | onReload observer =>
    cases h
    exact .inr (.rewired ⟨rfl, rfl, rfl, rfl⟩)
  | advance => exact .inr (move_of_advanced h)
  | reset =>
    cases h
    exact .inr (.timed _)

/-! ## What calls keep -/

section

open Act

variable {I : World ω → Prop} {f : World ω → Except Failure (World ω)}
  {call : ω → Outcome → Act (World ω) Outcome} {callReload : ω → Datum → Act (World ω) Unit}

theorem apply_alter (f : World ω → Except Failure (World ω)) (w : World ω) :
    apply (alter f) w = match f w with
      | .ok w' => (.ok none, w')
      | .error failure => (.error failure, w) := by
  simp only [alter, apply_bind, apply_get, apply_liftExcept]
  cases f w <;> rfl

theorem keeps_alter (hf : ∀ w w', f w = .ok w' → I w → I w') : Keeps I (alter f) := by
  intro w hw
  rw [after, apply_alter]
  cases h : f w with
  | error failure => exact hw
  | ok w' => exact hf w w' h hw

theorem after_edit (site : Site (World ω) ω) (id : Nat) (step : Draft.Step) (w : World ω) :
    after ((Op.edit id step).perform site) w = (w.edited id step).2 := by
  simp only [Op.perform, after, apply_bind, apply_get, apply_set, apply_liftExcept]
  cases (w.edited id step).1 <;> rfl

theorem after_dispatch (site : Site (World ω) ω) (r : Request) (w : World ω) :
    after ((Op.dispatch r).perform site) w = after (site.dispatch r) (w.foreseen r) :=
  after_bind_pure _ _ _

/-- A dispatch enters its firing, if it comes to one, and leaves the rest to the observers. -/
theorem keeps_dispatch {r : Request}
    (hI : ∀ w f, w.stream.firing? w.catalog r = some f → I w → I (w.fired f))
    (hcall : ∀ observer o, Keeps I (call observer o))
    (hreload : ∀ observer schema, Keeps I (callReload observer schema)) :
    Keeps I ((Op.dispatch r).perform (site call callReload)) := by
  intro w hw
  rw [after_dispatch, foreseen]
  split
  next f hf =>
    obtain ⟨hd, hok, -⟩ := Stream.firing?_eq_some hf
    rw [after, apply_dispatch_of_accepted (w := { w with journal := .fired f :: w.journal }) hd hok]
    exact keeps_announce hcall hreload _ _ _ (hI w f hf hw)
  next hf =>
    cases hd : w.stream.decided w.catalog r with
    | error failure => rwa [after, apply_dispatch_of_error hd]
    | ok decided =>
      obtain ⟨e, d⟩ := decided
      cases hok : d.shot.ok with
      | false =>
        rw [after, apply_dispatch_of_refused hd hok]
        exact keeps_tell hcall _ _ w hw
      | true =>
        obtain ⟨f, hsome, -⟩ := Stream.firing?_of_decided hd hok
        rw [hf] at hsome
        cases hsome

theorem keeps_perform {op : Op ω} (hI : ∀ w w', op.effect w = .ok w' → I w → I w')
    (hcall : ∀ observer o, Keeps I (call observer o))
    (hreload : ∀ observer schema, Keeps I (callReload observer schema)) :
    Keeps I (op.perform (site call callReload)) := by
  cases op with
  | edit id step =>
    intro w hw
    rw [after_edit]
    exact hI w _ rfl hw
  | dispatch r =>
    refine keeps_dispatch (fun w f hf hw => hI w _ ?_ hw) hcall hreload
    simp only [Op.effect, hf, Option.elim_some]
  | reload schema => exact keeps_bind (keeps_reload hreload schema) fun _ => keeps_pure _
  | draft | load | install | update | restart | on | off | onEvery | onFail | onReload | advance
  | reset => exact keeps_alter hI

end

end World

/-! ## Programs -/

section

open Act

variable {ω α : Type} {I : World ω → Prop}

/-- Whatever it is answered, the program makes calls of this kind only. -/
def Script.All (P : Op ω → Prop) : Script ω α → Prop
  | .done _ => True
  | .call op rest => P op ∧ ∀ answer w, (rest answer w).All P

/-- The observers make calls of this kind only. -/
structure Behaviour.All (P : Op ω → Prop) (b : Behaviour ω) : Prop where
  onOutcome : ∀ observer o, (b.onOutcome observer o).All P
  onReload : ∀ observer schema, (b.onReload observer schema).All P

theorem Script.all_of_forall {P : Op ω → Prop} (h : ∀ op, P op) (script : Script ω α) :
    script.All P := by
  induction script with
  | done result => trivial
  | call op rest ih => exact ⟨h op, ih⟩

theorem Script.all_calls {P : Op ω → Prop} {ops : List (Op ω)} (h : ∀ op ∈ ops, P op) :
    (Script.calls ops).All P := by
  induction ops with
  | nil => trivial
  | cons op rest ih =>
    exact ⟨h op List.mem_cons_self, fun _ _ => ih fun op hop => h op (List.mem_cons_of_mem _ hop)⟩

theorem Script.keeps_run {P : Op ω → Prop} {site : Site (World ω) ω}
    (h : ∀ op, P op → Keeps I (op.perform site)) {script : Script ω α} (hs : script.All P) :
    Keeps I (script.run site) := by
  induction script with
  | done result => exact keeps_liftExcept result
  | call op rest ih =>
    exact keeps_bind (keeps_attempt (h op hs.1)) fun answer =>
      keeps_bind keeps_get fun w => ih answer w (hs.2 answer w)

/-- The induction on the depth: observers are programs that run one level further down. -/
theorem Behaviour.keeps_perform {P : Op ω → Prop} {b : Behaviour ω}
    (hI : ∀ op, P op → ∀ w w', op.effect w = .ok w' → I w → I w') (hb : b.All P) (depth : Nat) :
    ∀ op, P op → Keeps I (op.perform (b.site depth)) := by
  induction depth with
  | zero =>
    exact fun op hop => World.keeps_perform (hI op hop) (fun _ _ => keeps_throw _)
      fun _ _ => keeps_throw _
  | succ depth ih =>
    exact fun op hop => World.keeps_perform (hI op hop)
      (fun _ _ => Script.keeps_run ih (hb.onOutcome _ _))
      fun _ _ => Script.keeps_run ih (hb.onReload _ _)

theorem Behaviour.keeps_calls {P : Op ω → Prop} {b : Behaviour ω}
    (hI : ∀ op, P op → ∀ w w', op.effect w = .ok w' → I w → I w') (hb : b.All P) (depth : Nat)
    {script : Script ω α} (hs : script.All P) : Keeps I (script.run (b.site depth)) :=
  Script.keeps_run (Behaviour.keeps_perform hI hb depth) hs

theorem Behaviour.keeps_run (hI : World.Stable I) (b : Behaviour ω) (depth : Nat)
    (script : Script ω α) : Keeps I (script.run (b.site depth)) := by
  have hall : ∀ {β : Type} (script : Script ω β), script.All fun _ => True :=
    fun script => script.all_of_forall fun _ => trivial
  refine b.keeps_calls (fun op _ w w' h hw => ?_) ⟨fun _ _ => hall _, fun _ _ => hall _⟩ depth
    (hall script)
  rcases World.move_of_effect h with rfl | hmove
  · exact hw
  · exact hI w w' hmove hw

/-- Worlds that programs lead to: one prepares whatever it likes, a stream is opened over nets of
its choice, and others follow. -/
inductive World.Reached (b : Behaviour ω) : World ω → Prop
  | opened {prepare : Script ω Unit} {depth : Nat} {timebase : Timebase} {config : Config}
      {nets : List Operand} {w : World ω} :
    (after (prepare.run (b.site depth)) {}).withOpened timebase config nets = .ok w → Reached b w
  | ran {w : World ω} (script : Script ω Unit) (depth : Nat) : Reached b w →
    Reached b (after (script.run (b.site depth)) w)

/-- What holds of the empty world and is kept by every move and by opening a stream holds of every
world reached. -/
theorem World.Reached.holds {b : Behaviour ω} {w : World ω} (hI : World.Stable I) (start : I {})
    (hopen : ∀ (w w' : World ω) (timebase : Timebase) (config : Config) (nets : List Operand), I w →
      w.withOpened timebase config nets = .ok w' → I w') (h : World.Reached b w) : I w := by
  induction h with
  | opened h => exact hopen _ _ _ _ _ (b.keeps_run hI _ _ _ start) h
  | ran script depth _ ih => exact b.keeps_run hI depth script _ ih

end

namespace Relay

theorem reached_opened : World.Reached failing opened :=
  @World.Reached.opened String failing prepare 0 (.ofStep (.int 1)) .default [.net 0] opened rfl

theorem reached_world : World.Reached failing world := .ran _ _ reached_opened

/-- The token is passed on, and passing it once more is refused. -/
def passed : World String :=
  Act.after ((Script.calls [.dispatch request, .dispatch request]).run (failing.site 1)) world

theorem reached_passed : World.Reached failing passed := .ran _ _ reached_world

end Relay

end TokenNet
