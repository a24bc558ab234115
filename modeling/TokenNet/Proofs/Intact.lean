import TokenNet.Proofs.Digits
import TokenNet.Proofs.Disciplines
import TokenNet.Proofs.Phrases
import TokenNet.Proofs.Plain
import TokenNet.Proofs.Stale
import TokenNet.Proofs.Unedited
/-!
Streams over nets that are left alone once they are compiled, `World.Intact`.  Three vectors of
different origin meet in a firing: the marking that the stream holds, the vectors of the transition,
and the capacities that were read when the net was put to use.  On an intact stream they have one
length, `World.Fitting`, whatever is dispatched, forgotten or replaced.  So a dispatch fails for no
other cause than those that are in the request, `World.Intact.dispatch_fails_iff`.

What is met of a failure is not always its cause: a multiplier that is too long to be written cannot
be complained of, and the complaint gives way to the failure to write it.
-/

namespace TokenNet

open Act

/-- What is met of a failure where it is told. -/
def Failure.met (scene : Scene) (failure : Failure) : Failure := (failure.told scene).1

/-- Building is the one step that raises the flag of a net, and then the vectors of the net fit. -/
theorem Draft.Step.fits_of_indexed {s : Step} {d : Draft} (hd : d.net.indexed = false)
    (h : (after s.run d).net.indexed = true) : (after s.run d).net.VectorsFit := by
  by_cases hs : s = .build
  · subst hs
    have hleaves := Step.leaves .build d
    generalize (after Step.build.run d).net = net at h hleaves ⊢
    cases hleaves with
    | roles _ _ => exact absurd (hd.symm.trans h) Bool.false_ne_true
    | build =>
      rw [Net.indexed_index, List.isEmpty_iff] at h
      exact (Net.index_fits h).2
  · rw [(Step.extends hs d).2, hd] at h
    exact absurd h Bool.false_ne_true

namespace World

variable {ω : Type} {w w' : World ω} {inst : Installation}

/-- Worlds in which no net was edited once it was compiled. -/
inductive Intact : World ω → Prop
  | empty : Intact {}
  | declared {w : World ω} {id : Nat} {d : Draft} (step : Draft.Step) : Intact w →
    w.drafts[id]? = some d → d.net.indexed = false →
    Intact { w with drafts := w.drafts.set id (after step.run d) }
  | opened {w w' : World ω} {timebase : Timebase} {config : Config} {nets : List Operand} :
    Intact w → w.withOpened timebase config nets = .ok w' → Intact w'
  | ran {w : World ω} {b : Behaviour ω} {script : Script ω Unit} (depth : Nat) :
    b.All (fun op => ∀ n, op.Spares n) → script.All (fun op => ∀ n, op.Spares n) → Intact w →
    Intact (after (script.run (b.site depth)) w)

/-- The net that was put to use is compiled, and its capacities are those that were read. -/
def Seats (w : World ω) (inst : Installation) : Prop :=
  ∃ d, w.drafts[inst.net]? = some d ∧ d.net.indexed = true ∧ inst.capacity = d.net.capacityVector

/-- Compiled nets are as they were. -/
def SparesCompiled (w w' : World ω) : Prop :=
  ∀ (n : Nat) (d : Draft), w.drafts[n]? = some d → d.net.indexed = true → w'.drafts[n]? = some d

/-- Vectors that meet in a firing have one length. -/
structure Fitting (w : World ω) : Prop where
  drafts : ∀ d ∈ w.drafts, d.net.indexed = true → d.net.VectorsFit
  installations : ∀ inst ∈ w.installations, w.Seats inst
  registered : ∀ key inst, w.stream.nets.lookup? key = some inst →
    w.Seats inst ∧ Stream.netKey w.catalog inst = .ok key
  held : ∀ key inst v, w.stream.nets.lookup? key = some inst →
    w.stream.markings.lookup? key = some v → v.length = inst.capacity.length

/-! ## What moves keep -/

theorem Seats.mono (h : w.Seats inst) (hs : w.SparesCompiled w') : w'.Seats inst := by
  obtain ⟨d, hd, hi, hc⟩ := h
  exact ⟨d, hs _ d hd hi, hi, hc⟩

theorem Seats.engine_eq (h : w.Seats inst) (hs : w.SparesCompiled w') :
    inst.engine w'.catalog = inst.engine w.catalog := by
  obtain ⟨d, hd, hi, -⟩ := h
  rw [engine_of_draft hd, engine_of_draft (hs _ d hd hi)]

theorem Seats.netKey_eq (h : w.Seats inst) (hs : w.SparesCompiled w') :
    Stream.netKey w'.catalog inst = Stream.netKey w.catalog inst := by
  simp only [Stream.netKey, Stream.schemaOf, h.engine_eq hs]

theorem seats_of_open? {id : Nat} {config : Config}
    (h : Installation.open? w.catalog id config = .ok inst) : w.Seats inst := by
  obtain ⟨e, he, h⟩ := Failure.ok_of_bind h
  cases h
  cases hd : w.drafts[id]? with
  | none =>
    simp only [catalog, List.getElem?_map, hd] at he
    cases he
  | some d =>
    simp only [catalog, List.getElem?_map, hd, Option.map_some, Option.getD_some] at he
    have hindexed : d.net.indexed = true := by
      unfold Engine.ofNet? at he
      split at he
      · assumption
      · cases he
    obtain rfl := Engine.ofNet?_eq_ok he
    exact ⟨d, hd, hindexed, rfl⟩

theorem Fitting.seats_of_installation (hw : w.Fitting) {config : Config} {net : Operand}
    (h : w.installation config net = .ok inst) : w.Seats inst := by
  cases net with
  | net id => exact seats_of_open? h
  | installation id =>
    simp only [installation] at h
    split at h
    next found hfound =>
      cases h
      exact hw.installations _ (List.mem_of_getElem? hfound)
    next => cases h

/-- Drafts may come and go as long as compiled ones stay. -/
theorem Fitting.redrafted (hw : w.Fitting) (hs : w.SparesCompiled w')
    (hi : w'.installations = w.installations) (hstream : w'.stream = w.stream)
    (hd : ∀ d ∈ w'.drafts, d.net.indexed = true → d.net.VectorsFit) : w'.Fitting := by
  refine ⟨hd, fun inst hmem => ?_, fun key inst hn => ?_, fun key inst v hn hv => ?_⟩
  · exact (hw.installations inst (hi ▸ hmem)).mono hs
  · obtain ⟨hseats, hkey⟩ := hw.registered key inst (hstream ▸ hn)
    exact ⟨hseats.mono hs, (hseats.netKey_eq hs).trans hkey⟩
  · rw [hstream] at hn hv
    exact hw.held key inst v hn hv

/-- A firing that was accepted leaves a marking of the length it started from. -/
theorem Fitting.fired (hw : w.Fitting) {r : Request} {f : Firing}
    (h : w.stream.firing? w.catalog r = some f) : (w.fired f).Fitting := by
  obtain ⟨hd, hok, inst, hn, he, hf⟩ := Stream.firing?_eq_some h
  refine ⟨hw.drafts, hw.installations, hw.registered, fun key inst' v hn' hv => ?_⟩
  have hcommitted := Stream.lookup?_commit (s := w.stream) (e := f.event)
    (Stream.selfEqual_of_decided hd) w.timebase.now key
  rw [World.fired, hcommitted] at hv
  split at hv
  next hkey =>
    subst hkey
    obtain rfl : inst = inst' := Option.some.inj (hn.symm.trans hn')
    obtain ⟨t, k, -, -, -, hm, hc, -, hnext⟩ := Engine.fire_accepted hf hok
    obtain rfl := Option.some.inj hv
    rw [hnext, Discipline.length_settled, Engine.length_moved_of_lengths hm hc, he]
    rfl
  next => exact hw.held key inst' v hn' hv

theorem Fitting.move (hw : w.Fitting) (hmove : Move w w') (hs : w.SparesCompiled w') :
    w'.Fitting := by
  cases hmove with
  | opened hd =>
    refine hw.redrafted hs rfl rfl fun d' hd' => ?_
    rcases List.mem_append.1 hd' with hd' | hd'
    · exact hw.drafts d' hd'
    · obtain ⟨_, rfl⟩ := Draft.open?_eq_ok hd
      rw [List.mem_singleton.1 hd']
      exact fun hi => nomatch hi
  | loaded hl =>
    refine hw.redrafted hs rfl rfl fun d' hd' => ?_
    rcases List.mem_append.1 hd' with hd' | hd'
    · exact hw.drafts d' hd'
    · rw [List.mem_singleton.1 hd']
      exact fun _ => (Net.Made.loaded hl).sound.vectors
  | @edited id d step hd =>
    refine hw.redrafted hs rfl rfl fun d' hd' => ?_
    rcases List.mem_or_eq_of_mem_set hd' with hd' | rfl
    · exact hw.drafts d' hd'
    · cases hi : d.net.indexed with
      | false => exact Draft.Step.fits_of_indexed hi
      | true =>
        have hkept := hs id d hd hi
        rw [List.getElem?_set_self (List.getElem?_eq_some_iff.1 hd).1] at hkept
        rw [Option.some.inj hkept]
        exact hw.drafts d (List.mem_of_getElem? hd)
  | installed hi =>
    refine ⟨hw.drafts, fun inst hmem => ?_, hw.registered, hw.held⟩
    rcases List.mem_append.1 hmem with hmem | hmem
    · exact hw.installations inst hmem
    · rw [List.mem_singleton.1 hmem]
      exact seats_of_open? hi
  | fired hf => exact hw.fired hf
  | @updated net inst key hi hk =>
    have hself := selfEqual_of_netKey hk
    refine ⟨hw.drafts, hw.installations, fun key' inst' hn => ?_, fun key' inst' v hn hv => ?_⟩
    · rw [Register.lookup?_enter _ _ _ _ _ hself] at hn
      split at hn
      next heq =>
        cases hn
        exact ⟨hw.seats_of_installation hi, heq ▸ hk⟩
      next => exact hw.registered key' inst' hn
    · rw [Register.lookup?_enter _ _ _ _ _ hself] at hn
      rw [Register.lookup?_erase] at hv
      split at hn
      next heq => rw [if_pos heq] at hv; cases hv
      next hne =>
        rw [if_neg hne] at hv
        exact hw.held key' inst' v hn hv
  | restarted =>
    refine ⟨hw.drafts, hw.installations, hw.registered, fun key inst v _ hv => ?_⟩
    simp [World.restarted, Stream.restart, Register.lookup?] at hv
  | rewired h =>
    refine ⟨hw.drafts, hw.installations, fun key inst hn => ?_, fun key inst v hn hv => ?_⟩
    · exact hw.registered key inst (h.nets ▸ hn)
    · exact hw.held key inst v (h.nets ▸ hn) (h.markings ▸ hv)
  | timed => exact ⟨hw.drafts, hw.installations, hw.registered, hw.held⟩

theorem Fitting.opened (hw : w.Fitting) {timebase : Timebase} {config : Config}
    {nets : List Operand} (h : w.withOpened timebase config nets = .ok w') : w'.Fitting := by
  obtain ⟨s, hs, rfl⟩ := withOpened_eq_ok h
  have hmarkings : s.markings = [] := by rw [registerAll_eq hs]
  have hregistered : ∀ key inst, s.nets.lookup? key = some inst →
      w.Seats inst ∧ Stream.netKey w.catalog inst = .ok key := by
    refine registerAll_holds (P := fun s : Stream ω => ∀ key inst,
        s.nets.lookup? key = some inst → w.Seats inst ∧ Stream.netKey w.catalog inst = .ok key)
      (fun s s' net inst hi hr hP key inst' hn => ?_) (fun key inst hn => ?_) hs
    · obtain ⟨own, hk, hr⟩ := Failure.ok_of_bind hr
      cases hr
      rw [Register.lookup?_enter _ _ _ _ _ (selfEqual_of_netKey hk)] at hn
      split at hn
      next heq =>
        cases hn
        exact ⟨hw.seats_of_installation hi, heq ▸ hk⟩
      next => exact hP key inst' hn
    · simp [Register.lookup?] at hn
  refine ⟨hw.drafts, hw.installations, hregistered, fun key inst v _ hv => ?_⟩
  simp [hmarkings, Register.lookup?] at hv

theorem sparesCompiled_of_effect {op : Op ω} (hop : ∀ n, op.Spares n)
    (h : op.effect w = .ok w') : w.SparesCompiled w' :=
  fun n _ hd _ => draft_of_effect (hop n) h hd

theorem Intact.fitting (h : Intact w) : w.Fitting := by
  induction h with
  | empty =>
    refine ⟨by simp, by simp, fun key inst hn => ?_, fun key inst v hn => ?_⟩
    · simp [Register.lookup?] at hn
    · simp [Register.lookup?] at hn
  | @declared w id d step _ hd hindexed ih =>
    refine ih.move (.edited step hd) fun n d' hd' hi => ?_
    have hne : id ≠ n := by
      rintro rfl
      obtain rfl : d = d' := Option.some.inj (hd.symm.trans hd')
      exact Bool.false_ne_true (hindexed.symm.trans hi)
    exact (List.getElem?_set_ne hne).trans hd'
  | opened _ h ih => exact ih.opened h
  | @ran w b script depth hb hs _ ih =>
    refine b.keeps_calls (fun op hop w w' h hw => ?_) hb depth hs _ ih
    rcases move_of_effect h with rfl | hmove
    · exact hw
    · exact hw.move hmove (sparesCompiled_of_effect hop h)

end World

/-- Steps other than building may follow one another. -/
theorem World.Intact.follow {ω : Type} {w : World ω} {id : Nat} {d : Draft} (h : w.Intact)
    (hd : w.drafts[id]? = some d) (hindexed : d.net.indexed = false) {steps : List Draft.Step}
    (hs : Draft.Step.build ∉ steps) :
    World.Intact { w with drafts := w.drafts.set id (d.follow steps) } := by
  induction steps generalizing w d with
  | nil =>
    have hset : w.drafts.set id d = w.drafts := by
      obtain ⟨hlt, rfl⟩ := List.getElem?_eq_some_iff.1 hd
      exact List.set_getElem_self hlt
    rw [Draft.follow, List.foldl_nil, hset]
    exact h
  | cons s rest ih =>
    have hfirst := h.declared s hd hindexed
    have hlt := (List.getElem?_eq_some_iff.1 hd).1
    have hkept := (Draft.Step.extends (fun hb => hs (hb ▸ List.mem_cons_self)) d).2
    have hrest := ih hfirst (List.getElem?_set_self hlt) (hkept.trans hindexed)
      fun hb => hs (List.mem_cons_of_mem _ hb)
    rw [List.set_set] at hrest
    exact hrest

/-! ## What is wrong with a request -/

namespace Engine

variable {e : Engine} {marking : Vec} {action : String} {value : Datum} {failure : Failure}

/-- What a firing of the action by the multiplier fails for. -/
def flaw? (e : Engine) (action : String) (value : Datum) : Option Failure :=
  if action.isEmpty then some .emptyAction
  else if (e.net.transition? action).isNone then some (.unknownAction e.net.schema (.text action))
  else if value.positive?.isNone then some (.badMultiplier value)
  else none

theorem transition_text (e : Engine) (action : String) :
    e.transition (.text action) = if action.isEmpty then .error .emptyAction
      else match e.net.transition? action with
        | some t => .ok t
        | none => .error (.unknownAction e.net.schema (.text action)) := by
  cases h : action.isEmpty with
  | true => simp [transition, Datum.truthy, h]
  | false =>
    cases ht : e.net.transition? action <;>
      simp [transition, Datum.truthy, Datum.key?, Datum.text?, h, ht]

theorem fire_of_flaw? (h : e.flaw? action value = some failure) (marking : Vec) :
    e.fire marking (.text action) value = .error failure := by
  have htransition := e.transition_text action
  unfold flaw? at h
  cases hempty : action.isEmpty with
  | true =>
    simp only [hempty, if_true, Option.some.injEq] at h htransition
    rw [fire, test, htransition, ← h]
    rfl
  | false =>
    simp only [hempty, Bool.false_eq_true, if_false] at h htransition
    cases ht : e.net.transition? action with
    | none =>
      simp only [ht, Option.isNone_none, if_true, Option.some.injEq] at h htransition
      rw [fire, test, htransition, ← h]
      rfl
    | some t =>
      simp only [ht, Option.isNone_some, Bool.false_eq_true, if_false, Option.ite_none_right_eq_some,
        Option.isNone_iff_eq_none, Option.some.injEq] at h htransition
      have hmultiplier : multiplier value = .error failure := by
        rw [multiplier, h.1, ← h.2]
      rw [fire, test, htransition]
      simp only [bind, Except.bind, hmultiplier]

/-- Where the vectors fit there is nothing else for a firing to fail for. -/
theorem fire_of_flawless (hv : e.net.VectorsFit) (hc : e.capacity.length = e.net.size)
    (hm : marking.length = e.net.size) (h : e.flaw? action value = none) :
    ∃ shot next, e.fire marking (.text action) value = .ok (shot, next) := by
  have htransition := e.transition_text action
  unfold flaw? at h
  split at h
  · cases h
  next hempty =>
    rw [if_neg hempty] at htransition
    cases ht : e.net.transition? action with
    | none => simp [ht] at h
    | some t =>
      rw [ht] at htransition
      cases hpos : value.positive? with
      | none => simp [ht, hpos] at h
      | some k =>
        have hk : multiplier value = .ok k := by rw [multiplier, hpos]
        rcases fire_under hv hc hm htransition hk with hfire | hfire
        · exact ⟨_, _, hfire e.net.discipline⟩
        · exact ⟨_, _, hfire e.net.discipline⟩

end Engine

namespace Failure

variable {scene : Scene} {failure : Failure}

/-- What can be told is met as it is, and the rest gives way. -/
theorem met_eq : failure.met scene =
    if (failure.message scene).isSome then failure else longNumber := by
  simp only [met, told]
  cases failure.message scene <;> rfl

theorem met_of_isSome (h : (failure.message scene).isSome = true) : failure.met scene = failure := by
  rw [met_eq, if_pos h]

theorem met_of_not_isSome (h : ¬(failure.message scene).isSome = true) :
    failure.met scene = longNumber := by
  rw [met_eq, if_neg h]

theorem met_of_message {text : String} (h : failure.message scene = some text) :
    failure.met scene = failure :=
  met_of_isSome (by rw [h, Option.isSome_some])

/-- A bad multiplier is complained of if it can be written. -/
theorem met_badMultiplier (value : Datum) :
    (badMultiplier value).met scene =
      if (value.literal scene.glossary).isSome then badMultiplier value else longNumber := by
  have hmessage : ((badMultiplier value).message scene).isSome =
      (value.literal scene.glossary).isSome := by
    rw [Bool.eq_iff_iff, message, isSome_phrase]
    simp
  rw [met_eq, hmessage]

end Failure

namespace World

variable {ω : Type} {w : World ω} {r : Request} {schema action : String} {value : Datum}
  {failure : Failure}
  {call : ω → Outcome → Act (World ω) Outcome} {callReload : ω → Datum → Act (World ω) Unit}

/-- What a dispatch fails for: a schema that is not registered, or what is wrong with the rest. -/
def flaw? (w : World ω) (schema action : String) (value : Datum) : Option Failure :=
  match w.stream.nets.lookup? (.text schema) with
  | none => some (.unknownSchema (.text schema))
  | some inst => (inst.engine w.catalog).flaw? action value

theorem schemaOf_of_netKey {catalog : Catalog} {inst : Installation}
    (h : Stream.netKey catalog inst = .ok (.text schema)) :
    Stream.schemaOf catalog inst = .text schema := by
  obtain ⟨own, hown, h⟩ := Failure.ok_of_bind h
  cases hself : own.selfEqual with
  | true =>
    simp only [hself, if_true] at h
    cases h
    exact Datum.key?_eq_text.1 (Stream.keyOf_eq_ok.1 hown)
  | false =>
    simp only [hself, Bool.false_eq_true, if_false] at h
    cases h

/-- Only a multiplier can be too long to be complained of. -/
theorem Fitting.met_of_flaw? (hw : w.Fitting) (scene : Scene)
    (h : w.flaw? schema action value = some failure) : failure.met scene = failure ↔
      ¬(failure = .badMultiplier value ∧ value.literal scene.glossary = none) := by
  have plain : ∀ {failure : Failure} {text : String}, failure ≠ .badMultiplier value →
      failure.message scene = some text → (failure.met scene = failure ↔
        ¬(failure = .badMultiplier value ∧ value.literal scene.glossary = none)) :=
    fun hne hm => iff_of_true (Failure.met_of_message hm) fun hbad => hne hbad.1
  unfold flaw? at h
  split at h
  · cases h
    exact plain (fun hbad => nomatch hbad) rfl
  next inst hn =>
    have hschema : (inst.engine w.catalog).net.schema = .text schema :=
      schemaOf_of_netKey (hw.registered _ inst hn).2
    unfold Engine.flaw? at h
    split at h
    · cases h
      exact plain (fun hbad => nomatch hbad) rfl
    · split at h
      · cases h
        rw [hschema]
        exact plain (fun hbad => nomatch hbad) rfl
      · split at h
        · cases h
          rw [Failure.met_badMultiplier]
          cases value.literal scene.glossary <;> simp
        · cases h

/-! ## Dispatching on an intact stream -/

/-- What is wrong with a request is found before anything is done. -/
theorem apply_dispatch_of_flaw? (hr : Event.ofRequest r =
      .ok { schema := .text schema, action := .text action, multiplier := value })
    (h : w.flaw? schema action value = some failure) :
    apply ((site call callReload).dispatch r) w = (.error failure, w) := by
  refine apply_dispatch_of_error ?_
  unfold flaw? at h
  split at h
  next hn =>
    cases h
    simp only [Stream.decided, hr, Stream.decide, Stream.lookup, Stream.keyOf, Datum.key?, bind,
      Except.bind, hn]
    rfl
  next inst hn =>
    rw [Stream.decided_eq hr rfl hn, Engine.fire_of_flaw? h]
    rfl

theorem Fitting.fire_of_flawless (hw : w.Fitting) {inst : Installation}
    (hn : w.stream.nets.lookup? (.text schema) = some inst)
    (h : (inst.engine w.catalog).flaw? action value = none) :
    ∃ shot next, (inst.engine w.catalog).fire (w.stream.held w.catalog (.text schema) inst)
      (.text action) value = .ok (shot, next) := by
  obtain ⟨⟨d, hd, hindexed, hcapacity⟩, -⟩ := hw.registered _ inst hn
  have hengine := engine_of_draft hd
  have hsize : inst.capacity.length = d.net.size := by
    rw [hcapacity, Net.length_capacityVector]
  have hheld : (w.stream.held w.catalog (.text schema) inst).length = d.net.size := by
    rw [Stream.held]
    cases hv : w.stream.markings.lookup? (.text schema) with
    | some v => exact (hw.held _ inst v hn hv).trans hsize
    | none =>
      rw [hengine, Option.getD_none]
      exact Net.length_initialVector d.net
  rw [hengine] at h ⊢
  exact Engine.fire_of_flawless (hw.drafts d (List.mem_of_getElem? hd) hindexed) hsize hheld h

section

variable (hcall : ∀ observer o, Answers (call observer o))
  (hreload : ∀ observer schema, Answers (callReload observer schema))
include hcall

include hreload in
/-- What can be decided is answered. -/
theorem dispatch_of_decided {e : Event} {d : Decision}
    (h : w.stream.decided w.catalog r = .ok (e, d)) :
    ∃ o w', apply ((site call callReload).dispatch r) w = (.ok o, w') := by
  have hget : Answers (site call callReload).get := fun w => ⟨_, w, apply_stream⟩
  cases hok : d.shot.ok with
  | false =>
    rw [apply_dispatch_of_refused h hok]
    exact Site.tell_of_inherited inherited_answers hcall _ _ w
  | true =>
    rw [apply_dispatch_of_accepted h hok]
    exact Site.announce_of_inherited inherited_answers hget hcall hreload _ _ _

include hreload in
/-- On a stream over nets that were left alone once they were compiled, with observers that do not
raise, a dispatch of any action by any multiplier to any schema fails for what is wrong with the
request, and leaves everything as it was; with nothing wrong it is answered.  What is met of the
failure is its cause, unless it is that the multiplier is bad and the multiplier cannot be
written. -/
theorem Intact.dispatch_fails_iff (h : Intact w)
    (hr : Event.ofRequest r = .ok { schema := .text schema, action := .text action,
                                    multiplier := value }) :
    (∀ failure, w.flaw? schema action value = some failure →
      apply ((site call callReload).dispatch r) w = (.error failure, w) ∧
        ∀ scene : Scene, failure.met scene = failure ↔
          ¬(failure = .badMultiplier value ∧ value.literal scene.glossary = none)) ∧
      (w.flaw? schema action value = none →
        ∃ o w', apply ((site call callReload).dispatch r) w = (.ok o, w')) := by
  have hw := h.fitting
  refine ⟨fun failure hflaw => ⟨?_, fun scene => hw.met_of_flaw? scene hflaw⟩, fun hflaw => ?_⟩
  · exact apply_dispatch_of_flaw? hr hflaw
  · unfold flaw? at hflaw
    split at hflaw
    · cases hflaw
    next inst hn =>
      obtain ⟨shot, next, hfire⟩ := hw.fire_of_flawless hn hflaw
      obtain ⟨decided, hd⟩ : ∃ decided, w.stream.decided w.catalog r = .ok decided := by
        rw [Stream.decided_eq hr rfl hn, hfire]
        exact ⟨_, rfl⟩
      exact dispatch_of_decided hcall hreload hd

end

end World

/-! ## Complaints, and one that cannot be made -/

namespace Relay

def draft : Draft :=
  { self := 0, net := { schema := .text "relay", discipline := .stateMachine }, config := .default }

def drafted : World String :=
  after ((Script.calls [.draft (.text "relay") (.text "stateMachine") .default]).run
    (failing.site 0)) {}

theorem intact_opened : World.Intact opened := by
  have hdrafted : World.Intact drafted := by
    refine .ran 0 ⟨fun _ _ => trivial, fun _ _ => trivial⟩ (Script.all_calls fun op hop => ?_) .empty
    rw [List.mem_singleton.1 hop]
    exact fun _ => trivial
  have hfront : World.Intact
      { drafted with drafts := drafted.drafts.set 0 (draft.follow steps.dropLast) } :=
    hdrafted.follow rfl rfl (by simp [steps])
  have hlast : (drafted.drafts.set 0 (draft.follow steps.dropLast))[0]? =
      some (draft.follow steps.dropLast) := rfl
  have hbuilt : World.Intact (after (prepare.run (failing.site 0)) {}) :=
    hfront.declared .build hlast rfl
  have hopen : World.withOpened (.ofStep (.int 1)) .default [.net 0]
      (after (prepare.run (failing.site 0)) {}) = .ok opened := rfl
  exact .opened hbuilt hopen

theorem flaw?_opened {value : Datum} (h : value.positive? = none) :
    opened.flaw? "relay" "pass" value = some (.badMultiplier value) := by
  have hflaw : opened.flaw? "relay" "pass" value =
      if value.positive?.isNone then some (.badMultiplier value) else none := rfl
  rw [hflaw, h]
  rfl

/-- An observer that lets everything pass. -/
def idle (_ : String) (o : Outcome) : Act (World String) Outcome := return o

def idleReload (_ : String) (_ : Datum) : Act (World String) Unit := return

/-- Too long to be written, and no positive number anyway. -/
def long : Datum := .int (-((10 ^ Decimal.maxRun : Nat) : Int))

end Relay

namespace World

open Relay

/-- The token is passed on once, and not zero times. -/
theorem relay_dispatch_fails :
    (∃ o w', apply ((site idle idleReload).dispatch request) Relay.opened = (.ok o, w')) ∧
      apply ((site idle idleReload).dispatch { request with multiplier := .int 0 }) Relay.opened =
        (.error (.badMultiplier (.int 0)), Relay.opened) := by
  have hidle : ∀ observer o, Answers (idle observer o) := fun _ o => answers_pure o
  have hidleReload : ∀ observer schema, Answers (idleReload observer schema) :=
    fun _ _ => answers_pure ()
  have honce : Event.ofRequest request =
      .ok { schema := .text "relay", action := .text "pass", multiplier := .int 1 } := rfl
  have hnever : Event.ofRequest { request with multiplier := .int 0 } =
      .ok { schema := .text "relay", action := .text "pass", multiplier := .int 0 } := rfl
  obtain ⟨-, hpassed⟩ := Intact.dispatch_fails_iff hidle hidleReload intact_opened honce
  obtain ⟨hfailed, -⟩ := Intact.dispatch_fails_iff hidle hidleReload intact_opened hnever
  exact ⟨hpassed rfl, (hfailed _ rfl).1⟩

/-- A number that is too long to be written is no positive number here, but that is not what is
met. -/
theorem relay_long_multiplier :
    Relay.opened.Intact ∧ Relay.opened.flaw? "relay" "pass" long = some (.badMultiplier long) ∧
      apply ((site idle idleReload).dispatch { request with multiplier := long }) Relay.opened =
        (.error (.badMultiplier long), Relay.opened) ∧
      ∀ scene : Scene, (Failure.badMultiplier long).met scene = .longNumber := by
  have hnone : long.positive? = none := by
    rw [Option.eq_none_iff_forall_ne_some]
    intro n hn
    obtain ⟨hlong, hpos⟩ := Datum.positive?_eq_some.1 hn
    have hneg := Datum.int.inj hlong
    generalize 10 ^ Decimal.maxRun = m at hneg
    omega
  have hunwritten : ∀ g : Glossary, long.literal g = none := by
    intro g
    have hofInt : Decimal.ofInt? (-((10 ^ Decimal.maxRun : Nat) : Int)) = none := by
      rw [Option.eq_none_iff_forall_ne_some]
      intro cs hcs
      have hbrief := (Decimal.ofInt?_eq_some_iff.1 hcs).1
      rw [Decimal.Brief, Int.natAbs_neg, Int.natAbs_natCast] at hbrief
      exact Nat.lt_irrefl _ hbrief
    rw [long, Datum.literal, intText, hofInt]
    rfl
  have hflaw := flaw?_opened hnone
  have hrequest : Event.ofRequest { request with multiplier := long } =
      .ok { schema := .text "relay", action := .text "pass", multiplier := long } := rfl
  refine ⟨intact_opened, hflaw, apply_dispatch_of_flaw? hrequest hflaw, fun scene => ?_⟩
  rw [Failure.met_badMultiplier, hunwritten]
  rfl

end World

end TokenNet
