import TokenNet.Proofs.Atomicity
/-!
Nets that run alike.  A firing sees the labels, roles and vectors of transitions and the counts of
places; it sees neither where nodes are drawn nor the arcs that vectors came from.  So two nets that
agree on what it sees give the same answer to every firing, `Engine.fire_alike`, and streams over
them give the same answers to any requests in any order, `World.Alike.answers`.
-/

namespace TokenNet

open Act

/-- The transition without its place in a drawing. -/
def Transition.unplaced (t : Transition) : Transition := { t with position := {} }

theorem Transition.of_unplaced {t t' : Transition} (h : t'.unplaced = t.unplaced) :
    t'.role = t.role ∧ t'.delta = t.delta ∧ t'.guards = t.guards := by
  simp only [unplaced, Transition.mk.injEq] at h
  exact ⟨h.2.1, h.2.2.2.1, h.2.2.2.2.1⟩

/-- What a run sees of one net it sees of the other. -/
structure Net.Alike (net net' : Net) : Prop where
  schema : net'.schema = net.schema
  discipline : net'.discipline = net.discipline
  initial : net'.initialVector = net.initialVector
  capacity : net'.capacityVector = net.capacityVector
  indexed : net'.indexed = net.indexed
  transitions : ∀ label, (net'.transition? label).map Transition.unplaced =
    (net.transition? label).map Transition.unplaced

theorem Net.Alike.refl (net : Net) : net.Alike net := ⟨rfl, rfl, rfl, rfl, rfl, fun _ => rfl⟩

namespace Engine

variable {e e' : Engine} {marking : Vec} {action value : Datum}

theorem transition_alike (h : e.net.Alike e'.net) (action : Datum) :
    (e'.transition action).map Transition.unplaced =
      (e.transition action).map Transition.unplaced := by
  unfold transition
  split
  · rfl
  · split
    · rfl
    · cases action.text? with
      | none => simp only [Option.bind_none, h.schema]
      | some label =>
        have hlabel := h.transitions label
        simp only [Option.bind_some, h.schema]
        cases ht : e.net.transition? label with
        | none =>
          rw [ht, Option.map_none, Option.map_eq_none_iff] at hlabel
          rw [hlabel]
        | some t =>
          rw [ht, Option.map_some, Option.map_eq_some_iff] at hlabel
          obtain ⟨t', ht', heq⟩ := hlabel
          rw [ht']
          exact congrArg Except.ok heq

/-- Firings of nets that are alike come to the same. -/
theorem fire_alike (h : e.net.Alike e'.net) (hc : e'.capacity = e.capacity) :
    e'.fire marking action value = e.fire marking action value := by
  have htest : e'.test marking action value = e.test marking action value := by
    have htransition := transition_alike h action
    cases ht : e.transition action with
    | error failure =>
      have ht' : e'.transition action = .error failure := by
        rw [ht] at htransition
        cases hr : e'.transition action <;> rw [hr] at htransition <;> cases htransition
        rfl
      rw [test, test, ht, ht']
      rfl
    | ok t =>
      obtain ⟨t', ht', heq⟩ : ∃ t', e'.transition action = .ok t' ∧ t'.unplaced = t.unplaced := by
        rw [ht] at htransition
        cases hr : e'.transition action with
        | error failure => rw [hr] at htransition; cases htransition
        | ok t' => rw [hr] at htransition; exact ⟨t', rfl, Except.ok.inj htransition⟩
      obtain ⟨hrole, hdelta, hguards⟩ := Transition.of_unplaced heq
      rw [test, test, ht, ht']
      simp only [bind, Except.bind, hrole, hdelta, hguards, add, hc, anyActive_congr hc]
  rw [fire, fire, htest, h.discipline]

end Engine

/-! ## Streams -/

/-- Nobody is told of what the stream does. -/
structure Stream.Unobserved {ω : Type} (s : Stream ω) : Prop where
  onAction : s.onAction = []
  onEvery : s.onEvery = none
  onFail : s.onFail = none
  onReload : s.onReload = none

namespace World

variable {ω : Type} {w w' : World ω} {call : ω → Outcome → Act (World ω) Outcome}
  {callReload : ω → Datum → Act (World ω) Unit}

/-- The same stream at the same time, over nets that are alike one by one. -/
structure Alike (w w' : World ω) : Prop where
  stream : w'.stream = w.stream
  timebase : w'.timebase = w.timebase
  nets : ∀ id : Nat, Net.Alike ((w.catalog[id]?).getD default) ((w'.catalog[id]?).getD default)

/-- What requests are answered with, one after another, and the world they leave. -/
def answers (site : Site (World ω) ω) : List Request → World ω →
    List (Except Failure Outcome) × World ω
  | [], w => ([], w)
  | r :: rest, w =>
    let (answer, w) := apply (site.dispatch r) w
    let (more, w) := answers site rest w
    (answer :: more, w)

theorem Alike.decided (h : w.Alike w') (r : Request) :
    w'.stream.decided w'.catalog r = w.stream.decided w.catalog r := by
  have hdecide : ∀ e, w'.stream.decide w'.catalog e = w.stream.decide w.catalog e := by
    intro e
    rw [Stream.decide, Stream.decide, h.stream]
    cases w.stream.lookup e.schema with
    | error failure => rfl
    | ok found =>
      obtain ⟨key, inst⟩ := found
      have hnet := h.nets inst.net
      have hheld : w.stream.held w'.catalog key inst = w.stream.held w.catalog key inst := by
        simp only [Stream.held, Installation.engine, hnet.initial]
      have hfire : (inst.engine w'.catalog).fire (w.stream.held w.catalog key inst) e.action
          e.multiplier = (inst.engine w.catalog).fire (w.stream.held w.catalog key inst) e.action
            e.multiplier := Engine.fire_alike hnet rfl
      have hschema : Stream.schemaOf w'.catalog inst = Stream.schemaOf w.catalog inst := hnet.schema
      simp only [bind, Except.bind, hheld, hfire, hschema]
  simp only [Stream.decided, hdecide]

/-- With nobody to tell, there is nothing to telling. -/
theorem apply_announce_unobserved (h : w.stream.Unobserved) (e : Event) (o : Outcome) :
    apply ((site call callReload).announce e o) w = (.ok o, w) := by
  have hnone : w.stream.observer? e.action = none := by
    rw [Stream.observer?, h.onAction]
    cases e.action.key? with
    | none => rfl
    | some key => simp [Register.lookup?]
  simp only [Site.announce, Site.tell, Site.reload, apply_bind, apply_stream, h.onEvery, hnone,
    h.onReload, apply_pure]

/-- With nobody to tell, a dispatch comes to what was decided and to nothing else. -/
theorem apply_dispatch_unobserved (h : w.stream.Unobserved) (r : Request) :
    apply ((site call callReload).dispatch r) w = match w.stream.decided w.catalog r with
      | .error failure => (.error failure, w)
      | .ok (e, d) => if d.shot.ok then
          (.ok (outcome e d), { w with stream := w.stream.commit e d w.timebase.now })
        else (.ok (refusal e d), w) := by
  cases hd : w.stream.decided w.catalog r with
  | error failure => exact apply_dispatch_of_error hd
  | ok decided =>
    obtain ⟨e, d⟩ := decided
    cases hok : d.shot.ok with
    | false =>
      rw [apply_dispatch_of_refused hd hok, h.onFail]
      simp only [hok, Bool.false_eq_true, if_false]
      rfl
    | true =>
      have hcommit : ({ w with stream := w.stream.commit e d w.timebase.now } :
          World ω).stream.Unobserved := ⟨h.onAction, h.onEvery, h.onFail, h.onReload⟩
      rw [apply_dispatch_of_accepted hd hok, apply_announce_unobserved hcommit]
      simp only [hok, if_true]

/-- One request leads from worlds that are alike to such worlds, and is answered alike. -/
theorem Alike.dispatch (h : w.Alike w') (hu : w.stream.Unobserved) (r : Request) :
    (apply ((site call callReload).dispatch r) w').1 =
        (apply ((site call callReload).dispatch r) w).1 ∧
      (after ((site call callReload).dispatch r) w).Alike
        (after ((site call callReload).dispatch r) w') ∧
      (after ((site call callReload).dispatch r) w).stream.Unobserved := by
  have hu' : w'.stream.Unobserved := h.stream ▸ hu
  simp only [after, apply_dispatch_unobserved hu, apply_dispatch_unobserved hu', h.decided]
  cases w.stream.decided w.catalog r with
  | error failure => exact ⟨rfl, h, hu⟩
  | ok decided =>
    obtain ⟨e, d⟩ := decided
    cases hok : d.shot.ok with
    | false => simpa only [hok, Bool.false_eq_true, if_false, true_and] using ⟨h, hu⟩
    | true =>
      simp only [hok, if_true, true_and]
      refine ⟨⟨?_, h.timebase, h.nets⟩, hu.onAction, hu.onEvery, hu.onFail, hu.onReload⟩
      simp only [h.stream, h.timebase]

/-- Any requests in any order are answered alike. -/
theorem Alike.answers (h : w.Alike w') (hu : w.stream.Unobserved) (rs : List Request) :
    (World.answers (site call callReload) rs w').1 =
        (World.answers (site call callReload) rs w).1 ∧
      (World.answers (site call callReload) rs w').2.stream =
        (World.answers (site call callReload) rs w).2.stream := by
  induction rs generalizing w w' with
  | nil => exact ⟨rfl, h.stream⟩
  | cons r rest ih =>
    obtain ⟨hanswer, halike, hunobserved⟩ := @Alike.dispatch ω w w' call callReload h hu r
    obtain ⟨hmore, hstream⟩ := ih halike hunobserved
    simp only [after] at hmore hstream
    simp only [World.answers, hanswer, hmore, hstream, and_self]

/-- A new stream over one net alone. -/
def ofNet (net : Net) (timebase : Timebase) (config : Config) : Except Failure (World ω) :=
  ({ drafts := [{ net, config }] } : World ω).withOpened timebase config [.net 0]

/-- An indexed net can be put to use at once. -/
theorem ofNet_of_indexed {net : Net} (hi : net.indexed = true) {s : String}
    (hs : net.schema = .text s) (timebase : Timebase) (config : Config) :
    ∃ w : World ω, ofNet net timebase config = .ok w ∧ w.catalog = [net] ∧ w.timebase = timebase ∧
      w.stream = { config, nets := [(.text s, .text s, ⟨0, config, net.capacityVector⟩)] } := by
  have hopen : Installation.open? [net] 0 config = .ok ⟨0, config, net.capacityVector⟩ := by
    simp [Installation.open?, Engine.ofNet?, hi, bind, Except.bind, pure, Except.pure]
  have hregister : ({ config } : Stream ω).register [net] ⟨0, config, net.capacityVector⟩ =
      .ok { config, nets := [(.text s, .text s, ⟨0, config, net.capacityVector⟩)] } := by
    simp [Stream.register, Stream.netKey, Stream.keyOf, Stream.schemaOf, Installation.engine, hs,
      Datum.key?, Key.selfEqual, Register.enter, Register.written, Table.insert, bind, Except.bind,
      pure, Except.pure]
  let w : World ω := { drafts := [{ net, config }] }
  let s' : Stream ω := { config, nets := [(.text s, .text s, ⟨0, config, net.capacityVector⟩)] }
  refine ⟨{ w with stream := s', timebase }, ?_, rfl, rfl, rfl⟩
  have hregistered : w.registerAll { config } [.net 0] = .ok s' := by
    rw [registerAll]
    change (Installation.open? [net] 0 config >>= fun inst =>
      Stream.register [net] inst { config } >>= fun s => w.registerAll s []) = _
    rw [hopen]
    change (Stream.register [net] _ { config } >>= fun s => w.registerAll s []) = _
    rw [hregister]
    rfl
  change (w.registerAll { config } [.net 0] >>= fun stream =>
    pure { w with stream, timebase, journal := [] }) = _
  rw [hregistered]
  rfl

/-- Streams over nets that are alike answer any requests alike and record the same. -/
theorem ofNet_alike {net net' : Net} (h : net.Alike net') (hi : net.indexed = true) {s : String}
    (hs : net.schema = .text s) (timebase : Timebase) (config : Config) :
    ∃ w w' : World ω, ofNet net timebase config = .ok w ∧ ofNet net' timebase config = .ok w' ∧
      ∀ rs, (World.answers (site call callReload) rs w').1 =
          (World.answers (site call callReload) rs w).1 ∧
        (World.answers (site call callReload) rs w').2.stream =
          (World.answers (site call callReload) rs w).2.stream := by
  obtain ⟨w, hw, hcatalog, htimebase, hstream⟩ := @ofNet_of_indexed ω net hi s hs timebase config
  obtain ⟨w', hw', hcatalog', htimebase', hstream'⟩ :=
    @ofNet_of_indexed ω net' (h.indexed.trans hi) s (h.schema.trans hs) timebase config
  have halike : w.Alike w' := by
    refine ⟨?_, htimebase'.trans htimebase.symm, fun id => ?_⟩
    · rw [hstream, hstream', h.capacity]
    · rw [hcatalog, hcatalog']
      cases id with
      | zero => exact h
      | succ id => exact Net.Alike.refl _
  have hunobserved : w.stream.Unobserved := by
    rw [hstream]
    exact ⟨rfl, rfl, rfl, rfl⟩
  exact ⟨w, w', hw, hw', fun rs => halike.answers hunobserved rs⟩

end World

end TokenNet
