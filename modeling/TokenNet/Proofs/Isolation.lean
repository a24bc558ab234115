import Mathlib
import TokenNet.Proofs.Onlookers
import TokenNet.Proofs.Unedited
/-!
Nets on one stream do not interfere.  What a stream holds under one key, `Stream.Projects`, is moved
by the calls for that key as a stream of its own would be, and by other calls not at all.  So a
stream over many nets, seen under the key of one of them, is a stream over that net alone that is
sent only the calls for it: `World.nets_isolated`.

Observers are handed the record that the dispatcher gets, and may write into it what they see of the
stream.  So a call is compared by its verdict, which is what it is answered before they do, and by
the answer too if they keep to the record.  Observers that edit nets are another matter:
`World.granaries_meddled`.
-/

namespace TokenNet

open Act

/-- Does the request name the net under the key? -/
def Request.names (r : Request) (key : Key) : Bool :=
  match Event.ofRequest r with
  | .ok e => e.names key
  | .error _ => false

/-- An entry as it is told to somebody who does not know of other nets. -/
def Entry.noted (entry : Entry) : Event × Vec := (entry.event, entry.marking)

namespace Stream

variable {ω : Type} {s s' : Stream ω} {catalog : Catalog} {r : Request} {f : Firing} {key : Key}

/-- Who is told of what. -/
def slots (s : Stream ω) : Register (Option ω) × Option ω × Option ω × Option ω :=
  (s.onAction, s.onEvery, s.onFail, s.onReload)

/-- The second stream is what the first is under the key. -/
structure Projects (key : Key) (s s' : Stream ω) : Prop where
  config : s'.config = s.config
  net : s'.nets.lookup? key = s.nets.lookup? key
  held : s'.markings.lookup? key = s.markings.lookup? key
  noted : s'.history.map Entry.noted =
    (s.history.filter fun entry => entry.event.names key).map Entry.noted
  slots : s'.slots = s.slots

theorem slots_eq_iff : s'.slots = s.slots ↔ s'.onAction = s.onAction ∧ s'.onEvery = s.onEvery ∧
    s'.onFail = s.onFail ∧ s'.onReload = s.onReload := by
  simp only [slots, Prod.mk.injEq]

theorem Projects.decided (h : s.Projects key s') (hr : r.names key = true) (catalog : Catalog) :
    s'.decided catalog r = s.decided catalog r := by
  unfold Request.names at hr
  cases he : Event.ofRequest r with
  | error failure => simp [he] at hr
  | ok e =>
    rw [he] at hr
    have hkey : e.schema.key? = some key := by simpa [Event.names] using hr
    have hlookup : s'.lookup e.schema = s.lookup e.schema := by
      simp only [lookup, keyOf, hkey, bind, Except.bind, h.net]
    have hheld : ∀ inst, s'.held catalog key inst = s.held catalog key inst := fun inst => by
      simp only [Stream.held, h.held]
    have hdecide : s'.decide catalog e = s.decide catalog e := by
      rw [Stream.decide, Stream.decide, hlookup]
      cases hl : s.lookup e.schema with
      | error failure => rfl
      | ok found =>
        obtain ⟨own, inst⟩ := found
        obtain rfl : key = own := Option.some.inj (hkey.symm.trans (lookup_eq_ok hl).1)
        simp only [bind, Except.bind, hheld]
    simp only [Stream.decided, he, bind, Except.bind, hdecide]

theorem Projects.marking (h : s.Projects key s') {schema : Datum} (hk : schema.key? = some key)
    {catalog' : Catalog} (hc : catalog' = catalog) :
    s'.marking catalog' schema = s.marking catalog schema := by
  simp only [Stream.marking, Stream.lookup, keyOf, hk, h.net, bind, Except.bind, hc]
  cases s.nets.lookup? key with
  | none => rfl
  | some inst => simp only [pure, Except.pure, Stream.held, h.held]

theorem names_of_decided {e : Event} {d : Decision} (h : s.decided catalog r = .ok (e, d)) :
    r.names key = Decidable.decide (d.key = key) := by
  obtain ⟨he, -, inst, hkey, -⟩ := decided_eq_ok h
  simp [Request.names, he, Event.names, hkey]

theorem Projects.firing? (h : s.Projects key s') (hr : r.names key = true) (catalog : Catalog) :
    s'.firing? catalog r = s.firing? catalog r := by
  simp only [Stream.firing?, h.decided hr]
  cases hd : s.decided catalog r with
  | error failure => rfl
  | ok decided =>
    obtain ⟨e, d⟩ := decided
    rw [names_of_decided hd, decide_eq_true_eq] at hr
    simp only [Except.toOption, Option.bind_eq_bind, Option.bind_some, hr, h.net]

/-- A firing under the key is entered in both. -/
theorem Projects.commit (h : s.Projects key s') (hf : s.firing? catalog r = some f)
    (hr : r.names key = true) (time time' : Datum) :
    (s.commit f.event f.toDecision time).Projects key
      (s'.commit f.event f.toDecision time') := by
  obtain ⟨hd, -⟩ := firing?_eq_some hf
  have hself := selfEqual_of_decided hd
  have hevent : f.event.names key = true := by
    obtain ⟨he, -⟩ := decided_eq_ok hd
    simpa [Request.names, he] using hr
  refine ⟨h.config, h.net, ?_, ?_, h.slots⟩
  · rw [lookup?_commit hself, lookup?_commit hself, h.held]
  · simp only [Stream.commit, List.filter_append, List.map_append, h.noted, List.filter_cons,
      hevent, if_true, List.filter_nil]
    rfl

/-- A firing under another key is seen by the first stream alone. -/
theorem Projects.commit_other (h : s.Projects key s') (hf : s.firing? catalog r = some f)
    (hr : r.names key = false) (time : Datum) :
    (s.commit f.event f.toDecision time).Projects key s' := by
  obtain ⟨hd, -⟩ := firing?_eq_some hf
  have hevent : f.event.names key = false := by
    obtain ⟨he, -⟩ := decided_eq_ok hd
    simpa [Request.names, he] using hr
  have hne : f.key ≠ key := by
    rw [names_of_decided hd] at hr
    exact of_decide_eq_false hr
  refine ⟨h.config, h.net, ?_, ?_, h.slots⟩
  · rw [lookup?_commit (selfEqual_of_decided hd), if_neg hne, h.held]
  · simp only [Stream.commit, List.filter_append, h.noted, List.filter_cons, hevent,
      Bool.false_eq_true, if_false, List.filter_nil, List.append_nil]

/-! ## Observers come and go in both -/

theorem Projects.observe (h : s.Projects key s') (action : Datum) (observer : Option ω) :
    Failure.Matched (Projects key) (s.observe action observer) (s'.observe action observer) := by
  obtain ⟨haction, hothers⟩ := slots_eq_iff.1 h.slots
  unfold Stream.observe
  cases keyOf action with
  | error failure => exact .error failure
  | ok own =>
    have henter : s'.onAction.enter own action observer = s.onAction.enter own action observer := by
      rw [haction]
    exact .ok ⟨h.config, h.net, h.held, h.noted, slots_eq_iff.2 ⟨henter, hothers⟩⟩

theorem Projects.ignore (h : s.Projects key s') (action : Datum) :
    Failure.Matched (Projects key) (s.ignore action) (s'.ignore action) := by
  obtain ⟨haction, hothers⟩ := slots_eq_iff.1 h.slots
  unfold Stream.ignore
  rw [haction]
  cases s.onAction.isEmpty with
  | true => exact .ok h
  | false =>
    cases keyOf action with
    | error failure => exact .error failure
    | ok own =>
      have herase : Table.erase s.onAction own = Table.erase s'.onAction own := by rw [haction]
      exact .ok ⟨h.config, h.net, h.held, h.noted, slots_eq_iff.2 ⟨rfl, hothers⟩⟩

/-! ## What is answered -/

theorem Projects.answer (h : s.Projects key s') (hr : r.names key = true)
    (tells : ω → Outcome → Outcome) (catalog : Catalog) :
    s'.answer tells catalog r = s.answer tells catalog r := by
  obtain ⟨haction, hevery, hfail, -⟩ := slots_eq_iff.1 h.slots
  simp only [Stream.answer, h.decided hr, Stream.observer?, haction, hevery, hfail]

end Stream

/-- Is the call for the net under the key, where `keyOf` says what is registered under which key?
Calls that name no net are for all of them; the clock is nobody's. -/
def Op.concerns {ω : Type} (keyOf : Operand → Option Key) (key : Key) : Op ω → Bool
  | dispatch r => r.names key
  | update net => keyOf net = some key
  | advance | reset => false
  | _ => true

namespace World

variable {ω : Type} {w w' v v' : World ω} {key : Key} {op : Op ω} {r : Request}
  {call : ω → Outcome → Act (World ω) Outcome} {callReload : ω → Datum → Act (World ω) Unit}

/-! ## One call, seen under a key -/

/-- The key that a net is registered under; none if it cannot be. -/
def keyOf? (w : World ω) : Operand → Option Key
  | .net id => (Stream.netKey w.catalog { net := id, config := .default, capacity := [] }).toOption
  | .installation id =>
    (w.installations[id]?).bind fun inst => (Stream.netKey w.catalog inst).toOption

theorem SameNets.keyOf? (h : w.SameNets w') : w'.keyOf? = w.keyOf? := by
  funext net
  cases net <;> simp only [World.keyOf?, h.catalog, h.installations]

/-- The key depends neither on the configuration nor on capacities. -/
theorem keyOf?_of_installation {config : Config} {net : Operand} {inst : Installation}
    (h : w.installation config net = .ok inst) :
    w.keyOf? net = (Stream.netKey w.catalog inst).toOption := by
  cases net with
  | net id =>
    obtain ⟨e, -, h⟩ := Failure.ok_of_bind h
    cases h
    rfl
  | installation id =>
    simp only [installation] at h
    split at h
    next inst' hi =>
      cases h
      simp only [keyOf?, hi, Option.bind_some]
    next => cases h

theorem netKey_of_keyOf? {config : Config} {net : Operand} {inst : Installation}
    (h : w.installation config net = .ok inst) (hk : w.keyOf? net = some key) :
    Stream.netKey w.catalog inst = .ok key := by
  rw [keyOf?_of_installation h] at hk
  cases hown : Stream.netKey w.catalog inst with
  | error failure => simp [hown, Except.toOption] at hk
  | ok own =>
    rw [hown] at hk
    cases hk
    rfl

theorem ne_of_keyOf?_ne {config : Config} {net : Operand} {inst : Installation} {own : Key}
    (h : w.installation config net = .ok inst) (hk : Stream.netKey w.catalog inst = .ok own)
    (hne : w.keyOf? net ≠ some key) : own ≠ key := by
  rintro rfl
  rw [keyOf?_of_installation h, hk] at hne
  exact hne rfl

/-- Both worlds have the nets of the first, and the stream of the last is what that of the other is
under the key. -/
structure Projects (base : World ω) (key : Key) (w w' : World ω) : Prop where
  nets : base.SameNets w
  nets' : base.SameNets w'
  stream : w.stream.Projects key w'.stream

variable {base : World ω}

theorem Projects.follow (h : base.Projects key w w') (hv : w.SameNets v) (hv' : w'.SameNets v')
    (hs : v.stream.Projects key v'.stream) : base.Projects key v v' :=
  ⟨h.nets.trans hv, h.nets'.trans hv', hs⟩

theorem Projects.catalog (h : base.Projects key w w') : w'.catalog = w.catalog :=
  (h.nets.symm.trans h.nets').catalog

theorem Projects.rewired (h : base.Projects key w w') (g : Stream ω → Except Failure (Stream ω))
    (hg : Failure.Matched (Stream.Projects key) (g w.stream) (g w'.stream)) :
    Failure.Matched (base.Projects key) (w.rewired g) (w'.rewired g) :=
  hg.bind fun _ _ hs => .ok (h.follow ⟨rfl, rfl⟩ ⟨rfl, rfl⟩ hs)

theorem updated_of_ok {net : Operand} {inst : Installation} {own : Key}
    (hi : w.installation w.stream.config net = .ok inst)
    (hk : Stream.netKey w.catalog inst = .ok own) :
    w.updated net = .ok { w with
      stream := { w.stream with
        nets := w.stream.nets.enter own (Stream.schemaOf w.catalog inst) inst
        markings := w.stream.markings.erase own }
      journal := .updated own :: w.journal } := by
  simp only [updated, hi, hk, Stream.update, bind, Except.bind, pure, Except.pure]

theorem Projects.updated {net : Operand} (h : base.Projects key w w')
    (hk : base.keyOf? net = some key) :
    Failure.Matched (base.Projects key) (w.updated net) (w'.updated net) := by
  have hinst : w'.installation w'.stream.config net = w.installation w.stream.config net := by
    rw [(h.nets.symm.trans h.nets').installation, h.stream.config]
  rw [← h.nets.keyOf?] at hk
  cases hi : w.installation w.stream.config net with
  | error failure =>
    rw [hi] at hinst
    simp only [World.updated, hi, hinst]
    exact .error failure
  | ok inst =>
    have hown := netKey_of_keyOf? hi hk
    have hself := selfEqual_of_netKey hown
    rw [updated_of_ok hi hown, updated_of_ok (hinst.trans hi) (h.catalog ▸ hown)]
    refine .ok (h.follow ⟨rfl, rfl⟩ ⟨rfl, rfl⟩
      ⟨h.stream.config, ?_, ?_, h.stream.noted, h.stream.slots⟩)
    · simp only [Register.lookup?_enter _ _ _ _ _ hself, if_true]
    · simp only [Register.lookup?_erase, if_true]

/-- What a call for the key does, it does in both. -/
theorem Projects.effect (h : base.Projects key w w') (hop : op.OnStream)
    (hc : op.concerns base.keyOf? key = true) :
    Failure.Matched (base.Projects key) (op.effect w) (op.effect w') := by
  have hs := h.stream
  obtain ⟨haction, hevery, hfail, hreload⟩ := Stream.slots_eq_iff.1 hs.slots
  cases op with
  | draft | load | edit | install => exact hop.elim
  | advance | reset => cases hc
  | dispatch r =>
    simp only [Op.effect, h.catalog, hs.firing? hc]
    cases hf : w.stream.firing? w.catalog r with
    | none => exact .ok h
    | some f => exact .ok (h.follow ⟨rfl, rfl⟩ ⟨rfl, rfl⟩ (hs.commit hf hc _ _))
  | update net => exact h.updated (of_decide_eq_true hc)
  | restart => exact .ok (h.follow ⟨rfl, rfl⟩ ⟨rfl, rfl⟩ ⟨hs.config, hs.net, rfl, rfl, hs.slots⟩)
  | reload schema => exact .ok h
  | on action observer => exact h.rewired (·.observe action observer) (hs.observe action observer)
  | off action => exact h.rewired (·.ignore action) (hs.ignore action)
  | onEvery observer =>
    exact h.rewired (fun s => .ok { s with onEvery := observer })
      (.ok ⟨hs.config, hs.net, hs.held, hs.noted,
        Stream.slots_eq_iff.2 ⟨haction, rfl, hfail, hreload⟩⟩)
  | onFail observer =>
    exact h.rewired (fun s => .ok { s with onFail := observer })
      (.ok ⟨hs.config, hs.net, hs.held, hs.noted,
        Stream.slots_eq_iff.2 ⟨haction, hevery, rfl, hreload⟩⟩)
  | onReload observer =>
    exact h.rewired (fun s => .ok { s with onReload := observer })
      (.ok ⟨hs.config, hs.net, hs.held, hs.noted,
        Stream.slots_eq_iff.2 ⟨haction, hevery, hfail, rfl⟩⟩)

theorem Projects.answer (h : base.Projects key w w') (hop : op.OnStream)
    (hc : op.concerns base.keyOf? key = true) (tells : ω → Outcome → Outcome) :
    op.answer tells w' = op.answer tells w := by
  have hmap : (op.effect w').map (fun _ => (none : Option Outcome)) =
      (op.effect w).map fun _ => none := by
    have heffect := h.effect hop hc
    generalize op.effect w = x, op.effect w' = x' at heffect
    cases heffect <;> rfl
  cases op with
  | dispatch r => simp only [Op.answer, h.catalog, h.stream.answer hc]
  | draft | load | edit | install => exact hop.elim
  | update | restart | reload | on | off | onEvery | onFail | onReload | advance | reset =>
    exact hmap

theorem Projects.left (h : base.Projects key w w') (hop : op.OnStream)
    (hc : op.concerns base.keyOf? key = true) :
    base.Projects key (op.left w) (op.left w') := by
  have heffect := h.effect hop hc
  unfold Op.left
  generalize op.effect w = x, op.effect w' = x' at heffect
  cases heffect with
  | error failure => exact h
  | ok hv => exact hv

/-- A call that is not for the key is not seen under it. -/
theorem Projects.left_other (h : base.Projects key w w') (hop : op.OnStream)
    (hc : op.concerns base.keyOf? key = false) : base.Projects key (op.left w) w' := by
  have hs := h.stream
  cases op with
  | draft | load | edit | install => exact hop.elim
  | restart | reload | on | off | onEvery | onFail | onReload => cases hc
  | dispatch r =>
    have hleft : (Op.dispatch r).left w = (w.stream.firing? w.catalog r).elim w w.fired := rfl
    rw [hleft]
    cases hf : w.stream.firing? w.catalog r with
    | none => exact h
    | some f => exact h.follow ⟨rfl, rfl⟩ (.refl w') (hs.commit_other hf hc _)
  | update net =>
    have hne : base.keyOf? net ≠ some key := of_decide_eq_false hc
    unfold Op.left
    cases hu : (Op.update net).effect w with
    | error failure => exact h
    | ok v =>
      obtain ⟨inst, hi, hrest⟩ := Failure.ok_of_bind hu
      obtain ⟨own, hk, -⟩ := Failure.ok_of_bind hrest
      have hupdated : (Op.update net).effect w = _ := updated_of_ok hi hk
      rw [hu] at hupdated
      cases hupdated
      have hself := selfEqual_of_netKey hk
      have hother : own ≠ key := ne_of_keyOf?_ne hi hk (h.nets.keyOf? ▸ hne)
      refine h.follow ⟨rfl, rfl⟩ (.refl w') ⟨hs.config, ?_, ?_, hs.noted, hs.slots⟩
      · simp only [Register.lookup?_enter _ _ _ _ _ hself, if_neg hother, hs.net]
      · simp only [Register.lookup?_erase, if_neg hother, hs.held]
  | advance =>
    have hadvance : w.Undisturbed (Op.advance.left w) := by
      simp only [Op.left, Op.effect, advanced]
      cases w.timebase.advance <;> exact ⟨⟨rfl, rfl⟩, rfl⟩
    exact h.follow hadvance.nets (.refl w') (hadvance.stream ▸ hs)
  | reset => exact h.follow ⟨rfl, rfl⟩ (.refl w') hs

/-! ## Many calls -/

/-- Observers that do no more than look. -/
def silent : Site (World ω) ω := site (fun _ o => return o) fun _ _ => return ()

/-- A call, what it comes to if observers do no more than look, and what it is answered. -/
structure Told (ω : Type) where
  op : Op ω
  verdict : Except Failure (Option Outcome)
  answer : Except Failure (Option Outcome)

/-- All that observers have no part in: they do not raise, so whether and how the call fails is
settled before they are told. -/
def Told.settled (t : Told ω) : Op ω × Except Failure (Option Outcome) × Except Failure Unit :=
  (t.op, t.verdict, t.answer.map fun _ => ())

/-- What calls come to, one after another, and the world that they leave. -/
def transcript (site : Site (World ω) ω) : List (Op ω) → World ω → List (Told ω) × World ω
  | [], w => ([], w)
  | op :: rest, w =>
    let (answer, left) := apply (op.perform site) w
    let (more, last) := transcript site rest left
    ({ op, verdict := (apply (op.perform silent) w).1, answer } :: more, last)

theorem onlookers_silent : Onlookers (ω := ω) (fun _ o => return o) fun _ _ => return () :=
  ⟨fun _ o w => ⟨o, w, rfl, .refl w⟩, fun _ _ w => ⟨w, rfl, .refl w⟩⟩

theorem verdict_eq (hop : op.OnStream) (w : World ω) :
    (apply (op.perform silent) w).1 = op.answer (fun _ o => o) w := by
  obtain ⟨answer, w', happly, hheard, -⟩ := onlookers_silent.perform hop w
  rw [silent, happly]
  exact hheard.told _ fun _ _ _ => rfl

/-- The induction over the calls: those for the key come to what they come to if there are no
others. -/
theorem Projects.transcript (h : base.Projects key w w') (hlook : Onlookers call callReload)
    {ops : List (Op ω)} (hops : ∀ op ∈ ops, op.OnStream) :
    let run := World.transcript (site call callReload) ops w
    let alone := World.transcript (site call callReload)
      (ops.filter fun op => op.concerns base.keyOf? key) w'
    let heard := run.1.filter fun told => told.op.concerns base.keyOf? key
    heard.map Told.settled = alone.1.map Told.settled ∧
      (∀ tells, Tells call tells → heard = alone.1) ∧ base.Projects key run.2 alone.2 := by
  induction ops generalizing w w' with
  | nil => exact ⟨rfl, fun _ _ => rfl, h⟩
  | cons op rest ih =>
    obtain ⟨hop, hrest⟩ := List.forall_mem_cons.1 hops
    obtain ⟨answer, v, hv, hheard, hundisturbed⟩ := hlook.perform hop w
    cases hc : op.concerns base.keyOf? key with
    | false =>
      have hnext : base.Projects key v w' :=
        (h.left_other hop hc).follow hundisturbed.nets (.refl w')
          (hundisturbed.stream ▸ (h.left_other hop hc).stream)
      simp only [World.transcript, hv, List.filter_cons, hc, Bool.false_eq_true, if_false]
      exact ih hnext hrest
    | true =>
      obtain ⟨answer', v', hv', hheard', hundisturbed'⟩ := hlook.perform hop w'
      have hleft := h.left hop hc
      have hnext : base.Projects key v v' := hleft.follow hundisturbed.nets hundisturbed'.nets
        (hundisturbed.stream ▸ hundisturbed'.stream ▸ hleft.stream)
      have hverdict : (apply (op.perform silent) w).1 = (apply (op.perform silent) w').1 := by
        rw [verdict_eq hop, verdict_eq hop, h.answer hop hc]
      have hsettled : answer.map (fun _ => ()) = answer'.map fun _ => () := by
        rw [hheard.settled fun _ o => o, hheard'.settled fun _ o => o, h.answer hop hc]
      have htold : ∀ tells, Tells call tells → answer = answer' := fun tells ht => by
        rw [hheard.told tells ht, hheard'.told tells ht, h.answer hop hc]
      obtain ⟨hmore, htells, hworlds⟩ := ih hnext hrest
      simp only [World.transcript, hv, hv', List.filter_cons, hc, if_true, hverdict, List.map_cons,
        hmore, Told.settled, hsettled]
      refine ⟨trivial, fun tells ht => ?_, hworlds⟩
      rw [htold tells ht, htells tells ht]

/-! ## Opening a stream over many nets and over one -/

theorem register_of_netKey {catalog : Catalog} {s : Stream ω} {inst : Installation} {own : Key}
    (hk : Stream.netKey catalog inst = .ok own) : s.register catalog inst =
      .ok { s with nets := s.nets.enter own (Stream.schemaOf catalog inst) inst } := by
  simp only [Stream.register, hk, bind, Except.bind, pure, Except.pure]

theorem lookup?_registerAll_of_not_mem {nets : List Operand} {s s' : Stream ω}
    (h : w.registerAll s nets = .ok s') (hn : ∀ net ∈ nets, w.keyOf? net ≠ some key) :
    s'.nets.lookup? key = s.nets.lookup? key := by
  induction nets generalizing s with
  | nil =>
    cases h
    rfl
  | cons net rest ih =>
    obtain ⟨hne, hrest⟩ := List.forall_mem_cons.1 hn
    obtain ⟨inst, hi, h⟩ := Failure.ok_of_bind h
    obtain ⟨mid, hr, h⟩ := Failure.ok_of_bind h
    obtain ⟨own, hk, -⟩ := Failure.ok_of_bind hr
    rw [register_of_netKey hk] at hr
    cases hr
    have hother : own ≠ key := ne_of_keyOf?_ne hi hk hne
    have hmid := ih h hrest
    rwa [Register.lookup?_enter _ _ _ _ _ (selfEqual_of_netKey hk), if_neg hother] at hmid

/-- Among nets of different keys, none takes the place of another. -/
theorem lookup?_registerAll_of_mem {nets : List Operand} {net : Operand} {s s' : Stream ω}
    (h : w.registerAll s nets = .ok s')
    (hd : nets.Pairwise fun net net' => w.keyOf? net ≠ w.keyOf? net') (hm : net ∈ nets)
    (hk : w.keyOf? net = some key) : ∃ inst,
      w.installation s.config net = .ok inst ∧ s'.nets.lookup? key = some inst := by
  induction nets generalizing s with
  | nil => exact absurd hm List.not_mem_nil
  | cons first rest ih =>
    obtain ⟨hfirst, hrest⟩ := List.pairwise_cons.1 hd
    obtain ⟨inst, hi, hfrom⟩ := Failure.ok_of_bind h
    obtain ⟨mid, hr, hlater⟩ := Failure.ok_of_bind hfrom
    obtain ⟨own, hown, -⟩ := Failure.ok_of_bind hr
    rw [register_of_netKey hown] at hr
    cases hr
    rcases List.mem_cons.1 hm with rfl | hm
    · have hkey := netKey_of_keyOf? hi hk
      obtain rfl : own = key := Except.ok.inj (hown.symm.trans hkey)
      have hothers : ∀ net' ∈ rest, w.keyOf? net' ≠ some own := fun net' hnet' =>
        hk ▸ (hfirst net' hnet').symm
      refine ⟨inst, hi, ?_⟩
      rw [lookup?_registerAll_of_not_mem hlater hothers,
        Register.lookup?_enter _ _ _ _ _ (selfEqual_of_netKey hown), if_pos rfl]
    · obtain ⟨inst', hi', hlookup⟩ := ih hlater hrest hm
      exact ⟨inst', hi', hlookup⟩

/-- A stream over nets of different keys is, under each of them, the stream over that net alone. -/
theorem projects_of_withOpened {before all : World ω} {timebase timebase' : Timebase}
    {config : Config} {nets : List Operand} {net : Operand}
    (h : before.withOpened timebase config nets = .ok all)
    (hd : nets.Pairwise fun net net' => before.keyOf? net ≠ before.keyOf? net') (hm : net ∈ nets)
    (hk : before.keyOf? net = some key) : ∃ own,
      before.withOpened timebase' config [net] = .ok own ∧ before.Projects key all own := by
  obtain ⟨s, hs, rfl⟩ := withOpened_eq_ok h
  obtain ⟨inst, hi, hlookup⟩ := lookup?_registerAll_of_mem hs hd hm hk
  have hown := netKey_of_keyOf? hi hk
  have hopen : before.registerAll { config } [net] = .ok
      { config, nets := Register.enter [] key (Stream.schemaOf before.catalog inst) inst } := by
    rw [registerAll]
    simp only [hi, bind, Except.bind, register_of_netKey hown]
    rfl
  refine ⟨{ before with
    stream := { config, nets := Register.enter [] key (Stream.schemaOf before.catalog inst) inst }
    timebase := timebase', journal := [] }, ?_, ⟨rfl, rfl⟩, ⟨rfl, rfl⟩, ?_⟩
  · rw [withOpened, hopen]
    rfl
  · rw [registerAll_eq hs]
    refine ⟨rfl, ?_, rfl, rfl, rfl⟩
    simp only [hlookup, Register.lookup?_enter _ _ _ _ _ (selfEqual_of_netKey hown), if_true]

/-- A stream is opened over nets of different keys and called in any way, while observers look on.
Then the calls for one of the nets, those for all nets among them, come to what they come to on a
stream over that net alone that is sent these calls and no others: the verdicts are the same, and so
is what fails and how.  If observers keep to the records that they are handed, the answers are the
same as well.  In the end the marking of the net and the entries that name it are the same. -/
theorem nets_isolated {before all : World ω} {timebase : Timebase} {config : Config}
    {nets : List Operand} (hopen : before.withOpened timebase config nets = .ok all)
    (hdistinct : nets.Pairwise fun net net' => before.keyOf? net ≠ before.keyOf? net')
    (hlook : Onlookers call callReload) {ops : List (Op ω)} (hops : ∀ op ∈ ops, op.OnStream)
    {net : Operand} (hm : net ∈ nets) (hk : before.keyOf? net = some key) (timebase' : Timebase) :
    ∃ own, before.withOpened timebase' config [net] = .ok own ∧
      let run := transcript (site call callReload) ops all
      let alone := transcript (site call callReload)
        (ops.filter fun op => op.concerns before.keyOf? key) own
      let heard := run.1.filter fun told => told.op.concerns before.keyOf? key
      heard.map Told.settled = alone.1.map Told.settled ∧
        (∀ tells, Tells call tells → heard = alone.1) ∧
        (∀ schema : Datum, schema.key? = some key →
          run.2.stream.marking run.2.catalog schema =
            alone.2.stream.marking alone.2.catalog schema) ∧
        (run.2.stream.history.filter fun entry => entry.event.names key).map Entry.noted =
          alone.2.stream.history.map Entry.noted := by
  obtain ⟨own, hown, hstart⟩ := @projects_of_withOpened ω key before all timebase timebase' config
    nets net hopen hdistinct hm hk
  refine ⟨own, hown, ?_⟩
  intro run alone heard
  obtain ⟨hsettled, htold, hend⟩ := hstart.transcript hlook hops
  refine ⟨hsettled, htold, fun schema hschema => ?_, hend.stream.noted.symm⟩
  exact (hend.stream.marking hschema hend.catalog).symm

end World

/-! ## Two nets on one stream -/

namespace Granaries

/-- There is room for three. -/
def steps : List Draft.Step :=
  [.place (.text "grain") (.int 0) (.int 3) .null, .transition (.text "fill") .null .null,
    .arc (.transition "fill") (.place "grain") (.int 1) (.bool false), .build]

/-- An observer that writes the number of the next entry over the marking of every outcome. -/
def stamp (_ : Unit) (o : Outcome) : Act (World Unit) Outcome := do
  return { o with marking := some [(← get).stream.seq] }

/-- An observer that draws another arc in the southern granary, so that filling it counts twice from
then on. -/
def meddle (_ : Unit) (o : Outcome) : Act (World Unit) Outcome := do
  modify fun w =>
    let (_, w) := w.edited 1 (.arc (.transition "fill") (.place "grain") (.int 2) (.bool false))
    (w.edited 1 .build).2
  return o

def quiet (_ : Unit) (_ : Datum) : Act (World Unit) Unit := pure ()

def prepared : World Unit :=
  Act.after (Script.run (World.site stamp quiet) (.calls
    (.draft (.text "north") (.text "petriNet") .default :: steps.map (.edit 0) ++
      .draft (.text "south") (.text "petriNet") .default :: steps.map (.edit 1)))) {}

/-- With a stream over the nets. -/
def start (nets : List Operand) : World Unit :=
  match prepared.withOpened (.ofStep (.int 1)) .default nets with
  | .ok w => w
  | .error _ => {}

def fill (schema : String) (k : Int) : Op Unit :=
  .dispatch { value := .text schema, action := .text "fill", multiplier := .int k }

/-- The southern granary is renewed between two fillings, and the northern one overfilled. -/
def ops : List (Op Unit) :=
  [.onEvery (some ()), fill "north" 2, fill "south" 1, fill "north" 2, .update (.net 1),
    fill "north" 1, fill "south" 3]

def southOps : List (Op Unit) :=
  [.onEvery (some ()), fill "south" 1, .update (.net 1), fill "south" 3]

/-- The calls for the southern granary. -/
def heard (call : Unit → Outcome → Act (World Unit) Outcome) (ops : List (Op Unit))
    (w : World Unit) : List (World.Told Unit) :=
  (World.transcript (World.site call quiet) ops w).1.filter fun told =>
    told.op.concerns prepared.keyOf? (.text "south")

/-- What is in the southern granary in the end. -/
def stored (call : Unit → Outcome → Act (World Unit) Outcome) (ops : List (Op Unit))
    (w : World Unit) : Except Failure Vec :=
  let left := (World.transcript (World.site call quiet) ops w).2
  left.stream.marking left.catalog (.text "south")

theorem withOpened_prepared {nets : List Operand}
    (h : (prepared.withOpened (.ofStep (.int 1)) .default nets).toOption.isSome = true) :
    prepared.withOpened (.ofStep (.int 1)) .default nets = .ok (start nets) := by
  unfold start
  split
  next h => exact h
  next hfailed =>
    rw [hfailed] at h
    cases h

theorem keyOf?_north : prepared.keyOf? (.net 0) = some (.text "north") := by cbv

theorem keyOf?_south : prepared.keyOf? (.net 1) = some (.text "south") := by cbv

theorem onlookers_stamp : World.Onlookers stamp quiet :=
  ⟨fun _ _ w => ⟨_, w, rfl, .refl w⟩, fun _ _ w => ⟨w, rfl, .refl w⟩⟩

theorem stream_edited (id : Nat) (step : Draft.Step) (w : World Unit) :
    (w.edited id step).2.stream = w.stream := by
  unfold World.edited
  split <;> rfl

theorem apply_meddle (observer : Unit) (o : Outcome) (w : World Unit) :
    ∃ w', apply (meddle observer o) w = (.ok o, w') ∧ w'.stream = w.stream :=
  ⟨_, rfl, (stream_edited 1 .build _).trans (stream_edited 1 _ w)⟩

theorem filter_ops : (ops.filter fun op => op.concerns prepared.keyOf? (.text "south")) =
    southOps := by cbv

theorem verdicts_heard : ((heard stamp ops (start [.net 0, .net 1])).map
    fun told => told.verdict.toOption.join.bind Outcome.marking) =
      [none, some [1], none, some [3]] := by cbv

theorem stored_stamp : stored stamp ops (start [.net 0, .net 1]) = .ok [3] := by cbv

theorem noted_stamp : ((World.transcript (World.site stamp quiet) ops
    (start [.net 0, .net 1])).2.stream.history.filter fun entry =>
      entry.event.names (.text "south")).map Entry.noted =
        [(⟨.text "south", .text "fill", .int 1⟩, [1]),
          (⟨.text "south", .text "fill", .int 3⟩, [3])] := by cbv

end Granaries

namespace World

open Granaries

/-- The southern granary is filled as if there were no northern one, and renewed as well, while an
observer counts the entries of both. -/
theorem granaries_isolated : ∃ own : World Unit,
    prepared.withOpened .wall .default [.net 1] = .ok own ∧
      ((transcript (site stamp quiet) southOps own).1.map
          fun told => told.verdict.toOption.join.bind Outcome.marking) =
        [none, some [1], none, some [3]] ∧
      (transcript (site stamp quiet) southOps own).2.stream.history.map Entry.noted =
        [(⟨.text "south", .text "fill", .int 1⟩, [1]),
          (⟨.text "south", .text "fill", .int 3⟩, [3])] ∧
      stored stamp southOps own = .ok [3] := by
  have hdistinct : List.Pairwise (fun net net' => prepared.keyOf? net ≠ prepared.keyOf? net')
      [.net 0, .net 1] := by
    simp [keyOf?_north, keyOf?_south]
  have hops : ∀ op ∈ ops, op.OnStream := by simp [ops, fill, Op.OnStream]
  obtain ⟨own, hopen, hsettled, -, hmarking, hnoted⟩ := nets_isolated
    (withOpened_prepared (by cbv)) hdistinct onlookers_stamp hops
    (List.mem_cons_of_mem _ List.mem_cons_self) keyOf?_south .wall
  rw [filter_ops] at hsettled hmarking hnoted
  refine ⟨own, hopen, ?_, hnoted.symm.trans noted_stamp, ?_⟩
  · have hverdicts := congrArg (List.map fun settled => settled.2.1.toOption.join.bind
      Outcome.marking) hsettled
    rw [List.map_map, List.map_map] at hverdicts
    exact hverdicts.symm.trans verdicts_heard
  · exact (hmarking (.text "south") rfl).symm.trans stored_stamp

/-- An observer that draws an arc neither raises nor touches the stream, and yet what the northern
granary is sent changes what ends up in the southern one.  One that stamps the records leaves the
nets alone as well, and yet the answers differ. -/
theorem granaries_meddled :
    (∀ (observer : Unit) (o : Outcome) (w : World Unit), ∃ w',
      apply (meddle observer o) w = (.ok o, w') ∧ w'.stream = w.stream) ∧
    Onlookers stamp quiet ∧
    prepared.keyOf? (.net 0) = some (.text "north") ∧
    prepared.keyOf? (.net 1) = some (.text "south") ∧
    prepared.withOpened (.ofStep (.int 1)) .default [.net 0, .net 1] =
      .ok (start [.net 0, .net 1]) ∧
    prepared.withOpened (.ofStep (.int 1)) .default [.net 1] = .ok (start [.net 1]) ∧
    stored meddle [.onEvery (some ()), fill "north" 1, fill "south" 1]
      (start [.net 0, .net 1]) = .ok [2] ∧
    stored meddle [.onEvery (some ()), fill "south" 1] (start [.net 1]) = .ok [1] ∧
    (heard stamp [.onEvery (some ()), fill "north" 1, fill "south" 1]
      (start [.net 0, .net 1])).map (fun told => told.answer.toOption.join.bind Outcome.marking) =
        [none, some [2]] ∧
    (heard stamp [.onEvery (some ()), fill "south" 1] (start [.net 1])).map
      (fun told => told.answer.toOption.join.bind Outcome.marking) = [none, some [1]] := by
  refine ⟨apply_meddle, onlookers_stamp, keyOf?_north, keyOf?_south, withOpened_prepared ?_,
    withOpened_prepared ?_, ?_, ?_, ?_, ?_⟩ <;> cbv

end World

end TokenNet
