import TokenNet.Proofs.Journal
/-!
Runs that leave a net as it is.  The marking of a net came about by the firings that stand under its
key, each from the marking that the one before it left, `World.Linked`.  Nets may be edited between
two firings, so one engine need not have fired them all; `World.Unedited` says that a net was left
alone since none of its firings stood, and `World.Unedited.spared` that one engine did.
-/

namespace TokenNet

/-- The call does not edit the net. -/
def Op.Spares {ω : Type} (n : Nat) : Op ω → Prop
  | edit id _ => id ≠ n
  | _ => True

/-- What an event asks for of the net it names. -/
def Event.move (e : Event) : Datum × Datum := (e.action, e.multiplier)

namespace Mark

/-- The firings that name the key since its marking was last forgotten, the latest first. -/
def standing (key : Key) (journal : List Mark) : List Firing :=
  (fresh key journal).filter fun f => f.event.names key

/-- The marking that the latest of these firings left, or else the one to start from. -/
def left (start : Vec) (fs : List Firing) : Vec := (fs.head?.map fun f => f.next).getD start

/-- Each of these firings was accepted, and started from what the one before it left; the earliest
started from what its net starts from. -/
def Chained : List Firing → Prop
  | [] => True
  | f :: rest => f.shot.ok = true ∧
      f.engine.fire (left f.engine.net.initialVector rest) f.event.action f.event.multiplier =
        .ok (f.shot, f.next) ∧ Chained rest

theorem head?_standing (key : Key) (journal : List Mark) :
    (standing key journal).head? = standing? key journal :=
  List.head?_filter

@[simp] theorem standing_restarted (key : Key) (rest : List Mark) :
    standing key (restarted :: rest) = [] := rfl

@[simp] theorem standing_updated (key replaced : Key) (rest : List Mark) :
    standing key (updated replaced :: rest) =
      if replaced = key then [] else standing key rest := by
  simp only [standing, fresh]
  split <;> rfl

@[simp] theorem standing_fired (key : Key) (f : Firing) (rest : List Mark) :
    standing key (fired f :: rest) =
      if f.event.names key then f :: standing key rest else standing key rest := by
  simp only [standing, fresh, List.filter_cons]

end Mark

namespace World

variable {ω : Type} {w w' : World ω} {n : Nat} {d : Draft} {op : Op ω}

theorem drafts_append {new : Draft} (h : w.drafts[n]? = some d) :
    (w.drafts ++ [new])[n]? = some d := by
  rw [List.getElem?_append_left (List.getElem?_eq_some_iff.1 h).1]
  exact h

/-- Only editing a net changes its draft. -/
theorem draft_of_effect (hs : op.Spares n) (h : op.effect w = .ok w')
    (hd : w.drafts[n]? = some d) : w'.drafts[n]? = some d := by
  cases op with
  | draft schema discipline config =>
    obtain ⟨new, -, h⟩ := Failure.ok_of_bind h
    cases h
    exact drafts_append hd
  | load form overrides decl =>
    obtain ⟨net, -, h⟩ := Failure.ok_of_bind h
    cases h
    exact drafts_append hd
  | edit id step =>
    cases h
    unfold edited
    split
    · exact hd
    · exact (List.getElem?_set_ne hs).trans hd
  | dispatch r =>
    cases h
    cases w.stream.firing? w.catalog r <;> exact hd
  | install id config =>
    obtain ⟨inst, -, h⟩ := Failure.ok_of_bind h
    cases h
    exact hd
  | update net =>
    obtain ⟨inst, -, h⟩ := Failure.ok_of_bind h
    obtain ⟨key, -, h⟩ := Failure.ok_of_bind h
    obtain ⟨s, -, h⟩ := Failure.ok_of_bind h
    cases h
    exact hd
  | on | off | onEvery | onFail | onReload =>
    obtain ⟨s, -, h⟩ := Failure.ok_of_bind h
    cases h
    exact hd
  | advance =>
    simp only [Op.effect, advanced] at h
    split at h
    · cases h
      exact hd
    · cases h
  | restart | reload | reset =>
    cases h
    exact hd

/-! ## The firings that a marking came about by -/

/-- The stream agrees with the journal, and the firings that stand under a key make a chain. -/
structure Linked (w : World ω) : Prop where
  kept : w.Kept
  chained : ∀ key, Mark.Chained (Mark.standing key w.journal)

theorem Kept.held_eq (hw : w.Kept) (key : Key) (inst : Installation) :
    w.stream.held w.catalog key inst =
      Mark.left (inst.engine w.catalog).net.initialVector (Mark.standing key w.journal) := by
  rw [Stream.held, hw.held key, ← Mark.head?_standing]
  rfl

theorem Linked.fired {r : Request} {f : Firing} (hw : w.Linked)
    (h : w.stream.firing? w.catalog r = some f) : (w.fired f).Linked := by
  refine ⟨hw.kept.fired h, fun key => ?_⟩
  simp only [World.fired, Mark.standing_fired, names_of_firing? h, decide_eq_true_eq]
  split
  next hkey =>
    obtain ⟨-, hok, inst, -, he, hfire⟩ := Stream.firing?_eq_some h
    rw [hw.kept.held_eq, ← he, hkey] at hfire
    exact ⟨hok, hfire, hw.chained key⟩
  next => exact hw.chained key

theorem stable_linked : Stable (Linked (ω := ω)) := by
  intro w w' hmove hw
  have hkept := stable_kept w w' hmove hw.kept
  cases hmove with
  | fired h => exact hw.fired h
  | updated hi hk =>
    refine ⟨hkept, fun key => ?_⟩
    rw [Mark.standing_updated]
    split
    · trivial
    · exact hw.chained key
  | restarted => exact ⟨hkept, fun key => trivial⟩
  | opened | loaded | edited | installed | rewired | timed => exact ⟨hkept, hw.chained⟩

theorem Reached.linked {b : Behaviour ω} (h : Reached b w) : w.Linked := by
  have linked_of_new : ∀ {w : World ω}, w.Kept → w.journal = [] → w.Linked := fun hk hj =>
    ⟨hk, fun key => by rw [hj]; trivial⟩
  refine h.holds stable_linked (linked_of_new (kept_of_empty rfl rfl rfl rfl) rfl)
    fun w w' _ _ _ _ ho => ?_
  obtain ⟨hk, hj⟩ := kept_of_withOpened ho
  exact linked_of_new hk hj

/-! ## Leaving a net alone -/

/-- What was accepted under the key since its marking was last forgotten, the latest first: each
time an action with its multiplier. -/
def accepted (w : World ω) (key : Key) : List (Datum × Datum) :=
  ((w.fresh key).filter fun entry => entry.event.names key).map fun entry => entry.event.move

theorem Kept.accepted_eq (hw : w.Kept) (key : Key) :
    w.accepted key = (Mark.standing key w.journal).map fun f => f.event.move := by
  have hfilter := congrArg (fun told : List (Event × Vec) =>
    (told.filter fun p => p.1.names key).map fun p => p.1.move) (hw.fresh_eq key)
  simpa only [List.filter_map, List.map_map, Function.comp_def, accepted, Mark.standing] using hfilter

/-- The net with this number was left as it stands in the draft since a time when nothing was
accepted for it: neither the programs that ran since edit it, nor the observers they come to. -/
inductive Unedited (b : Behaviour ω) (n : Nat) (d : Draft) : World ω → Prop
  | since {before : Behaviour ω} {w : World ω} : Reached before w → w.drafts[n]? = some d →
    (∀ key inst, w.stream.nets.lookup? key = some inst → inst.net = n → w.accepted key = []) →
    Unedited b n d w
  | ran {w : World ω} {script : Script ω Unit} (depth : Nat) : b.All (Op.Spares n) →
    script.All (Op.Spares n) → Unedited b n d w →
    Unedited b n d (Act.after (script.run (b.site depth)) w)

/-- Under the keys that the net is registered under, one engine fired all that stands. -/
structure Spared (n : Nat) (d : Draft) (w : World ω) : Prop where
  linked : w.Linked
  draft : w.drafts[n]? = some d
  fired : ∀ key inst, w.stream.nets.lookup? key = some inst → inst.net = n →
    ∀ f ∈ Mark.standing key w.journal, f.engine = { net := d.net, capacity := inst.capacity }

theorem engine_of_draft {inst : Installation} (h : w.drafts[inst.net]? = some d) :
    inst.engine w.catalog = { net := d.net, capacity := inst.capacity } := by
  simp [Installation.engine, catalog, h]

theorem selfEqual_of_netKey {catalog : Catalog} {inst : Installation} {key : Key}
    (h : Stream.netKey catalog inst = .ok key) : key.selfEqual = true := by
  obtain ⟨own, -, h⟩ := Failure.ok_of_bind h
  cases h
  split
  next hself => exact hself
  next => rfl

theorem Spared.move (hw : Spared n d w) (hmove : Move w w') (hd : w'.drafts[n]? = some d) :
    Spared n d w' := by
  have hlinked := stable_linked w w' hmove hw.linked
  refine ⟨hlinked, hd, fun key inst hn hi f hf => ?_⟩
  cases hmove with
  | @fired r g hg =>
    have hnets := (entered_fired hg).nets
    rw [hnets] at hn
    simp only [World.fired, Mark.standing_fired, names_of_firing? hg, decide_eq_true_eq] at hf
    split at hf
    next hkey =>
      subst hkey
      rcases List.mem_cons.1 hf with rfl | hf
      · obtain ⟨-, -, inst', hn', he, -⟩ := Stream.firing?_eq_some hg
        obtain rfl : inst' = inst := Option.some.inj (hn'.symm.trans hn)
        rw [he, engine_of_draft (hi ▸ hw.draft)]
      · exact hw.fired _ inst hn hi f hf
    next => exact hw.fired key inst hn hi f hf
  | updated hi' hk =>
    rw [Register.lookup?_enter _ _ _ _ _ (selfEqual_of_netKey hk)] at hn
    rw [Mark.standing_updated] at hf
    split at hf
    · exact absurd hf List.not_mem_nil
    next hne =>
      rw [if_neg hne] at hn
      exact hw.fired key inst hn hi f hf
  | restarted => exact absurd hf List.not_mem_nil
  | rewired h => exact hw.fired key inst (h.nets ▸ hn) hi f hf
  | opened | loaded | edited | installed | timed => exact hw.fired key inst hn hi f hf

theorem Unedited.spared {b : Behaviour ω} (h : Unedited b n d w) : Spared n d w := by
  induction h with
  | since hw hd hnone =>
    refine ⟨hw.linked, hd, fun key inst hn hi f hf => ?_⟩
    have hnil := hw.kept.accepted_eq key
    rw [hnone key inst hn hi] at hnil
    rw [List.map_eq_nil_iff.1 hnil.symm] at hf
    exact absurd hf List.not_mem_nil
  | ran depth hb hs _ ih =>
    refine b.keeps_calls (fun op hop w w' h hw => ?_) hb depth hs _ ih
    rcases move_of_effect h with rfl | hmove
    · exact hw
    · exact hw.move hmove (draft_of_effect hop h hw.draft)

end World

end TokenNet
