import TokenNet.Proofs.Runs
/-!
What history tells about the present.  The journal says when the stream was restarted and when a net
was replaced, and which firings were entered; what is to be shown is that the stream agrees with it.
`World.Kept` is the invariant, one clause for each piece of the stream's state, and
`World.Reached.marking_eq_latest` is what it comes to without the journal's firings: the current
marking of a net is that of the latest entry that names it, as far back as its marking was last
forgotten.
-/

namespace TokenNet

def Event.names (e : Event) (key : Key) : Bool := decide (e.schema.key? = some key)

namespace Mark

/-- The firings since the last restart, the latest first. -/
def recorded : List Mark → List Firing
  | [] => []
  | restarted :: _ => []
  | updated _ :: rest => recorded rest
  | fired f :: rest => f :: recorded rest

/-- The firings since the later of the last restart and the last update of the net under the key,
the latest first. -/
def fresh (key : Key) : List Mark → List Firing
  | [] => []
  | restarted :: _ => []
  | updated replaced :: rest => if replaced = key then [] else fresh key rest
  | fired f :: rest => f :: fresh key rest

/-- The latest of these that names the key. -/
def standing? (key : Key) (journal : List Mark) : Option Firing :=
  (fresh key journal).find? fun f => f.event.names key

@[simp] theorem standing?_nil (key : Key) : standing? key [] = none := rfl

@[simp] theorem standing?_restarted (key : Key) (rest : List Mark) :
    standing? key (restarted :: rest) = none := rfl

@[simp] theorem standing?_updated (key replaced : Key) (rest : List Mark) :
    standing? key (updated replaced :: rest) =
      if replaced = key then none else standing? key rest := by
  simp only [standing?, fresh]
  split <;> rfl

@[simp] theorem standing?_fired (key : Key) (f : Firing) (rest : List Mark) :
    standing? key (fired f :: rest) =
      if f.event.names key then some f else standing? key rest := by
  simp only [standing?, fresh, List.find?_cons]
  cases f.event.names key <;> rfl

theorem fresh_prefixOf_recorded (key : Key) (journal : List Mark) :
    fresh key journal <+: recorded journal := by
  induction journal with
  | nil => exact List.prefix_rfl
  | cons mark rest ih =>
    cases mark with
    | restarted => exact List.prefix_rfl
    | updated replaced =>
      simp only [fresh, recorded]
      split
      · exact List.nil_prefix
      · exact ih
    | fired f => exact (List.prefix_cons_inj f).2 ih

theorem mem_of_recorded {f : Firing} {journal : List Mark} (h : f ∈ recorded journal) :
    Mark.fired f ∈ journal := by
  induction journal with
  | nil => simp [recorded] at h
  | cons mark rest ih =>
    cases mark with
    | restarted => simp [recorded] at h
    | updated replaced => exact List.mem_cons_of_mem _ (ih h)
    | fired g =>
      simp only [recorded, List.mem_cons] at h ⊢
      exact h.imp (congrArg Mark.fired) ih

theorem mem_of_standing? {f : Firing} {key : Key} {journal : List Mark}
    (h : standing? key journal = some f) : Mark.fired f ∈ journal :=
  mem_of_recorded ((fresh_prefixOf_recorded key journal).subset (List.mem_of_find?_eq_some h))

end Mark

namespace World

variable {ω : Type} {w w' : World ω}

/-- The entries appended since the later of the last restart and the last update of the net under
the key, the latest first. -/
def fresh (w : World ω) (key : Key) : List Entry :=
  w.stream.history.reverse.take (Mark.fresh key w.journal).length

/-- The latest of these that names the key. -/
def latest? (w : World ω) (key : Key) : Option Entry :=
  (w.fresh key).find? fun entry => entry.event.names key

/-- The stream agrees with the journal. -/
structure Kept (w : World ω) : Prop where
  seq : w.stream.seq = w.stream.history.length
  numbered : ∀ (i : Nat) (entry : Entry), w.stream.history[i]? = some entry → entry.seq = i
  recorded : w.stream.history.map (fun entry => (entry.event, entry.marking)) =
    (Mark.recorded w.journal).reverse.map fun f => (f.event, f.next)
  held : ∀ key, w.stream.markings.lookup? key =
    (Mark.standing? key w.journal).map fun f => f.next

theorem Kept.congr (hw : w.Kept) (hm : w'.stream.markings = w.stream.markings)
    (hs : w'.stream.seq = w.stream.seq) (hh : w'.stream.history = w.stream.history)
    (hj : w'.journal = w.journal) : w'.Kept :=
  ⟨by rw [hs, hh, hw.seq], by rw [hh]; exact hw.numbered, by rw [hh, hj, hw.recorded],
    fun key => by rw [hm, hj, hw.held key]⟩

theorem entered_fired {r : Request} {f : Firing} (h : w.stream.firing? w.catalog r = some f) :
    Stream.Entered f.event f.toDecision w.timebase.now w.stream (w.fired f).stream :=
  Stream.entered_commit (Stream.firing?_eq_some h).1 _

theorem names_of_firing? {r : Request} {f : Firing} (h : w.stream.firing? w.catalog r = some f)
    (key : Key) : f.event.names key = decide (f.key = key) := by
  simp [Event.names, (entered_fired h).key]

theorem Kept.fired {r : Request} {f : Firing} (hw : w.Kept)
    (h : w.stream.firing? w.catalog r = some f) : (w.fired f).Kept := by
  have he := entered_fired h
  refine ⟨?_, fun i entry hi => ?_, ?_, fun key => ?_⟩
  · rw [he.seq, he.history, List.length_append, hw.seq]
    rfl
  · rw [he.history, List.getElem?_append] at hi
    split at hi
    · exact hw.numbered i entry hi
    next hlt =>
      obtain ⟨hlast, rfl⟩ := List.getElem?_eq_some_iff.1 hi
      simp only [List.length_singleton] at hlast
      simp only [List.getElem_singleton, hw.seq]
      omega
  · rw [he.history, List.map_append, hw.recorded]
    simp [World.fired, Mark.recorded]
  · simp only [World.fired, Mark.standing?_fired, names_of_firing? h, decide_eq_true_eq]
    by_cases hk : f.key = key
    · rw [if_pos hk, ← hk]
      exact he.held
    · rw [if_neg hk]
      exact (he.others key (Ne.symm hk)).trans (hw.held key)

theorem stable_kept : Stable (Kept (ω := ω)) := by
  intro w w' hmove hw
  cases hmove with
  | fired h => exact hw.fired h
  | updated hi hk =>
    refine ⟨hw.seq, hw.numbered, hw.recorded, fun key => ?_⟩
    rw [Register.lookup?_erase, hw.held key, Mark.standing?_updated]
    split <;> rfl
  | restarted =>
    refine ⟨rfl, fun i entry hi => ?_, rfl, fun key => ?_⟩
    · simp [World.restarted, Stream.restart] at hi
    · simp [World.restarted, Stream.restart, Register.lookup?]
  | rewired h => exact hw.congr h.markings h.seq h.history rfl
  | opened | loaded | edited | installed | timed => exact hw.congr rfl rfl rfl rfl

theorem kept_of_empty (hm : w.stream.markings = []) (hs : w.stream.seq = 0)
    (hh : w.stream.history = []) (hj : w.journal = []) : w.Kept := by
  refine ⟨by simp [hs, hh], by simp [hh], by simp [hh, hj, Mark.recorded], fun key => ?_⟩
  simp [hm, hj, Register.lookup?]

/-- Registering nets leaves the rest of the stream as a new one has it. -/
theorem kept_of_withOpened {timebase : Timebase} {config : Config} {nets : List Operand}
    (h : w.withOpened timebase config nets = .ok w') : w'.Kept ∧ w'.journal = [] := by
  obtain ⟨s, hs, rfl⟩ := withOpened_eq_ok h
  rw [registerAll_eq hs]
  exact ⟨kept_of_empty rfl rfl rfl rfl, rfl⟩

theorem Reached.kept {b : Behaviour ω} (h : Reached b w) : w.Kept :=
  h.holds stable_kept (kept_of_empty rfl rfl rfl rfl) fun _ _ _ _ _ _ ho => (kept_of_withOpened ho).1

/-- As far back as a key's marking was last forgotten, history tells what the journal does. -/
theorem Kept.fresh_eq (hw : w.Kept) (key : Key) :
    (w.fresh key).map (fun entry => (entry.event, entry.marking)) =
      (Mark.fresh key w.journal).map fun f => (f.event, f.next) := by
  have hreverse : w.stream.history.reverse.map (fun entry => (entry.event, entry.marking)) =
      (Mark.recorded w.journal).map fun f => (f.event, f.next) := by
    rw [List.map_reverse, hw.recorded, ← List.map_reverse, List.reverse_reverse]
  rw [fresh, List.map_take, hreverse, ← List.map_take,
    ← List.prefix_iff_eq_take.1 (Mark.fresh_prefixOf_recorded key w.journal)]

theorem Kept.latest?_eq (hw : w.Kept) (key : Key) :
    (w.latest? key).map Entry.marking = (Mark.standing? key w.journal).map fun f => f.next := by
  have hfind := congrArg
    (fun told : List (Event × Vec) => (told.find? fun p => p.1.names key).map Prod.snd)
    (hw.fresh_eq key)
  simpa only [List.find?_map, Option.map_map, Function.comp_def, latest?,
    Mark.standing?] using hfind

/-- In every world reached, history has one entry for each firing since the last restart, numbered
as they stand.  The marking of a registered net is that of the latest entry that names it since its
marking was last forgotten, or what the net starts from if there is none.  A marking is held exactly
where there is one. -/
theorem Reached.marking_eq_latest {b : Behaviour ω} (h : Reached b w) :
    w.stream.seq = w.stream.history.length ∧
      (∀ (i : Nat) (entry : Entry), w.stream.history[i]? = some entry → entry.seq = i) ∧
      w.stream.history.map (fun entry => (entry.event, entry.marking)) =
        (Mark.recorded w.journal).reverse.map (fun f => (f.event, f.next)) ∧
      (∀ (schema : Datum) (key : Key) (inst : Installation),
        w.stream.lookup schema = .ok (key, inst) →
        w.stream.marking w.catalog schema = .ok (((w.latest? key).map Entry.marking).getD
          (inst.engine w.catalog).net.initialVector)) ∧
      ∀ key, (w.stream.markings.lookup? key).isSome = (w.latest? key).isSome := by
  have hkept := h.kept
  have hheld : ∀ key, w.stream.markings.lookup? key = (w.latest? key).map Entry.marking :=
    fun key => (hkept.held key).trans (hkept.latest?_eq key).symm
  refine ⟨hkept.seq, hkept.numbered, hkept.recorded, fun schema key inst hl => ?_, fun key => ?_⟩
  · simp only [Stream.marking, hl, bind, Except.bind, pure, Except.pure, Stream.held, hheld key]
  · rw [hheld key, Option.isSome_map]

/-- The token was passed on once, and the marking is what that left. -/
theorem relay_marking_eq_latest : ∃ inst,
    Relay.passed.stream.lookup (.text "relay") = .ok (.text "relay", inst) ∧
      (Relay.passed.latest? (.text "relay")).map Entry.marking = some [0, 1] ∧
      Relay.passed.stream.marking Relay.passed.catalog (.text "relay") =
        .ok (((Relay.passed.latest? (.text "relay")).map Entry.marking).getD
          (inst.engine Relay.passed.catalog).net.initialVector) :=
  ⟨_, rfl, rfl, (Reached.marking_eq_latest Relay.reached_passed).2.2.2.1 _ _ _ rfl⟩

end World

end TokenNet
