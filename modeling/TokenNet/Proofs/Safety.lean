import TokenNet.Proofs.Journal
/-!
Safe markings.  Every marking that a stream holds, and every one in its history, is admitted by the
engine that fired it, `World.Reached.markings_admitted`: whatever is done to the nets in the
meantime, a firing starts from the capacities that were read when the net was put to use, and those
are not negative.  That is the invariant, `World.Safe`; what an accepted firing leaves is then a
fact about the one firing, `Engine.admits_of_fire`.
-/

namespace TokenNet

/-- The firing is one of its engine, from some marking, and was accepted. -/
structure Firing.Safe (f : Firing) : Prop where
  fires : ∃ marking, f.engine.fire marking f.event.action f.event.multiplier = .ok (f.shot, f.next)
  accepted : f.shot.ok = true
  capacity : f.engine.capacity.Nonneg

theorem Firing.Safe.admits {f : Firing} (h : f.Safe) : f.engine.Admits f.next := by
  obtain ⟨marking, hf⟩ := h.fires
  exact Engine.admits_of_fire h.capacity hf h.accepted

theorem Draft.Sound.self {config : Config} {d : Draft} (h : d.Sound config) : d.Sound d.config := by
  rwa [h.config_eq]

namespace World

variable {ω : Type} {w w' : World ω}

/-- What keeps every later firing safe, and that every one so far was. -/
structure Safe (w : World ω) : Prop where
  drafts : ∀ d ∈ w.drafts, d.Sound d.config
  installations : ∀ inst ∈ w.installations, inst.capacity.Nonneg
  registered : ∀ entry ∈ w.stream.nets, entry.2.2.capacity.Nonneg
  orderly : w.stream.markings.Orderly
  fired : ∀ f, Mark.fired f ∈ w.journal → f.Safe

theorem Safe.capacity_of_open? (hw : w.Safe) {id : Nat} {config : Config} {inst : Installation}
    (h : Installation.open? w.catalog id config = .ok inst) : inst.capacity.Nonneg := by
  obtain ⟨e, he, h⟩ := Failure.ok_of_bind h
  cases h
  obtain rfl := Engine.ofNet?_eq_ok he
  simp only [catalog, List.getElem?_map]
  cases hd : w.drafts[id]? with
  | none => exact fun c hc => absurd hc List.not_mem_nil
  | some d => exact Net.nonneg_capacityVector (hw.drafts d (List.mem_of_getElem? hd)).places

theorem Safe.capacity_of_installation (hw : w.Safe) {config : Config} {net : Operand}
    {inst : Installation} (h : w.installation config net = .ok inst) : inst.capacity.Nonneg := by
  cases net with
  | net id => exact hw.capacity_of_open? h
  | installation id =>
    simp only [installation] at h
    split at h
    next found hfound =>
      cases h
      exact hw.installations _ (List.mem_of_getElem? hfound)
    next => cases h

theorem Safe.fired_of_firing? (hw : w.Safe) {r : Request} {f : Firing}
    (h : w.stream.firing? w.catalog r = some f) : f.Safe := by
  obtain ⟨-, hok, inst, hn, he, hf⟩ := Stream.firing?_eq_some h
  refine ⟨⟨_, hf⟩, hok, ?_⟩
  obtain ⟨d, hmem⟩ := Register.mem_of_lookup? hn
  rw [he]
  exact hw.registered _ hmem

theorem stable_safe : Stable (Safe (ω := ω)) := by
  intro w w' hmove hw
  cases hmove with
  | opened hd =>
    refine ⟨fun d' hd' => ?_, hw.installations, hw.registered, hw.orderly, hw.fired⟩
    rcases List.mem_append.1 hd' with hd' | hd'
    · exact hw.drafts d' hd'
    · rw [List.mem_singleton.1 hd']
      exact (Draft.sound_open? hd).self
  | loaded hl =>
    refine ⟨fun d' hd' => ?_, hw.installations, hw.registered, hw.orderly, hw.fired⟩
    rcases List.mem_append.1 hd' with hd' | hd'
    · exact hw.drafts d' hd'
    · rw [List.mem_singleton.1 hd']
      exact ⟨rfl, (Net.Made.loaded hl).sound.places⟩
  | @edited id d step hd =>
    refine ⟨fun d' hd' => ?_, hw.installations, hw.registered, hw.orderly, hw.fired⟩
    rcases List.mem_or_eq_of_mem_set hd' with hd' | rfl
    · exact hw.drafts d' hd'
    · exact (step.keeps d (hw.drafts d (List.mem_of_getElem? hd))).self
  | installed hi =>
    refine ⟨hw.drafts, fun inst' hi' => ?_, hw.registered, hw.orderly, hw.fired⟩
    rcases List.mem_append.1 hi' with hi' | hi'
    · exact hw.installations inst' hi'
    · rw [List.mem_singleton.1 hi']
      exact hw.capacity_of_open? hi
  | @fired r f hf =>
    refine ⟨hw.drafts, hw.installations, hw.registered, ?_, fun f' hf' => ?_⟩
    · exact hw.orderly.enter (Stream.selfEqual_of_decided (Stream.firing?_eq_some hf).1) _ _
    · rcases List.mem_cons.1 hf' with hf' | hf'
      · obtain rfl := Mark.fired.inj hf'
        exact hw.fired_of_firing? hf
      · exact hw.fired f' hf'
  | updated hi hk =>
    refine ⟨hw.drafts, hw.installations, fun entry he => ?_, hw.orderly.erase _, fun f hf => ?_⟩
    · rcases Register.mem_enter he with ⟨-, he⟩ | he
      · rw [he]
        exact hw.capacity_of_installation hi
      · exact hw.registered entry he
    · exact hw.fired f ((List.mem_cons.1 hf).resolve_left (by simp))
  | restarted =>
    refine ⟨hw.drafts, hw.installations, hw.registered, .nil, fun f hf => ?_⟩
    exact hw.fired f ((List.mem_cons.1 hf).resolve_left (by simp))
  | rewired h =>
    exact ⟨hw.drafts, hw.installations, by rw [h.nets]; exact hw.registered,
      by rw [h.markings]; exact hw.orderly, hw.fired⟩
  | timed => exact ⟨hw.drafts, hw.installations, hw.registered, hw.orderly, hw.fired⟩

theorem Reached.safe {b : Behaviour ω} (h : Reached b w) : w.Safe := by
  refine h.holds stable_safe ⟨by simp, by simp, by simp, .nil, by simp⟩
    fun w w' timebase config nets hw ho => ?_
  obtain ⟨s, hs, rfl⟩ := withOpened_eq_ok ho
  have hnew : (∀ entry ∈ s.nets, entry.2.2.capacity.Nonneg) ∧ s.markings.Orderly := by
    refine registerAll_holds (P := fun s : Stream ω =>
        (∀ entry ∈ s.nets, entry.2.2.capacity.Nonneg) ∧ s.markings.Orderly)
      (fun s s' net inst hi hr hP => ?_) ⟨by simp, .nil⟩ hs
    obtain ⟨key, rfl⟩ := register_eq_ok hr
    refine ⟨fun entry he => ?_, hP.2⟩
    rcases Register.mem_enter he with ⟨-, he⟩ | he
    · rw [he]
      exact hw.capacity_of_installation hi
    · exact hP.1 entry he
  exact ⟨hw.drafts, hw.installations, hnew.1, hnew.2, by simp⟩

/-- In every world reached, every marking held is that of the latest firing under its key, every
entry of history has the marking of the firing at its position, and the engines of these firings
admit them. -/
theorem Reached.markings_admitted {b : Behaviour ω} (h : Reached b w) :
    (∀ (key : Key) (schema : Datum) (v : Vec), (key, schema, v) ∈ w.stream.markings →
      ∃ f, Mark.standing? key w.journal = some f ∧ f.Safe ∧ f.next = v ∧ f.engine.Admits v) ∧
    ∀ (i : Nat) (entry : Entry), w.stream.history[i]? = some entry →
      ∃ f, (Mark.recorded w.journal).reverse[i]? = some f ∧ f.Safe ∧ f.event = entry.event ∧
        f.next = entry.marking ∧ f.engine.Admits entry.marking := by
  have hsafe := h.safe
  have hkept := h.kept
  constructor
  · intro key schema v hmem
    have hheld := hsafe.orderly.lookup?_of_mem hmem
    rw [hkept.held key, Option.map_eq_some_iff] at hheld
    obtain ⟨f, hf, rfl⟩ := hheld
    have hfsafe := hsafe.fired f (Mark.mem_of_standing? hf)
    exact ⟨f, hf, hfsafe, rfl, hfsafe.admits⟩
  · intro i entry hi
    have hat := congrArg (fun l : List (Event × Vec) => l[i]?) hkept.recorded
    simp only [List.getElem?_map, hi, Option.map_some] at hat
    obtain ⟨f, hf, heq⟩ := Option.map_eq_some_iff.1 hat.symm
    simp only [Prod.mk.injEq] at heq
    have hmem : f ∈ Mark.recorded w.journal := List.mem_reverse.1 (List.mem_of_getElem? hf)
    have hfsafe := hsafe.fired f (Mark.mem_of_recorded hmem)
    exact ⟨f, hf, hfsafe, heq.1, heq.2, heq.2 ▸ hfsafe.admits⟩

/-- The marking that passing the token on left is held. -/
theorem relay_markings_admitted :
    (Key.text "relay", Datum.text "relay", [0, 1]) ∈ Relay.passed.stream.markings ∧
      ∃ f, Mark.standing? (.text "relay") Relay.passed.journal = some f ∧ f.Safe ∧
        f.next = [0, 1] ∧ f.engine.Admits [0, 1] := by
  have hmem : (Key.text "relay", Datum.text "relay", [0, 1]) ∈ Relay.passed.stream.markings :=
    List.mem_singleton.2 rfl
  exact ⟨hmem, (Reached.markings_admitted Relay.reached_passed).1 _ _ _ hmem⟩

end World

end TokenNet
