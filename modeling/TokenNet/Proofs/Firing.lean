import TokenNet.Firing
import TokenNet.Proofs.Bounds
/-!
What a firing comes to, once and for every discipline: `fire_of_blocked` and `fire_of_clear` say
what it gives, and `fire_ok` that it gives nothing else.  From these follows what an accepted firing
leaves behind, whatever marking it started from: `admits_of_fire`.
-/

namespace TokenNet

theorem Failure.ok_of_bind {α β : Type} {x : Except Failure α} {f : α → Except Failure β} {b : β}
    (h : x >>= f = .ok b) : ∃ a, x = .ok a ∧ f a = .ok b := by
  cases x with
  | error e => cases h
  | ok a => exact ⟨a, rfl, h⟩

theorem Failure.ok_of_map {α β : Type} {x : Except Failure α} {f : α → β} {b : β}
    (h : x.map f = .ok b) : ∃ a, x = .ok a ∧ f a = b := by
  cases x with
  | error e => cases h
  | ok a => exact ⟨a, rfl, Except.ok.inj h⟩

/-- Both fail alike, or both come to something and what they come to is related. -/
inductive Failure.Matched {α β : Type} (R : α → β → Prop) :
    Except Failure α → Except Failure β → Prop
  | ok {a : α} {b : β} : R a b → Matched R (.ok a) (.ok b)
  | error (failure : Failure) : Matched R (.error failure) (.error failure)

theorem Failure.Matched.bind {α β γ δ : Type} {R : α → β → Prop} {S : γ → δ → Prop}
    {x : Except Failure α} {y : Except Failure β} {f : α → Except Failure γ}
    {g : β → Except Failure δ} (h : Matched R x y) (hfg : ∀ a b, R a b → Matched S (f a) (g b)) :
    Matched S (x >>= f) (y >>= g) := by
  cases h with
  | ok hab => exact hfg _ _ hab
  | error failure => exact .error failure

namespace Discipline

/-- Does the discipline let the moved vector pass? -/
def accepts (d : Discipline) (capacity raw : Vec) : Bool :=
  match d with
  | .petriNet => Vec.within capacity raw
  | .stateMachine => Vec.within capacity raw && Vec.elementary raw
  | .workflow => Vec.elementary raw

/-- The vector that is reported, and left behind if it passes. -/
def settled (d : Discipline) (raw : Vec) : Vec :=
  match d with
  | .workflow => Vec.clip raw
  | _ => raw

@[simp] theorem length_settled (d : Discipline) (raw : Vec) :
    (d.settled raw).length = raw.length := by
  cases d <;> simp [settled]

end Discipline

namespace Engine

variable {e : Engine} {marking next : Vec} {action value : Datum} {t : Transition} {k : Int}
  {shot : Shot}

theorem ofNet?_eq_ok {net : Net} (h : ofNet? net = .ok e) :
    e = { net, capacity := net.capacityVector } := by
  unfold ofNet? at h
  split at h
  · cases h
    rfl
  · cases h

theorem transition_eq_ok : e.transition action = .ok t ↔
    ∃ label, action = .text label ∧ label.isEmpty = false ∧ e.net.transition? label = some t := by
  constructor
  · intro h
    unfold transition at h
    split at h
    · simp at h
    next ht =>
      split at h
      · simp at h
      · split at h
        next t' hb =>
          cases h
          obtain ⟨label, hl, hfind⟩ := Option.bind_eq_some_iff.1 hb
          cases action <;> simp only [Datum.text?, reduceCtorEq, Option.some.injEq] at hl
          subst hl
          exact ⟨_, rfl, by simpa [Datum.truthy] using ht, hfind⟩
        · simp at h
  · rintro ⟨label, rfl, hl, hfind⟩
    simp [transition, Datum.truthy, Datum.key?, Datum.text?, hl, hfind]

theorem transition_mem (ht : e.transition action = .ok t) : t ∈ e.net.transitions := by
  obtain ⟨label, -, -, hfind⟩ := transition_eq_ok.1 ht
  exact List.mem_of_find?_eq_some hfind

theorem multiplier_eq_ok : multiplier value = .ok k ↔ value = .int k ∧ 0 < k := by
  rw [← Datum.positive?_eq_some]
  unfold multiplier
  cases value.positive? <;> simp

theorem add_eq_ok {delta : Vec} {tally : Vec.Tally} : e.add marking delta k = .ok tally ↔
    marking.length = delta.length ∧ delta.length = e.capacity.length ∧
      tally = ⟨Vec.moved marking delta k, Vec.within e.capacity (Vec.moved marking delta k)⟩ := by
  rw [← Vec.add?_eq_some]
  unfold add
  split
  next t h => simp [h]
  next h => simp [h]

/-- Of an engine the guards see its capacities. -/
theorem anyActive_congr {e' : Engine} (h : e'.capacity = e.capacity) (k : Int)
    (guards : Table String Guard) :
    e'.anyActive marking k guards = e.anyActive marking k guards := by
  induction guards with
  | nil => rfl
  | cons entry rest ih => simp only [anyActive, add, h, ih]

def openShot (e : Engine) (marking : Vec) (t : Transition) (k : Int) : Shot where
  result := some (e.net.discipline.settled (Vec.moved marking t.delta k))
  ok := e.net.discipline.accepts e.capacity (Vec.moved marking t.delta k)
  role := t.role

theorem fire_of_blocked (ht : e.transition action = .ok t) (hk : multiplier value = .ok k)
    (hb : e.anyActive marking k t.guards = .ok true) :
    e.fire marking action value =
      .ok ({ result := none, ok := false, role := t.role }, marking) := by
  have htest : e.test marking action value =
      .ok { result := none, ok := false, role := t.role } := by
    unfold test
    rw [ht, hk]
    simp only [bind, Except.bind, hb]
    rfl
  unfold fire
  rw [htest]
  cases h : e.net.discipline <;> simp [bind, Except.bind, pure, Except.pure, discipline, commit]

theorem fire_of_clear (ht : e.transition action = .ok t) (hk : multiplier value = .ok k)
    (hb : e.anyActive marking k t.guards = .ok false) (hm : marking.length = t.delta.length)
    (hc : t.delta.length = e.capacity.length) :
    e.fire marking action value =
      .ok (e.openShot marking t k, commit marking (e.openShot marking t k)) := by
  have hadd : e.add marking t.delta k = .ok ⟨Vec.moved marking t.delta k,
      Vec.within e.capacity (Vec.moved marking t.delta k)⟩ := add_eq_ok.2 ⟨hm, hc, rfl⟩
  have htest : e.test marking action value =
      .ok { result := some (Vec.moved marking t.delta k)
            ok := Vec.within e.capacity (Vec.moved marking t.delta k)
            role := t.role } := by
    unfold test
    rw [ht, hk]
    simp only [bind, Except.bind, hb, hadd]
    rfl
  unfold fire
  rw [htest]
  cases h : e.net.discipline <;>
    simp [bind, Except.bind, pure, Except.pure, discipline, openShot, Discipline.accepts,
      Discipline.settled, h]

/-- A firing that comes to something was of a transition of the net with a positive multiplier, and
either a guard blocked it or its vectors had one length. -/
theorem fire_ok (h : e.fire marking action value = .ok (shot, next)) :
    ∃ t k, e.transition action = .ok t ∧ multiplier value = .ok k ∧
      ((e.anyActive marking k t.guards = .ok true ∧
          shot = { result := none, ok := false, role := t.role } ∧ next = marking) ∨
        (e.anyActive marking k t.guards = .ok false ∧ marking.length = t.delta.length ∧
          t.delta.length = e.capacity.length ∧ shot = e.openShot marking t k ∧
          next = commit marking shot)) := by
  obtain ⟨tested, htest, -⟩ := Failure.ok_of_bind h
  obtain ⟨t, ht, h1⟩ := Failure.ok_of_bind htest
  obtain ⟨k, hk, h2⟩ := Failure.ok_of_bind h1
  obtain ⟨blocked, hb, h3⟩ := Failure.ok_of_bind h2
  refine ⟨t, k, ht, hk, ?_⟩
  cases blocked with
  | true =>
    rw [fire_of_blocked ht hk hb] at h
    cases h
    exact Or.inl ⟨hb, rfl, rfl⟩
  | false =>
    obtain ⟨tally, hadd, -⟩ := Failure.ok_of_bind h3
    obtain ⟨hm, hc, -⟩ := add_eq_ok.1 hadd
    rw [fire_of_clear ht hk hb hm hc] at h
    cases h
    exact Or.inr ⟨hb, hm, hc, rfl, rfl⟩

/-- An accepted firing passed every guard and its discipline, and left the settled vector. -/
theorem fire_accepted (h : e.fire marking action value = .ok (shot, next)) (hok : shot.ok = true) :
    ∃ t k, e.transition action = .ok t ∧ multiplier value = .ok k ∧
      e.anyActive marking k t.guards = .ok false ∧ marking.length = t.delta.length ∧
      t.delta.length = e.capacity.length ∧
      e.net.discipline.accepts e.capacity (Vec.moved marking t.delta k) = true ∧
      next = e.net.discipline.settled (Vec.moved marking t.delta k) := by
  obtain ⟨t, k, ht, hk, ⟨-, rfl, -⟩ | ⟨hb, hm, hc, rfl, rfl⟩⟩ := fire_ok h
  · simp at hok
  · refine ⟨t, k, ht, hk, hb, hm, hc, hok, ?_⟩
    simp only [commit, hok, if_true]
    rfl

theorem fire_refused (h : e.fire marking action value = .ok (shot, next)) (hok : shot.ok = false) :
    next = marking := by
  obtain ⟨t, k, -, -, ⟨-, -, hn⟩ | ⟨-, -, -, -, rfl⟩⟩ := fire_ok h
  · exact hn
  · simp [commit, hok]

/-! ## What an accepted firing leaves -/

/-- What is promised of every marking that a firing leaves behind: the length of the capacities, no
count below zero or above a capacity other than zero, and in a workflow or a state machine at most
one token in all. -/
structure Admits (e : Engine) (v : Vec) : Prop where
  length : v.length = e.capacity.length
  nonneg : v.Nonneg
  bounded : ∀ (i : Nat) (c n : Int), e.capacity[i]? = some c → v[i]? = some n → c ≠ 0 → n ≤ c
  single : e.net.discipline ≠ .petriNet →
    v.countP (fun n => decide (0 < n)) ≤ 1 ∧ ∀ n ∈ v, n ≤ 1

theorem nonneg_of_within {capacity v : Vec} (h : Vec.within capacity v = true) : v.Nonneg := by
  obtain ⟨hlen, hall⟩ := Vec.within_iff.1 h
  intro n hn
  obtain ⟨i, hi, rfl⟩ := List.mem_iff_getElem.1 hn
  have hc : i < capacity.length := hlen ▸ hi
  exact (hall i capacity[i] v[i] (by simp) (by simp)).1

theorem length_moved_of_lengths (hm : marking.length = t.delta.length)
    (hc : t.delta.length = e.capacity.length) :
    (Vec.moved marking t.delta k).length = e.capacity.length := by
  rw [Vec.length_moved, hm, hc, Nat.min_self]

/-- The capacities must not be negative: a workflow never looks at them, and a marking of at most
one token stays below every capacity that bounds anything. -/
theorem admits_of_fire (hcap : e.capacity.Nonneg)
    (h : e.fire marking action value = .ok (shot, next)) (hok : shot.ok = true) :
    e.Admits next := by
  obtain ⟨t, k, -, -, -, hm, hc, hacc, rfl⟩ := fire_accepted h hok
  generalize hraw : Vec.moved marking t.delta k = raw at *
  have hlen : raw.length = e.capacity.length := hraw ▸ length_moved_of_lengths hm hc
  have bounded_of_within : Vec.within e.capacity raw = true → ∀ (i : Nat) (c n : Int),
      e.capacity[i]? = some c → raw[i]? = some n → c ≠ 0 → n ≤ c := by
    intro hw i c n hci hni hne
    have hge := hcap c (List.mem_of_getElem? hci)
    exact ((Vec.within_iff.1 hw).2 i c n hci hni).2 (by omega)
  cases hd : e.net.discipline with
  | petriNet =>
    simp only [Discipline.accepts, Discipline.settled, hd] at hacc ⊢
    exact ⟨hlen, nonneg_of_within hacc, bounded_of_within hacc, fun hne => absurd hd hne⟩
  | stateMachine =>
    simp only [Discipline.accepts, Discipline.settled, hd, Bool.and_eq_true] at hacc ⊢
    have hone := Vec.elementary_iff.1 hacc.2
    exact ⟨hlen, nonneg_of_within hacc.1, bounded_of_within hacc.1, fun _ => ⟨hone.2, hone.1⟩⟩
  | workflow =>
    simp only [Discipline.accepts, Discipline.settled, hd] at hacc ⊢
    rw [← Vec.elementary_clip] at hacc
    have hone := Vec.elementary_iff.1 hacc
    refine ⟨by simpa using hlen, fun n hn => Vec.nonneg_of_mem_clip hn, fun i c n hci hni hne => ?_,
      fun _ => ⟨hone.2, hone.1⟩⟩
    have hle := hone.1 n (List.mem_of_getElem? hni)
    have hge := hcap c (List.mem_of_getElem? hci)
    omega

end Engine

end TokenNet
