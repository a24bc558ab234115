import TokenNet.Proofs.Declared
/-!
What a step of declaring leaves behind when it fails.  Main statement: `Draft.Step.failed_leaves`.
Places and arcs are added once everything about them was checked.  A transition asks for its role
first, and a role that is declared on that occasion stays where the position is then refused.
-/

namespace TokenNet

namespace Draft

open Act

variable {d d' : Draft} {e : Failure}

/-- The role that a step declares although it fails. -/
def Step.stray? (net : Net) : Step → Option Role
  | .transition label tag position => match net.freshLabel label, Position.ofDatum? position with
    | .ok _, none => net.newRole? tag
    | _, _ => none
  | _ => none

theorem withRole_eq_self {role : Option Role} : d.withRole role = d ↔ role = none := by
  constructor
  · intro h
    have hroles : d.net.roles ++ role.toList = d.net.roles := congrArg (fun d => d.net.roles) h
    exact Option.toList_eq_nil_iff.1 (List.append_right_eq_self.1 hroles)
  · rintro rfl
    exact withRole_none d

theorem newPosition_eq_error {position : Datum} (h : Net.newPosition position = .error e) :
    Position.ofDatum? position = none := by
  unfold Net.newPosition at h
  split at h
  · cases h
  · assumption

theorem apply_place_error {label initial capacity position : Datum}
    (h : apply (place label initial capacity position) d = (.error e, d')) : d' = d := by
  rw [apply_place] at h
  split at h <;> cases h
  rfl

theorem apply_arc_error {source target : End} {weight inhibit : Datum}
    (h : apply (arc source target weight inhibit) d = (.error e, d')) : d' = d := by
  rw [apply_arc] at h
  split at h <;> cases h
  rfl

theorem apply_role_error {label : Datum} (h : apply (role label) d = (.error e, d')) : d' = d := by
  rw [apply_role] at h
  split at h
  · cases h
    rfl
  · split at h <;> cases h

theorem apply_transition_error {label tag position : Datum}
    (h : apply (transition label tag position) d = (.error e, d')) :
    d' = d.withRole (Step.stray? d.net (.transition label tag position)) := by
  rw [apply_transition] at h
  cases hl : d.net.freshLabel label with
  | error e =>
    rw [hl] at h
    cases h
    simp [Step.stray?, hl]
  | ok l =>
    obtain ⟨role, hr⟩ := apply_roleOf_eq tag d
    simp only [hl, hr] at h
    cases hpos : Net.newPosition position with
    | error e =>
      rw [hpos] at h
      cases h
      simp only [Step.stray?, hl, newPosition_eq_error hpos]
    | ok pos =>
      rw [hpos] at h
      cases h

/-- Unless it is a transition that declared its role before its position was refused, a step that
fails leaves the draft as it was; and what such a transition leaves is that role and nothing else. -/
theorem Step.failed_leaves {s : Step} (hs : s ≠ .build) (h : apply s.run d = (.error e, d')) :
    d' = d.withRole (s.stray? d.net) ∧ (d' = d ↔ s.stray? d.net = none) := by
  have hleft : d' = d.withRole (s.stray? d.net) := by
    cases s with
    | place label initial capacity position =>
      exact (apply_place_error (apply_discard_error.1 h)).trans (withRole_none d).symm
    | transition label tag position => exact apply_transition_error (apply_discard_error.1 h)
    | role label => exact (apply_role_error (apply_discard_error.1 h)).trans (withRole_none d).symm
    | arc source target weight inhibit =>
      exact (apply_arc_error (apply_discard_error.1 h)).trans (withRole_none d).symm
    | build => exact absurd rfl hs
  exact ⟨hleft, hleft ▸ withRole_eq_self⟩

end Draft

/-! ## Two calls that fail -/

namespace Stray

/-- A net that holds one place. -/
def draft : Draft :=
  Draft.follow { self := 0, net := { schema := .text "stray" }, config := .default }
    [.place (.text "p") .null .null .null]

theorem reached : Draft.Reached .default draft :=
  Draft.Reached.follow (@Draft.Reached.opened .default 0 (.text "stray") (.text "petriNet") _ rfl) _

/-- A transition under the role of a clerk. -/
def step (label : String) (position : Datum) : Draft.Step :=
  .transition (.text label) (.text "clerk") position

end Stray

namespace Draft

open Act Stray

/-- The label is taken, so the role is not asked for. -/
theorem stray_taken : ∃ e, apply (step "p" (.int 5)).run draft = (.error e, draft) := by
  have hfail : ∃ e d', apply (step "p" (.int 5)).run draft = (.error e, d') := ⟨_, _, rfl⟩
  obtain ⟨e, d', h⟩ := hfail
  obtain ⟨-, hiff⟩ := Step.failed_leaves (by simp [step]) h
  obtain rfl := hiff.2 rfl
  exact ⟨e, h⟩

/-- The label is free, the role is new, and the position is no pair. -/
theorem stray_refused : Reached .default draft ∧ draft.net.roles = [] ∧
    ∃ e d', apply (step "t" (.int 5)).run draft = (.error e, d') ∧
      d'.net.roles.map Role.label = [.text "clerk"] :=
  ⟨reached, rfl, _, _, rfl, rfl⟩

end Draft

end TokenNet
