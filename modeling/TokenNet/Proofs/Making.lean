import TokenNet.Declaration.Load
import TokenNet.Proofs.Compile
import TokenNet.Proofs.Drafting
/-!
The nets that the library makes: a draft that was built, or a declaration that was loaded in either
form.  Main statement: `Net.Made.sound`, what all of them have in common.
-/

namespace TokenNet

/-- Nets that come of building a draft or of loading a declaration, under a configuration. -/
inductive Net.Made (config : Config) : Net → Prop
  | built {d d' : Draft} : Draft.Reached config d → Act.apply Draft.build d = (.ok (), d') →
      Made config d'.net
  | loaded {form : Declaration.Form} {self : Nat} {schema discipline : Datum} {decl : Declaration}
      {net : Net} : (decl.load form self { schema, discipline, config }).1 = .ok net →
      Made config net

namespace Declaration

open Act Draft

variable {config : Config}

theorem sound_openDraft {decl : Declaration} {self : Nat} {overrides : Overrides} {d : Draft}
    (h : decl.openDraft self overrides = .ok d) : d.Sound overrides.config := by
  obtain ⟨schema, -, h⟩ := Failure.ok_of_bind h
  exact sound_open? h

theorem keeps_declarePlaces (places : List (String × PlaceEntry)) :
    Keeps (Draft.Sound config) (declarePlaces places) := by
  induction places with
  | nil => exact keeps_pure _
  | cons entry rest ih => exact keeps_bind (keeps_place _ _ _ _) fun _ => ih

theorem keeps_declareTransitions (transitions : List (String × TransitionEntry)) :
    Keeps (Draft.Sound config) (declareTransitions transitions) := by
  induction transitions with
  | nil => exact keeps_pure _
  | cons entry rest ih =>
    obtain ⟨key, t⟩ := entry
    have hrest : Keeps (Draft.Sound config) (do
        let _ ← Draft.transition (.text key) (t.role.elim .null .text) (toDatum t.position)
        declareTransitions rest) := keeps_bind (keeps_transition _ _ _) fun _ => ih
    unfold declareTransitions
    split
    · split
      · exact keeps_bind (keeps_throw _) fun _ => hrest
      · exact hrest
    · exact hrest

theorem keeps_declareNodes (decl : Declaration) :
    Keeps (Draft.Sound config) (declareNodes decl) :=
  keeps_bind (keeps_check _) fun _ => keeps_bind (keeps_declarePlaces _) fun _ =>
    keeps_declareTransitions _

theorem keeps_declareArcs (arcs : List ArcEntry) :
    Keeps (Draft.Sound config) (declareArcs arcs) := by
  induction arcs with
  | nil => exact keeps_pure _
  | cons arc rest ih =>
    refine keeps_bind keeps_drafted fun net => ?_
    split
    · exact keeps_throw _
    · exact keeps_throw _
    · exact keeps_bind (keeps_arc _ _ _ _) fun _ => ih

theorem keeps_attachVectors (transitions : List (String × TransitionEntry)) :
    Keeps (Draft.Sound config) (attachVectors transitions) := by
  induction transitions with
  | nil => exact keeps_pure _
  | cons entry rest ih =>
    obtain ⟨key, t⟩ := entry
    unfold attachVectors
    split
    · exact keeps_bind keeps_drafted fun _ => keeps_throw _
    · exact keeps_bind (keeps_edit fun _ => rfl) fun _ => ih

/-- A declaration that loads ends with a draft that compiled without a finding. -/
theorem declare_ok {form : Form} {decl : Declaration} {d d' : Draft} (hd : d.Sound config)
    (h : apply (form.declare decl) d = (.ok (), d')) :
    ∃ mid : Draft, mid.Sound config ∧ d'.net = mid.net.index.1 ∧ mid.net.index.2 = [] := by
  cases form with
  | arcs =>
    obtain ⟨_, m1, h1, h⟩ := apply_bind_ok h
    obtain ⟨_, m2, h2, h⟩ := apply_bind_ok h
    have hm1 := (keeps_declareNodes decl).left hd h1
    exact ⟨m2, (keeps_declareArcs decl.arcs).left hm1 h2, build_ok h⟩
  | object =>
    obtain ⟨_, m1, h1, h⟩ := apply_bind_ok h
    obtain ⟨_, m2, h2, h⟩ := apply_bind_ok h
    obtain ⟨net, m3, h3, h⟩ := apply_bind_ok h
    have hm1 := (keeps_declareNodes decl).left hd h1
    have hkeep : Keeps (Draft.Sound config)
        (Draft.edit fun net => { net with arcsKept := .bool false }) := keeps_edit fun _ => rfl
    have hm2 := hkeep.left hm1 h2
    have hm3 := keeps_drafted.left hm2 h3
    -- The warning about arcs comes or does not; the vectors are attached and checked after it.
    have finish : ∀ m : Draft, m.Sound config →
        apply (do
          attachVectors decl.transitions
          unless ← Draft.index do throw (.invalidVectors net.schema)) m = (.ok (), d') →
        ∃ mid : Draft, mid.Sound config ∧ d'.net = mid.net.index.1 ∧ mid.net.index.2 = [] := by
      intro m hm hfin
      obtain ⟨_, m', h', hfin⟩ := apply_bind_ok hfin
      exact ⟨m', (keeps_attachVectors _).left hm h', passed_ok (fun _ => ⟨_, _, rfl⟩) hfin⟩
    simp only at h
    split at h
    · exact finish m3 hm3 h
    · obtain ⟨_, m4, h4, h⟩ := apply_bind_ok h
      exact finish m4 ((keeps_report _).left hm3 h4) h

end Declaration

/-- What every net that is made has: it is indexed, its counts are sound, and its vectors fit. -/
structure Net.Sound (config : Config) (net : Net) : Prop where
  indexed : net.indexed = true
  places : ∀ p ∈ net.places, p.Sound config
  vectors : net.VectorsFit

namespace Net

variable {config : Config} {net : Net}

theorem sound_index {d : Draft} (hd : d.Sound config) (h : d.net.index.2 = []) :
    d.net.index.1.Sound config := by
  obtain ⟨hi, hv⟩ := index_fits h
  exact ⟨hi, by simpa [places_index] using hd.places, hv⟩

theorem made_of_build {d : Draft} (hd : Draft.Reached config d)
    (h : (Act.apply Draft.build d).1 = .ok ()) : (Act.after Draft.build d).net.Made config :=
  .built hd (Prod.ext h rfl)

theorem Made.sound (h : Made config net) : net.Sound config := by
  cases h with
  | built hd hb =>
    obtain ⟨hnet, hnone⟩ := Draft.build_ok hb
    exact hnet ▸ sound_index hd.sound hnone
  | @loaded form self schema discipline decl _ hl =>
    unfold Declaration.load at hl
    split at hl
    · cases hl
    next draft ho =>
      rcases hr : Act.apply (form.declare decl) draft with ⟨_ | ⟨⟩, d'⟩ <;>
        simp only [Act.apply] at hr <;> simp only [hr, Except.map, reduceCtorEq] at hl
      obtain ⟨mid, hmid, hnet, hnone⟩ :=
        Declaration.declare_ok (Declaration.sound_openDraft ho) hr
      cases hl
      exact hnet ▸ sound_index hmid hnone

end Net

end TokenNet
