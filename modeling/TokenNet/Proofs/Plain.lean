import TokenNet.Proofs.Export
/-!
How plain nets come about: plain values keep a net plain, whatever they are used for and whether or
not the step that uses them goes through.
-/

namespace TokenNet

open Act

theorem Datum.key?_eq_text {d : Datum} {s : String} : d.key? = some (.text s) ↔ d = .text s := by
  cases d with
  | float x => simp only [key?]; cases x.toInt? <;> simp
  | event a b c =>
    have hne : (Datum.event a b c).key? ≠ some (.text s) := by
      rw [key?]
      cases a.key? <;> cases b.key? <;> cases c.key? <;> simp
    simp [hne]
  | thing kind id => cases kind <;> simp [key?]
  | _ => simp [key?]

namespace Transition

theorem face_joined (zeros : Vec) (t : Transition) (link : Link) :
    (t.joined zeros link).role = t.role ∧ (t.joined zeros link).position = t.position := by
  unfold joined
  split
  · cases link.kind <;> exact ⟨rfl, rfl⟩
  · exact ⟨rfl, rfl⟩

/-- Compiling leaves roles and positions alone. -/
theorem face_compiled (zeros : Vec) (links : List Link) (t : Transition) :
    (t.compiled zeros links).role = t.role ∧ (t.compiled zeros links).position = t.position := by
  have h : ∀ s : Transition, (links.foldl (joined zeros) s).role = s.role ∧
      (links.foldl (joined zeros) s).position = s.position := by
    induction links with
    | nil => exact fun _ => ⟨rfl, rfl⟩
    | cons link rest ih =>
      intro s
      obtain ⟨hrole, hposition⟩ := face_joined zeros s link
      exact ⟨(ih _).1.trans hrole, (ih _).2.trans hposition⟩
  exact h (t.cleared zeros)

end Transition

namespace Draft

/-- Nothing, a text or a role told by a text, for a role. -/
def PlainTag (tag : Datum) : Prop :=
  tag = .null ∨ (∃ s, tag = .text s) ∨ ∃ s, tag = .role (.text s)

/-- Numbers that doubles hold exactly for coordinates, whatever form the position has. -/
def PlainPosition (d : Datum) : Prop := ∀ p, Net.newPosition d = .ok p → p.Exact

def Step.Plain : Step → Prop
  | .place _ _ _ position => PlainPosition position
  | .transition _ tag position => PlainTag tag ∧ PlainPosition position
  | _ => True

theorem tagged_roleOf {tag role : Datum} {d d' : Draft} (ht : PlainTag tag)
    (h : apply (roleOf tag) d = (.ok role, d')) : role = .null ∨ ∃ s, role = .role (.text s) := by
  rcases ht with rfl | ⟨s, rfl⟩ | ⟨s, rfl⟩
  · cases h
    exact Or.inl rfl
  · obtain ⟨r, mid, hr, h⟩ := apply_bind_ok h
    cases h
    rw [apply_role] at hr
    simp only [Datum.key?] at hr
    refine Or.inr ⟨s, ?_⟩
    split at hr
    next r' hfound =>
      cases hr
      rw [Net.role?, if_pos (show (Key.text s).selfEqual = true from rfl)] at hfound
      have hkey := List.find?_some hfound
      rw [Datum.key?_eq_text.1 (of_decide_eq_true hkey)]
    next =>
      cases hr
      rfl
  · cases h
    exact Or.inr ⟨s, rfl⟩

/-- Compiling leaves a plain net plain. -/
theorem plain_index {net : Net} (hd : net.Declared) (h : net.Plain) : net.index.1.Plain := by
  rw [Net.index_fst hd.hasArcs]
  refine ⟨h.schema, h.places, fun t ht => ?_, fun t ht => ?_⟩ <;>
    obtain ⟨t', ht', rfl⟩ := List.mem_map.1 ht <;>
    obtain ⟨hrole, hposition⟩ := Transition.face_compiled net.emptyVector net.links t'
  · exact hposition ▸ h.transitions t' ht'
  · have htagged := h.tagged t' ht'
    rwa [Transition.Tagged, ← hrole] at htagged

theorem Step.keeps_plain {s : Step} (hs : s.Plain) :
    Keeps (fun d => d.net.Declared ∧ d.net.Plain) s.run := by
  refine fun d hd => ⟨s.keeps_declared d hd.1, ?_⟩
  obtain ⟨hdeclared, h⟩ := hd
  have hleaves := s.leaves d
  generalize (after s.run d).net = net at hleaves ⊢
  cases hleaves with
  | roles _ roles => exact ⟨h.schema, h.places, h.transitions, h.tagged⟩
  | place hp =>
    refine ⟨h.schema, fun q hq => ?_, h.transitions, h.tagged⟩
    rcases List.mem_append.1 hq with hq | hq
    · exact h.places q hq
    · exact List.mem_singleton.1 hq ▸ hs _ (Net.newPlace_eq_ok hp).2.2
  | transition roles _ hr hpos =>
    refine ⟨h.schema, h.places, fun t ht => ?_, fun t ht => ?_⟩ <;>
      rcases List.mem_append.1 ht with ht | ht
    · exact h.transitions t ht
    · exact List.mem_singleton.1 ht ▸ hs.2 _ hpos
    · exact h.tagged t ht
    · exact List.mem_singleton.1 ht ▸ tagged_roleOf hs.1 hr
  | arc _ => exact ⟨h.schema, h.places, h.transitions, h.tagged⟩
  | build => exact plain_index hdeclared h

/-- Plain values from a plain start make a plain net. -/
theorem plain_follow {d : Draft} {steps : List Step} (hd : d.net.Declared) (h : d.net.Plain)
    (hs : ∀ s ∈ steps, s.Plain) : (d.follow steps).net.Plain := by
  induction steps generalizing d with
  | nil => exact h
  | cons s rest ih =>
    rw [List.forall_mem_cons] at hs
    obtain ⟨hd', h'⟩ := s.keeps_plain hs.1 d ⟨hd, h⟩
    exact ih hd' h' hs.2

end Draft

end TokenNet
