import Mathlib.Algebra.Ring.Int.Defs
import TokenNet.Net.Diagram
import TokenNet.Proofs.Phrases
/-!
The lines of a diagram that join two nodes.  A line can be read back: `Edge.text_inj` finds its
kind, its weight and the ids at its two ends.  An id tells the kind of its node and the label but
for the characters that it cannot hold.
-/

namespace TokenNet

namespace Net

/-! ## Ids -/

/-- A label as an id shows it. -/
def reading (label : String) : List Char := label.toList.map fun c => if isIdChar c then c else '_'

theorem toList_diagramId (kind : Char) (label : String) :
    (diagramId kind label).toList = kind :: '_' :: reading label :=
  String.toList_ofList

theorem diagramId_inj {kind kind' : Char} {label label' : String} :
    diagramId kind label = diagramId kind' label' ↔
      kind = kind' ∧ reading label = reading label' := by
  rw [← String.toList_inj, toList_diagramId, toList_diagramId, List.cons.injEq, List.cons.injEq,
    and_iff_right (rfl : '_' = '_')]

theorem isIdChar_of_mem_reading {c : Char} {label : String} (h : c ∈ reading label) :
    isIdChar c = true := by
  obtain ⟨c', -, rfl⟩ := List.mem_map.1 h
  split
  · assumption
  · decide

/-- Ids have neither blanks nor line breaks. -/
theorem not_mem_diagramId {c kind : Char} (hc : isIdChar c = false) (hkind : isIdChar kind = true)
    (label : String) : c ∉ (diagramId kind label).toList := by
  rw [toList_diagramId, List.mem_cons, List.mem_cons, not_or, not_or]
  refine ⟨?_, ?_, fun h => ?_⟩
  · rintro rfl
    exact Bool.noConfusion (hc.symm.trans hkind)
  · rintro rfl
    exact absurd hc (by decide)
  · exact Bool.noConfusion (hc.symm.trans (isIdChar_of_mem_reading h))

/-- The ids of the nodes in the order in which they are drawn. -/
def ids (net : Net) : List String :=
  net.places.map (fun p => diagramId 'p' p.label) ++
    net.transitions.map fun t => diagramId 't' t.label

/-- No two places read alike, and no two transitions. -/
structure ReadApart (net : Net) : Prop where
  places : ((net.places.map Place.label).map reading).Nodup
  transitions : ((net.transitions.map Transition.label).map reading).Nodup

/-! ## Lines -/

theorem line_some (parts : List String) :
    line (parts.map some) = .ok (String.join ("    " :: parts)) := by
  show Failure.ofWriting (phrase (("    " :: parts).map some)) = _
  rw [phrase_some]
  rfl

theorem line_isOk_iff {parts : List Writing} :
    (∃ s, line parts = .ok s) ↔ ∀ part ∈ parts, part.isSome = true := by
  have hparts : (∃ s, line parts = .ok s) ↔ (phrase ("    " :: parts)).isSome = true := by
    unfold line Failure.ofWriting
    cases phrase ("    " :: parts) <;> simp
  rw [hparts, isSome_phrase, List.forall_mem_cons]
  exact and_iff_right rfl

theorem edgeLine_isOk_iff {place transition : String} {v : Int} :
    (∃ s, edgeLine place transition v = .ok s) ↔ Decimal.Brief v := by
  have hweight : (if 1 < v.natAbs then phrase ["|", intText v.natAbs, "|"] else some "").isSome =
      true ↔ Decimal.Brief v := by
    split
    · simp only [isSome_phrase, List.forall_mem_cons, isSome_intText_natAbs]
      simp
    next h =>
      have hbrief : Decimal.Brief v :=
        Nat.lt_of_le_of_lt (Nat.not_lt.1 h) (Nat.one_lt_pow (by decide) (by decide))
      exact iff_of_true rfl hbrief
  simp only [edgeLine]
  split <;> rw [line_isOk_iff, ← hweight] <;> simp

theorem guardLine_isOk_iff {transition key : String} {guard : Guard} :
    (∃ s, guardLine transition key guard = .ok s) ↔ Decimal.Brief guard.delta.sum := by
  rw [guardLine, line_isOk_iff]
  simp only [List.forall_mem_cons, isSome_intText_natAbs]
  simp

end Net

/-! ## Edges -/

/-- What a line between two nodes says. -/
structure Edge where
  kind : LinkKind
  place : String
  transition : String
  weight : Nat
deriving DecidableEq, Repr

namespace Edge

open Net

/-- The line that the edge is drawn as.  Of a guard the sum of its entries is drawn, so one entry
will do for all. -/
def draw (e : Edge) : Except Failure String :=
  let place := diagramId 'p' e.place
  let transition := diagramId 't' e.transition
  match e.kind with
  | .input => edgeLine place transition (-(e.weight : Int))
  | .output => edgeLine place transition e.weight
  | .inhibitor => guardLine transition e.place { label := e.place, delta := [-(e.weight : Int)] }

/-- Where the line starts. -/
def origin (e : Edge) : String :=
  if e.kind = .output then diagramId 't' e.transition else diagramId 'p' e.place

/-- Where the line ends. -/
def tip (e : Edge) : String :=
  if e.kind = .output then diagramId 'p' e.place else diagramId 't' e.transition

/-- A weight beside an arrow. -/
def tag (w : Nat) : List Char := '|' :: (Decimal.digits w ++ ['|'])

/-- A single token goes unlabelled where tokens flow. -/
def flowTag (w : Nat) : List Char := if 1 < w then tag w else []

/-- The arrow with its weight. -/
def shaft (e : Edge) : List Char :=
  if e.kind = .inhibitor then '-' :: '-' :: 'o' :: tag e.weight
  else '-' :: '-' :: '>' :: flowTag e.weight

/-- A line from one id to the other, behind four blanks. -/
def spell (origin tip : String) (shaft : List Char) : List Char :=
  [' '].intercalate [[], [], [], [], origin.toList, shaft, tip.toList]

/-- The text of the line. -/
def text (e : Edge) : List Char := spell e.origin e.tip e.shaft

variable {e e' : Edge} {s : String}

theorem line_flow (origin tip : String) {w : Nat} (h : Decimal.Brief w) :
    line [origin, " -->", if 1 < w then phrase ["|", intText w, "|"] else some "", " ", tip] =
      .ok (String.ofList (spell origin tip ('-' :: '-' :: '>' :: flowTag w))) := by
  have hweight : (if 1 < w then phrase ["|", intText w, "|"] else some "") =
      some (String.ofList (flowTag w)) := by
    rw [flowTag]
    split
    · rw [intText_natCast h]
      refine (phrase_some ["|", String.ofList (Decimal.digits w), "|"]).trans (congrArg some ?_)
      exact String.toList_inj.1 (by simp [tag])
    · rfl
  rw [hweight]
  refine (line_some [origin, " -->", String.ofList (flowTag w), " ", tip]).trans
    (congrArg Except.ok (String.toList_inj.1 ?_))
  simp [spell]

theorem line_guard (origin tip : String) {w : Nat} (h : Decimal.Brief w) :
    line [origin, " --o|", intText w, "| ", tip] =
      .ok (String.ofList (spell origin tip ('-' :: '-' :: 'o' :: tag w))) := by
  rw [intText_natCast h]
  refine (line_some [origin, " --o|", String.ofList (Decimal.digits w), "| ", tip]).trans
    (congrArg Except.ok (String.toList_inj.1 ?_))
  simp [spell, tag]

theorem draw_of_brief (hw : 0 < e.weight) (h : Decimal.Brief e.weight) :
    e.draw = .ok (String.ofList e.text) := by
  obtain ⟨kind, place, transition, w⟩ := e
  cases kind with
  | input =>
    have hback : ¬(0 < -(w : Int)) := by omega
    simp only [draw, edgeLine, Int.natAbs_neg, Int.natAbs_natCast, if_neg hback]
    exact line_flow _ _ h
  | output =>
    have hforth : 0 < (w : Int) := Int.natCast_pos.2 hw
    simp only [draw, edgeLine, Int.natAbs_natCast, if_pos hforth]
    exact line_flow _ _ h
  | inhibitor =>
    simp only [draw, guardLine, List.sum_cons, List.sum_nil, Int.add_zero, Int.natAbs_neg,
      Int.natAbs_natCast]
    exact line_guard _ _ h

theorem draw_isOk_iff : (∃ s, e.draw = .ok s) ↔ Decimal.Brief e.weight := by
  obtain ⟨kind, place, transition, w⟩ := e
  cases kind with
  | input => exact edgeLine_isOk_iff.trans Decimal.brief_neg
  | output => exact edgeLine_isOk_iff
  | inhibitor =>
    refine guardLine_isOk_iff.trans ?_
    rw [List.sum_singleton]
    exact Decimal.brief_neg

/-! ## Reading a line back -/

theorem tag_inj {m n : Nat} (h : tag m = tag n) : m = n :=
  Decimal.digits_inj (List.append_cancel_right (List.cons.inj h).2)

theorem flowTag_inj {m n : Nat} (hm : 0 < m) (hn : 0 < n) (h : flowTag m = flowTag n) : m = n := by
  unfold flowTag at h
  split at h <;> split at h
  · exact tag_inj h
  · exact absurd h (List.cons_ne_nil _ _)
  · exact absurd h.symm (List.cons_ne_nil _ _)
  · omega

theorem shaft_inj (hw : 0 < e.weight) (hw' : 0 < e'.weight) (h : e.shaft = e'.shaft) :
    (e.kind = .inhibitor ↔ e'.kind = .inhibitor) ∧ e.weight = e'.weight := by
  unfold shaft at h
  split at h <;> split at h
  next hk hk' =>
    simp only [List.cons.injEq, true_and] at h
    exact ⟨iff_of_true hk hk', tag_inj h⟩
  next => simp at h
  next => simp at h
  next hk hk' =>
    simp only [List.cons.injEq, true_and] at h
    exact ⟨iff_of_false hk hk', flowTag_inj hw hw' h⟩

/-- Nothing but digits and the strokes of arrows. -/
theorem not_mem_shaft {c : Char} (hd : Decimal.isDigit c = false) (hc : c ∉ ['-', '>', 'o', '|'])
    (e : Edge) : c ∉ e.shaft := by
  simp only [List.mem_cons, List.not_mem_nil, or_false, not_or] at hc
  have htag : ∀ w, c ∉ tag w := by
    intro w h
    rcases List.mem_cons.1 h with h | h
    · exact hc.2.2.2 h
    · rcases List.mem_append.1 h with h | h
      · exact Bool.noConfusion (hd.symm.trans (Decimal.isDigit_of_mem_digits h))
      · exact hc.2.2.2 (List.mem_singleton.1 h)
  have hflow : c ∉ flowTag e.weight := by
    unfold flowTag
    split
    · exact htag _
    · exact List.not_mem_nil
  unfold shaft
  split <;> simp [hc, htag, hflow]

/-- Ids have no such characters. -/
theorem not_mem_origin {c : Char} (hc : isIdChar c = false) (e : Edge) : c ∉ e.origin.toList := by
  unfold origin
  split
  · exact not_mem_diagramId hc (by decide) _
  · exact not_mem_diagramId hc (by decide) _

theorem not_mem_tip {c : Char} (hc : isIdChar c = false) (e : Edge) : c ∉ e.tip.toList := by
  unfold tip
  split
  · exact not_mem_diagramId hc (by decide) _
  · exact not_mem_diagramId hc (by decide) _

/-- The blanks part a line into its indentation, two ids and the arrow. -/
theorem splitOn_text (e : Edge) :
    e.text.splitOn ' ' = [[], [], [], [], e.origin.toList, e.shaft, e.tip.toList] := by
  refine List.splitOn_intercalate ' ' ?_ (List.cons_ne_nil _ _)
  have horigin := not_mem_origin (show isIdChar ' ' = false by decide) e
  have hshaft := not_mem_shaft (show Decimal.isDigit ' ' = false by decide) (by decide) e
  have htip := not_mem_tip (show isIdChar ' ' = false by decide) e
  simp [horigin, hshaft, htip]

theorem text_parts (h : e.text = e'.text) :
    e.origin = e'.origin ∧ e.shaft = e'.shaft ∧ e.tip = e'.tip := by
  have hsplit := congrArg (List.splitOn ' ') h
  rw [splitOn_text, splitOn_text] at hsplit
  simpa [String.toList_inj] using hsplit

/-- Two edges are drawn alike if they are of one kind and one weight and their ends read alike. -/
theorem text_inj (hw : 0 < e.weight) (hw' : 0 < e'.weight) :
    e.text = e'.text ↔ e.kind = e'.kind ∧ e.weight = e'.weight ∧
      reading e.place = reading e'.place ∧ reading e.transition = reading e'.transition := by
  constructor
  · intro h
    obtain ⟨horigin, hshaft, htip⟩ := text_parts h
    obtain ⟨hinhibitor, hweight⟩ := shaft_inj hw hw' hshaft
    unfold origin at horigin
    unfold tip at htip
    -- The letter in front of an id tells a place from a transition, so it tells the direction.
    split at horigin <;> split at horigin
    next hk hk' =>
      rw [if_pos hk, if_pos hk'] at htip
      exact ⟨hk.trans hk'.symm, hweight, (diagramId_inj.1 htip).2, (diagramId_inj.1 horigin).2⟩
    next => exact absurd (diagramId_inj.1 horigin).1 (by decide)
    next => exact absurd (diagramId_inj.1 horigin).1 (by decide)
    next hk hk' =>
      rw [if_neg hk, if_neg hk'] at htip
      have hkind : e.kind = e'.kind := by
        cases h : e.kind <;> cases h' : e'.kind <;> simp_all
      exact ⟨hkind, hweight, (diagramId_inj.1 horigin).2, (diagramId_inj.1 htip).2⟩
  · rintro ⟨hkind, hweight, hplace, htransition⟩
    have hp := diagramId_inj.2 ⟨(rfl : 'p' = 'p'), hplace⟩
    have ht := diagramId_inj.2 ⟨(rfl : 't' = 't'), htransition⟩
    simp only [text, origin, tip, shaft, hkind, hweight, hp, ht]

/-- No line is broken. -/
theorem break_not_mem_text (e : Edge) : '\n' ∉ e.text := by
  have horigin := not_mem_origin (show isIdChar '\n' = false by decide) e
  have hshaft := not_mem_shaft (show Decimal.isDigit '\n' = false by decide) (by decide) e
  have htip := not_mem_tip (show isIdChar '\n' = false by decide) e
  simp [text, spell, List.intercalate, horigin, hshaft, htip]

end Edge

end TokenNet
