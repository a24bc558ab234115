import TokenNet.Proofs.Reading
import TokenNet.Proofs.Reload
/-!
What can be written.  The export of a plain net that was built goes out in every layout as long as
its numbers are brief and what inhibits has a form in text, and its containers stand nowhere deeper
than the reader follows: `Net.Built.portable_exported`.
-/

namespace TokenNet

namespace Json

/-- Written in every layout and at every depth, with at most `k` containers inside one another, and
read as it is. -/
structure Portable (k : Nat) (d : Datum) : Prop where
  written : ∀ layout n, ∃ cs, write layout n d = .ok cs
  depth : depth d ≤ k
  read : asRead d = d

variable {k : Nat}

theorem portable_text (s : String) : Portable k (.text s) :=
  ⟨fun _ _ => ⟨_, rfl⟩, Nat.zero_le k, rfl⟩

theorem portable_null : Portable k .null := ⟨fun _ _ => ⟨_, rfl⟩, Nat.zero_le k, rfl⟩

theorem portable_bool (b : Bool) : Portable k (.bool b) :=
  ⟨fun _ _ => ⟨_, rfl⟩, Nat.zero_le k, rfl⟩

theorem portable_float {x : Binary64} (h : x.isFinite = true) : Portable k (.float x) :=
  ⟨fun _ _ => ⟨_, rfl⟩, Nat.zero_le k, by
    simp [asRead, Binary64.asRead, Binary64.isNan, h]⟩

theorem portable_int {n : Int} (h : Decimal.Brief n) : Portable k (.int n) := by
  refine ⟨fun _ _ => ?_, Nat.zero_le k, rfl⟩
  simp only [write, writeInt, Decimal.ofInt?_eq_some_iff.2 ⟨h, rfl⟩]
  exact ⟨_, rfl⟩

theorem writeItems_ok {items : List Datum} (h : ∀ d ∈ items, Portable k d) (layout : Layout)
    (n : Nat) : ∃ cs, writeItems layout n items = .ok cs := by
  induction items with
  | nil => exact ⟨[], rfl⟩
  | cons d rest ih =>
    rw [List.forall_mem_cons] at h
    obtain ⟨head, hhead⟩ := h.1.written layout n
    obtain ⟨more, hmore⟩ := ih h.2
    cases rest with
    | nil => exact ⟨head, by rw [writeItems, hhead]; rfl⟩
    | cons d' rest => exact ⟨_, by rw [writeItems, hhead]; dsimp only; rw [hmore]; rfl⟩

theorem writeEntries_ok {entries : List (String × Datum)} (h : ∀ e ∈ entries, Portable k e.2)
    (layout : Layout) (n : Nat) : ∃ cs, writeEntries layout n
      (entries.map fun (name, d) => (.text name, d)) = .ok cs := by
  induction entries with
  | nil => exact ⟨[], rfl⟩
  | cons e rest ih =>
    rw [List.forall_mem_cons] at h
    obtain ⟨value, hvalue⟩ := h.1.written layout n
    obtain ⟨more, hmore⟩ := ih h.2
    cases rest with
    | nil => exact ⟨_, by rw [List.map_cons, writeEntries, keyText, hvalue]; rfl⟩
    | cons e' rest =>
      exact ⟨_, by rw [List.map_cons, writeEntries, keyText, hvalue, hmore]; rfl⟩

theorem asRead_list (items : List Datum) : asRead (.list items) = .list (items.map asRead) := by
  rw [asRead]
  congr 1
  induction items with
  | nil => rfl
  | cons d rest ih => rw [asReadItems, ih, List.map_cons]

theorem asRead_named (entries : List (String × Datum)) :
    asRead (named entries) = named (entries.map fun e => (e.1, asRead e.2)) := by
  rw [named, asRead, named]
  congr 1
  induction entries with
  | nil => rfl
  | cons e rest ih =>
    have hname : keyName (.text e.1) = e.1 := String.ofList_toList
    simp only [List.map_cons, asReadEntries, ih, hname]

theorem portable_list {items : List Datum} (h : ∀ d ∈ items, Portable k d) :
    Portable (k + 1) (.list items) := by
  refine ⟨fun layout n => ?_, ?_, ?_⟩
  · cases items with
    | nil => exact ⟨_, rfl⟩
    | cons d rest =>
      obtain ⟨body, hbody⟩ := writeItems_ok h layout (n + 1)
      exact ⟨_, by rw [write, hbody]; rfl⟩
  · rw [Json.depth, Nat.add_le_add_iff_right]
    induction items with
    | nil => exact Nat.zero_le k
    | cons d rest ih =>
      rw [List.forall_mem_cons] at h
      exact Nat.max_le.2 ⟨h.1.depth, ih h.2⟩
  · rw [asRead_list]
    exact congrArg Datum.list
      ((List.map_congr_left fun d hd => (h d hd).read).trans (List.map_id items))

theorem portable_named {entries : List (String × Datum)} (h : ∀ e ∈ entries, Portable k e.2) :
    Portable (k + 1) (named entries) := by
  refine ⟨fun layout n => ?_, ?_, ?_⟩
  · cases entries with
    | nil => exact ⟨_, rfl⟩
    | cons e rest =>
      obtain ⟨body, hbody⟩ := writeEntries_ok h layout (n + 1)
      rw [List.map_cons] at hbody
      exact ⟨_, by rw [named, List.map_cons, write, hbody]; rfl⟩
  · rw [named, Json.depth, Nat.add_le_add_iff_right]
    induction entries with
    | nil => exact Nat.zero_le k
    | cons e rest ih =>
      rw [List.forall_mem_cons] at h
      exact Nat.max_le.2 ⟨h.1.depth, ih h.2⟩
  · rw [asRead_named]
    exact congrArg named ((List.map_congr_left fun e he => by rw [(h e he).read]; rfl).trans
      (List.map_id entries))

theorem portable_vector {v : Vec} (h : ∀ n ∈ v, Decimal.Brief n) :
    Portable (k + 1) (.list (v.map .int)) := by
  refine portable_list fun d hd => ?_
  obtain ⟨n, hn, rfl⟩ := List.mem_map.1 hd
  exact portable_int (h n hn)

/-- Doubles have far fewer digits. -/
theorem portable_exact {d : Datum} (h : d.Exact) : Portable k d := by
  rcases h with ⟨x, rfl, hx⟩ | ⟨n, hn, x, hx⟩
  · exact portable_float hx
  · cases d with
    | int m =>
      cases hn
      have hlt : 2 ^ 53 * 2 ^ 971 ≤ 10 ^ Decimal.maxRun := by decide +kernel
      exact portable_int ((Binary64.natAbs_lt_of_toInt? hx).trans_le hlt)
    | bool b => exact portable_bool b
    | _ => cases hn

end Json

/-! ## The numbers of a net -/

/-- Every whole number of the vectors is brief. -/
structure Transition.Brief (t : Transition) : Prop where
  delta : ∀ n ∈ t.delta, Decimal.Brief n
  guards : ∀ e ∈ t.guards, ∀ n ∈ e.2.delta, Decimal.Brief n

/-- Every whole number that was declared is brief, and so is the number of places. -/
structure Net.Brief (net : Net) : Prop where
  size : Decimal.Brief net.size
  initial : ∀ p ∈ net.places, Decimal.Brief p.initial
  capacity : ∀ p ∈ net.places, Decimal.Brief p.capacity
  weight : ∀ arc ∈ net.arcs, ∀ w, arc.weight = .int w → Decimal.Brief w

namespace Transition

theorem brief_set {v : Vec} (h : ∀ n ∈ v, Decimal.Brief n) (i : Nat) {w : Int}
    (hw : Decimal.Brief w) : ∀ n ∈ v.set i w, Decimal.Brief n := by
  intro n hn
  rcases List.mem_or_eq_of_mem_set hn with hn | rfl
  · exact h n hn
  · exact hw

theorem Brief.joined {zeros : Vec} {t : Transition} {link : Link} (h : t.Brief)
    (hz : ∀ n ∈ zeros, Decimal.Brief n) (hw : Decimal.Brief link.weight) :
    (t.joined zeros link).Brief := by
  unfold Transition.joined
  split
  · cases link.kind with
    | input => exact ⟨brief_set h.delta _ (Decimal.brief_neg.2 hw), h.guards⟩
    | output => exact ⟨brief_set h.delta _ hw, h.guards⟩
    | inhibitor =>
      refine ⟨h.delta, fun e he => ?_⟩
      rcases Table.mem_insert he with rfl | he
      · exact brief_set hz _ (Decimal.brief_neg.2 hw)
      · exact h.guards e he
  · exact h

/-- Compiling makes no numbers but zeros and the weights with a sign. -/
theorem brief_compiled {zeros : Vec} {links : List Link} (hz : ∀ n ∈ zeros, Decimal.Brief n)
    (hw : ∀ link ∈ links, Decimal.Brief link.weight) (t : Transition) :
    (t.compiled zeros links).Brief := by
  unfold compiled
  generalize hs : t.cleared zeros = start
  have h : start.Brief := hs ▸ ⟨hz, fun _ he => absurd he List.not_mem_nil⟩
  clear hs
  induction links generalizing start with
  | nil => exact h
  | cons link rest ih =>
    rw [List.forall_mem_cons] at hw
    exact ih hw.2 _ (h.joined hz hw.1)

end Transition

theorem Net.Built.brief_transition {config : Config} {net : Net} (h : net.Built config)
    (hs : net.Brief) {t : Transition} (ht : t ∈ net.transitions) : t.Brief := by
  rw [← h.settled t ht]
  refine Transition.brief_compiled (fun n hn => ?_) (fun link hlink => ?_) t
  · rw [(List.mem_replicate.1 hn).2]
    exact Decimal.brief_zero
  · obtain ⟨arc, harc, hlink⟩ := List.mem_filterMap.1 hlink
    have hweight := (Datum.positive?_eq_some.1 (Net.link?_eq_some hlink).1).1
    exact hs.weight arc harc link.weight hweight

/-! ## The export -/

open Json

theorem Position.Exact.portable {p : Position} (h : p.Exact) {k : Nat} :
    Portable (k + 1) p.toDatum := by
  refine portable_named ?_
  simp only [List.forall_mem_cons]
  exact ⟨portable_exact h.1, portable_exact h.2, fun _ he => absurd he List.not_mem_nil⟩

theorem Net.portable_placeDatum {p : Place} {i : Nat} (hp : p.position.Exact)
    (hi : Decimal.Brief i) (hinitial : Decimal.Brief p.initial)
    (hcapacity : Decimal.Brief p.capacity) {k : Nat} : Portable (k + 2) (Net.placeDatum i p) := by
  refine portable_named ?_
  simp only [List.forall_mem_cons]
  exact ⟨portable_int hi, portable_int hinitial, portable_int hcapacity, hp.portable,
    fun _ he => absurd he List.not_mem_nil⟩

theorem Guard.portable_toDatum {guard : Guard} (ht : guard.truths = [])
    (h : ∀ n ∈ guard.delta, Decimal.Brief n) {k : Nat} : Portable (k + 2) guard.toDatum := by
  have hspelled : guard.spelled.toDatum = .list (guard.delta.map .int) :=
    Vec.Spelled.toDatum_of_truths ht
  refine portable_named ?_
  simp only [List.forall_mem_cons, hspelled]
  exact ⟨portable_text _, portable_vector h, fun _ he => absurd he List.not_mem_nil⟩

theorem Transition.Brief.portable {t : Transition} (h : t.Brief) (hw : t.Whole)
    (hp : t.position.Exact) {k : Nat} : Portable (k + 4) t.exported := by
  have hrole : Portable (k + 3) (t.tag?.elim .null .text) := by
    cases t.tag? with
    | none => exact portable_null
    | some s => exact portable_text s
  have hguards : Portable (k + 3) (named (t.guards.map fun e => (e.1, e.2.toDatum))) := by
    refine portable_named fun e hmem => ?_
    obtain ⟨e, he, rfl⟩ := List.mem_map.1 hmem
    exact Guard.portable_toDatum (hw.guards e.1 e.2 he).2 (h.guards e he)
  refine portable_named ?_
  simp only [List.forall_mem_cons]
  exact ⟨hrole, hp.portable, portable_vector h.delta, hguards,
    fun _ he => absurd he List.not_mem_nil⟩

theorem Arc.Proper.portable {arc : Arc} (h : arc.Proper)
    (hw : ∀ w, arc.weight = .int w → Decimal.Brief w) {k : Nat} (hi : Portable k arc.inhibit) :
    Portable (k + 1) arc.exported := by
  obtain ⟨w, -, hweight⟩ := h.weight
  refine portable_named ?_
  simp only [List.forall_mem_cons, hweight]
  exact ⟨portable_text _, portable_text _, portable_int (hw w hweight), hi,
    fun _ he => absurd he List.not_mem_nil⟩

/-- A value that is read as a truth value has a form in text, unless it is bytes. -/
theorem Datum.portable_of_truth? {d : Datum} {b : Bool} (h : d.truth? = some b)
    (hd : ∀ bytes, d ≠ .bytes bytes) {k : Nat} : Portable k d := by
  cases d with
  | bool b => exact portable_bool b
  | float x =>
    refine portable_float ?_
    cases hx : x.toInt? with
    | some n => exact Binary64.isFinite_of_toInt? hx
    | none => simp [truth?, Check.bool, hx, Checked.fault, Except.toOption] at h
  | text s => exact portable_text s
  | bytes bytes => exact absurd rfl (hd bytes)
  | int n =>
    have hword : Check.inWord n = true := by
      by_contra hout
      simp [truth?, Check.bool, hout, Checked.fault, Except.toOption] at h
    have hbound : n.natAbs ≤ 2 ^ 63 := by
      simp only [Check.inWord, Bool.and_eq_true, decide_eq_true_eq] at hword
      omega
    have hlt : 2 ^ 63 < 10 ^ Decimal.maxRun := by decide +kernel
    exact portable_int (hbound.trans_lt hlt)
  | _ => cases h

namespace Net

variable {config : Config} {net : Net}

theorem Brief.portable_places (hs : net.Brief) (hp : net.Plain) :
    Portable 5 (named (net.places.zipIdx.map fun e => (e.1.label, placeDatum e.2 e.1))) := by
  refine portable_named fun e hentry => ?_
  obtain ⟨⟨p, i⟩, he, rfl⟩ := List.mem_map.1 hentry
  have hmem := List.fst_mem_of_mem_zipIdx he
  have hoffset : Decimal.Brief i := by
    refine Decimal.brief_of_natAbs_le hs.size ?_
    have := List.snd_lt_of_mem_zipIdx he
    rw [Int.natAbs_natCast, Int.natAbs_natCast, Net.size]
    omega
  exact portable_placeDatum (hp.places p hmem) hoffset (hs.initial p hmem) (hs.capacity p hmem)

theorem Built.portable_transitions (h : net.Built config) (hp : net.Plain) (hs : net.Brief) :
    Portable 5 (named (net.transitions.map fun t => (t.label, t.exported))) := by
  refine portable_named fun e hentry => ?_
  obtain ⟨t, ht, rfl⟩ := List.mem_map.1 hentry
  exact (h.brief_transition hs ht).portable (h.declared.whole t ht) (hp.transitions t ht)

theorem Built.portable_exported (h : net.Built config) (hp : net.Plain) (hs : net.Brief)
    (hi : ∀ arc ∈ net.arcs,
      arc.inhibit.truth?.isSome = true ∧ ∀ bytes, arc.inhibit ≠ .bytes bytes) :
    Portable 6 net.exported := by
  obtain ⟨s, -, hschema⟩ := hp.schema
  have harcs : Portable 5 (.list (net.arcs.map Arc.exported)) := by
    refine portable_list fun d hd => ?_
    obtain ⟨arc, harc, rfl⟩ := List.mem_map.1 hd
    obtain ⟨b, hb⟩ := Option.isSome_iff_exists.1 (hi arc harc).1
    exact (h.exportable.proper arc harc).portable (hs.weight arc harc)
      (Datum.portable_of_truth? hb (hi arc harc).2)
  refine portable_named ?_
  simp only [List.forall_mem_cons, hschema]
  exact ⟨portable_text _, portable_text _, portable_text _, hs.portable_places hp,
    h.portable_transitions hp hs, harcs, fun _ he => absurd he List.not_mem_nil⟩

end Net

end TokenNet
