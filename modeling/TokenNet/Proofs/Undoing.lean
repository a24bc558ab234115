import TokenNet.Proofs.Repetition
/-!
Runs taken back.  If every transition that fired has another that takes its delta back and is never
inhibited, then a run on a petri net can be undone: these fire in the opposite order, and they lead
back through the markings that the run went through.  Main statement: `Engine.run?_undone`.

That the numbers cancel is `Vec.moved_moved_negated`.  That every firing on the way back is accepted
is what the bounds are for: each leads to a marking that the run has been in, and these are within
bounds because the run was accepted, all but the first, of which it has to be asked.
-/

namespace TokenNet

namespace Vec

variable {v delta : Vec} {k : Int}

def negated (v : Vec) : Vec := v.map Neg.neg

@[simp] theorem length_negated (v : Vec) : v.negated.length = v.length := List.length_map _

theorem moved_negated (v delta : Vec) (k : Int) :
    moved v delta.negated k = moved v delta (-k) := by
  simp only [moved, negated, List.zipWith_map_right, Int.neg_mul, Int.mul_neg]

theorem moved_zero (h : v.length = delta.length) : moved v delta 0 = v := by
  induction v generalizing delta with
  | nil => rfl
  | cons value v ih =>
    cases delta with
    | nil => cases h
    | cons change delta =>
      have htail : moved v delta 0 = v := ih (Nat.succ.inj h)
      simp only [moved, List.zipWith_cons_cons, Int.mul_zero, Int.add_zero] at htail ⊢
      rw [htail]

theorem moved_moved_negated (h : v.length = delta.length) (k : Int) :
    moved (moved v delta k) delta.negated k = v := by
  rw [moved_negated, moved_moved, Int.add_right_neg, moved_zero h]

end Vec

namespace Engine

variable {e : Engine} {marking next : Vec} {move back : Datum × Datum} {trace : List Vec}
  {moves backs : List (Datum × Datum)}

/-- The second move is by the same multiplier as the first, of a transition without guards whose
delta is that of the first transition, entry by entry negated. -/
structure Undoes (e : Engine) (move back : Datum × Datum) : Prop where
  transition : ∃ t u, e.transition move.1 = .ok t ∧ e.transition back.1 = .ok u ∧
    u.guards = [] ∧ u.delta = t.delta.negated
  multiplier : back.2 = move.2

/-- One firing: what it leaves is within bounds, and the way back from there is open. -/
theorem accepted?_undone (hd : e.net.discipline = .petriNet)
    (hm : Vec.InBounds e.capacity marking) (h : e.accepted? marking move = some next)
    (hback : e.Undoes move back) :
    Vec.InBounds e.capacity next ∧ e.accepted? next back = some marking := by
  obtain ⟨t, k, ht, hk, -, hlen, hcap, hpass, hnext⟩ :=
    (accepted?_under (e := e) (d := e.net.discipline)).1 h
  obtain ⟨⟨t', u, ht', hu, hg, hdelta⟩, hmul⟩ := hback
  obtain rfl : t' = t := Except.ok.inj (ht'.symm.trans ht)
  obtain ⟨hk, hpos⟩ := multiplier_eq_ok.1 hk
  rw [hd] at hpass hnext
  have hin : Vec.InBounds e.capacity next := by
    rw [hnext]
    exact Vec.within_iff_inBounds.1 hpass
  have hundone : Vec.moved next u.delta k = marking := by
    rw [hnext, hdelta]
    exact Vec.moved_moved_negated hlen k
  have hcap' : u.delta.length = e.capacity.length := by rw [hdelta, Vec.length_negated, hcap]
  refine ⟨hin, ?_⟩
  have hback : back = (back.1, .int k) := Prod.ext rfl (hmul.trans hk)
  rw [hback, accepted?_of_unguarded hu hg hpos (hin.length.trans hcap'.symm) hcap', hundone, hd]
  exact if_pos (Vec.within_iff_inBounds.2 hm)

/-- A run from a marking within bounds, on a petri net, and moves that undo its moves one by one.
From where the run ended they are all accepted in the opposite order, and they pass through the
markings of the run, back to the one that it started from. -/
theorem run?_undone (hd : e.net.discipline = .petriNet) (hm : Vec.InBounds e.capacity marking)
    (h : e.run? marking moves = some trace) (hback : List.Forall₂ e.Undoes moves backs) :
    e.run? (trace.getLastD marking) backs.reverse = some (marking :: trace).reverse.tail ∧
      (marking :: trace).reverse.tail.getLastD (trace.getLastD marking) = marking := by
  induction hback generalizing marking trace with
  | nil =>
    cases h
    exact ⟨rfl, rfl⟩
  | @cons move back moves backs hfirst _ ih =>
    rw [run?] at h
    cases hnext : e.accepted? marking move with
    | none => simp [hnext] at h
    | some next =>
      rw [hnext] at h
      obtain ⟨later, hlater, rfl⟩ := Option.map_eq_some_iff.1 h
      obtain ⟨hin, hreturn⟩ := accepted?_undone hd hm hnext hfirst
      obtain ⟨hrun, hlast⟩ := ih hin hlater
      have hpath : (marking :: next :: later).reverse.tail =
          (next :: later).reverse.tail ++ [marking] := by
        rw [List.reverse_cons, List.tail_append_of_ne_nil (by simp)]
      rw [List.getLastD_cons, hpath, List.reverse_cons, run?_append, hrun, Option.bind_some,
        hlast, run?, hreturn]
      exact ⟨rfl, by simp⟩

end Engine

/-! ## A lock that is filled and drained -/

namespace Sluice

/-- Water is let into the chamber, unless a boat is in the gate, and it is let out again. -/
def steps : List Draft.Step :=
  [.place (.text "river") (.int 5) .null .null, .place (.text "chamber") .null (.int 4) .null,
    .place (.text "gate") .null .null .null, .transition (.text "fill") .null .null,
    .transition (.text "drain") .null .null,
    .arc (.place "river") (.transition "fill") (.int 1) (.bool false),
    .arc (.transition "fill") (.place "chamber") (.int 1) (.bool false),
    .arc (.place "gate") (.transition "fill") (.int 1) (.bool true),
    .arc (.place "chamber") (.transition "drain") (.int 1) (.bool false),
    .arc (.transition "drain") (.place "river") (.int 1) (.bool false), .build]

def net : Net := (Draft.follow { net := { schema := .text "sluice" } } steps).net

def engine : Engine := { net, capacity := net.capacityVector }

set_option maxRecDepth 1024 in
theorem undoes (k : Int) : engine.Undoes (.text "fill", .int k) (.text "drain", .int k) :=
  ⟨⟨_, _, rfl, rfl, rfl, rfl⟩, rfl⟩

end Sluice

namespace Engine

open Sluice

set_option maxRecDepth 1024 in
/-- Filled by one and by three, the chamber is drained by three and by one. -/
theorem sluice_undone :
    engine.run? [5, 0, 0] [(.text "fill", .int 1), (.text "fill", .int 3)] =
        some [[4, 1, 0], [1, 4, 0]] ∧
      engine.run? [1, 4, 0] [(.text "drain", .int 3), (.text "drain", .int 1)] =
        some [[4, 1, 0], [5, 0, 0]] := by
  have hrun : engine.run? [5, 0, 0] [(.text "fill", .int 1), (.text "fill", .int 3)] =
      some [[4, 1, 0], [1, 4, 0]] := by cbv
  have hstart : Vec.InBounds engine.capacity [5, 0, 0] := Vec.within_iff_inBounds.1 rfl
  exact ⟨hrun, (run?_undone rfl hstart hrun (.cons (undoes 1) (.cons (undoes 3) .nil))).1⟩

end Engine

end TokenNet
