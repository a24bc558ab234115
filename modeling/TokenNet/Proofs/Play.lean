import TokenNet.Proofs.Board
import TokenNet.Proofs.Repetition
import TokenNet.Proofs.Replay
import TokenNet.Proofs.Unedited
/-!
Tic-tac-toe is played by the rules.  A game so far is the list of the cells that were played, and
the marking that it leads to is `Sample.position`: who plays next has the one turn token, and a cell
has a token until it is played.  `Engine.accepted?_position` is the step: there, exactly the moves
of the next player to a free cell are accepted, by the multiplier one.  So exactly the games are
accepted from the start, `Engine.isSome_run?_iff`, and what a stream accepted is a game, whatever
else was dispatched to it: `World.Ran.plays_by_rules`.
-/

namespace TokenNet

namespace Sample

/-! ## Games -/

/-- Who plays when this many cells have been played. -/
def mover (count : Nat) : Player :=
  if count % 2 = 0 then ⟨"X", "O", -60⟩ else ⟨"O", "X", 60⟩

/-- No cell is played twice. -/
structure Game (played : List (Nat × Nat)) : Prop where
  distinct : played.Nodup
  onBoard : ∀ cell ∈ played, cell ∈ cells

/-- What is fired for the cells in turn. -/
def moves (played : List (Nat × Nat)) : List (Datum × Datum) :=
  played.mapIdx fun i cell => (.text ((mover i).mark ++ cellName cell), .int 1)

/-- What the place holds when these cells have been played. -/
def tokens (played : List (Nat × Nat)) (place : String) : Int :=
  if place = (mover played.length).mark then 1
  else if place = (mover played.length).opponent ∨ place ∈ played.map cellName then 0
  else 1

def position (played : List (Nat × Nat)) : Vec := placeNames.map (tokens played)

variable {played : List (Nat × Nat)} {cell : Nat × Nat} {place : String}

theorem mover_mem (count : Nat) : mover count ∈ players := by
  unfold mover
  split <;> simp [players]

theorem mark_mover (count : Nat) : (mover count).mark = if count % 2 = 0 then "X" else "O" := by
  unfold mover
  split <;> rfl

/-- The players take turns. -/
theorem mover_succ (count : Nat) : (mover (count + 1)).mark = (mover count).opponent ∧
    (mover (count + 1)).opponent = (mover count).mark := by
  rcases Nat.mod_two_eq_zero_or_one count with h | h
  · have hnext : (count + 1) % 2 = 1 := by omega
    simp [mover, h, hnext]
  · have hnext : (count + 1) % 2 = 0 := by omega
    simp [mover, h, hnext]

theorem eq_mover {player : Player} (h : player ∈ players) (count : Nat) :
    player = mover count ∨ player.mark = (mover count).opponent := by
  simp only [players, List.mem_cons, List.not_mem_nil, or_false] at h
  unfold mover
  split <;> rcases h with rfl | rfl <;> simp

theorem Game.nil : Game [] := ⟨List.nodup_nil, fun _ h => absurd h List.not_mem_nil⟩

/-- A game goes on with any cell that is free. -/
theorem game_append : Game (played ++ [cell]) ↔ Game played ∧ cell ∈ cells ∧ cell ∉ played := by
  constructor
  · intro h
    obtain ⟨hdistinct, -, hnew⟩ := List.nodup_append.1 h.distinct
    obtain ⟨hcells, hcell⟩ := List.forall_mem_append.1 h.onBoard
    exact ⟨⟨hdistinct, hcells⟩, hcell cell (.head _), fun hin => hnew cell hin cell (.head _) rfl⟩
  · rintro ⟨h, hcell, hfree⟩
    refine ⟨List.nodup_append.2 ⟨h.distinct, List.nodup_singleton cell, fun a ha b hb he => ?_⟩,
      List.forall_mem_append.2 ⟨h.onBoard, List.forall_mem_singleton.2 hcell⟩⟩
    exact hfree (List.mem_singleton.1 hb ▸ he ▸ ha)

theorem Game.length_le (h : Game played) : played.length ≤ 9 :=
  (List.subperm_of_subset h.distinct h.onBoard).length_le

/-- A cell of the board bears its name alone. -/
theorem Game.cellName_mem_iff (h : Game played) (hcell : cell ∈ cells) :
    cellName cell ∈ played.map cellName ↔ cell ∈ played := by
  refine ⟨fun hmem => ?_, List.mem_map_of_mem⟩
  obtain ⟨other, hother, hname⟩ := List.mem_map.1 hmem
  have hsame := List.inj_on_of_nodup_map nodup_cellNames (h.onBoard other hother) hcell hname
  exact hsame ▸ hother

theorem moves_append (played : List (Nat × Nat)) (cell : Nat × Nat) : moves (played ++ [cell]) =
    moves played ++ [(.text ((mover played.length).mark ++ cellName cell), .int 1)] := by
  simp only [moves, List.mapIdx_concat]

theorem position_nil (schema : Datum) : position [] = (board schema).initialVector := by
  rw [initialVector_board]
  decide +kernel

theorem tokens_eq_zero_or_one (played : List (Nat × Nat)) (place : String) :
    tokens played place = 0 ∨ tokens played place = 1 := by
  unfold tokens
  split
  · exact .inr rfl
  · split
    · exact .inl rfl
    · exact .inr rfl

theorem tokens_cell (h : Game played) (hcell : cell ∈ cells) :
    tokens played (cellName cell) = if cell ∈ played then 0 else 1 := by
  have hmark := cellName_ne_mark hcell (mover_mem played.length)
  have hopponent := cellName_ne_opponent hcell (mover_mem played.length)
  simp only [tokens, if_neg hmark, hopponent, false_or, h.cellName_mem_iff hcell]

/-- What a move adds at a place makes the next position. -/
theorem tokens_append (hcell : cell ∈ cells) (hfree : cellName cell ∉ played.map cellName)
    (place : String) : tokens (played ++ [cell]) place =
      tokens played place + Ply.change ⟨mover played.length, cell⟩ place := by
  have hplayer := mover_mem played.length
  have hmark := cellName_ne_mark hcell hplayer
  have hopponent := cellName_ne_opponent hcell hplayer
  have hturns := mark_ne_opponent hplayer
  obtain ⟨hnext, hlast⟩ := mover_succ played.length
  simp only [tokens, Ply.change, List.length_append, List.length_singleton, hnext, hlast,
    List.map_append, List.map_cons, List.map_nil, List.mem_append, List.mem_singleton]
  -- The turn that is taken, the turn that is handed over, the cell that is played, all others.
  by_cases hm : place = (mover played.length).mark
  · subst hm
    simp [hturns]
  · by_cases ho : place = (mover played.length).opponent
    · subst ho
      simp [hturns.symm, hopponent.symm]
    · by_cases hc : place = cellName cell
      · subst hc
        simp [hmark, hopponent, hfree]
      · simp only [hm, ho, hc, if_false, false_or, or_false, Int.add_zero]

theorem length_position (played : List (Nat × Nat)) :
    (position played).length = placeNames.length := List.length_map _

theorem moved_position (m : Ply) (k : Int) : Vec.moved (position played) m.compiled.delta k =
    placeNames.map fun place => tokens played place + m.change place * k := by
  simp only [position, Ply.compiled, Vec.moved, List.zipWith_map, List.zipWith_self]

theorem moved_position_mover (hcell : cell ∈ cells) (hfree : cellName cell ∉ played.map cellName) :
    Vec.moved (position played) (Ply.compiled ⟨mover played.length, cell⟩).delta 1 =
      position (played ++ [cell]) := by
  simp only [moved_position, Int.mul_one, ← tokens_append hcell hfree]
  rfl

/-- What does not drive a place below zero is a move of the next player to a free cell. -/
theorem mover_of_nonneg {m : Ply} {k : Int} (hm : m ∈ plies) (hk : 0 < k)
    (h : (Vec.moved (position played) m.compiled.delta k).Nonneg) :
    m.player = mover played.length ∧ cellName m.cell ∉ played.map cellName ∧ k = 1 := by
  obtain ⟨hcell, hplayer⟩ := mem_plies.1 hm
  have hentry : ∀ place ∈ placeNames, 0 ≤ tokens played place + m.change place * k := by
    intro place hplace
    rw [moved_position] at h
    exact h _ (List.mem_map_of_mem hplace)
  have hturn := hentry _ (mark_mem hplayer)
  have hfree := hentry _ (cellName_mem hcell)
  have hdown : m.change m.player.mark = -1 ∧ m.change (cellName m.cell) = -1 := by
    simp [Ply.change]
  rw [hdown.1] at hturn
  rw [hdown.2] at hfree
  have hone := tokens_eq_zero_or_one played m.player.mark
  have hmover : m.player = mover played.length := by
    rcases eq_mover hplayer played.length with hmover | hother
    · exact hmover
    · have hnone : tokens played m.player.mark = 0 := by
        have hne := mark_ne_opponent (mover_mem played.length)
        simp [tokens, hother, hne.symm]
      omega
  refine ⟨hmover, fun hmem => ?_, by omega⟩
  have hnone : tokens played (cellName m.cell) = 0 := by
    have hne := cellName_ne_mark hcell (mover_mem played.length)
    simp only [tokens, if_neg hne, hmem, or_true, if_true]
  omega

/-! ## What is on the board -/

/-- The sample has been built as a petri net. -/
def Built (d : Draft) : Prop := ∃ self schema config opened,
  Draft.open? self schema (.text "petriNet") config = .ok opened ∧
    Act.apply (Draft.declare ticTacToe) opened = (.ok (), d)

theorem Built.net_eq {d : Draft} (h : Built d) : ∃ schema, d.net = board schema := by
  obtain ⟨self, schema, config, opened, hopen, hdeclare⟩ := h
  obtain rfl : { self, net := { schema }, config } = opened := Except.ok.inj hopen
  obtain ⟨notes, hbuilt⟩ := apply_declare_ticTacToe self schema config
  rw [hbuilt] at hdeclare
  obtain ⟨-, rfl⟩ := Prod.mk.inj hdeclare
  exact ⟨schema, rfl⟩

end Sample

/-- What a marking of the net has at the place with this label. -/
def Net.tokens? (net : Net) (marking : Vec) (label : String) : Option Int :=
  (net.offset? label).bind fun i => marking[i]?

namespace Sample

variable {played : List (Nat × Nat)} {cell : Nat × Nat} {place : String}

theorem tokens?_position (schema : Datum) (h : place ∈ placeNames) :
    (board schema).tokens? (position played) place = some (tokens played place) := by
  have hlabels : (board schema).places.map Place.label = placeNames := labels_places
  rw [← hlabels] at h
  obtain ⟨p, hp, rfl⟩ := List.mem_map.1 h
  obtain ⟨i, hi⟩ := List.mem_iff_getElem?.1 hp
  have hlabel : placeNames[i]? = some p.label := by
    rw [← hlabels, List.getElem?_map, hi, Option.map_some]
  rw [Net.tokens?, Net.offset?_of_nodup (hlabels ▸ nodup_placeNames) hi, Option.bind_some, position,
    List.getElem?_map, hlabel, Option.map_some]

/-- One player has the turn and the other has not. -/
theorem tokens_turns (played : List (Nat × Nat)) :
    tokens played "X" = 1 ∧ tokens played "O" = 0 ∨
      tokens played "X" = 0 ∧ tokens played "O" = 1 := by
  unfold tokens mover
  split
  · exact .inl ⟨rfl, rfl⟩
  · exact .inr ⟨rfl, rfl⟩

/-- Every cell of the board is played or free. -/
theorem Game.length_free (h : Game played) :
    (cells.filter fun cell => decide (cell ∉ played)).length = 9 - played.length := by
  have hcells : cells.Nodup := .of_map _ nodup_cellNames
  have hplayed : (cells.filter fun cell => decide (cell ∈ played)).Perm played := by
    refine (List.perm_ext_iff_of_nodup (hcells.filter _) h.distinct).2 fun cell => ?_
    simpa using h.onBoard cell
  have hsplit : cells.length = (cells.filter fun cell => decide (cell ∈ played)).length +
      (cells.filter fun cell => decide (cell ∉ played)).length := by
    simpa [List.countP_eq_length_filter] using
      cells.length_eq_countP_add_countP fun cell => decide (cell ∈ played)
  rw [hplayed.length_eq] at hsplit
  have hnine : cells.length = 9 := rfl
  omega

end Sample

open Sample

/-! ## One move -/

namespace Engine

variable {e : Engine} {schema : Datum} {played : List (Nat × Nat)} {move : Datum × Datum}
  {next : Vec}

theorem discipline_of_board (hnet : e.net = board schema) : e.net.discipline = .petriNet := by
  rw [hnet]
  rfl

/-- An accepted move carries the game on. -/
theorem exists_of_accepted?_position (hnet : e.net = board schema)
    (h : e.accepted? (position played) move = some next) : ∃ cell ∈ cells, cell ∉ played ∧
      move = (.text ((mover played.length).mark ++ cellName cell), .int 1) ∧
      next = position (played ++ [cell]) := by
  obtain ⟨action, multiplier⟩ := move
  obtain ⟨t, k, ht, hk, -, -, -, hpass, hnext⟩ :=
    (accepted?_under (e := e) (d := e.net.discipline)).1 h
  obtain ⟨label, rfl, -, hfind⟩ := transition_eq_ok.1 ht
  obtain ⟨rfl, hpos⟩ := multiplier_eq_ok.1 hk
  rw [discipline_of_board hnet] at hpass hnext
  rw [hnet] at hfind
  obtain ⟨m, hm, rfl, rfl⟩ := transition?_board.1 hfind
  obtain ⟨hmover, hfree, rfl⟩ := mover_of_nonneg hm hpos (nonneg_of_within hpass)
  obtain ⟨player, cell⟩ := m
  obtain rfl : player = mover played.length := hmover
  have hcell := (mem_plies.1 hm).1
  exact ⟨cell, hcell, fun hin => hfree (List.mem_map_of_mem hin), rfl,
    hnext.trans (moved_position_mover hcell hfree)⟩

/-- In a position exactly the moves of the next player to a free cell are accepted. -/
theorem accepted?_position (hnet : e.net = board schema) (hcap : e.capacity = e.net.capacityVector)
    (hgame : Game played) : e.accepted? (position played) move = some next ↔
      ∃ cell ∈ cells, cell ∉ played ∧
        move = (.text ((mover played.length).mark ++ cellName cell), .int 1) ∧
        next = position (played ++ [cell]) := by
  refine ⟨exists_of_accepted?_position hnet, ?_⟩
  rintro ⟨cell, hcell, hfree, rfl, rfl⟩
  have hm : (⟨mover played.length, cell⟩ : Ply) ∈ plies := mem_plies.2 ⟨hcell, mover_mem _⟩
  have hfree : cellName cell ∉ played.map cellName := mt (hgame.cellName_mem_iff hcell).1 hfree
  have hfind : e.net.transition? ((mover played.length).mark ++ cellName cell) =
      some (Ply.compiled ⟨mover played.length, cell⟩) := by
    rw [hnet]
    exact transition?_board.2 ⟨_, hm, rfl, rfl⟩
  have hnamed : ((mover played.length).mark ++ cellName cell).isEmpty = false := by
    have hne := Ply.name_ne_empty hm
    simpa [String.isEmpty_iff, Ply.name] using hne
  have ht := transition_eq_ok.2 ⟨_, rfl, hnamed, hfind⟩
  have hcapacity : e.capacity = placeNames.map fun _ => 1 := by
    rw [hcap, hnet, capacityVector_board]
  have hpass : Discipline.petriNet.accepts e.capacity (position (played ++ [cell])) = true := by
    rw [Discipline.accepts, hcapacity, position, Vec.within_map, List.all_eq_true]
    intro place _
    rcases tokens_eq_zero_or_one (played ++ [cell]) place with h | h <;> rw [h] <;> rfl
  have hsize : (Ply.compiled ⟨mover played.length, cell⟩).delta.length = placeNames.length :=
    List.length_map _
  rw [accepted?_of_unguarded ht rfl Int.one_pos ((length_position played).trans hsize.symm)
    (hsize.trans (by rw [hcapacity, List.length_map])), moved_position_mover hcell hfree,
    discipline_of_board hnet, if_pos hpass]
  rfl

/-! ## Whole games -/

/-- What is accepted from the start is a game, by induction from its end. -/
theorem exists_game_of_run? {ms : List (Datum × Datum)} {trace : List Vec}
    (hnet : e.net = board schema) (h : e.run? e.net.initialVector ms = some trace) :
    ∃ played, Game played ∧ ms = moves played ∧
      trace.getLastD e.net.initialVector = position played := by
  induction ms using List.reverseRecOn generalizing trace with
  | nil =>
    cases h
    have hstart : e.net.initialVector = position [] := by rw [hnet, position_nil schema]
    exact ⟨[], .nil, rfl, hstart⟩
  | append_singleton ms move ih =>
    rw [run?_append] at h
    obtain ⟨earlier, hearlier, hlater⟩ := Option.bind_eq_some_iff.1 h
    obtain ⟨played, hgame, rfl, hlast⟩ := ih hearlier
    rw [hlast, run?] at hlater
    cases hmove : e.accepted? (position played) move with
    | none => simp [hmove] at hlater
    | some next =>
      obtain ⟨cell, hcell, hfree, rfl, rfl⟩ := exists_of_accepted?_position hnet hmove
      simp only [hmove, run?, Option.map_some, Option.some.injEq] at hlater
      refine ⟨played ++ [cell], game_append.2 ⟨hgame, hcell, hfree⟩,
        (moves_append played cell).symm, ?_⟩
      rw [← hlater, List.getLastD_concat]

/-- Every game is accepted to its end. -/
theorem run?_moves (hnet : e.net = board schema) (hcap : e.capacity = e.net.capacityVector)
    (hgame : Game played) : ∃ trace, e.run? e.net.initialVector (moves played) = some trace ∧
      trace.getLastD e.net.initialVector = position played := by
  induction played using List.reverseRecOn with
  | nil => exact ⟨[], rfl, by rw [hnet, position_nil schema]; rfl⟩
  | append_singleton played cell ih =>
    obtain ⟨hearlier, hcell, hfree⟩ := game_append.1 hgame
    obtain ⟨trace, htrace, hlast⟩ := ih hearlier
    have hmove := (accepted?_position hnet hcap hearlier).2 ⟨cell, hcell, hfree, rfl, rfl⟩
    refine ⟨trace ++ [position (played ++ [cell])], ?_, List.getLastD_concat⟩
    rw [moves_append, run?_append, htrace, Option.bind_some, hlast, run?, hmove]
    rfl

/-- Played from the start, exactly the games are accepted. -/
theorem isSome_run?_iff {ms : List (Datum × Datum)} (hnet : e.net = board schema)
    (hcap : e.capacity = e.net.capacityVector) :
    (e.run? e.net.initialVector ms).isSome = true ↔ ∃ played, Game played ∧ ms = moves played := by
  rw [Option.isSome_iff_exists]
  constructor
  · rintro ⟨trace, htrace⟩
    obtain ⟨played, hgame, hmoves, -⟩ := exists_game_of_run? hnet htrace
    exact ⟨played, hgame, hmoves⟩
  · rintro ⟨played, hgame, rfl⟩
    obtain ⟨trace, htrace, -⟩ := run?_moves hnet hcap hgame
    exact ⟨trace, htrace⟩

end Engine

/-! ## All that a stream accepts -/

theorem Mark.left_eq_getLastD (start : Vec) (fs : List Firing) :
    left start fs = (fs.map fun f => f.next).reverse.getLastD start := by
  rw [left, List.getLastD_eq_getLast?, List.getLast?_reverse, List.head?_map]

/-- What one engine fired for a net is a run of that engine, by induction from the earliest. -/
theorem Mark.Chained.run?_eq {e : Engine} {fs : List Firing} (h : Chained fs)
    (he : ∀ f ∈ fs, f.engine = e) : e.run? e.net.initialVector
      (fs.map fun f => f.event.move).reverse = some (fs.map fun f => f.next).reverse := by
  induction fs with
  | nil => rfl
  | cons f rest ih =>
    obtain ⟨hok, hfire, hrest⟩ := h
    rw [he f List.mem_cons_self, left_eq_getLastD] at hfire
    have hmove : e.accepted? ((rest.map fun f => f.next).reverse.getLastD e.net.initialVector)
        f.event.move = some f.next := by
      simp only [Engine.accepted?, Event.move, hfire, hok, if_true]
    rw [List.map_cons, List.reverse_cons, Engine.run?_append,
      ih hrest fun g hg => he g (List.mem_cons_of_mem _ hg), Option.bind_some, Engine.run?, hmove,
      List.map_cons, List.reverse_cons]
    rfl

/-- The call neither edits the net nor makes a stream forget a marking. -/
def Op.Plays {ω : Type} (n : Nat) : Op ω → Prop
  | edit id _ => id ≠ n
  | update _ | restart => False
  | _ => True

theorem Op.Plays.spares {ω : Type} {n : Nat} {op : Op ω} (h : op.Plays n) : op.Spares n := by
  cases op with
  | edit id step => exact h
  | _ => trivial

namespace World

variable {ω : Type} {w w' : World ω} {n : Nat} {d : Draft} {op : Op ω} {name : Datum} {key : Key}
  {inst : Installation}

/-- On a stream that never forgot, all of history is told of. -/
structure Unforgotten (w : World ω) : Prop where
  fired : ∀ mark ∈ w.journal, ∃ f, mark = .fired f

theorem Unforgotten.journal (h : w.Unforgotten) (hj : w'.journal = w.journal) : w'.Unforgotten :=
  ⟨hj ▸ h.fired⟩

theorem Unforgotten.effect (hw : w.Unforgotten) (hop : op.Plays n) (h : op.effect w = .ok w') :
    w'.Unforgotten := by
  cases op with
  | update | restart => exact hop.elim
  | dispatch r =>
    cases h
    cases hf : w.stream.firing? w.catalog r with
    | none => exact hw
    | some f => exact ⟨List.forall_mem_cons.2 ⟨⟨f, rfl⟩, hw.fired⟩⟩
  | edit id step =>
    cases h
    unfold edited
    split <;> exact hw.journal rfl
  | advance =>
    simp only [Op.effect, advanced] at h
    split at h
    · cases h
      exact hw.journal rfl
    · cases h
  | reload | reset =>
    cases h
    exact hw.journal rfl
  | draft | load | install | on | off | onEvery | onFail | onReload =>
    obtain ⟨_, -, h⟩ := Failure.ok_of_bind h
    cases h
    exact hw.journal rfl

theorem Unforgotten.fresh_eq (h : w.Unforgotten) (key : Key) :
    Mark.fresh key w.journal = Mark.recorded w.journal := by
  have hfired := h.fired
  generalize w.journal = journal at hfired
  induction journal with
  | nil => rfl
  | cons mark rest ih =>
    obtain ⟨⟨f, rfl⟩, hrest⟩ := List.forall_mem_cons.1 hfired
    rw [Mark.fresh, Mark.recorded, ih hrest]

theorem Unforgotten.accepted_eq (h : w.Unforgotten) (hw : w.Kept) (key : Key) :
    (w.accepted key).reverse =
      (w.stream.history.filter fun entry => entry.event.names key).map
        fun entry => entry.event.move := by
  have hlength : (Mark.fresh key w.journal).length = w.stream.history.reverse.length := by
    have hrecorded := congrArg List.length hw.recorded
    simpa [h.fresh_eq] using hrecorded.symm
  rw [accepted, World.fresh, hlength, List.take_length, ← List.map_reverse, ← List.filter_reverse,
    List.reverse_reverse]

theorem Spared.game (hw : Spared n d w) {schema : Datum} (hd : d.net = board schema)
    (hl : w.stream.lookup name = .ok (key, inst)) (hn : inst.net = n) : ∃ played, Game played ∧
      (w.accepted key).reverse = moves played ∧
      w.stream.marking w.catalog name = .ok (position played) := by
  have he : inst.engine w.catalog = { net := d.net, capacity := inst.capacity } :=
    engine_of_draft (hn ▸ hw.draft)
  obtain ⟨played, hgame, hmoves, hlast⟩ :=
    Engine.exists_game_of_run? (e := { net := d.net, capacity := inst.capacity }) hd
      ((hw.linked.chained key).run?_eq (hw.fired key inst (Stream.lookup_eq_ok hl).2 hn))
  refine ⟨played, hgame, by rw [hw.linked.kept.accepted_eq, hmoves], ?_⟩
  simp only [Stream.marking, hl, bind, Except.bind, pure, Except.pure, hw.linked.kept.held_eq, he,
    Mark.left_eq_getLastD, hlast]

theorem spared_of_withOpened {timebase : Timebase} {config : Config} {nets : List Operand}
    (h : w.withOpened timebase config nets = .ok w') (hd : w.drafts[n]? = some d) :
    Spared n d w' ∧ w'.Unforgotten := by
  obtain ⟨hkept, hjournal⟩ := kept_of_withOpened h
  obtain ⟨s, -, rfl⟩ := withOpened_eq_ok h
  exact ⟨⟨⟨hkept, fun _ => trivial⟩, hd, fun _ _ _ _ _ hf => absurd hf List.not_mem_nil⟩,
    ⟨fun _ hmark => absurd hmark List.not_mem_nil⟩⟩

/-- The step of every run of such calls. -/
theorem kept_of_plays (hop : op.Plays n) (h : op.effect w = .ok w')
    (hw : Spared n d w ∧ w.Unforgotten) : Spared n d w' ∧ w'.Unforgotten := by
  refine ⟨?_, hw.2.effect hop h⟩
  rcases move_of_effect h with rfl | hmove
  · exact hw.1
  · exact hw.1.move hmove (draft_of_effect hop.spares h hw.1.draft)

/-- A stream over the sample as a petri net, and programs and observers of any kind that neither
edit the sample nor make the stream forget a marking.  Whatever they dispatch, what was accepted for
the sample so far is one move after another by the multiplier one: X and O take turns, X first, and
they play different cells, so there are nine moves at most.  In the current marking one of the two
turns has one token and the other has none, a cell has none if it was played and one if not, and as
many cells are free as there are moves left. -/
theorem Ran.plays_by_rules {before start : World ω} {b : Behaviour ω} {timebase : Timebase}
    {config : Config} {nets : List Operand} (hbuilt : Built d) (hd : before.drafts[n]? = some d)
    (hopen : before.withOpened timebase config nets = .ok start) (hb : b.All (Op.Plays n))
    (h : Ran b (Op.Plays n) start w) (hl : w.stream.lookup name = .ok (key, inst))
    (hn : inst.net = n) : ∃ (played : List (Nat × Nat)) (marking : Vec),
      (w.stream.history.filter fun entry => entry.event.names key).map
          (fun entry => entry.event.move) =
        played.mapIdx (fun i cell =>
          (.text ((if i % 2 = 0 then "X" else "O") ++ cellName cell), .int 1)) ∧
      played.Nodup ∧ (∀ cell ∈ played, cell ∈ cells) ∧ played.length ≤ 9 ∧
      w.stream.marking w.catalog name = .ok marking ∧
      (d.net.tokens? marking "X" = some 1 ∧ d.net.tokens? marking "O" = some 0 ∨
        d.net.tokens? marking "X" = some 0 ∧ d.net.tokens? marking "O" = some 1) ∧
      (∀ cell ∈ cells,
        d.net.tokens? marking (cellName cell) = some (if cell ∈ played then 0 else 1)) ∧
      (cells.filter fun cell =>
        decide (d.net.tokens? marking (cellName cell) = some 1)).length = 9 - played.length := by
  obtain ⟨schema, hnet⟩ := hbuilt.net_eq
  obtain ⟨hspared, hall⟩ := h.keeps (fun op hop _ _ => kept_of_plays hop) hb
    (spared_of_withOpened hopen hd)
  obtain ⟨played, hgame, hmoves, hmarking⟩ := hspared.game hnet hl hn
  have hcell : ∀ cell ∈ cells, d.net.tokens? (position played) (cellName cell) =
      some (if cell ∈ played then 0 else 1) := fun cell hcell => by
    rw [hnet, tokens?_position schema (cellName_mem hcell), tokens_cell hgame hcell]
  refine ⟨played, position played, ?_, hgame.distinct, hgame.onBoard, hgame.length_le, hmarking,
    ?_, hcell, ?_⟩
  · rw [← hall.accepted_eq hspared.linked.kept, hmoves, moves]
    simp only [mark_mover]
  · have hx : "X" ∈ placeNames := by decide +kernel
    have ho : "O" ∈ placeNames := by decide +kernel
    rw [hnet, tokens?_position schema hx, tokens?_position schema ho]
    simpa only [Option.some.injEq] using tokens_turns played
  · rw [← hgame.length_free]
    refine congrArg List.length (List.filter_congr fun cell h => ?_)
    rw [hcell cell h]
    by_cases hin : cell ∈ played <;> simp [hin]

end World

/-! ## A game that is begun -/

namespace Oxo

/-- The sample as it is built; notes were taken of that. -/
def draft (notes : List Note) : Draft :=
  { self := 0, net := board (.text "oxo"), config := .default, notes }

def request (action : String) (k : Int) : Request :=
  { value := .text "oxo", action := .text action, multiplier := .int k }

/-- Whatever happens, it plays for O in a corner and then fails. -/
def rival : Behaviour Unit where
  onOutcome _ _ := .call (.dispatch (request "O00" 1)) fun _ _ => .done (.error (.raised "mine"))
  onReload _ _ := .done (.ok ())

def before (notes : List Note) : World Unit := { drafts := [draft notes] }

def start (notes : List Note) : World Unit :=
  match (before notes).withOpened (.ofStep (.int 1)) .default [.net 0] with
  | .ok w => w
  | .error _ => {}

/-- X plays in the middle and the rival in its corner; the rest is refused or fails. -/
def ops : List (Op Unit) :=
  [.onEvery (some ()), .dispatch (request "O11" 1), .dispatch (request "X11" 2),
    .dispatch (request "X33" 1), .dispatch (request "X11" 1), .dispatch (request "X00" 1)]

def worked (notes : List Note) : World Unit :=
  Act.after ((Script.calls ops).run (rival.site 1)) (start notes)

theorem built : ∃ notes, Built (draft notes) := by
  obtain ⟨notes, hbuilt⟩ := apply_declare_ticTacToe 0 (.text "oxo") .default
  exact ⟨notes, 0, .text "oxo", .default, _, rfl, hbuilt⟩

theorem ran_worked (notes : List Note) :
    World.Ran rival (Op.Plays 0) (start notes) (worked notes) :=
  .more 1 (Script.all_calls (by simp [ops, Op.Plays])) .nothing

theorem withOpened_before (notes : List Note) :
    (before notes).withOpened (.ofStep (.int 1)) .default [.net 0] = .ok (start notes) := rfl

def inst : Installation :=
  { net := 0, config := .default, capacity := placeNames.map fun _ => 1 }

/-- What the stream has to tell in the end, evaluated in one go. -/
theorem told_worked (notes : List Note) : ((worked notes).stream.lookup (.text "oxo"),
    ((worked notes).stream.history.filter fun entry => entry.event.names (.text "oxo")).map
      fun entry => entry.event.move) =
        (.ok (.text "oxo", inst), [(.text "X11", .int 1), (.text "O00", .int 1)]) := by cbv

end Oxo

namespace World

open Oxo

/-- Two cells are played, and seven are free. -/
theorem oxo_plays_by_rules : ∃ (notes : List Note) (played : List (Nat × Nat)) (marking : Vec),
    Built (draft notes) ∧
      ((worked notes).stream.history.filter fun entry => entry.event.names (.text "oxo")).map
          (fun entry => entry.event.move) =
        [(.text "X11", .int 1), (.text "O00", .int 1)] ∧
      played.Nodup ∧ played.length = 2 ∧
      (worked notes).stream.marking (worked notes).catalog (.text "oxo") = .ok marking ∧
      (cells.filter fun cell => decide
        ((board (.text "oxo")).tokens? marking (cellName cell) = some 1)).length = 7 := by
  obtain ⟨notes, hbuilt⟩ := built
  obtain ⟨hlookup, hhistory⟩ := Prod.mk.inj (told_worked notes)
  have hbehaves : rival.All (Op.Plays 0) :=
    ⟨fun _ _ => ⟨trivial, fun _ _ => trivial⟩, fun _ _ => trivial⟩
  obtain ⟨played, marking, hmoves, hdistinct, -, -, hmarking, -, -, hfree⟩ :=
    Ran.plays_by_rules hbuilt rfl (withOpened_before notes) hbehaves (ran_worked notes) hlookup rfl
  have hlength : played.length = 2 := by
    have htold := congrArg List.length hmoves
    rw [hhistory, List.length_mapIdx] at htold
    exact htold.symm
  rw [hlength] at hfree
  exact ⟨notes, played, marking, hbuilt, hhistory, hdistinct, hlength, hmarking, hfree⟩

end World

end TokenNet
