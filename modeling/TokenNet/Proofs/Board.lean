import TokenNet.Proofs.Flow
import TokenNet.Proofs.Redrafting
import TokenNet.Sample
/-!
What the loops of `Sample.ticTacToe` declare, and what it compiles to.  Main statement:
`Sample.apply_declare_ticTacToe`, by which building the sample goes through whatever the schema and
the configuration, and leaves `Sample.board`.  There every move is a transition that takes the
mover's turn and the cell and hands the turn over, in terms of the names of the places; nothing
behind this has to look at arcs and offsets again.
-/

namespace TokenNet

namespace Sample

open Act Draft

/-! ## What is declared -/

def cellName (cell : Nat × Nat) : String := cellLabel cell.1 cell.2

/-- The names of the places, in the order of their offsets. -/
def placeNames : List String := cells.map cellName ++ players.map Player.mark

def cellPlace (cell : Nat × Nat) : Place where
  label := cellName cell
  initial := 1
  capacity := 1
  position := { x := .int (cellX cell.2), y := .int (cellY cell.1) }

def turnPlace (mark : String) (initial x y : Int) : Place where
  label := mark
  initial := initial
  capacity := 1
  position := { x := .int x, y := .int y }

/-- One player's move to one cell. -/
structure Ply where
  player : Player
  cell : Nat × Nat

namespace Ply

def name (m : Ply) : String := m.player.mark ++ cellName m.cell

def transition (m : Ply) : Transition where
  label := m.name
  role := .role (.text m.player.mark)
  position := { x := .int (cellX m.cell.2 + m.player.shift), y := .int (cellY m.cell.1) }

def arcs (m : Ply) : List Arc :=
  [{ source := .place m.player.mark, target := .transition m.name },
    { source := .place (cellName m.cell), target := .transition m.name },
    { source := .transition m.name, target := .place m.player.opponent }]

/-- What the move adds at a place: it takes the turn and the cell, and hands the turn over. -/
def change (m : Ply) (place : String) : Int :=
  if place = cellName m.cell ∨ place = m.player.mark then -1
  else if place = m.player.opponent then 1
  else 0

def compiled (m : Ply) : Transition := { m.transition with delta := placeNames.map m.change }

end Ply

/-- The moves to a cell. -/
def pliesTo (cell : Nat × Nat) (players : List Player) : List Ply :=
  players.map fun player => { player, cell }

def pliesOn (cells : List (Nat × Nat)) : List Ply := cells.flatMap fun cell => pliesTo cell players

/-- All moves, in the order in which they are declared. -/
def plies : List Ply := pliesOn cells

/-- The nine cells and the two turns. -/
def places : List Place :=
  cells.map cellPlace ++ [turnPlace "X" 1 40 200] ++ [turnPlace "O" 0 830 370]

def roles : List Role := players.map fun player => { label := .text player.mark }

/-- The net with its nodes and roles, when these moves have been declared. -/
def drafted (schema : Datum) (ms : List Ply) : Net where
  schema := schema
  places := places
  transitions := ms.map Ply.transition
  arcs := ms.flatMap Ply.arcs
  roles := roles

/-- What that compiles to, when all moves have been declared. -/
def board (schema : Datum) : Net :=
  { drafted schema plies with transitions := plies.map Ply.compiled, indexed := true }

theorem labels_places : places.map Place.label = placeNames := by
  simp only [places, placeNames, List.map_append, List.map_map, List.append_assoc]
  rfl

theorem mem_plies {m : Ply} : m ∈ plies ↔ m.cell ∈ cells ∧ m.player ∈ players := by
  obtain ⟨player, cell⟩ := m
  simp [plies, pliesOn, pliesTo]

/-! ## Names -/

theorem nodup_names : (placeNames ++ plies.map Ply.name).Nodup := by decide +kernel

theorem named : "" ∉ placeNames ++ plies.map Ply.name := by decide +kernel

theorem nodup_placeNames : placeNames.Nodup := (List.nodup_append.1 nodup_names).1

theorem nodup_cellNames : (cells.map cellName).Nodup := (List.nodup_append.1 nodup_placeNames).1

theorem nodup_plyNames : (plies.map Ply.name).Nodup := (List.nodup_append.1 nodup_names).2.1

theorem Ply.name_ne_empty {m : Ply} (h : m ∈ plies) : m.name ≠ "" := fun he =>
  named (List.mem_append_right _ (he ▸ List.mem_map_of_mem h))

theorem cellName_mem {cell : Nat × Nat} (h : cell ∈ cells) : cellName cell ∈ placeNames :=
  List.mem_append_left _ (List.mem_map_of_mem h)

theorem mark_mem {player : Player} (h : player ∈ players) : player.mark ∈ placeNames :=
  List.mem_append_right _ (List.mem_map_of_mem h)

theorem cellName_ne_mark {cell : Nat × Nat} {player : Player} (hc : cell ∈ cells)
    (hp : player ∈ players) : cellName cell ≠ player.mark :=
  (List.nodup_append.1 nodup_placeNames).2.2 _ (List.mem_map_of_mem hc) _ (List.mem_map_of_mem hp)

theorem opponent_mem_marks {player : Player} (h : player ∈ players) :
    player.opponent ∈ players.map Player.mark := by
  simp only [players, List.mem_cons, List.not_mem_nil, or_false] at h
  rcases h with rfl | rfl <;> decide

theorem opponent_mem {player : Player} (h : player ∈ players) : player.opponent ∈ placeNames :=
  List.mem_append_right _ (opponent_mem_marks h)

theorem mark_ne_opponent {player : Player} (h : player ∈ players) :
    player.mark ≠ player.opponent := by
  simp only [players, List.mem_cons, List.not_mem_nil, or_false] at h
  rcases h with rfl | rfl <;> decide

theorem cellName_ne_opponent {cell : Nat × Nat} {player : Player} (hc : cell ∈ cells)
    (hp : player ∈ players) : cellName cell ≠ player.opponent :=
  (List.nodup_append.1 nodup_placeNames).2.2 _ (List.mem_map_of_mem hc) _ (opponent_mem_marks hp)

/-! ## Declaring -/

variable {d : Draft} {schema : Datum} {config : Config}

theorem apply_place {p : Place} {x y : Datum} (hs : p.Sound d.config) (hne : p.label ≠ "")
    (hnew : p.label ∉ d.net.labels) (hp : p.position = { x, y }) :
    apply (Draft.place (.text p.label) (.int p.initial) (.int p.capacity) (.list [x, y])) d =
      (.ok p, { d with net := d.net.addPlace p }) := by
  have hplace : d.net.newPlace d.config (.text p.label) (.int p.initial) (.int p.capacity)
      (.list [x, y]) = .ok { p with position := { x, y } } := Net.newPlace_ok hs hne hnew { x, y }
  rw [Draft.apply_place, hplace, ← hp]

theorem apply_link {source target : End} (h : (d.net.link? { source, target }).isSome = true) :
    apply (link source target) d = (.ok (), { d with net := d.net.addArc { source, target } }) := by
  have hnew : d.net.newArc d.self source target (.int 1) (.bool false) =
      .ok { source, target } := Net.newArc_eq_ok.2 ⟨rfl, h⟩
  have harc : apply (arc source target (.int 1) (.bool false)) d =
      (.ok { source, target }, { d with net := d.net.addArc { source, target } }) := by
    rw [apply_arc, hnew]
  rw [link, apply_bind_of_ok harc]
  rfl

/-- The arcs of a move join nodes of the net. -/
theorem isSome_link?_of_mem_arcs {net : Net} {m : Ply} {arc : Arc} (hm : m ∈ plies)
    (hp : net.places.map Place.label = placeNames)
    (ht : m.name ∈ net.transitions.map Transition.label) (harc : arc ∈ m.arcs) :
    (net.link? arc).isSome = true := by
  obtain ⟨hcell, hplayer⟩ := mem_plies.1 hm
  simp only [Ply.arcs, List.mem_cons, List.not_mem_nil, or_false] at harc
  rw [Net.isSome_link?]
  rcases harc with rfl | rfl | rfl
  · exact ⟨1, .input, _, _, rfl, rfl, hp ▸ mark_mem hplayer, ht⟩
  · exact ⟨1, .input, _, _, rfl, rfl, hp ▸ cellName_mem hcell, ht⟩
  · exact ⟨1, .output, _, _, rfl, rfl, hp ▸ opponent_mem hplayer, ht⟩

theorem labels_drafted (schema : Datum) (ms : List Ply) :
    (drafted schema ms).labels = placeNames ++ ms.map Ply.name := by
  simp only [Net.labels, drafted, labels_places, List.map_map]
  rfl

/-- One more move. -/
theorem apply_move {self : Nat} {ms rest : List Ply} {m : Ply} (h : plies = ms ++ m :: rest) :
    apply (move m.cell.1 m.cell.2 m.player) { self, net := drafted schema ms, config } =
      (.ok (), { self, net := drafted schema (ms ++ [m]), config }) := by
  have hm : m ∈ plies := h ▸ List.mem_append_right _ List.mem_cons_self
  have hfresh : m.name ∉ (drafted schema ms).labels := by
    have hnodup := nodup_names
    rw [h, List.map_append, List.map_cons, ← List.append_assoc, ← labels_drafted schema ms,
      List.nodup_append] at hnodup
    exact fun hmem => hnodup.2.2 _ hmem _ List.mem_cons_self rfl
  have htransition : apply (Draft.transition (.text m.name) (.role (.text m.player.mark))
      (point (cellX m.cell.2 + m.player.shift) (cellY m.cell.1)))
        { self, net := drafted schema ms, config } =
      (.ok m.transition,
        { self, net := (drafted schema ms).addTransition m.transition, config }) := by
    rw [apply_transition, Net.freshLabel_eq_ok.2 ⟨rfl, Ply.name_ne_empty hm, hfresh⟩]
    rfl
  have hlinks : ∀ net : Net, net.places = places →
      net.transitions = ms.map Ply.transition ++ [m.transition] →
        ∀ arc ∈ m.arcs, (net.link? arc).isSome = true := by
    intro net hp ht arc harc
    refine isSome_link?_of_mem_arcs hm (hp ▸ labels_places) ?_ harc
    rw [ht, List.map_append]
    exact List.mem_append_right _ (List.mem_singleton.2 rfl)
  refine (apply_bind_of_ok htransition).trans ?_
  refine (apply_bind_of_ok (apply_link (hlinks _ rfl rfl _ (.head _)))).trans ?_
  refine (apply_bind_of_ok (apply_link (hlinks _ rfl rfl _ (.tail _ (.head _))))).trans ?_
  refine (apply_link (hlinks _ rfl rfl _ (.tail _ (.tail _ (.head _))))).trans ?_
  simp only [drafted, Net.addTransition, Net.addArc, Ply.arcs, List.map_append, List.map_cons,
    List.map_nil, List.flatMap_append, List.flatMap_cons, List.flatMap_nil, List.append_nil,
    List.append_assoc, List.cons_append, List.nil_append]

/-- The place of one more cell. -/
theorem apply_cellPlace {self : Nat} {before rest : List (Nat × Nat)} {cell : Nat × Nat}
    (h : cells = before ++ cell :: rest) :
    apply (Draft.place (.text (cellName cell)) (.int 1) (.int 1)
        (point (cellX cell.2) (cellY cell.1)))
          { self, net := { schema, places := before.map cellPlace }, config } =
      (.ok (cellPlace cell),
        { self, net := { schema, places := (before ++ [cell]).map cellPlace }, config }) := by
  have hmem : cell ∈ cells := h ▸ List.mem_append_right _ List.mem_cons_self
  have hne : cellName cell ≠ "" := fun he =>
    named (List.mem_append_left _ (he ▸ cellName_mem hmem))
  have hnew : cellName cell ∉ (before.map cellPlace).map Place.label := by
    have hnodup := nodup_cellNames
    rw [h, List.map_append, List.map_cons, List.nodup_append] at hnodup
    rw [List.map_map]
    exact fun hin => hnodup.2.2 _ hin _ List.mem_cons_self rfl
  have hsound : (cellPlace cell).Sound config :=
    ⟨Int.zero_le_ofNat 1, Int.zero_le_ofNat 1, fun _ _ => Int.le_refl 1⟩
  have hplace := apply_place (d := ⟨self, { schema, places := before.map cellPlace }, config, []⟩)
    hsound hne (by rwa [Net.labels, List.map_nil, List.append_nil]) rfl
  rw [List.map_append]
  exact hplace

theorem pliesOn_append (before after : List (Nat × Nat)) :
    pliesOn (before ++ after) = pliesOn before ++ pliesOn after := List.flatMap_append

theorem pliesTo_append (cell : Nat × Nat) (told next : List Player) :
    pliesTo cell (told ++ next) = pliesTo cell told ++ pliesTo cell next := List.map_append

theorem plies_split {before rest : List (Nat × Nat)} {cell : Nat × Nat} {told next : List Player}
    {player : Player} (hc : cells = before ++ cell :: rest)
    (hp : players = told ++ player :: next) : plies =
      pliesOn before ++ pliesTo cell told ++
        { player, cell } :: (pliesTo cell next ++ pliesOn rest) := by
  have hown : pliesTo cell players =
      pliesTo cell told ++ { player, cell } :: pliesTo cell next := by
    rw [hp, pliesTo_append]
    rfl
  calc plies = pliesOn before ++ (pliesTo cell players ++ pliesOn rest) := by
        rw [plies, hc, pliesOn_append]
        rfl
    _ = _ := by rw [hown, List.append_assoc, List.append_assoc, List.cons_append]

/-- The moves to one more cell. -/
theorem apply_pliesTo {self : Nat} {before rest : List (Nat × Nat)} {cell : Nat × Nat}
    (h : cells = before ++ cell :: rest) :
    apply (forIn players PUnit.unit fun player _ => do
        move cell.1 cell.2 player
        pure (.yield PUnit.unit)) { self, net := drafted schema (pliesOn before), config } =
      (.ok ⟨⟩, { self, net := drafted schema (pliesOn (before ++ [cell])), config }) := by
  let stage (told : List Player) : Draft :=
    { self, net := drafted schema (pliesOn before ++ pliesTo cell told), config }
  have hfirst : stage [] = { self, net := drafted schema (pliesOn before), config } := by
    simp only [stage, pliesTo, List.map_nil, List.append_nil]
  have hlast : stage players =
      { self, net := drafted schema (pliesOn (before ++ [cell])), config } := by
    rw [pliesOn_append, pliesOn, pliesOn, List.flatMap_singleton]
    rfl
  rw [← hfirst, ← hlast]
  refine apply_forIn stage fun told player next hp => ?_
  refine (apply_bind_of_ok (apply_move (plies_split h hp))).trans ?_
  simp only [stage, pliesTo_append, List.append_assoc]
  rfl

/-- The place of a turn, which has a name of its own. -/
theorem apply_turnPlace {mark : String} {initial x y : Int} (hi : 0 ≤ initial) (hle : initial ≤ 1)
    (hne : mark ≠ "") (hnew : mark ∉ d.net.labels) :
    apply (Draft.place (.text mark) (.int initial) (.int 1) (point x y)) d =
      (.ok (turnPlace mark initial x y),
        { d with net := d.net.addPlace (turnPlace mark initial x y) }) :=
  apply_place (p := turnPlace mark initial x y) ⟨hi, Int.zero_le_ofNat 1, fun _ _ => hle⟩ hne hnew
    rfl

theorem apply_newRole {mark : String} (h : d.net.role? (.text mark) = none) :
    apply (Draft.role (.text mark)) d =
      (.ok { label := .text mark }, { d with net := d.net.addRole { label := .text mark } }) := by
  rw [apply_role]
  simp only [Datum.key?, h]

/-- Whatever it is declared under, the sample goes through. -/
theorem apply_ticTacToe (self : Nat) (schema : Datum) (config : Config) :
    apply ticTacToe { self, net := { schema }, config } =
      (.ok (), { self, net := drafted schema plies, config }) := by
  have hx : "X" ∉ Net.labels { schema, places := cells.map cellPlace } := by
    have hnew : "X" ∉ cells.map cellName := by decide +kernel
    simpa only [Net.labels, List.map_map, List.map_nil, List.append_nil] using! hnew
  have ho : "O" ∉ Net.labels
      { schema, places := cells.map cellPlace ++ [turnPlace "X" 1 40 200]
        roles := [{ label := .text "X" }] } := by
    have hnew : "O" ∉ cells.map cellName ++ ["X"] := by decide +kernel
    simpa only [Net.labels, List.map_append, List.map_map, List.map_nil,
      List.append_nil] using! hnew
  let placed (before : List (Nat × Nat)) : Draft :=
    { self, net := { schema, places := before.map cellPlace }, config }
  let moved (before : List (Nat × Nat)) : Draft :=
    { self, net := drafted schema (pliesOn before), config }
  refine (apply_bind_of_ok (apply_forIn placed fun before cell rest h =>
    apply_bind_of_ok (apply_cellPlace h))).trans ?_
  refine (apply_bind_of_ok (apply_turnPlace (by decide) (by decide) (by decide) hx)).trans ?_
  refine (apply_bind_of_ok (apply_newRole rfl)).trans ?_
  refine (apply_bind_of_ok (apply_turnPlace (by decide) (by decide) (by decide) ho)).trans ?_
  refine (apply_bind_of_ok (apply_newRole rfl)).trans ?_
  exact (apply_bind_of_ok (apply_forIn moved fun before cell rest h =>
    apply_bind_of_ok (apply_pliesTo h))).trans (apply_pure () _)

/-! ## Compiling -/

theorem linked {arc : Arc} (h : arc ∈ (drafted schema plies).arcs) :
    ((drafted schema plies).link? arc).isSome = true := by
  obtain ⟨m, hm, harc⟩ := List.mem_flatMap.1 h
  refine isSome_link?_of_mem_arcs hm labels_places ?_ harc
  rw [drafted, List.map_map]
  exact List.mem_map_of_mem hm

theorem index_snd_drafted (schema : Datum) : (drafted schema plies).index.2 = [] :=
  (Net.index_snd_eq_nil rfl).2 fun _ h => linked h

/-- Of a list without two entries under one key, what is made of the others is not there. -/
theorem flatMap_of_nodup {α β κ : Type} {key : α → κ} {l : List α} (h : (l.map key).Nodup) {a : α}
    (ha : a ∈ l) {f : α → List β} (hf : ∀ b, key b ≠ key a → f b = []) : l.flatMap f = f a := by
  induction l with
  | nil => cases ha
  | cons b rest ih =>
    rw [List.map_cons, List.nodup_cons] at h
    rw [List.flatMap_cons]
    rcases List.mem_cons.1 ha with rfl | ha
    · have hrest : rest.flatMap f = [] := List.flatMap_eq_nil_iff.2 fun c hc =>
        hf c fun he => h.1 (he ▸ List.mem_map_of_mem hc)
      rw [hrest, List.append_nil]
    · have hb : f b = [] := hf b fun he => h.1 (he ▸ List.mem_map_of_mem ha)
      rw [hb, List.nil_append, ih h.2 ha]

theorem carried?_of_ne {m m' : Ply} {arc : Arc} (h : m'.name ≠ m.name) (harc : arc ∈ m'.arcs)
    (place : String) : arc.carried? place m.name = none := by
  simp only [Ply.arcs, List.mem_cons, List.not_mem_nil, or_false] at harc
  rcases harc with rfl | rfl | rfl <;> simp [Arc.carried?, Datum.truthy, h]

theorem flow_drafted {m : Ply} (hm : m ∈ plies) (place : String) :
    (drafted schema plies).flow place m.name = m.change place := by
  have hown : ((drafted schema plies).arcs.filterMap (Arc.carried? place m.name)) =
      m.arcs.filterMap (Arc.carried? place m.name) := by
    rw [drafted, List.filterMap_flatMap]
    refine flatMap_of_nodup nodup_plyNames hm fun m' hne => ?_
    exact List.filterMap_eq_nil_iff.2 fun arc harc => carried?_of_ne hne harc place
  obtain ⟨hcell, hplayer⟩ := mem_plies.1 hm
  have hturns := mark_ne_opponent hplayer
  have hmark := cellName_ne_mark hcell hplayer
  have hopponent := cellName_ne_opponent hcell hplayer
  rw [Net.flow, hown, Ply.change]
  by_cases hc : cellName m.cell = place
  · subst hc
    simp [Ply.arcs, Arc.carried?, Datum.truthy, Datum.positive?, hmark.symm, hopponent.symm]
  · by_cases ht : m.player.mark = place
    · subst ht
      simp [Ply.arcs, Arc.carried?, Datum.truthy, Datum.positive?, hmark, hturns.symm]
    · by_cases ho : m.player.opponent = place
      · subst ho
        simp [Ply.arcs, Arc.carried?, Datum.truthy, Datum.positive?, hopponent, hturns,
          hopponent.symm, hturns.symm]
      · simp [Ply.arcs, Arc.carried?, Datum.truthy, Datum.positive?, hc, ht, ho, Ne.symm hc,
          Ne.symm ht, Ne.symm ho]

/-- Nothing inhibits. -/
theorem inhibition?_of_mem {net : Net} {m : Ply} {arc : Arc} (harc : arc ∈ m.arcs)
    (transition : String) : net.inhibition? transition arc = none := by
  simp only [Ply.arcs, List.mem_cons, List.not_mem_nil, or_false] at harc
  rcases harc with rfl | rfl | rfl <;> rfl

theorem guardsOf_drafted (schema : Datum) (ms : List Ply) (transition : String) :
    (drafted schema ms).guardsOf transition = [] := by
  have hnone : (drafted schema ms).inhibitions transition = [] := by
    refine List.filterMap_eq_nil_iff.2 fun arc harc => ?_
    obtain ⟨m, -, harc⟩ := List.mem_flatMap.1 harc
    exact inhibition?_of_mem harc transition
  rw [Net.guardsOf, Net.inhibitors, hnone]
  rfl

theorem compiled_drafted {m : Ply} (hm : m ∈ plies) (schema : Datum) :
    m.transition.compiled (drafted schema plies).emptyVector (drafted schema plies).links =
      m.compiled := by
  have hn : ((drafted schema plies).places.map Place.label).Nodup :=
    labels_places ▸ nodup_placeNames
  have hin : m.transition.label ∈ (drafted schema plies).transitions.map Transition.label :=
    List.mem_map_of_mem (List.mem_map_of_mem hm)
  have hflow : ∀ p : Place, (drafted schema plies).flow p.label m.transition.label =
      m.change p.label := fun p => flow_drafted hm p.label
  rw [Net.compiled_eq hn hin, guardsOf_drafted, Ply.compiled, ← labels_places, List.map_map]
  simp only [hflow]
  rfl

theorem index_drafted (schema : Datum) : (drafted schema plies).index.1 = board schema := by
  have htransitions : (drafted schema plies).transitions = plies.map Ply.transition := rfl
  have hcompiled : (drafted schema plies).transitions.map (Transition.compiled
      (drafted schema plies).emptyVector (drafted schema plies).links) =
        plies.map Ply.compiled := by
    rw [htransitions, List.map_map]
    exact List.map_congr_left fun m hm => by rw [Function.comp_apply, compiled_drafted hm]
  have harcs : (drafted schema plies).hasArcs = true := rfl
  rw [Net.index_fst harcs, hcompiled, index_snd_drafted]
  rfl

/-- Building the sample leaves its board, whatever the schema and the configuration. -/
theorem apply_declare_ticTacToe (self : Nat) (schema : Datum) (config : Config) :
    ∃ notes, apply (declare ticTacToe) { self, net := { schema }, config } =
      (.ok (), { self, net := board schema, config, notes }) := by
  rw [← index_drafted]
  exact apply_declare (apply_ticTacToe self schema config) (index_snd_drafted schema)

/-- Every place but the turn of the second player starts with a token. -/
theorem initialVector_board (schema : Datum) : (board schema).initialVector =
    placeNames.map fun name => if name = "O" then 0 else 1 := by
  have hplaces : (board schema).places = places := rfl
  rw [Net.initialVector, hplaces]
  decide +kernel

theorem capacityVector_board (schema : Datum) :
    (board schema).capacityVector = placeNames.map fun _ => 1 := by
  have hplaces : (board schema).places = places := rfl
  rw [Net.capacityVector, hplaces]
  decide +kernel

/-- The transitions of the board are the moves. -/
theorem transition?_board {schema : Datum} {label : String} {t : Transition} :
    (board schema).transition? label = some t ↔ ∃ m ∈ plies, m.name = label ∧ t = m.compiled := by
  have hlabels : (plies.map Ply.compiled).map Transition.label = plies.map Ply.name := by
    rw [List.map_map]
    rfl
  unfold Net.transition? board
  constructor
  · intro h
    obtain ⟨m, hm, rfl⟩ := List.mem_map.1 (List.mem_of_find?_eq_some h)
    have hname : m.compiled.label = label := by simpa using List.find?_some h
    exact ⟨m, hm, hname, rfl⟩
  · rintro ⟨m, hm, rfl, rfl⟩
    exact Net.find?_label Transition.label (hlabels ▸ nodup_plyNames) (List.mem_map_of_mem hm)

end Sample

end TokenNet
