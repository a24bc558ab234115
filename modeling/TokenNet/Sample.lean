import TokenNet.Net.Draft
/-!
Two ready-made declarations.
-/

namespace TokenNet.Sample

open Draft

/-- A handle on a place or a transition, as an end of the draft it was declared in. -/
def link (source target : End) : Drafting Unit := do
  let _ ← arc source target (.int 1) (.bool false)

def point (x y : Int) : Datum := .list [.int x, .int y]

def grid (x y : Int) : Drafting Datum := do
  match (← get).config.pos (.int x) (.int y) with
  | .ok p => return .position p.x p.y
  | .error e => throw (.ofArithmetic e)

/-- A counter from zero to three: `inc` fills `count` and `dec` drains it. -/
def counter : Drafting Unit := do
  let count ← place (.text "count") (.int 0) (.int 3) (← grid 2 1)
  let inc ← transition (.text "inc") (.text "default") (← grid 1 1)
  let dec ← transition (.text "dec") (.text "default") (← grid 3 1)
  link (.transition inc.label) (.place count.label)
  link (.place count.label) (.transition dec.label)

def cellLabel (row column : Nat) : String := countText row ++ countText column

/-- A player of tic-tac-toe; the moves are drawn `shift` beside their cells. -/
structure Player where
  mark : String
  opponent : String
  shift : Int

def players : List Player := [⟨"X", "O", -60⟩, ⟨"O", "X", 60⟩]

def cells : List (Nat × Nat) :=
  (List.range 3).flatMap fun row => (List.range 3).map fun column => (row, column)

def cellX (column : Nat) : Int := (column + 1) * 220

def cellY (row : Nat) : Int := (row + 1) * 140

/-- A move takes the mover's turn and a free cell and hands the turn over. -/
def move (row column : Nat) (player : Player) : Drafting Unit := do
  let cell := cellLabel row column
  let move ← transition (.text (player.mark ++ cell)) (.role (.text player.mark))
    (point (cellX column + player.shift) (cellY row))
  link (.place player.mark) (.transition move.label)
  link (.place cell) (.transition move.label)
  link (.transition move.label) (.place player.opponent)

/-- Nine cells, a turn place and a role per player, and eighteen moves. -/
def ticTacToe : Drafting Unit := do
  for (row, column) in cells do
    let _ ← place (.text (cellLabel row column)) (.int 1) (.int 1)
      (point (cellX column) (cellY row))
  let _ ← place (.text "X") (.int 1) (.int 1) (point 40 200)
  let _ ← role (.text "X")
  let _ ← place (.text "O") (.int 0) (.int 1) (point 830 370)
  let _ ← role (.text "O")
  for (row, column) in cells do
    for player in players do
      move row column player

def named? : String → Option (Drafting Unit)
  | "counter" => some counter
  | "ticTacToe" => some ticTacToe
  | _ => none

end TokenNet.Sample
