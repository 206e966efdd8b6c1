/-
Tables with a title and a header.

* `Table.shown` — a table as it appears, its texts without their tags;
* `Table.grid` — the cells of a table line by line;
* `Table.draw` — a table drawn with lines.
-/
import Rollout.Console.Markup

namespace Rollout

/-- A table. -/
structure Table where
  title : String
  header : List String
  rows : List (List String)
deriving DecidableEq, Repr

namespace Table

variable [Markup.Handlers]

/-- Texts as they appear; the first that cannot is a failure. -/
def shownCells : List String → Except Failure (List String)
  | [] => .ok []
  | cell :: rest =>
    match Markup.shown cell with
    | .error failure => .error failure
    | .ok text => (shownCells rest).map (text :: ·)

/-- Rows as they appear. -/
def shownRows : List (List String) → Except Failure (List (List String))
  | [] => .ok []
  | row :: rest =>
    match shownCells row with
    | .error failure => .error failure
    | .ok cells => (shownRows rest).map (cells :: ·)

/-- A table as it appears. -/
def shown (t : Table) : Except Failure Table :=
  match Markup.shown t.title, shownRows t.rows with
  | .ok title, .ok rows => .ok ⟨title, t.header, rows⟩
  | .error failure, _ => .error failure
  | .ok _, .error failure => .error failure

/-- The lines of a text. -/
def linesOf (s : String) : List String :=
  (s.toList.splitOn '\n').map .ofList

/-- The line of a row at a position, with an empty cell where a text has fewer lines. -/
def lineAt (cells : List (List String)) (i : Nat) : List String :=
  cells.map fun lines => lines.getD i ""

/-- The lines of a row. -/
def rowLines (row : List String) : List (List String) :=
  let cells := row.map linesOf
  (List.range ((cells.map List.length).foldl max 1)).map (lineAt cells)

/-- The cells of a table line by line, the header first. -/
def grid (t : Table) : List (List String) := (t.header :: t.rows).flatMap rowLines

def widths (t : Table) : List Nat :=
  t.grid.foldl (fun widths cells => widths.zipWith max (cells.map String.length))
    (t.header.map String.length)

/-- A text with spaces up to a width. -/
def pad (width : Nat) (s : String) : String :=
  s ++ .ofList (List.replicate (width - s.length) ' ')

/-- A line of cells between bars. -/
def drawLine (bar : String) (widths : List Nat) (cells : List String) : String :=
  bar ++ String.join ((widths.zip cells).map fun (width, s) => " " ++ pad width s ++ " " ++ bar)

/-- A rule with its left end, its joints and its right end. -/
def drawRule (left stroke joint right : String) (widths : List Nat) : String :=
  let strokes := widths.map fun width => String.join (List.replicate (width + 2) stroke)
  left ++ joint.intercalate strokes ++ right

/-- A title in the middle of a width. -/
def drawTitle (width : Nat) (title : String) : String :=
  .ofList (List.replicate ((width - title.length) / 2) ' ') ++ title

def draw (t : Table) : List String :=
  let widths := t.widths
  let total := widths.foldl (· + · + 3) 1
  [drawTitle total t.title, drawRule "┏" "━" "┳" "┓" widths, drawLine "┃" widths t.header,
    drawRule "┡" "━" "╇" "┩" widths]
  ++ (t.rows.flatMap rowLines).map (drawLine "│" widths)
  ++ [drawRule "└" "─" "┴" "┘" widths]

end Table

end Rollout
