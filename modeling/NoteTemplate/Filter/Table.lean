import NoteTemplate.Filter.Items

/-!
The filter that writes tables.
-/

namespace NoteTemplate.Filter

open NoteTemplate.Text

/-- The text of a cell; a bar in it does not end the cell. -/
def cell (v : Value) : String := String.ofList (replaceAll ['|'] ['\\', '|'] v.text.toList)

def tableLine (cells : List String) : String := "| " ++ joinWith " | " cells ++ " |"

/-- A table: its header, the line below it and its rows. -/
def tableText (header : List String) (rows : List (List String)) : String :=
  joinWith "\n" (tableLine header :: tableLine (List.replicate header.length "-") ::
    rows.map tableLine)

def padCells (width : Nat) (cells : List String) : List String :=
  cells ++ List.replicate (width - cells.length) ""

/-- The cells of a row; a value that is no array is a row of one. -/
def rowCells : Value → List String
  | .arr items => items.map cell
  | v => [cell v]

/-- The cells of an object in the order of columns; any other value has empty cells only. -/
def columnCells (columns : List String) : Value → List String
  | .obj fields => columns.map fun column => cell ((Assoc.get? fields column).getD .null)
  | _ => columns.map fun _ => ""

/-- Rows of a given number of items, of which there is at least one. -/
def chunks (width : Nat) (items : List Value) : List (List Value) :=
  match items with
  | [] => []
  | v :: rest =>
    (v :: rest.take (width - 1)) :: chunks width (rest.drop (width - 1))
termination_by items.length
decreasing_by
  simp only [List.length_cons, List.length_drop]
  omega

def tableOfItems (headers : List String) (head : Value) (items : List Value) : String :=
  match head with
  | .obj fields =>
    let columns := if headers = [] then fields.map (·.1) else headers
    tableText columns (items.map (columnCells columns))
  | .arr _ =>
    let rows := items.map rowCells
    let width := (rows.map List.length).foldl max 0
    tableText (if headers = [] then List.replicate width "" else headers)
      (rows.map (padCells width))
  | _ =>
    if headers = [] then tableText ["Value"] (items.map fun v => [cell v])
    else
      tableText headers
        ((chunks headers.length items).map fun row => padCells headers.length (row.map cell))

/-- An array or object as a table. The fields of an object are its lines, the first one at its
head; empty ones have no table. -/
def table (s : String) (param : Option String) : String :=
  if isMissing s then s
  else match Value.ofJson? s with
    | some (.obj ((name, v) :: rest)) =>
      tableText [cell (.str name), cell v]
        (rest.map fun (name, v) => [cell (.str name), cell v])
    | some (.arr (head :: rest)) => tableOfItems (Param.list param) head (head :: rest)
    | _ => s

def tabulation : List Filter := [
  ofParam "table" table "Markdown table: table:(\"Name\",\"Year\")"]

end NoteTemplate.Filter
