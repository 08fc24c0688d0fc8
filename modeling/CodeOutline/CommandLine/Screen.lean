/-
CodeOutline/CommandLine/Screen.lean

Answers as lines of text, for a terminal without colors.

The columns of a table are as wide as their widest cell.
-/
import CodeOutline.CommandLine.Answer

namespace CodeOutline.CommandLine

/-- A text with spaces after it, up to a width. -/
def padTo (width : Nat) (s : String) : String :=
  s ++ String.ofList (List.replicate (width - s.length) ' ')

/-- The width of every column of some rows. -/
def widths (rows : List (List String)) : List Nat :=
  rows.foldl (fun ws row =>
    let ls := row.map String.length
    List.zipWith max (ws ++ List.replicate (ls.length - ws.length) 0)
      (ls ++ List.replicate (ws.length - ls.length) 0)) []

/-- The lines of a table. -/
def Table.screen (t : Table) : List String :=
  let rows := (t.columns :: t.rows).map (fun row => row.map Text.Markup.plain)
  let ws := widths rows
  Text.Markup.plain t.title :: rows.map (fun row => "  ".intercalate (List.zipWith padTo ws row))

/-- The lines of what is printed. -/
def Output.screen : Output → List String
  | .line markup => [Text.Markup.plain markup]
  | .table t => t.screen

/-- How the program is used. -/
def usage : List String :=
  ["Usage: codeir [--log-level LEVEL] COMMAND", "", "Commands:",
    "  analyze PATHS... [--json] [--root DIR]  List the definitions of source files.",
    "  docs PATH [--json]                      Show the documentation of a source file.",
    "  languages [--json]                      List the extensions of source files."]

end CodeOutline.CommandLine
