import Kiln.Session
import Kiln.Tree.Outline

/-!
# Commands

What can be done with a file: list its items, print the outline of its document,
or check it.  A command that succeeds gives its report.
-/

namespace Kiln

/-- The commands. -/
inductive Command where
  | lex
  | parse
  | check
  deriving DecidableEq

/-- The columns of a listing: a text filled up with spaces on the right. -/
def padRight (width : Nat) (text : String) : String :=
  text ++ String.ofList (List.replicate (width - text.length) ' ')

/-- The width of the column of positions. -/
def positionWidth : Nat := 14

/-- The width of the column of kinds. -/
def kindWidth : Nat := 12

/-- The name that a directive was written with. -/
def Directive.name : Directive → String
  | .inclusion i => i.head.name.text
  | .inlineBlock b => b.head.name.text

/-- The row of an item in a listing. -/
def Item.row (item : Item) : String :=
  let position := padRight positionWidth (item.excerpt.position?.getD "")
  match item with
  | .token t => position ++ " " ++ padRight kindWidth t.kind.name ++ " `" ++ t.text ++ "`"
  | .directive d => position ++ " " ++ padRight kindWidth "Directive" ++ " #" ++ d.name

/-- The listing of the items of a file. -/
def listing (path : String) (items : List Item) : String :=
  "Items for '" ++ path ++ "' (" ++ toString items.length ++ " items):\n" ++
    String.join (items.map fun item => "  " ++ item.row ++ "\n")

/-- What is said of a file that passed its checks. -/
def approval (path : String) (d : Document) : String :=
  let count := d.functions.length
  "OK: " ++ path ++ " (" ++ toString count ++ " function" ++ (if count = 1 then "" else "s") ++
    ")\n"

namespace Command

/-- The command of a name, or the reason why there is none. -/
def ofName (name : String) : Except String Command :=
  if name = "lex" then .ok .lex
  else if name = "parse" then .ok .parse
  else if name = "check" then .ok .check
  else .error ("unknown command `" ++ name ++ "`")

/-- Runs a command on a file; gives the report of a command that succeeds. -/
def run (command : Command) (s : Session) (files : Files) (path : String) :
    Option String × Session :=
  match command with
  | .lex =>
    let (items, s) := s.loadAndScan files path
    (items.map (listing path), s)
  | .parse =>
    let (d, s) := s.loadAndParse files path
    (d.map Document.outline, s)
  | .check =>
    let (d, s) := s.compile files path
    (d.map (approval path), s)

end Command
end Kiln
