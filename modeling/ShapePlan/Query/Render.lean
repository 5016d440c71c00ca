/-
Filling the sites of a query text. A site is written `%s`; the character written just before it tells what the value
becomes: after a single quote the inside of a string, after a backtick the inside of a quoted name, elsewhere
query text.
-/
namespace ShapePlan.Query

/-- Inside a string a backslash and a single quote are preceded by a backslash. -/
def escapeString (cs : List Char) : List Char :=
  cs.flatMap fun c => if c = '\\' ∨ c = '\'' then ['\\', c] else [c]

/-- Inside a quoted name a backtick is doubled. -/
def escapeName (cs : List Char) : List Char := cs.flatMap fun c => if c = '`' then ['`', '`'] else [c]

def escapeAfter (last : Option Char) (cs : List Char) : List Char :=
  match last with
  | some '\'' => escapeString cs
  | some '`' => escapeName cs
  | _ => cs

/-- Fills the sites in order, `last` being the last character written so far. A missing value is empty. -/
def fillAfter (last : Option Char) : List Char → List String → List Char
  | [], _ => []
  | '%' :: 's' :: r, values =>
    let written := escapeAfter last (values.headD "").toList
    written ++ fillAfter (written.getLast?.or last) r values.tail
  | c :: r, values => c :: fillAfter (some c) r values

def fill (text : String) (values : List String) : String := String.ofList (fillAfter none text.toList values)

/-- The number of sites of a text. -/
def sites : List Char → Nat
  | [] => 0
  | '%' :: 's' :: r => sites r + 1
  | _ :: r => sites r

end ShapePlan.Query
