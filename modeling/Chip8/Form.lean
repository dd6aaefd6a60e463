/-!
# Inspection forms

A `Form` is the shape of an inspected value: a word, a constructor with positional fields, a record
with named fields, or a list. It is written in one of two layouts, on one line (`compact`) or with
one field a line, four blanks deeper for each level and with a comma after the last field as well
(`expanded`).
-/

namespace Chip8

/-- The two ways to lay out a form. -/
inductive Layout where
  | compact
  | expanded
  deriving DecidableEq

/-- The shape of an inspected value. -/
inductive Form where
  /-- Text that is written as it stands in both layouts. -/
  | word (text : String)
  /-- A constructor with positional fields; a nameless one is a tuple. -/
  | tuple (name : String) (fields : List Form)
  /-- A record; its fields are `field`s. -/
  | record (name : String) (fields : List Form)
  /-- A named field of a record. -/
  | field (name : String) (value : Form)
  /-- A list. -/
  | list (items : List Form)

namespace Form

/-- A natural number in decimal digits. -/
def nat (n : Nat) : Form := .word (toString n)

/-- `true` or `false`. -/
def bool (b : Bool) : Form := .word (if b then "true" else "false")

/-- An optional value. -/
def option : Option Form → Form
  | none => .word "None"
  | some form => .tuple "Some" [form]

/-- Every line of `text`, four blanks deeper. -/
def indent (text : String) : String :=
  "\n".intercalate ((text.splitOn "\n").map ("    " ++ ·))

/-- The items between the brackets, each on its own lines with a comma behind it. -/
def stacked (left right : String) : List String → String
  | [] => left ++ right
  | items =>
    left ++ "\n" ++ String.join (items.map fun item => indent (item ++ ",") ++ "\n") ++ right

mutual

/-- The form on one line. -/
def compact : Form → String
  | .word text => text
  | .tuple name fields => name ++ "(" ++ ", ".intercalate (compactAll fields) ++ ")"
  | .record name fields => name ++ " \x7b " ++ ", ".intercalate (compactAll fields) ++ " \x7d"
  | .field name value => name ++ ": " ++ compact value
  | .list items => "[" ++ ", ".intercalate (compactAll items) ++ "]"

/-- `compact` on each form. -/
def compactAll : List Form → List String
  | [] => []
  | form :: forms => compact form :: compactAll forms

end

mutual

/-- The form with one field a line. -/
def expanded : Form → String
  | .word text => text
  | .tuple name fields => stacked (name ++ "(") ")" (expandedAll fields)
  | .record name fields => stacked (name ++ " \x7b") "\x7d" (expandedAll fields)
  | .field name value => name ++ ": " ++ expanded value
  | .list items => stacked "[" "]" (expandedAll items)

/-- `expanded` on each form. -/
def expandedAll : List Form → List String
  | [] => []
  | form :: forms => expanded form :: expandedAll forms

end

/-- The form in the given layout. -/
def write : Layout → Form → String
  | .compact => compact
  | .expanded => expanded

end Form

/-- Types whose values have an inspection form. -/
class Inspect (α : Type) where
  form : α → Form

/-- The inspected value as text. -/
def inspect {α : Type} [Inspect α] (layout : Layout) (a : α) : String :=
  (Inspect.form a).write layout

end Chip8
