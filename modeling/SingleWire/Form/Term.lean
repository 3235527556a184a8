import SingleWire.Form.Tree

/-! The shape in which values are shown: names with fields, numbers, flags and bytes.
One shape serves both the text of a value on one line and the tree that saves it. -/

namespace SingleWire

inductive Term where
  | number (value : Nat)
  | flag (value : Bool)
  | bytes (value : List UInt8)
  | optional (value : Option Nat)
  /-- A choice without contents. -/
  | choice (name : String)
  /-- A choice whose contents have no names. -/
  | wrapped (name : String) (contents : Term)
  /-- A choice with named contents. -/
  | variant (name : String) (fields : List (String × Term))
  /-- A value that is no choice, so that its saved form does not repeat its name. -/
  | record (name : String) (fields : List (String × Term))

namespace Term

def bytesText (bytes : List UInt8) : String :=
  "[" ++ ", ".intercalate (bytes.map fun byte => toString byte.toNat) ++ "]"

mutual

/-- The value on one line. -/
def text : Term → String
  | .number value => toString value
  | .flag value => if value then "true" else "false"
  | .bytes value => bytesText value
  | .optional none => "None"
  | .optional (some value) => s!"Some({value})"
  | .choice name => name
  | .wrapped name contents => s!"{name}({contents.text})"
  | .variant name fields | .record name fields => name ++ " \x7b " ++ ", ".intercalate (fieldTexts fields) ++ " \x7d"

def fieldTexts : List (String × Term) → List String
  | [] => []
  | (name, term) :: rest => s!"{name}: {term.text}" :: fieldTexts rest

end

mutual

/-- The saved form. -/
def tree : Term → Tree
  | .number value | .optional (some value) => .number value
  | .flag value => .flag value
  | .bytes value => .list (value.map fun byte => .number byte.toNat)
  | .optional none => .null
  | .choice name => .text name
  | .wrapped name contents => .record [(name, contents.tree)]
  | .variant name fields => .record [(name, .record (fieldTrees fields))]
  | .record _ fields => .record (fieldTrees fields)

def fieldTrees : List (String × Term) → List (String × Tree)
  | [] => []
  | (name, term) :: rest => (name, term.tree) :: fieldTrees rest

end

def label : Term → String
  | .choice name | .wrapped name _ | .variant name _ | .record name _ => name
  | _ => ""

end Term

end SingleWire
