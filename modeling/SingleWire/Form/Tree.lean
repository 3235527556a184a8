/-! Values as trees of lists and records, the form in which they are saved and
restored. Reading is strict about kinds and ranges, and ignores the fields of a
record that it has no use for. -/

namespace SingleWire

inductive Tree where
  | null
  | flag (value : Bool)
  | number (value : Int)
  | text (value : String)
  | list (items : List Tree)
  | record (fields : List (String × Tree))
deriving Inhabited

namespace Tree

/-- A natural number below `limit`. -/
def below? (limit : Nat) : Tree → Option Nat
  | .number (.ofNat value) => if value < limit then some value else none
  | _ => none

def byte? (tree : Tree) : Option UInt8 := (tree.below? UInt8.size).map UInt8.ofNat

def word16? (tree : Tree) : Option UInt16 := (tree.below? UInt16.size).map UInt16.ofNat

def word32? (tree : Tree) : Option UInt32 := (tree.below? UInt32.size).map UInt32.ofNat

def word64? (tree : Tree) : Option UInt64 := (tree.below? UInt64.size).map UInt64.ofNat

/-- Counts of bytes fit into 64 bits. -/
def count? (tree : Tree) : Option Nat := tree.below? UInt64.size

def flag? : Tree → Option Bool
  | .flag value => some value
  | _ => none

def bytes? : Tree → Option (List UInt8)
  | .list items => items.mapM byte?
  | _ => none

def get? (tree : Tree) (name : String) : Option Tree :=
  match tree with
  | .record fields => fields.lookup name
  | _ => none

/-- A list with one item for each of the names stands for the record of them. -/
def labelled (names : List String) : Tree → Tree
  | .list items => if items.length = names.length then .record (names.zip items) else .list items
  | tree => tree

/-- One of some choices, saved as its name, or as a record of its name and nothing. -/
def choice? (choices : List α) (name : α → String) (tree : Tree) : Option α :=
  let chosen? : Option String := match tree with
    | .text chosen => some chosen
    | .record [(chosen, .null)] => some chosen
    | _ => none
  chosen?.bind fun chosen => choices.find? (name · == chosen)

/-- A choice that has contents, saved as a record of its name and the contents. -/
def variant? : Tree → Option (String × Tree)
  | .record [(name, contents)] => some (name, contents)
  | _ => none

end Tree

end SingleWire
