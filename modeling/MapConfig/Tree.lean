import MapConfig.Table

/-! Configuration trees: mappings, lists and scalars, as documents and host
objects hold them. They are what the program calls a `RawConfigNode`, and a mapping is
its `CfgMap`. The keys of every mapping ascend, see `Tree.Canonical`. -/
namespace MapConfig

/-- A whole number keeps its value and a double its bits: the two never agree,
also where they denote the same quantity. -/
inductive Number where
  | whole (value : Int)
  | double (value : Float)

/-- A raw configuration, or any part of one. -/
inductive Tree where
  | null
  | bool (value : Bool)
  | number (value : Number)
  | text (value : String)
  | list (items : List Tree)
  | mapping (entries : List (String × Tree))

instance : Inhabited Tree := ⟨.null⟩

/-- The entries of a mapping, by key. -/
abbrev Mapping := Table Tree

/-- Whether two numbers are equal as the program compares them: of one form and, if
doubles, equal as doubles. -/
def Number.same : Number → Number → Bool
  | .whole a, .whole b => a == b
  | .double a, .double b => a == b
  | _, _ => false

/-- A whole number that fits 64 bits with a sign. -/
def Number.int64? : Number → Option Int
  | .whole n => if n < Nat.pow 2 63 then some n else none
  | .double _ => none

/-- A whole number that fits 64 bits without a sign. -/
def Number.word64? : Number → Option Nat
  | .whole n => if 0 ≤ n then some n.toNat else none
  | .double _ => none

namespace Tree

/-- What a tree is at its root. -/
inductive Kind where
  | null
  | boolean
  | number
  | text
  | list
  | mapping
deriving DecidableEq

/-- What an error calls a value of the kind (`kind`). -/
def Kind.noun : Kind → String
  | .null => "null"
  | .boolean => "a boolean"
  | .number => "a number"
  | .text => "a string"
  | .list => "a list"
  | .mapping => "a mapping"

def kind : Tree → Kind
  | .null => .null
  | .bool _ => .boolean
  | .number _ => .number
  | .text _ => .text
  | .list _ => .list
  | .mapping _ => .mapping

mutual

/-- Whether two trees hold the same value. Doubles are compared as numbers, so
zero and minus zero agree. -/
def same : Tree → Tree → Bool
  | .null, .null => true
  | .bool a, .bool b => a == b
  | .number a, .number b => a.same b
  | .text a, .text b => a == b
  | .list a, .list b => sameItems a b
  | .mapping a, .mapping b => sameEntries a b
  | _, _ => false

def sameItems : List Tree → List Tree → Bool
  | [], [] => true
  | a :: as, b :: bs => same a b && sameItems as bs
  | _, _ => false

def sameEntries : List (String × Tree) → List (String × Tree) → Bool
  | [], [] => true
  | (k, a) :: as, (l, b) :: bs => k == l && same a b && sameEntries as bs
  | _, _ => false

end

mutual

/-- The keys of every mapping in the tree ascend, so none is repeated. -/
def Canonical : Tree → Prop
  | .list items => CanonicalItems items
  | .mapping entries => Table.Sorted entries ∧ CanonicalEntries entries
  | _ => True

def CanonicalItems : List Tree → Prop
  | [] => True
  | item :: rest => Canonical item ∧ CanonicalItems rest

def CanonicalEntries : List (String × Tree) → Prop
  | [] => True
  | (_, value) :: rest => Canonical value ∧ CanonicalEntries rest

end

/-! ## Views

A view gives the contents of a tree of one kind, and nothing for a tree of another. -/

def mapping? : Tree → Option Mapping
  | .mapping entries => some entries
  | _ => none

def list? : Tree → Option (List Tree)
  | .list items => some items
  | _ => none

def text? : Tree → Option String
  | .text value => some value
  | _ => none

def bool? : Tree → Option Bool
  | .bool value => some value
  | _ => none

def int64? : Tree → Option Int
  | .number n => n.int64?
  | _ => none

def word64? : Tree → Option Nat
  | .number n => n.word64?
  | _ => none

def isNull : Tree → Bool
  | .null => true
  | _ => false

/-- The value under a key, if the tree is a mapping that has the key. -/
def get? (tree : Tree) (key : String) : Option Tree :=
  tree.mapping?.bind fun entries => Table.find? entries key

/-- The value at a path of mapping keys; the empty path leads to the tree itself. -/
def at? : Tree → List String → Option Tree
  | tree, [] => some tree
  | tree, key :: path => (tree.get? key).bind fun value => value.at? path

@[simp] theorem get?_mapping (entries : Mapping) (key : String) :
    get? (.mapping entries) key = Table.find? entries key := rfl

@[simp] theorem at?_nil (tree : Tree) : tree.at? [] = some tree := by cases tree <;> rfl

theorem at?_cons (tree : Tree) (key : String) (path : List String) :
    tree.at? (key :: path) = (tree.get? key).bind fun value => value.at? path := by
  cases tree <;> rfl

end Tree

end MapConfig
