import MapConfig.Objects
import MapConfig.Proofs.Tree.MergeLaws

/-! Canonical trees as a type. Whoever holds one knows the order of its keys, so that
the laws of merging need no hypothesis; a merge of two of them is one again. -/
namespace MapConfig

/-- A tree, the keys of whose mappings ascend. -/
structure CanonicalTree where
  tree : Tree
  canonical : tree.Canonical

namespace CanonicalTree
variable {parent child first middle last : CanonicalTree} {path : List String}

@[ext] theorem ext {t u : CanonicalTree} (same : t.tree = u.tree) : t = u := by
  cases t
  cases u
  cases same
  rfl

def merge (parent child : CanonicalTree) : CanonicalTree :=
  ⟨Tree.merge parent.tree child.tree, parent.canonical.merge child.canonical⟩

@[simp] theorem tree_merge (parent child : CanonicalTree) :
    (parent.merge child).tree = Tree.merge parent.tree child.tree := rfl

theorem merge_self (t : CanonicalTree) : t.merge t = t :=
  ext (Tree.merge_self t.canonical)

theorem merge_merge_self (parent child : CanonicalTree) :
    (parent.merge child).merge child = parent.merge child :=
  ext (Tree.merge_merge_self parent.canonical child.canonical)

/-- Three trees may be grouped either way unless the middle one cuts the first one off. -/
theorem merge_assoc (uncut : ∀ path, ¬ Tree.CutsOff first.tree middle.tree last.tree path) :
    (first.merge middle).merge last = first.merge (middle.merge last) :=
  ext (Tree.merge_assoc first.canonical middle.canonical last.canonical uncut)

theorem at?_merge_of_overridden (h : Tree.Overridden parent.tree child.tree path) :
    (parent.merge child).tree.at? path = child.tree.at? path :=
  Tree.at?_merge_of_overridden child.canonical h

theorem at?_merge_of_not_overridden (h : ¬ Tree.Overridden parent.tree child.tree path) :
    (parent.merge child).tree.at? path =
      match child.tree.at? path, parent.tree.at? path with
      | none, inherited => inherited
      | some value, some inherited => some (Tree.merge inherited value)
      | some value, none => some value :=
  Tree.at?_merge_of_not_overridden child.canonical h

end CanonicalTree

/-- Host objects as inclusion sees them, without the order of their keys. -/
def Objects.trees (o : Objects CanonicalTree) : Objects Tree :=
  ⟨Table.mapValues CanonicalTree.tree o.entries⟩

theorem Objects.canonical_trees (o : Objects CanonicalTree) :
    ∀ entry ∈ o.trees.entries, entry.2.Canonical := by
  intro entry hm
  obtain ⟨⟨_, value⟩, _, rfl⟩ := List.mem_map.mp hm
  exact value.canonical

end MapConfig
