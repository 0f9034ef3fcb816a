import MapConfig.Proofs.Inclusion.Unfolding
import MapConfig.Proofs.Json.Reader
import MapConfig.Settings

/-! Every configuration that is read is canonical: all documents are, and what an
expansion puts together of canonical trees is.

The induction is on the unfolding of a tree, which an expansion that succeeds is. The
replaced parts are trees that have been read, and what stands around them keeps its
keys. -/
namespace MapConfig

namespace Inclusion
variable {w : World} {location : Location} {chain : List String} {tree result : Tree}

/-- The values of host objects are canonical. -/
def World.CanonicalObjects (w : World) : Prop := ∀ entry ∈ w.objects.entries, entry.2.Canonical

theorem canonical_of_content (objects : w.CanonicalObjects) {kind : Source} {target : String}
    {inner : Content} (h : content w kind target location = .ok inner) : inner.tree.Canonical := by
  rcases List.mem_append.mp (tree_mem_of_content h) with hm | hm
  · obtain ⟨bytes, _, hparse⟩ := List.mem_filterMap.mp hm
    exact Json.canonical_of_parseBytes? hparse
  · obtain ⟨entry, hentry, same⟩ := List.mem_map.mp hm
    exact same ▸ objects entry hentry

theorem Unfolds.canonical (objects : w.CanonicalObjects) (h : Unfolds w location tree result)
    (canonical : tree.Canonical) : result.Canonical := by
  induction h with
  | scalar _ => exact canonical
  | list same _ ih =>
    refine Tree.canonical_list_iff.mpr fun item hm => ?_
    obtain ⟨before, hpair⟩ := exists_mem_zip_right same hm
    exact ih _ hpair (Tree.canonical_list_iff.mp canonical before (List.of_mem_zip hpair).1)
  | @plain _ entries results _ keys _ ih =>
    obtain ⟨sorted, values⟩ := Tree.canonical_mapping_iff.mp canonical
    have same : entries.length = results.length := by
      simpa [Table.keys] using congrArg List.length keys
    refine Tree.canonical_mapping_iff.mpr ⟨?_, fun entry hm => ?_⟩
    · rw [Table.Sorted, ← keys]
      exact sorted
    · obtain ⟨before, hpair⟩ := exists_mem_zip_right same hm
      exact ih _ hpair (values before (List.of_mem_zip hpair).1)
  | included _ _ hinner _ ih => exact ih (canonical_of_content objects hinner)

theorem canonical_of_expand (objects : w.CanonicalObjects) (canonical : tree.Canonical)
    (h : expand w tree location chain = .ok result) : result.Canonical :=
  (unfolds_of_expand h).canonical objects canonical

end Inclusion

theorem ConfigSource.canonical_root {text : String} {source : ConfigSource}
    (h : parse text = .ok source) : source.root.Canonical := by
  unfold parse at h
  dsimp only at h
  split at h
  · split at h
    · next hparse =>
      cases h
      exact Json.canonical_of_parse? hparse
    · cases h
  · have sorted : ["include", "type"].Pairwise (· < ·) := by decide +kernel
    split at h <;> cases h <;>
      exact Tree.canonical_mapping_iff.mpr ⟨sorted, by simp [Tree.Canonical]⟩

/-- A configuration is read as a canonical tree, if host objects are canonical. -/
theorem canonical_of_readConfig {source : Option String} {settings : Settings} {files : FileTree}
    {store : Option (Table ByteArray)} {objects : Objects Tree} {raw : Tree}
    (canonical : ∀ entry ∈ objects.entries, entry.2.Canonical)
    (h : readConfig source settings files store objects = .ok raw) : raw.Canonical := by
  obtain ⟨source, hsource, h⟩ := bind_ok_iff.mp h
  have world : Inclusion.World.CanonicalObjects
      ⟨⟨files, store, settings.allowRemote⟩, objects⟩ := canonical
  exact Inclusion.canonical_of_expand world (ConfigSource.canonical_root hsource) h

end MapConfig
