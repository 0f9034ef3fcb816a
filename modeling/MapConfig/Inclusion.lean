import MapConfig.Document
import MapConfig.Objects

/-! Inclusion. A mapping with the key `include` stands for the contents of a
document, or of a host object, in which inclusions are expanded in turn. The
strings being included above a node form its chain; one that stands on the chain
already is not included again, so every expansion ends. `expand` is the
`InclusionExpander`; its walk over a tree is `Tree.replaceIncludes`, and the number of
steps that it may nest is bounded by the strings that can be included at all. -/
namespace MapConfig

mutual

/-- Puts what `substitute` gives in the place of every mapping that includes
something, from left to right and up to the first error. -/
def Tree.replaceIncludes (substitute : Mapping → Tree → Except ConfigError Tree) :
    Tree → Except ConfigError Tree
  | .mapping entries =>
    match Table.find? entries "include" with
    | some target => substitute entries target
    | none => .mapping <$> replaceIncludesEntries substitute entries
  | .list items => .list <$> replaceIncludesItems substitute items
  | scalar => .ok scalar

def Tree.replaceIncludesItems (substitute : Mapping → Tree → Except ConfigError Tree) :
    List Tree → Except ConfigError (List Tree)
  | [] => .ok []
  | item :: rest => do
    let item ← Tree.replaceIncludes substitute item
    return item :: (← replaceIncludesItems substitute rest)

def Tree.replaceIncludesEntries (substitute : Mapping → Tree → Except ConfigError Tree) :
    List (String × Tree) → Except ConfigError (List (String × Tree))
  | [] => .ok []
  | (key, value) :: rest => do
    let value ← Tree.replaceIncludes substitute value
    return (key, value) :: (← replaceIncludesEntries substitute rest)

end

mutual

/-- The strings that mappings of the tree include, at any depth. -/
def Tree.includeTargets : Tree → List String
  | .mapping entries =>
    ((Table.find? entries "include").bind Tree.text?).toList ++ includeTargetsEntries entries
  | .list items => includeTargetsItems items
  | _ => []

def Tree.includeTargetsItems : List Tree → List String
  | [] => []
  | item :: rest => Tree.includeTargets item ++ includeTargetsItems rest

def Tree.includeTargetsEntries : List (String × Tree) → List String
  | [] => []
  | (_, value) :: rest => Tree.includeTargets value ++ includeTargetsEntries rest

end

namespace Inclusion

/-- What can be included. -/
structure World where
  library : Library
  objects : Objects Tree

/-- What an inclusion brings in, and the location for the inclusions inside. -/
structure Content where
  tree : Tree
  location : Location

/-- Where the contents of an inclusion come from. -/
inductive Source where
  | document
  | object

/-- The `type` of an inclusion, a document unless it is given. An unknown one is shown
in the error, as text or as JSON. -/
def source (directive : Mapping) : Except ConfigError Source :=
  match Table.find? directive "type" with
  | none | some (.text "json") => .ok .document
  | some (.text "python") => .ok .object
  | some (.text other) => .error (.malformed (.includeType other))
  | some other => .error (.malformed (.includeType (Json.render other)))

/-- An error of a reference is one of the inclusion. -/
def located {α : Type} : Except DocumentError α → Except ConfigError α
  | .ok value => .ok value
  | .error cause => .error (.malformed (.includeLocation cause))

/-- A document is looked for as written and then relative to `location`. -/
def document (w : World) (target : String) (location : Location) :
    Except ConfigError (DocumentRef × Tree) := do
  let direct ← located (DocumentRef.parse target w.library.allowRemote)
  match w.library.load direct with
  | .ok tree => return (direct, tree)
  | .error _ =>
    let relative ← located (location.resolve target w.library.allowRemote)
    match w.library.load relative with
    | .ok tree => return (relative, tree)
    | .error _ => throw (.malformed (.documentNotFound target))

/-- What an inclusion brings in. A host object belongs to no document, so the location
stays. -/
def content (w : World) (source : Source) (target : String) (location : Location) :
    Except ConfigError Content :=
  match source with
  | .object => do return ⟨← w.objects.resolve target, location⟩
  | .document => do
    let (doc, tree) ← document w target location
    match doc.location w.library.files with
    | .ok inner => return ⟨tree, inner⟩
    | .error cause => throw (.document cause)

/-- Expands one inclusion: `inside` expands what it brings in, with the chain
that then stands above. -/
def expandTarget (w : World) (inside : Content → List String → Except ConfigError Tree)
    (location : Location) (chain : List String) (directive : Mapping) (target : Tree) :
    Except ConfigError Tree :=
  match target with
  | .text target =>
    if target ∈ chain then .error (.cyclicInclusion target) else do
      let source ← source directive
      let content ← content w source target location
      inside content (chain ++ [target])
  | other => .error (.malformed (.includeTarget other.kind))

/-- Expands a tree whose inclusions nest at most `depth` deep. -/
def expandWithin (w : World) : Nat → Content → List String → Except ConfigError Tree
  | 0, content, chain =>
    content.tree.replaceIncludes
      -- No inclusion is left to go into. `depthBound` keeps a run from coming here.
      (expandTarget w (fun _ chain => .error (.cyclicInclusion (chain.getLastD "")))
        content.location chain)
  | depth + 1, content, chain =>
    content.tree.replaceIncludes
      (expandTarget w (expandWithin w depth) content.location chain)

/-- How deep inclusions can nest before a string comes twice. -/
def depthBound (w : World) (tree : Tree) : Nat :=
  (tree.includeTargets ++
    (w.library.trees ++ w.objects.entries.map Prod.snd).flatMap Tree.includeTargets).length

/-- Expands all inclusions of a tree. `chain` holds the strings that are being
included above it. -/
def expand (w : World) (tree : Tree) (location : Location) (chain : List String) :
    Except ConfigError Tree :=
  expandWithin w (depthBound w tree) ⟨tree, location⟩ chain

/-- Expands a tree that belongs to no document, from the working directory. -/
def expandRoot (w : World) (tree : Tree) : Except ConfigError Tree :=
  expand w tree (.directory w.library.files.workingPath) []

end Inclusion

end MapConfig
