import MapConfig.Wording
import MapConfig.Tree.Fields

/-! The metadata of an entry: the texts that its settings define, and the
keywords and the attribution that it shares with the entry above it. `parse` is
`parse_metadata`; it returns the texts to register instead of registering them, so that
those read before a failure can be told from those after it. -/
namespace MapConfig

/-- Who is to be named for the data. -/
structure Attribution where
  title : Option String
  url : Option String
  logo : Option Tree

namespace Attribution

def textOrNull? : Tree → Option (Option String)
  | .null => some none
  | .text value => some (some value)
  | _ => none

def treeOrNull (tree : Tree) : Option Tree := if tree.isNull then none else some tree

/-- Given as a mapping, or as a list in the order of the fields. -/
def ofTree? : Tree → Option Attribution
  | .mapping entries => do
    some {
      title := ← textOrNull? ((Table.find? entries "title").getD .null)
      url := ← textOrNull? ((Table.find? entries "url").getD .null)
      logo := (Table.find? entries "logo").bind treeOrNull }
  | .list [] => some ⟨none, none, none⟩
  | .list [title] => do some ⟨← textOrNull? title, none, none⟩
  | .list [title, url] => do some ⟨← textOrNull? title, ← textOrNull? url, none⟩
  | .list [title, url, logo] => do
    some ⟨← textOrNull? title, ← textOrNull? url, treeOrNull logo⟩
  | _ => none

end Attribution

/-- What an entry hands down to the entries below it. -/
structure Heritage where
  label : String
  keywords : NameSet
  attribution : Option Attribution

/-- The fields that a kind of entry has. -/
structure MetadataFields where
  title : Bool := true
  abstract : Bool := true
  keywords : Bool := false
  contact : Bool := false
  fees : Bool := false
  accessConstraints : Bool := false
  attribution : Bool := false

/-- Whose metadata is read: the label of its texts, the entry above, and texts
to fall back on. -/
structure MetadataContext where
  label : String
  above : Option Heritage
  defaultTitle : Option String
  defaultAbstract : Option String

/-- What an entry keeps of its metadata beside its texts. -/
structure Metadata where
  keywords : NameSet
  attribution : Option Attribution

namespace Metadata

/-- What the entries below an entry of this label take from it. -/
def handedDown (m : Metadata) (label : String) : Heritage := ⟨label, m.keywords, m.attribution⟩

/-- An entry in the errors about its metadata. -/
def subject (ctx : MetadataContext) : String := "Entity " ++ ctx.label

def own (ctx : MetadataContext) (field value : String) : Registration :=
  ⟨ctx.label, field, value, false⟩

/-- The title, which every entry that has one must give. -/
def title (cfg : Mapping) (ctx : MetadataContext) : Except ConfigError (List Registration) := do
  match (← Mapping.text? cfg "title" (subject ctx)).or ctx.defaultTitle with
  | some title => return [own ctx "title" title]
  | none => throw (.missing (subject ctx) "title")

/-- An abstract of its own, else that of the entry above, else the default. -/
def abstract (w : Wording) (cfg : Mapping) (ctx : MetadataContext) :
    Except ConfigError (List Registration) := do
  match ← Mapping.text? cfg "abstract" (subject ctx) with
  | some text => return [own ctx "abstract" text]
  | none =>
    match ctx.above.bind fun above => w.default? above.label "abstract" with
    | some text => return [⟨ctx.label, "abstract", text, true⟩]
    | none =>
      match ctx.defaultAbstract with
      | some text => return [own ctx "abstract" text]
      | none => throw (.missing (subject ctx) "abstract")

/-- The keywords that the entry gives itself. -/
def ownKeywords (cfg : Mapping) (ctx : MetadataContext) : Except ConfigError NameSet :=
  NameSet.ofList <$> Mapping.texts cfg "keywords" (subject ctx)

/-- The text of the entry's own keywords: all of them, joined by commas. -/
def keywordTexts (cfg : Mapping) (ctx : MetadataContext) :
    Except ConfigError (List Registration) := do
  return [own ctx "local_keywords" (",".intercalate (← ownKeywords cfg ctx).names)]

/-- The attribution, and whether it is that of the entry above. -/
def attributionOf (cfg : Mapping) (ctx : MetadataContext) :
    Except ConfigError (Option Attribution × Bool) :=
  match Table.find? cfg "attribution" with
  | none | some .null => .ok (ctx.above.bind Heritage.attribution, true)
  | some given =>
    match Attribution.ofTree? given with
    | some attribution => .ok (some attribution, false)
    | none => .error (.invalid (.badAttribution (subject ctx)))

/-- The title of the attribution, marked as inherited where that is. -/
def attributionTexts (cfg : Mapping) (ctx : MetadataContext) :
    Except ConfigError (List Registration) := do
  let (attribution, inherited) ← attributionOf cfg ctx
  match attribution.bind Attribution.title with
  | some title =>
    return if title.isEmpty then [] else [⟨ctx.label, "attribution_title", title, inherited⟩]
  | none => return []

/-- A text that reads as `none` when it is left out or empty. -/
def stated (cfg : Mapping) (ctx : MetadataContext) (field : String) :
    Except ConfigError (List Registration) := do
  let text := (← Mapping.text? cfg field (subject ctx)).filter fun text => text ≠ ""
  return [own ctx field (text.getD "none")]

/-- A text of the contact section, if there is one. -/
def contact (cfg : Mapping) (ctx : MetadataContext) (key field : String) :
    Except ConfigError (List Registration) :=
  match Table.find? cfg "contact_info" with
  | some (.mapping contact) => do
    let text := (← Mapping.text? contact key (subject ctx)).filter fun text => text ≠ ""
    return (text.map (own ctx field)).toList
  | _ => .ok []

/-- The texts of the readers before the first failure, and that failure. -/
def collect : List (Except ConfigError (List Registration)) →
    List Registration × Option ConfigError
  | [] => ([], none)
  | .ok texts :: rest =>
    let (more, failure) := collect rest
    (texts ++ more, failure)
  | .error error :: _ => ([], some error)

/-- The readers of the fields that the kind of entry has, in the order of their errors. -/
def readers (w : Wording) (fields : MetadataFields) (cfg : Mapping) (ctx : MetadataContext) :
    List (Except ConfigError (List Registration)) :=
  (if fields.title then [title cfg ctx] else []) ++
  (if fields.abstract then [abstract w cfg ctx] else []) ++
  (if fields.keywords then [keywordTexts cfg ctx] else []) ++
  (if fields.attribution then [attributionTexts cfg ctx] else []) ++
  (if fields.fees then [stated cfg ctx "fees"] else []) ++
  (if fields.accessConstraints then [stated cfg ctx "access_constraints"] else []) ++
  (if fields.contact then
    [contact cfg ctx "organisation" "contact_org", contact cfg ctx "position" "contact_position"]
  else [])

/-- Keywords add up along the entries, an attribution stands for those below it. -/
def effective (fields : MetadataFields) (cfg : Mapping) (ctx : MetadataContext) :
    Except ConfigError Metadata := do
  let keywords ← if fields.keywords then do
      let inherited := (ctx.above.map Heritage.keywords).getD ∅
      pure (inherited.union (← ownKeywords cfg ctx))
    else pure ∅
  let attribution ← if fields.attribution then Prod.fst <$> attributionOf cfg ctx
    else pure none
  return ⟨keywords, attribution⟩

/-- Reads the metadata of an entry. The texts to register come first; where the
reading fails they are those found before. -/
def parse (w : Wording) (fields : MetadataFields) (cfg : Mapping) (ctx : MetadataContext) :
    List Registration × Except ConfigError Metadata :=
  match collect (readers w fields cfg ctx) with
  | (texts, some error) => (texts, .error error)
  | (texts, none) => (texts, effective fields cfg ctx)

end Metadata

namespace Wording

/-- The keywords of an entry's own, as displayed. -/
def localKeywords (w : Wording) (label : String) : NameSet :=
  match w.read label "local_keywords" with
  | some joined =>
    let keywords := (joined.toList.splitOn ',').map String.ofList
    NameSet.ofList (keywords.filter fun keyword => keyword ≠ "")
  | none => ∅

end Wording

end MapConfig
