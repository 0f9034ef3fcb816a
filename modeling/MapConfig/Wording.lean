import MapConfig.Table.Ordered

/-! Display text, kept apart from the entries it describes. Every text is
registered under a label and a field with the configured text as its default;
a translator and a message catalogue may put other texts over it. This is the
program's `MetadataRegistry`: texts are registered while a configuration is loaded, and
translator and messages are exchanged afterwards. -/
namespace MapConfig

/-- A registered text (`MetadataRecord`). -/
structure WordingRecord where
  value : String
  /-- The text comes from the entry above and is not the entry's own. -/
  inherited : Bool
deriving DecidableEq

/-- A text to be registered. -/
structure Registration where
  label : String
  field : String
  value : String
  inherited : Bool
deriving DecidableEq

/-- The texts and what lies over them. -/
structure Wording where
  records : OrderedTable WordingRecord
  internationalised : Bool
  /-- A key that it does not know translates to itself. -/
  translator : Option (String → String)
  /-- A key may have no message, which counts like an empty one. -/
  messages : Option (String → Option String)

namespace Wording

def empty : Wording := ⟨∅, false, none, none⟩

/-- A text is found under label and field, joined by a point. -/
def key (label field : String) : String := label ++ "." ++ field

/-- A key registered again takes the later text. -/
def register (w : Wording) (r : Registration) : Wording :=
  { w with records := w.records.insert (key r.label r.field) ⟨r.value, r.inherited⟩ }

/-- Registers one text after the other, so that the last text of a key stays. -/
def registerAll (w : Wording) (rs : List Registration) : Wording := rs.foldl register w

/-- The registered text, whatever lies over it. -/
def default? (w : Wording) (label field : String) : Option String :=
  (w.records.find? (key label field)).map WordingRecord.value

/-- Whether the text under the key comes from an entry above. -/
def isInherited (w : Wording) (label field : String) : Bool :=
  (w.records.find? (key label field)).any WordingRecord.inherited

/-- What the translator makes of the key, where texts are translated at all. A key that
comes back as it is has no translation. -/
def translated? (w : Wording) (key : String) : Option String :=
  if w.internationalised then
    (w.translator.map fun translate => translate key).filter fun text => text ≠ key
  else none

/-- The message of the key, unless it is empty. -/
def message? (w : Wording) (key : String) : Option String :=
  (w.messages.bind fun message => message key).filter fun text => text ≠ ""

/-- The text to display: the translator's, else a message, else the default. -/
def read (w : Wording) (label field : String) : Option String :=
  ((w.translated? (key label field)).or (w.message? (key label field))).or (w.default? label field)

/-- The texts that entries define themselves, by key. -/
def exported (w : Wording) : Table String :=
  Table.mapValues WordingRecord.value (w.records.entries.filter fun entry => !entry.2.inherited)

end Wording

end MapConfig
