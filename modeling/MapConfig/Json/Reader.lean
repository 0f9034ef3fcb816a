import MapConfig.Json.Token

/-! Reading a tree from the tokens of a JSON text, one token at a time: the
containers still open are kept as a stack, whose height is bounded. -/
namespace MapConfig.Json

/-- Containers may nest this deep. -/
def depthLimit : Nat := 127

/-- A container around the value being read: the items before it, last first,
or the entries before it and its own key. -/
inductive Frame where
  | items (before : List Tree)
  | entries (before : Mapping) (key : String)

/-- What has been read and what may follow. -/
inductive Progress where
  | value (stack : List Frame)
  | firstItem (stack : List Frame)
  | afterItem (before : List Tree) (stack : List Frame)
  | firstKey (stack : List Frame)
  | key (before : Mapping) (stack : List Frame)
  | colon (before : Mapping) (key : String) (stack : List Frame)
  | afterEntry (before : Mapping) (stack : List Frame)
  | done (value : Tree)

/-- A value is complete: it goes into the container around it. A key that is
repeated keeps its last value. -/
def deliver (value : Tree) : List Frame → Progress
  | [] => .done value
  | .items before :: stack => .afterItem (value :: before) stack
  | .entries before key :: stack => .afterEntry (before.insert key value) stack

/-- The start of a value: a scalar is complete, a container is opened if there is room. -/
def startValue? (stack : List Frame) : Token → Option Progress
  | .scalar value => some (deliver value stack)
  | .openList => if stack.length < depthLimit then some (.firstItem stack) else none
  | .openMapping => if stack.length < depthLimit then some (.firstKey stack) else none
  | _ => none

/-- One token more. No rule for a token means that the text is no document. -/
def Progress.step? : Progress → Token → Option Progress
  | .value stack, token => startValue? stack token
  | .firstItem stack, .closeList => some (deliver (.list []) stack)
  | .firstItem stack, token => startValue? (.items [] :: stack) token
  | .afterItem before stack, .comma => some (.value (.items before :: stack))
  | .afterItem before stack, .closeList => some (deliver (.list before.reverse) stack)
  | .firstKey stack, .closeMapping => some (deliver (.mapping []) stack)
  | .firstKey stack, .scalar (.text name) => some (.colon [] name stack)
  | .key before stack, .scalar (.text name) => some (.colon before name stack)
  | .colon before name stack, .colon => some (.value (.entries before name :: stack))
  | .afterEntry before stack, .comma => some (.key before stack)
  | .afterEntry before stack, .closeMapping => some (deliver (.mapping before) stack)
  | _, _ => none

/-- The value, once it is complete. -/
def Progress.tree? : Progress → Option Tree
  | .done tree => some tree
  | _ => none

/-- Reads one document, or nothing if the text is not strict JSON. -/
def parse? (text : String) : Option Tree := do
  let tokens ← tokens? text.toList
  -- The whole text is one value, so the run starts before a value with nothing open.
  let progress ← tokens.foldlM Progress.step? (.value [])
  progress.tree?

/-- Reads a document from its bytes, which must be valid UTF-8. -/
def parseBytes? (bytes : ByteArray) : Option Tree := (String.fromUTF8? bytes).bind parse?

end MapConfig.Json
