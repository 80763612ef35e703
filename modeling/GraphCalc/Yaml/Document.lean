import GraphCalc.Yaml.Node
import GraphCalc.Yaml.Reader

/-!
# Reading documents

The tree of a document is built from its tokens as they are read.  An entry that
is left out is an empty plain scalar.  Only the first document of a stream is
read, and what follows it is looked at only as far as one token.
-/

namespace GraphCalc.Yaml

/-- How far a tree has been built: what the handles of tags stand for, which
numbers the names stand for, the values with these numbers, and how many
references there are. -/
structure Builder where
  reader : Reader
  handles : List (String × String)
  numbers : List (String × Nat)
  named : Array Node
  references : Nat

/-- Building a tree. -/
abbrev Building (α : Type) :=
  StateT Builder Option α

namespace Building

/-- There is no such tree. -/
def fail {α : Type} : Building α :=
  fun _ => none

/-- Go on only under a condition. -/
def require (condition : Bool) : Building Unit :=
  if condition then pure () else fail

/-- Read on in the document. -/
def lift {α : Type} (action : Reading α) : Building α :=
  fun builder => do
    let (value, reader) ← action builder.reader
    some (value, { builder with reader := reader })

/-- The next token. -/
def peek : Building Token :=
  lift Reading.peek

/-- Take the next token, which has been looked at. -/
def take : Building Unit :=
  lift Reading.take

/-- More than the number of tokens, each of which stands for a character or for
the start or the end of something. -/
def stepLimit : Building Nat :=
  return 8 * ((← get).reader.place.size + 4)

/-- The name and the tag before a value. -/
structure Properties where
  name : Option String
  tag : Option WrittenTag

/-- The name here, if there is one. -/
def readName? : Building (Option String) := do
  match (← peek).kind with
  | .anchor name =>
      take
      return some name
  | _ => return none

/-- The tag here, if there is one. -/
def readTag? : Building (Option WrittenTag) := do
  match (← peek).kind with
  | .tag tag =>
      take
      return some tag
  | _ => return none

/-- The name and the tag before a value, in either order. -/
def readProperties : Building Properties := do
  match ← readName? with
  | some name => return ⟨some name, ← readTag?⟩
  | none =>
      match ← readTag? with
      | some tag => return ⟨← readName?, some tag⟩
      | none => return ⟨none, none⟩

/-- The text that a tag stands for. -/
def expandTag (tag : WrittenTag) : Building String := do
  if tag.handle = "" then
    return tag.suffix
  match (← get).handles.lookup tag.handle with
  | some expansion => return expansion ++ tag.suffix
  | none => fail

/-- Give a name the next number.  Its value is not known yet. -/
def addName (name : String) : Building Nat := do
  let builder ← get
  let number := builder.named.size
  set { builder with
    numbers := (name, number) :: builder.numbers
    named := builder.named.push default }
  return number

/-- Note the value with a number. -/
def setNamed (number : Nat) (node : Node) : Building Unit :=
  modify fun builder => { builder with named := builder.named.setIfInBounds number node }

/-- A reference to a name. -/
def readReference (name : String) (line : Nat) : Building Node := do
  take
  let builder ← get
  match builder.numbers.lookup name with
  | some number =>
      set { builder with references := builder.references + 1 }
      return .reference line builder.references number
  | none => fail

/-- The kinds of tokens that can only stand behind a left-out entry of a block
of keys and values. -/
def endsPair : TokenKind → Bool
  | .key | .value | .blockEnd => true
  | _ => false

/-- The kinds of tokens that can only stand behind a left-out entry of a block
of items. -/
def endsItem : TokenKind → Bool
  | .blockEntry | .blockEnd => true
  | _ => false

/-- The kinds of tokens that can only stand behind a left-out entry of a block
of items without an indent of its own. -/
def endsLooseItem (kind : TokenKind) : Bool :=
  endsPair kind || kind = .blockEntry

/-- The kinds of tokens that can only stand behind a left-out value in
brackets. -/
def endsFlowValue (closing kind : TokenKind) : Bool :=
  kind = .flowEntry || kind = closing

/-- The kinds of tokens that can only stand behind a left-out key in
brackets. -/
def endsFlowKey (closing kind : TokenKind) : Bool :=
  kind = .value || endsFlowValue closing kind

/-- Reading one value.  Blocks can stand only outside brackets, and items
without an indent of their own only as keys or values of a block. -/
abbrev ValueReader :=
  (block loose : Bool) → Building Node

/-- The value here, or an empty one if the next token can only stand behind it.
An empty value counts as standing on the line of the mark before it, if that is
given, and otherwise on the line of the next token. -/
def readUnless (ends : TokenKind → Bool) (markLine : Option Nat) (readValue : Building Node) :
    Building Node := do
  let token ← peek
  if ends token.kind then
    return .empty (markLine.getD token.line)
  else
    readValue

/-- The value behind a colon, or an empty one if there is no colon.  An empty
value stands on the line of the colon if `atMark` holds. -/
def readColonValue (ends : TokenKind → Bool) (atMark : Bool) (readValue : Building Node) :
    Building Node := do
  let token ← peek
  if token.kind = .value then
    take
    readUnless ends (if atMark then some token.line else none) readValue
  else
    return .empty token.line

/-- The items of a block, up to its end. -/
def readItems (readValue : ValueReader) : Nat → Building (List Node)
  | 0 => fail
  | steps + 1 => do
      let token ← peek
      match token.kind with
      | .blockEnd =>
          take
          return []
      | .blockEntry =>
          take
          let item ← readUnless endsItem (some token.line) (readValue true false)
          return item :: (← readItems readValue steps)
      | _ => fail

/-- The items of a block without an indent of its own. -/
def readLooseItems (readValue : ValueReader) : Nat → Building (List Node)
  | 0 => fail
  | steps + 1 => do
      let token ← peek
      if token.kind = .blockEntry then
        take
        let item ← readUnless endsLooseItem (some token.line) (readValue true false)
        return item :: (← readLooseItems readValue steps)
      else
        return []

/-- The keys and values of a block, up to its end. -/
def readPairs (readValue : ValueReader) : Nat → Building (List (Node × Node))
  | 0 => fail
  | steps + 1 => do
      let token ← peek
      match token.kind with
      | .blockEnd =>
          take
          return []
      | .key =>
          take
          let key ← readUnless endsPair (some token.line) (readValue true true)
          let value ← readColonValue endsPair true (readValue true true)
          return (key, value) :: (← readPairs readValue steps)
      | _ => fail

/-- The entries in brackets, up to the closing one.  A comma may stand behind
the last one. -/
def readFlow {α : Type} (closing : TokenKind) (readEntry : Building α) :
    Nat → Bool → Building (List α)
  | 0, _ => fail
  | steps + 1, isFirst => do
      if (← peek).kind = closing then
        take
        return []
      if !isFirst then
        require ((← peek).kind = .flowEntry)
        take
        if (← peek).kind = closing then
          take
          return []
      let entry ← readEntry
      return entry :: (← readFlow closing readEntry steps false)

/-- An item in brackets.  A key makes it a mapping of one pair. -/
def readFlowItem (readValue : ValueReader) : Building Node := do
  let token ← peek
  if token.kind = .key then
    take
    let next ← peek
    let key ←
      if endsFlowKey .flowSequenceEnd next.kind then
        take
        pure (Node.empty next.line)
      else
        readValue false false
    let value ←
      readColonValue (endsFlowValue .flowSequenceEnd) true (readValue false false)
    return .mapping token.line [(key, value)]
  else
    readValue false false

/-- A key and a value in brackets.  A value alone is a key without a value. -/
def readFlowPair (readValue : ValueReader) : Building (Node × Node) := do
  if (← peek).kind = .key then
    take
    let key ← readUnless (endsFlowKey .flowMappingEnd) none (readValue false false)
    let value ←
      readColonValue (endsFlowValue .flowMappingEnd) false (readValue false false)
    return (key, value)
  else
    let key ← readValue false false
    return (key, .empty (← peek).line)

/-- What stands behind the name and the tag of a value.  Without anything there
it is an empty scalar, which needs a name or a tag. -/
def readContent (readValue : ValueReader) (block loose : Bool) (line : Nat)
    (isNamed : Bool) (tag : Option String) : Building Node := do
  let limit ← stepLimit
  match (← peek).kind with
  | .scalar plain text =>
      take
      return .scalar line (tag = some "!" || (tag.isNone && plain)) tag text
  | .flowSequenceStart =>
      take
      return .sequence line
        (← readFlow .flowSequenceEnd (readFlowItem readValue) limit true)
  | .flowMappingStart =>
      take
      return .mapping line
        (← readFlow .flowMappingEnd (readFlowPair readValue) limit true)
  | kind =>
      if loose && kind = .blockEntry then
        return .sequence line (← readLooseItems readValue limit)
      else if block && kind = .blockSequenceStart then
        take
        return .sequence line (← readItems readValue limit)
      else if block && kind = .blockMappingStart then
        take
        return .mapping line (← readPairs readValue limit)
      else
        require (isNamed || tag.isSome)
        return .scalar line tag.isNone tag ""

/-- Read a value in which values are nested to a limited depth. -/
def readNode : Nat → ValueReader
  | 0, _, _ => fail
  | depth + 1, block, loose => do
      let token ← peek
      match token.kind with
      | .reference name => readReference name token.line
      | _ =>
          let properties ← readProperties
          let tag ← properties.tag.mapM expandTag
          let number ← properties.name.mapM addName
          let node ←
            readContent (readNode depth) block loose token.line properties.name.isSome tag
          if let some number := number then
            setNamed number node
          return node

/-- Read the directives before a document.  They are for one version only, and
each says something that was not said before. -/
def readDirectives (hasVersion : Bool) : Nat → Building Unit
  | 0 => fail
  | steps + 1 => do
      match (← peek).kind with
      | .directive (.version major minor) =>
          require (!hasVersion && major = 1 && minor = 1)
          take
          readDirectives true steps
      | .directive (.handle handle expansion) =>
          let builder ← get
          require (builder.handles.lookup handle).isNone
          set { builder with handles := (handle, expansion) :: builder.handles }
          take
          readDirectives hasVersion steps
      | _ => pure ()

/-- What the handles stand for that need no directive. -/
def commonHandles : List (String × String) :=
  [("!", "!"), ("!!", "tag:yaml.org,2002:")]

/-- Whether a document without content ends at a token. -/
def endsDocument : TokenKind → Bool
  | .directive _ | .documentStart | .documentEnd | .streamEnd => true
  | _ => false

/-- Read the tree of the first document of a stream; an empty stream has
none. -/
def readRoot : Building (Option Node) := do
  let limit ← stepLimit
  let first ← peek
  if first.kind = .streamEnd then
    return none
  readDirectives false limit
  modify fun builder => { builder with handles := builder.handles ++ commonHandles }
  let root ←
    if endsDocument first.kind && first.kind ≠ .documentEnd then do
      require ((← peek).kind = .documentStart)
      take
      readUnless endsDocument none (readNode limit true false)
    else
      readNode limit true false
  let _ ← peek
  return some root

end Building

/-- The first document in a text; an empty stream has none.  A malformed stream
gives nothing. -/
def Document.ofText? (encoding : Encoding) (text : List Char) : Option (Option Document) := do
  let (root, builder) ← Building.readRoot ⟨Reader.ofText encoding text, [], [], #[], 0⟩
  some (root.map fun root => ⟨root, builder.named⟩)

end GraphCalc.Yaml
