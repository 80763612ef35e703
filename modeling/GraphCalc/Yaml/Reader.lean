import GraphCalc.Yaml.Scalar
import GraphCalc.Yaml.Token

/-!
# Reading tokens

Tokens are read one by one, as they are asked for.  A key without a mark of its
own is known as such only by the colon behind it, so the place of a possible key
is remembered, one for every level of brackets, until it is settled; the key
token is then put before it.  A token where a key may start is therefore held
back.

Closing a pair of brackets in which no key was possible lets go of a token that
is held back at their opening.  If a colon follows nevertheless, the key token
comes too late and stands behind the brackets.
-/

namespace GraphCalc.Yaml

/-- A place where a key may have started: the number of the token there, whether
nothing but a key can stand there, and whether the token is held back. -/
structure Candidate where
  number : Nat
  required : Bool
  mark : Mark
  holding : Bool
deriving DecidableEq, Repr

/-- A level of brackets: the candidate on it, and the number of the last token
that was one, or else of the opening bracket. -/
structure Level where
  number : Nat
  candidate : Option Candidate
deriving DecidableEq, Repr

/-- How far a document has been read.  The queue holds tokens that are not taken
yet; the first of them has the number `taken`. -/
structure Reader where
  place : Place
  indent : Int
  outerIndents : List Int
  keyAllowed : Bool
  level : Level
  outerLevels : List Level
  queue : List Token
  taken : Nat
deriving DecidableEq, Repr

namespace Reader

/-- The reader before the first token. -/
def ofText (encoding : Encoding) (text : List Char) : Reader :=
  ⟨Place.ofText encoding text, -1, [], true, ⟨0, none⟩, [], [], 1⟩

/-- The number of blocks or brackets that may stand around a value. -/
def depthLimit : Nat :=
  10000

/-- Whether this place is inside brackets. -/
def inFlow (reader : Reader) : Bool :=
  !reader.outerLevels.isEmpty

/-- The number of the next token. -/
def nextNumber (reader : Reader) : Nat :=
  reader.taken + reader.queue.length

/-- Whether a key that starts at a candidate could still end here: it takes one
line and at most 1024 characters. -/
def isOpen (reader : Reader) (candidate : Candidate) : Bool :=
  candidate.mark.line = reader.place.mark.line &&
    reader.place.mark.index ≤ candidate.mark.index + 1024

/-- The candidate that holds back the first token. -/
def holder? (reader : Reader) : Option Candidate :=
  (reader.level :: reader.outerLevels).findSome? fun level =>
    level.candidate.filter fun candidate =>
      candidate.holding && candidate.number = reader.taken

/-- Put a token before the one with a number, or last if that is taken
already. -/
def insert (reader : Reader) (number : Nat) (token : Token) : Reader :=
  let index := if number < reader.taken then reader.queue.length else number - reader.taken
  { reader with queue := reader.queue.insertIdx index token }

end Reader

/-- Reading on in a document. -/
abbrev Reading (α : Type) :=
  StateT Reader Option α

namespace Reading

/-- The document cannot be read. -/
def fail {α : Type} : Reading α :=
  fun _ => none

/-- Go on only under a condition. -/
def require (condition : Bool) : Reading Unit :=
  if condition then pure () else fail

/-- Read characters. -/
def scan {α : Type} (action : Scan α) : Reading α :=
  fun reader => do
    let (value, place) ← action reader.place
    some (value, { reader with place := place })

/-- The place that has been reached. -/
def mark : Reading Mark :=
  return (← get).place.mark

/-- Whether this place is inside brackets. -/
def inFlow : Reading Bool :=
  return (← get).inFlow

/-- Say whether a key may start at the next place. -/
def allowKey (allowed : Bool) : Reading Unit :=
  modify fun reader => { reader with keyAllowed := allowed }

/-- Add a token. -/
def emit (kind : TokenKind) (line : Nat) : Reading Unit :=
  modify fun reader => { reader with queue := reader.queue ++ [⟨kind, line⟩] }

/-- Add a token that consists of the next characters. -/
def emitSkipping (kind : TokenKind) (count : Nat) : Reading Unit := do
  emit kind (← mark).line
  scan (Scan.skipCount count)

/-- Add a token that is read from the characters here. -/
def emitScanned (action : Scan TokenKind) : Reading Unit := do
  let line := (← mark).line
  emit (← scan action) line

/-- Change the candidate of this level. -/
def setCandidate (candidate : Option Candidate) : Reading Unit :=
  modify fun reader => { reader with level := { reader.level with candidate := candidate } }

/-- Forget the candidate of this level, unless only a key can stand there. -/
def dropCandidate : Reading Unit := do
  require (!(← get).level.candidate.any Candidate.required)
  setCandidate none

/-- Remember this place as a possible start of a key, if keys may stand here. -/
def saveCandidate : Reading Unit := do
  let reader ← get
  if reader.keyAllowed then
    dropCandidate
    let mark := reader.place.mark
    let required := !reader.inFlow && reader.indent = mark.column
    let number := reader.nextNumber
    set { reader with level := ⟨number, some ⟨number, required, mark, true⟩⟩ }

/-- Start a block of entries at a column, if that is further right than the
block around it.  The token is put before the one with a number. -/
def startBlock (kind : TokenKind) (column number line : Nat) : Reading Unit := do
  let reader ← get
  if !reader.inFlow && reader.indent < column then
    let opened := { reader with
      indent := column
      outerIndents := reader.indent :: reader.outerIndents }
    require (opened.outerIndents.length ≤ Reader.depthLimit)
    set (opened.insert number ⟨kind, line⟩)

/-- Start a block of entries here. -/
def startBlockHere (kind : TokenKind) : Reading Unit := do
  let mark ← mark
  startBlock kind mark.column (← get).nextNumber mark.line

/-- The number of blocks that end before a column, and the indents left. -/
def unroll (column : Int) : Int → List Int → Nat × Int × List Int
  | indent, [] => (0, indent, [])
  | indent, outer :: others =>
      if indent > column then
        let (count, rest) := unroll column outer others
        (count + 1, rest)
      else
        (0, indent, outer :: others)

/-- End the blocks that are further right than a column. -/
def endBlocks (column : Int) : Reading Unit :=
  modify fun reader =>
    if reader.inFlow then
      reader
    else
      let (count, indent, outerIndents) := unroll column reader.indent reader.outerIndents
      { reader with
        indent := indent
        outerIndents := outerIndents
        queue := reader.queue ++ List.replicate count ⟨.blockEnd, reader.place.mark.line⟩ }

/-- Pass over blanks, comments and line ends.  Outside brackets a key may start
behind a line end, and a tab may not stand where a key may.  At the start of a
line one character is passed over if the characters at hand started with a byte
order mark. -/
def skipLayoutFrom : Nat → Reading Unit
  | 0 => fail
  | steps + 1 => do
      scan (Scan.need 1)
      let reader ← get
      if reader.place.mark.column = 0 && reader.place.marked then
        scan Scan.skip
      let tabs := reader.inFlow || !reader.keyAllowed
      let _ ← scan (Scan.takeWhile fun char => char = ' ' || (tabs && char = '\t'))
      if (← scan Scan.current) = '#' then
        let _ ← scan (Scan.takeWhile fun char => !endsLine char)
      if isBreak (← scan Scan.current) then
        scan Scan.skipLine
        if !reader.inFlow then
          allowKey true
        skipLayoutFrom steps

/-- Pass over blanks, comments and line ends. -/
def skipLayout : Reading Unit := do
  skipLayoutFrom (← scan Scan.stepLimit)

/-- Start anew behind a mark that ends all blocks. -/
def leaveBlocks : Reading Unit := do
  endBlocks (-1)
  dropCandidate
  allowKey false

/-- The end of the document, which stands on a line of its own. -/
def readEnd : Reading Unit := do
  modify fun reader =>
    let mark := reader.place.mark
    if mark.column = 0 then
      reader
    else
      { reader with
        place := { reader.place with mark := { mark with line := mark.line + 1, column := 0 } } }
  leaveBlocks
  emit .streamEnd (← mark).line

/-- A line with a percent sign. -/
def readDirective : Reading Unit := do
  leaveBlocks
  emitScanned do
    return .directive (← Directive.read)

/-- A mark between documents. -/
def readDivider (kind : TokenKind) : Reading Unit := do
  leaveBlocks
  emitSkipping kind 3

/-- An opening bracket, which may start a key. -/
def readOpening (kind : TokenKind) : Reading Unit := do
  let number := (← get).nextNumber
  saveCandidate
  modify fun reader =>
    { reader with
      level := ⟨number, none⟩
      outerLevels := reader.level :: reader.outerLevels }
  require ((← get).outerLevels.length ≤ Reader.depthLimit)
  allowKey true
  emitSkipping kind 1

/-- The level around brackets that are closed. -/
def closeLevel (inner outer : Level) : Level :=
  { outer with
    candidate := outer.candidate.map fun candidate =>
      { candidate with holding := candidate.holding && candidate.number ≠ inner.number } }

/-- A closing bracket. -/
def readClosing (kind : TokenKind) : Reading Unit := do
  dropCandidate
  modify fun reader =>
    match reader.outerLevels with
    | [] => reader
    | outer :: others =>
        { reader with level := closeLevel reader.level outer, outerLevels := others }
  allowKey false
  emitSkipping kind 1

/-- A comma between entries in brackets. -/
def readFlowEntry : Reading Unit := do
  dropCandidate
  allowKey true
  emitSkipping .flowEntry 1

/-- A mark before an entry or a key, which outside brackets may start a block. -/
def startEntry (kind : TokenKind) : Reading Unit := do
  let reader ← get
  require (reader.inFlow || reader.keyAllowed)
  startBlockHere kind

/-- A dash before an entry of a block. -/
def readBlockEntry : Reading Unit := do
  startEntry .blockSequenceStart
  dropCandidate
  allowKey true
  emitSkipping .blockEntry 1

/-- A question mark before a key. -/
def readKey : Reading Unit := do
  startEntry .blockMappingStart
  dropCandidate
  allowKey (!(← inFlow))
  emitSkipping .key 1

/-- Settle a candidate as a key. -/
def settle (candidate : Candidate) : Reading Unit := do
  modify fun reader => reader.insert candidate.number ⟨.key, candidate.mark.line⟩
  startBlock .blockMappingStart candidate.mark.column candidate.number candidate.mark.line
  setCandidate none
  allowKey false

/-- A colon before a value.  It settles the candidate of this level, if that
can still be a key. -/
def readValue : Reading Unit := do
  let reader ← get
  match reader.level.candidate.filter reader.isOpen with
  | some candidate => settle candidate
  | none =>
      dropCandidate
      startEntry .blockMappingStart
      allowKey (!reader.inFlow)
  emitSkipping .value 1

/-- Something that may start a key and is read from the characters here. -/
def readSimple (action : Scan TokenKind) : Reading Unit := do
  saveCandidate
  allowKey false
  emitScanned action

/-- A block scalar. -/
def readBlock (literal : Bool) : Reading Unit := do
  dropCandidate
  allowKey true
  let indent := (← get).indent
  emitScanned do
    return .scalar false (String.ofList (← Block.read literal indent))

/-- A plain scalar.  A key may start behind it if its line ends there. -/
def readPlain : Reading Unit := do
  saveCandidate
  let reader ← get
  let (text, endsLine) ← scan (Plain.read reader.inFlow (reader.indent + 1).toNat)
  allowKey endsLine
  emit (.scalar true (String.ofList text)) reader.place.mark.line

/-- Whether a plain scalar may start with a character before another one. -/
def startsPlain (inFlow : Bool) (char next : Char) : Bool :=
  if char = '-' then
    !isBlank next
  else if char = '?' || char = ':' then
    !inFlow && !endsWord next
  else
    !endsWord char && !([',', '[', ']', '\x7b', '\x7d', '#', '&', '*', '!', '|', '>', '\'',
      '"', '%', '@', '\x60'].contains char)

/-- The token at a place that is no layout. -/
def readToken : Reading Unit := do
  let place := (← get).place
  let flow ← inFlow
  let char := place.charAt 0
  let next := place.charAt 1
  if char = endChar then
    readEnd
  else if place.mark.column = 0 && char = '%' then
    readDirective
  else if place.atDivider '-' then
    readDivider .documentStart
  else if place.atDivider '.' then
    readDivider .documentEnd
  else if char = '[' then
    readOpening .flowSequenceStart
  else if char = '\x7b' then
    readOpening .flowMappingStart
  else if char = ']' then
    readClosing .flowSequenceEnd
  else if char = '\x7d' then
    readClosing .flowMappingEnd
  else if char = ',' then
    readFlowEntry
  else if char = '-' && endsWord next then
    readBlockEntry
  else if char = '?' && (flow || endsWord next) then
    readKey
  else if char = ':' && (flow || endsWord next) then
    readValue
  else if char = '*' then
    readSimple do
      return .reference (← readName)
  else if char = '&' then
    readSimple do
      return .anchor (← readName)
  else if char = '!' then
    readSimple do
      return .tag (← WrittenTag.read)
  else if !flow && (char = '|' || char = '>') then
    readBlock (char = '|')
  else if char = '\'' || char = '"' then
    readSimple do
      return .scalar false (String.ofList (← Quoted.read char))
  else if startsPlain flow char next then
    readPlain
  else
    fail

/-- Read one more token, with the tokens that the layout before it gives. -/
def fetch : Reading Unit := do
  skipLayout
  endBlocks (← mark).column
  scan (Scan.need 4)
  readToken

/-- Read tokens until there is one that is not held back, in a limited number
of steps. -/
def fill : Nat → Reading Unit
  | 0 => fail
  | steps + 1 => do
      let reader ← get
      if reader.queue.isEmpty then
        fetch
        fill steps
      else
        match reader.holder? with
        | none => pure ()
        | some candidate =>
            if reader.isOpen candidate then
              fetch
              fill steps
            else
              require (!candidate.required)

/-- The next token. -/
def peek : Reading Token := do
  fill (← scan Scan.stepLimit)
  match (← get).queue with
  | token :: _ => return token
  | [] => fail

/-- Take the next token, which has been looked at. -/
def take : Reading Unit :=
  modify fun reader =>
    { reader with queue := reader.queue.drop 1, taken := reader.taken + 1 }

end Reading

end GraphCalc.Yaml
