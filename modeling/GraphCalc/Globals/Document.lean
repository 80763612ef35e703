import GraphCalc.Globals.Declarations
import GraphCalc.Text.Utf16
import GraphCalc.Yaml.Document
import GraphCalc.Yaml.Tag

/-!
# Globals documents

A globals document is a mapping with one entry, `globals`, which maps variables
to type names.  A merge key stands for the entries of the mappings that are its
value, the last of them first.  Whatever is out of place is collected; a document
with anything out of place declares nothing.
-/

namespace GraphCalc.Globals

open Text (Bytes)
open Yaml (Node Tag Meaning)

/-- What is out of place in a document. -/
inductive Mistake
  /-- A value of another kind than its place demands. -/
  | mismatch (tag : Tag) (text : String) (target : String)
  /-- A field that documents do not have. -/
  | unknownField (name : Bytes)
  /-- A field that is given again. -/
  | repeatedField (name : Bytes)
  /-- A variable that is declared again. -/
  | repeatedKey (name : Bytes)
deriving DecidableEq, Repr

/-- A mistake and its line, counted from one. -/
structure LineMistake where
  line : Nat
  mistake : Mistake
deriving DecidableEq, Repr

/-- The text of a byte sequence. -/
def decoded (bytes : Bytes) : String :=
  String.ofList (Text.decode bytes)

/-- A value as it is shown in a mistake: only the first seven bytes of a long
one. -/
def shown (text : String) : String :=
  let bytes := Text.utf8 text
  if bytes.length > 10 then
    decoded (bytes.take 7) ++ "..."
  else
    text

/-- The wording of a mistake.  With the tag of a collection there are no quotes
around the text, which is empty for a collection. -/
def Mistake.message : Mistake → String
  | mismatch tag text target =>
      let value := if tag = .seq || tag = .map then text else " `" ++ shown text ++ "`"
      "cannot unmarshal " ++ tag.name ++ value ++ " into " ++ target
  | unknownField name => "field " ++ decoded name ++ " not found in type config.File"
  | repeatedField name => "field " ++ decoded name ++ " already set in type config.File"
  | repeatedKey name => "key " ++ Text.quoteBytes name ++ " already set in map"

/-- The line and the wording of a mistake. -/
def LineMistake.text (mistake : LineMistake) : String :=
  "line " ++ toString mistake.line ++ ": " ++ mistake.mistake.message

/-- Why a document declares nothing. -/
inductive DocumentError
  /-- It is no document at all. -/
  | malformed
  /-- Something in it is out of place. -/
  | mistaken (mistakes : List LineMistake)
deriving DecidableEq, Repr

/-- The wording of an error. -/
def DocumentError.text : DocumentError → String
  | malformed => "could not parse globals file: yaml: syntax error"
  | mistaken mistakes =>
      "could not parse globals file: yaml: unmarshal errors:" ++
        String.join (mistakes.map fun mistake => "\n  " ++ mistake.text)

/-- How much has been read: the declarations, the mistakes with the last one
first, how many values were looked at, and how many of them behind a
reference. -/
structure Progress where
  declared : List Declaration
  mistakes : List LineMistake
  visited : Nat
  referred : Nat
deriving DecidableEq, Repr

/-- Whether too many of the values looked at are behind references.  At first 99
in a hundred may be, and ever fewer from 400000 values on, down to 10 in a
hundred at 4000000. -/
def Progress.isExcessive (progress : Progress) : Bool :=
  let most := 99 * 3600000 - 89 * (min progress.visited 4000000 - 400000)
  progress.referred > 100 && progress.visited > 1000 &&
    progress.referred * 100 * 3600000 > most * progress.visited

/-- Reading a document.  A document that cannot be read gives nothing. -/
abbrev Decoding (α : Type) :=
  StateT Progress Option α

namespace Decoding

/-- The document cannot be read. -/
def fail {α : Type} : Decoding α :=
  fun _ => none

/-- Go on only under a condition. -/
def require (condition : Bool) : Decoding Unit :=
  if condition then pure () else fail

/-- Count a value that is looked at. -/
def visit (isReferred : Bool) : Decoding Unit := do
  modify fun progress => { progress with
    visited := progress.visited + 1
    referred := if isReferred then progress.referred + 1 else progress.referred }
  require (!(← get).isExcessive)

/-- Note a mistake at a value. -/
def addMistake (node : Node) (mistake : Mistake) : Decoding Unit :=
  modify fun progress =>
    { progress with mistakes := ⟨node.line + 1, mistake⟩ :: progress.mistakes }

/-- Note a declaration of a variable that is not declared yet. -/
def declare (value : Node) (declaration : Declaration) : Decoding Unit := do
  if (← get).declared.any fun other => other.name = declaration.name then
    addMistake value (.repeatedKey declaration.name)
  else
    modify fun progress => { progress with declared := progress.declared ++ [declaration] }

end Decoding

open Decoding

/-- What a value is read as. -/
inductive Target
  | document
  | globals
  | text
deriving DecidableEq, Repr

/-- The name of a target in a mistake. -/
def Target.name : Target → String
  | document => "config.File"
  | globals => "map[string]string"
  | text => "string"

/-- Note a value of the wrong kind. -/
def addMismatch (target : Target) (node : Node) (tag : Tag) (text : String) :
    Decoding (Option Bytes) := do
  addMistake node (.mismatch tag text target.name)
  return none

/-- Reading a value.  The result is the bytes of a text if the value is read as
one and fits. -/
abbrev ValueDecoder :=
  Target → Node → Decoding (Option Bytes)

/-- Read a scalar.  Nothing stands for an empty text, and as `globals` it
withdraws all declarations. -/
def decodeScalar (target : Target) (node : Node) (isImplicit : Bool) (tag : Option String)
    (text : String) : Decoding (Option Bytes) := do
  match Meaning.ofScalar? isImplicit tag text with
  | none => fail
  | some ⟨_, none⟩ =>
      if target ≠ .text then
        modify fun progress => { progress with declared := [] }
      return some []
  | some ⟨found, some value⟩ =>
      if target = .text then
        return some value
      else
        addMismatch target node found text

/-- Whether a value is a mapping or a reference to one. -/
def isMapping (document : Yaml.Document) : Node → Bool
  | .mapping _ _ => true
  | .reference _ _ target => (document.named[target]?).any fun
      | .mapping _ _ => true
      | _ => false
  | _ => false

/-- Read the value of a merge key: a mapping, or a sequence of mappings, the
last one first. -/
def decodeMerge (document : Yaml.Document) (decode : ValueDecoder) (target : Target)
    (node : Node) : Decoding Unit := do
  let sources :=
    match node with
    | .sequence _ items => items.reverse
    | _ => [node]
  sources.forM fun source => do
    require (isMapping document source)
    discard (decode target source)

/-- Read the fields of a document.  A repeated field is not looked into. -/
def decodeFields (document : Yaml.Document) (decode : ValueDecoder) (isDone : Bool) :
    List (Node × Node) → Decoding Unit
  | [] => pure ()
  | (key, value) :: rest => do
      if key.isMerge then
        decodeMerge document decode .document value
        decodeFields document decode isDone rest
      else
        match ← decode .text key with
        | none => decodeFields document decode isDone rest
        | some name =>
            if name ≠ Text.utf8 "globals" then
              addMistake key (.unknownField name)
              decodeFields document decode isDone rest
            else if isDone then
              addMistake key (.repeatedField name)
              decodeFields document decode isDone rest
            else
              discard (decode .globals value)
              decodeFields document decode true rest

/-- Read the declaration of a variable. -/
def decodeDeclaration (document : Yaml.Document) (decode : ValueDecoder)
    (key value : Node) : Decoding Unit := do
  if key.isMerge then
    decodeMerge document decode .globals value
  else if let some name ← decode .text key then
    if let some typeName ← decode .text value then
      declare value ⟨name, typeName⟩

/-- Read a value, given the references that it stands behind.  References are
followed to a limited depth, and no reference stands behind itself. -/
def decode (document : Yaml.Document) : Nat → List Nat → ValueDecoder
  | 0, _, _, _ => fail
  | depth + 1, active, target, node => do
      visit (!active.isEmpty)
      match node with
      | .reference _ number goal =>
          require (!active.contains number)
          match document.named[goal]? with
          | some value => decode document depth (number :: active) target value
          | none => fail
      | .scalar _ isImplicit tag text => decodeScalar target node isImplicit tag text
      | .sequence _ _ => addMismatch target node .seq ""
      | .mapping _ pairs =>
          match target with
          | .document =>
              decodeFields document (decode document depth active) false pairs
              return none
          | .globals =>
              pairs.forM fun (key, value) =>
                decodeDeclaration document (decode document depth active) key value
              return none
          | .text => addMismatch target node .map ""

/-- Read a whole document, which counts as a value itself.  With at most `size`
references and values nested at most as deeply, the depth suffices. -/
def decodeDocument (size : Nat) (document : Yaml.Document) : Decoding Unit := do
  visit false
  discard (decode document ((size + 2) * (size + 2)) [] .document document.root)

/-- The declarations in a text, given how it is encoded. -/
def declarationsIn (encoding : Yaml.Encoding) (text : List Char) :
    Except DocumentError (List Declaration) :=
  match Yaml.Document.ofText? encoding text with
  | none => .error .malformed
  | some none => .ok []
  | some (some document) =>
      match decodeDocument text.length document ⟨[], [], 0, 0⟩ with
      | none => .error .malformed
      | some ((), progress) =>
          if progress.mistakes.isEmpty then
            .ok progress.declared
          else
            .error (.mistaken progress.mistakes.reverse)

/-- The declarations in a text. -/
def declarations (text : List Char) : Except DocumentError (List Declaration) :=
  declarationsIn .utf8 text

/-- The declarations in a file.  A byte order mark shows that the encoding is
UTF-16.  Bytes that encode no character stand for one that a document may not
hold. -/
def declarationsOfBytes (bytes : Bytes) : Except DocumentError (List Declaration) :=
  match bytes with
  | 0xFF :: 0xFE :: _ => declarationsIn .utf16 (Text.decodeUtf16 .little Yaml.endChar bytes)
  | 0xFE :: 0xFF :: _ => declarationsIn .utf16 (Text.decodeUtf16 .big Yaml.endChar bytes)
  | _ =>
      declarations ((Text.units bytes).map fun
        | .char value => value
        | .stray _ => Yaml.endChar)

end GraphCalc.Globals
