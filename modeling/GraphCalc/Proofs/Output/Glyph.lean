import GraphCalc.Output.Latex
import GraphCalc.Proofs.Output.WellFormed
import Mathlib.Data.List.Chain

/-!
# Glyphs

The text of a formula is a sequence of glyphs: numbers, names, and words of a
fixed vocabulary.  A byte sequence can be cut into glyphs in one way at most, as
long as no two numbers stand side by side.  Numbers and names are told by their
first bytes; no word of the vocabulary is the beginning of another, except that
the end of a fraction is the beginning of what stands between its parts, and no
glyph starts with the brace that decides between these two.
-/

namespace GraphCalc.Layout

open Text (Bytes utf8)

/-! ## Bytes of plain characters -/

/-- The byte of a character below 128. -/
def byteOf (char : Char) : UInt8 :=
  UInt8.ofNat char.toNat

theorem toNat_byteOf {char : Char} (plain : char.toNat < 128) :
    (byteOf char).toNat = char.toNat := by
  rw [byteOf, UInt8.toNat_ofNat', Nat.mod_eq_of_lt]
  omega

theorem flatMap_utf8EncodeChar {chars : List Char} (plain : ∀ char ∈ chars, char.toNat < 128) :
    chars.flatMap String.utf8EncodeChar = chars.map byteOf := by
  induction chars with
  | nil => rfl
  | cons char chars ih =>
      rw [List.forall_mem_cons] at plain
      have encoded : String.utf8EncodeChar char = [byteOf char] := by
        unfold String.utf8EncodeChar
        exact if_pos (Nat.le_of_lt_succ plain.1)
      rw [List.flatMap_cons, encoded, ih plain.2]
      rfl

theorem map_byteOf_inj {left right : List Char} (leftPlain : ∀ char ∈ left, char.toNat < 128)
    (rightPlain : ∀ char ∈ right, char.toNat < 128)
    (bytesEq : left.map byteOf = right.map byteOf) : left = right := by
  induction left generalizing right with
  | nil => exact (List.map_eq_nil_iff.1 bytesEq.symm).symm
  | cons char left ih =>
      cases right with
      | nil => cases bytesEq
      | cons char' right =>
          rw [List.forall_mem_cons] at leftPlain rightPlain
          rw [List.map_cons, List.map_cons, List.cons.injEq] at bytesEq
          have charEq : char = char' := by
            apply Char.toNat_inj.1
            rw [← toNat_byteOf leftPlain.1, ← toNat_byteOf rightPlain.1, bytesEq.1]
          rw [charEq, ih leftPlain.2 rightPlain.2 bytesEq.2]

/-- What a byte can be the beginning of. -/
inductive ByteClass
  | digit
  | point
  | letter
  | brace
  | other
deriving DecidableEq

def ByteClass.of (byte : UInt8) : ByteClass :=
  if 48 ≤ byte.toNat ∧ byte.toNat ≤ 57 then .digit
  else if byte.toNat = 46 then .point
  else if (65 ≤ byte.toNat ∧ byte.toNat ≤ 90) ∨ (97 ≤ byte.toNat ∧ byte.toNat ≤ 122) ∨
      byte.toNat = 95 then .letter
  else if byte.toNat = 123 then .brace
  else .other

/-! ## Names and numbers -/

theorem lt_of_isDigit {char : Char} (digit : char.isDigit = true) : char.toNat < 128 := by
  rw [Lexeme.isDigit_iff] at digit
  omega

theorem lt_of_isLetter {char : Char} (letter : Lexeme.isLetter char = true) :
    char.toNat < 128 := by
  rw [Lexeme.isLetter_iff] at letter
  omega

theorem class_byteOf_of_isDigit {char : Char} (digit : char.isDigit = true) :
    ByteClass.of (byteOf char) = .digit := by
  rw [ByteClass.of, toNat_byteOf (lt_of_isDigit digit), if_pos ((Lexeme.isDigit_iff char).1 digit)]

theorem class_byteOf_of_isLetter {char : Char} (letter : Lexeme.isLetter char = true) :
    ByteClass.of (byteOf char) = .letter := by
  have range := (Lexeme.isLetter_iff char).1 letter
  rw [ByteClass.of, toNat_byteOf (lt_of_isLetter letter), if_neg (by omega), if_neg (by omega),
    if_pos range]

theorem lt_of_isLetterOrDigit {char : Char} (wordChar : Lexeme.isLetterOrDigit char = true) :
    char.toNat < 128 := by
  rcases Bool.or_eq_true_iff.1 wordChar with letter | digit
  · exact lt_of_isLetter letter
  · exact lt_of_isDigit digit

theorem plain_of_isName {name : List Char} (shape : Lexeme.IsName name) :
    ∀ char ∈ name, char.toNat < 128 := by
  cases name with
  | nil => exact absurd shape id
  | cons first rest =>
      rw [List.forall_mem_cons]
      refine ⟨lt_of_isLetter shape.1, ?_⟩
      intro char isMember
      exact lt_of_isLetterOrDigit (shape.2 char isMember)

theorem plain_of_isDigits {digits : List Char} (shape : Lexeme.IsDigits digits) :
    ∀ char ∈ digits, char.toNat < 128 := by
  intro char isMember
  exact lt_of_isDigit (shape.2 char isMember)

theorem plain_of_isNumeral {digits : List Char} (shape : Lexeme.IsNumeral digits) :
    ∀ char ∈ digits, char.toNat < 128 := by
  cases shape with
  | whole shape => exact plain_of_isDigits shape
  | decimal shape fractionShape =>
      rw [List.forall_mem_append, List.forall_mem_cons]
      exact ⟨plain_of_isDigits shape, by decide, plain_of_isDigits fractionShape⟩

/-- Bytes that a number consists of. -/
def isNumeralByte (byte : UInt8) : Bool :=
  ByteClass.of byte = .digit || ByteClass.of byte = .point

theorem isNumeralByte_of_isDigits {digits : List Char} (shape : Lexeme.IsDigits digits) :
    ∀ byte ∈ digits.map byteOf, isNumeralByte byte = true := by
  rw [List.forall_mem_map]
  intro char isMember
  simp [isNumeralByte, class_byteOf_of_isDigit (shape.2 char isMember)]

theorem isNumeralByte_of_isNumeral {digits : List Char} (shape : Lexeme.IsNumeral digits) :
    ∀ byte ∈ digits.map byteOf, isNumeralByte byte = true := by
  cases shape with
  | whole shape => exact isNumeralByte_of_isDigits shape
  | decimal shape fractionShape =>
      rw [List.map_append, List.map_cons, List.forall_mem_append, List.forall_mem_cons]
      exact ⟨isNumeralByte_of_isDigits shape, by decide, isNumeralByte_of_isDigits fractionShape⟩

/-- Two lists of elements that pass a test can be cancelled in front of elements
that do not. -/
theorem append_cancel_of_stop {α : Type} {test : α → Bool} {left right leftRest rightRest : List α}
    (leftPasses : ∀ item ∈ left, test item = true)
    (leftStops : ∀ item ∈ leftRest.head?, test item = false)
    (rightPasses : ∀ item ∈ right, test item = true)
    (rightStops : ∀ item ∈ rightRest.head?, test item = false)
    (appendEq : left ++ leftRest = right ++ rightRest) :
    left = right ∧ leftRest = rightRest := by
  have taken := congrArg (List.takeWhile test) appendEq
  have dropped := congrArg (List.dropWhile test) appendEq
  rw [Lexeme.takeWhile_append_of_stop leftPasses leftStops,
    Lexeme.takeWhile_append_of_stop rightPasses rightStops] at taken
  rw [Lexeme.dropWhile_append_of_stop leftPasses leftStops,
    Lexeme.dropWhile_append_of_stop rightPasses rightStops] at dropped
  exact ⟨taken, dropped⟩

theorem numeral_cancel {left right : String} {leftRest rightRest : Bytes}
    (leftShape : Lexeme.IsNumeral left.toList) (rightShape : Lexeme.IsNumeral right.toList)
    (leftStops : ∀ byte ∈ leftRest.head?, isNumeralByte byte = false)
    (rightStops : ∀ byte ∈ rightRest.head?, isNumeralByte byte = false)
    (bytesEq : utf8 left ++ leftRest = utf8 right ++ rightRest) :
    left = right ∧ leftRest = rightRest := by
  have leftPlain := plain_of_isNumeral leftShape
  have rightPlain := plain_of_isNumeral rightShape
  rw [utf8, utf8, flatMap_utf8EncodeChar leftPlain, flatMap_utf8EncodeChar rightPlain] at bytesEq
  rcases append_cancel_of_stop (isNumeralByte_of_isNumeral leftShape) leftStops
    (isNumeralByte_of_isNumeral rightShape) rightStops bytesEq with ⟨digitsEq, restEq⟩
  exact ⟨String.toList_inj.1 (map_byteOf_inj leftPlain rightPlain digitsEq), restEq⟩

/-- A name of one letter is its own text. -/
theorem identifier_of_single {name : String} {first : Char} (shape : Lexeme.IsName name.toList)
    (charsEq : name.toList = [first]) : Latex.identifier name = [byteOf first] := by
  have bytesEq := flatMap_utf8EncodeChar (plain_of_isName shape)
  unfold Latex.identifier
  rw [utf8, bytesEq, charsEq]
  rfl

/-- What stands behind the first letter of a name is a subscript. -/
theorem identifier_of_long {name : String} {first second : Char} {rest : List Char}
    (shape : Lexeme.IsName name.toList) (charsEq : name.toList = first :: second :: rest) :
    Latex.identifier name =
      byteOf first :: (utf8 "_\x7b" ++ ((second :: rest).map byteOf ++ utf8 "\x7d")) := by
  have bytesEq := flatMap_utf8EncodeChar (plain_of_isName shape)
  unfold Latex.identifier
  rw [utf8, bytesEq, charsEq]
  simp

theorem byteOf_ne_closing {char : Char} (wordChar : Lexeme.isLetterOrDigit char = true) :
    byteOf char ≠ 0x7D := by
  intro byteEq
  have natEq := congrArg UInt8.toNat byteEq
  rw [toNat_byteOf (lt_of_isLetterOrDigit wordChar)] at natEq
  rcases Bool.or_eq_true_iff.1 wordChar with letter | digit
  · rw [Lexeme.isLetter_iff, natEq] at letter
    simp at letter
  · rw [Lexeme.isDigit_iff, natEq] at digit
    simp at digit

theorem name_eq_of_bytes_eq {left right : String} (leftShape : Lexeme.IsName left.toList)
    (rightShape : Lexeme.IsName right.toList)
    (bytesEq : left.toList.map byteOf = right.toList.map byteOf) : left = right :=
  String.toList_inj.1
    (map_byteOf_inj (plain_of_isName leftShape) (plain_of_isName rightShape) bytesEq)

/-- A subscript ends at its closing brace. -/
theorem subscript_cancel {left right : List Char} {leftRest rightRest : Bytes}
    (leftShape : ∀ char ∈ left, Lexeme.isLetterOrDigit char = true)
    (rightShape : ∀ char ∈ right, Lexeme.isLetterOrDigit char = true)
    (bytesEq : left.map byteOf ++ 0x7D :: leftRest = right.map byteOf ++ 0x7D :: rightRest) :
    left.map byteOf = right.map byteOf ∧ leftRest = rightRest := by
  have inside : ∀ {chars : List Char},
      (∀ char ∈ chars, Lexeme.isLetterOrDigit char = true) →
        ∀ byte ∈ chars.map byteOf, decide (byte ≠ 0x7D) = true := by
    intro chars shape
    rw [List.forall_mem_map]
    intro char isMember
    exact decide_eq_true (byteOf_ne_closing (shape char isMember))
  have closing : ∀ {rest : Bytes}, ∀ byte ∈ (0x7D :: rest).head?,
      decide (byte ≠ 0x7D) = false := by
    rintro rest byte ⟨⟩
    decide
  rcases append_cancel_of_stop (inside leftShape) closing (inside rightShape) closing bytesEq with
    ⟨subscriptEq, restEq⟩
  exact ⟨subscriptEq, (List.cons.inj restEq).2⟩

/-- Names can be cancelled in front of bytes that do not start with a
subscript. -/
theorem identifier_cancel {left right : String} {leftRest rightRest : Bytes}
    (leftShape : Lexeme.IsName left.toList) (rightShape : Lexeme.IsName right.toList)
    (leftStops : ¬utf8 "_\x7b" <+: leftRest) (rightStops : ¬utf8 "_\x7b" <+: rightRest)
    (bytesEq : Latex.identifier left ++ leftRest = Latex.identifier right ++ rightRest) :
    left = right ∧ leftRest = rightRest := by
  have nameEq := name_eq_of_bytes_eq leftShape rightShape
  match leftChars : left.toList, rightChars : right.toList with
  | [], _ =>
      rw [leftChars] at leftShape
      exact absurd leftShape id
  | _, [] =>
      rw [rightChars] at rightShape
      exact absurd rightShape id
  | [first], [first'] =>
      rw [identifier_of_single leftShape leftChars, identifier_of_single rightShape rightChars]
        at bytesEq
      rcases List.cons.inj bytesEq with ⟨firstEq, restEq⟩
      rw [leftChars, rightChars] at nameEq
      exact ⟨nameEq (congrArg (fun byte => [byte]) firstEq), restEq⟩
  | [first], first' :: second' :: tail' =>
      rw [identifier_of_single leftShape leftChars, identifier_of_long rightShape rightChars]
        at bytesEq
      simp only [List.cons_append, List.nil_append, List.append_assoc, List.cons.injEq] at bytesEq
      rw [bytesEq.2] at leftStops
      exact absurd (List.prefix_append _ _) leftStops
  | first :: second :: tail, [first'] =>
      rw [identifier_of_long leftShape leftChars, identifier_of_single rightShape rightChars]
        at bytesEq
      simp only [List.cons_append, List.nil_append, List.append_assoc, List.cons.injEq] at bytesEq
      rw [← bytesEq.2] at rightStops
      exact absurd (List.prefix_append _ _) rightStops
  | first :: second :: tail, first' :: second' :: tail' =>
      rw [identifier_of_long leftShape leftChars, identifier_of_long rightShape rightChars]
        at bytesEq
      simp only [List.cons_append, List.append_assoc, List.cons.injEq,
        List.append_cancel_left_eq] at bytesEq
      rcases bytesEq with ⟨firstEq, subscriptEq⟩
      rw [leftChars] at leftShape
      rw [rightChars] at rightShape
      rcases subscript_cancel leftShape.2 rightShape.2 subscriptEq with ⟨tailEq, restEq⟩
      have bytesEq : byteOf first :: (second :: tail).map byteOf =
          byteOf first' :: (second' :: tail').map byteOf := by
        rw [firstEq, tailEq]
      rw [leftChars, rightChars] at nameEq
      exact ⟨nameEq bytesEq, restEq⟩

/-! ## The vocabulary -/

/-- A word of the fixed vocabulary. -/
inductive Word
  | plus
  | minus
  | bang
  | dot
  | comma
  | colon
  | relation (comparison : Comparison)
  | openGroup
  | closeGroup
  | openList
  | closeList
  | openCases
  | closeCases
  | openUpper
  | betweenParts
  | closeLower
  | openBuiltin (name : String)
deriving DecidableEq

namespace Word

/-- The bytes of a word. -/
def text : Word → Bytes
  | plus => utf8 "+"
  | minus => utf8 "-"
  | bang => utf8 "!"
  | dot => utf8 "\\cdot "
  | comma => utf8 ","
  | colon => utf8 ":"
  | relation comparison =>
      match Latex.comparison comparison with
      | .ok sign => sign
      | .error _ => []
  | openGroup => utf8 "\\left("
  | closeGroup => utf8 "\\right)"
  | openList => utf8 "\\left["
  | closeList => utf8 "\\right]"
  | openCases => utf8 "\\left\\\x7b"
  | closeCases => utf8 "\\right\\\x7d"
  | openUpper => utf8 "\\frac\x7b"
  | betweenParts => utf8 "\x7d\x7b"
  | closeLower => utf8 "\x7d"
  | openBuiltin name => utf8 "\\" ++ utf8 name ++ utf8 "\\left("

/-- All words: the names of functions are those of builtin ones. -/
def vocabulary : List Word :=
  [plus, minus, bang, dot, comma, colon, openGroup, closeGroup, openList, closeList, openCases,
    closeCases, openUpper, betweenParts, closeLower] ++
    Comparison.known.map relation ++ Builtin.names.map openBuiltin

/-- No word starts with another one, except for what stands between the parts of
a fraction. -/
theorem eq_of_prefix : ∀ left ∈ vocabulary, ∀ right ∈ vocabulary, left.text <+: right.text →
    left = right ∨ left = closeLower ∧ right = betweenParts := by
  decide +kernel

theorem class_head : ∀ word ∈ vocabulary,
    word.text.head?.map ByteClass.of = some .other := by
  decide +kernel

end Word

/-! ## Glyphs and their texts -/

/-- A part of the text of a formula.  The names of functions that a program
defines are written like those of variables. -/
inductive Glyph
  | numeral (digits : String)
  | variableName (name : String)
  | functionName (name : String)
  | word (entry : Word)
deriving DecidableEq

namespace Glyph

/-- The bytes of a glyph. -/
def text : Glyph → Bytes
  | numeral digits => utf8 digits
  | variableName name | functionName name => Latex.identifier name
  | word entry => entry.text

/-- Whether a glyph can occur where names are used in the given ways. -/
def Valid (uses : List NameUse) : Glyph → Prop
  | numeral digits => Lexeme.IsNumeral digits.toList
  | variableName name => Lexeme.IsName name.toList ∧ .var name ∈ uses
  | functionName name => Lexeme.IsName name.toList ∧ .function name ∈ uses
  | word entry => entry ∈ Word.vocabulary

/-- The class of a glyph's first byte. -/
def byteClass : Glyph → ByteClass
  | numeral _ => .digit
  | variableName _ | functionName _ => .letter
  | word _ => .other

def isNumeral : Glyph → Bool
  | numeral _ => true
  | _ => false

end Glyph

theorem class_head_identifier {name : String} (shape : Lexeme.IsName name.toList) :
    (Latex.identifier name).head?.map ByteClass.of = some .letter := by
  match chars : name.toList with
  | [] =>
      rw [chars] at shape
      exact absurd shape id
  | [first] =>
      rw [identifier_of_single shape chars]
      rw [chars] at shape
      exact congrArg some (class_byteOf_of_isLetter shape.1)
  | first :: second :: rest =>
      rw [identifier_of_long shape chars]
      rw [chars] at shape
      exact congrArg some (class_byteOf_of_isLetter shape.1)

theorem class_head_numeral {digits : String} (shape : Lexeme.IsNumeral digits.toList) :
    (utf8 digits).head?.map ByteClass.of = some .digit := by
  rw [utf8, flatMap_utf8EncodeChar (plain_of_isNumeral shape)]
  rcases shape.cons with ⟨first, rest, chars, digit⟩
  rw [chars]
  exact congrArg some (class_byteOf_of_isDigit digit)

theorem Glyph.class_head_text {uses : List NameUse} {glyph : Glyph}
    (valid : glyph.Valid uses) :
    glyph.text.head?.map ByteClass.of = some glyph.byteClass := by
  cases glyph with
  | numeral digits => exact class_head_numeral valid
  | variableName name => exact class_head_identifier valid.1
  | functionName name => exact class_head_identifier valid.1
  | word entry => exact Word.class_head entry valid

/-- The bytes of several glyphs. -/
def bytes (glyphs : List Glyph) : Bytes :=
  glyphs.flatMap Glyph.text

@[simp]
theorem bytes_nil : bytes [] = [] :=
  rfl

@[simp]
theorem bytes_cons (glyph : Glyph) (glyphs : List Glyph) :
    bytes (glyph :: glyphs) = glyph.text ++ bytes glyphs :=
  rfl

@[simp]
theorem bytes_append (left right : List Glyph) :
    bytes (left ++ right) = bytes left ++ bytes right :=
  List.flatMap_append

/-- Whether all glyphs can occur where names are used in the given ways. -/
def AllValid (uses : List NameUse) (glyphs : List Glyph) : Prop :=
  ∀ glyph ∈ glyphs, glyph.Valid uses

@[simp]
theorem allValid_nil (uses : List NameUse) : AllValid uses [] :=
  nofun

@[simp]
theorem allValid_cons {uses : List NameUse} {glyph : Glyph} {glyphs : List Glyph} :
    AllValid uses (glyph :: glyphs) ↔ glyph.Valid uses ∧ AllValid uses glyphs :=
  List.forall_mem_cons

@[simp]
theorem allValid_append {uses : List NameUse} {left right : List Glyph} :
    AllValid uses (left ++ right) ↔ AllValid uses left ∧ AllValid uses right :=
  List.forall_mem_append

/-- Whether no two numbers stand side by side. -/
def Separated (glyphs : List Glyph) : Prop :=
  glyphs.IsChain fun left right => ¬(left.isNumeral = true ∧ right.isNumeral = true)

/-- The first byte of some glyphs is that of the first of them. -/
theorem class_head_bytes {uses : List NameUse} {glyph : Glyph}
    (valid : glyph.Valid uses) (glyphs : List Glyph) :
    (bytes (glyph :: glyphs)).head?.map ByteClass.of = some glyph.byteClass := by
  have headClass := Glyph.class_head_text valid
  rw [bytes_cons]
  cases textEq : glyph.text with
  | nil =>
      rw [textEq] at headClass
      cases headClass
  | cons byte rest =>
      rw [textEq] at headClass
      exact headClass

/-- No glyph starts with a brace or a point, and none with a digit but a
number. -/
theorem class_head_of_allValid {uses : List NameUse} {glyphs : List Glyph}
    (valid : AllValid uses glyphs) :
    ∀ byte ∈ (bytes glyphs).head?, ByteClass.of byte ≠ .brace ∧ ByteClass.of byte ≠ .point ∧
      (ByteClass.of byte = .digit → ∀ glyph ∈ glyphs.head?, glyph.isNumeral = true) := by
  intro byte isHead
  cases glyphs with
  | nil => cases isHead
  | cons glyph glyphs =>
      have headClass := class_head_bytes (allValid_cons.1 valid).1 glyphs
      rw [isHead] at headClass
      have classEq := Option.some.inj headClass
      rw [classEq]
      cases glyph
      all_goals simp [Glyph.byteClass, Glyph.isNumeral]

/-- A name does not continue with a subscript that is not its own. -/
theorem not_subscript_identifier {name : String} {after : Bytes}
    (shape : Lexeme.IsName name.toList)
    (noBrace : ∀ byte ∈ after.head?, ByteClass.of byte ≠ .brace) :
    ¬utf8 "_\x7b" <+: Latex.identifier name ++ after := by
  rintro ⟨rest, textEq⟩
  match chars : name.toList with
  | [] =>
      rw [chars] at shape
      exact absurd shape id
  | [first] =>
      rw [identifier_of_single shape chars] at textEq
      have afterEq : 0x7B :: rest = after := (List.cons.inj textEq).2
      subst afterEq
      exact noBrace 0x7B rfl (by decide)
  | first :: second :: tail =>
      rw [identifier_of_long shape chars] at textEq
      have mismatch := (List.cons.inj (List.cons.inj textEq).2).1
      exact absurd mismatch (by decide)

/-- No glyph starts with a subscript. -/
theorem not_subscript_prefix {uses : List NameUse} {glyphs : List Glyph}
    (valid : AllValid uses glyphs) : ¬utf8 "_\x7b" <+: bytes glyphs := by
  cases glyphs with
  | nil =>
      rintro ⟨after, textEq⟩
      cases textEq
  | cons glyph glyphs =>
      rw [allValid_cons] at valid
      have noBrace : ∀ byte ∈ (bytes glyphs).head?, ByteClass.of byte ≠ .brace :=
        fun byte isHead => (class_head_of_allValid valid.2 byte isHead).1
      cases glyph with
      | variableName name => exact not_subscript_identifier valid.1.1 noBrace
      | functionName name => exact not_subscript_identifier valid.1.1 noBrace
      | numeral digits | word entry =>
          rintro ⟨after, textEq⟩
          have headClass := class_head_bytes valid.1 glyphs
          rw [← textEq] at headClass
          change some ByteClass.letter = _ at headClass
          cases headClass

/-- A number ends where the next glyph starts. -/
theorem not_isNumeralByte_of_separated {uses : List NameUse} {digits : String}
    {glyphs : List Glyph} (valid : AllValid uses glyphs)
    (separated : Separated (.numeral digits :: glyphs)) :
    ∀ byte ∈ (bytes glyphs).head?, isNumeralByte byte = false := by
  intro byte isHead
  rcases class_head_of_allValid valid byte isHead with ⟨-, notPoint, onlyNumeral⟩
  rw [isNumeralByte, Bool.or_eq_false_iff, decide_eq_false_iff_not, decide_eq_false_iff_not]
  refine ⟨?_, notPoint⟩
  intro isDigit
  cases glyphs with
  | nil => cases isHead
  | cons glyph glyphs =>
      exact (List.isChain_cons_cons.1 separated).1 ⟨rfl, onlyNumeral isDigit glyph rfl⟩

/-- The end of a fraction is not mistaken for the space between its parts. -/
theorem closeLower_ne_betweenParts {uses : List NameUse} {leftRest : List Glyph}
    {rightRest : Bytes} (valid : AllValid uses leftRest) :
    Word.closeLower.text ++ bytes leftRest ≠ Word.betweenParts.text ++ rightRest := by
  intro bytesEq
  have restEq : bytes leftRest = 0x7B :: rightRest := (List.cons.inj bytesEq).2
  have noBrace := class_head_of_allValid valid 0x7B (by rw [restEq]; rfl)
  exact noBrace.1 (by decide)

theorem word_eq_of_bytes_eq {uses : List NameUse} {left right : Word}
    {leftRest rightRest : List Glyph} (leftListed : left ∈ Word.vocabulary)
    (rightListed : right ∈ Word.vocabulary) (leftValid : AllValid uses leftRest)
    (rightValid : AllValid uses rightRest)
    (bytesEq : left.text ++ bytes leftRest = right.text ++ bytes rightRest) : left = right := by
  have leftPrefix : left.text <+: left.text ++ bytes leftRest := List.prefix_append _ _
  have rightPrefix : right.text <+: left.text ++ bytes leftRest := by
    rw [bytesEq]
    exact List.prefix_append _ _
  rcases List.prefix_or_prefix_of_prefix leftPrefix rightPrefix with isPrefix | isPrefix
  · rcases Word.eq_of_prefix left leftListed right rightListed isPrefix with
      wordEq | ⟨rfl, rfl⟩
    · exact wordEq
    · exact absurd bytesEq (closeLower_ne_betweenParts leftValid)
  · rcases Word.eq_of_prefix right rightListed left leftListed isPrefix with
      wordEq | ⟨rfl, rfl⟩
    · exact wordEq.symm
    · exact absurd bytesEq.symm (closeLower_ne_betweenParts rightValid)

/-- The first glyph of a byte sequence is determined. -/
theorem glyph_eq_of_bytes_eq {uses : List NameUse} {left right : Glyph}
    {leftRest rightRest : List Glyph} (apart : NameUse.Apart uses)
    (leftValid : AllValid uses (left :: leftRest))
    (rightValid : AllValid uses (right :: rightRest))
    (leftSeparated : Separated (left :: leftRest)) (rightSeparated : Separated (right :: rightRest))
    (bytesEq : bytes (left :: leftRest) = bytes (right :: rightRest)) :
    left = right := by
  rw [allValid_cons] at leftValid rightValid
  have classEq : left.byteClass = right.byteClass := by
    have leftClass := class_head_bytes leftValid.1 leftRest
    rw [bytesEq, class_head_bytes rightValid.1 rightRest] at leftClass
    exact (Option.some.inj leftClass).symm
  have leftName := not_subscript_prefix leftValid.2
  have rightName := not_subscript_prefix rightValid.2
  rw [bytes_cons, bytes_cons] at bytesEq
  cases left with
  | numeral digits =>
      cases right with
      | numeral digits' =>
          have digitsEq := numeral_cancel leftValid.1 rightValid.1
            (not_isNumeralByte_of_separated leftValid.2 leftSeparated)
            (not_isNumeralByte_of_separated rightValid.2 rightSeparated) bytesEq
          rw [digitsEq.1]
      | _ => cases classEq
  | variableName name =>
      cases right with
      | variableName name' =>
          rw [(identifier_cancel leftValid.1.1 rightValid.1.1 leftName rightName bytesEq).1]
      | functionName name' =>
          have nameEq :=
            (identifier_cancel leftValid.1.1 rightValid.1.1 leftName rightName bytesEq).1
          rw [nameEq] at leftValid
          exact absurd rightValid.1.2 (apart name' leftValid.1.2)
      | _ => cases classEq
  | functionName name =>
      cases right with
      | variableName name' =>
          have nameEq :=
            (identifier_cancel leftValid.1.1 rightValid.1.1 leftName rightName bytesEq).1
          rw [nameEq] at leftValid
          exact absurd leftValid.1.2 (apart name' rightValid.1.2)
      | functionName name' =>
          rw [(identifier_cancel leftValid.1.1 rightValid.1.1 leftName rightName bytesEq).1]
      | _ => cases classEq
  | word entry =>
      cases right with
      | word entry' =>
          rw [word_eq_of_bytes_eq leftValid.1 rightValid.1 leftValid.2 rightValid.2 bytesEq]
      | _ => cases classEq

/-- A byte sequence can be cut into glyphs in one way at most. -/
theorem eq_of_bytes_eq {uses : List NameUse} {left right : List Glyph}
    (apart : NameUse.Apart uses) (leftValid : AllValid uses left) (rightValid : AllValid uses right)
    (leftSeparated : Separated left) (rightSeparated : Separated right)
    (bytesEq : bytes left = bytes right) : left = right := by
  induction left generalizing right with
  | nil =>
      cases right with
      | nil => rfl
      | cons glyph glyphs =>
          have headClass := class_head_bytes (allValid_cons.1 rightValid).1 glyphs
          rw [← bytesEq] at headClass
          cases headClass
  | cons glyph glyphs ih =>
      cases right with
      | nil =>
          have headClass := class_head_bytes (allValid_cons.1 leftValid).1 glyphs
          rw [bytesEq] at headClass
          cases headClass
      | cons glyph' glyphs' =>
          have glyphEq := glyph_eq_of_bytes_eq apart leftValid rightValid leftSeparated
            rightSeparated bytesEq
          subst glyphEq
          rw [bytes_cons, bytes_cons, List.append_cancel_left_eq] at bytesEq
          rw [allValid_cons] at leftValid rightValid
          rw [ih leftValid.2 rightValid.2 leftSeparated.tail rightSeparated.tail bytesEq]

end GraphCalc.Layout
