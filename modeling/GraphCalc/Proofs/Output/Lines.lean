import GraphCalc.Proofs.Output.Precedence
import Mathlib.Data.List.Find
import Mathlib.Data.List.Infix

/-!
# Lines of text

The text of a program has one line for each formula.  A line is not empty, it holds
printable characters only, and its delimiters are properly nested: those that grow with
what they enclose as well as the braces around subscripts and around the parts of
fractions.

Delimiters are found in the bytes of a text, without regard to the formula it belongs
to.  They can be looked for glyph by glyph, because no glyph ends inside a delimiter.
-/

namespace GraphCalc

open Text (Bytes utf8)

namespace Layout

/-! ## Delimiters -/

/-- The shapes of delimiters: three that grow with what they enclose, and plain
braces. -/
inductive Shape
  | parentheses
  | brackets
  | braces
  | plain
deriving DecidableEq

/-- One of two delimiters that belong together. -/
inductive Delimiter
  | left (shape : Shape)
  | right (shape : Shape)
deriving DecidableEq

namespace Delimiter

def text : Delimiter → Bytes
  | left .parentheses => utf8 "\\left("
  | left .brackets => utf8 "\\left["
  | left .braces => utf8 "\\left\\\x7b"
  | left .plain => utf8 "\x7b"
  | right .parentheses => utf8 "\\right)"
  | right .brackets => utf8 "\\right]"
  | right .braces => utf8 "\\right\\\x7d"
  | right .plain => utf8 "\x7d"

def all : List Delimiter :=
  [.parentheses, .brackets, .braces, .plain].flatMap fun shape => [left shape, right shape]

/-- The delimiter at the front of a text. -/
def atFront? (text : Bytes) : Option Delimiter :=
  all.find? fun delimiter => delimiter.text.isPrefixOf text

end Delimiter

/-- The delimiters of a text after skipping the bytes that still belong to the last
one. -/
def delimitersAfter : Nat → Bytes → List Delimiter
  | _, [] => []
  | skipped + 1, _ :: rest => delimitersAfter skipped rest
  | 0, byte :: rest =>
      match Delimiter.atFront? (byte :: rest) with
      | some delimiter => delimiter :: delimitersAfter (delimiter.text.length - 1) rest
      | none => delimitersAfter 0 rest

/-- The delimiters of a text, in their order. -/
def delimiters (text : Bytes) : List Delimiter :=
  delimitersAfter 0 text

/-- Whether delimiters are properly nested: each left one belongs to a right one of the
same shape, and what is between the two is nested by itself. -/
inductive Nested : List Delimiter → Prop
  | nil : Nested []
  | pair {shape : Shape} {inner rest : List Delimiter} (innerNested : Nested inner)
      (restNested : Nested rest) : Nested (.left shape :: (inner ++ .right shape :: rest))

theorem Nested.append {left right : List Delimiter} (leftNested : Nested left)
    (rightNested : Nested right) : Nested (left ++ right) := by
  induction leftNested with
  | nil => exact rightNested
  | @pair shape inner rest innerNested _ _ restAppended =>
      have shifted : .left shape :: (inner ++ .right shape :: rest) ++ right =
          .left shape :: (inner ++ .right shape :: (rest ++ right)) := by simp
      rw [shifted]
      exact .pair innerNested restAppended

theorem Nested.enclosed {inner : List Delimiter} (nested : Nested inner) (shape : Shape) :
    Nested (.left shape :: (inner ++ [.right shape])) :=
  .pair nested .nil

/-! ## Texts that end inside no delimiter -/

/-- Whether no delimiter starts in a text and is broken off at its end. -/
def EndsWhole (text : Bytes) : Prop :=
  ∀ tail, tail <:+ text → tail ≠ [] →
    ∀ delimiter ∈ Delimiter.all, tail <+: delimiter.text → tail = delimiter.text

theorem endsWhole_iff (text : Bytes) :
    (∀ tail ∈ text.tails, tail ≠ [] →
      ∀ delimiter ∈ Delimiter.all, tail <+: delimiter.text → tail = delimiter.text) ↔
        EndsWhole text := by
  simp only [EndsWhole, List.mem_tails]

instance (text : Bytes) : Decidable (EndsWhole text) :=
  decidable_of_iff _ (endsWhole_iff text)

theorem EndsWhole.of_cons {byte : UInt8} {text : Bytes} (whole : EndsWhole (byte :: text)) :
    EndsWhole text :=
  fun tail isTail => whole tail (isTail.trans (List.suffix_cons byte text))

/-- The delimiter at the front of a text does not depend on what stands behind it. -/
theorem EndsWhole.atFront?_append {text : Bytes} (whole : EndsWhole text) (notEmpty : text ≠ [])
    (rest : Bytes) : Delimiter.atFront? (text ++ rest) = Delimiter.atFront? text := by
  apply List.find?_congr
  intro delimiter isDelimiter
  rw [Bool.eq_iff_iff, List.isPrefixOf_iff_prefix, List.isPrefixOf_iff_prefix]
  constructor
  · intro isFront
    rcases List.prefix_or_prefix_of_prefix isFront (List.prefix_append text rest) with
      inText | broken
    · exact inText
    · rw [whole text List.suffix_rfl notEmpty delimiter isDelimiter broken]
  · intro isFront
    exact isFront.trans (List.prefix_append text rest)

theorem Delimiter.length_of_atFront? {text : Bytes} {delimiter : Delimiter}
    (atFront : atFront? text = some delimiter) : delimiter.text.length ≤ text.length := by
  have isPrefix := List.find?_some atFront
  rw [List.isPrefixOf_iff_prefix] at isPrefix
  exact isPrefix.length_le

theorem delimitersAfter_append {text : Bytes} (whole : EndsWhole text) {skipped : Nat}
    (bound : skipped ≤ text.length) (rest : Bytes) :
    delimitersAfter skipped (text ++ rest) = delimitersAfter skipped text ++ delimiters rest := by
  induction text generalizing skipped with
  | nil =>
      rcases Nat.le_zero.1 bound with rfl
      rfl
  | cons byte text ih =>
      cases skipped with
      | succ skipped => exact ih whole.of_cons (Nat.le_of_succ_le_succ bound)
      | zero =>
          have sameFront := whole.atFront?_append (List.cons_ne_nil _ _) rest
          rw [List.cons_append] at sameFront ⊢
          rw [delimitersAfter, delimitersAfter, sameFront]
          cases atFront : Delimiter.atFront? (byte :: text) with
          | none => exact ih whole.of_cons (Nat.zero_le _)
          | some delimiter =>
              have short := Delimiter.length_of_atFront? atFront
              rw [List.length_cons] at short
              simp only [List.cons_append, List.cons.injEq, true_and]
              exact ih whole.of_cons (by omega)

/-- Texts that are put together have the delimiters of both. -/
theorem delimiters_append {text : Bytes} (whole : EndsWhole text) (rest : Bytes) :
    delimiters (text ++ rest) = delimiters text ++ delimiters rest :=
  delimitersAfter_append whole (Nat.zero_le _) rest

example : delimiters (utf8 "\\left(x_\x7b1\x7d\\right)") =
    [.left .parentheses, .left .plain, .right .plain, .right .parentheses] := by
  decide +kernel

theorem EndsWhole.append {left right : Bytes} (leftWhole : EndsWhole left)
    (rightWhole : EndsWhole right) : EndsWhole (left ++ right) := by
  induction left with
  | nil => exact rightWhole
  | cons byte left ih =>
      intro tail isTail notEmpty delimiter isDelimiter broken
      rw [List.cons_append, List.suffix_cons_iff] at isTail
      rcases isTail with rfl | isTail
      · -- The front part is all of the delimiter, so nothing stands behind it.
        have frontBroken := (List.prefix_append (byte :: left) right).trans broken
        have frontEq := leftWhole (byte :: left) List.suffix_rfl (List.cons_ne_nil _ _) delimiter
          isDelimiter frontBroken
        apply broken.eq_of_length_le
        rw [← frontEq, List.length_cons, List.length_cons, List.length_append]
        omega
      · exact ih leftWhole.of_cons tail isTail notEmpty delimiter isDelimiter broken

/-! ## Words and names -/

/-- Whether a byte is that of a letter, a digit or a point. -/
def IsWordByte (byte : UInt8) : Prop :=
  ByteClass.of byte = .letter ∨ ByteClass.of byte = .digit ∨ ByteClass.of byte = .point

theorem isWordByte_of_isLetterOrDigit {char : Char}
    (wordChar : Lexeme.isLetterOrDigit char = true) : IsWordByte (byteOf char) := by
  rcases Bool.or_eq_true_iff.1 wordChar with letter | digit
  · exact .inl (class_byteOf_of_isLetter letter)
  · exact .inr (.inl (class_byteOf_of_isDigit digit))

theorem isWordByte_of_isNumeralByte {byte : UInt8} (isNumeral : isNumeralByte byte = true) :
    IsWordByte byte := by
  rw [isNumeralByte, Bool.or_eq_true, decide_eq_true_iff, decide_eq_true_iff] at isNumeral
  exact .inr isNumeral

theorem Delimiter.class_head : ∀ delimiter ∈ all,
    delimiter.text.head?.map ByteClass.of ∈ [some .brace, some .other] := by
  decide +kernel

theorem Delimiter.text_ne_nil (delimiter : Delimiter) : delimiter.text ≠ [] := by
  rcases delimiter with shape | shape
  all_goals
    cases shape
    all_goals exact List.cons_ne_nil _ _

theorem IsWordByte.head?_ne {byte : UInt8} (isWord : IsWordByte byte) {delimiter : Delimiter}
    (isDelimiter : delimiter ∈ Delimiter.all) : delimiter.text.head? ≠ some byte := by
  intro isHead
  have headClass := Delimiter.class_head delimiter isDelimiter
  rw [isHead] at headClass
  rcases isWord with letter | digit | point
  · simp [letter] at headClass
  · simp [digit] at headClass
  · simp [point] at headClass

/-- No delimiter is broken off in a word, and there is none in it. -/
theorem delimiters_of_word {text : Bytes} (isWord : ∀ byte ∈ text, IsWordByte byte) :
    EndsWhole text ∧ delimiters text = [] := by
  induction text with
  | nil => exact ⟨by decide, rfl⟩
  | cons byte text ih =>
      rw [List.forall_mem_cons] at isWord
      rcases ih isWord.2 with ⟨whole, noDelimiters⟩
      have noneAtFront : Delimiter.atFront? (byte :: text) = none := by
        rw [Delimiter.atFront?, List.find?_eq_none]
        intro delimiter isDelimiter isFront
        have headNe := isWord.1.head?_ne isDelimiter
        rcases List.isPrefixOf_iff_prefix.1 isFront with ⟨rest, textEq⟩
        cases frontEq : delimiter.text with
        | nil => exact delimiter.text_ne_nil frontEq
        | cons first more =>
            rw [frontEq] at headNe textEq
            exact headNe (congrArg some (List.cons.inj textEq).1)
      refine ⟨?_, ?_⟩
      · intro tail isTail notEmpty delimiter isDelimiter broken
        rcases List.suffix_cons_iff.1 isTail with rfl | isTail
        · rcases broken with ⟨rest, textEq⟩
          exact absurd (congrArg List.head? textEq.symm) (isWord.1.head?_ne isDelimiter)
        · exact whole tail isTail notEmpty delimiter isDelimiter broken
      · rw [delimiters, delimitersAfter, noneAtFront]
        exact noDelimiters

/-- A name is a letter, or a letter in front of a subscript. -/
theorem identifier_cases {name : String} (shape : Lexeme.IsName name.toList) :
    ∃ first subscript, IsWordByte first ∧ (∀ byte ∈ subscript, IsWordByte byte) ∧
      (Latex.identifier name = [first] ∨
        Latex.identifier name = [first] ++ (utf8 "_\x7b" ++ (subscript ++ utf8 "\x7d"))) := by
  match chars : name.toList with
  | [] =>
      rw [chars] at shape
      exact absurd shape id
  | [first] =>
      have textEq := identifier_of_single shape chars
      rw [chars] at shape
      exact ⟨byteOf first, [], .inl (class_byteOf_of_isLetter shape.1), List.forall_mem_nil _,
        .inl textEq⟩
  | first :: second :: rest =>
      have textEq := identifier_of_long shape chars
      rw [chars] at shape
      refine ⟨byteOf first, (second :: rest).map byteOf, .inl (class_byteOf_of_isLetter shape.1),
        ?_, .inr textEq⟩
      rw [List.forall_mem_map]
      exact fun char isMember => isWordByte_of_isLetterOrDigit (shape.2 char isMember)

/-- The braces of a name are those around its subscript. -/
theorem nested_identifier {name : String} (shape : Lexeme.IsName name.toList) :
    EndsWhole (Latex.identifier name) ∧ Nested (delimiters (Latex.identifier name)) := by
  rcases identifier_cases shape with ⟨first, subscript, isFirst, isSubscript, textEq⟩
  rcases delimiters_of_word (List.forall_mem_singleton.2 isFirst) with ⟨firstWhole, noneFirst⟩
  rcases delimiters_of_word isSubscript with ⟨subscriptWhole, noneInside⟩
  rcases textEq with textEq | textEq
  · rw [textEq, noneFirst]
    exact ⟨firstWhole, .nil⟩
  · have openWhole : EndsWhole (utf8 "_\x7b") := by decide +kernel
    have closeWhole : EndsWhole (utf8 "\x7d") := by decide +kernel
    rw [textEq, delimiters_append firstWhole, delimiters_append openWhole,
      delimiters_append subscriptWhole, noneFirst, noneInside]
    exact ⟨firstWhole.append (openWhole.append (subscriptWhole.append closeWhole)),
      Nested.nil.enclosed .plain⟩

theorem delimiters_of_numeral {digits : String} (shape : Lexeme.IsNumeral digits.toList) :
    EndsWhole (utf8 digits) ∧ delimiters (utf8 digits) = [] := by
  rw [utf8, flatMap_utf8EncodeChar (plain_of_isNumeral shape)]
  exact delimiters_of_word fun byte isMember =>
    isWordByte_of_isNumeralByte (isNumeralByte_of_isNumeral shape byte isMember)

/-! ## Glyphs -/

variable {uses : List NameUse}

theorem Word.endsWhole_text : ∀ entry ∈ Word.vocabulary, EndsWhole entry.text := by
  decide +kernel

theorem Glyph.endsWhole_text {glyph : Glyph} (valid : glyph.Valid uses) :
    EndsWhole glyph.text := by
  cases glyph with
  | numeral digits => exact (delimiters_of_numeral valid).1
  | variableName name => exact (nested_identifier valid.1).1
  | functionName name => exact (nested_identifier valid.1).1
  | word entry => exact Word.endsWhole_text entry valid

/-- The delimiters of a text are those of its glyphs. -/
theorem delimiters_bytes {glyphs : List Glyph} (valid : AllValid uses glyphs) :
    delimiters (bytes glyphs) = glyphs.flatMap fun glyph => delimiters glyph.text := by
  induction glyphs with
  | nil => rfl
  | cons glyph glyphs ih =>
      rw [allValid_cons] at valid
      rw [bytes_cons, delimiters_append (Glyph.endsWhole_text valid.1), ih valid.2,
        List.flatMap_cons]

theorem Word.delimiters_text_of_plain : ∀ entry ∈ Word.vocabulary,
    (Glyph.word entry).opens = false → (Glyph.word entry).closes = false →
      entry ≠ .betweenParts → delimiters entry.text = [] := by
  decide +kernel

theorem Word.delimiters_text_of_closing? : ∀ entry ∈ Word.vocabulary,
    ∀ closing ∈ (Glyph.word entry).closing?,
      ∃ shape ∈ [Shape.parentheses, .brackets, .braces, .plain],
        delimiters entry.text = [.left shape] ∧ delimiters closing.text = [.right shape] := by
  decide +kernel

theorem Glyph.nested_of_plain {glyph : Glyph} (valid : glyph.Valid uses) (isPlain : glyph.Plain)
    (notBetween : glyph ≠ .word .betweenParts) : Nested (delimiters glyph.text) := by
  cases glyph with
  | numeral digits =>
      rw [Glyph.text, (delimiters_of_numeral valid).2]
      exact .nil
  | variableName name => exact (nested_identifier valid.1).2
  | functionName name => exact (nested_identifier valid.1).2
  | word entry =>
      rw [Glyph.text, Word.delimiters_text_of_plain entry valid isPlain.1 isPlain.2
        (mt (congrArg Glyph.word) notBetween)]
      exact .nil

theorem Glyph.delimiters_of_closing? {opening closing : Glyph} (valid : opening.Valid uses)
    (pair : opening.closing? = some closing) :
    ∃ shape, delimiters opening.text = [.left shape] ∧
      delimiters closing.text = [.right shape] := by
  cases opening with
  | word entry =>
      rcases Word.delimiters_text_of_closing? entry valid closing pair with ⟨shape, -, shapes⟩
      exact ⟨shape, shapes⟩
  | _ => cases pair

/-- Where every bracket is in a pair, the delimiters are properly nested. -/
theorem Bracketed.nested {glyphs : List Glyph} (bracketed : Bracketed glyphs)
    (valid : AllValid uses glyphs) : Nested (delimiters (bytes glyphs)) := by
  rw [delimiters_bytes valid]
  induction bracketed with
  | nil => exact .nil
  | plain isPlain notBetween =>
      rw [List.flatMap_singleton]
      exact Glyph.nested_of_plain (valid _ List.mem_cons_self) isPlain notBetween
  | append _ _ leftNested rightNested =>
      rw [allValid_append] at valid
      rw [List.flatMap_append]
      exact (leftNested valid.1).append (rightNested valid.2)
  | enclosed pair _ innerNested =>
      rw [allValid_cons, allValid_append] at valid
      rcases Glyph.delimiters_of_closing? valid.1 pair with ⟨shape, openingEq, closingEq⟩
      rw [List.flatMap_cons, List.flatMap_append, List.flatMap_singleton, openingEq, closingEq]
      exact (innerNested valid.2.1).enclosed shape
  | fraction _ _ upperNested lowerNested =>
      have openingEq : delimiters Word.openUpper.text = [.left .plain] := by decide +kernel
      have betweenEq : delimiters Word.betweenParts.text = [.right .plain, .left .plain] := by
        decide +kernel
      have closingEq : delimiters Word.closeLower.text = [.right .plain] := by decide +kernel
      simp only [fractionGlyphs, allValid_cons, allValid_append] at valid
      simp only [fractionGlyphs, List.flatMap_cons, List.flatMap_append, List.flatMap_nil,
        Glyph.text, openingEq, betweenEq, closingEq]
      exact .pair (upperNested valid.2.1) ((lowerNested valid.2.2.2.1).enclosed .plain)

/-! ## Printable characters -/

/-- Whether a byte is that of a printable character. -/
def IsPrintable (byte : UInt8) : Prop :=
  0x20 ≤ byte ∧ byte ≤ 0x7E

instance (byte : UInt8) : Decidable (IsPrintable byte) :=
  inferInstanceAs (Decidable (_ ∧ _))

theorem IsWordByte.isPrintable {byte : UInt8} (isWord : IsWordByte byte) : IsPrintable byte := by
  have inRange : 0x20 ≤ byte.toNat ∧ byte.toNat ≤ 0x7E := by
    unfold IsWordByte ByteClass.of at isWord
    grind
  exact inRange

theorem Word.isPrintable_text : ∀ entry ∈ Word.vocabulary, ∀ byte ∈ entry.text,
    IsPrintable byte := by
  decide +kernel

theorem isPrintable_identifier {name : String} (shape : Lexeme.IsName name.toList) :
    ∀ byte ∈ Latex.identifier name, IsPrintable byte := by
  rcases identifier_cases shape with ⟨first, subscript, isFirst, isSubscript, textEq | textEq⟩
  · rw [textEq, List.forall_mem_singleton]
    exact isFirst.isPrintable
  · rw [textEq, List.forall_mem_append, List.forall_mem_append, List.forall_mem_append,
      List.forall_mem_singleton]
    exact ⟨isFirst.isPrintable, by decide +kernel,
      fun byte isMember => (isSubscript byte isMember).isPrintable, by decide +kernel⟩

theorem Glyph.isPrintable_text {glyph : Glyph} (valid : glyph.Valid uses) :
    ∀ byte ∈ glyph.text, IsPrintable byte := by
  cases glyph with
  | numeral digits =>
      rw [Glyph.text, utf8, flatMap_utf8EncodeChar (plain_of_isNumeral valid)]
      exact fun byte isMember =>
        (isWordByte_of_isNumeralByte (isNumeralByte_of_isNumeral valid byte isMember)).isPrintable
  | variableName name => exact isPrintable_identifier valid.1
  | functionName name => exact isPrintable_identifier valid.1
  | word entry => exact Word.isPrintable_text entry valid

/-! ## Lines -/

/-- Whether a text can be a line of the output. -/
structure ProperLine (text : Bytes) : Prop where
  notEmpty : text ≠ []
  printable : ∀ byte ∈ text, IsPrintable byte
  nested : Nested (delimiters text)

theorem ProperLine.newline_not_mem {text : Bytes} (proper : ProperLine text) : 0x0A ∉ text := by
  intro isMember
  exact absurd (proper.printable 0x0A isMember) (by decide)

end Layout

open Layout

theorem Formula.IsLine.glyphs_ne_nil {line : Formula} (isLine : line.IsLine) :
    line.glyphs ≠ [] := by
  cases line with
  | define name params body => exact List.cons_ne_nil _ _
  | _ => exact Formula.WellFormed.glyphs_ne_nil isLine

theorem Formula.IsLine.exists_properLine {line : Formula} (isLine : line.IsLine) :
    ∃ text, line.latex = .ok text ∧ ProperLine text := by
  rcases isLine.written with ⟨latexEq, legible⟩
  refine ⟨_, latexEq, ?_, ?_, line.bracketed_glyphs.nested legible.valid⟩
  · intro isEmpty
    cases glyphsEq : line.glyphs with
    | nil => exact isLine.glyphs_ne_nil glyphsEq
    | cons first rest =>
        have firstValid := legible.valid first (by rw [glyphsEq]; exact List.mem_cons_self)
        have headClass := class_head_bytes firstValid rest
        rw [← glyphsEq, isEmpty] at headClass
        cases headClass
  · rw [bytes, List.forall_mem_flatMap]
    exact fun glyph isGlyph => Glyph.isPrintable_text (legible.valid glyph isGlyph)

/-- Formulas that are lines have texts that are proper lines, and together these are the
lines of the text of them all. -/
theorem Formula.exists_properLines {formulas : List Formula}
    (areLines : ∀ formula ∈ formulas, formula.IsLine) :
    ∃ lines, formulas.map Formula.latex = lines.map .ok ∧ (∀ line ∈ lines, ProperLine line) ∧
      ∃ output, Formula.latexLines formulas = .ok output ∧
        output.splitOn 0x0A = lines ++ [[]] := by
  induction formulas with
  | nil => exact ⟨[], rfl, List.forall_mem_nil _, [], rfl, rfl⟩
  | cons first rest ih =>
      rw [List.forall_mem_cons] at areLines
      rcases areLines.1.exists_properLine with ⟨line, latexEq, proper⟩
      rcases ih areLines.2 with ⟨lines, linesEq, allProper, output, outputEq, splitEq⟩
      refine ⟨line :: lines, ?_, List.forall_mem_cons.2 ⟨proper, allProper⟩,
        line ++ 0x0A :: output, ?_, ?_⟩
      · rw [List.map_cons, List.map_cons, latexEq, linesEq]
      · rw [Formula.latexLines, latexEq, outputEq]
        have newlineEq : utf8 "\n" = [0x0A] := by decide +kernel
        simp [bind, Except.bind, pure, Except.pure, newlineEq]
      · rw [List.splitOn_append_cons_self_of_not_mem proper.newline_not_mem, splitEq,
          List.cons_append]

/-- The formulas of a text are those of the statements at its front, and of all its
statements if nothing fails. -/
theorem exists_compileText_formulas_eq (globals : NameMap ValueType) (file : String)
    (text : List Char) :
    ∃ front rest,
      (Parsed.ofText file text).program = front ++ rest ∧
      ((compileText globals file text).failure = none → rest = []) ∧
      (Program.compileEach (Context.ofGlobals globals) front).1.map Logged.outcome =
        (compileText globals file text).formulas.map .ok := by
  by_cases readable : (Parsed.ofText file text).errors = []
  · rcases compileText_of_readable globals readable with ⟨compiled, rfl, compiledEq⟩
    rcases Program.exists_compile_eq (Context.ofGlobals globals) (Parsed.ofText file text).program
      with ⟨front, rest, programEq, outcomes, -, ending⟩
    rw [compiledEq]
    refine ⟨front, rest, programEq, ?_, outcomes⟩
    rcases ending with ⟨atEnd, -⟩ | ⟨stmt, others, fault, -, -, hasFault⟩
    · exact fun _ => atEnd
    · rw [hasFault]
      exact fun noFailure => absurd noFailure (Option.some_ne_none _)
  · rw [compileText_of_unreadable globals readable]
    exact ⟨[], (Parsed.ofText file text).program, rfl,
      fun noFailure => absurd noFailure (Option.some_ne_none _), rfl⟩

/-- The output has one proper line for each statement that was compiled.  Whatever the
globals and the text are, the formulas are those of the statements at the front of the
program, which are all of them if there is no failure; the texts of these formulas are
not empty, hold printable characters only and have properly nested delimiters; and they
are the lines of the output, in the order of the statements. -/
theorem output_has_proper_lines (globals : NameMap ValueType) (file : String)
    (text : List Char) :
    let compiled := compileText globals file text
    ∃ front rest lines output,
      (Parsed.ofText file text).program = front ++ rest ∧
      (compiled.failure = none → rest = []) ∧
      (Program.compileEach (Context.ofGlobals globals) front).1.map Logged.outcome =
        compiled.formulas.map .ok ∧
      compiled.formulas.map Formula.latex = lines.map .ok ∧
      (∀ line ∈ lines, ProperLine line) ∧
      Formula.latexLines compiled.formulas = .ok output ∧
      output.splitOn 0x0A = lines ++ [[]] := by
  intro compiled
  rcases Formula.exists_properLines (compileText_isLine globals file text) with
    ⟨lines, linesEq, allProper, output, outputEq, splitEq⟩
  rcases exists_compileText_formulas_eq globals file text with
    ⟨front, rest, programEq, complete, outcomes⟩
  exact ⟨front, rest, lines, output, programEq, complete, outcomes, linesEq, allProper, outputEq,
    splitEq⟩

end GraphCalc
