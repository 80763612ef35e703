import GraphCalc.Proofs.Output.Reading

/-!
# Unique readability

Every well-formed formula is written in a layout that is read as a congruent
formula.  Glyphs are determined by the text, and the layout by its glyphs; so
two formulas with the same text are congruent.
-/

namespace GraphCalc

namespace Layout

open Text (Bytes utf8)

/-! ## Legible glyphs -/

/-- Words with a known comparison or function. -/
@[simp]
def Word.Listed : Word → Prop
  | relation comparison => comparison ∈ Comparison.known
  | openBuiltin name => name ∈ Builtin.names
  | _ => True

@[simp]
theorem Word.mem_vocabulary_iff (entry : Word) : entry ∈ vocabulary ↔ entry.Listed := by
  cases entry
  all_goals simp [vocabulary]

/-- Whether glyphs can be told apart in their text. -/
structure Legible (uses : List NameUse) (glyphs : List Glyph) : Prop where
  valid : AllValid uses glyphs
  separated : Separated glyphs

variable {uses : List NameUse}

theorem legible_append {left right : List Glyph} :
    Legible uses (left ++ right) ↔ Legible uses left ∧ Legible uses right ∧
      ∀ last ∈ left.getLast?, ∀ first ∈ right.head?,
        ¬(last.isNumeral = true ∧ first.isNumeral = true) := by
  constructor
  · rintro ⟨valid, separated⟩
    rw [allValid_append] at valid
    rw [Separated, List.isChain_append] at separated
    exact ⟨⟨valid.1, separated.1⟩, ⟨valid.2, separated.2.1⟩, separated.2.2⟩
  · rintro ⟨leftLegible, rightLegible, boundary⟩
    exact ⟨allValid_append.2 ⟨leftLegible.valid, rightLegible.valid⟩,
      List.isChain_append.2 ⟨leftLegible.separated, rightLegible.separated, boundary⟩⟩

@[simp]
theorem legible_nil : Legible uses [] :=
  ⟨allValid_nil uses, .nil⟩

@[simp]
theorem legible_singleton {glyph : Glyph} : Legible uses [glyph] ↔ glyph.Valid uses := by
  constructor
  · intro legible
    exact (allValid_cons.1 legible.valid).1
  · intro valid
    exact ⟨allValid_cons.2 ⟨valid, allValid_nil uses⟩, .singleton glyph⟩

/-- Nothing in front of it runs together with a glyph that is not a number, nor
anything behind it. -/
theorem legible_append_cons {left right : List Glyph} {glyph : Glyph}
    (notNumeral : glyph.isNumeral = false) :
    Legible uses (left ++ glyph :: right) ↔
      Legible uses left ∧ glyph.Valid uses ∧ Legible uses right := by
  have split : glyph :: right = [glyph] ++ right := rfl
  rw [split, legible_append, legible_append, legible_singleton]
  simp [notNumeral]

theorem legible_cons {glyphs : List Glyph} {glyph : Glyph}
    (notNumeral : glyph.isNumeral = false) :
    Legible uses (glyph :: glyphs) ↔ glyph.Valid uses ∧ Legible uses glyphs := by
  have split := @legible_append_cons uses [] glyphs glyph notNumeral
  simpa using split

@[simp]
theorem legible_append_word {left right : List Glyph} {entry : Word} :
    Legible uses (left ++ .word entry :: right) ↔
      Legible uses left ∧ entry.Listed ∧ Legible uses right := by
  rw [legible_append_cons rfl, ← Word.mem_vocabulary_iff]
  rfl

@[simp]
theorem legible_word_cons {glyphs : List Glyph} {entry : Word} :
    Legible uses (.word entry :: glyphs) ↔ entry.Listed ∧ Legible uses glyphs := by
  rw [legible_cons rfl, ← Word.mem_vocabulary_iff]
  rfl

/-! ## Where a dot is needed -/

theorem isDigit_byteOf {char : Char} (digit : char.isDigit = true) :
    Latex.isDigit (byteOf char) = true := by
  have range := (Lexeme.isDigit_iff char).1 digit
  rw [← toNat_byteOf (lt_of_isDigit digit)] at range
  rw [Latex.isDigit, Bool.and_eq_true, decide_eq_true_eq, decide_eq_true_eq]
  exact range

theorem exists_last_of_isDigits {digits : List Char} (shape : Lexeme.IsDigits digits) :
    ∃ before last, digits = before ++ [last] ∧ last.isDigit = true := by
  have lastMem := List.getLast_mem shape.1
  exact ⟨digits.dropLast, digits.getLast shape.1,
    (List.dropLast_append_getLast shape.1).symm, shape.2 _ lastMem⟩

/-- A number ends with a digit. -/
theorem exists_last_of_isNumeral {digits : List Char} (shape : Lexeme.IsNumeral digits) :
    ∃ before last, digits = before ++ [last] ∧ last.isDigit = true := by
  cases shape with
  | whole shape => exact exists_last_of_isDigits shape
  | @decimal whole fraction shape fractionShape =>
      rcases exists_last_of_isDigits fractionShape with ⟨before, last, rfl, digit⟩
      exact ⟨whole ++ '.' :: before, last, by simp, digit⟩

/-- Two numbers would run together. -/
theorem needsDot_numerals {left right : String} (leftShape : Lexeme.IsNumeral left.toList)
    (rightShape : Lexeme.IsNumeral right.toList) :
    Latex.needsDot (utf8 left) (utf8 right) = true := by
  rcases exists_last_of_isNumeral leftShape with ⟨before, last, leftEq, lastDigit⟩
  rcases rightShape.cons with ⟨first, after, rightEq, firstDigit⟩
  rw [utf8, utf8, flatMap_utf8EncodeChar (plain_of_isNumeral leftShape),
    flatMap_utf8EncodeChar (plain_of_isNumeral rightShape), leftEq, rightEq]
  simp [Latex.needsDot, isDigit_byteOf lastDigit, isDigit_byteOf firstDigit]

theorem utf8_ne_nil_of_isNumeral {digits : String} (shape : Lexeme.IsNumeral digits.toList) :
    utf8 digits ≠ [] := by
  rcases shape.cons with ⟨first, rest, chars, -⟩
  rw [utf8, flatMap_utf8EncodeChar (plain_of_isNumeral shape), chars, List.map_cons]
  exact List.cons_ne_nil _ _

/-- Factors side by side are legible unless they need a dot. -/
theorem legible_append_of_needsDot {left right : List Glyph} (leftLegible : Legible uses left)
    (rightLegible : Legible uses right)
    (noDot : Latex.needsDot (bytes left) (bytes right) = false) :
    Legible uses (left ++ right) := by
  refine legible_append.2 ⟨leftLegible, rightLegible, ?_⟩
  rintro last isLast first isFirst ⟨lastNumeral, firstNumeral⟩
  cases last with
  | numeral digits =>
      cases first with
      | numeral digits' =>
          rcases List.getLast?_eq_some_iff.1 isLast with ⟨before, rfl⟩
          rcases List.head?_eq_some_iff.1 isFirst with ⟨after, rfl⟩
          have leftShape : Lexeme.IsNumeral digits.toList :=
            (allValid_cons.1 (allValid_append.1 leftLegible.valid).2).1
          have rightShape : Lexeme.IsNumeral digits'.toList :=
            (allValid_cons.1 rightLegible.valid).1
          rw [bytes_append, bytes_cons, bytes_cons, bytes_nil, List.append_nil, Glyph.text,
            Glyph.text, Latex.needsDot_append_left (utf8_ne_nil_of_isNumeral leftShape),
            Latex.needsDot_append_right (utf8_ne_nil_of_isNumeral rightShape),
            needsDot_numerals leftShape rightShape] at noDot
          cases noDot
      | _ => cases firstNumeral
  | _ => cases lastNumeral

/-- A minus sign needs a dot in front of it. -/
theorem needsDot_minus {left : Bytes} (notEmpty : left ≠ []) (rest : Bytes) :
    Latex.needsDot left (Word.minus.text ++ rest) = true := by
  unfold Latex.needsDot
  rw [List.getLast?_eq_some_getLast notEmpty]
  rfl

theorem Product.bytes_ne_nil {product : Product} (legible : Legible uses product.glyphs) :
    bytes product.glyphs ≠ [] := by
  rcases product with ⟨factor, links⟩
  rcases factor.glyphs_eq_cons with ⟨first, behind, glyphsEq, -⟩
  rw [Product.glyphs, glyphsEq, List.cons_append] at legible ⊢
  have headClass := class_head_bytes (allValid_cons.1 legible.valid).1
    (behind ++ Link.allGlyphs links)
  intro empty
  rw [empty] at headClass
  cases headClass

/-- Two products give one whose text is that of their product. -/
theorem Product.exists_times {left right : Product} (leftLegible : Legible uses left.glyphs)
    (rightLegible : Legible uses right.glyphs) :
    ∃ product : Product,
      bytes product.glyphs = Latex.product (bytes left.glyphs) (bytes right.glyphs) ∧
        Legible uses product.glyphs ∧
        Congruent product.formula (.binary .multiply left.formula right.formula) := by
  rcases right with ⟨first, rest⟩
  cases needs : Latex.needsDot (bytes left.glyphs) (bytes (Product.mk first rest).glyphs) with
  | true =>
      have glyphsEq : (left.extend (.dotted first) rest).glyphs =
          left.glyphs ++ .word .dot :: (Product.mk first rest).glyphs :=
        Product.glyphs_extend left (.dotted first) rest
      refine ⟨left.extend (.dotted first) rest, ?_, ?_, left.congruent_extend _ rest⟩
      · rw [glyphsEq, Latex.product, if_pos needs]
        simp [Glyph.text, Word.text]
      · rw [glyphsEq]
        simp [leftLegible, rightLegible]
  | false =>
      cases first with
      | plain atom marked =>
          have glyphsEq : (left.extend (.beside atom marked) rest).glyphs =
              left.glyphs ++ (Product.mk (.plain atom marked) rest).glyphs :=
            Product.glyphs_extend left (.beside atom marked) rest
          refine ⟨left.extend (.beside atom marked) rest, ?_, ?_, left.congruent_extend _ rest⟩
          · rw [glyphsEq, Latex.product, needs, bytes_append]
            rfl
          · rw [glyphsEq]
            exact legible_append_of_needsDot leftLegible rightLegible needs
      | negative digits marked =>
          -- Side by side, its sign would be a minus sign between two products.
          rw [Product.glyphs, Factor.glyphs, List.cons_append, bytes_cons, Glyph.text,
            needsDot_minus (left.bytes_ne_nil leftLegible)] at needs
          cases needs

/-! ## Layouts of formulas -/

def Factor.marked : Factor → Bool
  | .plain _ marked | .negative _ marked => marked

/-- A layout that a formula is written in.  Only sums have several terms, and
only operations have several factors or a mark. -/
structure Shows (uses : List NameUse) (sum : Sum) (formula : Formula) : Prop where
  latex : formula.latex = .ok (bytes sum.glyphs)
  legible : Legible uses sum.glyphs
  congruent : Congruent sum.formula formula
  product : formula.isSum = false → ∃ product, sum = .mk product []
  factor : formula.isOperation = false → ∃ factor : Factor, sum = factor.asSum ∧
    factor.marked = false

theorem Shows.of_factor (factor : Factor) {formula : Formula}
    (latex : formula.latex = .ok (bytes factor.glyphs)) (legible : Legible uses factor.glyphs)
    (congruent : Congruent factor.formula formula)
    (bare : formula.isOperation = false → factor.marked = false) :
    Shows uses factor.asSum formula where
  latex := by rw [latex, factor.glyphs_asSum]
  legible := by rwa [factor.glyphs_asSum]
  congruent := congruent
  product _ := ⟨_, rfl⟩
  factor notOperation := ⟨factor, rfl, bare notOperation⟩

/-- An atom on its own. -/
theorem Shows.of_atom (atom : Atom) {formula : Formula}
    (latex : formula.latex = .ok (bytes atom.glyphs)) (legible : Legible uses atom.glyphs)
    (congruent : Congruent atom.formula formula) :
    ∃ sum, Shows uses sum formula := by
  have glyphsEq : (Factor.plain atom false).glyphs = atom.glyphs := List.append_nil _
  refine ⟨_, Shows.of_factor (.plain atom false) ?_ ?_ congruent fun _ => rfl⟩
  · rw [latex, glyphsEq]
  · rwa [glyphsEq]

theorem utf8_append (left right : String) : utf8 (left ++ right) = utf8 left ++ utf8 right := by
  simp [utf8]

/-- The sign of a negative number is a glyph of its own. -/
theorem exists_shows_negative {digits : String} (shape : Lexeme.IsNumeral digits.toList) :
    ∃ sum, Shows uses sum (.number ("-" ++ digits)) := by
  refine ⟨_, Shows.of_factor (.negative digits false) ?_ ?_ (.refl _) fun _ => rfl⟩
  · rw [Formula.latex, utf8_append]
    simp [Factor.glyphs, markGlyphs, Glyph.text, Word.text]
  · have numeralLegible : Legible uses [.numeral digits] := legible_singleton.2 shape
    simp [Factor.glyphs, markGlyphs, numeralLegible]

theorem exists_shows_number {value : String} (shape : Lexeme.IsSignedNumeral value.toList) :
    ∃ sum, Shows uses sum (.number value) := by
  generalize charsEq : value.toList = chars at shape
  cases shape with
  | plain shape =>
      rw [← charsEq] at shape
      apply Shows.of_atom (.number value)
      · simp [Atom.glyphs, Formula.latex, Glyph.text]
      · exact legible_singleton.2 shape
      · exact .refl _
  | @negative digits shape =>
      have valueEq : value = "-" ++ String.ofList digits := by
        apply String.toList_inj.1
        simp [charsEq]
      rw [valueEq]
      apply exists_shows_negative
      rwa [String.toList_ofList]

theorem exists_shows_var {name : String} (shape : Lexeme.IsName name.toList)
    (used : .var name ∈ uses) : ∃ sum, Shows uses sum (.var name) := by
  apply Shows.of_atom (.var name)
  · simp [Atom.glyphs, Formula.latex, Glyph.text]
  · rw [Atom.glyphs, legible_singleton]
    exact ⟨shape, used⟩
  · exact .refl _

/-! ### Operations -/

section Operations

variable {left right : Sum} {leftFormula rightFormula : Formula}

theorem Shows.add (leftShows : Shows uses left leftFormula)
    (rightShows : Shows uses right rightFormula) :
    ∃ sum, Shows uses sum (.binary .add leftFormula rightFormula) := by
  rcases right with ⟨product, behind⟩
  have glyphsEq := Sum.glyphs_extend .plus left product behind
  refine ⟨left.extend .plus product behind, ?_, ?_, ?_, nofun, nofun⟩
  · rw [Formula.latex, leftShows.latex, rightShows.latex, glyphsEq]
    simp [bind, Except.bind, Latex.operation, Glyph.text, Sign.word, Word.text]
  · rw [glyphsEq]
    simp [leftShows.legible, rightShows.legible, Sign.word]
  · have extended := Sum.congruent_extend_plus left product behind
    exact extended.trans (leftShows.congruent.binary rightShows.congruent)

/-- A formula as an operand that is put in parentheses if it is a sum. -/
theorem Shows.exists_product {sum : Sum} {formula : Formula} (shown : Shows uses sum formula) :
    ∃ product : Product,
      bytes product.glyphs = Latex.groupIf formula.isSum (bytes sum.glyphs) ∧
        Legible uses product.glyphs ∧ Congruent product.formula formula := by
  cases isSum : formula.isSum with
  | true =>
      refine ⟨.mk (.plain (.group sum) false) [], ?_, ?_, shown.congruent⟩
      · simp [Product.glyphs, Factor.glyphs, Atom.glyphs, markGlyphs, Link.allGlyphs, Glyph.text,
          Word.text, Latex.groupIf, Latex.group]
      · simp [Product.glyphs, Factor.glyphs, Atom.glyphs, markGlyphs, Link.allGlyphs,
          shown.legible]
  | false =>
      rcases shown.product isSum with ⟨product, rfl⟩
      have glyphsEq : (Sum.mk product []).glyphs = product.glyphs := List.append_nil _
      refine ⟨product, ?_, ?_, shown.congruent⟩
      · rw [glyphsEq]
        rfl
      · rw [← glyphsEq]
        exact shown.legible

theorem Shows.subtract (leftShows : Shows uses left leftFormula)
    (rightShows : Shows uses right rightFormula) :
    ∃ sum, Shows uses sum (.binary .subtract leftFormula rightFormula) := by
  rcases rightShows.exists_product with ⟨product, bytesEq, legible, congruent⟩
  have glyphsEq := Sum.glyphs_extend .minus left product []
  have productEq : (Sum.mk product []).glyphs = product.glyphs := List.append_nil _
  rw [productEq] at glyphsEq
  refine ⟨left.extend .minus product [], ?_, ?_, ?_, nofun, nofun⟩
  · rw [Formula.latex, leftShows.latex, rightShows.latex, glyphsEq, bytes_append, bytes_cons,
      bytesEq]
    simp [bind, Except.bind, Latex.operation, Glyph.text, Sign.word, Word.text]
  · rw [glyphsEq]
    simp [leftShows.legible, legible, Sign.word]
  · rw [Sum.formula_extend_minus]
    exact leftShows.congruent.binary congruent

theorem Shows.multiply (leftShows : Shows uses left leftFormula)
    (rightShows : Shows uses right rightFormula) :
    ∃ sum, Shows uses sum (.binary .multiply leftFormula rightFormula) := by
  rcases leftShows.exists_product with ⟨leftProduct, leftBytes, leftLegible, leftCongruent⟩
  rcases rightShows.exists_product with ⟨rightProduct, rightBytes, rightLegible, rightCongruent⟩
  rcases Product.exists_times leftLegible rightLegible with
    ⟨product, bytesEq, legible, congruent⟩
  have glyphsEq : (Sum.mk product []).glyphs = product.glyphs := List.append_nil _
  refine ⟨.mk product [], ?_, ?_, ?_, fun _ => ⟨product, rfl⟩, nofun⟩
  · rw [Formula.latex, leftShows.latex, rightShows.latex, glyphsEq, bytesEq, leftBytes, rightBytes]
    rfl
  · rwa [glyphsEq]
  · exact congruent.trans (leftCongruent.binary rightCongruent)

theorem Shows.divide (leftShows : Shows uses left leftFormula)
    (rightShows : Shows uses right rightFormula) :
    ∃ sum, Shows uses sum (.binary .divide leftFormula rightFormula) := by
  apply Shows.of_atom (.fraction left right)
  · rw [Formula.latex, leftShows.latex, rightShows.latex]
    simp [bind, Except.bind, Latex.operation, Latex.fraction, Atom.glyphs, Glyph.text, Word.text]
  · simp [Atom.glyphs, leftShows.legible, rightShows.legible]
  · exact leftShows.congruent.binary rightShows.congruent

/-- A factorial mark goes to a factor without one, or to a group. -/
theorem Shows.exists_atom {sum : Sum} {formula : Formula} (shown : Shows uses sum formula) :
    ∃ factor : Factor, factor.marked = false ∧
      bytes factor.glyphs = Latex.groupIf formula.isOperation (bytes sum.glyphs) ∧
      Legible uses factor.glyphs ∧ Congruent factor.formula formula := by
  cases isOperation : formula.isOperation with
  | true =>
      refine ⟨.plain (.group sum) false, rfl, ?_, ?_, shown.congruent⟩
      · simp [Factor.glyphs, Atom.glyphs, markGlyphs, Glyph.text, Word.text, Latex.groupIf,
          Latex.group]
      · simp [Factor.glyphs, Atom.glyphs, markGlyphs, shown.legible]
  | false =>
      rcases shown.factor isOperation with ⟨factor, rfl, bare⟩
      refine ⟨factor, bare, ?_, ?_, shown.congruent⟩
      · rw [factor.glyphs_asSum]
        rfl
      · rw [← factor.glyphs_asSum]
        exact shown.legible

/-- A factor with a mark behind it. -/
def Factor.withMark : Factor → Factor
  | .plain atom _ => .plain atom true
  | .negative digits _ => .negative digits true

theorem Factor.glyphs_withMark {factor : Factor} (bare : factor.marked = false) :
    factor.withMark.glyphs = factor.glyphs ++ [.word .bang] := by
  cases factor
  all_goals
    change _ = false at bare
    subst bare
    simp [Factor.withMark, Factor.glyphs, markGlyphs]

theorem Factor.formula_withMark {factor : Factor} (bare : factor.marked = false) :
    factor.withMark.formula = .factorial factor.formula := by
  cases factor
  all_goals
    change _ = false at bare
    subst bare
    rfl

theorem Shows.factorial {sum : Sum} {formula : Formula} (shown : Shows uses sum formula) :
    ∃ sum, Shows uses sum (.factorial formula) := by
  rcases shown.exists_atom with ⟨factor, bare, bytesEq, legible, congruent⟩
  have glyphsEq := factor.glyphs_withMark bare
  refine ⟨_, Shows.of_factor factor.withMark ?_ ?_ ?_ nofun⟩
  · rw [Formula.latex, shown.latex, glyphsEq, bytes_append, bytesEq]
    simp [bind, Except.bind, pure, Except.pure, Glyph.text, Word.text]
  · rw [glyphsEq]
    simp [legible]
  · rw [factor.formula_withMark bare]
    exact congruent.inside .asOperand

end Operations

/-! ### Lists -/

theorem commas_cons (first : Bytes) (rest : List Bytes) :
    Latex.commas (first :: rest) = first ++ rest.flatMap (utf8 "," ++ ·) := by
  induction rest generalizing first with
  | nil => simp [Latex.commas]
  | cons second rest ih =>
      have behind := ih second
      rw [Latex.commas] at behind
      rw [Latex.commas, List.intercalate_cons_cons, behind]
      simp

theorem commas_concat (texts : List Bytes) (last : Bytes) :
    Latex.commas (texts ++ [last]) = texts.flatMap (· ++ utf8 ",") ++ last := by
  induction texts with
  | nil => simp [Latex.commas]
  | cons first texts ih =>
      rw [List.cons_append, Latex.commas, List.intercalate_cons_of_ne_nil (by simp)]
      rw [Latex.commas] at ih
      rw [ih]
      simp

theorem bytes_moreGlyphs (sums : List Sum) :
    bytes (Sum.moreGlyphs sums) =
      (sums.map fun sum => bytes sum.glyphs).flatMap (utf8 "," ++ ·) := by
  induction sums with
  | nil => rfl
  | cons first sums ih => simp [Sum.moreGlyphs, ih, Glyph.text, Word.text]

theorem bytes_listGlyphs (sums : List Sum) :
    bytes (Sum.listGlyphs sums) = Latex.commas (sums.map fun sum => bytes sum.glyphs) := by
  cases sums with
  | nil => rfl
  | cons first sums =>
      rw [Sum.listGlyphs, bytes_append, bytes_moreGlyphs, List.map_cons, commas_cons]

section Lists

variable {sums : List Sum} {formulas : List Formula}

theorem latexAll_of_shows (shown : List.Forall₂ (Shows uses) sums formulas) :
    Formula.latexAll formulas = .ok (sums.map fun sum => bytes sum.glyphs) := by
  induction shown with
  | nil => rfl
  | cons head tail ih =>
      rw [Formula.latexAll, head.latex, ih]
      rfl

theorem legible_moreGlyphs (shown : List.Forall₂ (Shows uses) sums formulas) :
    Legible uses (Sum.moreGlyphs sums) := by
  induction shown with
  | nil => exact legible_nil
  | @cons sum formula sums formulas head tail ih =>
      rw [Sum.moreGlyphs, legible_word_cons]
      refine ⟨trivial, ?_⟩
      cases sums with
      | nil => simpa [Sum.moreGlyphs] using head.legible
      | cons next sums =>
          rw [Sum.moreGlyphs, legible_word_cons] at ih
          rw [Sum.moreGlyphs, legible_append_word]
          exact ⟨head.legible, ih⟩

theorem legible_listGlyphs (shown : List.Forall₂ (Shows uses) sums formulas) :
    Legible uses (Sum.listGlyphs sums) := by
  cases shown with
  | nil => exact legible_nil
  | cons head tail =>
      have legible := legible_moreGlyphs (.cons head tail)
      rw [Sum.moreGlyphs, legible_word_cons] at legible
      exact legible.2

theorem congruent_formulas (shown : List.Forall₂ (Shows uses) sums formulas) :
    List.Forall₂ Congruent (Sum.formulas sums) formulas := by
  induction shown with
  | nil => exact .nil
  | cons head tail ih => exact .cons head.congruent ih

theorem exists_shows_list (shown : List.Forall₂ (Shows uses) sums formulas) :
    ∃ sum, Shows uses sum (.list formulas) := by
  apply Shows.of_atom (.list sums)
  · rw [Formula.latex, latexAll_of_shows shown]
    simp [bind, Except.bind, pure, Except.pure, Atom.glyphs, Glyph.text, Word.text,
      bytes_listGlyphs]
  · simp [Atom.glyphs, legible_listGlyphs shown]
  · exact .list (congruent_formulas shown)

theorem exists_shows_call {callee : String} (shape : Lexeme.IsName callee.toList)
    (used : .function callee ∈ uses) (shown : List.Forall₂ (Shows uses) sums formulas) :
    ∃ sum, Shows uses sum (.call callee false formulas) := by
  apply Shows.of_atom (.call callee sums)
  · rw [Formula.latex, latexAll_of_shows shown]
    simp [bind, Except.bind, pure, Except.pure, Atom.glyphs, Glyph.text, Word.text,
      bytes_listGlyphs, Latex.callee, Latex.group]
  · rw [Atom.glyphs, legible_cons rfl]
    refine ⟨⟨shape, used⟩, ?_⟩
    simp [legible_listGlyphs shown]
  · exact .call (congruent_formulas shown)

theorem exists_shows_builtin {callee : String} (listed : callee ∈ Builtin.names)
    (shown : List.Forall₂ (Shows uses) sums formulas) :
    ∃ sum, Shows uses sum (.call callee true formulas) := by
  apply Shows.of_atom (.builtin callee sums)
  · rw [Formula.latex, latexAll_of_shows shown]
    simp [bind, Except.bind, pure, Except.pure, Atom.glyphs, Glyph.text, Word.text,
      bytes_listGlyphs, Latex.callee, Latex.group]
  · simp [Atom.glyphs, legible_listGlyphs shown, listed]
  · exact .call (congruent_formulas shown)

end Lists

/-! ### Case distinctions -/

/-- A conditional part whose formulas are written in the given layouts. -/
structure ShowsCase (uses : List NameUse) (part : Clause Sum) (clause : Clause Formula) : Prop where
  left : Shows uses part.left clause.left
  comparison : part.comparison = clause.comparison
  known : clause.comparison ∈ Comparison.known
  right : Shows uses part.right clause.right
  result : Shows uses part.result clause.result

/-- The text of a conditional part. -/
def caseText (part : Clause Sum) : Bytes :=
  bytes part.left.glyphs ++ (Word.relation part.comparison).text ++ bytes part.right.glyphs ++
    utf8 ":" ++ bytes part.result.glyphs

theorem comparison_of_known {comparison : Comparison} (known : comparison ∈ Comparison.known) :
    Latex.comparison comparison = .ok (Word.relation comparison).text := by
  cases comparison with
  | other code => simp [Comparison.known] at known
  | _ => rfl

section Cases

variable {part : Clause Sum} {clause : Clause Formula} {parts : List (Clause Sum)}
  {clauses : List (Clause Formula)}

theorem ShowsCase.latex (shown : ShowsCase uses part clause) :
    Clause.latex clause = .ok (caseText part) := by
  rcases clause with ⟨left, comparison, right, result⟩
  rw [Clause.latex, shown.left.latex, shown.right.latex, shown.result.latex,
    comparison_of_known shown.known, ← shown.comparison]
  rfl

theorem bytes_caseGlyphs (part : Clause Sum) :
    bytes (caseGlyphs part) = caseText part ++ utf8 "," := by
  rcases part with ⟨left, comparison, right, result⟩
  simp [caseGlyphs, caseText, Glyph.text, Word.text]

theorem bytes_casesGlyphs (parts : List (Clause Sum)) :
    bytes (casesGlyphs parts) = (parts.map caseText).flatMap (· ++ utf8 ",") := by
  induction parts with
  | nil => rfl
  | cons first parts ih =>
      rw [casesGlyphs, bytes_append, bytes_caseGlyphs, ih, List.map_cons, List.flatMap_cons]

theorem latexAll_of_showsCase (shown : List.Forall₂ (ShowsCase uses) parts clauses) :
    Clause.latexAll clauses = .ok (parts.map caseText) := by
  induction shown with
  | nil => rfl
  | cons head tail ih =>
      rw [Clause.latexAll, head.latex, ih]
      rfl

theorem ShowsCase.legible_append (shown : ShowsCase uses part clause) {behind : List Glyph}
    (legible : Legible uses behind) : Legible uses (caseGlyphs part ++ behind) := by
  have known : part.comparison ∈ Comparison.known := by
    rw [shown.comparison]
    exact shown.known
  rcases part with ⟨left, comparison, right, result⟩
  simp [caseGlyphs, shown.left.legible, known, shown.right.legible, shown.result.legible, legible]

theorem legible_casesGlyphs_append (shown : List.Forall₂ (ShowsCase uses) parts clauses)
    {behind : List Glyph} (legible : Legible uses behind) :
    Legible uses (casesGlyphs parts ++ behind) := by
  induction shown with
  | nil => exact legible
  | cons head tail ih =>
      rw [casesGlyphs, List.append_assoc]
      exact head.legible_append ih

theorem ShowsCase.congruent (shown : ShowsCase uses part clause) :
    ClauseCongruent (caseFormula part) clause := by
  rcases part with ⟨left, comparison, right, result⟩
  exact ⟨shown.left.congruent, shown.comparison, shown.right.congruent, shown.result.congruent⟩

theorem congruent_caseFormulas (shown : List.Forall₂ (ShowsCase uses) parts clauses) :
    List.Forall₂ ClauseCongruent (caseFormulas parts) clauses := by
  induction shown with
  | nil => exact .nil
  | cons head tail ih => exact .cons head.congruent ih

theorem exists_shows_piecewise {sum : Sum} {otherwise : Formula}
    (firstShown : ShowsCase uses part clause)
    (restShown : List.Forall₂ (ShowsCase uses) parts clauses)
    (otherwiseShown : Shows uses sum otherwise) :
    ∃ sum, Shows uses sum (.piecewise clause clauses otherwise) := by
  apply Shows.of_atom (.piecewise part parts sum)
  · rw [Formula.latex, firstShown.latex, latexAll_of_showsCase restShown, otherwiseShown.latex]
    change Except.ok (_ ++ Latex.commas (_ :: _ ++ [_]) ++ _) = _
    rw [commas_concat]
    simp [Atom.glyphs, bytes_caseGlyphs, bytes_casesGlyphs, Glyph.text, Word.text]
  · have ending : Legible uses (sum.glyphs ++ [.word .closeCases]) := by
      simp [otherwiseShown.legible]
    rw [Atom.glyphs, legible_word_cons]
    exact ⟨trivial, firstShown.legible_append (legible_casesGlyphs_append restShown ending)⟩
  · exact .piecewise firstShown.congruent (congruent_caseFormulas restShown)
      otherwiseShown.congruent

end Cases

end Layout

open Layout

/-! ## Unique readability -/

mutual

/-- Every well-formed formula is written in a layout. -/
theorem Formula.exists_shows {uses : List NameUse} : ∀ formula : Formula, formula.WellFormed →
    formula.uses ⊆ uses → ∃ sum, Shows uses sum formula
  | .number _, shape, _ => exists_shows_number shape
  | .var _, shape, used => exists_shows_var shape (used List.mem_cons_self)
  | .binary op left right, ⟨known, leftShape, rightShape⟩, used => by
      rw [Formula.uses, List.append_subset] at used
      rcases Formula.exists_shows left leftShape used.1 with ⟨leftSum, leftShows⟩
      rcases Formula.exists_shows right rightShape used.2 with ⟨rightSum, rightShows⟩
      cases op with
      | add => exact leftShows.add rightShows
      | subtract => exact leftShows.subtract rightShows
      | multiply => exact leftShows.multiply rightShows
      | divide => exact leftShows.divide rightShows
      | other code => simp [Arithmetic.known] at known
  | .factorial operand, shape, used => by
      rcases Formula.exists_shows operand shape used with ⟨sum, shown⟩
      exact shown.factorial
  | .call _ true args, ⟨listed, shape⟩, used => by
      rcases Formula.exists_showsAll args shape used with ⟨sums, shown⟩
      exact exists_shows_builtin listed shown
  | .call _ false args, ⟨nameShape, shape⟩, used => by
      rw [Formula.uses, List.cons_subset] at used
      rcases Formula.exists_showsAll args shape used.2 with ⟨sums, shown⟩
      exact exists_shows_call nameShape used.1 shown
  | .list items, shape, used => by
      rcases Formula.exists_showsAll items shape used with ⟨sums, shown⟩
      exact exists_shows_list shown
  | .piecewise first rest otherwise, ⟨firstShape, restShape, otherwiseShape⟩, used => by
      rw [Formula.uses, List.append_subset, List.append_subset] at used
      rcases Clause.exists_showsCase first firstShape used.1 with ⟨part, firstShown⟩
      rcases Clause.exists_showsCases rest restShape used.2.1 with ⟨parts, restShown⟩
      rcases Formula.exists_shows otherwise otherwiseShape used.2.2 with ⟨sum, otherwiseShown⟩
      exact exists_shows_piecewise firstShown restShown otherwiseShown

theorem Formula.exists_showsAll {uses : List NameUse} : ∀ formulas : List Formula,
    Formula.AllWellFormed formulas → Formula.usesAll formulas ⊆ uses →
      ∃ sums, List.Forall₂ (Shows uses) sums formulas
  | [], _, _ => ⟨[], .nil⟩
  | first :: rest, ⟨firstShape, restShape⟩, used => by
      rw [Formula.usesAll, List.append_subset] at used
      rcases Formula.exists_shows first firstShape used.1 with ⟨sum, head⟩
      rcases Formula.exists_showsAll rest restShape used.2 with ⟨sums, tail⟩
      exact ⟨sum :: sums, .cons head tail⟩

theorem Clause.exists_showsCase {uses : List NameUse} : ∀ clause : Clause Formula,
    Clause.FormulaWellFormed clause → Clause.uses clause ⊆ uses →
      ∃ part, ShowsCase uses part clause
  | ⟨left, comparison, right, result⟩, ⟨known, leftShape, rightShape, resultShape⟩, used => by
      rw [Clause.uses, List.append_subset, List.append_subset] at used
      rcases Formula.exists_shows left leftShape used.1 with ⟨leftSum, leftShows⟩
      rcases Formula.exists_shows right rightShape used.2.1 with ⟨rightSum, rightShows⟩
      rcases Formula.exists_shows result resultShape used.2.2 with ⟨resultSum, resultShows⟩
      exact ⟨⟨leftSum, comparison, rightSum, resultSum⟩, leftShows, rfl, known, rightShows,
        resultShows⟩

theorem Clause.exists_showsCases {uses : List NameUse} : ∀ clauses : List (Clause Formula),
    Clause.AllFormulaWellFormed clauses → Clause.usesAll clauses ⊆ uses →
      ∃ parts, List.Forall₂ (ShowsCase uses) parts clauses
  | [], _, _ => ⟨[], .nil⟩
  | first :: rest, ⟨firstShape, restShape⟩, used => by
      rw [Clause.usesAll, List.append_subset] at used
      rcases Clause.exists_showsCase first firstShape used.1 with ⟨part, head⟩
      rcases Clause.exists_showsCases rest restShape used.2 with ⟨parts, tail⟩
      exact ⟨part :: parts, .cons head tail⟩

end

/-- Two layouts with the same bytes are the same. -/
theorem Layout.Sum.eq_of_bytes_eq {uses : List NameUse} {left right : Sum}
    (apart : NameUse.Apart uses) (leftLegible : Legible uses left.glyphs)
    (rightLegible : Legible uses right.glyphs)
    (bytesEq : bytes left.glyphs = bytes right.glyphs) : left = right :=
  Sum.eq_of_glyphs_eq (Layout.eq_of_bytes_eq apart leftLegible.valid rightLegible.valid
    leftLegible.separated rightLegible.separated bytesEq)

/-- Two expressions in which no name is both a variable and a function have the
same text exactly if they differ by re-association only. -/
theorem latex_eq_iff_congruent {left right : Formula} (leftShape : left.WellFormed)
    (rightShape : right.WellFormed) (apart : NameUse.Apart (left.uses ++ right.uses)) :
    ∃ leftText rightText, left.latex = .ok leftText ∧ right.latex = .ok rightText ∧
      (leftText = rightText ↔ Congruent left right) := by
  rcases left.exists_shows leftShape (List.subset_append_left _ _) with ⟨leftSum, leftShows⟩
  rcases right.exists_shows rightShape (List.subset_append_right _ _) with
    ⟨rightSum, rightShows⟩
  refine ⟨_, _, leftShows.latex, rightShows.latex, ?_, ?_⟩
  · intro bytesEq
    have sumEq := Sum.eq_of_bytes_eq apart leftShows.legible rightShows.legible bytesEq
    subst sumEq
    exact leftShows.congruent.symm.trans rightShows.congruent
  · intro congruent
    have latexEq := congruent.sameText.latex
    rw [leftShows.latex, rightShows.latex] at latexEq
    exact Except.ok.inj latexEq

/-- A sum and a product that are associated to the right and to the left. -/
theorem latex_eq_iff_congruent_nested :
    let call : Formula := .call "f" false [.var "c"]
    let left : Formula := .binary .add (.var "a") (.binary .subtract
      (.binary .multiply (.var "b") (.binary .multiply (.number "-2") call)) (.number "1.5"))
    let right : Formula := .binary .subtract (.binary .add (.var "a")
      (.binary .multiply (.binary .multiply (.var "b") (.number "-2")) call)) (.number "1.5")
    left.WellFormed ∧ right.WellFormed ∧ NameUse.Apart (left.uses ++ right.uses) ∧
      ∃ leftText rightText, left.latex = .ok leftText ∧ right.latex = .ok rightText ∧
        (leftText = rightText ↔ Congruent left right) := by
  intro call left right
  have nameShape : ∀ name ∈ ["a", "b", "c", "f"], Lexeme.IsName name.toList := by decide
  have callShape : call.WellFormed :=
    ⟨nameShape "f" (by decide), nameShape "c" (by decide), trivial⟩
  have negative : Lexeme.IsSignedNumeral "-2".toList := .negative (.whole (by decide))
  have wholeDigits : Lexeme.IsDigits ['1'] := by decide
  have fractionDigits : Lexeme.IsDigits ['5'] := by decide
  have decimal : Lexeme.IsSignedNumeral "1.5".toList :=
    .plain (.decimal wholeDigits fractionDigits)
  have leftShape : left.WellFormed :=
    ⟨by decide, nameShape "a" (by decide), by decide,
      ⟨by decide, nameShape "b" (by decide), by decide, negative, callShape⟩, decimal⟩
  have rightShape : right.WellFormed :=
    ⟨by decide, ⟨by decide, nameShape "a" (by decide), by decide,
      ⟨by decide, nameShape "b" (by decide), negative⟩, callShape⟩, decimal⟩
  have apart : NameUse.Apart (left.uses ++ right.uses) := by
    intro name used isFunction
    have nameEq : name = "f" := by
      simpa [left, right, call, Formula.uses, Formula.usesAll] using isFunction
    simp [nameEq, left, right, call, Formula.uses, Formula.usesAll] at used
  exact ⟨leftShape, rightShape, apart, latex_eq_iff_congruent leftShape rightShape apart⟩

end GraphCalc
