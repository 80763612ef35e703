import GraphCalc.Proofs.Output.Parts
import GraphCalc.Proofs.Output.Readability

/-!
# The glyphs of a formula

The glyphs of a formula are listed as its text is put together.  The names of
variables and of functions are written alike, so they are glyphs of one kind here.
The text is the bytes of these glyphs, and it can be cut into glyphs in no other way.
-/

namespace GraphCalc

open Text (Bytes utf8)

namespace Layout

/-! ## Glyphs of operations -/

/-- The glyphs of a number.  A minus sign is a glyph of its own. -/
def numberGlyphs (value : String) : List Glyph :=
  match value.toList with
  | '-' :: digits => [.word .minus, .numeral (String.ofList digits)]
  | _ => [.numeral value]

/-- Glyphs in parentheses. -/
def groupGlyphs (glyphs : List Glyph) : List Glyph :=
  .word .openGroup :: (glyphs ++ [.word .closeGroup])

def groupGlyphsIf (condition : Bool) (glyphs : List Glyph) : List Glyph :=
  if condition then groupGlyphs glyphs else glyphs

/-- Two factors side by side. -/
def productGlyphs (left right : List Glyph) : List Glyph :=
  if Latex.needsDot (bytes left) (bytes right) then left ++ .word .dot :: right
  else left ++ right

def fractionGlyphs (upper lower : List Glyph) : List Glyph :=
  .word .openUpper :: (upper ++ .word .betweenParts :: (lower ++ [.word .closeLower]))

/-- A binary operation on two formulas with the given glyphs. -/
def operationGlyphs (op : Arithmetic) (left right : Formula)
    (leftGlyphs rightGlyphs : List Glyph) : List Glyph :=
  match op with
  | .add => leftGlyphs ++ .word .plus :: rightGlyphs
  | .subtract => leftGlyphs ++ .word .minus :: groupGlyphsIf right.isSum rightGlyphs
  | .multiply =>
      productGlyphs (groupGlyphsIf left.isSum leftGlyphs) (groupGlyphsIf right.isSum rightGlyphs)
  | .divide => fractionGlyphs leftGlyphs rightGlyphs
  | .other _ => []

/-- The name of a called function and the parenthesis behind it. -/
def calleeGlyphs (name : String) : Bool → List Glyph
  | true => [.word (.openBuiltin name)]
  | false => [.variableName name, .word .openGroup]

/-- Glyphs separated by commas. -/
def commaGlyphs (parts : List (List Glyph)) : List Glyph :=
  [Glyph.word .comma].intercalate parts

end Layout

open Layout

mutual

/-- The glyphs of a formula. -/
def Formula.glyphs : Formula → List Glyph
  | .number value => numberGlyphs value
  | .var name => [.variableName name]
  | .binary op left right => operationGlyphs op left right left.glyphs right.glyphs
  | .factorial operand => groupGlyphsIf operand.isOperation operand.glyphs ++ [.word .bang]
  | .call name builtin args =>
      calleeGlyphs name builtin ++ (commaGlyphs (Formula.glyphsAll args) ++ [.word .closeGroup])
  | .list items =>
      .word .openList :: (commaGlyphs (Formula.glyphsAll items) ++ [.word .closeList])
  | .assign left right => left.glyphs ++ .word (.relation .equal) :: right.glyphs
  | .define name params body =>
      calleeGlyphs name false ++ (commaGlyphs (params.map fun param => [.variableName param]) ++
        .word .closeGroup :: .word (.relation .equal) :: body.glyphs)
  | .piecewise first rest otherwise =>
      .word .openCases :: (commaGlyphs (Clause.glyphs first :: Clause.glyphsAll rest ++
        [otherwise.glyphs]) ++ [.word .closeCases])
  | .missing => []

def Formula.glyphsAll : List Formula → List (List Glyph)
  | [] => []
  | first :: rest => first.glyphs :: Formula.glyphsAll rest

/-- The glyphs of a conditional part. -/
def Clause.glyphs : Clause Formula → List Glyph
  | ⟨left, comparison, right, result⟩ =>
      left.glyphs ++ .word (.relation comparison) :: (right.glyphs ++ .word .colon ::
        result.glyphs)

def Clause.glyphsAll : List (Clause Formula) → List (List Glyph)
  | [] => []
  | first :: rest => Clause.glyphs first :: Clause.glyphsAll rest

end

namespace Layout

/-! ## Their bytes -/

theorem bytes_numberGlyphs (value : String) : bytes (numberGlyphs value) = utf8 value := by
  unfold numberGlyphs
  split
  · rename_i digits charsEq
    have valueEq : value = "-" ++ String.ofList digits := by
      apply String.toList_inj.1
      simp [charsEq]
    rw [valueEq, utf8_append]
    simp [Glyph.text, Word.text]
  · simp [Glyph.text]

/-- A number is its digits, possibly behind a minus sign. -/
theorem numberGlyphs_cases {value : String} (shape : Lexeme.IsSignedNumeral value.toList) :
    Lexeme.IsNumeral value.toList ∧ numberGlyphs value = [.numeral value] ∨
      ∃ digits, Lexeme.IsNumeral digits.toList ∧ value = "-" ++ digits ∧
        numberGlyphs value = [.word .minus, .numeral digits] := by
  unfold numberGlyphs
  generalize charsEq : value.toList = chars at shape
  cases shape with
  | plain shape =>
      rcases shape.cons with ⟨first, rest, rfl, digit⟩
      refine .inl ⟨shape, ?_⟩
      split
      · rename_i digits signEq
        cases signEq
        cases digit
      · rfl
  | @negative digits shape =>
      refine .inr ⟨String.ofList digits, ?_, ?_, rfl⟩
      · rwa [String.toList_ofList]
      · apply String.toList_inj.1
        simp [charsEq]

theorem bytes_groupGlyphs (glyphs : List Glyph) :
    bytes (groupGlyphs glyphs) = Latex.group (bytes glyphs) := by
  simp [groupGlyphs, Latex.group, Glyph.text, Word.text]

theorem bytes_groupGlyphsIf (condition : Bool) (glyphs : List Glyph) :
    bytes (groupGlyphsIf condition glyphs) = Latex.groupIf condition (bytes glyphs) := by
  cases condition with
  | true => exact bytes_groupGlyphs glyphs
  | false => rfl

theorem bytes_productGlyphs (left right : List Glyph) :
    bytes (productGlyphs left right) = Latex.product (bytes left) (bytes right) := by
  unfold productGlyphs Latex.product
  split
  · simp [Glyph.text, Word.text]
  · exact bytes_append left right

theorem commaGlyphs_singleton (part : List Glyph) : commaGlyphs [part] = part := by
  rw [commaGlyphs, List.intercalate_singleton]

theorem commaGlyphs_cons_cons (first second : List Glyph) (parts : List (List Glyph)) :
    commaGlyphs (first :: second :: parts) =
      first ++ .word .comma :: commaGlyphs (second :: parts) := by
  rw [commaGlyphs, List.intercalate_cons_cons, List.append_assoc]
  rfl

/-- A property of parts that survives a comma between them holds of them all
together. -/
theorem commaGlyphs_induction {property : List Glyph → Prop} (nil : property [])
    (comma : ∀ {left right}, property left → property right →
      property (left ++ .word .comma :: right))
    {parts : List (List Glyph)} (holds : ∀ part ∈ parts, property part) :
    property (commaGlyphs parts) := by
  induction parts with
  | nil => exact nil
  | cons first parts ih =>
      rw [List.forall_mem_cons] at holds
      cases parts with
      | nil =>
          rw [commaGlyphs_singleton]
          exact holds.1
      | cons second parts =>
          rw [commaGlyphs_cons_cons]
          exact comma holds.1 (ih holds.2)

theorem bytes_commaGlyphs (parts : List (List Glyph)) :
    bytes (commaGlyphs parts) = Latex.commas (parts.map bytes) := by
  induction parts with
  | nil => rfl
  | cons first parts ih =>
      cases parts with
      | nil => simp [commaGlyphs_singleton, Latex.commas]
      | cons second parts =>
          rw [commaGlyphs_cons_cons, bytes_append, bytes_cons, ih]
          simp [Latex.commas, List.intercalate_cons_cons, Glyph.text, Word.text]

theorem operation_eq_bytes {op : Arithmetic} (known : op ∈ Arithmetic.known)
    (left right : Formula) (leftGlyphs rightGlyphs : List Glyph) :
    Latex.operation op left right (bytes leftGlyphs) (bytes rightGlyphs) =
      .ok (bytes (operationGlyphs op left right leftGlyphs rightGlyphs)) := by
  cases op with
  | add => simp [Latex.operation, operationGlyphs, Glyph.text, Word.text]
  | subtract =>
      simp [Latex.operation, operationGlyphs, bytes_groupGlyphsIf, Glyph.text, Word.text]
  | multiply =>
      simp only [Latex.operation, operationGlyphs, bytes_productGlyphs, bytes_groupGlyphsIf]
  | divide =>
      simp [Latex.operation, operationGlyphs, fractionGlyphs, Latex.fraction, Glyph.text, Word.text]
  | other code => simp [Arithmetic.known] at known

end Layout

/-! ## Lists of parts -/

namespace Formula

theorem glyphsAll_eq_map (formulas : List Formula) : glyphsAll formulas = formulas.map glyphs := by
  induction formulas with
  | nil => rfl
  | cons first rest ih => rw [glyphsAll, ih, List.map_cons]

end Formula

theorem Clause.glyphsAll_eq_map (clauses : List (Clause Formula)) :
    Clause.glyphsAll clauses = clauses.map Clause.glyphs := by
  induction clauses with
  | nil => rfl
  | cons first rest ih => rw [Clause.glyphsAll, ih, List.map_cons]

/-- What holds of the glyphs of the conditional parts and of the last part holds
of everything between the commas of a case distinction. -/
theorem Clause.forall_pieces {property : List Glyph → Prop} {first : Clause Formula}
    {rest : List (Clause Formula)} {otherwise : Formula}
    (holds : ∀ clause ∈ first :: rest, property (Clause.glyphs clause))
    (holdsLast : property otherwise.glyphs) :
    ∀ piece ∈ Clause.glyphs first :: Clause.glyphsAll rest ++ [otherwise.glyphs],
      property piece := by
  rw [Clause.glyphsAll_eq_map, ← List.map_cons, List.forall_mem_append, List.forall_mem_map]
  exact ⟨holds, List.forall_mem_singleton.2 holdsLast⟩

/-! ## The text of a formula -/

theorem Formula.latexAll_eq_bytes {formulas : List Formula}
    (latexEq : ∀ formula ∈ formulas, formula.latex = .ok (bytes formula.glyphs)) :
    Formula.latexAll formulas = .ok ((Formula.glyphsAll formulas).map bytes) := by
  induction formulas with
  | nil => rfl
  | cons first rest ih =>
      rw [List.forall_mem_cons] at latexEq
      rw [Formula.latexAll, latexEq.1, ih latexEq.2]
      rfl

theorem Clause.latex_eq_bytes {clause : Clause Formula} (shape : Clause.FormulaWellFormed clause)
    (latexEq : ∀ part ∈ clause.children, part.latex = .ok (bytes part.glyphs)) :
    Clause.latex clause = .ok (bytes (Clause.glyphs clause)) := by
  rcases clause with ⟨left, comparison, right, result⟩
  simp only [Clause.children, List.forall_mem_cons] at latexEq
  rcases latexEq with ⟨leftEq, rightEq, resultEq, -⟩
  rw [Clause.latex, leftEq, comparison_of_known shape.1, rightEq, resultEq, Clause.glyphs]
  simp [bind, Except.bind, pure, Except.pure, Glyph.text, Word.text]

theorem Clause.latexAll_eq_bytes {clauses : List (Clause Formula)}
    (shape : Clause.AllFormulaWellFormed clauses)
    (latexEq : ∀ part ∈ clauses.flatMap Clause.children, part.latex = .ok (bytes part.glyphs)) :
    Clause.latexAll clauses = .ok ((Clause.glyphsAll clauses).map bytes) := by
  induction clauses with
  | nil => rfl
  | cons first rest ih =>
      rw [List.flatMap_cons, List.forall_mem_append] at latexEq
      rw [Clause.latexAll, Clause.latex_eq_bytes shape.1 latexEq.1, ih shape.2 latexEq.2]
      rfl

/-- The text of a well-formed formula is the bytes of its glyphs. -/
theorem Formula.WellFormed.latex_eq_bytes {formula : Formula} (shape : formula.WellFormed) :
    formula.latex = .ok (bytes formula.glyphs) := by
  induction formula using Formula.induction_children with
  | step formula ih =>
      replace ih : ∀ child ∈ formula.children, child.latex = .ok (bytes child.glyphs) :=
        fun child isChild => ih child isChild (shape.of_mem_children isChild)
      cases formula with
      | number value => rw [Formula.latex, Formula.glyphs, bytes_numberGlyphs]
      | var name => simp [Formula.latex, Formula.glyphs, Glyph.text]
      | binary op left right =>
          simp only [Formula.children, List.forall_mem_cons] at ih
          rw [Formula.latex, ih.1, ih.2.1]
          exact operation_eq_bytes shape.1 left right left.glyphs right.glyphs
      | factorial operand =>
          simp only [Formula.children, List.forall_mem_cons] at ih
          rw [Formula.latex, ih.1, Formula.glyphs, bytes_append, bytes_groupGlyphsIf]
          simp [bind, Except.bind, pure, Except.pure, Glyph.text, Word.text]
      | call name builtin args =>
          rw [Formula.children] at ih
          rw [Formula.latex, Formula.latexAll_eq_bytes ih, Formula.glyphs, bytes_append,
            bytes_append, bytes_commaGlyphs]
          cases builtin
          all_goals
            simp [bind, Except.bind, pure, Except.pure, calleeGlyphs, Latex.callee, Latex.group,
              Glyph.text, Word.text]
      | list items =>
          rw [Formula.children] at ih
          rw [Formula.latex, Formula.latexAll_eq_bytes ih, Formula.glyphs]
          simp [bind, Except.bind, pure, Except.pure, Glyph.text, Word.text, bytes_commaGlyphs]
      | piecewise first rest otherwise =>
          rw [Formula.children, List.forall_mem_cons, List.flatMap_cons,
            List.forall_mem_append] at ih
          rw [Formula.latex, Clause.latex_eq_bytes shape.1 ih.2.1,
            Clause.latexAll_eq_bytes shape.2.1 ih.2.2, ih.1, Formula.glyphs]
          simp [bind, Except.bind, pure, Except.pure, Glyph.text, Word.text, bytes_commaGlyphs]
      | assign | define | missing => exact shape.elim

/-! ## Where the glyphs of a part are -/

namespace Layout

theorem infix_groupGlyphsIf (condition : Bool) (glyphs : List Glyph) :
    glyphs <:+: groupGlyphsIf condition glyphs := by
  cases condition with
  | true => exact ⟨[.word .openGroup], [.word .closeGroup], rfl⟩
  | false => exact List.infix_rfl

theorem infix_productGlyphs_left (left right : List Glyph) :
    left <:+: productGlyphs left right := by
  unfold productGlyphs
  split
  · exact (List.prefix_append left _).isInfix
  · exact (List.prefix_append left right).isInfix

theorem infix_productGlyphs_right (left right : List Glyph) :
    right <:+: productGlyphs left right := by
  unfold productGlyphs
  split
  · exact ((List.suffix_cons _ right).trans (List.suffix_append left _)).isInfix
  · exact (List.suffix_append left right).isInfix

theorem infix_commaGlyphs {part : List Glyph} {parts : List (List Glyph)}
    (isPart : part ∈ parts) : part <:+: commaGlyphs parts := by
  induction parts with
  | nil => cases isPart
  | cons first parts ih =>
      cases parts with
      | nil =>
          rcases List.mem_singleton.1 isPart with rfl
          exact ⟨[], [], by rw [commaGlyphs_singleton, List.nil_append, List.append_nil]⟩
      | cons second parts =>
          rw [commaGlyphs_cons_cons]
          rcases List.mem_cons.1 isPart with rfl | isPart
          · exact (List.prefix_append part _).isInfix
          · exact (ih isPart).trans
              ((List.suffix_cons _ _).trans (List.suffix_append first _)).isInfix

theorem infix_operationGlyphs {op : Arithmetic} (known : op ∈ Arithmetic.known)
    (left right : Formula) (leftGlyphs rightGlyphs : List Glyph) :
    leftGlyphs <:+: operationGlyphs op left right leftGlyphs rightGlyphs ∧
      rightGlyphs <:+: operationGlyphs op left right leftGlyphs rightGlyphs := by
  cases op with
  | add => exact ⟨⟨[], _, rfl⟩, ⟨leftGlyphs ++ [.word .plus], [], by simp [operationGlyphs]⟩⟩
  | subtract =>
      have isSuffix : groupGlyphsIf right.isSum rightGlyphs <:+
          operationGlyphs .subtract left right leftGlyphs rightGlyphs :=
        ⟨leftGlyphs ++ [.word .minus], by simp [operationGlyphs]⟩
      exact ⟨⟨[], _, rfl⟩, (infix_groupGlyphsIf _ rightGlyphs).trans isSuffix.isInfix⟩
  | multiply =>
      exact ⟨(infix_groupGlyphsIf _ leftGlyphs).trans (infix_productGlyphs_left _ _),
        (infix_groupGlyphsIf _ rightGlyphs).trans (infix_productGlyphs_right _ _)⟩
  | divide =>
      exact ⟨⟨[.word .openUpper], _, rfl⟩,
        ⟨.word .openUpper :: (leftGlyphs ++ [.word .betweenParts]), [.word .closeLower],
          by simp [operationGlyphs, fractionGlyphs]⟩⟩
  | other code => simp [Arithmetic.known] at known

end Layout

theorem Clause.infix_glyphs {clause : Clause Formula} {part : Formula}
    (isPart : part ∈ clause.children) : part.glyphs <:+: Clause.glyphs clause := by
  rcases clause with ⟨left, comparison, right, result⟩
  simp only [Clause.children, List.mem_cons, List.not_mem_nil, or_false] at isPart
  rw [Clause.glyphs]
  rcases isPart with rfl | rfl | rfl
  · exact ⟨[], _, rfl⟩
  · exact ⟨left.glyphs ++ [.word (.relation comparison)], .word .colon :: result.glyphs, by simp⟩
  · exact ⟨left.glyphs ++ .word (.relation comparison) :: (right.glyphs ++ [.word .colon]), [],
      by simp⟩

/-- The glyphs of a child are among those of a formula, one behind the other. -/
theorem Formula.WellFormed.infix_glyphs {formula child : Formula} (shape : formula.WellFormed)
    (isChild : child ∈ formula.children) : child.glyphs <:+: formula.glyphs := by
  cases formula with
  | number | var => cases isChild
  | binary op left right =>
      simp only [Formula.children, List.mem_cons, List.not_mem_nil, or_false] at isChild
      have areInfixes := infix_operationGlyphs shape.1 left right left.glyphs right.glyphs
      rcases isChild with rfl | rfl
      · exact areInfixes.1
      · exact areInfixes.2
  | factorial operand =>
      rcases List.mem_singleton.1 isChild with rfl
      exact (infix_groupGlyphsIf _ _).trans (List.prefix_append _ _).isInfix
  | call name builtin args =>
      have isPart : child.glyphs <:+: commaGlyphs (args.map Formula.glyphs) :=
        infix_commaGlyphs (List.mem_map_of_mem isChild)
      rw [Formula.glyphs, Formula.glyphsAll_eq_map]
      exact isPart.trans ⟨calleeGlyphs name builtin, [.word .closeGroup], List.append_assoc _ _ _⟩
  | list items =>
      have isPart : child.glyphs <:+: commaGlyphs (items.map Formula.glyphs) :=
        infix_commaGlyphs (List.mem_map_of_mem isChild)
      rw [Formula.glyphs, Formula.glyphsAll_eq_map]
      exact isPart.trans ⟨[.word .openList], [.word .closeList], rfl⟩
  | piecewise first rest otherwise =>
      have isPart : child.glyphs <:+: commaGlyphs (Clause.glyphs first :: Clause.glyphsAll rest ++
          [otherwise.glyphs]) := by
        simp only [Formula.children, List.mem_cons, List.mem_flatMap] at isChild
        rcases isChild with rfl | ⟨clause, isClause, isPart⟩
        · exact infix_commaGlyphs (by simp)
        · refine (Clause.infix_glyphs isPart).trans (infix_commaGlyphs ?_)
          rw [Clause.glyphsAll_eq_map, ← List.map_cons]
          exact List.mem_append_left _ (List.mem_map_of_mem (List.mem_cons.2 isClause))
      exact isPart.trans ⟨[.word .openCases], [.word .closeCases], rfl⟩
  | assign | define | missing => exact shape.elim

/-- What is inside a well-formed formula is well-formed, and its glyphs are among
those of the formula. -/
theorem Formula.WellFormed.inside {formula part : Formula} (shape : formula.WellFormed)
    (inside : part.Inside formula) : part.WellFormed ∧ part.glyphs <:+: formula.glyphs := by
  induction inside with
  | refl => exact ⟨shape, List.infix_rfl⟩
  | tail _ isChild ih =>
      exact ⟨ih.1.of_mem_children isChild, (ih.1.infix_glyphs isChild).trans ih.2⟩

/-! ## Legibility -/

namespace Layout

/-- The use of a name that is written like that of a variable. -/
def Glyph.nameUse? : Glyph → Option NameUse
  | .variableName name => some (.var name)
  | _ => none

/-- The uses of the names among glyphs. -/
def nameUses (glyphs : List Glyph) : List NameUse :=
  glyphs.filterMap Glyph.nameUse?

variable {uses : List NameUse}

theorem nameUses_subset {part glyphs : List Glyph} (isInfix : part <:+: glyphs) :
    nameUses part ⊆ nameUses glyphs :=
  (isInfix.filterMap Glyph.nameUse?).subset

theorem legible_numberGlyphs {value : String} (shape : Lexeme.IsSignedNumeral value.toList) :
    Legible uses (numberGlyphs value) := by
  rcases numberGlyphs_cases shape with ⟨shape, glyphsEq⟩ | ⟨digits, shape, -, glyphsEq⟩
  · rw [glyphsEq]
    exact legible_singleton.2 shape
  · rw [glyphsEq, legible_word_cons]
    exact ⟨trivial, legible_singleton.2 shape⟩

theorem legible_groupGlyphsIf {glyphs : List Glyph} (condition : Bool)
    (legible : Legible uses glyphs) : Legible uses (groupGlyphsIf condition glyphs) := by
  cases condition with
  | true => simp [groupGlyphsIf, groupGlyphs, legible]
  | false => exact legible

theorem legible_productGlyphs {left right : List Glyph} (leftLegible : Legible uses left)
    (rightLegible : Legible uses right) : Legible uses (productGlyphs left right) := by
  unfold productGlyphs
  split
  · simp [leftLegible, rightLegible]
  · exact legible_append_of_needsDot leftLegible rightLegible (Bool.eq_false_iff.2 ‹_›)

theorem legible_commaGlyphs {parts : List (List Glyph)}
    (legible : ∀ part ∈ parts, Legible uses part) : Legible uses (commaGlyphs parts) := by
  refine commaGlyphs_induction legible_nil ?_ legible
  intro left right leftLegible rightLegible
  exact legible_append_word.2 ⟨leftLegible, trivial, rightLegible⟩

theorem legible_operationGlyphs {op : Arithmetic} (known : op ∈ Arithmetic.known)
    {left right : Formula} {leftGlyphs rightGlyphs : List Glyph}
    (leftLegible : Legible uses leftGlyphs) (rightLegible : Legible uses rightGlyphs) :
    Legible uses (operationGlyphs op left right leftGlyphs rightGlyphs) := by
  cases op with
  | add => simp [operationGlyphs, leftLegible, rightLegible]
  | subtract =>
      simp [operationGlyphs, leftLegible, legible_groupGlyphsIf right.isSum rightLegible]
  | multiply =>
      exact legible_productGlyphs (legible_groupGlyphsIf left.isSum leftLegible)
        (legible_groupGlyphsIf right.isSum rightLegible)
  | divide => simp [operationGlyphs, fractionGlyphs, leftLegible, rightLegible]
  | other code => simp [Arithmetic.known] at known

end Layout

theorem Clause.FormulaWellFormed.legible {clause : Clause Formula} {uses : List NameUse}
    (shape : Clause.FormulaWellFormed clause)
    (legible : ∀ part ∈ clause.children, Legible uses part.glyphs) :
    Legible uses (Clause.glyphs clause) := by
  rcases clause with ⟨left, comparison, right, result⟩
  simp only [Clause.children, List.forall_mem_cons] at legible
  rcases legible with ⟨leftLegible, rightLegible, resultLegible, -⟩
  have known : comparison ∈ Comparison.known := shape.1
  simp [Clause.glyphs, leftLegible, known, rightLegible, resultLegible]

/-- The glyphs of a well-formed formula can be told apart in its text. -/
theorem Formula.WellFormed.legible {formula : Formula} {uses : List NameUse}
    (shape : formula.WellFormed) (used : nameUses formula.glyphs ⊆ uses) :
    Legible uses formula.glyphs := by
  induction formula using Formula.induction_children with
  | step formula ih =>
      replace ih : ∀ child ∈ formula.children, Legible uses child.glyphs := fun child isChild =>
        ih child isChild (shape.of_mem_children isChild)
          (List.Subset.trans (nameUses_subset (shape.infix_glyphs isChild)) used)
      cases formula with
      | number value => exact legible_numberGlyphs shape
      | var name =>
          have isUsed : .var name ∈ uses := used List.mem_cons_self
          exact legible_singleton.2 ⟨shape, isUsed⟩
      | binary op left right =>
          simp only [Formula.children, List.forall_mem_cons] at ih
          exact legible_operationGlyphs shape.1 ih.1 ih.2.1
      | factorial operand =>
          simp only [Formula.children, List.forall_mem_cons] at ih
          rw [Formula.glyphs, legible_append_word]
          exact ⟨legible_groupGlyphsIf _ ih.1, trivial, legible_nil⟩
      | call name builtin args =>
          have argsLegible : Legible uses (commaGlyphs (Formula.glyphsAll args)) := by
            rw [Formula.glyphsAll_eq_map]
            exact legible_commaGlyphs (List.forall_mem_map.2 ih)
          cases builtin with
          | true =>
              have listed : name ∈ Builtin.names := shape.1
              simp [Formula.glyphs, calleeGlyphs, argsLegible, listed]
          | false =>
              have isUsed : .var name ∈ uses := used List.mem_cons_self
              rw [Formula.glyphs, calleeGlyphs, List.cons_append, legible_cons rfl]
              refine ⟨⟨shape.1, isUsed⟩, ?_⟩
              simp [argsLegible]
      | list items =>
          have itemsLegible : Legible uses (commaGlyphs (Formula.glyphsAll items)) := by
            rw [Formula.glyphsAll_eq_map]
            exact legible_commaGlyphs (List.forall_mem_map.2 ih)
          simp [Formula.glyphs, itemsLegible]
      | piecewise first rest otherwise =>
          rw [Formula.children, List.forall_mem_cons, List.forall_mem_flatMap] at ih
          have clausesLegible : ∀ clause ∈ first :: rest, Legible uses (Clause.glyphs clause) :=
            fun clause isClause => (shape.of_mem_clauses isClause).legible (ih.2 clause isClause)
          have piecesLegible := legible_commaGlyphs (Clause.forall_pieces clausesLegible ih.1)
          rw [Formula.glyphs, legible_word_cons, legible_append_word]
          exact ⟨trivial, piecesLegible, trivial, legible_nil⟩
      | assign | define | missing => exact shape.elim

/-- Whether a formula is written with the given glyphs, and they can be told apart
in its text. -/
structure Formula.Written (formula : Formula) (glyphs : List Glyph) : Prop where
  latex : formula.latex = .ok (bytes glyphs)
  legible : Legible (nameUses glyphs) glyphs

theorem Formula.WellFormed.written {formula : Formula} (shape : formula.WellFormed) :
    formula.Written formula.glyphs :=
  ⟨shape.latex_eq_bytes, shape.legible (List.Subset.refl _)⟩

namespace Layout

theorem Legible.mono {uses more : List NameUse} {glyphs : List Glyph}
    (legible : Legible uses glyphs) (subset : uses ⊆ more) : Legible more glyphs := by
  refine ⟨?_, legible.separated⟩
  intro glyph isGlyph
  have valid := legible.valid glyph isGlyph
  cases glyph with
  | numeral | word => exact valid
  | variableName | functionName => exact ⟨valid.1, subset valid.2⟩

theorem apart_nameUses (glyphs : List Glyph) : NameUse.Apart (nameUses glyphs) := by
  intro name _ isFunction
  rcases List.mem_filterMap.1 isFunction with ⟨glyph, -, useEq⟩
  cases glyph
  all_goals cases useEq

end Layout

/-- The glyphs a formula is written with are determined by its text. -/
theorem Formula.Written.unique {left right : Formula} {leftGlyphs rightGlyphs : List Glyph}
    (leftWritten : left.Written leftGlyphs) (rightWritten : right.Written rightGlyphs)
    (latexEq : left.latex = right.latex) : leftGlyphs = rightGlyphs := by
  have leftLegible := leftWritten.legible.mono
    (nameUses_subset (List.prefix_append leftGlyphs rightGlyphs).isInfix)
  have rightLegible := rightWritten.legible.mono
    (nameUses_subset (List.suffix_append leftGlyphs rightGlyphs).isInfix)
  rw [leftWritten.latex, rightWritten.latex] at latexEq
  exact Layout.eq_of_bytes_eq (apart_nameUses _) leftLegible.valid rightLegible.valid
    leftLegible.separated rightLegible.separated (Except.ok.inj latexEq)

end GraphCalc
