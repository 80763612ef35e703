import GraphCalc.Proofs.Compile.Faultless
import GraphCalc.Proofs.Output.Exposure

/-!
# Precedence in the text of a program

Every line of a program is written so that the precedence of its operators survives,
whether it is an expression or the definition of a function by one.  There is one
exception: the operand of a factorial is put in parentheses according to its operator
and not according to its text, so a negative number stands in front of the mark with
its sign.
-/

namespace GraphCalc

open Layout

/-! ## Lines -/

namespace Formula.IsLine

theorem of_mem_children {formula child : Formula} (isLine : formula.IsLine)
    (isChild : child ∈ formula.children) : child.WellFormed := by
  cases formula with
  | define name params body =>
      rcases List.mem_singleton.1 isChild with rfl
      exact isLine.2.2
  | _ => exact Formula.WellFormed.of_mem_children isLine isChild

theorem infix_child {formula child : Formula} (isLine : formula.IsLine)
    (isChild : child ∈ formula.children) : child.glyphs <:+: formula.glyphs := by
  cases formula with
  | define name params body =>
      rcases List.mem_singleton.1 isChild with rfl
      exact ⟨calleeGlyphs name false ++ (commaGlyphs (params.map fun param =>
        [.variableName param]) ++ [.word .closeGroup, .word (.relation .equal)]), [],
        by simp [Formula.glyphs]⟩
  | _ => exact Formula.WellFormed.infix_glyphs isLine isChild

/-- What is inside a line is the line or well-formed, and its glyphs are among those
of the line. -/
theorem inside {line part : Formula} (isLine : line.IsLine) (inside : part.Inside line) :
    part.IsLine ∧ part.glyphs <:+: line.glyphs := by
  rcases Relation.ReflTransGen.cases_head inside with rfl | ⟨child, isChild, insideChild⟩
  · exact ⟨isLine, List.infix_rfl⟩
  · rcases (isLine.of_mem_children isChild).inside insideChild with ⟨shape, isInfix⟩
    exact ⟨shape.isLine, isInfix.trans (isLine.infix_child isChild)⟩

theorem legible_define {uses : List NameUse} {name : String} {params : List String}
    {body : Formula} (nameValid : (Glyph.variableName name).Valid uses)
    (paramsValid : ∀ param ∈ params, (Glyph.variableName param).Valid uses)
    (bodyLegible : Legible uses body.glyphs) :
    Legible uses (Formula.define name params body).glyphs := by
  have paramsLegible : Legible uses
      (commaGlyphs (params.map fun param => [Glyph.variableName param])) := by
    apply legible_commaGlyphs
    rw [List.forall_mem_map]
    exact fun param isParam => legible_singleton.2 (paramsValid param isParam)
  rw [Formula.glyphs, calleeGlyphs, List.cons_append, legible_cons rfl]
  refine ⟨nameValid, ?_⟩
  simp [paramsLegible, bodyLegible, Comparison.known]

/-- Every line is written with its glyphs. -/
theorem written {line : Formula} (isLine : line.IsLine) : line.Written line.glyphs := by
  cases line with
  | define name params body =>
      have bodyInfix := isLine.infix_child List.mem_cons_self
      rcases isLine with ⟨nameShape, paramShapes, bodyShape⟩
      have paramTexts : params.map Latex.identifier =
          (params.map fun param => [Glyph.variableName param]).map bytes := by
        simp [Glyph.text]
      refine ⟨?_, legible_define ⟨nameShape, List.mem_cons_self⟩ ?_
        (bodyShape.legible (nameUses_subset bodyInfix))⟩
      · rw [Formula.latex, bodyShape.latex_eq_bytes, paramTexts, ← bytes_commaGlyphs]
        simp [bind, Except.bind, pure, Except.pure, Formula.glyphs, calleeGlyphs, Latex.group,
          Latex.comparison, Glyph.text, Word.text]
      · intro param isParam
        have isPart : [Glyph.variableName param] <:+:
            commaGlyphs (params.map fun param => [Glyph.variableName param]) :=
          infix_commaGlyphs (List.mem_map_of_mem isParam)
        have isGlyph : Glyph.variableName param ∈ (Formula.define name params body).glyphs := by
          rw [Formula.glyphs]
          exact List.mem_append_right _ (List.mem_append_left _ (isPart.subset List.mem_cons_self))
        exact ⟨paramShapes param isParam, List.mem_filterMap.2 ⟨_, isGlyph, rfl⟩⟩
  | _ => exact Formula.WellFormed.written isLine

end Formula.IsLine

/-! ## Precedence -/

theorem Layout.groupGlyphsIf_mem (condition : Bool) (glyphs : List Glyph) :
    groupGlyphsIf condition glyphs ∈ [glyphs, groupGlyphs glyphs] := by
  cases condition
  all_goals simp [groupGlyphsIf]

/-- Precedence survives writing, up to the sign of a negative number in front of a
factorial mark.  Every part of a line is written with glyphs that are among those of
the line, and its text can be cut into glyphs in this way only.  Wherever a part is a
factorial, a difference or a product, its glyphs are those of its operands, in
parentheses or not: in front of a factorial mark they are one closed factor or a
negative number; behind a minus sign and in a product they hold no sign outside
brackets but those of numbers; and in a product such a sign is at the front or behind
a dot. -/
theorem precedence_survives_writing {globals : NameMap ValueType} {file : String}
    {text : List Char} {line part : Formula}
    (emitted : line ∈ (compileText globals file text).formulas) (inside : part.Inside line) :
    line.Written line.glyphs ∧ part.Written part.glyphs ∧ part.glyphs <:+: line.glyphs ∧
      (∀ (other : Formula) (glyphs : List Glyph), other.Written glyphs →
        other.latex = part.latex → glyphs = part.glyphs) ∧
      (∀ operand, part = .factorial operand →
        ∃ before ∈ [operand.glyphs, groupGlyphs operand.glyphs],
          part.glyphs = before ++ [.word .bang] ∧
            (ClosedFactor (exposed before) ∧ before.head? ≠ some (.word .minus) ∨
              ∃ digits, operand = .number ("-" ++ digits) ∧
                before = [.word .minus, .numeral digits])) ∧
      (∀ left right, part = .binary .subtract left right →
        ∃ behind ∈ [right.glyphs, groupGlyphs right.glyphs],
          part.glyphs = left.glyphs ++ .word .minus :: behind ∧
            SignsOfNumbers (exposed behind)) ∧
      ∀ left right, part = .binary .multiply left right →
        ∃ before ∈ [left.glyphs, groupGlyphs left.glyphs],
          ∃ behind ∈ [right.glyphs, groupGlyphs right.glyphs],
            (part.glyphs = before ++ .word .dot :: behind ∨
              part.glyphs = before ++ behind ∧ behind.head? ≠ some (.word .minus)) ∧
            SignsOfNumbers (exposed before) ∧ SignsOfNumbers (exposed behind) ∧
              SignsOfNumbers (exposed part.glyphs) := by
  have lineShape := compileText_isLine globals file text line emitted
  rcases lineShape.inside inside with ⟨partShape, isInfix⟩
  refine ⟨lineShape.written, partShape.written, isInfix, ?_, ?_, ?_, ?_⟩
  · intro other glyphs written sameText
    exact written.unique partShape.written sameText
  · rintro operand rfl
    have shape : operand.WellFormed := partShape
    have balanced := balanced_groupGlyphsIf operand.isOperation operand.balanced_glyphs
    refine ⟨_, groupGlyphsIf_mem operand.isOperation operand.glyphs, rfl, ?_⟩
    rcases shape.closedFactor_marked with closed | isNegative
    · have notMinus := closed.head?_ne_minus
      rw [balanced.head?_exposed] at notMinus
      exact .inl ⟨closed, notMinus⟩
    · exact .inr isNegative
  · rintro left right rfl
    rcases partShape with ⟨-, -, rightShape⟩
    exact ⟨_, groupGlyphsIf_mem right.isSum right.glyphs, rfl,
      Formula.signsOfNumbers_factor rightShape.signsOfNumbers⟩
  · rintro left right rfl
    have shape : (Formula.binary .multiply left right).WellFormed := partShape
    rcases partShape with ⟨-, leftShape, rightShape⟩
    have leftLegible := legible_groupGlyphsIf left.isSum leftShape.written.legible
    exact ⟨_, groupGlyphsIf_mem left.isSum left.glyphs, _,
      groupGlyphsIf_mem right.isSum right.glyphs,
      productGlyphs_cases leftLegible (leftShape.operand_ne_nil left.isSum),
      Formula.signsOfNumbers_factor leftShape.signsOfNumbers,
      Formula.signsOfNumbers_factor rightShape.signsOfNumbers, shape.signsOfNumbers rfl⟩

/-- A difference with a product behind the sign, which has a factorial of a difference
and a negative number as its factors. -/
theorem precedence_survives_writing_difference :
    let factorial : Formula := .factorial (.binary .subtract (.number "2") (.number "3"))
    let product : Formula := .binary .multiply factorial (.number "-4")
    let line : Formula := .binary .subtract (.number "1") product
    line ∈ (compileText ∅ "a.gt" "1-(2-3)!*-4".toList).formulas ∧ product.Inside line ∧
      ∃ before ∈ [factorial.glyphs, groupGlyphs factorial.glyphs],
        ∃ behind ∈ [(Formula.number "-4").glyphs, groupGlyphs (Formula.number "-4").glyphs],
          (product.glyphs = before ++ .word .dot :: behind ∨
            product.glyphs = before ++ behind ∧ behind.head? ≠ some (.word .minus)) ∧
          SignsOfNumbers (exposed before) ∧ SignsOfNumbers (exposed behind) ∧
            SignsOfNumbers (exposed product.glyphs) := by
  intro factorial product line
  have formulas : (compileText ∅ "a.gt" "1-(2-3)!*-4".toList).formulas = [line] := by
    with_unfolding_all rfl
  have emitted : line ∈ (compileText ∅ "a.gt" "1-(2-3)!*-4".toList).formulas := by
    rw [formulas]
    exact List.mem_cons_self
  have inside : product.Inside line := .single (List.mem_cons_of_mem _ List.mem_cons_self)
  exact ⟨emitted, inside, (precedence_survives_writing emitted inside).2.2.2.2.2.2 _ _ rfl⟩

/-- In front of a factorial mark, a negative number has its sign, and so it is not one
closed factor. -/
theorem sign_before_factorial_mark :
    let line : Formula := .factorial (.number "-1")
    line ∈ (compileText ∅ "a.gt" "(-1)!".toList).formulas ∧ line.latex = .ok (Text.utf8 "-1!") ∧
      ∀ before, line.Written (before ++ [.word .bang]) → ¬ClosedFactor (exposed before) := by
  intro line
  have formulas : (compileText ∅ "a.gt" "(-1)!".toList).formulas = [line] := by
    with_unfolding_all rfl
  have shape : line.WellFormed := .negative (.whole (by decide))
  refine ⟨?_, rfl, ?_⟩
  · rw [formulas]
    exact List.mem_cons_self
  · intro before written closed
    have glyphsEq := written.unique shape.written rfl
    have beforeEq : before = [.word .minus, .numeral "1"] := List.append_cancel_right glyphsEq
    rw [beforeEq] at closed
    exact closed.head?_ne_minus rfl

end GraphCalc
