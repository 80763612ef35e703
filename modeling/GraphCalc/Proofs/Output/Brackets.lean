import GraphCalc.Proofs.Output.Writing

/-!
# Brackets among the glyphs of a formula

Every bracket in the text of a formula has its counterpart there.  The glyphs of a
formula are put together from glyphs that are no brackets, from what is enclosed in a
pair of brackets, and from fractions, whose two parts share the word between them.
What survives these ways of putting glyphs together holds of the glyphs of every
formula.
-/

namespace GraphCalc

namespace Layout

/-! ## Pairs -/

/-- The closing bracket that belongs to an opening one. -/
def Glyph.closing? : Glyph → Option Glyph
  | .word .openGroup | .word (.openBuiltin _) => some (.word .closeGroup)
  | .word .openList => some (.word .closeList)
  | .word .openCases => some (.word .closeCases)
  | .word .openUpper => some (.word .closeLower)
  | _ => none

def Glyph.opens (glyph : Glyph) : Bool :=
  glyph.closing?.isSome

def Glyph.closes : Glyph → Bool
  | .word .closeGroup | .word .closeList | .word .closeCases | .word .closeLower => true
  | _ => false

/-- Whether a glyph is no bracket. -/
def Glyph.Plain (glyph : Glyph) : Prop :=
  glyph.opens = false ∧ glyph.closes = false

theorem Glyph.closes_of_closing? {opening closing : Glyph}
    (pair : opening.closing? = some closing) :
    closing.opens = false ∧ closing.closes = true := by
  unfold Glyph.closing? at pair
  split at pair
  all_goals cases pair
  all_goals exact ⟨rfl, rfl⟩

/-! ## Glyphs with brackets in pairs -/

/-- Whether glyphs are put together with every bracket in a pair. -/
inductive Bracketed : List Glyph → Prop
  | nil : Bracketed []
  | plain {glyph : Glyph} (isPlain : glyph.Plain) (notBetween : glyph ≠ .word .betweenParts) :
      Bracketed [glyph]
  | append {left right : List Glyph} (leftBracketed : Bracketed left)
      (rightBracketed : Bracketed right) : Bracketed (left ++ right)
  | enclosed {opening closing : Glyph} {inner : List Glyph}
      (pair : opening.closing? = some closing) (innerBracketed : Bracketed inner) :
      Bracketed (opening :: (inner ++ [closing]))
  | fraction {upper lower : List Glyph} (upperBracketed : Bracketed upper)
      (lowerBracketed : Bracketed lower) : Bracketed (fractionGlyphs upper lower)

namespace Bracketed

theorem cons {glyph : Glyph} {rest : List Glyph} (isPlain : glyph.Plain)
    (notBetween : glyph ≠ .word .betweenParts) (bracketed : Bracketed rest) :
    Bracketed (glyph :: rest) :=
  .append (.plain isPlain notBetween) bracketed

/-- Glyphs on both sides of a word. -/
theorem join {left right : List Glyph} {entry : Word} (leftBracketed : Bracketed left)
    (isPlain : (Glyph.word entry).Plain) (notBetween : entry ≠ .betweenParts)
    (rightBracketed : Bracketed right) : Bracketed (left ++ .word entry :: right) :=
  leftBracketed.append (rightBracketed.cons isPlain (mt Glyph.word.inj notBetween))

end Bracketed

theorem bracketed_commaGlyphs {parts : List (List Glyph)}
    (bracketed : ∀ part ∈ parts, Bracketed part) : Bracketed (commaGlyphs parts) := by
  refine commaGlyphs_induction .nil ?_ bracketed
  intro left right leftBracketed rightBracketed
  exact leftBracketed.join ⟨rfl, rfl⟩ (by decide) rightBracketed

theorem bracketed_groupGlyphsIf {glyphs : List Glyph} (condition : Bool)
    (bracketed : Bracketed glyphs) : Bracketed (groupGlyphsIf condition glyphs) := by
  cases condition with
  | true => exact .enclosed rfl bracketed
  | false => exact bracketed

theorem bracketed_productGlyphs {left right : List Glyph} (leftBracketed : Bracketed left)
    (rightBracketed : Bracketed right) : Bracketed (productGlyphs left right) := by
  unfold productGlyphs
  split
  · exact leftBracketed.join ⟨rfl, rfl⟩ (by decide) rightBracketed
  · exact leftBracketed.append rightBracketed

theorem bracketed_operationGlyphs {op : Arithmetic} {left right : Formula}
    {leftGlyphs rightGlyphs : List Glyph} (leftBracketed : Bracketed leftGlyphs)
    (rightBracketed : Bracketed rightGlyphs) :
    Bracketed (operationGlyphs op left right leftGlyphs rightGlyphs) := by
  cases op with
  | add => exact leftBracketed.join ⟨rfl, rfl⟩ (by decide) rightBracketed
  | subtract =>
      exact leftBracketed.join ⟨rfl, rfl⟩ (by decide)
        (bracketed_groupGlyphsIf right.isSum rightBracketed)
  | multiply =>
      exact bracketed_productGlyphs (bracketed_groupGlyphsIf left.isSum leftBracketed)
        (bracketed_groupGlyphsIf right.isSum rightBracketed)
  | divide => exact .fraction leftBracketed rightBracketed
  | other code => exact .nil

theorem bracketed_name (name : String) : Bracketed [.variableName name] :=
  .plain ⟨rfl, rfl⟩ Glyph.noConfusion

theorem bracketed_numberGlyphs (value : String) : Bracketed (numberGlyphs value) := by
  have numeral (digits : String) : Bracketed [.numeral digits] :=
    .plain ⟨rfl, rfl⟩ Glyph.noConfusion
  unfold numberGlyphs
  split
  · exact (numeral _).cons ⟨rfl, rfl⟩ (by decide)
  · exact numeral value

end Layout

open Layout

theorem Clause.bracketed_glyphs {clause : Clause Formula}
    (bracketed : ∀ part ∈ clause.children, Bracketed part.glyphs) :
    Bracketed (Clause.glyphs clause) := by
  rcases clause with ⟨left, comparison, right, result⟩
  simp only [Clause.children, List.forall_mem_cons] at bracketed
  rcases bracketed with ⟨leftBracketed, rightBracketed, resultBracketed, -⟩
  exact leftBracketed.join ⟨rfl, rfl⟩ Word.noConfusion
    (rightBracketed.join ⟨rfl, rfl⟩ (by decide) resultBracketed)

/-- What is in the brackets of a call or a list. -/
theorem Formula.bracketed_items {formulas : List Formula}
    (bracketed : ∀ formula ∈ formulas, Bracketed formula.glyphs) :
    Bracketed (commaGlyphs (Formula.glyphsAll formulas)) := by
  rw [Formula.glyphsAll_eq_map]
  exact bracketed_commaGlyphs (List.forall_mem_map.2 bracketed)

/-- What is in the brackets of a case distinction. -/
theorem Formula.bracketed_pieces {first : Clause Formula} {rest : List (Clause Formula)}
    {otherwise : Formula}
    (bracketed : ∀ part ∈ (first :: rest).flatMap Clause.children, Bracketed part.glyphs)
    (otherwiseBracketed : Bracketed otherwise.glyphs) :
    Bracketed (commaGlyphs (Clause.glyphs first :: Clause.glyphsAll rest ++
      [otherwise.glyphs])) := by
  rw [List.forall_mem_flatMap] at bracketed
  have clausesBracketed : ∀ clause ∈ first :: rest, Bracketed (Clause.glyphs clause) :=
    fun clause isClause => Clause.bracketed_glyphs (bracketed clause isClause)
  exact bracketed_commaGlyphs (Clause.forall_pieces clausesBracketed otherwiseBracketed)

/-- Every bracket in the text of a formula has its counterpart there. -/
theorem Formula.bracketed_glyphs (formula : Formula) : Bracketed formula.glyphs := by
  induction formula using Formula.induction_children with
  | step formula ih =>
      cases formula with
      | number value => exact bracketed_numberGlyphs value
      | var name => exact bracketed_name name
      | binary op left right =>
          simp only [Formula.children, List.forall_mem_cons] at ih
          exact bracketed_operationGlyphs ih.1 ih.2.1
      | factorial operand =>
          simp only [Formula.children, List.forall_mem_cons] at ih
          exact (bracketed_groupGlyphsIf _ ih.1).join ⟨rfl, rfl⟩ (by decide) .nil
      | call name builtin args =>
          have argsBracketed := Formula.bracketed_items ih
          cases builtin with
          | true => exact .enclosed rfl argsBracketed
          | false => exact (bracketed_name name).append (.enclosed rfl argsBracketed)
      | list items => exact .enclosed rfl (Formula.bracketed_items ih)
      | assign left right =>
          simp only [Formula.children, List.forall_mem_cons] at ih
          exact ih.1.join ⟨rfl, rfl⟩ (by decide) ih.2.1
      | define name params body =>
          simp only [Formula.children, List.forall_mem_cons] at ih
          have paramsBracketed : Bracketed (commaGlyphs (params.map fun param =>
              [Glyph.variableName param])) :=
            bracketed_commaGlyphs (List.forall_mem_map.2 fun param _ => bracketed_name param)
          have groupBracketed : Bracketed (groupGlyphs (commaGlyphs (params.map fun param =>
              [Glyph.variableName param]))) :=
            .enclosed rfl paramsBracketed
          have shifted : (Formula.define name params body).glyphs = [.variableName name] ++
              (groupGlyphs (commaGlyphs (params.map fun param => [Glyph.variableName param])) ++
                .word (.relation .equal) :: body.glyphs) := by
            simp [Formula.glyphs, calleeGlyphs, groupGlyphs]
          rw [shifted]
          exact (bracketed_name name).append (groupBracketed.join ⟨rfl, rfl⟩ (by decide) ih.1)
      | piecewise first rest otherwise =>
          rw [Formula.children, List.forall_mem_cons] at ih
          exact .enclosed rfl (Formula.bracketed_pieces ih.2 ih.1)
      | missing => exact .nil

end GraphCalc
