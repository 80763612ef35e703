import GraphCalc.Proofs.Output.Exposure

/-!
# Names in front of parentheses

The name of a variable is written like that of a function, and a product is written
side by side, so a variable in front of a sum looks like a call.  A name in front of a
parenthesis is that of a called function, or it is a factor: then it is an operand, and
one formula is in the parentheses.  So a call that is written like a product has one
argument.
-/

namespace GraphCalc

open Layout

/-- Whether a formula calls the function that a program defined under a name. -/
def Formula.CallsOwn (name : String) (formula : Formula) : Prop :=
  ∃ args, (Formula.call name false args).Inside formula

/-- Whether a variable is an operand of an operation in a formula. -/
def Formula.HasOperand (name : String) (formula : Formula) : Prop :=
  ∃ op left right, (Formula.binary op left right).Inside formula ∧
    (left = .var name ∨ right = .var name)

/-! ## Behind a name -/

namespace Layout

/-- Whether glyphs start with a formula in parentheses. -/
def StartsWithGroup (glyphs : List Glyph) : Prop :=
  ∃ inner : Formula, ∃ behind, inner.WellFormed ∧ glyphs = groupGlyphs inner.glyphs ++ behind

/-- Whether a name in front of a parenthesis is always a factor: it is an operand in
the given formula, and the parenthesis has one formula in it. -/
def IsFactorIn (formula : Formula) (name : String) (glyphs : List Glyph) : Prop :=
  ∀ before behind, glyphs = before ++ .variableName name :: .word .openGroup :: behind →
    formula.HasOperand name ∧ StartsWithGroup (.word .openGroup :: behind)

variable {formula : Formula} {name : String}

theorem StartsWithGroup.append {glyphs : List Glyph} (starts : StartsWithGroup glyphs)
    (more : List Glyph) : StartsWithGroup (glyphs ++ more) := by
  rcases starts with ⟨inner, behind, shape, rfl⟩
  exact ⟨inner, behind ++ more, shape, List.append_assoc _ _ _⟩

theorem isFactorIn_of_not_mem {glyphs : List Glyph} (notMem : .variableName name ∉ glyphs) :
    IsFactorIn formula name glyphs := by
  rintro before behind rfl
  simp at notMem

theorem isFactorIn_single (glyph : Glyph) : IsFactorIn formula name [glyph] := by
  intro before behind glyphsEq
  have lengthEq := congrArg List.length glyphsEq
  simp at lengthEq
  omega

theorem isFactorIn_cons {glyph : Glyph} {glyphs : List Glyph}
    (notName : glyph ≠ .variableName name) (isFactor : IsFactorIn formula name glyphs) :
    IsFactorIn formula name (glyph :: glyphs) := by
  intro before behind glyphsEq
  cases before with
  | nil => exact absurd (List.cons.inj glyphsEq).1 notName
  | cons first before => exact isFactor before behind (List.cons.inj glyphsEq).2

/-- Where two sequences of glyphs meet, the first may end with the name and the second
start with the parenthesis. -/
theorem IsFactorIn.append {left right : List Glyph} (leftFactor : IsFactorIn formula name left)
    (rightFactor : IsFactorIn formula name right)
    (boundary : left.getLast? = some (.variableName name) →
      right.head? = some (.word .openGroup) → formula.HasOperand name ∧ StartsWithGroup right) :
    IsFactorIn formula name (left ++ right) := by
  intro before behind appendEq
  rcases List.append_eq_append_iff.1 appendEq with ⟨middle, rfl, rightEq⟩ |
    ⟨middle, rfl, restEq⟩
  · exact rightFactor middle behind rightEq
  · match middle with
    | [] => exact rightFactor [] behind restEq.symm
    | [_] =>
        simp only [List.cons_append, List.nil_append, List.cons.injEq] at restEq
        rcases restEq with ⟨rfl, rfl⟩
        exact boundary List.getLast?_concat rfl
    | _ :: _ :: middle =>
        simp only [List.cons_append, List.cons.injEq] at restEq
        rcases restEq with ⟨rfl, rfl, rfl⟩
        rcases leftFactor before middle rfl with ⟨isOperand, starts⟩
        exact ⟨isOperand, starts.append right⟩

theorem IsFactorIn.append_word {left right : List Glyph} {entry : Word}
    (leftFactor : IsFactorIn formula name left) (notGroup : entry ≠ .openGroup)
    (rightFactor : IsFactorIn formula name right) :
    IsFactorIn formula name (left ++ .word entry :: right) := by
  refine leftFactor.append (isFactorIn_cons Glyph.noConfusion rightFactor) ?_
  intro _ isGroup
  cases isGroup
  exact absurd rfl notGroup

/-- What stands in brackets. -/
theorem IsFactorIn.enclosed {inner : List Glyph} {opening closing : Word}
    (isFactor : IsFactorIn formula name inner) (notGroup : closing ≠ .openGroup) :
    IsFactorIn formula name (.word opening :: (inner ++ [.word closing])) :=
  isFactorIn_cons Glyph.noConfusion
    (isFactor.append_word notGroup (isFactorIn_of_not_mem List.not_mem_nil))

theorem IsFactorIn.groupGlyphsIf {glyphs : List Glyph} (isFactor : IsFactorIn formula name glyphs)
    (condition : Bool) : IsFactorIn formula name (groupGlyphsIf condition glyphs) := by
  cases condition with
  | true => exact isFactor.enclosed (by decide)
  | false => exact isFactor

theorem isFactorIn_productGlyphs {left right : List Glyph}
    (leftFactor : IsFactorIn formula name left) (rightFactor : IsFactorIn formula name right)
    (boundary : left.getLast? = some (.variableName name) →
      right.head? = some (.word .openGroup) → formula.HasOperand name ∧ StartsWithGroup right) :
    IsFactorIn formula name (productGlyphs left right) := by
  unfold productGlyphs
  split
  · exact leftFactor.append_word (by decide) rightFactor
  · exact leftFactor.append rightFactor boundary

theorem isFactorIn_commaGlyphs {parts : List (List Glyph)}
    (areFactors : ∀ part ∈ parts, IsFactorIn formula name part) :
    IsFactorIn formula name (commaGlyphs parts) := by
  refine commaGlyphs_induction (isFactorIn_of_not_mem List.not_mem_nil) ?_ areFactors
  intro left right leftFactor rightFactor
  exact leftFactor.append_word (by decide) rightFactor

end Layout

/-! ## Where two factors meet -/

namespace Layout

theorem exists_productGlyphs_eq (left right : List Glyph) :
    ∃ behind, productGlyphs left right = left ++ behind := by
  unfold productGlyphs
  split
  · exact ⟨.word .dot :: right, rfl⟩
  · exact ⟨right, rfl⟩

theorem getLast?_productGlyphs (left : List Glyph) {right : List Glyph} (notEmpty : right ≠ []) :
    (productGlyphs left right).getLast? = right.getLast? := by
  unfold productGlyphs
  split
  · rw [List.append_cons, List.getLast?_append_of_ne_nil _ notEmpty]
  · rw [List.getLast?_append_of_ne_nil _ notEmpty]

end Layout

namespace Formula

theorem HasOperand.of_inside {name : String} {part whole : Formula}
    (hasOperand : part.HasOperand name) (inside : part.Inside whole) : whole.HasOperand name := by
  rcases hasOperand with ⟨op, left, right, isInside, isOperand⟩
  exact ⟨op, left, right, inside.trans isInside, isOperand⟩

theorem getLast?_factor {name : String} {operand : Formula}
    (isLast : (groupGlyphsIf operand.isSum operand.glyphs).getLast? = some (.variableName name)) :
    operand.isSum = false ∧ operand.glyphs.getLast? = some (.variableName name) := by
  cases isSum : operand.isSum with
  | true =>
      rw [isSum, groupGlyphsIf, if_pos rfl, groupGlyphs, ← List.cons_append,
        List.getLast?_concat] at isLast
      cases isLast
  | false =>
      rw [isSum] at isLast
      exact ⟨rfl, isLast⟩

/-- A factor that ends with a name is that variable, or has it as an operand. -/
theorem WellFormed.of_getLast? {name : String} {formula : Formula} (shape : formula.WellFormed)
    (notSum : formula.isSum = false)
    (isLast : formula.glyphs.getLast? = some (.variableName name)) :
    formula = .var name ∨ formula.HasOperand name := by
  induction formula using Formula.induction_children with
  | step formula ih =>
      cases formula with
      | number value =>
          rw [glyphs] at isLast
          rcases numberGlyphs_cases shape with ⟨-, glyphsEq⟩ | ⟨digits, -, -, glyphsEq⟩
          all_goals
            rw [glyphsEq] at isLast
            cases isLast
      | var other =>
          cases isLast
          exact .inl rfl
      | binary op left right =>
          rcases shape with ⟨known, leftShape, rightShape⟩
          simp only [children, List.forall_mem_cons] at ih
          cases op with
          | add | subtract => cases notSum
          | multiply =>
              right
              rw [glyphs, operationGlyphs, getLast?_productGlyphs _ (rightShape.operand_ne_nil _)]
                at isLast
              rcases getLast?_factor isLast with ⟨rightNotSum, rightLast⟩
              rcases ih.2.1 rightShape rightNotSum rightLast with rightEq | hasOperand
              · exact ⟨.multiply, left, right, .refl, .inr rightEq⟩
              · exact hasOperand.of_inside (.single (List.mem_cons_of_mem _ List.mem_cons_self))
          | divide =>
              rw [glyphs, operationGlyphs, fractionGlyphs_eq_enclosed, ← List.cons_append,
                List.getLast?_concat] at isLast
              cases isLast
          | other code => simp [Arithmetic.known] at known
      | factorial operand =>
          rw [glyphs, List.getLast?_concat] at isLast
          cases isLast
      | call callee builtin args =>
          rw [glyphs, ← List.append_assoc, List.getLast?_concat] at isLast
          cases isLast
      | list items =>
          rw [glyphs, ← List.cons_append, List.getLast?_concat] at isLast
          cases isLast
      | piecewise first rest otherwise =>
          rw [glyphs, ← List.cons_append, List.getLast?_concat] at isLast
          cases isLast
      | assign | define | missing => exact shape.elim

/-- An operand that starts with a parenthesis. -/
theorem startsWithGroup_operand {operand : Formula} {condition : Bool} (shape : operand.WellFormed)
    (startsWithGroup : operand.glyphs.head? = some (.word .openGroup) →
      StartsWithGroup operand.glyphs)
    (isFirst : (groupGlyphsIf condition operand.glyphs).head? = some (.word .openGroup)) :
    StartsWithGroup (groupGlyphsIf condition operand.glyphs) := by
  cases condition with
  | true => exact ⟨operand, [], shape, (List.append_nil _).symm⟩
  | false => exact startsWithGroup isFirst

/-- What starts with a parenthesis starts with a formula in parentheses. -/
theorem WellFormed.startsWithGroup {formula : Formula} (shape : formula.WellFormed)
    (isFirst : formula.glyphs.head? = some (.word .openGroup)) :
    StartsWithGroup formula.glyphs := by
  induction formula using Formula.induction_children with
  | step formula ih =>
      cases formula with
      | number value =>
          rw [glyphs] at isFirst
          rcases numberGlyphs_cases shape with ⟨-, glyphsEq⟩ | ⟨digits, -, -, glyphsEq⟩
          all_goals
            rw [glyphsEq] at isFirst
            cases isFirst
      | binary op left right =>
          rcases shape with ⟨known, leftShape, rightShape⟩
          simp only [children, List.forall_mem_cons] at ih
          have headEq : ∀ behind, (left.glyphs ++ behind).head? = left.glyphs.head? :=
            fun behind => List.head?_append_of_ne_nil _ leftShape.glyphs_ne_nil
          cases op with
          | add =>
              rw [glyphs, operationGlyphs, headEq] at isFirst
              exact (ih.1 leftShape isFirst).append _
          | subtract =>
              rw [glyphs, operationGlyphs, headEq] at isFirst
              exact (ih.1 leftShape isFirst).append _
          | multiply =>
              rcases exists_productGlyphs_eq (groupGlyphsIf left.isSum left.glyphs)
                (groupGlyphsIf right.isSum right.glyphs) with ⟨behind, glyphsEq⟩
              rw [glyphs, operationGlyphs, glyphsEq] at isFirst ⊢
              rw [List.head?_append_of_ne_nil _ (leftShape.operand_ne_nil _)] at isFirst
              exact (startsWithGroup_operand leftShape (ih.1 leftShape) isFirst).append behind
          | divide => cases isFirst
          | other code => simp [Arithmetic.known] at known
      | factorial operand =>
          simp only [children, List.forall_mem_cons] at ih
          have operandShape : operand.WellFormed := shape
          rw [glyphs, List.head?_append_of_ne_nil _ (operandShape.operand_ne_nil _)] at isFirst
          exact (startsWithGroup_operand operandShape (ih.1 operandShape) isFirst).append _
      | call callee builtin args =>
          cases builtin
          all_goals cases isFirst
      | var | list | piecewise => cases isFirst
      | assign | define | missing => exact shape.elim

end Formula

theorem Clause.isFactorIn {name : String} {whole : Formula} {clause : Clause Formula}
    (areFactors : ∀ part ∈ clause.children, IsFactorIn whole name part.glyphs) :
    IsFactorIn whole name (Clause.glyphs clause) := by
  rcases clause with ⟨left, comparison, right, result⟩
  simp only [Clause.children, List.forall_mem_cons] at areFactors
  rcases areFactors with ⟨leftFactor, rightFactor, resultFactor, -⟩
  exact leftFactor.append_word Word.noConfusion
    (rightFactor.append_word (by decide) resultFactor)

namespace Formula

/-- In a formula that does not call a function of this name, the name in front of a
parenthesis is a factor. -/
theorem WellFormed.isFactorIn {name : String} {whole formula : Formula}
    (noCall : ¬whole.CallsOwn name) (shape : formula.WellFormed) (inside : formula.Inside whole) :
    IsFactorIn whole name formula.glyphs := by
  induction formula using Formula.induction_children with
  | step formula ih =>
      replace ih : ∀ child ∈ formula.children, IsFactorIn whole name child.glyphs :=
        fun child isChild => ih child isChild (shape.of_mem_children isChild) (inside.tail isChild)
      cases formula with
      | number value =>
          apply isFactorIn_of_not_mem
          rw [glyphs]
          rcases numberGlyphs_cases shape with ⟨-, glyphsEq⟩ | ⟨digits, -, -, glyphsEq⟩
          all_goals simp [glyphsEq]
      | var other => exact isFactorIn_single _
      | binary op left right =>
          rcases shape with ⟨known, leftShape, rightShape⟩
          simp only [children, List.forall_mem_cons] at ih
          rcases ih with ⟨leftFactor, rightFactor, -⟩
          cases op with
          | add => exact leftFactor.append_word (by decide) rightFactor
          | subtract =>
              exact leftFactor.append_word (by decide) (rightFactor.groupGlyphsIf right.isSum)
          | multiply =>
              refine isFactorIn_productGlyphs (leftFactor.groupGlyphsIf left.isSum)
                (rightFactor.groupGlyphsIf right.isSum) ?_
              -- Only here a name and a parenthesis meet without a word between them.
              intro isLast isFirst
              rcases getLast?_factor isLast with ⟨leftNotSum, leftLast⟩
              have starts := startsWithGroup_operand rightShape rightShape.startsWithGroup isFirst
              rcases leftShape.of_getLast? leftNotSum leftLast with leftEq | hasOperand
              · exact ⟨⟨.multiply, left, right, inside, .inl leftEq⟩, starts⟩
              · exact ⟨hasOperand.of_inside (inside.tail List.mem_cons_self), starts⟩
          | divide =>
              rw [glyphs, operationGlyphs, fractionGlyphs_eq_enclosed]
              refine IsFactorIn.enclosed ?_ (by decide)
              exact leftFactor.append_word (by decide) rightFactor
          | other code => simp [Arithmetic.known] at known
      | factorial operand =>
          simp only [children, List.forall_mem_cons] at ih
          exact (ih.1.groupGlyphsIf operand.isOperation).append_word (by decide)
            (isFactorIn_of_not_mem List.not_mem_nil)
      | call callee builtin args =>
          have argsFactor : IsFactorIn whole name (commaGlyphs (glyphsAll args)) := by
            rw [glyphsAll_eq_map]
            exact isFactorIn_commaGlyphs (List.forall_mem_map.2 ih)
          cases builtin with
          | true => exact argsFactor.enclosed (by decide)
          | false =>
              have notName : Glyph.variableName callee ≠ .variableName name := by
                rintro ⟨⟩
                exact noCall ⟨args, inside⟩
              exact isFactorIn_cons notName (argsFactor.enclosed (by decide))
      | list items =>
          have itemsFactor : IsFactorIn whole name (commaGlyphs (glyphsAll items)) := by
            rw [glyphsAll_eq_map]
            exact isFactorIn_commaGlyphs (List.forall_mem_map.2 ih)
          exact itemsFactor.enclosed (by decide)
      | piecewise first rest otherwise =>
          rw [children, List.forall_mem_cons, List.forall_mem_flatMap] at ih
          have clausesFactor : ∀ clause ∈ first :: rest,
              IsFactorIn whole name (Clause.glyphs clause) :=
            fun clause isClause => Clause.isFactorIn (ih.2 clause isClause)
          have piecesFactor := isFactorIn_commaGlyphs (Clause.forall_pieces clausesFactor ih.1)
          exact piecesFactor.enclosed (by decide)
      | assign | define | missing => exact shape.elim

end Formula

/-! ## What is in the parentheses -/

namespace Layout

theorem ClosedFactor.comma_not_mem {glyphs : List Glyph} (closed : ClosedFactor glyphs) :
    .word .comma ∉ glyphs := by
  cases closed with
  | enclosed pair =>
      rw [List.mem_pair]
      rintro (rfl | rfl)
      · cases pair
      · cases (Glyph.closes_of_closing? pair).2
  | _ => simp

theorem comma_not_mem_append {front behind : List Glyph} {entry : Word} (balanced : Balanced front)
    (plain : (Glyph.word entry).Plain) (notComma : entry ≠ .comma)
    (inFront : .word .comma ∉ exposed front) (inBehind : .word .comma ∉ exposed behind) :
    .word .comma ∉ exposed (front ++ .word entry :: behind) := by
  rw [balanced.exposed_append, exposed_cons plain, List.mem_append, List.mem_cons]
  rintro (isFront | isEntry | isBehind)
  · exact inFront isFront
  · exact notComma (Glyph.word.inj isEntry).symm
  · exact inBehind isBehind

end Layout

namespace Formula

/-- A factor or the right side of a difference. -/
theorem comma_not_mem_operand {operand : Formula} (condition : Bool)
    (notMem : .word .comma ∉ exposed operand.glyphs) :
    .word .comma ∉ exposed (groupGlyphsIf condition operand.glyphs) := by
  cases condition with
  | true => exact (closedFactor_enclosed rfl operand.balanced_glyphs).comma_not_mem
  | false => exact notMem

theorem comma_not_mem_operation {op : Arithmetic} {left right : Formula}
    (known : op ∈ Arithmetic.known) (leftNotMem : .word .comma ∉ exposed left.glyphs)
    (rightNotMem : .word .comma ∉ exposed right.glyphs) :
    .word .comma ∉ exposed (binary op left right).glyphs := by
  have leftBalanced := balanced_groupGlyphsIf left.isSum left.balanced_glyphs
  have inLeft := comma_not_mem_operand left.isSum leftNotMem
  have inRight := comma_not_mem_operand right.isSum rightNotMem
  cases op with
  | add =>
      exact comma_not_mem_append left.balanced_glyphs ⟨rfl, rfl⟩ (by decide) leftNotMem rightNotMem
  | subtract =>
      exact comma_not_mem_append left.balanced_glyphs ⟨rfl, rfl⟩ (by decide) leftNotMem inRight
  | multiply =>
      rw [glyphs, operationGlyphs, productGlyphs]
      split
      · exact comma_not_mem_append leftBalanced ⟨rfl, rfl⟩ (by decide) inLeft inRight
      · rw [leftBalanced.exposed_append, List.mem_append, not_or]
        exact ⟨inLeft, inRight⟩
  | divide =>
      rw [glyphs, operationGlyphs, fractionGlyphs_eq_enclosed]
      exact (closedFactor_enclosed rfl (balanced_betweenParts left.balanced_glyphs
        right.balanced_glyphs)).comma_not_mem
  | other code => simp [Arithmetic.known] at known

/-- Outside the brackets of an expression there is no comma. -/
theorem WellFormed.comma_not_mem {formula : Formula} (shape : formula.WellFormed) :
    .word .comma ∉ exposed formula.glyphs := by
  induction formula using Formula.induction_children with
  | step formula ih =>
      replace ih : ∀ child ∈ formula.children, .word .comma ∉ exposed child.glyphs :=
        fun child isChild => ih child isChild (shape.of_mem_children isChild)
      cases isOperation : formula.isOperation with
      | false =>
          rcases shape.closedFactor isOperation with closed | ⟨digits, -, glyphsEq⟩
          · exact closed.comma_not_mem
          · rw [glyphsEq]
            change _ ∉ [_, _]
            simp
      | true =>
          cases formula with
          | factorial operand =>
              simp only [children, List.forall_mem_cons] at ih
              have balanced := balanced_groupGlyphsIf operand.isOperation operand.balanced_glyphs
              rw [glyphs, balanced.exposed_append, List.mem_append, not_or]
              exact ⟨comma_not_mem_operand _ ih.1, by decide⟩
          | binary op left right =>
              simp only [children, List.forall_mem_cons] at ih
              rcases ih with ⟨leftNotMem, rightNotMem, -⟩
              exact comma_not_mem_operation shape.1 leftNotMem rightNotMem
          | _ => cases isOperation

/-- One formula is in the same parentheses as several only if these are one. -/
theorem length_eq_one_of_enclosed {args : List Formula} {inner : Formula}
    {behind behind' : List Glyph} (shape : inner.WellFormed)
    (glyphsEq : commaGlyphs (glyphsAll args) ++ .word .closeGroup :: behind =
      inner.glyphs ++ .word .closeGroup :: behind') : args.length = 1 := by
  have argsBalanced := balanced_items args
  have closes : ∀ behind, exposedFrom 0 (.word .closeGroup :: behind) = [] := fun _ => rfl
  -- Read from outside, both sides end at the bracket that closes nothing in them.
  have exposedEq := congrArg (exposedFrom 0) glyphsEq
  rw [argsBalanced.outside, inner.balanced_glyphs.outside, closes, closes, List.append_nil,
    List.append_nil] at exposedEq
  match args with
  | [] =>
      have headEq := inner.balanced_glyphs.head?_exposed
      rw [← exposedEq] at headEq
      exact absurd (List.head?_eq_none_iff.1 headEq.symm) shape.glyphs_ne_nil
  | [arg] => rfl
  | first :: second :: rest =>
      apply absurd _ shape.comma_not_mem
      rw [← exposedEq, glyphsAll, glyphsAll, commaGlyphs_cons_cons,
        first.balanced_glyphs.exposed_append, exposed_cons ⟨rfl, rfl⟩]
      exact List.mem_append_right _ List.mem_cons_self

/-- A call in one of two formulas with the same text is a call in the other one, or a
product there: the name is an operand, and the call has one argument. -/
theorem WellFormed.callsOwn_or_hasOperand {name : String} {left right : Formula}
    {args : List Formula} (leftShape : left.WellFormed) (rightShape : right.WellFormed)
    (latexEq : left.latex = right.latex) (isCall : (Formula.call name false args).Inside left) :
    right.CallsOwn name ∨ right.HasOperand name ∧ args.length = 1 := by
  by_cases calls : right.CallsOwn name
  · exact .inl calls
  · have glyphsEq := leftShape.written.unique rightShape.written latexEq
    rcases (leftShape.inside isCall).2 with ⟨before, behind, splitEq⟩
    have splitRight : right.glyphs = before ++ .variableName name :: .word .openGroup ::
        (commaGlyphs (glyphsAll args) ++ .word .closeGroup :: behind) := by
      rw [← glyphsEq, ← splitEq, glyphs, calleeGlyphs]
      simp
    rcases rightShape.isFactorIn calls .refl before _ splitRight with
      ⟨hasOperand, inner, behind', innerShape, groupEq⟩
    have innerEq : commaGlyphs (glyphsAll args) ++ .word .closeGroup :: behind =
        inner.glyphs ++ .word .closeGroup :: behind' := by
      simpa [groupGlyphs] using groupEq
    exact .inr ⟨hasOperand, length_eq_one_of_enclosed innerShape innerEq⟩

end Formula

end GraphCalc
