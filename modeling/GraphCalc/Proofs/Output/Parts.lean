import GraphCalc.Proofs.Output.WellFormed
import Mathlib.Logic.Relation

/-!
# Formulas inside a formula

A formula is made of other formulas.  What is well-formed is made of well-formed
formulas, and a property that a formula inherits from those it is made of holds of
every formula.
-/

namespace GraphCalc

/-- The formulas a conditional part is made of. -/
def Clause.children (clause : Clause Formula) : List Formula :=
  [clause.left, clause.right, clause.result]

namespace Formula

/-- The formulas a formula is made of. -/
def children : Formula → List Formula
  | number _ | var _ | missing => []
  | binary _ left right | assign left right => [left, right]
  | factorial operand => [operand]
  | call _ _ args => args
  | list items => items
  | define _ _ body => [body]
  | piecewise first rest otherwise => otherwise :: (first :: rest).flatMap Clause.children

/-- Whether a formula is a part of another one, or that one itself. -/
def Inside (part formula : Formula) : Prop :=
  Relation.ReflTransGen (fun whole child => child ∈ whole.children) formula part

theorem sizeOf_lt_of_mem_children {child formula : Formula} (isChild : child ∈ formula.children) :
    sizeOf child < sizeOf formula := by
  cases formula with
  | number | var | missing => cases isChild
  | binary op left right =>
      simp only [children, List.mem_cons, List.not_mem_nil, or_false] at isChild
      rcases isChild with rfl | rfl
      all_goals
        simp only [binary.sizeOf_spec]
        omega
  | assign left right =>
      simp only [children, List.mem_cons, List.not_mem_nil, or_false] at isChild
      rcases isChild with rfl | rfl
      all_goals
        simp only [assign.sizeOf_spec]
        omega
  | factorial operand =>
      rcases List.mem_singleton.1 isChild with rfl
      simp
  | call name builtin args =>
      have smaller : sizeOf child < sizeOf args := List.sizeOf_lt_of_mem isChild
      simp only [call.sizeOf_spec]
      omega
  | list items =>
      have smaller : sizeOf child < sizeOf items := List.sizeOf_lt_of_mem isChild
      simp only [list.sizeOf_spec]
      omega
  | define name params body =>
      rcases List.mem_singleton.1 isChild with rfl
      simp only [define.sizeOf_spec]
      omega
  | piecewise first rest otherwise =>
      simp only [children, List.mem_cons, List.mem_flatMap] at isChild
      rcases isChild with rfl | ⟨⟨left, comparison, right, result⟩, isClause, isPart⟩
      · simp only [piecewise.sizeOf_spec]
        omega
      · have partSmaller : sizeOf child < sizeOf (Clause.mk left comparison right result) := by
          simp only [Clause.children, List.mem_cons, List.not_mem_nil, or_false] at isPart
          rcases isPart with rfl | rfl | rfl
          all_goals
            simp only [Clause.mk.sizeOf_spec]
            omega
        have clauseSmaller : sizeOf (Clause.mk left comparison right result) <
            sizeOf first + sizeOf rest + 1 := by
          rcases isClause with rfl | isClause
          · omega
          · have smaller := List.sizeOf_lt_of_mem isClause
            omega
        simp only [piecewise.sizeOf_spec]
        omega

/-- What holds of a formula as soon as it holds of the formulas it is made of
holds of every formula. -/
@[elab_as_elim]
theorem induction_children {motive : Formula → Prop} (formula : Formula)
    (step : ∀ formula : Formula, (∀ child ∈ formula.children, motive child) → motive formula) :
    motive formula :=
  step formula fun child _ => induction_children child step
termination_by sizeOf formula
decreasing_by exact sizeOf_lt_of_mem_children ‹_›

theorem allWellFormed_iff {formulas : List Formula} :
    AllWellFormed formulas ↔ ∀ formula ∈ formulas, formula.WellFormed := by
  induction formulas with
  | nil => simp [AllWellFormed]
  | cons first rest ih => simp [AllWellFormed, ih]

end Formula

theorem Clause.allFormulaWellFormed_iff {clauses : List (Clause Formula)} :
    Clause.AllFormulaWellFormed clauses ↔
      ∀ clause ∈ clauses, Clause.FormulaWellFormed clause := by
  induction clauses with
  | nil => simp [Clause.AllFormulaWellFormed]
  | cons first rest ih => simp [Clause.AllFormulaWellFormed, ih]

theorem Clause.FormulaWellFormed.of_mem_children {clause : Clause Formula} {part : Formula}
    (shape : Clause.FormulaWellFormed clause) (isPart : part ∈ clause.children) :
    part.WellFormed := by
  rcases clause with ⟨left, comparison, right, result⟩
  rcases shape with ⟨_, leftShape, rightShape, resultShape⟩
  simp only [Clause.children, List.mem_cons, List.not_mem_nil, or_false] at isPart
  rcases isPart with rfl | rfl | rfl
  · exact leftShape
  · exact rightShape
  · exact resultShape

namespace Formula

/-- The formulas a well-formed formula is made of are well-formed. -/
theorem WellFormed.of_mem_children {formula child : Formula} (shape : formula.WellFormed)
    (isChild : child ∈ formula.children) : child.WellFormed := by
  cases formula with
  | number | var => cases isChild
  | binary op left right =>
      simp only [children, List.mem_cons, List.not_mem_nil, or_false] at isChild
      rcases isChild with rfl | rfl
      · exact shape.2.1
      · exact shape.2.2
  | factorial operand =>
      rcases List.mem_singleton.1 isChild with rfl
      exact shape
  | call name builtin args =>
      cases builtin with
      | true => exact allWellFormed_iff.1 shape.2 child isChild
      | false => exact allWellFormed_iff.1 shape.2 child isChild
  | list items => exact allWellFormed_iff.1 shape child isChild
  | piecewise first rest otherwise =>
      rcases shape with ⟨firstShape, restShape, otherwiseShape⟩
      simp only [children, List.mem_cons, List.mem_flatMap] at isChild
      rcases isChild with rfl | ⟨clause, rfl | isClause, isPart⟩
      · exact otherwiseShape
      · exact firstShape.of_mem_children isPart
      · exact (Clause.allFormulaWellFormed_iff.1 restShape clause isClause).of_mem_children isPart
  | assign | define | missing => exact shape.elim

theorem WellFormed.of_mem_clauses {first clause : Clause Formula}
    {rest : List (Clause Formula)} {otherwise : Formula}
    (shape : (Formula.piecewise first rest otherwise).WellFormed)
    (isClause : clause ∈ first :: rest) : Clause.FormulaWellFormed clause := by
  rcases List.mem_cons.1 isClause with rfl | isClause
  · exact shape.1
  · exact Clause.allFormulaWellFormed_iff.1 shape.2.1 clause isClause

end Formula

end GraphCalc
