import GraphCalc.Output.Latex
import Mathlib.Data.List.Forall2

/-!
# Re-association of formulas

Sums and products are written without parentheses around their right operands.
The trees that are told apart by nothing but such parentheses are congruent: the
congruence is generated by three laws of re-association.  Congruent formulas
have one text, or the same fault.
-/

namespace GraphCalc

open Text (Bytes utf8)

/-- A conditional part with one formula left out. -/
inductive ClauseFrame
  | onLeft (comparison : Comparison) (right result : Formula)
  | onRight (left : Formula) (comparison : Comparison) (result : Formula)
  | asResult (left : Formula) (comparison : Comparison) (right : Formula)

def ClauseFrame.fill (inner : Formula) : ClauseFrame → Clause Formula
  | onLeft comparison right result => ⟨inner, comparison, right, result⟩
  | onRight left comparison result => ⟨left, comparison, inner, result⟩
  | asResult left comparison right => ⟨left, comparison, right, inner⟩

/-- A node of an expression with one formula left out. -/
inductive Frame
  | onLeft (op : Arithmetic) (right : Formula)
  | onRight (op : Arithmetic) (left : Formula)
  | asOperand
  | asArgument (callee : String) (builtin : Bool) (before after : List Formula)
  | asItem (before after : List Formula)
  | inFirst (frame : ClauseFrame) (rest : List (Clause Formula)) (otherwise : Formula)
  | inLater (first : Clause Formula) (before : List (Clause Formula)) (frame : ClauseFrame)
      (after : List (Clause Formula)) (otherwise : Formula)
  | asOtherwise (first : Clause Formula) (rest : List (Clause Formula))

/-- The node with the given formula in its place. -/
def Frame.fill (inner : Formula) : Frame → Formula
  | onLeft op right => .binary op inner right
  | onRight op left => .binary op left inner
  | asOperand => .factorial inner
  | asArgument callee builtin before after => .call callee builtin (before ++ inner :: after)
  | asItem before after => .list (before ++ inner :: after)
  | inFirst frame rest otherwise => .piecewise (frame.fill inner) rest otherwise
  | inLater first before frame after otherwise =>
      .piecewise first (before ++ frame.fill inner :: after) otherwise
  | asOtherwise first rest => .piecewise first rest inner

/-- The congruence generated by the laws of re-association. -/
inductive Congruent : Formula → Formula → Prop
  | addAdd (a b c : Formula) :
      Congruent (.binary .add a (.binary .add b c)) (.binary .add (.binary .add a b) c)
  | addSubtract (a b c : Formula) :
      Congruent (.binary .add a (.binary .subtract b c))
        (.binary .subtract (.binary .add a b) c)
  | multiplyMultiply (a b c : Formula) :
      Congruent (.binary .multiply a (.binary .multiply b c))
        (.binary .multiply (.binary .multiply a b) c)
  | inside (frame : Frame) {left right : Formula} (inner : Congruent left right) :
      Congruent (frame.fill left) (frame.fill right)
  | refl (formula : Formula) : Congruent formula formula
  | symm {left right : Formula} (congruent : Congruent left right) : Congruent right left
  | trans {left middle right : Formula} (first : Congruent left middle)
      (second : Congruent middle right) : Congruent left right

/-- Whether two conditional parts differ by re-association only. -/
structure ClauseCongruent (first second : Clause Formula) : Prop where
  left : Congruent first.left second.left
  comparison : first.comparison = second.comparison
  right : Congruent first.right second.right
  result : Congruent first.result second.result

namespace Congruent

/-! ## Congruence in several places -/

theorem binary {op : Arithmetic} {left left' right right' : Formula}
    (leftCongruent : Congruent left left') (rightCongruent : Congruent right right') :
    Congruent (.binary op left right) (.binary op left' right') :=
  (leftCongruent.inside (.onLeft op right)).trans (rightCongruent.inside (.onRight op left'))

/-- Related members of two lists can be replaced one by one. -/
theorem of_forall₂ {α : Type} {related : α → α → Prop} (build : List α → Formula)
    (replace : ∀ before after {old new : α}, related old new →
      Congruent (build (before ++ old :: after)) (build (before ++ new :: after)))
    {olds news : List α} (pairwise : List.Forall₂ related olds news) :
    Congruent (build olds) (build news) := by
  suffices behind : ∀ before, Congruent (build (before ++ olds)) (build (before ++ news)) from
    behind []
  induction pairwise with
  | nil =>
      intro before
      exact .refl _
  | @cons old new olds news head tail ih =>
      intro before
      have later := ih (before ++ [new])
      rw [List.append_assoc, List.append_assoc] at later
      exact (replace before olds head).trans later

theorem call {callee : String} {builtin : Bool} {args args' : List Formula}
    (pairwise : List.Forall₂ Congruent args args') :
    Congruent (.call callee builtin args) (.call callee builtin args') :=
  of_forall₂ (.call callee builtin)
    (fun before after => inside (.asArgument callee builtin before after)) pairwise

theorem list {items items' : List Formula} (pairwise : List.Forall₂ Congruent items items') :
    Congruent (.list items) (.list items') :=
  of_forall₂ .list (fun before after => inside (.asItem before after)) pairwise

/-- The three formulas of a conditional part can be replaced one by one. -/
theorem of_clause (build : Clause Formula → Formula)
    (replace : ∀ (frame : ClauseFrame) {old new : Formula}, Congruent old new →
      Congruent (build (frame.fill old)) (build (frame.fill new)))
    {clause clause' : Clause Formula} (congruent : ClauseCongruent clause clause') :
    Congruent (build clause) (build clause') := by
  rcases clause with ⟨left, comparison, right, result⟩
  rcases clause' with ⟨left', comparison', right', result'⟩
  rcases congruent with ⟨leftCongruent, comparisonEq, rightCongruent, resultCongruent⟩
  change comparison = comparison' at comparisonEq
  subst comparisonEq
  have leftStep := replace (.onLeft comparison right result) leftCongruent
  have rightStep := replace (.onRight left' comparison result) rightCongruent
  have resultStep := replace (.asResult left' comparison right') resultCongruent
  exact (leftStep.trans rightStep).trans resultStep

theorem piecewise {first first' : Clause Formula} {rest rest' : List (Clause Formula)}
    {otherwise otherwise' : Formula} (firstCongruent : ClauseCongruent first first')
    (pairwise : List.Forall₂ ClauseCongruent rest rest')
    (otherwiseCongruent : Congruent otherwise otherwise') :
    Congruent (.piecewise first rest otherwise) (.piecewise first' rest' otherwise') := by
  have firstStep : Congruent (.piecewise first rest otherwise)
      (.piecewise first' rest otherwise) :=
    of_clause (.piecewise · rest otherwise)
      (fun frame => inside (.inFirst frame rest otherwise)) firstCongruent
  have restStep : Congruent (.piecewise first' rest otherwise)
      (.piecewise first' rest' otherwise) := by
    refine of_forall₂ (.piecewise first' · otherwise) ?_ pairwise
    intro before after old new clauseCongruent
    exact of_clause (fun clause => .piecewise first' (before ++ clause :: after) otherwise)
      (fun frame => inside (.inLater first' before frame after otherwise)) clauseCongruent
  exact (firstStep.trans restStep).trans (otherwiseCongruent.inside (.asOtherwise first' rest'))

end Congruent

/-! ## Texts of congruent formulas -/

namespace Latex

/-- Whether a dot is needed depends on the last byte of the left factor only. -/
theorem needsDot_append_left {left : Bytes} (notEmpty : left ≠ []) (before right : Bytes) :
    needsDot (before ++ left) right = needsDot left right := by
  unfold needsDot
  rw [List.getLast?_append_of_ne_nil _ notEmpty]

theorem needsDot_append_right {right : Bytes} (notEmpty : right ≠ []) (left after : Bytes) :
    needsDot left (right ++ after) = needsDot left right := by
  unfold needsDot
  rw [List.head?_append_of_ne_nil _ notEmpty]

theorem product_nil_left (right : Bytes) : product [] right = right := by
  simp [product, needsDot]

theorem product_nil_right (left : Bytes) : product left [] = left := by
  unfold product needsDot
  cases left.getLast?
  all_goals simp

theorem exists_append_eq_product (left right : Bytes) :
    (∃ before, product left right = before ++ right) ∧
      ∃ after, product left right = left ++ after := by
  unfold product
  split
  · refine ⟨⟨left ++ utf8 "\\cdot ", rfl⟩, utf8 "\\cdot " ++ right, ?_⟩
    rw [List.append_assoc]
  · exact ⟨⟨left, rfl⟩, right, rfl⟩

theorem product_assoc (first second third : Bytes) :
    product first (product second third) = product (product first second) third := by
  by_cases empty : second = []
  · rw [empty, product_nil_left, product_nil_right]
  · have leftNeeds : needsDot first (product second third) = needsDot first second := by
      rcases (exists_append_eq_product second third).2 with ⟨after, textEq⟩
      rw [textEq, needsDot_append_right empty]
    have rightNeeds : needsDot (product first second) third = needsDot second third := by
      rcases (exists_append_eq_product first second).1 with ⟨before, textEq⟩
      rw [textEq, needsDot_append_left empty]
    rw [product, leftNeeds, product.eq_def (product first second), rightNeeds, product, product]
    split
    all_goals
      split
      all_goals simp

end Latex

open Latex

/-- Whether two formulas are written in the same way, also as operands. -/
structure SameText (left right : Formula) : Prop where
  latex : left.latex = right.latex
  isSum : left.isSum = right.isSum
  isOperation : left.isOperation = right.isOperation

theorem Formula.latexAll_append_cons {old new : Formula} (latexEq : old.latex = new.latex)
    (before after : List Formula) :
    Formula.latexAll (before ++ old :: after) = Formula.latexAll (before ++ new :: after) := by
  induction before with
  | nil => rw [List.nil_append, List.nil_append, Formula.latexAll, Formula.latexAll, latexEq]
  | cons first before ih =>
      rw [List.cons_append, List.cons_append, Formula.latexAll, Formula.latexAll, ih]

theorem Clause.latexAll_append_cons {old new : Clause Formula}
    (latexEq : Clause.latex old = Clause.latex new) (before after : List (Clause Formula)) :
    Clause.latexAll (before ++ old :: after) = Clause.latexAll (before ++ new :: after) := by
  induction before with
  | nil => rw [List.nil_append, List.nil_append, Clause.latexAll, Clause.latexAll, latexEq]
  | cons first before ih =>
      rw [List.cons_append, List.cons_append, Clause.latexAll, Clause.latexAll, ih]

theorem ClauseFrame.latex_fill {old new : Formula} (latexEq : old.latex = new.latex)
    (frame : ClauseFrame) : Clause.latex (frame.fill old) = Clause.latex (frame.fill new) := by
  cases frame
  all_goals simp only [ClauseFrame.fill, Clause.latex, latexEq]

/-- What is around a formula depends on its text and on whether it is a sum or
an operation. -/
theorem SameText.inside {old new : Formula} (same : SameText old new) (frame : Frame) :
    SameText (frame.fill old) (frame.fill new) := by
  cases frame with
  | onLeft op right =>
      refine ⟨?_, ?_, rfl⟩
      · cases op
        all_goals
          simp only [Frame.fill, Formula.latex, Latex.operation, same.latex, same.isSum]
      · cases op
        all_goals rfl
  | onRight op left =>
      refine ⟨?_, ?_, rfl⟩
      · cases op
        all_goals
          simp only [Frame.fill, Formula.latex, Latex.operation, same.latex, same.isSum]
      · cases op
        all_goals rfl
  | asOperand =>
      refine ⟨?_, rfl, rfl⟩
      simp only [Frame.fill, Formula.latex, same.latex, same.isOperation]
  | asArgument callee builtin before after =>
      refine ⟨?_, rfl, rfl⟩
      simp only [Frame.fill, Formula.latex, Formula.latexAll_append_cons same.latex]
  | asItem before after =>
      refine ⟨?_, rfl, rfl⟩
      simp only [Frame.fill, Formula.latex, Formula.latexAll_append_cons same.latex]
  | inFirst frame rest otherwise =>
      refine ⟨?_, rfl, rfl⟩
      simp only [Frame.fill, Formula.latex, frame.latex_fill same.latex]
  | inLater first before frame after otherwise =>
      refine ⟨?_, rfl, rfl⟩
      simp only [Frame.fill, Formula.latex,
        Clause.latexAll_append_cons (frame.latex_fill same.latex)]
  | asOtherwise first rest =>
      refine ⟨?_, rfl, rfl⟩
      simp only [Frame.fill, Formula.latex, same.latex]

/-- Two nested operations can be re-associated if their texts can. -/
theorem Formula.latex_reassociate {op op' : Arithmetic} {a b c : Formula}
    {onRight inRight inLeft onLeft : Bytes → Bytes → Bytes}
    (inRightOk : ∀ left right, operation op' b c left right = .ok (inRight left right))
    (onRightOk : ∀ left right,
      operation op a (.binary op' b c) left right = .ok (onRight left right))
    (inLeftOk : ∀ left right, operation op a b left right = .ok (inLeft left right))
    (onLeftOk : ∀ left right,
      operation op' (.binary op a b) c left right = .ok (onLeft left right))
    (assoc : ∀ first second third,
      onRight first (inRight second third) = onLeft (inLeft first second) third) :
    (Formula.binary op a (.binary op' b c)).latex =
      (Formula.binary op' (.binary op a b) c).latex := by
  simp only [Formula.latex, inRightOk, onRightOk, inLeftOk, onLeftOk]
  cases a.latex with
  | error fault => rfl
  | ok first =>
      cases b.latex with
      | error fault => rfl
      | ok second =>
          cases c.latex with
          | error fault => rfl
          | ok third => exact congrArg Except.ok (assoc first second third)

/-- Congruent formulas have the same text. -/
theorem Congruent.sameText {left right : Formula} (congruent : Congruent left right) :
    SameText left right := by
  induction congruent with
  | addAdd a b c =>
      refine ⟨Formula.latex_reassociate (fun _ _ => rfl) (fun _ _ => rfl) (fun _ _ => rfl)
        (fun _ _ => rfl) ?_, rfl, rfl⟩
      intro first second third
      simp
  | addSubtract a b c =>
      refine ⟨Formula.latex_reassociate (fun _ _ => rfl) (fun _ _ => rfl) (fun _ _ => rfl)
        (fun _ _ => rfl) ?_, rfl, rfl⟩
      intro first second third
      simp
  | multiplyMultiply a b c =>
      refine ⟨Formula.latex_reassociate (fun _ _ => rfl) (fun _ _ => rfl) (fun _ _ => rfl)
        (fun _ _ => rfl) ?_, rfl, rfl⟩
      intro first second third
      exact product_assoc _ _ _
  | inside frame inner ih => exact ih.inside frame
  | refl formula => exact ⟨rfl, rfl, rfl⟩
  | symm congruent ih => exact ⟨ih.latex.symm, ih.isSum.symm, ih.isOperation.symm⟩
  | trans first second ih ih' =>
      exact ⟨ih.latex.trans ih'.latex, ih.isSum.trans ih'.isSum,
        ih.isOperation.trans ih'.isOperation⟩

end GraphCalc
