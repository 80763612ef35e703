import GraphCalc.Proofs.Output.Congruence
import GraphCalc.Proofs.Output.Layout

/-!
# Reading layouts

A layout is read as a formula in which sums and products associate to the left.
Putting two layouts together, with a sign or as factors, gives a layout that is
read as a formula congruent to the operation.
-/

namespace GraphCalc.Layout

def Sign.operator : Sign → Arithmetic
  | plus => .add
  | minus => .subtract

/-- A formula with a factorial mark behind it, if there is one. -/
def mark (marked : Bool) (formula : Formula) : Formula :=
  if marked then .factorial formula else formula

mutual

/-- The formula that a layout is read as. -/
def Sum.formula : Sum → Formula
  | .mk first rest => Term.onto rest first.formula

/-- A formula with terms behind it. -/
def Term.onto : List Term → Formula → Formula
  | [], formula => formula
  | .mk sign product :: rest, formula =>
      Term.onto rest (.binary sign.operator formula product.formula)

def Product.formula : Product → Formula
  | .mk first rest => Link.onto rest first.formula

def Link.formula : Link → Formula
  | .beside atom marked => mark marked atom.formula
  | .dotted factor => factor.formula

/-- A formula with factors behind it. -/
def Link.onto : List Link → Formula → Formula
  | [], formula => formula
  | link :: rest, formula => Link.onto rest (.binary .multiply formula link.formula)

def Factor.formula : Factor → Formula
  | .plain atom marked => mark marked atom.formula
  | .negative digits marked => mark marked (.number ("-" ++ digits))

def Atom.formula : Atom → Formula
  | .number digits => .number digits
  | .var name => .var name
  | .call name args => .call name false (Sum.formulas args)
  | .builtin name args => .call name true (Sum.formulas args)
  | .fraction upper lower => .binary .divide upper.formula lower.formula
  | .list items => .list (Sum.formulas items)
  | .piecewise first rest otherwise =>
      .piecewise (caseFormula first) (caseFormulas rest) otherwise.formula
  | .group inner => inner.formula

def Sum.formulas : List Sum → List Formula
  | [] => []
  | first :: rest => first.formula :: Sum.formulas rest

def caseFormula : Clause Sum → Clause Formula
  | ⟨left, comparison, right, result⟩ =>
      ⟨left.formula, comparison, right.formula, result.formula⟩

def caseFormulas : List (Clause Sum) → List (Clause Formula)
  | [] => []
  | first :: rest => caseFormula first :: caseFormulas rest

end

/-! ## Terms and factors in a row -/

theorem Term.allGlyphs_append (left right : List Term) :
    Term.allGlyphs (left ++ right) = Term.allGlyphs left ++ Term.allGlyphs right := by
  induction left with
  | nil => rfl
  | cons term left ih =>
      rw [List.cons_append, Term.allGlyphs, Term.allGlyphs, ih, List.append_assoc]

theorem Link.allGlyphs_append (left right : List Link) :
    Link.allGlyphs (left ++ right) = Link.allGlyphs left ++ Link.allGlyphs right := by
  induction left with
  | nil => rfl
  | cons link left ih =>
      rw [List.cons_append, Link.allGlyphs, Link.allGlyphs, ih, List.append_assoc]

theorem Term.onto_append (left right : List Term) (formula : Formula) :
    Term.onto (left ++ right) formula = Term.onto right (Term.onto left formula) := by
  induction left generalizing formula with
  | nil => rfl
  | cons term left ih =>
      rcases term with ⟨sign, product⟩
      rw [List.cons_append, Term.onto, Term.onto, ih]

theorem Link.onto_append (left right : List Link) (formula : Formula) :
    Link.onto (left ++ right) formula = Link.onto right (Link.onto left formula) := by
  induction left generalizing formula with
  | nil => rfl
  | cons link left ih => rw [List.cons_append, Link.onto, Link.onto, ih]

theorem Term.congruent_onto {formula formula' : Formula} (congruent : Congruent formula formula')
    (terms : List Term) : Congruent (Term.onto terms formula) (Term.onto terms formula') := by
  induction terms generalizing formula formula' with
  | nil => exact congruent
  | cons term terms ih =>
      rcases term with ⟨sign, product⟩
      exact ih (congruent.inside (.onLeft sign.operator product.formula))

theorem Link.congruent_onto {formula formula' : Formula} (congruent : Congruent formula formula')
    (links : List Link) : Congruent (Link.onto links formula) (Link.onto links formula') := by
  induction links generalizing formula formula' with
  | nil => exact congruent
  | cons link links ih => exact ih (congruent.inside (.onLeft .multiply link.formula))

/-- Both signs re-associate behind a plus sign. -/
theorem Sign.congruent_add (sign : Sign) (a b c : Formula) :
    Congruent (.binary .add a (.binary sign.operator b c))
      (.binary sign.operator (.binary .add a b) c) := by
  cases sign with
  | plus => exact .addAdd a b c
  | minus => exact .addSubtract a b c

/-- Terms behind the right operand of a sum can be taken as terms behind the
sum. -/
theorem Term.congruent_onto_add (terms : List Term) (left right : Formula) :
    Congruent (Term.onto terms (.binary .add left right))
      (.binary .add left (Term.onto terms right)) := by
  induction terms generalizing right with
  | nil => exact .refl _
  | cons term terms ih =>
      rcases term with ⟨sign, product⟩
      have reassociated := (sign.congruent_add left right product.formula).symm
      exact (Term.congruent_onto reassociated terms).trans (ih _)

theorem Link.congruent_onto_multiply (links : List Link) (left right : Formula) :
    Congruent (Link.onto links (.binary .multiply left right))
      (.binary .multiply left (Link.onto links right)) := by
  induction links generalizing right with
  | nil => exact .refl _
  | cons link links ih =>
      have reassociated := (Congruent.multiplyMultiply left right link.formula).symm
      exact (Link.congruent_onto reassociated links).trans (ih _)

/-! ## Putting layouts together -/

/-- A sum with a further term and what follows it. -/
def Sum.extend (sign : Sign) : Sum → Product → List Term → Sum
  | .mk first rest, product, behind => .mk first (rest ++ .mk sign product :: behind)

theorem Sum.glyphs_extend (sign : Sign) (left : Sum) (product : Product) (behind : List Term) :
    (left.extend sign product behind).glyphs =
      left.glyphs ++ .word sign.word :: (Sum.mk product behind).glyphs := by
  rcases left with ⟨first, rest⟩
  simp [Sum.extend, Sum.glyphs, Term.allGlyphs_append, Term.allGlyphs, Term.glyphs]

/-- The terms of the right operand of a sum become terms of the sum. -/
theorem Sum.congruent_extend_plus (left : Sum) (product : Product) (behind : List Term) :
    Congruent (left.extend .plus product behind).formula
      (.binary .add left.formula (Sum.mk product behind).formula) := by
  rcases left with ⟨first, rest⟩
  rw [Sum.extend, Sum.formula, Sum.formula, Sum.formula, Term.onto_append]
  exact Term.congruent_onto_add behind _ _

theorem Sum.formula_extend_minus (left : Sum) (product : Product) :
    (left.extend .minus product []).formula =
      .binary .subtract left.formula product.formula := by
  rcases left with ⟨first, rest⟩
  rw [Sum.extend, Sum.formula, Sum.formula, Term.onto_append]
  rfl

/-- A product with a further factor and what follows it. -/
def Product.extend : Product → Link → List Link → Product
  | .mk first rest, link, behind => .mk first (rest ++ link :: behind)

theorem Product.glyphs_extend (left : Product) (link : Link) (behind : List Link) :
    (left.extend link behind).glyphs = left.glyphs ++ (link.glyphs ++ Link.allGlyphs behind) := by
  rcases left with ⟨first, rest⟩
  simp [Product.extend, Product.glyphs, Link.allGlyphs_append, Link.allGlyphs]

theorem Product.congruent_extend (left : Product) (link : Link) (behind : List Link) :
    Congruent (left.extend link behind).formula
      (.binary .multiply left.formula (Link.onto behind link.formula)) := by
  rcases left with ⟨first, rest⟩
  rw [Product.extend, Product.formula, Product.formula, Link.onto_append]
  exact Link.congruent_onto_multiply behind _ _

/-- A factor on its own. -/
def Factor.asSum (factor : Factor) : Sum :=
  .mk (.mk factor []) []

theorem Factor.glyphs_asSum (factor : Factor) : factor.asSum.glyphs = factor.glyphs := by
  simp [Factor.asSum, Sum.glyphs, Product.glyphs, Term.allGlyphs, Link.allGlyphs]

end GraphCalc.Layout
