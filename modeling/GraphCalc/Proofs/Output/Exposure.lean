import GraphCalc.Proofs.Output.Brackets

/-!
# Glyphs outside brackets

The glyphs outside all brackets decide how a text is read.  Brackets are balanced in
the text of every formula, so these glyphs are put together as the formula is.  In
front of a factorial mark they are one closed factor or a negative number, and in a
formula that is no sum they hold no sign but those of negative numbers, each at the
front or behind a dot.
-/

namespace GraphCalc

namespace Layout

/-! ## Outside all brackets -/

/-- The glyphs outside all brackets, where the given number of brackets is open.
The outermost brackets are kept without what is in them, and the glyphs end at a
bracket that closes nothing. -/
def exposedFrom : Nat → List Glyph → List Glyph
  | _, [] => []
  | 0, glyph :: rest =>
      if glyph.opens then glyph :: exposedFrom 1 rest
      else if glyph.closes then []
      else glyph :: exposedFrom 0 rest
  | depth + 1, glyph :: rest =>
      if glyph.opens then exposedFrom (depth + 2) rest
      else if glyph.closes then
        if depth = 0 then glyph :: exposedFrom 0 rest else exposedFrom depth rest
      else exposedFrom (depth + 1) rest

/-- The glyphs outside all brackets. -/
def exposed (glyphs : List Glyph) : List Glyph :=
  exposedFrom 0 glyphs

/-- Whether every bracket has its counterpart, so that what stands behind the glyphs
is read at the same depth as they are. -/
structure Balanced (glyphs : List Glyph) : Prop where
  outside : ∀ rest, exposedFrom 0 (glyphs ++ rest) = exposed glyphs ++ exposedFrom 0 rest
  inside : ∀ depth rest, exposedFrom (depth + 1) (glyphs ++ rest) = exposedFrom (depth + 1) rest

theorem balanced_nil : Balanced [] :=
  ⟨fun _ => rfl, fun _ _ => rfl⟩

namespace Balanced

theorem exposed_append {left : List Glyph} (balanced : Balanced left) (right : List Glyph) :
    exposed (left ++ right) = exposed left ++ exposed right :=
  balanced.outside right

theorem append {left right : List Glyph} (leftBalanced : Balanced left)
    (rightBalanced : Balanced right) : Balanced (left ++ right) where
  outside rest := by
    rw [List.append_assoc, leftBalanced.outside, rightBalanced.outside,
      leftBalanced.exposed_append, List.append_assoc]
  inside depth rest := by
    rw [List.append_assoc, leftBalanced.inside, rightBalanced.inside]

end Balanced

theorem exposed_cons {glyph : Glyph} (plain : glyph.Plain) (rest : List Glyph) :
    exposed (glyph :: rest) = glyph :: exposed rest := by
  simp [exposed, exposedFrom, plain.1, plain.2]

theorem balanced_cons {glyph : Glyph} {rest : List Glyph} (plain : glyph.Plain)
    (balanced : Balanced rest) : Balanced (glyph :: rest) where
  outside more := by
    rw [exposed_cons plain, List.cons_append, List.cons_append, ← balanced.outside]
    exact exposed_cons plain (rest ++ more)
  inside depth more := by
    rw [List.cons_append, ← balanced.inside depth more, exposedFrom]
    simp [plain.1, plain.2]

section Enclosed

variable {opening closing : Glyph} {inner : List Glyph}

theorem exposedFrom_enclosed (pair : opening.closing? = some closing) (balanced : Balanced inner)
    (rest : List Glyph) :
    exposedFrom 0 (opening :: (inner ++ closing :: rest)) =
      opening :: closing :: exposedFrom 0 rest := by
  have opens : opening.opens = true := by rw [Glyph.opens, pair, Option.isSome_some]
  rcases Glyph.closes_of_closing? pair with ⟨notOpens, closes⟩
  rw [exposedFrom, if_pos opens, balanced.inside 0]
  simp [exposedFrom, notOpens, closes]

/-- Of what is in brackets, only the brackets are seen. -/
theorem exposed_enclosed (pair : opening.closing? = some closing) (balanced : Balanced inner) :
    exposed (opening :: (inner ++ [closing])) = [opening, closing] :=
  exposedFrom_enclosed pair balanced []

theorem balanced_enclosed (pair : opening.closing? = some closing) (balanced : Balanced inner) :
    Balanced (opening :: (inner ++ [closing])) where
  outside rest := by
    have shifted : opening :: (inner ++ [closing]) ++ rest =
        opening :: (inner ++ closing :: rest) := by simp
    rw [exposed_enclosed pair balanced, shifted, exposedFrom_enclosed pair balanced]
    rfl
  inside depth rest := by
    have opens : opening.opens = true := by rw [Glyph.opens, pair, Option.isSome_some]
    rcases Glyph.closes_of_closing? pair with ⟨notOpens, closes⟩
    have shifted : opening :: (inner ++ [closing]) ++ rest =
        opening :: (inner ++ closing :: rest) := by simp
    rw [shifted, exposedFrom, if_pos opens, balanced.inside (depth + 1)]
    simp [exposedFrom, notOpens, closes]

end Enclosed

/-- Balanced glyphs do not start with a closing bracket, so the first of them is
seen from outside. -/
theorem Balanced.head?_exposed {glyphs : List Glyph} (balanced : Balanced glyphs) :
    (exposed glyphs).head? = glyphs.head? := by
  cases glyphs with
  | nil => rfl
  | cons glyph rest =>
      have hidden : exposedFrom 1 (glyph :: rest) = [] := by
        have inside := balanced.inside 0 []
        rwa [List.append_nil] at inside
      cases opens : glyph.opens with
      | true => simp [exposed, exposedFrom, opens]
      | false =>
          cases closes : glyph.closes with
          | true => simp [exposedFrom, opens, closes] at hidden
          | false => rw [exposed_cons ⟨opens, closes⟩, List.head?_cons, List.head?_cons]

theorem balanced_groupGlyphsIf {glyphs : List Glyph} (condition : Bool)
    (balanced : Balanced glyphs) : Balanced (groupGlyphsIf condition glyphs) := by
  cases condition with
  | true => exact balanced_enclosed rfl balanced
  | false => exact balanced

/-- What is in the two parts of a fraction. -/
theorem balanced_betweenParts {upper lower : List Glyph} (upperBalanced : Balanced upper)
    (lowerBalanced : Balanced lower) : Balanced (upper ++ .word .betweenParts :: lower) :=
  upperBalanced.append (balanced_cons ⟨rfl, rfl⟩ lowerBalanced)

theorem fractionGlyphs_eq_enclosed (upper lower : List Glyph) :
    fractionGlyphs upper lower =
      .word .openUpper :: ((upper ++ .word .betweenParts :: lower) ++ [.word .closeLower]) := by
  simp [fractionGlyphs]

/-- Glyphs with brackets in pairs are balanced. -/
theorem Bracketed.balanced {glyphs : List Glyph} (bracketed : Bracketed glyphs) :
    Balanced glyphs := by
  induction bracketed with
  | nil => exact balanced_nil
  | plain isPlain _ => exact balanced_cons isPlain balanced_nil
  | append _ _ leftBalanced rightBalanced => exact leftBalanced.append rightBalanced
  | enclosed pair _ balanced => exact balanced_enclosed pair balanced
  | fraction _ _ upperBalanced lowerBalanced =>
      rw [fractionGlyphs_eq_enclosed]
      exact balanced_enclosed rfl (balanced_betweenParts upperBalanced lowerBalanced)

end Layout

open Layout

theorem Formula.balanced_glyphs (formula : Formula) : Balanced formula.glyphs :=
  formula.bracketed_glyphs.balanced

theorem Formula.balanced_items (formulas : List Formula) :
    Balanced (commaGlyphs (Formula.glyphsAll formulas)) :=
  (Formula.bracketed_items fun formula _ => formula.bracketed_glyphs).balanced

/-! ## Closed factors -/

namespace Layout

/-- One closed factor as it is seen from outside: a number without a sign, a name, a
call, or something in brackets. -/
inductive ClosedFactor : List Glyph → Prop
  | numeral (digits : String) : ClosedFactor [.numeral digits]
  | name (name : String) : ClosedFactor [.variableName name]
  | call (name : String) :
      ClosedFactor [.variableName name, .word .openGroup, .word .closeGroup]
  | enclosed {opening closing : Glyph} (pair : opening.closing? = some closing) :
      ClosedFactor [opening, closing]

theorem closedFactor_enclosed {opening closing : Glyph} {inner : List Glyph}
    (pair : opening.closing? = some closing) (balanced : Balanced inner) :
    ClosedFactor (exposed (opening :: (inner ++ [closing]))) := by
  rw [exposed_enclosed pair balanced]
  exact .enclosed pair

theorem closedFactor_call (name : String) {inner : List Glyph} (balanced : Balanced inner) :
    ClosedFactor (exposed (.variableName name :: groupGlyphs inner)) := by
  rw [exposed_cons ⟨rfl, rfl⟩, groupGlyphs, exposed_enclosed rfl balanced]
  exact .call name

/-- A closed factor does not start with a sign. -/
theorem ClosedFactor.head?_ne_minus {glyphs : List Glyph} (closed : ClosedFactor glyphs) :
    glyphs.head? ≠ some (.word .minus) := by
  intro isMinus
  cases closed with
  | enclosed pair =>
      cases isMinus
      cases pair
  | _ => cases isMinus

end Layout

/-- An expression without an operator is one closed factor, unless it is a negative
number. -/
theorem Formula.WellFormed.closedFactor {formula : Formula} (shape : formula.WellFormed)
    (notOperation : formula.isOperation = false) :
    ClosedFactor (exposed formula.glyphs) ∨
      ∃ digits, formula = .number ("-" ++ digits) ∧
        formula.glyphs = [.word .minus, .numeral digits] := by
  cases formula with
  | number value =>
      rw [Formula.glyphs]
      rcases numberGlyphs_cases shape with ⟨-, glyphsEq⟩ | ⟨digits, -, rfl, glyphsEq⟩
      · rw [glyphsEq]
        exact .inl (.numeral value)
      · exact .inr ⟨digits, rfl, glyphsEq⟩
  | var name => exact .inl (.name name)
  | call name builtin args =>
      have argsBalanced := Formula.balanced_items args
      cases builtin with
      | true => exact .inl (closedFactor_enclosed rfl argsBalanced)
      | false => exact .inl (closedFactor_call name argsBalanced)
  | list items =>
      exact .inl (closedFactor_enclosed rfl (Formula.balanced_items items))
  | piecewise first rest otherwise =>
      have partsBracketed : ∀ part ∈ (first :: rest).flatMap Clause.children,
          Bracketed part.glyphs :=
        fun part _ => part.bracketed_glyphs
      have piecesBracketed :=
        Formula.bracketed_pieces partsBracketed otherwise.bracketed_glyphs
      exact .inl (closedFactor_enclosed rfl piecesBracketed.balanced)
  | binary | factorial => cases notOperation
  | assign | define | missing => exact shape.elim

/-- What stands in front of a factorial mark is one closed factor, unless it is a
negative number. -/
theorem Formula.WellFormed.closedFactor_marked {operand : Formula} (shape : operand.WellFormed) :
    ClosedFactor (exposed (groupGlyphsIf operand.isOperation operand.glyphs)) ∨
      ∃ digits, operand = .number ("-" ++ digits) ∧
        groupGlyphsIf operand.isOperation operand.glyphs = [.word .minus, .numeral digits] := by
  cases isOperation : operand.isOperation with
  | true => exact .inl (closedFactor_enclosed rfl operand.balanced_glyphs)
  | false => exact shape.closedFactor isOperation

/-! ## Signs of numbers -/

namespace Layout

def Glyph.isSign : Glyph → Bool
  | .word .plus | .word .minus => true
  | _ => false

/-- Whether every sign among glyphs is the minus sign of a number, at the front or
behind a dot. -/
def SignsOfNumbers (glyphs : List Glyph) : Prop :=
  ∀ before sign behind, glyphs = before ++ sign :: behind → sign.isSign = true →
    sign = .word .minus ∧ (∃ digits, behind.head? = some (.numeral digits)) ∧
      (before = [] ∨ before.getLast? = some (.word .dot))

theorem signsOfNumbers_of_forall {glyphs : List Glyph}
    (noSign : ∀ glyph ∈ glyphs, glyph.isSign = false) : SignsOfNumbers glyphs := by
  intro before sign behind glyphsEq isSign
  have notSign : sign.isSign = false := noSign sign (by simp [glyphsEq])
  rw [isSign] at notSign
  cases notSign

theorem signsOfNumbers_negative (digits : String) :
    SignsOfNumbers [.word .minus, .numeral digits] := by
  intro before sign behind glyphsEq isSign
  cases before with
  | nil =>
      cases glyphsEq
      exact ⟨rfl, ⟨digits, rfl⟩, .inl rfl⟩
  | cons first before =>
      rcases List.cons.inj glyphsEq with ⟨-, restEq⟩
      have isLast : sign ∈ [Glyph.numeral digits] := by simp [restEq]
      rcases List.mem_singleton.1 isLast with rfl
      cases isSign

theorem Glyph.isSign_of_closing? {opening closing : Glyph}
    (pair : opening.closing? = some closing) :
    opening.isSign = false ∧ closing.isSign = false := by
  unfold Glyph.closing? at pair
  split at pair
  all_goals cases pair
  all_goals exact ⟨rfl, rfl⟩

theorem ClosedFactor.signsOfNumbers {glyphs : List Glyph} (closed : ClosedFactor glyphs) :
    SignsOfNumbers glyphs := by
  apply signsOfNumbers_of_forall
  cases closed with
  | numeral digits => simp [Glyph.isSign]
  | name name => simp [Glyph.isSign]
  | call name => simp [Glyph.isSign]
  | enclosed pair => simp [Glyph.isSign_of_closing? pair]

/-- Glyphs can stand side by side if the second ones do not start with a sign, or if
there is a dot between them. -/
theorem SignsOfNumbers.append {left right : List Glyph} (leftSigns : SignsOfNumbers left)
    (rightSigns : SignsOfNumbers right)
    (apart : right.head? ≠ some (.word .minus) ∨ left.getLast? = some (.word .dot)) :
    SignsOfNumbers (left ++ right) := by
  intro before sign behind appendEq isSign
  have inRight : ∀ {middle : List Glyph}, before = left ++ middle →
      right = middle ++ sign :: behind → sign = .word .minus ∧
        (∃ digits, behind.head? = some (.numeral digits)) ∧
          (before = [] ∨ before.getLast? = some (.word .dot)) := by
    rintro middle rfl rightEq
    rcases rightSigns middle sign behind rightEq isSign with ⟨rfl, isNumber, rfl | isDotted⟩
    · rcases apart with notMinus | isDotted
      · simp [rightEq] at notMinus
      · exact ⟨rfl, isNumber, .inr (by simpa using isDotted)⟩
    · exact ⟨rfl, isNumber, .inr (by simp [isDotted])⟩
  rcases List.append_eq_append_iff.1 appendEq with ⟨middle, beforeEq, rightEq⟩ |
    ⟨middle, leftEq, restEq⟩
  · exact inRight beforeEq rightEq
  · cases middle with
    | nil =>
        have beforeEq : before = left ++ [] := by rw [leftEq, List.append_nil, List.append_nil]
        exact inRight beforeEq restEq.symm
    | cons first middle =>
        rcases List.cons.inj restEq with ⟨rfl, rfl⟩
        rcases leftSigns before sign middle leftEq isSign with ⟨signEq, ⟨digits, headEq⟩, place⟩
        exact ⟨signEq, ⟨digits, by simp [headEq]⟩, place⟩

/-- Side by side without a dot, the second factor does not start with a sign. -/
theorem head?_ne_minus {uses : List NameUse} {left right : List Glyph}
    (legible : Legible uses left) (notEmpty : left ≠ [])
    (noDot : Latex.needsDot (bytes left) (bytes right) = false) :
    right.head? ≠ some (.word .minus) := by
  intro isMinus
  rcases List.head?_eq_some_iff.1 isMinus with ⟨behind, rfl⟩
  rcases List.exists_cons_of_ne_nil notEmpty with ⟨first, rest, rfl⟩
  have headClass := class_head_bytes (allValid_cons.1 legible.valid).1 rest
  have bytesNotEmpty : bytes (first :: rest) ≠ [] := by
    intro empty
    rw [empty] at headClass
    cases headClass
  rw [bytes_cons (.word .minus), Glyph.text, needsDot_minus bytesNotEmpty] at noDot
  cases noDot

/-- Factors have a dot between them, or the second does not start with a sign. -/
theorem productGlyphs_cases {uses : List NameUse} {left right : List Glyph}
    (legible : Legible uses left) (notEmpty : left ≠ []) :
    productGlyphs left right = left ++ .word .dot :: right ∨
      productGlyphs left right = left ++ right ∧ right.head? ≠ some (.word .minus) := by
  unfold productGlyphs
  split
  · exact .inl rfl
  · exact .inr ⟨rfl, head?_ne_minus legible notEmpty (Bool.eq_false_iff.2 ‹_›)⟩

/-- The signs in a product of two factors. -/
theorem SignsOfNumbers.productGlyphs {uses : List NameUse} {left right : List Glyph}
    (legible : Legible uses left) (notEmpty : left ≠ []) (leftBalanced : Balanced left)
    (rightBalanced : Balanced right) (leftSigns : SignsOfNumbers (exposed left))
    (rightSigns : SignsOfNumbers (exposed right)) :
    SignsOfNumbers (exposed (productGlyphs left right)) := by
  rcases productGlyphs_cases legible notEmpty with glyphsEq | ⟨glyphsEq, notMinus⟩
  · have dotSigns : SignsOfNumbers (exposed left ++ [.word .dot]) :=
      leftSigns.append (signsOfNumbers_of_forall (by simp [Glyph.isSign])) (.inl (by decide))
    have signs := dotSigns.append rightSigns (.inr List.getLast?_concat)
    rw [glyphsEq, leftBalanced.exposed_append, exposed_cons ⟨rfl, rfl⟩]
    simpa using signs
  · rw [← rightBalanced.head?_exposed] at notMinus
    rw [glyphsEq, leftBalanced.exposed_append]
    exact leftSigns.append rightSigns (.inl notMinus)

end Layout

theorem Formula.WellFormed.glyphs_ne_nil {formula : Formula} (shape : formula.WellFormed) :
    formula.glyphs ≠ [] := by
  induction formula using Formula.induction_children with
  | step formula ih =>
      cases formula with
      | number value =>
          rw [Formula.glyphs]
          rcases numberGlyphs_cases shape with ⟨-, glyphsEq⟩ | ⟨digits, -, -, glyphsEq⟩
          all_goals
            rw [glyphsEq]
            exact List.cons_ne_nil _ _
      | binary op left right =>
          have isChild : left ∈ (Formula.binary op left right).children := List.mem_cons_self
          have isInfix := shape.infix_glyphs isChild
          intro empty
          rw [empty, List.infix_nil] at isInfix
          exact ih left isChild shape.2.1 isInfix
      | factorial operand => simp [Formula.glyphs]
      | call name builtin args =>
          cases builtin
          all_goals exact List.cons_ne_nil _ _
      | var | list | piecewise => exact List.cons_ne_nil _ _
      | assign | define | missing => exact shape.elim

/-- An operand that is put in parentheses if it is a sum. -/
theorem Formula.signsOfNumbers_factor {operand : Formula}
    (signs : operand.isSum = false → SignsOfNumbers (exposed operand.glyphs)) :
    SignsOfNumbers (exposed (groupGlyphsIf operand.isSum operand.glyphs)) := by
  cases isSum : operand.isSum with
  | true => exact (closedFactor_enclosed rfl operand.balanced_glyphs).signsOfNumbers
  | false => exact signs isSum

theorem Formula.WellFormed.operand_ne_nil {operand : Formula} (shape : operand.WellFormed)
    (condition : Bool) : groupGlyphsIf condition operand.glyphs ≠ [] := by
  intro empty
  have isInfix := infix_groupGlyphsIf condition operand.glyphs
  rw [empty, List.infix_nil] at isInfix
  exact shape.glyphs_ne_nil isInfix

/-- A product has the signs of its factors. -/
theorem Formula.signsOfNumbers_product {left right : Formula} (leftShape : left.WellFormed)
    (leftSigns : left.isSum = false → SignsOfNumbers (exposed left.glyphs))
    (rightSigns : right.isSum = false → SignsOfNumbers (exposed right.glyphs)) :
    SignsOfNumbers (exposed (Formula.binary .multiply left right).glyphs) :=
  .productGlyphs (legible_groupGlyphsIf left.isSum leftShape.written.legible)
    (leftShape.operand_ne_nil left.isSum) (balanced_groupGlyphsIf left.isSum left.balanced_glyphs)
    (balanced_groupGlyphsIf right.isSum right.balanced_glyphs)
    (signsOfNumbers_factor leftSigns) (signsOfNumbers_factor rightSigns)

/-- A factorial has the signs of its operand. -/
theorem Formula.WellFormed.signsOfNumbers_marked {operand : Formula}
    (shape : operand.WellFormed) : SignsOfNumbers (exposed (Formula.factorial operand).glyphs) := by
  have balanced := balanced_groupGlyphsIf operand.isOperation operand.balanced_glyphs
  have markSigns : SignsOfNumbers [.word .bang] := signsOfNumbers_of_forall (by simp [Glyph.isSign])
  rw [Formula.glyphs, balanced.exposed_append]
  refine SignsOfNumbers.append ?_ markSigns (.inl (by decide))
  rcases shape.closedFactor_marked with closed | ⟨digits, -, glyphsEq⟩
  · exact closed.signsOfNumbers
  · rw [glyphsEq]
    exact signsOfNumbers_negative digits

/-- The only signs outside the brackets of an expression that is no sum are those of
numbers. -/
theorem Formula.WellFormed.signsOfNumbers {formula : Formula} (shape : formula.WellFormed)
    (notSum : formula.isSum = false) : SignsOfNumbers (exposed formula.glyphs) := by
  induction formula using Formula.induction_children with
  | step formula ih =>
      cases isOperation : formula.isOperation with
      | false =>
          rcases shape.closedFactor isOperation with closed | ⟨digits, -, glyphsEq⟩
          · exact closed.signsOfNumbers
          · rw [glyphsEq]
            exact signsOfNumbers_negative digits
      | true =>
          cases formula with
          | factorial operand => exact signsOfNumbers_marked shape
          | binary op left right =>
              rcases shape with ⟨known, leftShape, rightShape⟩
              simp only [Formula.children, List.forall_mem_cons] at ih
              cases op with
              | add | subtract => cases notSum
              | multiply =>
                  exact signsOfNumbers_product leftShape (ih.1 leftShape) (ih.2.1 rightShape)
              | divide =>
                  rw [Formula.glyphs, operationGlyphs, fractionGlyphs_eq_enclosed]
                  have partsBalanced :=
                    balanced_betweenParts left.balanced_glyphs right.balanced_glyphs
                  exact (closedFactor_enclosed rfl partsBalanced).signsOfNumbers
              | other code => simp [Arithmetic.known] at known
          | _ => cases isOperation

end GraphCalc
