import GraphCalc.Proofs.Output.Glyph

/-!
# Layouts

A layout says how a formula is written: sums are products with signs between
them, products are factors side by side or with a dot between them, and a
factor is an atom or a negative number, possibly with a factorial mark.  A
negative number can stand at the front of a product or behind a dot, but not
side by side with what is in front of it, where its sign would be another.

A layout can be recovered from its glyphs.
-/

namespace GraphCalc.Layout

/-- What stands between the products of a sum. -/
inductive Sign
  | plus
  | minus
deriving DecidableEq

def Sign.word : Sign → Word
  | plus => .plus
  | minus => .minus

theorem Sign.word_inj {left right : Sign} : left.word = right.word ↔ left = right := by
  cases left
  all_goals
    cases right
    all_goals simp [Sign.word]

mutual

/-- Products with plus and minus signs between them. -/
inductive Sum
  | mk (first : Product) (rest : List Term)

/-- A product and the sign in front of it. -/
inductive Term
  | mk (sign : Sign) (product : Product)

/-- Factors in a row. -/
inductive Product
  | mk (first : Factor) (rest : List Link)

/-- A factor and how it is joined to what is in front of it. -/
inductive Link
  | beside (atom : Atom) (marked : Bool)
  | dotted (factor : Factor)

/-- An atom or a negative number, possibly with a factorial mark. -/
inductive Factor
  | plain (atom : Atom) (marked : Bool)
  | negative (digits : String) (marked : Bool)

/-- What is written in one piece. -/
inductive Atom
  | number (digits : String)
  | var (name : String)
  | call (name : String) (args : List Sum)
  | builtin (name : String) (args : List Sum)
  | fraction (upper lower : Sum)
  | list (items : List Sum)
  | piecewise (first : Clause Sum) (rest : List (Clause Sum)) (otherwise : Sum)
  | group (inner : Sum)

end

/-! ## Glyphs of layouts -/

/-- The factorial mark, if there is one. -/
def markGlyphs (marked : Bool) : List Glyph :=
  if marked then [.word .bang] else []

mutual

/-- The glyphs of a layout, in order. -/
def Sum.glyphs : Sum → List Glyph
  | .mk first rest => first.glyphs ++ Term.allGlyphs rest

def Term.glyphs : Term → List Glyph
  | .mk sign product => .word sign.word :: product.glyphs

def Term.allGlyphs : List Term → List Glyph
  | [] => []
  | first :: rest => first.glyphs ++ Term.allGlyphs rest

def Product.glyphs : Product → List Glyph
  | .mk first rest => first.glyphs ++ Link.allGlyphs rest

def Link.glyphs : Link → List Glyph
  | .beside atom marked => atom.glyphs ++ markGlyphs marked
  | .dotted factor => .word .dot :: factor.glyphs

def Link.allGlyphs : List Link → List Glyph
  | [] => []
  | first :: rest => first.glyphs ++ Link.allGlyphs rest

def Factor.glyphs : Factor → List Glyph
  | .plain atom marked => atom.glyphs ++ markGlyphs marked
  | .negative digits marked => .word .minus :: .numeral digits :: markGlyphs marked

def Atom.glyphs : Atom → List Glyph
  | .number digits => [.numeral digits]
  | .var name => [.variableName name]
  | .call name args =>
      .functionName name :: .word .openGroup :: (Sum.listGlyphs args ++ [.word .closeGroup])
  | .builtin name args =>
      .word (.openBuiltin name) :: (Sum.listGlyphs args ++ [.word .closeGroup])
  | .fraction upper lower =>
      .word .openUpper :: (upper.glyphs ++ .word .betweenParts ::
        (lower.glyphs ++ [.word .closeLower]))
  | .list items => .word .openList :: (Sum.listGlyphs items ++ [.word .closeList])
  | .piecewise first rest otherwise =>
      .word .openCases :: (caseGlyphs first ++ (casesGlyphs rest ++
        (otherwise.glyphs ++ [.word .closeCases])))
  | .group inner => .word .openGroup :: (inner.glyphs ++ [.word .closeGroup])

/-- The glyphs of layouts with commas between them. -/
def Sum.listGlyphs : List Sum → List Glyph
  | [] => []
  | first :: rest => first.glyphs ++ Sum.moreGlyphs rest

/-- The glyphs of layouts with a comma before each. -/
def Sum.moreGlyphs : List Sum → List Glyph
  | [] => []
  | first :: rest => .word .comma :: (first.glyphs ++ Sum.moreGlyphs rest)

/-- The glyphs of a conditional part and the comma behind it. -/
def caseGlyphs : Clause Sum → List Glyph
  | ⟨left, comparison, right, result⟩ =>
      left.glyphs ++ .word (.relation comparison) :: (right.glyphs ++ .word .colon ::
        (result.glyphs ++ [.word .comma]))

def casesGlyphs : List (Clause Sum) → List Glyph
  | [] => []
  | first :: rest => caseGlyphs first ++ casesGlyphs rest

end

/-! ## What may stand behind a layout -/

/-- How tightly a glyph holds on to what is in front of it. -/
def tightness : Glyph → Nat
  | .word .plus | .word .minus => 1
  | .numeral _ | .variableName _ | .functionName _ => 2
  | .word .dot | .word .openGroup | .word .openList | .word .openCases | .word .openUpper
  | .word (.openBuiltin _) => 2
  | .word .bang => 3
  | _ => 0

theorem tightness_sign (sign : Sign) : tightness (.word sign.word) = 1 := by
  cases sign
  all_goals rfl

/-- Whether the first of some glyphs holds less tightly than the limit says. -/
def Loose (limit : Nat) (glyphs : List Glyph) : Prop :=
  ∀ glyph ∈ glyphs.head?, tightness glyph < limit

@[simp]
theorem loose_cons {limit : Nat} {glyph : Glyph} {glyphs : List Glyph} :
    Loose limit (glyph :: glyphs) ↔ tightness glyph < limit := by
  simp [Loose]

theorem Loose.mono {limit limit' : Nat} {glyphs : List Glyph} (loose : Loose limit glyphs)
    (le : limit ≤ limit') : Loose limit' glyphs :=
  fun glyph isHead => Nat.lt_of_lt_of_le (loose glyph isHead) le

theorem Atom.glyphs_eq_cons (atom : Atom) :
    ∃ first behind, atom.glyphs = first :: behind ∧ tightness first = 2 ∧
      first ≠ .word .dot := by
  cases atom
  all_goals
    refine ⟨_, _, rfl, rfl, ?_⟩
    exact nofun

theorem Atom.ne_dot (atom : Atom) (rest behind : List Glyph) :
    atom.glyphs ++ rest ≠ .word .dot :: behind := by
  rcases atom.glyphs_eq_cons with ⟨first, more, glyphsEq, -, notDot⟩
  rw [glyphsEq, List.cons_append]
  intro consEq
  exact notDot (List.cons.inj consEq).1

theorem Atom.ne_minus (atom : Atom) (rest behind : List Glyph) :
    atom.glyphs ++ rest ≠ .word .minus :: behind := by
  rcases atom.glyphs_eq_cons with ⟨first, more, glyphsEq, tightEq, -⟩
  rw [glyphsEq, List.cons_append]
  intro consEq
  rw [(List.cons.inj consEq).1] at tightEq
  cases tightEq

theorem Factor.glyphs_eq_cons (factor : Factor) :
    ∃ first behind, factor.glyphs = first :: behind ∧ tightness first ≠ 0 := by
  cases factor with
  | plain atom marked =>
      rcases atom.glyphs_eq_cons with ⟨first, behind, glyphsEq, tightEq, -⟩
      refine ⟨first, behind ++ markGlyphs marked, ?_, ?_⟩
      · rw [Factor.glyphs, glyphsEq, List.cons_append]
      · rw [tightEq]
        decide
  | negative digits marked => exact ⟨.word .minus, _, rfl, by decide⟩

theorem Sum.glyphs_eq_cons (sum : Sum) :
    ∃ first behind, sum.glyphs = first :: behind ∧ tightness first ≠ 0 := by
  rcases sum with ⟨⟨factor, links⟩, terms⟩
  rcases factor.glyphs_eq_cons with ⟨first, behind, glyphsEq, tight⟩
  refine ⟨first, behind ++ Link.allGlyphs links ++ Term.allGlyphs terms, ?_, tight⟩
  rw [Sum.glyphs, Product.glyphs, glyphsEq]
  rfl

theorem Link.allGlyphs_eq_cons (link : Link) (links : List Link) :
    ∃ first behind, Link.allGlyphs (link :: links) = first :: behind ∧ tightness first = 2 := by
  cases link with
  | beside atom marked =>
      rcases atom.glyphs_eq_cons with ⟨first, behind, glyphsEq, tightEq, -⟩
      refine ⟨first, behind ++ markGlyphs marked ++ Link.allGlyphs links, ?_, tightEq⟩
      rw [Link.allGlyphs, Link.glyphs, glyphsEq]
      rfl
  | dotted factor => exact ⟨.word .dot, _, rfl, rfl⟩

theorem Term.allGlyphs_eq_cons (term : Term) (terms : List Term) :
    ∃ first behind, Term.allGlyphs (term :: terms) = first :: behind ∧ tightness first = 1 := by
  rcases term with ⟨sign, product⟩
  exact ⟨.word sign.word, _, rfl, tightness_sign sign⟩

theorem Loose.terms {rest : List Glyph} (loose : Loose 1 rest) (terms : List Term) :
    Loose 2 (Term.allGlyphs terms ++ rest) := by
  cases terms with
  | nil => exact loose.mono (Nat.le_succ 1)
  | cons term terms =>
      rcases term.allGlyphs_eq_cons terms with ⟨first, behind, glyphsEq, tightEq⟩
      rw [glyphsEq, List.cons_append, loose_cons, tightEq]
      exact Nat.one_lt_two

theorem Loose.links {rest : List Glyph} (loose : Loose 2 rest) (links : List Link) :
    Loose 3 (Link.allGlyphs links ++ rest) := by
  cases links with
  | nil => exact loose.mono (Nat.le_succ 2)
  | cons link links =>
      rcases link.allGlyphs_eq_cons links with ⟨first, behind, glyphsEq, tightEq⟩
      rw [glyphsEq, List.cons_append, loose_cons, tightEq]
      exact Nat.lt_succ_self 2

/-- What is loose does not start with a glyph that holds tightly. -/
theorem Loose.ne_append {limit : Nat} {rest glyphs behind : List Glyph} {first : Glyph}
    (loose : Loose limit rest) (glyphsEq : glyphs = first :: behind)
    (tight : limit ≤ tightness first) (after : List Glyph) : rest ≠ glyphs ++ after := by
  rintro rfl
  rw [glyphsEq, List.cons_append, loose_cons] at loose
  exact absurd loose (Nat.not_lt.2 tight)

theorem Loose.ne_links {rest : List Glyph} (loose : Loose 2 rest) (link : Link)
    (links : List Link) (behind : List Glyph) :
    rest ≠ Link.allGlyphs (link :: links) ++ behind := by
  rcases link.allGlyphs_eq_cons links with ⟨first, more, glyphsEq, tightEq⟩
  exact loose.ne_append glyphsEq (Nat.le_of_eq tightEq.symm) behind

theorem Loose.ne_terms {rest : List Glyph} (loose : Loose 1 rest) (term : Term)
    (terms : List Term) (behind : List Glyph) :
    rest ≠ Term.allGlyphs (term :: terms) ++ behind := by
  rcases term.allGlyphs_eq_cons terms with ⟨first, more, glyphsEq, tightEq⟩
  exact loose.ne_append glyphsEq (Nat.le_of_eq tightEq.symm) behind

/-- A list does not start with its closing bracket. -/
theorem Sum.ne_closing {closing : Glyph} (loose : tightness closing = 0) (sum : Sum)
    (rest behind : List Glyph) : closing :: rest ≠ sum.glyphs ++ behind := by
  rcases sum.glyphs_eq_cons with ⟨first, more, glyphsEq, tight⟩
  have closes : Loose 1 (closing :: rest) := loose_cons.2 (Nat.lt_one_iff.2 loose)
  exact closes.ne_append glyphsEq (Nat.one_le_iff_ne_zero.2 tight) behind

theorem loose_more {closing : Glyph} {rest : List Glyph} (loose : tightness closing = 0)
    (sums : List Sum) : Loose 1 (Sum.moreGlyphs sums ++ closing :: rest) := by
  cases sums with
  | nil => exact loose_cons.2 (Nat.lt_one_iff.2 loose)
  | cons first sums => exact loose_cons.2 Nat.one_pos

/-- Whether a layout and what is behind it are determined by their glyphs. -/
def Sum.Cancels (left : Sum) : Prop :=
  ∀ (right : Sum) ⦃leftRest rightRest : List Glyph⦄, Loose 1 leftRest → Loose 1 rightRest →
    left.glyphs ++ leftRest = right.glyphs ++ rightRest → left = right ∧ leftRest = rightRest

/-- A layout can be cancelled in front of what cannot continue a sum. -/
theorem Sum.Cancels.before {left right : Sum} {glyph glyph' : Glyph}
    {leftRest rightRest : List Glyph} (cancels : left.Cancels)
    (glyphsEq : left.glyphs ++ glyph :: leftRest = right.glyphs ++ glyph' :: rightRest)
    (loose : tightness glyph = 0) (loose' : tightness glyph' = 0) :
    left = right ∧ glyph = glyph' ∧ leftRest = rightRest := by
  have leftLoose : Loose 1 (glyph :: leftRest) := loose_cons.2 (Nat.lt_one_iff.2 loose)
  have rightLoose : Loose 1 (glyph' :: rightRest) := loose_cons.2 (Nat.lt_one_iff.2 loose')
  rcases cancels right leftLoose rightLoose glyphsEq with ⟨sumEq, behindEq⟩
  rcases List.cons.inj behindEq with ⟨glyphEq, restEq⟩
  exact ⟨sumEq, glyphEq, restEq⟩

/-- The left side of a comparison is not mistaken for the last part of a case
distinction. -/
theorem Sum.Cancels.ne_case {otherwise : Sum} (cancels : otherwise.Cancels)
    (clause : Clause Sum) (rest behind : List Glyph) :
    otherwise.glyphs ++ .word .closeCases :: rest ≠ caseGlyphs clause ++ behind := by
  intro glyphsEq
  rcases clause with ⟨left, comparison, right, result⟩
  simp only [caseGlyphs, List.append_assoc, List.cons_append] at glyphsEq
  have mismatch := (cancels.before glyphsEq rfl rfl).2.1
  cases mismatch

theorem Sum.Cancels.case_ne {clause : Clause Sum} (cancels : clause.left.Cancels)
    (otherwise : Sum) (rest behind : List Glyph) :
    caseGlyphs clause ++ behind ≠ otherwise.glyphs ++ .word .closeCases :: rest := by
  intro glyphsEq
  rcases clause with ⟨left, comparison, right, result⟩
  simp only [caseGlyphs, List.append_assoc, List.cons_append] at glyphsEq
  have mismatch := (cancels.before glyphsEq rfl rfl).2.1
  cases mismatch

theorem marks_cancel {left right : Bool} {leftRest rightRest : List Glyph}
    (leftLoose : Loose 3 leftRest) (rightLoose : Loose 3 rightRest)
    (glyphsEq : markGlyphs left ++ leftRest = markGlyphs right ++ rightRest) :
    left = right ∧ leftRest = rightRest := by
  cases left with
  | false =>
      cases right with
      | false => exact ⟨rfl, glyphsEq⟩
      | true =>
          change leftRest = .word .bang :: rightRest at glyphsEq
          rw [glyphsEq, loose_cons] at leftLoose
          exact absurd leftLoose (by decide)
  | true =>
      cases right with
      | false =>
          change .word .bang :: leftRest = rightRest at glyphsEq
          rw [← glyphsEq, loose_cons] at rightLoose
          exact absurd rightLoose (by decide)
      | true => exact ⟨rfl, (List.cons.inj glyphsEq).2⟩

/-!
## Cancelling layouts

The recursion is on the left layout.  The right one is only taken apart, so
nothing has to be known about its size.
-/

mutual

/-- A sum can be cancelled where no further term follows. -/
theorem Sum.cancel : ∀ left : Sum, left.Cancels
  | .mk first rest, .mk first' rest', _, _, leftLoose, rightLoose, glyphsEq => by
      rw [Sum.glyphs, Sum.glyphs, List.append_assoc, List.append_assoc] at glyphsEq
      rcases Product.cancel first first' (leftLoose.terms rest) (rightLoose.terms rest') glyphsEq
        with ⟨firstEq, behindEq⟩
      rcases Term.cancelAll rest rest' leftLoose rightLoose behindEq with ⟨restEq, afterEq⟩
      rw [firstEq, restEq]
      exact ⟨rfl, afterEq⟩

theorem Term.cancelAll : ∀ (left right : List Term) {leftRest rightRest : List Glyph},
    Loose 1 leftRest → Loose 1 rightRest →
      Term.allGlyphs left ++ leftRest = Term.allGlyphs right ++ rightRest →
        left = right ∧ leftRest = rightRest
  | [], [], _, _, _, _, glyphsEq => ⟨rfl, glyphsEq⟩
  | [], term :: terms, _, _, leftLoose, _, glyphsEq =>
      absurd glyphsEq (leftLoose.ne_terms term terms _)
  | term :: terms, [], _, _, _, rightLoose, glyphsEq =>
      absurd glyphsEq.symm (rightLoose.ne_terms term terms _)
  | .mk sign product :: rest, .mk sign' product' :: rest', _, _, leftLoose, rightLoose,
      glyphsEq => by
      simp only [Term.allGlyphs, Term.glyphs, List.cons_append, List.append_assoc,
        List.cons.injEq, Glyph.word.injEq, Sign.word_inj] at glyphsEq
      rcases Product.cancel product product' (leftLoose.terms rest) (rightLoose.terms rest')
        glyphsEq.2 with ⟨productEq, behindEq⟩
      rcases Term.cancelAll rest rest' leftLoose rightLoose behindEq with ⟨restEq, afterEq⟩
      rw [glyphsEq.1, productEq, restEq]
      exact ⟨rfl, afterEq⟩

theorem Product.cancel : ∀ (left right : Product) {leftRest rightRest : List Glyph},
    Loose 2 leftRest → Loose 2 rightRest →
      left.glyphs ++ leftRest = right.glyphs ++ rightRest → left = right ∧ leftRest = rightRest
  | .mk first rest, .mk first' rest', _, _, leftLoose, rightLoose, glyphsEq => by
      rw [Product.glyphs, Product.glyphs, List.append_assoc, List.append_assoc] at glyphsEq
      rcases Factor.cancel first first' (leftLoose.links rest) (rightLoose.links rest') glyphsEq
        with ⟨firstEq, behindEq⟩
      rcases Link.cancelAll rest rest' leftLoose rightLoose behindEq with ⟨restEq, afterEq⟩
      rw [firstEq, restEq]
      exact ⟨rfl, afterEq⟩

theorem Link.cancelAll : ∀ (left right : List Link) {leftRest rightRest : List Glyph},
    Loose 2 leftRest → Loose 2 rightRest →
      Link.allGlyphs left ++ leftRest = Link.allGlyphs right ++ rightRest →
        left = right ∧ leftRest = rightRest
  | [], [], _, _, _, _, glyphsEq => ⟨rfl, glyphsEq⟩
  | [], link :: links, _, _, leftLoose, _, glyphsEq =>
      absurd glyphsEq (leftLoose.ne_links link links _)
  | link :: links, [], _, _, _, rightLoose, glyphsEq =>
      absurd glyphsEq.symm (rightLoose.ne_links link links _)
  | .beside atom marked :: rest, link' :: rest', _, _, leftLoose, rightLoose, glyphsEq => by
      simp only [Link.allGlyphs, Link.glyphs, List.append_assoc] at glyphsEq
      cases link' with
      | beside atom' marked' =>
          simp only [Link.glyphs, List.append_assoc] at glyphsEq
          rcases Atom.cancel atom atom' glyphsEq with ⟨atomEq, marksEq⟩
          rcases marks_cancel (leftLoose.links rest) (rightLoose.links rest') marksEq with
            ⟨markedEq, behindEq⟩
          rcases Link.cancelAll rest rest' leftLoose rightLoose behindEq with ⟨restEq, afterEq⟩
          rw [atomEq, markedEq, restEq]
          exact ⟨rfl, afterEq⟩
      | dotted factor' => exact absurd glyphsEq (atom.ne_dot _ _)
  | .dotted factor :: rest, link' :: rest', _, _, leftLoose, rightLoose, glyphsEq => by
      simp only [Link.allGlyphs, Link.glyphs, List.append_assoc, List.cons_append] at glyphsEq
      cases link' with
      | beside atom' marked' =>
          simp only [Link.glyphs, List.append_assoc] at glyphsEq
          exact absurd glyphsEq.symm (atom'.ne_dot _ _)
      | dotted factor' =>
          simp only [Link.glyphs, List.cons_append, List.cons.injEq, true_and] at glyphsEq
          rcases Factor.cancel factor factor' (leftLoose.links rest) (rightLoose.links rest')
            glyphsEq with ⟨factorEq, behindEq⟩
          rcases Link.cancelAll rest rest' leftLoose rightLoose behindEq with ⟨restEq, afterEq⟩
          rw [factorEq, restEq]
          exact ⟨rfl, afterEq⟩

theorem Factor.cancel : ∀ (left right : Factor) {leftRest rightRest : List Glyph},
    Loose 3 leftRest → Loose 3 rightRest →
      left.glyphs ++ leftRest = right.glyphs ++ rightRest → left = right ∧ leftRest = rightRest
  | .plain atom marked, right, _, _, leftLoose, rightLoose, glyphsEq => by
      cases right with
      | plain atom' marked' =>
          rw [Factor.glyphs, Factor.glyphs, List.append_assoc, List.append_assoc] at glyphsEq
          rcases Atom.cancel atom atom' glyphsEq with ⟨atomEq, marksEq⟩
          rcases marks_cancel leftLoose rightLoose marksEq with ⟨markedEq, afterEq⟩
          rw [atomEq, markedEq]
          exact ⟨rfl, afterEq⟩
      | negative digits' marked' =>
          rw [Factor.glyphs, List.append_assoc] at glyphsEq
          exact absurd glyphsEq (atom.ne_minus _ _)
  | .negative digits marked, right, _, _, leftLoose, rightLoose, glyphsEq => by
      cases right with
      | plain atom' marked' =>
          rw [Factor.glyphs, Factor.glyphs, List.append_assoc] at glyphsEq
          exact absurd glyphsEq.symm (atom'.ne_minus _ _)
      | negative digits' marked' =>
          simp only [Factor.glyphs, List.cons_append, List.cons.injEq, true_and,
            Glyph.numeral.injEq] at glyphsEq
          rcases glyphsEq with ⟨digitsEq, marksEq⟩
          rcases marks_cancel leftLoose rightLoose marksEq with ⟨markedEq, afterEq⟩
          rw [digitsEq, markedEq]
          exact ⟨rfl, afterEq⟩

/-- An atom can be cancelled whatever follows: its first glyph says what it is,
and the last one where it ends. -/
theorem Atom.cancel : ∀ (left right : Atom) {leftRest rightRest : List Glyph},
    left.glyphs ++ leftRest = right.glyphs ++ rightRest → left = right ∧ leftRest = rightRest
  | .number digits, right, _, _, glyphsEq => by
      cases right with
      | number digits' =>
          simp only [Atom.glyphs, List.cons_append, List.nil_append, List.cons.injEq,
            Glyph.numeral.injEq] at glyphsEq
          rw [glyphsEq.1]
          exact ⟨rfl, glyphsEq.2⟩
      | _ => simp [Atom.glyphs] at glyphsEq
  | .var name, right, _, _, glyphsEq => by
      cases right with
      | var name' =>
          simp only [Atom.glyphs, List.cons_append, List.nil_append, List.cons.injEq,
            Glyph.variableName.injEq] at glyphsEq
          rw [glyphsEq.1]
          exact ⟨rfl, glyphsEq.2⟩
      | _ => simp [Atom.glyphs] at glyphsEq
  | .call name args, right, _, _, glyphsEq => by
      cases right with
      | call name' args' =>
          simp only [Atom.glyphs, List.cons_append, List.nil_append, List.append_assoc,
            List.cons.injEq, true_and, Glyph.functionName.injEq] at glyphsEq
          rcases glyphsEq with ⟨nameEq, argsEq⟩
          rcases Sum.cancelList args args' argsEq rfl nofun with ⟨argsEq, afterEq⟩
          rw [nameEq, argsEq]
          exact ⟨rfl, afterEq⟩
      | _ => simp [Atom.glyphs] at glyphsEq
  | .builtin name args, right, _, _, glyphsEq => by
      cases right with
      | builtin name' args' =>
          simp only [Atom.glyphs, List.cons_append, List.nil_append, List.append_assoc,
            List.cons.injEq, Glyph.word.injEq, Word.openBuiltin.injEq] at glyphsEq
          rcases glyphsEq with ⟨nameEq, argsEq⟩
          rcases Sum.cancelList args args' argsEq rfl nofun with ⟨argsEq, afterEq⟩
          rw [nameEq, argsEq]
          exact ⟨rfl, afterEq⟩
      | _ => simp [Atom.glyphs] at glyphsEq
  | .fraction upper lower, right, _, _, glyphsEq => by
      cases right with
      | fraction upper' lower' =>
          simp only [Atom.glyphs, List.cons_append, List.nil_append, List.append_assoc,
            List.cons.injEq, true_and] at glyphsEq
          rcases (Sum.cancel upper).before glyphsEq rfl rfl with ⟨upperEq, -, behindEq⟩
          rcases (Sum.cancel lower).before behindEq rfl rfl with ⟨lowerEq, -, afterEq⟩
          rw [upperEq, lowerEq]
          exact ⟨rfl, afterEq⟩
      | _ => simp [Atom.glyphs] at glyphsEq
  | .list items, right, _, _, glyphsEq => by
      cases right with
      | list items' =>
          simp only [Atom.glyphs, List.cons_append, List.nil_append, List.append_assoc,
            List.cons.injEq, true_and] at glyphsEq
          rcases Sum.cancelList items items' glyphsEq rfl nofun with ⟨itemsEq, afterEq⟩
          rw [itemsEq]
          exact ⟨rfl, afterEq⟩
      | _ => simp [Atom.glyphs] at glyphsEq
  | .piecewise first rest otherwise, right, _, _, glyphsEq => by
      cases right with
      | piecewise first' rest' otherwise' =>
          simp only [Atom.glyphs, List.cons_append, List.nil_append, List.append_assoc,
            List.cons.injEq, true_and] at glyphsEq
          rcases case_cancel first first' glyphsEq with ⟨firstEq, behindEq⟩
          rcases cases_cancel rest rest' (Sum.cancel otherwise) behindEq with
            ⟨restEq, otherwiseEq, afterEq⟩
          rw [firstEq, restEq, otherwiseEq]
          exact ⟨rfl, afterEq⟩
      | _ => simp [Atom.glyphs] at glyphsEq
  | .group inner, right, _, _, glyphsEq => by
      cases right with
      | group inner' =>
          simp only [Atom.glyphs, List.cons_append, List.nil_append, List.append_assoc,
            List.cons.injEq, true_and] at glyphsEq
          rcases (Sum.cancel inner).before glyphsEq rfl rfl with ⟨innerEq, -, afterEq⟩
          rw [innerEq]
          exact ⟨rfl, afterEq⟩
      | _ => simp [Atom.glyphs] at glyphsEq

theorem Sum.cancelList : ∀ (left right : List Sum) {closing : Glyph}
    {leftRest rightRest : List Glyph},
      Sum.listGlyphs left ++ closing :: leftRest = Sum.listGlyphs right ++ closing :: rightRest →
        tightness closing = 0 → closing ≠ .word .comma → left = right ∧ leftRest = rightRest
  | [], [], _, _, _, glyphsEq, _, _ => ⟨rfl, (List.cons.inj glyphsEq).2⟩
  | [], first :: rest, _, _, _, glyphsEq, loose, _ => by
      rw [Sum.listGlyphs, Sum.listGlyphs, List.append_assoc] at glyphsEq
      exact absurd glyphsEq (first.ne_closing loose _ _)
  | first :: rest, [], _, _, _, glyphsEq, loose, _ => by
      rw [Sum.listGlyphs, Sum.listGlyphs, List.append_assoc] at glyphsEq
      exact absurd glyphsEq.symm (first.ne_closing loose _ _)
  | first :: rest, first' :: rest', _, _, _, glyphsEq, loose, notComma => by
      rw [Sum.listGlyphs, Sum.listGlyphs, List.append_assoc, List.append_assoc] at glyphsEq
      rcases Sum.cancel first first' (loose_more loose rest) (loose_more loose rest') glyphsEq
        with ⟨firstEq, behindEq⟩
      rcases Sum.cancelMore rest rest' behindEq loose notComma with ⟨restEq, afterEq⟩
      rw [firstEq, restEq]
      exact ⟨rfl, afterEq⟩

theorem Sum.cancelMore : ∀ (left right : List Sum) {closing : Glyph}
    {leftRest rightRest : List Glyph},
      Sum.moreGlyphs left ++ closing :: leftRest = Sum.moreGlyphs right ++ closing :: rightRest →
        tightness closing = 0 → closing ≠ .word .comma → left = right ∧ leftRest = rightRest
  | [], [], _, _, _, glyphsEq, _, _ => ⟨rfl, (List.cons.inj glyphsEq).2⟩
  | [], first :: rest, _, _, _, glyphsEq, _, notComma =>
      absurd (List.cons.inj glyphsEq).1 notComma
  | first :: rest, [], _, _, _, glyphsEq, _, notComma =>
      absurd (List.cons.inj glyphsEq).1.symm notComma
  | first :: rest, first' :: rest', _, _, _, glyphsEq, loose, notComma => by
      simp only [Sum.moreGlyphs, List.cons_append, List.append_assoc, List.cons.injEq,
        true_and] at glyphsEq
      rcases Sum.cancel first first' (loose_more loose rest) (loose_more loose rest') glyphsEq
        with ⟨firstEq, behindEq⟩
      rcases Sum.cancelMore rest rest' behindEq loose notComma with ⟨restEq, afterEq⟩
      rw [firstEq, restEq]
      exact ⟨rfl, afterEq⟩

theorem case_cancel : ∀ (left right : Clause Sum) {leftRest rightRest : List Glyph},
    caseGlyphs left ++ leftRest = caseGlyphs right ++ rightRest →
      left = right ∧ leftRest = rightRest
  | ⟨left, comparison, right, result⟩, ⟨left', comparison', right', result'⟩, _, _,
      glyphsEq => by
      simp only [caseGlyphs, List.cons_append, List.append_assoc, List.nil_append] at glyphsEq
      rcases (Sum.cancel left).before glyphsEq rfl rfl with ⟨leftEq, relationEq, rightEq⟩
      rcases (Sum.cancel right).before rightEq rfl rfl with ⟨rightEq, -, resultEq⟩
      rcases (Sum.cancel result).before resultEq rfl rfl with ⟨resultEq, -, afterEq⟩
      rw [Glyph.word.injEq, Word.relation.injEq] at relationEq
      rw [leftEq, relationEq, rightEq, resultEq]
      exact ⟨rfl, afterEq⟩

theorem cases_cancel : ∀ (left right : List (Clause Sum)) {otherwise otherwise' : Sum}
    {leftRest rightRest : List Glyph}, otherwise.Cancels →
      casesGlyphs left ++ (otherwise.glyphs ++ .word .closeCases :: leftRest) =
          casesGlyphs right ++ (otherwise'.glyphs ++ .word .closeCases :: rightRest) →
        left = right ∧ otherwise = otherwise' ∧ leftRest = rightRest
  | [], [], _, _, _, _, cancels, glyphsEq => by
      rcases cancels.before glyphsEq rfl rfl with ⟨otherwiseEq, -, afterEq⟩
      exact ⟨rfl, otherwiseEq, afterEq⟩
  | [], first :: rest, _, _, _, _, cancels, glyphsEq => by
      rw [casesGlyphs, casesGlyphs, List.append_assoc] at glyphsEq
      exact absurd glyphsEq (cancels.ne_case first _ _)
  | ⟨left, comparison, right, result⟩ :: rest, [], _, otherwise', _, _, _, glyphsEq => by
      rw [casesGlyphs, casesGlyphs, List.append_assoc] at glyphsEq
      exact absurd glyphsEq (Sum.Cancels.case_ne (Sum.cancel left) otherwise' _ _)
  | first :: rest, first' :: rest', _, _, _, _, cancels, glyphsEq => by
      rw [casesGlyphs, casesGlyphs, List.append_assoc, List.append_assoc] at glyphsEq
      rcases case_cancel first first' glyphsEq with ⟨firstEq, behindEq⟩
      rcases cases_cancel rest rest' cancels behindEq with ⟨restEq, otherwiseEq, afterEq⟩
      rw [firstEq, restEq]
      exact ⟨rfl, otherwiseEq, afterEq⟩

end

/-- A layout is determined by its glyphs. -/
theorem Sum.eq_of_glyphs_eq {left right : Sum} (glyphsEq : left.glyphs = right.glyphs) :
    left = right := by
  have nothingBehind : Loose 1 [] := nofun
  refine (left.cancel right nothingBehind nothingBehind ?_).1
  rw [glyphsEq]

end GraphCalc.Layout
