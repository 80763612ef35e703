import GraphCalc.Proofs.Syntax.Completeness

/-!
# Every line has at most one derivation

Two derivations of the same kind whose tokens, each followed by tokens that do
not hold on to it, make up the same list are equal, and so are the tokens that
follow.  With nothing behind them this says that the tokens of a line determine
its derivation.

A derivation contains shorter ones of every kind, so the statements are made
for derivations with fewer tokens than a bound.
-/

namespace GraphCalc.Grammar

/-- Derivations with fewer tokens than the bound can be cancelled in front of
tokens that hold on to them less tightly than the limit. -/
def Cancels {α : Type} (tokens : α → List Token) (limit bound : Nat) : Prop :=
  ∀ ⦃left right : α⦄ ⦃leftRest rightRest : List Token⦄, (tokens left).length < bound →
    Loose limit leftRest → Loose limit rightRest →
    tokens left ++ leftRest = tokens right ++ rightRest →
    left = right ∧ leftRest = rightRest

/-! ## Terminals -/

@[simp]
theorem kind_terminal {kind : Kind} (token : Terminal kind) : token.val.kind = kind :=
  token.property

theorem Sign.eq_of_token_eq {level : Level} {left right : Sign level}
    (tokenEq : left.token = right.token) : left = right := by
  have kindEq := congrArg Token.kind tokenEq
  cases left with
  | plus first | minus first | times first | dividedBy first | modulo first =>
      cases right
      all_goals simp [Sign.token] at kindEq
      exact congrArg _ (Subtype.ext tokenEq)

theorem Relation.eq_of_token_eq {left right : Relation}
    (tokenEq : left.token = right.token) : left = right := by
  have kindEq := congrArg Token.kind tokenEq
  cases left with
  | assign first | equal first | greater first | less first | greaterEqual first
  | lessEqual first =>
      cases right
      all_goals simp [Relation.token] at kindEq
      exact congrArg _ (Subtype.ext tokenEq)

/-! ## Factors -/

namespace Factor

/-- The primary expression in a factor, and the marks behind it. -/
def spine : Factor → Primary × List (Terminal .bang)
  | .primary only => (only, [])
  | .marked operand mark => (operand.spine.1, operand.spine.2 ++ [mark])

theorem foldl_spine (factor : Factor) :
    factor.spine.2.foldl Factor.marked (.primary factor.spine.1) = factor := by
  cases factor with
  | primary only => rfl
  | marked operand mark =>
      rw [spine, List.foldl_append, operand.foldl_spine]
      rfl

theorem tokens_spine (factor : Factor) :
    factor.tokens = factor.spine.1.tokens ++ factor.spine.2.map Subtype.val := by
  cases factor with
  | primary only => exact (List.append_nil only.tokens).symm
  | marked operand mark =>
      rw [Factor.tokens, spine, operand.tokens_spine, List.map_append, List.append_assoc]
      rfl

end Factor

/-- Marks can be cancelled in front of tokens that are no marks. -/
theorem marks_cancel {leftRest rightRest : List Token} (leftLoose : Loose 3 leftRest)
    (rightLoose : Loose 3 rightRest) {left right : List (Terminal .bang)}
    (tokensEq : left.map Subtype.val ++ leftRest = right.map Subtype.val ++ rightRest) :
    left = right ∧ leftRest = rightRest := by
  induction left generalizing right with
  | nil =>
      cases right with
      | nil => exact ⟨rfl, tokensEq⟩
      | cons mark marks =>
          simp only [List.map_nil, List.nil_append, List.map_cons, List.cons_append] at tokensEq
          rw [tokensEq, loose_cons, mark.property] at leftLoose
          exact absurd leftLoose (by decide)
  | cons mark marks ih =>
      cases right with
      | nil =>
          simp only [List.map_nil, List.nil_append, List.map_cons, List.cons_append] at tokensEq
          rw [← tokensEq, loose_cons, mark.property] at rightLoose
          exact absurd rightLoose (by decide)
      | cons mark' marks' =>
          simp only [List.map_cons, List.cons_append, List.cons.injEq] at tokensEq
          obtain ⟨marksEq, restEq⟩ := ih tokensEq.2
          exact ⟨by rw [Subtype.ext tokensEq.1, marksEq], restEq⟩

theorem loose_marks (marks : List (Terminal .bang)) {rest : List Token}
    (loose : Loose 3 rest) : Loose 4 (marks.map Subtype.val ++ rest) := by
  cases marks with
  | nil => exact loose.mono (by decide)
  | cons mark marks =>
      rw [List.map_cons, List.cons_append, loose_cons, mark.property]
      decide

theorem factors_cancel {bound : Nat} (primaries : Cancels Primary.tokens 4 bound) :
    Cancels Factor.tokens 3 bound := by
  intro left right leftRest rightRest short leftLoose rightLoose tokensEq
  rw [left.tokens_spine] at short
  rw [left.tokens_spine, right.tokens_spine, List.append_assoc, List.append_assoc] at tokensEq
  rw [List.length_append] at short
  obtain ⟨primaryEq, marksEq⟩ := primaries (by omega) (loose_marks _ leftLoose)
    (loose_marks _ rightLoose) tokensEq
  obtain ⟨marksEq, restEq⟩ := marks_cancel leftLoose rightLoose marksEq
  refine ⟨?_, restEq⟩
  rw [← left.foldl_spine, ← right.foldl_spine, primaryEq, marksEq]

/-! ## Chains -/

namespace Chain

variable {level : Level}

/-- The first operand of a chain, and the signed operands behind it. -/
def spine : Chain level → Operand level × List (Sign level × Operand level)
  | .operand only => (only, [])
  | .join left sign right => (left.spine.1, left.spine.2 ++ [(sign, right)])

/-- The tokens of signed operands. -/
def signedTokens (signed : List (Sign level × Operand level)) : List Token :=
  signed.flatMap fun entry => entry.1.token :: entry.2.tokens

theorem foldl_spine (chain : Chain level) :
    chain.spine.2.foldl (fun left entry => .join left entry.1 entry.2)
      (.operand chain.spine.1) = chain := by
  induction chain using spine.induct with
  | case1 level only => rfl
  | case2 level left sign right ih =>
      rw [spine, List.foldl_append, ih]
      rfl

theorem tokens_spine (chain : Chain level) :
    chain.tokens = chain.spine.1.tokens ++ signedTokens chain.spine.2 := by
  induction chain using spine.induct with
  | case1 level only => exact (List.append_nil only.tokens).symm
  | case2 level left sign right ih => simp [Chain.tokens, spine, ih, signedTokens]

theorem loose_signedTokens (signed : List (Sign level × Operand level)) {rest : List Token}
    (loose : Loose (levelTightness level) rest) :
    Loose (levelTightness level + 1) (signedTokens signed ++ rest) := by
  cases signed with
  | nil => exact loose.mono (Nat.le_succ _)
  | cons entry signed =>
      rw [signedTokens, List.flatMap_cons, List.append_assoc, List.cons_append, loose_cons,
        entry.1.tightness_token]
      exact Nat.lt_succ_self _

end Chain

open Chain in
/-- Signed operands can be cancelled in front of tokens that are no signs of
the level. -/
theorem signed_cancel {level : Level} {bound : Nat}
    (operands : Cancels (@Operand.tokens level) (levelTightness level + 1) bound)
    {leftRest rightRest : List Token} (leftLoose : Loose (levelTightness level) leftRest)
    (rightLoose : Loose (levelTightness level) rightRest)
    {left right : List (Sign level × Operand level)}
    (short : (signedTokens left).length < bound)
    (tokensEq : signedTokens left ++ leftRest = signedTokens right ++ rightRest) :
    left = right ∧ leftRest = rightRest := by
  induction left generalizing right with
  | nil =>
      cases right with
      | nil => exact ⟨rfl, tokensEq⟩
      | cons entry signed =>
          simp only [signedTokens, List.flatMap_nil, List.nil_append, List.flatMap_cons,
            List.cons_append] at tokensEq
          rw [tokensEq, loose_cons, entry.1.tightness_token] at leftLoose
          exact absurd leftLoose (Nat.lt_irrefl _)
  | cons entry signed ih =>
      cases right with
      | nil =>
          simp only [signedTokens, List.flatMap_nil, List.nil_append, List.flatMap_cons,
            List.cons_append] at tokensEq
          rw [← tokensEq, loose_cons, entry.1.tightness_token] at rightLoose
          exact absurd rightLoose (Nat.lt_irrefl _)
      | cons entry' signed' =>
          simp only [signedTokens, List.flatMap_cons, List.cons_append, List.append_assoc,
            List.cons.injEq] at tokensEq
          obtain ⟨signEq, operandsEq⟩ := tokensEq
          simp only [signedTokens, List.flatMap_cons, List.cons_append, List.length_cons,
            List.length_append] at short
          obtain ⟨operandEq, signedEq⟩ := operands (by omega)
            (loose_signedTokens signed leftLoose) (loose_signedTokens signed' rightLoose)
            operandsEq
          obtain ⟨signedEq, restEq⟩ := ih (by rw [signedTokens]; omega) signedEq
          refine ⟨?_, restEq⟩
          rw [signedEq, Prod.ext (Sign.eq_of_token_eq signEq) operandEq]

theorem chains_cancel {level : Level} {bound : Nat}
    (operands : Cancels (@Operand.tokens level) (levelTightness level + 1) bound) :
    Cancels (@Chain.tokens level) (levelTightness level) bound := by
  intro left right leftRest rightRest short leftLoose rightLoose tokensEq
  rw [left.tokens_spine, List.length_append] at short
  rw [left.tokens_spine, right.tokens_spine, List.append_assoc, List.append_assoc] at tokensEq
  obtain ⟨operandEq, signedEq⟩ := operands (by omega)
    (Chain.loose_signedTokens _ leftLoose) (Chain.loose_signedTokens _ rightLoose) tokensEq
  obtain ⟨signedEq, restEq⟩ := signed_cancel operands leftLoose rightLoose (by omega) signedEq
  refine ⟨?_, restEq⟩
  rw [← left.foldl_spine, ← right.foldl_spine, operandEq, signedEq]

theorem productOperands_cancel {bound : Nat} (factors : Cancels Factor.tokens 3 bound) :
    Cancels (@Operand.tokens .product) (levelTightness .product + 1) bound := by
  intro left right leftRest rightRest short leftLoose rightLoose tokensEq
  cases left with
  | factor left =>
      cases right with
      | factor right =>
          obtain ⟨factorEq, restEq⟩ := factors short leftLoose rightLoose tokensEq
          exact ⟨congrArg _ factorEq, restEq⟩

theorem sumOperands_cancel {bound : Nat}
    (products : Cancels (@Chain.tokens .product) (levelTightness .product) bound) :
    Cancels (@Operand.tokens .sum) (levelTightness .sum + 1) bound := by
  intro left right leftRest rightRest short leftLoose rightLoose tokensEq
  cases left with
  | product left =>
      cases right with
      | product right =>
          obtain ⟨chainEq, restEq⟩ := products short leftLoose rightLoose tokensEq
          exact ⟨congrArg _ chainEq, restEq⟩

/-! ## Items and branches -/

/-- Sums with fewer tokens than the bound can be cancelled. -/
abbrev SumsCancel (bound : Nat) : Prop :=
  Cancels (@Chain.tokens .sum) (levelTightness .sum) bound

/-- A sum can be cancelled together with a token behind it that does not hold on
to expressions. -/
theorem SumsCancel.cons {bound : Nat} (sums : SumsCancel bound) {left right : Chain .sum}
    {leftToken rightToken : Token} {leftRest rightRest : List Token}
    (short : left.tokens.length < bound) (leftFree : tightness leftToken.kind = 0)
    (rightFree : tightness rightToken.kind = 0)
    (tokensEq : left.tokens ++ leftToken :: leftRest =
      right.tokens ++ rightToken :: rightRest) :
    left = right ∧ leftToken = rightToken ∧ leftRest = rightRest := by
  have loose : ∀ {token : Token} (rest : List Token), tightness token.kind = 0 →
      Loose (levelTightness .sum) (token :: rest) := by
    intro token rest free
    rw [loose_cons, free]
    decide
  obtain ⟨chainEq, restEq⟩ := sums short (loose leftRest leftFree) (loose rightRest rightFree)
    tokensEq
  exact ⟨chainEq, List.cons.inj restEq⟩

theorem itemsSome_cancel {bound : Nat} (sums : SumsCancel bound) {close : Kind}
    (closes : ClosesItems close) {leftClosing rightClosing : Terminal close}
    {leftRest rightRest : List Token} : (left right : ItemsSome) →
    left.tokens.length < bound →
    left.tokens ++ leftClosing.val :: leftRest = right.tokens ++ rightClosing.val :: rightRest →
    left = right ∧ leftClosing = rightClosing ∧ leftRest = rightRest
  | .last item, .last item', short, tokensEq => by
      obtain ⟨itemEq, closingEq, restEq⟩ := sums.cons short (by simp [closes.tightness_eq])
        (by simp [closes.tightness_eq]) tokensEq
      exact ⟨congrArg _ itemEq, Subtype.ext closingEq, restEq⟩
  | .last item, .more item' comma' others', short, tokensEq => by
      rw [ItemsSome.tokens, ItemsSome.tokens, List.append_assoc, List.cons_append] at tokensEq
      obtain ⟨-, closingEq, -⟩ := sums.cons short (by simp [closes.tightness_eq])
        (by simp [tightness]) tokensEq
      have kindEq := congrArg Token.kind closingEq
      rw [kind_terminal, kind_terminal] at kindEq
      exact absurd kindEq closes.ne_comma
  | .more item comma others, .last item', short, tokensEq => by
      rw [ItemsSome.tokens, List.length_append] at short
      rw [ItemsSome.tokens, ItemsSome.tokens, List.append_assoc, List.cons_append] at tokensEq
      obtain ⟨-, commaEq, -⟩ := sums.cons (by omega) (by simp [tightness])
        (by simp [closes.tightness_eq]) tokensEq
      have kindEq := congrArg Token.kind commaEq
      rw [kind_terminal, kind_terminal] at kindEq
      exact absurd kindEq.symm closes.ne_comma
  | .more item comma others, .more item' comma' others', short, tokensEq => by
      rw [ItemsSome.tokens, List.length_append, List.length_cons] at short
      rw [ItemsSome.tokens, ItemsSome.tokens, List.append_assoc, List.append_assoc,
        List.cons_append, List.cons_append] at tokensEq
      obtain ⟨itemEq, commaEq, othersEq⟩ := sums.cons (by omega) (by simp [tightness])
        (by simp [tightness]) tokensEq
      obtain ⟨othersEq, closingEq, restEq⟩ := itemsSome_cancel sums closes others others'
        (by omega) othersEq
      refine ⟨?_, closingEq, restEq⟩
      rw [itemEq, Subtype.ext commaEq, othersEq]

/-- A closing token is not the start of an item. -/
theorem ItemsSome.ne_closing {close : Kind} (closes : ClosesItems close) (items : ItemsSome)
    {closing : Terminal close} {rest behind : List Token} :
    closing.val :: rest ≠ items.tokens ++ behind := by
  intro tokensEq
  have passed := items.pass?_append closes behind
  rw [← tokensEq, Phrase.pass?_cons_of_eq rest closing.property] at passed
  cases passed

theorem items_cancel {bound : Nat} (sums : SumsCancel bound) {close : Kind}
    (closes : ClosesItems close) {left right : Items} {leftClosing rightClosing : Terminal close}
    {leftRest rightRest : List Token} (short : left.tokens.length < bound)
    (tokensEq : left.tokens ++ leftClosing.val :: leftRest =
      right.tokens ++ rightClosing.val :: rightRest) :
    left = right ∧ leftClosing = rightClosing ∧ leftRest = rightRest := by
  cases left with
  | empty =>
      cases right with
      | empty =>
          obtain ⟨closingEq, restEq⟩ := List.cons.inj tokensEq
          exact ⟨rfl, Subtype.ext closingEq, restEq⟩
      | listed items => exact absurd tokensEq (items.ne_closing closes)
  | listed items =>
      cases right with
      | empty => exact absurd tokensEq.symm (items.ne_closing closes)
      | listed items' =>
          obtain ⟨itemsEq, closingEq, restEq⟩ :=
            itemsSome_cancel sums closes items items' short tokensEq
          exact ⟨congrArg _ itemsEq, closingEq, restEq⟩

theorem branch_cancel {bound : Nat} (sums : SumsCancel bound) {left right : Branch}
    {leftRest rightRest : List Token} (short : left.tokens.length < bound)
    (tokensEq : left.tokens ++ leftRest = right.tokens ++ rightRest) :
    left = right ∧ leftRest = rightRest := by
  cases left with
  | mk left relation right colon result comma =>
      rename_i whole
      cases whole with
      | mk left' relation' right' colon' result' comma' =>
          simp only [Branch.tokens, List.append_assoc, List.cons_append, List.nil_append]
            at tokensEq
          simp only [Branch.tokens, List.length_append, List.length_cons] at short
          obtain ⟨leftEq, relationEq, tokensEq⟩ := sums.cons (by omega)
            relation.tightness_token relation'.tightness_token tokensEq
          obtain ⟨rightEq, colonEq, tokensEq⟩ := sums.cons (by omega) (by simp [tightness])
            (by simp [tightness]) tokensEq
          obtain ⟨resultEq, commaEq, restEq⟩ := sums.cons (by omega) (by simp [tightness])
            (by simp [tightness]) tokensEq
          refine ⟨?_, restEq⟩
          rw [leftEq, Relation.eq_of_token_eq relationEq, rightEq, Subtype.ext colonEq,
            resultEq, Subtype.ext commaEq]

/-- The default value is not a branch: the token behind its expression tells
them apart. -/
theorem Branch.ne_default {bound : Nat} (sums : SumsCancel bound) {otherwise : Chain .sum}
    {branch : Branch} (short : otherwise.tokens.length < bound ∨ branch.tokens.length < bound)
    (closing : Terminal .rbrace) (rest behind : List Token) :
    otherwise.tokens ++ closing.val :: rest ≠ branch.tokens ++ behind := by
  intro tokensEq
  cases branch with
  | mk left relation right colon result comma =>
      simp only [Branch.tokens, List.append_assoc, List.cons_append] at tokensEq
      have closingEq : closing.val = relation.token := by
        rcases short with short | short
        · exact (sums.cons short (by simp [tightness]) relation.tightness_token tokensEq).2.1
        · rw [Branch.tokens, List.length_append] at short
          exact (sums.cons (by omega) relation.tightness_token (by simp [tightness])
            tokensEq.symm).2.1.symm
      have comparison := relation.comparison?_token
      rw [← closingEq, kind_terminal] at comparison
      cases comparison

/-- The first of some branches. -/
theorem Branches.tokens_eq_append (branches : Branches) :
    ∃ (branch : Branch) (behind : List Token), branches.tokens = branch.tokens ++ behind := by
  cases branches with
  | last branch => exact ⟨branch, [], (List.append_nil _).symm⟩
  | more branch others => exact ⟨branch, others.tokens, rfl⟩

/-- The branches of a piecewise expression can be cancelled together with its
default value and its closing brace. -/
theorem branches_cancel {bound : Nat} (sums : SumsCancel bound)
    {leftOtherwise rightOtherwise : Chain .sum} {leftClosing rightClosing : Terminal .rbrace}
    {leftRest rightRest : List Token} : (left right : Branches) →
    left.tokens.length < bound → leftOtherwise.tokens.length < bound →
    left.tokens ++ (leftOtherwise.tokens ++ leftClosing.val :: leftRest) =
      right.tokens ++ (rightOtherwise.tokens ++ rightClosing.val :: rightRest) →
    left = right ∧ leftOtherwise = rightOtherwise ∧ leftClosing = rightClosing ∧
      leftRest = rightRest
  | .last branch, .last branch', short, otherwiseShort, tokensEq => by
      obtain ⟨branchEq, tokensEq⟩ := branch_cancel sums short tokensEq
      obtain ⟨otherwiseEq, closingEq, restEq⟩ := sums.cons otherwiseShort
        (by simp [tightness]) (by simp [tightness]) tokensEq
      exact ⟨congrArg _ branchEq, otherwiseEq, Subtype.ext closingEq, restEq⟩
  | .last branch, .more branch' others', short, otherwiseShort, tokensEq => by
      rw [Branches.tokens, Branches.tokens, List.append_assoc] at tokensEq
      obtain ⟨-, tokensEq⟩ := branch_cancel sums short tokensEq
      obtain ⟨next, behind, othersTokens⟩ := others'.tokens_eq_append
      rw [othersTokens, List.append_assoc] at tokensEq
      exact absurd tokensEq (Branch.ne_default sums (.inl otherwiseShort) _ _ _)
  | .more branch others, .last branch', short, _, tokensEq => by
      rw [Branches.tokens, List.length_append] at short
      rw [Branches.tokens, Branches.tokens, List.append_assoc] at tokensEq
      obtain ⟨-, tokensEq⟩ := branch_cancel sums (by omega) tokensEq
      obtain ⟨next, behind, othersTokens⟩ := others.tokens_eq_append
      rw [othersTokens, List.length_append] at short
      rw [othersTokens, List.append_assoc] at tokensEq
      exact absurd tokensEq.symm (Branch.ne_default sums (.inr (by omega)) _ _ _)
  | .more branch others, .more branch' others', short, otherwiseShort, tokensEq => by
      rw [Branches.tokens, List.length_append] at short
      rw [Branches.tokens, Branches.tokens, List.append_assoc, List.append_assoc] at tokensEq
      obtain ⟨branchEq, tokensEq⟩ := branch_cancel sums (by omega) tokensEq
      obtain ⟨othersEq, otherwiseEq, closingEq, restEq⟩ := branches_cancel sums others others'
        (by omega) otherwiseShort tokensEq
      refine ⟨?_, otherwiseEq, closingEq, restEq⟩
      rw [branchEq, othersEq]

/-! ## Primary expressions -/

theorem Primary.first_eq_of_tokens_eq {left right : Primary} {leftRest rightRest : List Token}
    (tokensEq : left.tokens ++ leftRest = right.tokens ++ rightRest) :
    left.first = right.first := by
  obtain ⟨leftBehind, leftTokens⟩ := left.tokens_eq_cons
  obtain ⟨rightBehind, rightTokens⟩ := right.tokens_eq_cons
  rw [leftTokens, rightTokens, List.cons_append, List.cons_append] at tokensEq
  exact (List.cons.inj tokensEq).1

/-- A name in front of tokens that do not hold on to it is not a call. -/
theorem Loose.ne_opening {rest behind : List Token} (loose : Loose 4 rest)
    (opening : Terminal .lparen) : rest ≠ opening.val :: behind := by
  intro restEq
  rw [restEq, loose_cons, opening.property] at loose
  exact absurd loose (by decide)

theorem primaries_cancel {bound : Nat} (sums : SumsCancel bound) :
    Cancels Primary.tokens 4 (bound + 1) := by
  intro left right leftRest rightRest short leftLoose rightLoose tokensEq
  have kindEq := congrArg Token.kind (Primary.first_eq_of_tokens_eq tokensEq)
  cases left with
  | number digits =>
      cases right with
      | number digits' =>
          obtain ⟨digitsEq, restEq⟩ := List.cons.inj tokensEq
          exact ⟨congrArg _ (Subtype.ext digitsEq), restEq⟩
      | _ => simp [Primary.first] at kindEq
  | negative minus digits =>
      cases right with
      | negative minus' digits' =>
          simp only [Primary.tokens, List.cons_append, List.nil_append, List.cons.injEq]
            at tokensEq
          obtain ⟨minusEq, digitsEq, restEq⟩ := tokensEq
          exact ⟨by rw [Subtype.ext minusEq, Subtype.ext digitsEq], restEq⟩
      | _ => simp [Primary.first] at kindEq
  | var name =>
      cases right with
      | var name' =>
          obtain ⟨nameEq, restEq⟩ := List.cons.inj tokensEq
          exact ⟨congrArg _ (Subtype.ext nameEq), restEq⟩
      | call name' opening' args' closing' =>
          exact absurd (List.cons.inj tokensEq).2 (leftLoose.ne_opening opening')
      | _ => simp [Primary.first] at kindEq
  | call name opening args closing =>
      cases right with
      | var name' =>
          exact absurd (List.cons.inj tokensEq).2.symm (rightLoose.ne_opening opening)
      | call name' opening' args' closing' =>
          simp only [Primary.tokens, List.length_cons, List.length_append] at short
          simp only [Primary.tokens, List.cons_append, List.append_assoc, List.nil_append,
            List.cons.injEq] at tokensEq
          obtain ⟨nameEq, openingEq, argsEq⟩ := tokensEq
          obtain ⟨argsEq, closingEq, restEq⟩ := items_cancel sums (.inl rfl) (by omega) argsEq
          refine ⟨?_, restEq⟩
          rw [Subtype.ext nameEq, Subtype.ext openingEq, argsEq, closingEq]
      | _ => simp [Primary.first] at kindEq
  | macroCall name opening args closing =>
      cases right with
      | macroCall name' opening' args' closing' =>
          simp only [Primary.tokens, List.length_cons, List.length_append] at short
          simp only [Primary.tokens, List.cons_append, List.append_assoc, List.nil_append,
            List.cons.injEq] at tokensEq
          obtain ⟨nameEq, openingEq, argsEq⟩ := tokensEq
          obtain ⟨argsEq, closingEq, restEq⟩ := items_cancel sums (.inl rfl) (by omega) argsEq
          refine ⟨?_, restEq⟩
          rw [Subtype.ext nameEq, Subtype.ext openingEq, argsEq, closingEq]
      | _ => simp [Primary.first] at kindEq
  | group opening inner closing =>
      cases right with
      | group opening' inner' closing' =>
          simp only [Primary.tokens, List.length_cons, List.length_append] at short
          simp only [Primary.tokens, List.cons_append, List.append_assoc, List.nil_append,
            List.cons.injEq] at tokensEq
          obtain ⟨openingEq, innerEq⟩ := tokensEq
          obtain ⟨innerEq, closingEq, restEq⟩ := sums.cons (by omega) (by simp [tightness])
            (by simp [tightness]) innerEq
          refine ⟨?_, restEq⟩
          rw [Subtype.ext openingEq, innerEq, Subtype.ext closingEq]
      | _ => simp [Primary.first] at kindEq
  | list opening items closing =>
      cases right with
      | list opening' items' closing' =>
          simp only [Primary.tokens, List.length_cons, List.length_append] at short
          simp only [Primary.tokens, List.cons_append, List.append_assoc, List.nil_append,
            List.cons.injEq] at tokensEq
          obtain ⟨openingEq, itemsEq⟩ := tokensEq
          obtain ⟨itemsEq, closingEq, restEq⟩ := items_cancel sums (.inr rfl) (by omega) itemsEq
          refine ⟨?_, restEq⟩
          rw [Subtype.ext openingEq, itemsEq, closingEq]
      | _ => simp [Primary.first] at kindEq
  | piecewise opening branches otherwise closing =>
      cases right with
      | piecewise opening' branches' otherwise' closing' =>
          simp only [Primary.tokens, List.length_cons, List.length_append] at short
          simp only [Primary.tokens, List.cons_append, List.append_assoc, List.nil_append,
            List.cons.injEq] at tokensEq
          obtain ⟨openingEq, branchesEq⟩ := tokensEq
          obtain ⟨branchesEq, otherwiseEq, closingEq, restEq⟩ := branches_cancel sums branches
            branches' (by omega) (by omega) branchesEq
          refine ⟨?_, restEq⟩
          rw [Subtype.ext openingEq, branchesEq, otherwiseEq, closingEq]
      | _ => simp [Primary.first] at kindEq

/-! ## All expressions -/

theorem sums_cancel (bound : Nat) : SumsCancel bound := by
  induction bound with
  | zero =>
      intro left right leftRest rightRest short
      exact absurd short (Nat.not_lt_zero _)
  | succ bound sums =>
      have factors := factors_cancel (primaries_cancel sums)
      have products := chains_cancel (productOperands_cancel factors)
      exact chains_cancel (sumOperands_cancel products)

/-- The tokens of a sum determine its derivation. -/
theorem Chain.eq_of_tokens_eq {left right : Chain .sum} (tokensEq : left.tokens = right.tokens) :
    left = right := by
  have appended : left.tokens ++ [] = right.tokens ++ [] := by
    rw [tokensEq]
  exact (sums_cancel _ (Nat.lt_succ_self _) (loose_nil _) (loose_nil _) appended).1

/-! ## Statements -/

theorem TypeName.eq_of_token_eq {left right : TypeName} (tokenEq : left.token = right.token) :
    left = right := by
  have textEq := congrArg Token.text tokenEq
  cases left with
  | number first =>
      cases right with
      | number second => exact congrArg _ (Subtype.ext (Subtype.ext tokenEq))
      | list second =>
          rw [TypeName.token, TypeName.token, first.property, second.property] at textEq
          exact absurd textEq (by decide)
  | list first =>
      cases right with
      | number second =>
          rw [TypeName.token, TypeName.token, first.property, second.property] at textEq
          exact absurd textEq (by decide)
      | list second => exact congrArg _ (Subtype.ext (Subtype.ext tokenEq))

theorem parameter_cancel {left right : Parameter} {leftRest rightRest : List Token}
    (tokensEq : left.tokens ++ leftRest = right.tokens ++ rightRest) :
    left = right ∧ leftRest = rightRest := by
  obtain ⟨name, colon, type⟩ := left
  obtain ⟨name', colon', type'⟩ := right
  simp only [Parameter.tokens, List.cons_append, List.nil_append, List.cons.injEq] at tokensEq
  obtain ⟨nameEq, colonEq, typeEq, restEq⟩ := tokensEq
  refine ⟨?_, restEq⟩
  rw [Subtype.ext (Subtype.ext nameEq), Subtype.ext colonEq, TypeName.eq_of_token_eq typeEq]

theorem Terminal.val_ne {leftKind rightKind : Kind} (left : Terminal leftKind)
    (right : Terminal rightKind) (kindNe : leftKind ≠ rightKind) : left.val ≠ right.val := by
  intro tokenEq
  have kindEq := congrArg Token.kind tokenEq
  rw [kind_terminal, kind_terminal] at kindEq
  exact kindNe kindEq

theorem parametersSome_cancel {leftClosing rightClosing : Terminal .rparen}
    {leftRest rightRest : List Token} : (left right : ParametersSome) →
    left.tokens ++ leftClosing.val :: leftRest = right.tokens ++ rightClosing.val :: rightRest →
    left = right ∧ leftClosing = rightClosing ∧ leftRest = rightRest
  | .last parameter, .last parameter', tokensEq => by
      obtain ⟨parameterEq, tokensEq⟩ := parameter_cancel tokensEq
      obtain ⟨closingEq, restEq⟩ := List.cons.inj tokensEq
      exact ⟨congrArg _ parameterEq, Subtype.ext closingEq, restEq⟩
  | .last parameter, .more parameter' comma' others', tokensEq => by
      rw [ParametersSome.tokens, ParametersSome.tokens, List.append_assoc, List.cons_append]
        at tokensEq
      obtain ⟨-, tokensEq⟩ := parameter_cancel tokensEq
      exact absurd (List.cons.inj tokensEq).1 (Terminal.val_ne leftClosing comma' (by decide))
  | .more parameter comma others, .last parameter', tokensEq => by
      rw [ParametersSome.tokens, ParametersSome.tokens, List.append_assoc, List.cons_append]
        at tokensEq
      obtain ⟨-, tokensEq⟩ := parameter_cancel tokensEq
      exact absurd (List.cons.inj tokensEq).1 (Terminal.val_ne comma rightClosing (by decide))
  | .more parameter comma others, .more parameter' comma' others', tokensEq => by
      rw [ParametersSome.tokens, ParametersSome.tokens, List.append_assoc, List.append_assoc,
        List.cons_append, List.cons_append] at tokensEq
      obtain ⟨parameterEq, tokensEq⟩ := parameter_cancel tokensEq
      obtain ⟨commaEq, tokensEq⟩ := List.cons.inj tokensEq
      obtain ⟨othersEq, closingEq, restEq⟩ := parametersSome_cancel others others' tokensEq
      refine ⟨?_, closingEq, restEq⟩
      rw [parameterEq, Subtype.ext commaEq, othersEq]

/-- The first token of parameters, of which there is at least one, is a name. -/
theorem ParametersSome.ne_closing (parameters : ParametersSome) (closing : Terminal .rparen)
    (rest behind : List Token) : closing.val :: rest ≠ parameters.tokens ++ behind := by
  intro tokensEq
  cases parameters with
  | last parameter | more parameter comma others =>
      exact Terminal.val_ne closing parameter.name.val (by decide) (List.cons.inj tokensEq).1

theorem parameters_cancel {left right : Parameters} {leftClosing rightClosing : Terminal .rparen}
    {leftRest rightRest : List Token}
    (tokensEq : left.tokens ++ leftClosing.val :: leftRest =
      right.tokens ++ rightClosing.val :: rightRest) :
    left = right ∧ leftClosing = rightClosing ∧ leftRest = rightRest := by
  cases left with
  | empty =>
      cases right with
      | empty =>
          obtain ⟨closingEq, restEq⟩ := List.cons.inj tokensEq
          exact ⟨rfl, Subtype.ext closingEq, restEq⟩
      | listed parameters => exact absurd tokensEq (parameters.ne_closing _ _ _)
  | listed parameters =>
      cases right with
      | empty => exact absurd tokensEq.symm (parameters.ne_closing _ _ _)
      | listed parameters' =>
          obtain ⟨parametersEq, closingEq, restEq⟩ :=
            parametersSome_cancel parameters parameters' tokensEq
          exact ⟨congrArg _ parametersEq, closingEq, restEq⟩

theorem returns_cancel {left right : Returns} {leftSign rightSign : Terminal .assign}
    {leftRest rightRest : List Token}
    (tokensEq : left.tokens ++ leftSign.val :: leftRest =
      right.tokens ++ rightSign.val :: rightRest) :
    left = right ∧ leftSign = rightSign ∧ leftRest = rightRest := by
  cases left with
  | inferred =>
      cases right with
      | inferred =>
          obtain ⟨signEq, restEq⟩ := List.cons.inj tokensEq
          exact ⟨rfl, Subtype.ext signEq, restEq⟩
      | announced colon type =>
          exact absurd (List.cons.inj tokensEq).1 (Terminal.val_ne leftSign colon (by decide))
  | announced colon type =>
      cases right with
      | inferred =>
          exact absurd (List.cons.inj tokensEq).1 (Terminal.val_ne colon rightSign (by decide))
      | announced colon' type' =>
          simp only [Returns.tokens, List.cons_append, List.nil_append, List.cons.injEq]
            at tokensEq
          obtain ⟨colonEq, typeEq, signEq, restEq⟩ := tokensEq
          refine ⟨?_, Subtype.ext signEq, restEq⟩
          rw [Subtype.ext colonEq, TypeName.eq_of_token_eq typeEq]

/-- No line is an expression and a definition at once. -/
theorem Statement.expr_tokens_ne (value : Chain .sum) (name : FreeName)
    (opening : Terminal .lparen) (parameters : Parameters) (closing : Terminal .rparen)
    (returns : Returns) (sign : Terminal .assign) (body : Chain .sum) :
    (Statement.expr value).tokens ≠
      (Statement.define name opening parameters closing returns sign body).tokens := by
  intro tokensEq
  have notDefinition := startsDefinition_of_takeLevel (value.takeLevel_tokens value.first)
  have definition := Statement.startsDefinition_define name opening parameters closing returns
    sign body
  rw [← tokensEq, Statement.tokens, notDefinition] at definition
  cases definition

/-- The tokens of a line determine its derivation. -/
theorem Statement.eq_of_tokens_eq {left right : Statement}
    (tokensEq : left.tokens = right.tokens) : left = right := by
  cases left with
  | expr value =>
      cases right with
      | expr value' => exact congrArg _ (Chain.eq_of_tokens_eq tokensEq)
      | define => exact absurd tokensEq (Statement.expr_tokens_ne _ _ _ _ _ _ _ _)
  | define name opening parameters closing returns sign body =>
      cases right with
      | expr => exact absurd tokensEq.symm (Statement.expr_tokens_ne _ _ _ _ _ _ _ _)
      | define name' opening' parameters' closing' returns' sign' body' =>
          simp only [Statement.tokens, List.cons.injEq] at tokensEq
          obtain ⟨nameEq, openingEq, tokensEq⟩ := tokensEq
          obtain ⟨parametersEq, closingEq, tokensEq⟩ := parameters_cancel tokensEq
          obtain ⟨returnsEq, signEq, bodyEq⟩ := returns_cancel tokensEq
          rw [Subtype.ext (Subtype.ext nameEq), Subtype.ext openingEq, parametersEq, closingEq,
            returnsEq, signEq, Chain.eq_of_tokens_eq bodyEq]

end GraphCalc.Grammar
