import GraphCalc.Proofs.Syntax.Grammar
import GraphCalc.Proofs.Syntax.Reading

/-!
# Every derivation is read

A reader that is given the tokens of a derivation, followed by tokens that do
not hold on to it, returns the tree of the derivation and stops in front of
those tokens.

The two left-recursive levels are read by loops.  For them the statement is
about the state of the loop: having read a chain, the reader is as far as its
loop would be with the tree of the chain as the left operand.
-/

namespace GraphCalc.Grammar

open GraphCalc.Expr Phrase

/-- Behind an expression that no sign of its level holds on to, the loop over
the signs ends. -/
theorem takeTail_of_loose {stop : Token} {level : Level} {rest : List Token} (left : Expr)
    (loose : Loose (levelTightness level) rest) :
    takeTail stop level left rest = .ok (left, rest) := by
  cases rest with
  | nil => exact takeTail_nil stop level left
  | cons token behind => exact takeTail_of_none left behind loose.operator?_eq_none

/-- Behind an expression without a factorial mark, the loop over the marks
ends. -/
theorem takeMarks_of_loose {rest : List Token} (operand : Expr) (loose : Loose 3 rest) :
    takeMarks operand rest = (operand, rest) := by
  cases rest with
  | nil => exact takeMarks_nil operand
  | cons token behind =>
      apply takeMarks_of_ne
      intro mark
      rw [loose_cons, mark] at loose
      exact absurd loose (by decide)

/-- The loop over the signs of a sum ends in front of a token that does not
hold on to expressions at all. -/
theorem takeLevel_sum_of_tail {stop token : Token} {chain : Chain .sum} (rest : List Token)
    (free : tightness token.kind = 0)
    (toLoop : ∀ rest, Loose (levelTightness .sum + 1) rest →
      takeLevel stop .sum (chain.tokens ++ rest) = takeTail stop .sum chain.tree rest) :
    takeLevel stop .sum (chain.tokens ++ token :: rest) = .ok (chain.tree, token :: rest) := by
  have loose : ∀ limit, 0 < limit → Loose limit (token :: rest) := by
    intro limit positive
    rw [loose_cons, free]
    exact positive
  rw [toLoop _ (loose 2 (by decide))]
  exact takeTail_of_loose chain.tree (loose 1 (by decide))

/-- The kinds that may close a list of items. -/
def ClosesItems (kind : Kind) : Prop :=
  kind = .rparen ∨ kind = .rbrack

theorem ClosesItems.tightness_eq {kind : Kind} (closes : ClosesItems kind) :
    tightness kind = 0 := by
  rcases closes with rfl | rfl <;> rfl

theorem ClosesItems.ne_comma {kind : Kind} (closes : ClosesItems kind) : kind ≠ .comma := by
  rcases closes with rfl | rfl <;> decide

theorem ClosesItems.not_starts {kind : Kind} (closes : ClosesItems kind) :
    startsExpression kind = false := by
  rcases closes with rfl | rfl <;> rfl

/-- A list of items that is not empty does not start with its closing token. -/
theorem ItemsSome.pass?_append {close : Kind} (closes : ClosesItems close) (items : ItemsSome)
    (rest : List Token) : pass? close (items.tokens ++ rest) = none := by
  have startNe : ∀ chain : Chain .sum, chain.first.kind ≠ close := by
    intro chain firstCloses
    have starts := chain.startsExpression_first
    rw [firstCloses, closes.not_starts] at starts
    exact absurd starts (by decide)
  cases items with
  | last item =>
      obtain ⟨behind, tokensEq⟩ := item.tokens_eq_cons
      rw [ItemsSome.tokens, tokensEq, List.cons_append]
      exact pass?_cons_of_ne _ (startNe item)
  | more item comma others =>
      obtain ⟨behind, tokensEq⟩ := item.tokens_eq_cons
      rw [ItemsSome.tokens, tokensEq, List.append_assoc, List.cons_append]
      exact pass?_cons_of_ne _ (startNe item)

mutual

/-- A chain brings the reader of its level to the loop over the signs behind
it. -/
theorem Chain.takeLevel_append (stop : Token) {level : Level} (rest : List Token)
    (loose : Loose (levelTightness level + 1) rest) : (chain : Chain level) →
    takeLevel stop level (chain.tokens ++ rest) = takeTail stop level chain.tree rest
  | .operand only => by
      rw [takeLevel_eq, Chain.tokens, only.takeOperand_append stop rest loose]
      rfl
  | .join left sign right => by
      have signLoose : Loose (levelTightness level + 1)
          (sign.token :: (right.tokens ++ rest)) := by
        rw [loose_cons, sign.tightness_token]
        exact Nat.lt_succ_self _
      rw [Chain.tokens, List.append_assoc, List.cons_append,
        left.takeLevel_append stop _ signLoose,
        takeTail_of_some left.tree _ sign.operator?_token,
        right.takeOperand_append stop rest loose]
      rfl

theorem Operand.takeOperand_append (stop : Token) {level : Level} (rest : List Token)
    (loose : Loose (levelTightness level + 1) rest) : (operand : Operand level) →
    takeOperand stop level (operand.tokens ++ rest) = .ok (operand.tree, rest)
  | .product chain => by
      rw [takeOperand_sum, Operand.tokens,
        chain.takeLevel_append stop rest (loose.mono (by decide)),
        takeTail_of_loose chain.tree (show Loose (levelTightness .product) rest from loose)]
      rfl
  | .factor factor => by
      rw [takeOperand_product, Operand.tokens,
        factor.takeFactor_append stop rest (loose.mono (by decide)),
        takeMarks_of_loose factor.tree loose]
      rfl

/-- A factor brings its reader to the loop over the marks behind it. -/
theorem Factor.takeFactor_append (stop : Token) (rest : List Token) (loose : Loose 4 rest) :
    (factor : Factor) →
    takeFactor stop (factor.tokens ++ rest) = .ok (takeMarks factor.tree rest)
  | .primary only => by
      rw [takeFactor_eq, Factor.tokens, only.takePrimary_append stop rest loose]
      rfl
  | .marked operand mark => by
      have markLoose : Loose 4 (mark.val :: rest) := by
        rw [loose_cons, mark.property]
        decide
      rw [Factor.tokens, List.append_assoc, List.singleton_append,
        operand.takeFactor_append stop _ markLoose,
        takeMarks_of_eq operand.tree rest mark.property]
      rfl

theorem Primary.takePrimary_append (stop : Token) (rest : List Token) (loose : Loose 4 rest) :
    (primary : Primary) →
    takePrimary stop (primary.tokens ++ rest) = .ok (primary.tree, rest)
  | .number digits => by
      rw [Primary.tokens, List.singleton_append, takePrimary_cons, digits.property]
      rfl
  | .negative minus digits => by
      rw [Primary.tokens, List.cons_append, List.singleton_append, takePrimary_cons,
        minus.property]
      simp only
      rw [pass?_cons_of_eq rest digits.property]
      rfl
  | .var name => by
      have noParen : pass? .lparen rest = none := by
        cases rest with
        | nil => rfl
        | cons token behind =>
            apply pass?_cons_of_ne
            intro opening
            rw [loose_cons, opening] at loose
            exact absurd loose (by decide)
      rw [Primary.tokens, List.singleton_append, takePrimary_cons, name.property]
      simp only
      rw [noParen]
      rfl
  | .call name opening args closing => by
      have readArgs := args.takeItems_append stop rest (.inl rfl) closing
      rw [Primary.tokens, List.cons_append, List.cons_append, List.append_assoc,
        List.singleton_append, takePrimary_cons, name.property]
      simp only
      rw [pass?_cons_of_eq _ opening.property]
      simp only
      rw [readArgs]
      rfl
  | .macroCall name opening args closing => by
      have readArgs := args.takeItems_append stop rest (.inl rfl) closing
      rw [Primary.tokens, List.cons_append, List.cons_append, List.append_assoc,
        List.singleton_append, takePrimary_cons, name.property]
      simp only
      rw [take_cons_of_eq stop _ opening.property]
      simp only [bind, Except.bind] at readArgs ⊢
      rw [readArgs]
      rfl
  | .group opening inner closing => by
      have readInner := takeLevel_sum_of_tail rest
        (show tightness closing.val.kind = 0 by rw [closing.property]; rfl)
        (fun rest loose => inner.takeLevel_append stop rest loose)
      rw [Primary.tokens, List.cons_append, List.append_assoc, List.singleton_append,
        takePrimary_cons, opening.property]
      simp only
      rw [readInner]
      simp only [bind, Except.bind]
      rw [take_cons_of_eq stop rest closing.property]
      rfl
  | .list opening items closing => by
      have readItems := items.takeItems_append stop rest (.inr rfl) closing
      rw [Primary.tokens, List.cons_append, List.append_assoc, List.singleton_append,
        takePrimary_cons, opening.property]
      simp only
      rw [readItems]
      rfl
  | .piecewise opening branches otherwise closing => by
      have readBranches := branches.takeClauses_append stop
        (otherwise.tokens ++ closing.val :: rest)
      have readOtherwise := takeLevel_sum_of_tail rest
        (show tightness closing.val.kind = 0 by rw [closing.property]; rfl)
        (fun rest loose => otherwise.takeLevel_append stop rest loose)
      have readDefault : takeClauses stop (otherwise.tokens ++ closing.val :: rest) =
          .ok (([], otherwise.tree, closing.val), rest) := by
        rw [takeClauses_eq, readOtherwise]
        simp only [bind, Except.bind, closing.property, Kind.comparison?]
        rw [take_cons_of_eq stop rest closing.property]
      rw [readDefault] at readBranches
      rw [Primary.tokens, List.cons_append, List.append_assoc, List.append_assoc,
        List.singleton_append, takePrimary_cons, opening.property]
      simp only
      rw [readBranches]
      simp only [bind, Except.bind, List.append_nil]
      rfl

theorem Items.takeItems_append (stop : Token) (rest : List Token) {close : Kind}
    (closes : ClosesItems close) (closing : Terminal close) : (items : Items) →
    takeItems stop close (items.tokens ++ closing.val :: rest) =
      .ok ((items.trees, closing.val), rest)
  | .empty => by
      rw [takeItems_eq, Items.tokens, List.nil_append, pass?_cons_of_eq rest closing.property]
      rfl
  | .listed items => by
      rw [takeItems_eq, Items.tokens, items.pass?_append closes,
        items.takeItemsSome_append stop rest closes closing]
      rfl

theorem ItemsSome.takeItemsSome_append (stop : Token) (rest : List Token) {close : Kind}
    (closes : ClosesItems close) (closing : Terminal close) : (items : ItemsSome) →
    takeItemsSome stop close (items.tokens ++ closing.val :: rest) =
      .ok ((items.trees, closing.val), rest)
  | .last item => by
      have readItem := takeLevel_sum_of_tail rest
        (show tightness closing.val.kind = 0 by rw [closing.property, closes.tightness_eq])
        (fun rest loose => item.takeLevel_append stop rest loose)
      have noComma : closing.val.kind ≠ .comma := by
        rw [closing.property]
        exact closes.ne_comma
      rw [takeItemsSome_eq, ItemsSome.tokens, readItem]
      simp only [bind, Except.bind]
      rw [pass?_cons_of_ne rest noComma, take_cons_of_eq stop rest closing.property]
      rfl
  | .more item comma others => by
      have readItem := takeLevel_sum_of_tail (others.tokens ++ closing.val :: rest)
        (show tightness comma.val.kind = 0 by rw [comma.property]; rfl)
        (fun rest loose => item.takeLevel_append stop rest loose)
      rw [takeItemsSome_eq, ItemsSome.tokens, List.append_assoc, List.cons_append, readItem]
      simp only [bind, Except.bind]
      rw [pass?_cons_of_eq _ comma.property]
      simp only
      rw [others.takeItemsSome_append stop rest closes closing]
      rfl

theorem Branch.takeClauses_append (stop : Token) (rest : List Token) : (branch : Branch) →
    takeClauses stop (branch.tokens ++ rest) =
      takeClauses stop rest >>= fun read =>
        .ok ((branch.clause :: read.1.1, read.1.2), read.2)
  | .mk left relation right colon result comma => by
      have readResult := takeLevel_sum_of_tail rest
        (show tightness comma.val.kind = 0 by rw [comma.property]; rfl)
        (fun rest loose => result.takeLevel_append stop rest loose)
      have readRight := takeLevel_sum_of_tail (result.tokens ++ comma.val :: rest)
        (show tightness colon.val.kind = 0 by rw [colon.property]; rfl)
        (fun rest loose => right.takeLevel_append stop rest loose)
      have readLeft := takeLevel_sum_of_tail
        (right.tokens ++ colon.val :: (result.tokens ++ comma.val :: rest))
        relation.tightness_token (fun rest loose => left.takeLevel_append stop rest loose)
      rw [takeClauses_eq]
      simp only [Branch.tokens, List.append_assoc, List.cons_append, List.nil_append]
      rw [readLeft]
      simp only [bind, Except.bind, relation.comparison?_token]
      rw [readRight]
      simp only
      rw [take_cons_of_eq stop _ colon.property]
      simp only
      rw [readResult]
      simp only
      rw [pass?_cons_of_eq rest comma.property]
      rfl

theorem Branches.takeClauses_append (stop : Token) (rest : List Token) :
    (branches : Branches) →
    takeClauses stop (branches.tokens ++ rest) =
      takeClauses stop rest >>= fun read =>
        .ok ((branches.firstClause :: (branches.otherClauses ++ read.1.1), read.1.2), read.2)
  | .last branch => branch.takeClauses_append stop rest
  | .more branch others => by
      rw [Branches.tokens, List.append_assoc, branch.takeClauses_append stop _,
        others.takeClauses_append stop rest]
      cases takeClauses stop rest <;> rfl

end

/-! ## Definitions -/

theorem TypeName.ofName?_token (type : TypeName) :
    ValueType.ofName? type.token.text = some type.type := by
  cases type with
  | number token =>
      rw [TypeName.token, token.property]
      rfl
  | list token =>
      rw [TypeName.token, token.property]
      rfl

theorem TypeName.kind_token (type : TypeName) : type.token.kind = .ident := by
  cases type with
  | number token => exact token.val.property
  | list token => exact token.val.property

theorem TypeName.take_cons (stop : Token) (rest : List Token) (type : TypeName) :
    ValueType.take stop (type.token :: rest) = .ok ((type.token, type.type), rest) := by
  rw [ValueType.take_eq, Phrase.take_cons_of_eq stop rest type.kind_token]
  simp only [bind, Except.bind, type.ofName?_token]

theorem FreeName.isReserved_eq (name : FreeName) :
    ValueType.isReserved name.val.val.text = false := by
  rw [ValueType.isReserved]
  simpa using name.property

theorem Parameter.take_append (stop : Token) (rest : List Token) (parameter : Parameter) :
    Param.take stop (parameter.tokens ++ rest) = .ok (parameter.tree, rest) := by
  rw [Param.take_eq, Parameter.tokens]
  simp only [List.cons_append, List.nil_append]
  rw [Phrase.take_cons_of_eq stop _ parameter.name.val.property]
  simp only [bind, Except.bind, FreeName.isReserved_eq, Bool.false_eq_true, if_false]
  rw [Phrase.take_cons_of_eq stop _ parameter.colon.property]
  simp only
  rw [TypeName.take_cons stop rest parameter.type]
  rfl

theorem ParametersSome.takeSome_append (stop : Token) (rest : List Token)
    (closing : Terminal .rparen) (parameters : ParametersSome) :
    Param.takeSome stop (parameters.tokens ++ closing.val :: rest) =
      .ok (parameters.trees, rest) := by
  induction parameters with
  | last parameter =>
      have noComma : closing.val.kind ≠ .comma := by
        rw [closing.property]
        decide
      rw [Param.takeSome_eq, ParametersSome.tokens, parameter.take_append]
      simp only [bind, Except.bind]
      rw [pass?_cons_of_ne rest noComma, Phrase.take_cons_of_eq stop rest closing.property]
      rfl
  | more parameter comma others ih =>
      rw [Param.takeSome_eq, ParametersSome.tokens, List.append_assoc, List.cons_append,
        parameter.take_append]
      simp only [bind, Except.bind]
      rw [pass?_cons_of_eq _ comma.property]
      simp only
      rw [ih]
      rfl

theorem Parameters.takeAll_append (stop : Token) (rest : List Token)
    (closing : Terminal .rparen) (parameters : Parameters) :
    Param.takeAll stop (parameters.tokens ++ closing.val :: rest) =
      .ok (parameters.trees, rest) := by
  cases parameters with
  | empty =>
      rw [Param.takeAll_eq, Parameters.tokens, List.nil_append,
        pass?_cons_of_eq rest closing.property]
      rfl
  | listed parameters =>
      have noClosing : pass? .rparen (parameters.tokens ++ closing.val :: rest) = none := by
        cases parameters with
        | last parameter | more parameter comma others =>
            apply pass?_cons_of_ne
            rw [parameter.name.val.property]
            decide
      rw [Param.takeAll_eq, Parameters.tokens, noClosing, parameters.takeSome_append]
      rfl

theorem Returns.readReturns_append (stop : Token) (rest : List Token)
    (sign : Terminal .assign) (returns : Returns) :
    Stmt.readReturns stop (returns.tokens ++ sign.val :: rest) =
      .ok (returns.type?, sign.val :: rest) := by
  cases returns with
  | inferred =>
      have noColon : sign.val.kind ≠ .colon := by
        rw [sign.property]
        decide
      rw [Stmt.readReturns_eq, Returns.tokens, List.nil_append, pass?_cons_of_ne rest noColon]
      rfl
  | announced colon type =>
      rw [Stmt.readReturns_eq, Returns.tokens]
      simp only [List.cons_append, List.nil_append]
      rw [pass?_cons_of_eq _ colon.property]
      simp only
      rw [type.take_cons]
      rfl

/-! ## Telling definitions from expressions -/

/-- A primary expression in front of a token that does not hold on to it is
read as a whole sum. -/
theorem takeLevel_sum_of_takePrimary {stop token : Token} {tokens rest : List Token}
    {tree : Expr} (free : tightness token.kind = 0)
    (primary : takePrimary stop tokens = .ok (tree, token :: rest)) :
    takeLevel stop .sum tokens = .ok (tree, token :: rest) := by
  have loose : ∀ limit, 0 < limit → Loose limit (token :: rest) := by
    intro limit positive
    rw [loose_cons, free]
    exact positive
  have factor : takeFactor stop tokens = .ok (tree, token :: rest) := by
    rw [takeFactor_eq, primary]
    simp only [bind, Except.bind]
    rw [takeMarks_of_loose tree (loose 3 (by decide))]
  have product : takeLevel stop .product tokens = .ok (tree, token :: rest) := by
    rw [takeLevel_eq, takeOperand_product, factor]
    exact takeTail_of_loose tree (loose 2 (by decide))
  rw [takeLevel_eq, takeOperand_sum, product]
  exact takeTail_of_loose tree (loose 1 (by decide))

/-- Tokens that are an expression from the first to the last do not start a
definition.  The look-ahead sees a colon or an equality sign where an
expression would have ended. -/
theorem startsDefinition_of_takeLevel {stop : Token} {tokens : List Token} {tree : Expr}
    (read : takeLevel stop .sum tokens = .ok (tree, [])) :
    Stmt.startsDefinition tokens = false := by
  rw [Bool.eq_false_iff]
  intro starts
  unfold Stmt.startsDefinition at starts
  split at starts
  · rename_i name opening third fourth more
    simp only [Bool.and_eq_true, Bool.or_eq_true, decide_eq_true_eq] at starts
    obtain ⟨⟨isName, opens⟩, ⟨closes, ends⟩ | ⟨isParameter, colon⟩⟩ := starts
    · -- a call without arguments, and the sign behind it is left over
      have free : tightness fourth.kind = 0 := by
        rcases ends with fourthKind | fourthKind <;> rw [fourthKind] <;> rfl
      have call : takePrimary stop (name :: opening :: third :: fourth :: more) =
          .ok (.call (name.spanTo third) .normal name.text [], fourth :: more) := by
        rw [takePrimary_cons, isName]
        simp only
        rw [pass?_cons_of_eq _ opens]
        simp only
        rw [takeItems_eq, pass?_cons_of_eq _ closes]
        rfl
      rw [takeLevel_sum_of_takePrimary free call] at read
      simp at read
    · -- a call whose first argument is cut off by the colon
      have free : tightness fourth.kind = 0 := by
        rw [colon]
        rfl
      have noClose : third.kind ≠ .rparen := by
        rw [isParameter]
        decide
      have noParen : fourth.kind ≠ .lparen := by
        rw [colon]
        decide
      have noComma : fourth.kind ≠ .comma := by
        rw [colon]
        decide
      have noEnd : fourth.kind ≠ .rparen := by
        rw [colon]
        decide
      have firstArg : takePrimary stop (third :: fourth :: more) =
          .ok (.var third.span third.text, fourth :: more) := by
        rw [takePrimary_cons, isParameter]
        simp only
        rw [pass?_cons_of_ne more noParen]
      have items : takeItems stop .rparen (third :: fourth :: more) =
          .error (.blaming fourth (.expectedKind .rparen)) := by
        rw [takeItems_eq, pass?_cons_of_ne _ noClose]
        simp only
        rw [takeItemsSome_eq, takeLevel_sum_of_takePrimary free firstArg]
        simp only [bind, Except.bind]
        rw [pass?_cons_of_ne more noComma, take_cons_of_ne stop more noEnd]
      have primary : takePrimary stop (name :: opening :: third :: fourth :: more) =
          .error (.blaming fourth (.expectedKind .rparen)) := by
        rw [takePrimary_cons, isName]
        simp only
        rw [pass?_cons_of_eq _ opens]
        simp only
        rw [items]
        rfl
      rw [takeLevel_eq, takeOperand_sum, takeLevel_eq, takeOperand_product, takeFactor_eq,
        primary] at read
      simp [bind, Except.bind] at read
  · exact absurd starts (by decide)

/-- The sum at the end of a line is read to the end. -/
theorem Chain.takeLevel_tokens (stop : Token) (chain : Chain .sum) :
    takeLevel stop .sum chain.tokens = .ok (chain.tree, []) := by
  have toLoop := chain.takeLevel_append stop [] (loose_nil _)
  rw [List.append_nil] at toLoop
  rw [toLoop, takeTail_nil]

theorem Statement.startsDefinition_define (name : FreeName) (opening : Terminal .lparen)
    (parameters : Parameters) (closing : Terminal .rparen) (returns : Returns)
    (sign : Terminal .assign) (body : Chain .sum) :
    Stmt.startsDefinition
      (Statement.define name opening parameters closing returns sign body).tokens = true := by
  rw [Statement.tokens]
  cases parameters with
  | empty =>
      cases returns with
      | inferred =>
          simp [Parameters.tokens, Returns.tokens, Stmt.startsDefinition, name.val.property,
            opening.property, closing.property, sign.property]
      | announced colon type =>
          simp [Parameters.tokens, Returns.tokens, Stmt.startsDefinition, name.val.property,
            opening.property, closing.property, colon.property]
  | listed parameters =>
      cases parameters with
      | last parameter | more parameter comma others =>
          simp [Parameters.tokens, ParametersSome.tokens, Parameter.tokens,
            Stmt.startsDefinition, name.val.property, opening.property,
            parameter.name.val.property, parameter.colon.property]

/-- A line whose tokens are derived as a statement is read as the tree of the
derivation. -/
theorem Statement.read_tokens (stop : Token) {first : Token} {others : List Token}
    (statement : Statement) (tokensEq : statement.tokens = first :: others) :
    Stmt.read stop first others = .ok statement.tree := by
  cases statement with
  | expr value =>
      have readValue := value.takeLevel_tokens stop
      obtain ⟨behind, valueTokens⟩ := value.tokens_eq_cons
      have firstEq : value.first = first := by
        rw [Statement.tokens, valueTokens] at tokensEq
        exact (List.cons.inj tokensEq).1
      rw [Statement.tokens] at tokensEq
      rw [tokensEq] at readValue
      rw [Stmt.read_eq, startsDefinition_of_takeLevel readValue, if_neg (by decide), readValue,
        Statement.tree, firstEq]
      rfl
  | define name opening parameters closing returns sign body =>
      have starts := Statement.startsDefinition_define name opening parameters closing returns
        sign body
      rw [tokensEq] at starts
      rw [Statement.tokens] at tokensEq
      obtain ⟨rfl, rfl⟩ := List.cons.inj tokensEq
      rw [Stmt.read_eq, starts, if_pos rfl, Stmt.readDefinition_eq, FreeName.isReserved_eq,
        if_neg (by decide), Phrase.take_cons_of_eq stop _ opening.property]
      simp only [bind, Except.bind]
      rw [parameters.takeAll_append]
      simp only
      rw [returns.readReturns_append]
      simp only
      rw [Phrase.take_cons_of_eq stop _ sign.property]
      simp only
      rw [body.takeLevel_tokens stop]
      rfl

end GraphCalc.Grammar
