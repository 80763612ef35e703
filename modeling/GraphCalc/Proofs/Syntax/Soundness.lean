import GraphCalc.Proofs.Syntax.Grammar
import GraphCalc.Proofs.Syntax.Reading

/-!
# Whatever is read is derived

When a reader succeeds, the tokens it has taken are the tokens of a derivation,
and the value it returns is the tree of that derivation.

The readers call each other on fewer tokens, except that a sum starts with a
product, a product with a factor and a factor with a primary expression on the
same tokens.  So the statements are made for all token lists shorter than a
bound; one round through the four readers raises the bound by one.
-/

namespace GraphCalc.Grammar

open GraphCalc.Expr Phrase

/-! ## Signs -/

theorem exists_sign {level : Level} {token : Token} {op : BinaryOp}
    (signOf : token.kind.operator? level = some op) :
    ∃ sign : Sign level, sign.token = token ∧ sign.op = op := by
  cases level with
  | sum =>
      cases kindEq : token.kind with
      | plus =>
          rw [kindEq] at signOf
          cases signOf
          exact ⟨.plus ⟨token, kindEq⟩, rfl, rfl⟩
      | minus =>
          rw [kindEq] at signOf
          cases signOf
          exact ⟨.minus ⟨token, kindEq⟩, rfl, rfl⟩
      | _ => simp [kindEq, Kind.operator?] at signOf
  | product =>
      cases kindEq : token.kind with
      | star =>
          rw [kindEq] at signOf
          cases signOf
          exact ⟨.times ⟨token, kindEq⟩, rfl, rfl⟩
      | slash =>
          rw [kindEq] at signOf
          cases signOf
          exact ⟨.dividedBy ⟨token, kindEq⟩, rfl, rfl⟩
      | percent =>
          rw [kindEq] at signOf
          cases signOf
          exact ⟨.modulo ⟨token, kindEq⟩, rfl, rfl⟩
      | _ => simp [kindEq, Kind.operator?] at signOf

theorem exists_relation {token : Token} {comparison : Comparison}
    (signOf : token.kind.comparison? = some comparison) :
    ∃ relation : Relation, relation.token = token ∧ relation.comparison = comparison := by
  cases kindEq : token.kind with
  | assign =>
      rw [kindEq] at signOf
      cases signOf
      exact ⟨.assign ⟨token, kindEq⟩, rfl, rfl⟩
  | equal =>
      rw [kindEq] at signOf
      cases signOf
      exact ⟨.equal ⟨token, kindEq⟩, rfl, rfl⟩
  | greater =>
      rw [kindEq] at signOf
      cases signOf
      exact ⟨.greater ⟨token, kindEq⟩, rfl, rfl⟩
  | less =>
      rw [kindEq] at signOf
      cases signOf
      exact ⟨.less ⟨token, kindEq⟩, rfl, rfl⟩
  | greaterEqual =>
      rw [kindEq] at signOf
      cases signOf
      exact ⟨.greaterEqual ⟨token, kindEq⟩, rfl, rfl⟩
  | lessEqual =>
      rw [kindEq] at signOf
      cases signOf
      exact ⟨.lessEqual ⟨token, kindEq⟩, rfl, rfl⟩
  | _ => simp [kindEq, Kind.comparison?] at signOf

/-! ## Bounded statements -/

/-- What is read as a primary expression from fewer tokens than the bound is
derived as one. -/
def PrimariesDerived (bound : Nat) : Prop :=
  ∀ ⦃stop : Token⦄ ⦃tokens rest : List Token⦄ ⦃tree : Expr⦄, tokens.length < bound →
    takePrimary stop tokens = .ok (tree, rest) →
    ∃ primary : Primary, tokens = primary.tokens ++ rest ∧ primary.tree = tree

/-- What is read as an operand of a level from fewer tokens than the bound is
derived as one. -/
def OperandsDerived (level : Level) (bound : Nat) : Prop :=
  ∀ ⦃stop : Token⦄ ⦃tokens rest : List Token⦄ ⦃tree : Expr⦄, tokens.length < bound →
    takeOperand stop level tokens = .ok (tree, rest) →
    ∃ operand : Operand level, tokens = operand.tokens ++ rest ∧ operand.tree = tree

/-- What is read as an expression of a level from fewer tokens than the bound is
derived as one. -/
def ChainsDerived (level : Level) (bound : Nat) : Prop :=
  ∀ ⦃stop : Token⦄ ⦃tokens rest : List Token⦄ ⦃tree : Expr⦄, tokens.length < bound →
    takeLevel stop level tokens = .ok (tree, rest) →
    ∃ chain : Chain level, tokens = chain.tokens ++ rest ∧ chain.tree = tree

/-- What is left behind an expression is shorter. -/
theorem Chain.length_lt {level : Level} (chain : Chain level) (rest : List Token) :
    rest.length < (chain.tokens ++ rest).length := by
  obtain ⟨behind, tokensEq⟩ := chain.tokens_eq_cons
  rw [tokensEq, List.cons_append, List.length_cons, List.length_append]
  omega

theorem Operand.length_lt {level : Level} (operand : Operand level) (rest : List Token) :
    rest.length < (operand.tokens ++ rest).length := by
  obtain ⟨behind, tokensEq⟩ := operand.tokens_eq_cons
  rw [tokensEq, List.cons_append, List.length_cons, List.length_append]
  omega

/-! ## Factors and chains -/

/-- The loop over factorial marks extends the factor in front of it. -/
theorem takeMarks_derived (factor : Factor) (tokens : List Token) :
    ∃ whole : Factor,
      factor.tokens ++ tokens = whole.tokens ++ (takeMarks factor.tree tokens).2 ∧
        whole.tree = (takeMarks factor.tree tokens).1 := by
  induction tokens generalizing factor with
  | nil =>
      rw [takeMarks_nil]
      exact ⟨factor, rfl, rfl⟩
  | cons token rest ih =>
      by_cases mark : token.kind = .bang
      · rw [takeMarks_of_eq factor.tree rest mark]
        obtain ⟨whole, tokensEq, treeEq⟩ := ih (.marked factor ⟨token, mark⟩)
        rw [Factor.tokens, List.append_assoc, List.singleton_append] at tokensEq
        exact ⟨whole, tokensEq, treeEq⟩
      · rw [takeMarks_of_ne factor.tree rest mark]
        exact ⟨factor, rfl, rfl⟩

theorem operandsDerived_product {bound : Nat} (primaries : PrimariesDerived bound) :
    OperandsDerived .product bound := by
  intro stop tokens rest tree short read
  rw [takeOperand_product, takeFactor_eq, bind_eq_ok_iff] at read
  obtain ⟨⟨first, behind⟩, firstRead, marksRead⟩ := read
  obtain ⟨primary, rfl, rfl⟩ := primaries short firstRead
  obtain ⟨whole, tokensEq, treeEq⟩ := takeMarks_derived (.primary primary) behind
  have marksEq : takeMarks primary.tree behind = (tree, rest) := Except.ok.inj marksRead
  rw [Factor.tree, marksEq] at tokensEq treeEq
  exact ⟨.factor whole, tokensEq, treeEq⟩

theorem operandsDerived_sum {bound : Nat} (products : ChainsDerived .product bound) :
    OperandsDerived .sum bound := by
  intro stop tokens rest tree short read
  rw [takeOperand_sum] at read
  obtain ⟨chain, tokensEq, treeEq⟩ := products short read
  exact ⟨.product chain, tokensEq, treeEq⟩

/-- The loop over the signs of a level extends the chain in front of it. -/
theorem takeTail_derived {level : Level} {bound : Nat} (operands : OperandsDerived level bound)
    {stop : Token} {rest : List Token} {tree : Expr} (chain : Chain level)
    (tokens : List Token) (short : tokens.length < bound)
    (read : takeTail stop level chain.tree tokens = .ok (tree, rest)) :
    ∃ whole : Chain level, chain.tokens ++ tokens = whole.tokens ++ rest ∧
      whole.tree = tree := by
  cases tokens with
  | nil =>
      rw [takeTail_nil] at read
      cases read
      exact ⟨chain, rfl, rfl⟩
  | cons token behind =>
      cases signOf : token.kind.operator? level with
      | none =>
          rw [takeTail_of_none chain.tree behind signOf] at read
          cases read
          exact ⟨chain, rfl, rfl⟩
      | some op =>
          rw [takeTail_of_some chain.tree behind signOf, bind_eq_ok_iff] at read
          obtain ⟨⟨right, after⟩, rightRead, tailRead⟩ := read
          obtain ⟨sign, rfl, rfl⟩ := exists_sign signOf
          have behindShort : behind.length < bound := Nat.lt_of_succ_lt short
          obtain ⟨operand, rfl, rfl⟩ := operands behindShort rightRead
          have afterShort := operand.length_lt after
          obtain ⟨whole, tokensEq, treeEq⟩ := takeTail_derived operands
            (.join chain sign operand) after (Nat.lt_trans afterShort behindShort) tailRead
          refine ⟨whole, ?_, treeEq⟩
          rw [← tokensEq, Chain.tokens, List.append_assoc, List.cons_append]
termination_by tokens.length
decreasing_by
  subst_vars
  exact Nat.lt_succ_of_lt afterShort

theorem chainsDerived_of_operands {level : Level} {bound : Nat}
    (operands : OperandsDerived level bound) : ChainsDerived level bound := by
  intro stop tokens rest tree short read
  rw [takeLevel_eq, bind_eq_ok_iff] at read
  obtain ⟨⟨first, behind⟩, firstRead, tailRead⟩ := read
  obtain ⟨operand, rfl, rfl⟩ := operands short firstRead
  exact takeTail_derived operands (.operand operand) behind
    (Nat.lt_trans (operand.length_lt behind) short) tailRead

/-! ## Items and branches -/

theorem takeItemsSome_derived {bound : Nat} (sums : ChainsDerived .sum bound) {stop : Token}
    {close : Kind} {closing : Token} {rest : List Token} {trees : List Expr}
    (tokens : List Token) (short : tokens.length < bound)
    (read : takeItemsSome stop close tokens = .ok ((trees, closing), rest)) :
    ∃ items : ItemsSome, tokens = items.tokens ++ closing :: rest ∧ items.trees = trees ∧
      closing.kind = close := by
  rw [takeItemsSome_eq, bind_eq_ok_iff] at read
  obtain ⟨⟨first, behind⟩, firstRead, othersRead⟩ := read
  obtain ⟨chain, rfl, rfl⟩ := sums short firstRead
  have behindShort := chain.length_lt behind
  cases passed : pass? .comma behind with
  | none =>
      simp only [passed, bind_eq_ok_iff] at othersRead
      obtain ⟨⟨last, after⟩, lastRead, result⟩ := othersRead
      cases result
      obtain ⟨rfl, lastKind⟩ := take_eq_ok_iff.mp lastRead
      exact ⟨.last chain, rfl, rfl, lastKind⟩
  | some step =>
      obtain ⟨comma, more⟩ := step
      simp only [passed, bind_eq_ok_iff] at othersRead
      obtain ⟨⟨⟨others, last⟩, after⟩, moreRead, result⟩ := othersRead
      cases result
      obtain ⟨rfl, commaKind⟩ := pass?_eq_some_iff.mp passed
      have moreShort : more.length < (chain.tokens ++ comma :: more).length :=
        Nat.lt_of_succ_lt behindShort
      obtain ⟨items, rfl, treesEq, closingKind⟩ := takeItemsSome_derived sums more
        (Nat.lt_trans moreShort short) moreRead
      refine ⟨.more chain ⟨comma, commaKind⟩ items, ?_, ?_, closingKind⟩
      · rw [ItemsSome.tokens, List.append_assoc, List.cons_append]
      · rw [ItemsSome.trees, treesEq]
termination_by tokens.length

theorem takeItems_derived {bound : Nat} (sums : ChainsDerived .sum bound) {stop : Token}
    {close : Kind} {closing : Token} {tokens rest : List Token} {trees : List Expr}
    (short : tokens.length < bound)
    (read : takeItems stop close tokens = .ok ((trees, closing), rest)) :
    ∃ items : Items, tokens = items.tokens ++ closing :: rest ∧ items.trees = trees ∧
      closing.kind = close := by
  rw [takeItems_eq] at read
  cases passed : pass? close tokens with
  | none =>
      rw [passed] at read
      obtain ⟨items, tokensEq, treesEq, closingKind⟩ :=
        takeItemsSome_derived sums tokens short read
      exact ⟨.listed items, tokensEq, treesEq, closingKind⟩
  | some step =>
      obtain ⟨token, after⟩ := step
      rw [passed] at read
      cases read
      obtain ⟨rfl, closingKind⟩ := pass?_eq_some_iff.mp passed
      exact ⟨.empty, rfl, rfl, closingKind⟩

/-- The inside of a piecewise expression is the default value and the closing
brace, or a branch and another such inside. -/
theorem takeClauses_cases {bound : Nat} (sums : ChainsDerived .sum bound) {stop : Token}
    {closing : Token} {tokens rest : List Token} {clauses : List (Clause Expr)}
    {otherwise : Expr} (short : tokens.length < bound)
    (read : takeClauses stop tokens = .ok ((clauses, otherwise, closing), rest)) :
    (∃ last : Chain .sum, tokens = last.tokens ++ closing :: rest ∧ clauses = [] ∧
      last.tree = otherwise ∧ closing.kind = .rbrace) ∨
    ∃ (branch : Branch) (more : List Token) (others : List (Clause Expr)),
      tokens = branch.tokens ++ more ∧ clauses = branch.clause :: others ∧
        takeClauses stop more = .ok ((others, otherwise, closing), rest) := by
  rw [takeClauses_eq, bind_eq_ok_iff] at read
  obtain ⟨⟨first, behind⟩, firstRead, othersRead⟩ := read
  obtain ⟨left, rfl, rfl⟩ := sums short firstRead
  have behindShort := Nat.lt_trans (left.length_lt behind) short
  cases behind with
  | nil => simp at othersRead
  | cons token behind =>
      simp only at othersRead
      cases signOf : token.kind.comparison? with
      | none =>
          simp only [signOf, bind_eq_ok_iff] at othersRead
          obtain ⟨⟨last, after⟩, lastRead, result⟩ := othersRead
          cases result
          obtain ⟨tokensEq, closingKind⟩ := take_eq_ok_iff.mp lastRead
          rw [tokensEq]
          exact .inl ⟨left, rfl, rfl, rfl, closingKind⟩
      | some comparison =>
          simp only [signOf, bind_eq_ok_iff] at othersRead
          obtain ⟨⟨right, atColon⟩, rightRead, ⟨colon, atResult⟩, colonRead,
            ⟨result, atComma⟩, resultRead, commaRead⟩ := othersRead
          obtain ⟨relation, rfl, rfl⟩ := exists_relation signOf
          obtain ⟨right, rfl, rfl⟩ := sums (Nat.lt_of_succ_lt behindShort) rightRead
          obtain ⟨rfl, colonKind⟩ := take_eq_ok_iff.mp colonRead
          have resultShort : atResult.length < bound := by
            have := right.length_lt (colon :: atResult)
            simp only [List.length_cons] at this behindShort
            omega
          obtain ⟨result, rfl, rfl⟩ := sums resultShort resultRead
          cases passed : pass? .comma atComma with
          | none => simp [passed] at commaRead
          | some step =>
              obtain ⟨comma, more⟩ := step
              simp only [passed, bind_eq_ok_iff] at commaRead
              obtain ⟨⟨⟨others, default⟩, after⟩, moreRead, whole⟩ := commaRead
              cases whole
              obtain ⟨rfl, commaKind⟩ := pass?_eq_some_iff.mp passed
              refine .inr ⟨.mk left relation right ⟨colon, colonKind⟩ result
                ⟨comma, commaKind⟩, more, others, ?_, rfl, moreRead⟩
              simp [Branch.tokens]

theorem Branch.length_lt (branch : Branch) (rest : List Token) :
    rest.length < (branch.tokens ++ rest).length := by
  cases branch with
  | mk left relation right colon result comma =>
      simp only [Branch.tokens, List.length_append, List.length_cons]
      omega

/-- The tokens of branches, possibly none. -/
def branchListTokens (branches : List Branch) : List Token :=
  branches.flatMap Branch.tokens

/-- The inside of a piecewise expression is a number of branches, the default
value and the closing brace. -/
theorem takeClauses_derived {bound : Nat} (sums : ChainsDerived .sum bound) {stop : Token}
    {closing : Token} {rest : List Token} {clauses : List (Clause Expr)} {otherwise : Expr}
    (tokens : List Token) (short : tokens.length < bound)
    (read : takeClauses stop tokens = .ok ((clauses, otherwise, closing), rest)) :
    ∃ (branches : List Branch) (last : Chain .sum),
      tokens = branchListTokens branches ++ (last.tokens ++ closing :: rest) ∧
        branches.map Branch.clause = clauses ∧ last.tree = otherwise ∧
          closing.kind = .rbrace := by
  obtain ⟨last, tokensEq, rfl, treeEq, closingKind⟩ |
    ⟨branch, more, others, rfl, rfl, moreRead⟩ := takeClauses_cases sums short read
  · exact ⟨[], last, tokensEq, rfl, treeEq, closingKind⟩
  · have moreShort := branch.length_lt more
    obtain ⟨branches, last, rfl, clausesEq, treeEq, closingKind⟩ :=
      takeClauses_derived sums more (Nat.lt_trans moreShort short) moreRead
    refine ⟨branch :: branches, last, ?_, ?_, treeEq, closingKind⟩
    · simp [branchListTokens]
    · rw [List.map_cons, clausesEq]
termination_by tokens.length

/-- Branches in a list, of which there is at least one, are branches of the
grammar. -/
theorem exists_branches (first : Branch) (others : List Branch) :
    ∃ branches : Branches, branches.tokens = branchListTokens (first :: others) ∧
      branches.firstClause = first.clause ∧
        branches.otherClauses = others.map Branch.clause := by
  induction others generalizing first with
  | nil => exact ⟨.last first, by simp [branchListTokens, Branches.tokens], rfl, rfl⟩
  | cons second others ih =>
      obtain ⟨branches, tokensEq, firstEq, othersEq⟩ := ih second
      refine ⟨.more first branches, ?_, rfl, ?_⟩
      · rw [Branches.tokens, tokensEq]
        rfl
      · rw [Branches.otherClauses, firstEq, othersEq]
        rfl

/-! ## Primary expressions -/

theorem primariesDerived_of_sums {bound : Nat} (sums : ChainsDerived .sum bound) :
    PrimariesDerived (bound + 1) := by
  intro stop tokens rest tree short read
  cases tokens with
  | nil =>
      rw [takePrimary_nil] at read
      cases read
  | cons token behind =>
      have behindShort : behind.length < bound := Nat.lt_of_succ_lt_succ short
      rw [takePrimary_cons] at read
      cases kindEq : token.kind with
      | number =>
          simp only [kindEq] at read
          cases read
          exact ⟨.number ⟨token, kindEq⟩, rfl, rfl⟩
      | minus =>
          simp only [kindEq] at read
          cases passed : pass? .number behind with
          | none => simp [passed] at read
          | some step =>
              obtain ⟨digits, after⟩ := step
              simp only [passed] at read
              cases read
              obtain ⟨rfl, digitsKind⟩ := pass?_eq_some_iff.mp passed
              exact ⟨.negative ⟨token, kindEq⟩ ⟨digits, digitsKind⟩, rfl, rfl⟩
      | ident =>
          simp only [kindEq] at read
          cases passed : pass? .lparen behind with
          | none =>
              simp only [passed] at read
              cases read
              exact ⟨.var ⟨token, kindEq⟩, rfl, rfl⟩
          | some step =>
              obtain ⟨opening, inner⟩ := step
              simp only [passed, bind_eq_ok_iff] at read
              obtain ⟨⟨⟨trees, closing⟩, after⟩, argsRead, result⟩ := read
              cases result
              obtain ⟨rfl, openingKind⟩ := pass?_eq_some_iff.mp passed
              obtain ⟨args, rfl, rfl, closingKind⟩ := takeItems_derived sums
                (Nat.lt_of_succ_lt behindShort) argsRead
              refine ⟨.call ⟨token, kindEq⟩ ⟨opening, openingKind⟩ args
                ⟨closing, closingKind⟩, ?_, rfl⟩
              simp [Primary.tokens]
      | macroName =>
          simp only [kindEq, bind_eq_ok_iff] at read
          obtain ⟨⟨opening, inner⟩, openingRead, ⟨⟨trees, closing⟩, after⟩, argsRead, result⟩ :=
            read
          cases result
          obtain ⟨rfl, openingKind⟩ := take_eq_ok_iff.mp openingRead
          obtain ⟨args, rfl, rfl, closingKind⟩ := takeItems_derived sums
            (Nat.lt_of_succ_lt behindShort) argsRead
          refine ⟨.macroCall ⟨token, kindEq⟩ ⟨opening, openingKind⟩ args
            ⟨closing, closingKind⟩, ?_, rfl⟩
          simp [Primary.tokens]
      | lparen =>
          simp only [kindEq, bind_eq_ok_iff] at read
          obtain ⟨⟨inner, atClosing⟩, innerRead, ⟨closing, after⟩, closingRead, result⟩ := read
          cases result
          obtain ⟨inner, rfl, rfl⟩ := sums behindShort innerRead
          obtain ⟨rfl, closingKind⟩ := take_eq_ok_iff.mp closingRead
          refine ⟨.group ⟨token, kindEq⟩ inner ⟨closing, closingKind⟩, ?_, rfl⟩
          simp [Primary.tokens]
      | lbrack =>
          simp only [kindEq, bind_eq_ok_iff] at read
          obtain ⟨⟨⟨trees, closing⟩, after⟩, itemsRead, result⟩ := read
          cases result
          obtain ⟨items, rfl, rfl, closingKind⟩ := takeItems_derived sums behindShort itemsRead
          refine ⟨.list ⟨token, kindEq⟩ items ⟨closing, closingKind⟩, ?_, rfl⟩
          simp [Primary.tokens]
      | lbrace =>
          simp only [kindEq, bind_eq_ok_iff] at read
          obtain ⟨⟨⟨clauses, otherwise, closing⟩, after⟩, clausesRead, result⟩ := read
          obtain ⟨branches, last, rfl, rfl, rfl, closingKind⟩ := takeClauses_derived sums behind
            behindShort clausesRead
          cases branches with
          | nil => simp at result
          | cons first others =>
              simp only [List.map_cons] at result
              cases result
              obtain ⟨branches, branchesTokens, firstEq, othersEq⟩ :=
                exists_branches first others
              refine ⟨.piecewise ⟨token, kindEq⟩ branches last ⟨closing, closingKind⟩, ?_, ?_⟩
              · simp [Primary.tokens, branchesTokens]
              · rw [Primary.tree, firstEq, othersEq]
      | _ => simp [kindEq] at read

/-! ## All expressions -/

/-- Whatever is read as a sum is derived as one. -/
theorem sumsDerived (bound : Nat) : ChainsDerived .sum bound := by
  induction bound with
  | zero =>
      intro stop tokens rest tree short
      exact absurd short (Nat.not_lt_zero _)
  | succ bound sums =>
      have primaries := primariesDerived_of_sums sums
      have products := chainsDerived_of_operands (operandsDerived_product primaries)
      exact chainsDerived_of_operands (operandsDerived_sum products)

theorem takeLevel_derived {stop : Token} {tokens rest : List Token} {tree : Expr}
    (read : takeLevel stop .sum tokens = .ok (tree, rest)) :
    ∃ chain : Chain .sum, tokens = chain.tokens ++ rest ∧ chain.tree = tree :=
  sumsDerived (tokens.length + 1) (Nat.lt_succ_self _) read

/-! ## Statements -/

theorem valueType_take_derived {stop token : Token} {type : ValueType}
    {tokens rest : List Token}
    (read : ValueType.take stop tokens = .ok ((token, type), rest)) :
    ∃ name : TypeName, tokens = name.token :: rest ∧ name.token = token ∧ name.type = type := by
  rw [ValueType.take_eq, bind_eq_ok_iff] at read
  obtain ⟨⟨name, behind⟩, nameRead, typeRead⟩ := read
  obtain ⟨rfl, nameKind⟩ := Phrase.take_eq_ok_iff.mp nameRead
  simp only [ValueType.ofName?] at typeRead
  by_cases isNumber : name.text = ValueType.number.name
  · rw [if_pos isNumber] at typeRead
    cases typeRead
    exact ⟨.number ⟨⟨token, nameKind⟩, isNumber⟩, rfl, rfl, rfl⟩
  · by_cases isList : name.text = ValueType.list.name
    · rw [if_neg isNumber, if_pos isList] at typeRead
      cases typeRead
      exact ⟨.list ⟨⟨token, nameKind⟩, isList⟩, rfl, rfl, rfl⟩
    · rw [if_neg isNumber, if_neg isList] at typeRead
      cases typeRead

theorem not_mem_names_of_isReserved {name : String}
    (free : ValueType.isReserved name = false) : name ∉ ValueType.names := by
  rw [ValueType.isReserved] at free
  simpa using free

theorem param_take_derived {stop : Token} {tokens rest : List Token} {param : Param}
    (read : Param.take stop tokens = .ok (param, rest)) :
    ∃ parameter : Parameter, tokens = parameter.tokens ++ rest ∧ parameter.tree = param := by
  rw [Param.take_eq, bind_eq_ok_iff] at read
  obtain ⟨⟨name, behind⟩, nameRead, typeRead⟩ := read
  obtain ⟨rfl, nameKind⟩ := Phrase.take_eq_ok_iff.mp nameRead
  cases reserved : ValueType.isReserved name.text with
  | true => simp [reserved] at typeRead
  | false =>
      simp only [reserved, Bool.false_eq_true, if_false, bind_eq_ok_iff] at typeRead
      obtain ⟨⟨colon, atType⟩, colonRead, ⟨⟨token, type⟩, after⟩, typeTaken, result⟩ := typeRead
      cases result
      obtain ⟨rfl, colonKind⟩ := Phrase.take_eq_ok_iff.mp colonRead
      obtain ⟨typeName, rfl, rfl, rfl⟩ := valueType_take_derived typeTaken
      exact ⟨⟨⟨⟨name, nameKind⟩, not_mem_names_of_isReserved reserved⟩, ⟨colon, colonKind⟩,
        typeName⟩, rfl, rfl⟩

theorem param_takeSome_derived {stop : Token} {rest : List Token} {params : List Param}
    (tokens : List Token) (read : Param.takeSome stop tokens = .ok (params, rest)) :
    ∃ (parameters : ParametersSome) (closing : Terminal .rparen),
      tokens = parameters.tokens ++ closing.val :: rest ∧ parameters.trees = params := by
  rw [Param.takeSome_eq, bind_eq_ok_iff] at read
  obtain ⟨⟨first, behind⟩, firstRead, othersRead⟩ := read
  obtain ⟨parameter, rfl, rfl⟩ := param_take_derived firstRead
  cases passed : pass? .comma behind with
  | none =>
      simp only [passed, bind_eq_ok_iff] at othersRead
      obtain ⟨⟨closing, after⟩, closingRead, result⟩ := othersRead
      cases result
      obtain ⟨rfl, closingKind⟩ := Phrase.take_eq_ok_iff.mp closingRead
      exact ⟨.last parameter, ⟨closing, closingKind⟩, rfl, rfl⟩
  | some step =>
      obtain ⟨comma, more⟩ := step
      simp only [passed, bind_eq_ok_iff] at othersRead
      obtain ⟨⟨others, after⟩, moreRead, result⟩ := othersRead
      cases result
      obtain ⟨rfl, commaKind⟩ := pass?_eq_some_iff.mp passed
      obtain ⟨parameters, closing, rfl, treesEq⟩ := param_takeSome_derived more moreRead
      refine ⟨.more parameter ⟨comma, commaKind⟩ parameters, closing, ?_, ?_⟩
      · rw [ParametersSome.tokens, List.append_assoc, List.cons_append]
      · rw [ParametersSome.trees, treesEq]
termination_by tokens.length
decreasing_by
  subst_vars
  simp only [List.length_append, List.length_cons]
  omega

theorem param_takeAll_derived {stop : Token} {tokens rest : List Token} {params : List Param}
    (read : Param.takeAll stop tokens = .ok (params, rest)) :
    ∃ (parameters : Parameters) (closing : Terminal .rparen),
      tokens = parameters.tokens ++ closing.val :: rest ∧ parameters.trees = params := by
  rw [Param.takeAll_eq] at read
  cases passed : pass? .rparen tokens with
  | none =>
      rw [passed] at read
      obtain ⟨parameters, closing, tokensEq, treesEq⟩ := param_takeSome_derived tokens read
      exact ⟨.listed parameters, closing, tokensEq, treesEq⟩
  | some step =>
      obtain ⟨closing, after⟩ := step
      rw [passed] at read
      cases read
      obtain ⟨rfl, closingKind⟩ := pass?_eq_some_iff.mp passed
      exact ⟨.empty, ⟨closing, closingKind⟩, rfl, rfl⟩

theorem readReturns_derived {stop : Token} {tokens rest : List Token}
    {type? : Option ValueType}
    (read : Stmt.readReturns stop tokens = .ok (type?, rest)) :
    ∃ returns : Returns, tokens = returns.tokens ++ rest ∧ returns.type? = type? := by
  rw [Stmt.readReturns_eq] at read
  cases passed : pass? .colon tokens with
  | none =>
      rw [passed] at read
      cases read
      exact ⟨.inferred, rfl, rfl⟩
  | some step =>
      obtain ⟨colon, atType⟩ := step
      simp only [passed, bind_eq_ok_iff] at read
      obtain ⟨⟨⟨token, type⟩, after⟩, typeRead, result⟩ := read
      cases result
      obtain ⟨rfl, colonKind⟩ := pass?_eq_some_iff.mp passed
      obtain ⟨typeName, rfl, -, rfl⟩ := valueType_take_derived typeRead
      exact ⟨.announced ⟨colon, colonKind⟩ typeName, rfl, rfl⟩

theorem readDefinition_derived {stop name : Token} {tokens : List Token} {stmt : Stmt}
    (nameKind : name.kind = .ident)
    (read : Stmt.readDefinition stop name tokens = .ok stmt) :
    ∃ statement : Statement, statement.tokens = name :: tokens ∧ statement.tree = stmt := by
  rw [Stmt.readDefinition_eq] at read
  cases reserved : ValueType.isReserved name.text with
  | true => simp [reserved] at read
  | false =>
      simp only [reserved, Bool.false_eq_true, if_false, bind_eq_ok_iff] at read
      obtain ⟨⟨opening, atParams⟩, openingRead, ⟨params, atReturns⟩, paramsRead,
        ⟨type?, atSign⟩, returnsRead, ⟨sign, atBody⟩, signRead, ⟨body, atEnd⟩, bodyRead, _,
        endRead, result⟩ := read
      cases result
      obtain ⟨rfl, openingKind⟩ := Phrase.take_eq_ok_iff.mp openingRead
      obtain ⟨parameters, closing, rfl, rfl⟩ := param_takeAll_derived paramsRead
      obtain ⟨returns, rfl, rfl⟩ := readReturns_derived returnsRead
      obtain ⟨rfl, signKind⟩ := Phrase.take_eq_ok_iff.mp signRead
      obtain ⟨body, rfl, rfl⟩ := takeLevel_derived bodyRead
      rw [Stmt.expectEnd_eq_ok_iff] at endRead
      refine ⟨.define ⟨⟨name, nameKind⟩, not_mem_names_of_isReserved reserved⟩
        ⟨opening, openingKind⟩ parameters closing returns ⟨sign, signKind⟩ body, ?_, rfl⟩
      simp only at endRead
      rw [Statement.tokens, endRead, List.append_nil]

/-- A statement that is read from a line is the tree of a derivation of the
whole line. -/
theorem read_derived {stop first : Token} {others : List Token} {stmt : Stmt}
    (read : Stmt.read stop first others = .ok stmt) :
    ∃ statement : Statement, statement.tokens = first :: others ∧ statement.tree = stmt := by
  rw [Stmt.read_eq] at read
  cases starts : Stmt.startsDefinition (first :: others) with
  | true =>
      rw [starts, if_pos rfl] at read
      have nameKind : first.kind = .ident := by
        unfold Stmt.startsDefinition at starts
        split at starts
        · rename_i tokensEq
          cases tokensEq
          simp only [Bool.and_eq_true, decide_eq_true_eq] at starts
          exact starts.1.1
        · cases starts
      exact readDefinition_derived nameKind read
  | false =>
      simp only [starts, Bool.false_eq_true, if_false, bind_eq_ok_iff] at read
      obtain ⟨⟨value, atEnd⟩, valueRead, _, endRead, result⟩ := read
      cases result
      obtain ⟨chain, tokensEq, rfl⟩ := takeLevel_derived valueRead
      rw [Stmt.expectEnd_eq_ok_iff] at endRead
      simp only at endRead
      rw [endRead, List.append_nil] at tokensEq
      obtain ⟨behind, chainTokens⟩ := chain.tokens_eq_cons
      have firstEq : chain.first = first := by
        rw [chainTokens] at tokensEq
        exact (List.cons.inj tokensEq).1.symm
      refine ⟨.expr chain, tokensEq.symm, ?_⟩
      rw [Statement.tree, firstEq]

end GraphCalc.Grammar
