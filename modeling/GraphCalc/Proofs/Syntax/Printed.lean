import GraphCalc.Proofs.Syntax.Grammar
import GraphCalc.Proofs.Syntax.Spelling
import GraphCalc.Proofs.Syntax.Trees

/-!
# Derivations of printed trees

Tokens with the kinds and texts of a printed expression or statement have a
derivation whose tree is the printed one up to spans.  Every printed expression
is a factor: operations stand in parentheses, and factorial marks stand behind
a factor.
-/

namespace GraphCalc

open Grammar

/-! ## Derivations of printed expressions -/

/-- A factor, taken as a sum. -/
def Grammar.Factor.asSum (factor : Factor) : Chain .sum :=
  .operand (.product (.operand (.factor factor)))

@[simp]
theorem Grammar.Factor.tokens_asSum (factor : Factor) : factor.asSum.tokens = factor.tokens := by
  simp [asSum, Chain.tokens, Operand.tokens]

@[simp]
theorem Grammar.Factor.tree_asSum (factor : Factor) : factor.asSum.tree = factor.tree := by
  simp [asSum, Chain.tree, Operand.tree]

/-- A token of the kind in front of tokens with the remaining contents. -/
theorem exists_terminal {tokens : List Token} {kind : Kind} {text : List Char}
    {contents : List Content} (contentEq : tokens.map Token.content = (kind, text) :: contents) :
    ∃ (token : Terminal kind) (rest : List Token), tokens = token.val :: rest ∧
      token.val.text.toList = text ∧ rest.map Token.content = contents := by
  obtain ⟨token, rest, rfl, tokenEq, restEq⟩ := List.map_eq_cons_iff.1 contentEq
  obtain ⟨kindEq, textEq⟩ := (Token.content_eq_iff _ _ _).1 tokenEq
  exact ⟨⟨token, kindEq⟩, rest, rfl, textEq, restEq⟩

/-- The last token of a phrase. -/
theorem exists_last {tokens : List Token} {kind : Kind} {text : List Char}
    (contentEq : tokens.map Token.content = [(kind, text)]) :
    ∃ token : Terminal kind, tokens = [token.val] := by
  obtain ⟨token, rest, rfl, -, restEq⟩ := exists_terminal contentEq
  exact ⟨token, by rw [List.map_eq_nil_iff.1 restEq]⟩

/-- Two factors with the sign of an operator between them are a sum. -/
theorem exists_operation {op : BinaryOp} (known : op ∈ BinaryOp.known) (left right : Factor)
    (sign : Terminal op.kind) :
    ∃ chain : Chain .sum, chain.tokens = left.tokens ++ sign.val :: right.tokens ∧
      chain.tree.mapSpans .forget =
        .binary .nowhere op (left.tree.mapSpans .forget) (right.tree.mapSpans .forget) := by
  cases op with
  | add =>
      refine ⟨.join left.asSum (.plus sign) (.product (.operand (.factor right))), ?_, ?_⟩
      · simp [Chain.tokens, Operand.tokens, Sign.token]
      · simp [Chain.tree, Operand.tree, Sign.op, Expr.mapSpans]
  | subtract =>
      refine ⟨.join left.asSum (.minus sign) (.product (.operand (.factor right))), ?_, ?_⟩
      · simp [Chain.tokens, Operand.tokens, Sign.token]
      · simp [Chain.tree, Operand.tree, Sign.op, Expr.mapSpans]
  | multiply =>
      refine ⟨.operand (.product (.join (.operand (.factor left)) (.times sign) (.factor right))),
        ?_, ?_⟩
      · simp [Chain.tokens, Operand.tokens, Sign.token]
      · simp [Chain.tree, Operand.tree, Sign.op, Expr.mapSpans]
  | divide =>
      refine ⟨.operand (.product
        (.join (.operand (.factor left)) (.dividedBy sign) (.factor right))), ?_, ?_⟩
      · simp [Chain.tokens, Operand.tokens, Sign.token]
      · simp [Chain.tree, Operand.tree, Sign.op, Expr.mapSpans]
  | modulo =>
      refine ⟨.operand (.product (.join (.operand (.factor left)) (.modulo sign) (.factor right))),
        ?_, ?_⟩
      · simp [Chain.tokens, Operand.tokens, Sign.token]
      · simp [Chain.tree, Operand.tree, Sign.op, Expr.mapSpans]
  | other code => simp [BinaryOp.known] at known

theorem exists_relation_of_known {comparison : Comparison}
    (known : comparison ∈ Comparison.known) (sign : Terminal comparison.kind) :
    ∃ relation : Relation, relation.token = sign.val ∧ relation.comparison = comparison := by
  cases comparison with
  | equal => exact ⟨.equal sign, rfl, rfl⟩
  | greater => exact ⟨.greater sign, rfl, rfl⟩
  | less => exact ⟨.less sign, rfl, rfl⟩
  | greaterEqual => exact ⟨.greaterEqual sign, rfl, rfl⟩
  | lessEqual => exact ⟨.lessEqual sign, rfl, rfl⟩
  | other code => simp [Comparison.known] at known

theorem exists_number (span : Span) {value : String}
    (shape : Lexeme.IsSignedNumeral value.toList) {tokens : List Token}
    (contentEq : tokens.map Token.content = numberContents value.toList) :
    ∃ primary : Primary, primary.tokens = tokens ∧
      primary.tree.mapSpans .forget = (Expr.number span value).mapSpans .forget := by
  generalize textEq : value.toList = text at shape contentEq
  cases shape with
  | plain shape =>
      rw [numberContents_of_isNumeral shape] at contentEq
      obtain ⟨digits, rest, rfl, digitsEq, restEq⟩ := exists_terminal contentEq
      have valueEq : digits.val.text = value := String.toList_inj.1 (digitsEq.trans textEq.symm)
      refine ⟨.number digits, ?_, ?_⟩
      · rw [Primary.tokens, List.map_eq_nil_iff.1 restEq]
      · rw [Primary.tree, valueEq, Expr.mapSpans, Expr.mapSpans]
  | negative shape =>
      obtain ⟨minus, rest, rfl, -, restEq⟩ := exists_terminal contentEq
      obtain ⟨digits, rest, rfl, digitsEq, restEq⟩ := exists_terminal restEq
      have valueEq : "-" ++ digits.val.text = value := by
        rw [← String.toList_inj, String.toList_append, digitsEq, textEq]
        rfl
      refine ⟨.negative minus digits, ?_, ?_⟩
      · rw [Primary.tokens, List.map_eq_nil_iff.1 restEq]
      · rw [Primary.tree, valueEq, Expr.mapSpans, Expr.mapSpans]

mutual

/-- The tokens of a printed expression are those of a factor with the same
tree. -/
theorem Expr.exists_factor : (expr : Expr) → expr.WellFormed → (tokens : List Token) →
    tokens.map Token.content = expr.contents →
    ∃ factor : Factor, factor.tokens = tokens ∧
      factor.tree.mapSpans .forget = expr.mapSpans .forget
  | .number span value, shape, tokens, contentEq => by
      obtain ⟨primary, tokensEq, treeEq⟩ := exists_number span shape contentEq
      exact ⟨.primary primary, tokensEq, treeEq⟩
  | .var _ name, shape, tokens, contentEq => by
      obtain ⟨token, rest, rfl, textEq, restEq⟩ := exists_terminal contentEq
      refine ⟨.primary (.var token), ?_, ?_⟩
      · rw [Factor.tokens, Primary.tokens, List.map_eq_nil_iff.1 restEq]
      · rw [Factor.tree, Primary.tree, String.toList_inj.1 textEq, Expr.mapSpans, Expr.mapSpans]
  | .binary span op left right, ⟨known, leftShape, rightShape⟩, tokens, contentEq => by
      rw [Expr.contents] at contentEq
      obtain ⟨opening, rest, rfl, -, contentEq⟩ := exists_terminal contentEq
      obtain ⟨leftTokens, rest, rfl, leftEq, contentEq⟩ := List.map_eq_append_iff.1 contentEq
      obtain ⟨sign, rest, rfl, -, contentEq⟩ := exists_terminal contentEq
      obtain ⟨rightTokens, rest, rfl, rightEq, contentEq⟩ := List.map_eq_append_iff.1 contentEq
      obtain ⟨closing, rfl⟩ := exists_last contentEq
      obtain ⟨leftFactor, rfl, leftTree⟩ := left.exists_factor leftShape _ leftEq
      obtain ⟨rightFactor, rfl, rightTree⟩ := right.exists_factor rightShape _ rightEq
      obtain ⟨chain, chainTokens, chainTree⟩ := exists_operation known leftFactor rightFactor sign
      refine ⟨.primary (.group opening chain closing), ?_, ?_⟩
      · simp [Factor.tokens, Primary.tokens, chainTokens]
      · rw [Factor.tree, Primary.tree, chainTree, leftTree, rightTree, Expr.mapSpans]
  | .unary span op operand, ⟨known, shape⟩, tokens, contentEq => by
      rw [Expr.contents] at contentEq
      obtain ⟨operandTokens, rest, rfl, operandEq, contentEq⟩ :=
        List.map_eq_append_iff.1 contentEq
      obtain ⟨mark, rfl⟩ := exists_last contentEq
      obtain ⟨factor, rfl, treeEq⟩ := operand.exists_factor shape _ operandEq
      refine ⟨.marked factor mark, ?_, ?_⟩
      · rw [Factor.tokens]
      · rw [Factor.tree, Expr.mapSpans, Expr.mapSpans, treeEq, known]
  | .call span mode callee args, ⟨known, _, shape⟩, tokens, contentEq => by
      rw [Expr.contents] at contentEq
      obtain ⟨name, rest, rfl, nameEq, contentEq⟩ := exists_terminal contentEq
      obtain ⟨opening, rest, rfl, -, contentEq⟩ := exists_terminal contentEq
      obtain ⟨argTokens, rest, rfl, argsEq, contentEq⟩ := List.map_eq_append_iff.1 contentEq
      obtain ⟨closing, rfl⟩ := exists_last contentEq
      obtain ⟨items, rfl, treesEq⟩ := Expr.exists_items args shape _ argsEq
      refine ⟨.primary (.call name opening items closing), ?_, ?_⟩
      · rw [Factor.tokens, Primary.tokens]
      · rw [Factor.tree, Primary.tree, String.toList_inj.1 nameEq, Expr.mapSpans, Expr.mapSpans,
          treesEq, known]
  | .macroCall span name args, ⟨_, shape⟩, tokens, contentEq => by
      rw [Expr.contents] at contentEq
      obtain ⟨token, rest, rfl, nameEq, contentEq⟩ := exists_terminal contentEq
      obtain ⟨opening, rest, rfl, -, contentEq⟩ := exists_terminal contentEq
      obtain ⟨argTokens, rest, rfl, argsEq, contentEq⟩ := List.map_eq_append_iff.1 contentEq
      obtain ⟨closing, rfl⟩ := exists_last contentEq
      obtain ⟨items, rfl, treesEq⟩ := Expr.exists_items args shape _ argsEq
      refine ⟨.primary (.macroCall token opening items closing), ?_, ?_⟩
      · rw [Factor.tokens, Primary.tokens]
      · rw [Factor.tree, Primary.tree, String.toList_inj.1 nameEq, Expr.mapSpans, Expr.mapSpans,
          treesEq]
  | .list span items, shape, tokens, contentEq => by
      rw [Expr.contents] at contentEq
      obtain ⟨opening, rest, rfl, -, contentEq⟩ := exists_terminal contentEq
      obtain ⟨itemTokens, rest, rfl, itemsEq, contentEq⟩ := List.map_eq_append_iff.1 contentEq
      obtain ⟨closing, rfl⟩ := exists_last contentEq
      obtain ⟨derived, rfl, treesEq⟩ := Expr.exists_items items shape _ itemsEq
      refine ⟨.primary (.list opening derived closing), ?_, ?_⟩
      · rw [Factor.tokens, Primary.tokens]
      · rw [Factor.tree, Primary.tree, Expr.mapSpans, Expr.mapSpans, treesEq]
  | .piecewise span first rest otherwise, ⟨firstShape, restShape, otherwiseShape⟩, tokens,
      contentEq => by
      rw [Expr.contents] at contentEq
      obtain ⟨opening, behind, rfl, -, contentEq⟩ := exists_terminal contentEq
      obtain ⟨firstTokens, behind, rfl, firstEq, contentEq⟩ := List.map_eq_append_iff.1 contentEq
      obtain ⟨restTokens, behind, rfl, restEq, contentEq⟩ := List.map_eq_append_iff.1 contentEq
      obtain ⟨otherwiseTokens, behind, rfl, otherwiseEq, contentEq⟩ :=
        List.map_eq_append_iff.1 contentEq
      obtain ⟨closing, rfl⟩ := exists_last contentEq
      obtain ⟨branch, rfl, branchClause⟩ := Clause.exists_branch first firstShape _ firstEq
      obtain ⟨branches, branchesTokens, firstClause, otherClauses⟩ :=
        Clause.exists_branches rest restShape branch _ restEq
      obtain ⟨factor, rfl, treeEq⟩ := otherwise.exists_factor otherwiseShape _ otherwiseEq
      refine ⟨.primary (.piecewise opening branches factor.asSum closing), ?_, ?_⟩
      · simp [Factor.tokens, Primary.tokens, branchesTokens]
      · rw [Factor.tree, Primary.tree, Expr.mapSpans, Expr.mapSpans, firstClause, otherClauses,
          branchClause, Factor.tree_asSum, treeEq]
  | .mapped _ _, shape, _, _ => absurd shape id

theorem Expr.exists_items : (exprs : List Expr) → Expr.AllWellFormed exprs →
    (tokens : List Token) → tokens.map Token.content = Expr.listContents exprs →
    ∃ items : Items, items.tokens = tokens ∧
      Expr.mapAllSpans .forget items.trees = Expr.mapAllSpans .forget exprs
  | [], _, tokens, contentEq => by
      rw [List.map_eq_nil_iff.1 contentEq]
      exact ⟨.empty, rfl, rfl⟩
  | first :: rest, ⟨firstShape, restShape⟩, tokens, contentEq => by
      rw [Expr.listContents] at contentEq
      obtain ⟨firstTokens, behind, rfl, firstEq, behindEq⟩ := List.map_eq_append_iff.1 contentEq
      obtain ⟨factor, rfl, treeEq⟩ := first.exists_factor firstShape _ firstEq
      obtain ⟨items, itemsTokens, treesEq⟩ :=
        Expr.exists_itemsSome rest restShape factor.asSum _ behindEq
      refine ⟨.listed items, ?_, ?_⟩
      · rw [Items.tokens, itemsTokens, Factor.tokens_asSum]
      · rw [Items.trees, treesEq, Factor.tree_asSum, treeEq, Expr.mapAllSpans]

/-- An item and the tokens of further ones, each behind a comma. -/
theorem Expr.exists_itemsSome : (exprs : List Expr) → Expr.AllWellFormed exprs →
    (item : Chain .sum) → (tokens : List Token) →
    tokens.map Token.content = Expr.moreContents exprs →
    ∃ items : ItemsSome, items.tokens = item.tokens ++ tokens ∧
      Expr.mapAllSpans .forget items.trees =
        item.tree.mapSpans .forget :: Expr.mapAllSpans .forget exprs
  | [], _, item, tokens, contentEq => by
      rw [List.map_eq_nil_iff.1 contentEq]
      refine ⟨.last item, ?_, ?_⟩
      · rw [ItemsSome.tokens, List.append_nil]
      · rw [ItemsSome.trees, Expr.mapAllSpans]
        rfl
  | first :: rest, ⟨firstShape, restShape⟩, item, tokens, contentEq => by
      rw [Expr.moreContents] at contentEq
      obtain ⟨comma, behind, rfl, -, contentEq⟩ := exists_terminal contentEq
      obtain ⟨firstTokens, behind, rfl, firstEq, behindEq⟩ := List.map_eq_append_iff.1 contentEq
      obtain ⟨factor, rfl, treeEq⟩ := first.exists_factor firstShape _ firstEq
      obtain ⟨items, itemsTokens, treesEq⟩ :=
        Expr.exists_itemsSome rest restShape factor.asSum _ behindEq
      refine ⟨.more item comma items, ?_, ?_⟩
      · rw [ItemsSome.tokens, itemsTokens, Factor.tokens_asSum]
      · rw [ItemsSome.trees, Expr.mapAllSpans, treesEq, Factor.tree_asSum, treeEq, Expr.mapAllSpans]

theorem Clause.exists_branch : (clause : Clause Expr) → Clause.WellFormed clause →
    (tokens : List Token) → tokens.map Token.content = Clause.contents clause →
    ∃ branch : Branch, branch.tokens = tokens ∧
      Clause.mapSpans .forget branch.clause = Clause.mapSpans .forget clause
  | ⟨left, comparison, right, result⟩, ⟨known, leftShape, rightShape, resultShape⟩, tokens,
      contentEq => by
      rw [Clause.contents] at contentEq
      obtain ⟨leftTokens, rest, rfl, leftEq, contentEq⟩ := List.map_eq_append_iff.1 contentEq
      obtain ⟨sign, rest, rfl, -, contentEq⟩ := exists_terminal contentEq
      obtain ⟨rightTokens, rest, rfl, rightEq, contentEq⟩ := List.map_eq_append_iff.1 contentEq
      obtain ⟨colon, rest, rfl, -, contentEq⟩ := exists_terminal contentEq
      obtain ⟨resultTokens, rest, rfl, resultEq, contentEq⟩ := List.map_eq_append_iff.1 contentEq
      obtain ⟨comma, rfl⟩ := exists_last contentEq
      obtain ⟨leftFactor, rfl, leftTree⟩ := left.exists_factor leftShape _ leftEq
      obtain ⟨rightFactor, rfl, rightTree⟩ := right.exists_factor rightShape _ rightEq
      obtain ⟨resultFactor, rfl, resultTree⟩ := result.exists_factor resultShape _ resultEq
      obtain ⟨relation, relationToken, relationEq⟩ := exists_relation_of_known known sign
      refine ⟨.mk leftFactor.asSum relation rightFactor.asSum colon resultFactor.asSum comma,
        ?_, ?_⟩
      · simp [Branch.tokens, relationToken]
      · simp [Branch.clause, Clause.mapSpans, leftTree, rightTree, resultTree, relationEq]

/-- A branch and the tokens of further ones. -/
theorem Clause.exists_branches : (clauses : List (Clause Expr)) →
    Clause.AllWellFormed clauses → (branch : Branch) → (tokens : List Token) →
    tokens.map Token.content = Clause.listContents clauses →
    ∃ branches : Branches, branches.tokens = branch.tokens ++ tokens ∧
      Clause.mapSpans .forget branches.firstClause = Clause.mapSpans .forget branch.clause ∧
      Clause.mapAllSpans .forget branches.otherClauses = Clause.mapAllSpans .forget clauses
  | [], _, branch, tokens, contentEq => by
      rw [List.map_eq_nil_iff.1 contentEq]
      refine ⟨.last branch, ?_, ?_, ?_⟩
      · rw [Branches.tokens, List.append_nil]
      · rw [Branches.firstClause]
      · rw [Branches.otherClauses]
  | first :: rest, ⟨firstShape, restShape⟩, branch, tokens, contentEq => by
      rw [Clause.listContents] at contentEq
      obtain ⟨firstTokens, behind, rfl, firstEq, behindEq⟩ := List.map_eq_append_iff.1 contentEq
      obtain ⟨second, rfl, secondClause⟩ := Clause.exists_branch first firstShape _ firstEq
      obtain ⟨branches, branchesTokens, firstClause, otherClauses⟩ :=
        Clause.exists_branches rest restShape second _ behindEq
      refine ⟨.more branch branches, ?_, ?_, ?_⟩
      · rw [Branches.tokens, branchesTokens]
      · rw [Branches.firstClause]
      · rw [Branches.otherClauses, Clause.mapAllSpans, Clause.mapAllSpans, firstClause,
          otherClauses, secondClause]

end

/-! ## Derivations of printed statements -/

theorem exists_freeName {name : String} (shape : IsFreeName name) (token : Terminal .ident)
    (textEq : token.val.text.toList = name.toList) :
    ∃ freeName : FreeName, freeName.val = token ∧ freeName.val.val.text = name := by
  have nameEq := String.toList_inj.1 textEq
  exact ⟨⟨token, by rw [nameEq]; exact shape.2⟩, rfl, nameEq⟩

theorem exists_typeName {type : ValueType} (known : type ∈ ValueType.known)
    (token : Terminal .ident) (textEq : token.val.text.toList = type.name.toList) :
    ∃ typeName : TypeName, typeName.token = token.val ∧ typeName.type = type := by
  have nameEq := String.toList_inj.1 textEq
  simp only [ValueType.known, List.mem_cons, List.not_mem_nil, or_false] at known
  rcases known with rfl | rfl
  · exact ⟨.number ⟨token, nameEq⟩, rfl, rfl⟩
  · exact ⟨.list ⟨token, nameEq⟩, rfl, rfl⟩

theorem Param.exists_parameter {param : Param} (shape : param.WellFormed) {tokens : List Token}
    (contentEq : tokens.map Token.content = param.contents) :
    ∃ parameter : Parameter, parameter.tokens = tokens ∧
      parameter.tree.mapSpans .forget = param.mapSpans .forget := by
  rw [Param.contents] at contentEq
  obtain ⟨nameToken, rest, rfl, nameEq, contentEq⟩ := exists_terminal contentEq
  obtain ⟨colon, rest, rfl, -, contentEq⟩ := exists_terminal contentEq
  obtain ⟨typeToken, rest, rfl, typeEq, restEq⟩ := exists_terminal contentEq
  obtain ⟨name, rfl, nameText⟩ := exists_freeName shape.1 nameToken nameEq
  obtain ⟨type, typeTokenEq, typeEq⟩ := exists_typeName shape.2 typeToken typeEq
  refine ⟨⟨name, colon, type⟩, ?_, ?_⟩
  · rw [Parameter.tokens, typeTokenEq, List.map_eq_nil_iff.1 restEq]
  · rw [Parameter.tree, nameText, typeEq]
    rfl

/-- A parameter and the tokens of further ones, each behind a comma. -/
theorem Param.exists_parametersSome (params : List Param)
    (shape : ∀ param ∈ params, param.WellFormed) (parameter : Parameter) (tokens : List Token)
    (contentEq : tokens.map Token.content = Param.moreContents params) :
    ∃ parameters : ParametersSome, parameters.tokens = parameter.tokens ++ tokens ∧
      parameters.trees.map (Param.mapSpans .forget) =
        parameter.tree.mapSpans .forget :: params.map (Param.mapSpans .forget) := by
  induction params generalizing parameter tokens with
  | nil =>
      rw [List.map_eq_nil_iff.1 contentEq]
      refine ⟨.last parameter, ?_, rfl⟩
      rw [ParametersSome.tokens, List.append_nil]
  | cons first rest ih =>
      rw [List.forall_mem_cons] at shape
      rw [Param.moreContents, List.flatMap_cons, List.cons_append] at contentEq
      obtain ⟨comma, behind, rfl, -, contentEq⟩ := exists_terminal contentEq
      obtain ⟨firstTokens, behind, rfl, firstEq, behindEq⟩ := List.map_eq_append_iff.1 contentEq
      obtain ⟨second, rfl, secondTree⟩ := Param.exists_parameter shape.1 firstEq
      obtain ⟨parameters, parametersTokens, treesEq⟩ := ih shape.2 second _ behindEq
      refine ⟨.more parameter comma parameters, ?_, ?_⟩
      · rw [ParametersSome.tokens, parametersTokens]
      · rw [ParametersSome.trees, List.map_cons, treesEq, secondTree, List.map_cons]

theorem Param.exists_parameters {params : List Param}
    (shape : ∀ param ∈ params, param.WellFormed) {tokens : List Token}
    (contentEq : tokens.map Token.content = Param.listContents params) :
    ∃ parameters : Parameters, parameters.tokens = tokens ∧
      parameters.trees.map (Param.mapSpans .forget) = params.map (Param.mapSpans .forget) := by
  cases params with
  | nil =>
      rw [List.map_eq_nil_iff.1 contentEq]
      exact ⟨.empty, rfl, rfl⟩
  | cons first rest =>
      rw [List.forall_mem_cons] at shape
      obtain ⟨firstTokens, behind, rfl, firstEq, behindEq⟩ := List.map_eq_append_iff.1 contentEq
      obtain ⟨parameter, rfl, treeEq⟩ := Param.exists_parameter shape.1 firstEq
      obtain ⟨parameters, parametersTokens, treesEq⟩ :=
        Param.exists_parametersSome rest shape.2 parameter _ behindEq
      refine ⟨.listed parameters, parametersTokens, ?_⟩
      rw [Parameters.trees, treesEq, treeEq, List.map_cons]

theorem exists_returns {returns : Option ValueType}
    (known : ∀ type ∈ returns, type ∈ ValueType.known) {tokens : List Token}
    (contentEq : tokens.map Token.content = returnContents returns) :
    ∃ derived : Returns, derived.tokens = tokens ∧ derived.type? = returns := by
  cases returns with
  | none =>
      rw [List.map_eq_nil_iff.1 contentEq]
      exact ⟨.inferred, rfl, rfl⟩
  | some type =>
      rw [returnContents] at contentEq
      obtain ⟨colon, rest, rfl, -, contentEq⟩ := exists_terminal contentEq
      obtain ⟨token, rest, rfl, textEq, restEq⟩ := exists_terminal contentEq
      obtain ⟨typeName, tokenEq, typeEq⟩ := exists_typeName (known type rfl) token textEq
      refine ⟨.announced colon typeName, ?_, ?_⟩
      · rw [Returns.tokens, tokenEq, List.map_eq_nil_iff.1 restEq]
      · rw [Returns.type?, typeEq]

/-- The tokens of a printed statement have a derivation with the same tree. -/
theorem Stmt.exists_statement {stmt : Stmt} (shape : stmt.WellFormed) {tokens : List Token}
    (contentEq : tokens.map Token.content = stmt.contents) :
    ∃ statement : Statement, statement.tokens = tokens ∧
      statement.tree.mapSpans .forget = stmt.mapSpans .forget := by
  cases stmt with
  | expr span value =>
      obtain ⟨factor, rfl, treeEq⟩ := value.exists_factor shape tokens contentEq
      refine ⟨.expr factor.asSum, factor.tokens_asSum, ?_⟩
      rw [Statement.tree, Stmt.mapSpans, Stmt.mapSpans, Factor.tree_asSum, treeEq]
  | define span name params returns body =>
      obtain ⟨nameShape, paramsShape, known, bodyShape⟩ := shape
      rw [Stmt.contents] at contentEq
      obtain ⟨nameToken, rest, rfl, nameEq, contentEq⟩ := exists_terminal contentEq
      obtain ⟨opening, rest, rfl, -, contentEq⟩ := exists_terminal contentEq
      obtain ⟨paramTokens, rest, rfl, paramsEq, contentEq⟩ := List.map_eq_append_iff.1 contentEq
      obtain ⟨closing, rest, rfl, -, contentEq⟩ := exists_terminal contentEq
      obtain ⟨returnTokens, rest, rfl, returnsEq, contentEq⟩ :=
        List.map_eq_append_iff.1 contentEq
      obtain ⟨sign, rest, rfl, -, bodyEq⟩ := exists_terminal contentEq
      obtain ⟨freeName, rfl, nameText⟩ := exists_freeName nameShape nameToken nameEq
      obtain ⟨parameters, rfl, treesEq⟩ := Param.exists_parameters paramsShape paramsEq
      obtain ⟨derived, rfl, typeEq⟩ := exists_returns known returnsEq
      obtain ⟨factor, rfl, treeEq⟩ := body.exists_factor bodyShape _ bodyEq
      refine ⟨.define freeName opening parameters closing derived sign factor.asSum, ?_, ?_⟩
      · rw [Statement.tokens, Factor.tokens_asSum]
      · rw [Statement.tree, Stmt.mapSpans, Stmt.mapSpans, nameText, treesEq, typeEq,
          Factor.tree_asSum, treeEq]

end GraphCalc
