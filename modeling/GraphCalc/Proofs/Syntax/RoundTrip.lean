import GraphCalc.Proofs.Syntax.Acceptance
import GraphCalc.Proofs.Syntax.Printed

/-!
# Reading undoes printing

The lines of a printed program are those of its statements, and each has a
derivation, so the program is read back from its text up to spans.  In the
other direction every program that was read without an error is well-formed,
because its names and numbers are the texts of tokens.
-/

namespace GraphCalc

open Grammar

/-! ## Lines -/

namespace Grammar

mutual

/-- No derivation of an expression crosses a line end. -/
theorem Chain.endsLine_eq_false {level : Level} : (chain : Chain level) →
    ∀ token ∈ chain.tokens, token.kind.endsLine = false
  | .operand only => by
      simpa [Chain.tokens] using only.endsLine_eq_false
  | .join left sign right => by
      have signEq : sign.token.kind.endsLine = false := by
        cases sign
        all_goals simp [Sign.token, Kind.endsLine]
      rw [Chain.tokens, List.forall_mem_append, List.forall_mem_cons]
      exact ⟨left.endsLine_eq_false, signEq, right.endsLine_eq_false⟩

theorem Operand.endsLine_eq_false {level : Level} : (operand : Operand level) →
    ∀ token ∈ operand.tokens, token.kind.endsLine = false
  | .product chain => by
      simpa [Operand.tokens] using chain.endsLine_eq_false
  | .factor factor => by
      simpa [Operand.tokens] using factor.endsLine_eq_false

theorem Factor.endsLine_eq_false : (factor : Factor) →
    ∀ token ∈ factor.tokens, token.kind.endsLine = false
  | .primary only => by
      simpa [Factor.tokens] using only.endsLine_eq_false
  | .marked operand mark => by
      rw [Factor.tokens, List.forall_mem_append, List.forall_mem_singleton]
      exact ⟨operand.endsLine_eq_false, by simp [Kind.endsLine]⟩

theorem Primary.endsLine_eq_false : (primary : Primary) →
    ∀ token ∈ primary.tokens, token.kind.endsLine = false
  | .number digits => by
      simp [Primary.tokens, Kind.endsLine]
  | .negative minus digits => by
      simp [Primary.tokens, Kind.endsLine]
  | .var name => by
      simp [Primary.tokens, Kind.endsLine]
  | .call name opening args closing => by
      have argsEq := args.endsLine_eq_false
      simpa [Primary.tokens, Kind.endsLine, or_imp, forall_and] using argsEq
  | .macroCall name opening args closing => by
      have argsEq := args.endsLine_eq_false
      simpa [Primary.tokens, Kind.endsLine, or_imp, forall_and] using argsEq
  | .group opening inner closing => by
      have innerEq := inner.endsLine_eq_false
      simpa [Primary.tokens, Kind.endsLine, or_imp, forall_and] using innerEq
  | .list opening items closing => by
      have itemsEq := items.endsLine_eq_false
      simpa [Primary.tokens, Kind.endsLine, or_imp, forall_and] using itemsEq
  | .piecewise opening branches otherwise closing => by
      have branchesEq := branches.endsLine_eq_false
      have otherwiseEq := otherwise.endsLine_eq_false
      simpa [Primary.tokens, Kind.endsLine, or_imp, forall_and] using
        And.intro branchesEq otherwiseEq

theorem Items.endsLine_eq_false : (items : Items) →
    ∀ token ∈ items.tokens, token.kind.endsLine = false
  | .empty => by
      simp [Items.tokens]
  | .listed items => by
      simpa [Items.tokens] using items.endsLine_eq_false

theorem ItemsSome.endsLine_eq_false : (items : ItemsSome) →
    ∀ token ∈ items.tokens, token.kind.endsLine = false
  | .last item => by
      simpa [ItemsSome.tokens] using item.endsLine_eq_false
  | .more item comma rest => by
      rw [ItemsSome.tokens, List.forall_mem_append, List.forall_mem_cons]
      exact ⟨item.endsLine_eq_false, by simp [Kind.endsLine], rest.endsLine_eq_false⟩

theorem Branch.endsLine_eq_false : (branch : Branch) →
    ∀ token ∈ branch.tokens, token.kind.endsLine = false
  | .mk left relation right colon result comma => by
      have relationEq : relation.token.kind.endsLine = false := by
        cases relation
        all_goals simp [Relation.token, Kind.endsLine]
      rw [Branch.tokens, List.forall_mem_append, List.forall_mem_cons, List.forall_mem_append,
        List.forall_mem_cons, List.forall_mem_append, List.forall_mem_singleton]
      exact ⟨left.endsLine_eq_false, relationEq, right.endsLine_eq_false,
        by simp [Kind.endsLine], result.endsLine_eq_false, by simp [Kind.endsLine]⟩

theorem Branches.endsLine_eq_false : (branches : Branches) →
    ∀ token ∈ branches.tokens, token.kind.endsLine = false
  | .last branch => by
      simpa [Branches.tokens] using branch.endsLine_eq_false
  | .more branch rest => by
      rw [Branches.tokens, List.forall_mem_append]
      exact ⟨branch.endsLine_eq_false, rest.endsLine_eq_false⟩

end

theorem Parameter.endsLine_eq_false (parameter : Parameter) :
    ∀ token ∈ parameter.tokens, token.kind.endsLine = false := by
  simp [Parameter.tokens, Kind.endsLine, TypeName.kind_token]

theorem ParametersSome.endsLine_eq_false (parameters : ParametersSome) :
    ∀ token ∈ parameters.tokens, token.kind.endsLine = false := by
  induction parameters with
  | last parameter => exact parameter.endsLine_eq_false
  | more parameter comma rest ih =>
      rw [ParametersSome.tokens, List.forall_mem_append, List.forall_mem_cons]
      exact ⟨parameter.endsLine_eq_false, by simp [Kind.endsLine], ih⟩

theorem Parameters.endsLine_eq_false (parameters : Parameters) :
    ∀ token ∈ parameters.tokens, token.kind.endsLine = false := by
  cases parameters with
  | empty => exact nofun
  | listed parameters => exact parameters.endsLine_eq_false

theorem Returns.endsLine_eq_false (returns : Returns) :
    ∀ token ∈ returns.tokens, token.kind.endsLine = false := by
  cases returns with
  | inferred => exact nofun
  | announced colon type => simp [Returns.tokens, Kind.endsLine, TypeName.kind_token]

/-- No derivation of a statement crosses a line end. -/
theorem Statement.endsLine_eq_false (statement : Statement) :
    ∀ token ∈ statement.tokens, token.kind.endsLine = false := by
  cases statement with
  | expr value => exact value.endsLine_eq_false
  | define name opening parameters closing returns sign body =>
      rw [Statement.tokens, List.forall_mem_cons, List.forall_mem_cons, List.forall_mem_append,
        List.forall_mem_cons, List.forall_mem_append, List.forall_mem_cons]
      exact ⟨by simp [Kind.endsLine], by simp [Kind.endsLine], parameters.endsLine_eq_false,
        by simp [Kind.endsLine], returns.endsLine_eq_false, by simp [Kind.endsLine],
        body.endsLine_eq_false⟩

end Grammar

/-- The lines of a printed program are derivations of its statements. -/
theorem Program.exists_statements (program : Program) (shape : program.WellFormed)
    (tokens : List Token) (contentEq : tokens.map Token.content = program.contents) :
    ∃ statements : List Statement,
      statements.map Statement.tokens =
        (((Line.split tokens).map Line.tokens).filter fun run => run ≠ []) ∧
      Program.bare (statements.map Statement.tree) = program.bare := by
  induction program generalizing tokens with
  | nil =>
      obtain ⟨stop, rest, rfl, -, restEq⟩ := exists_terminal contentEq
      refine ⟨[], ?_, rfl⟩
      rw [Line.split_cons_of_eof rest stop.property]
      rfl
  | cons stmt others ih =>
      unfold Program.WellFormed at shape
      rw [List.forall_mem_cons] at shape
      cases others with
      | nil =>
          obtain ⟨run, rest, rfl, runEq, restEq⟩ := List.map_eq_append_iff.1 contentEq
          obtain ⟨statement, rfl, treeEq⟩ := Stmt.exists_statement shape.1 runEq
          obtain ⟨stop, rest, rfl, -, -⟩ := exists_terminal restEq
          refine ⟨[statement], ?_, ?_⟩
          · rw [Line.split_append statement.endsLine_eq_false
              (Line.split_cons_of_eof rest stop.property)]
            simp [statement.tokens_ne_nil]
          · simp [Program.bare, treeEq]
      | cons second others =>
          obtain ⟨run, rest, rfl, runEq, restEq⟩ := List.map_eq_append_iff.1 contentEq
          obtain ⟨statement, rfl, treeEq⟩ := Stmt.exists_statement shape.1 runEq
          obtain ⟨lineEnd, rest, rfl, -, othersEq⟩ := exists_terminal restEq
          obtain ⟨statements, tokensEq, treesEq⟩ := ih shape.2 rest othersEq
          refine ⟨statement :: statements, ?_, ?_⟩
          · rw [Line.split_append statement.endsLine_eq_false
              (Line.split_cons_of_newline rest lineEnd.property)]
            simp [statement.tokens_ne_nil, tokensEq]
          · simp only [Program.bare, List.map_cons] at treesEq ⊢
            rw [treeEq, treesEq]

/-- A well-formed program is read back from its text. -/
theorem Program.ofText_text {program : Program} (shape : program.WellFormed) (file : String) :
    (Parsed.ofText file program.text.toList).errors = [] ∧
      (Parsed.ofText file program.text.toList).program.bare = program.bare := by
  obtain ⟨statements, tokensEq, treesEq⟩ := program.exists_statements shape _
    (Program.content_tokenize shape file)
  constructor
  · refine (errors_eq_nil_iff _).2 ?_
    intro line isLine
    by_cases blank : line.tokens = []
    · exact .inl blank
    · have isRun : line.tokens ∈ statements.map Statement.tokens := by
        rw [tokensEq]
        exact List.mem_filter.2 ⟨List.mem_map_of_mem isLine, by simpa using blank⟩
      obtain ⟨statement, -, statementTokens⟩ := List.mem_map.1 isRun
      exact .inr ⟨statement, statementTokens⟩
  · rw [← treesEq]
    exact congrArg Program.bare (program_eq_map_tree _ statements tokensEq)

/-! ## Programs that were read -/

namespace Grammar

/-- Tokens that have the shapes of what is read from a text. -/
def AllShaped (tokens : List Token) : Prop :=
  ∀ token ∈ tokens, Lexeme.Shaped token.kind token.text.toList

@[simp]
theorem allShaped_cons {token : Token} {tokens : List Token} :
    AllShaped (token :: tokens) ↔
      Lexeme.Shaped token.kind token.text.toList ∧ AllShaped tokens :=
  List.forall_mem_cons

@[simp]
theorem allShaped_append {left right : List Token} :
    AllShaped (left ++ right) ↔ AllShaped left ∧ AllShaped right :=
  List.forall_mem_append

theorem Terminal.isName {name : Terminal .ident}
    (shaped : Lexeme.Shaped name.val.kind name.val.text.toList) :
    Lexeme.IsName name.val.text.toList :=
  shaped.1 (.inl name.property)

theorem Terminal.isMacroName {name : Terminal .macroName}
    (shaped : Lexeme.Shaped name.val.kind name.val.text.toList) :
    Lexeme.IsName name.val.text.toList :=
  shaped.1 (.inr name.property)

theorem Terminal.isNumeral {digits : Terminal .number}
    (shaped : Lexeme.Shaped digits.val.kind digits.val.text.toList) :
    Lexeme.IsNumeral digits.val.text.toList :=
  shaped.2 digits.property

mutual

/-- The tree of a derivation over tokens of a text is well-formed. -/
theorem Chain.wellFormed_tree {level : Level} : (chain : Chain level) →
    AllShaped chain.tokens → chain.tree.WellFormed
  | .operand only, shaped => by
      rw [Chain.tree]
      exact only.wellFormed_tree shaped
  | .join left sign right, shaped => by
      rw [Chain.tokens, allShaped_append, allShaped_cons] at shaped
      have known : sign.op ∈ BinaryOp.known := by
        cases sign
        all_goals simp [Sign.op, BinaryOp.known]
      rw [Chain.tree]
      exact ⟨known, left.wellFormed_tree shaped.1, right.wellFormed_tree shaped.2.2⟩

theorem Operand.wellFormed_tree {level : Level} : (operand : Operand level) →
    AllShaped operand.tokens → operand.tree.WellFormed
  | .product chain, shaped => by
      rw [Operand.tree]
      exact chain.wellFormed_tree shaped
  | .factor factor, shaped => by
      rw [Operand.tree]
      exact factor.wellFormed_tree shaped

theorem Factor.wellFormed_tree : (factor : Factor) →
    AllShaped factor.tokens → factor.tree.WellFormed
  | .primary only, shaped => by
      rw [Factor.tree]
      exact only.wellFormed_tree shaped
  | .marked operand mark, shaped => by
      rw [Factor.tokens, allShaped_append] at shaped
      rw [Factor.tree]
      exact ⟨rfl, operand.wellFormed_tree shaped.1⟩

theorem Primary.wellFormed_tree : (primary : Primary) →
    AllShaped primary.tokens → primary.tree.WellFormed
  | .number digits, shaped => by
      rw [Primary.tokens, allShaped_cons] at shaped
      rw [Primary.tree]
      exact .plain (Terminal.isNumeral shaped.1)
  | .negative minus digits, shaped => by
      rw [Primary.tokens, allShaped_cons, allShaped_cons] at shaped
      rw [Primary.tree, Expr.WellFormed, String.toList_append]
      exact .negative (Terminal.isNumeral shaped.2.1)
  | .var name, shaped => by
      rw [Primary.tokens, allShaped_cons] at shaped
      rw [Primary.tree]
      exact Terminal.isName shaped.1
  | .call name opening args closing, shaped => by
      rw [Primary.tokens, allShaped_cons, allShaped_cons, allShaped_append] at shaped
      rw [Primary.tree]
      exact ⟨rfl, Terminal.isName shaped.1, args.wellFormed_trees shaped.2.2.1⟩
  | .macroCall name opening args closing, shaped => by
      rw [Primary.tokens, allShaped_cons, allShaped_cons, allShaped_append] at shaped
      rw [Primary.tree]
      exact ⟨Terminal.isMacroName shaped.1, args.wellFormed_trees shaped.2.2.1⟩
  | .group opening inner closing, shaped => by
      rw [Primary.tokens, allShaped_cons, allShaped_append] at shaped
      rw [Primary.tree]
      exact inner.wellFormed_tree shaped.2.1
  | .list opening items closing, shaped => by
      rw [Primary.tokens, allShaped_cons, allShaped_append] at shaped
      rw [Primary.tree]
      exact items.wellFormed_trees shaped.2.1
  | .piecewise opening branches otherwise closing, shaped => by
      rw [Primary.tokens, allShaped_cons, allShaped_append, allShaped_append] at shaped
      rw [Primary.tree]
      have clauses := branches.wellFormed_clauses shaped.2.1
      exact ⟨clauses.1, clauses.2, otherwise.wellFormed_tree shaped.2.2.1⟩

theorem Items.wellFormed_trees : (items : Items) →
    AllShaped items.tokens → Expr.AllWellFormed items.trees
  | .empty, _ => trivial
  | .listed items, shaped => by
      rw [Items.trees]
      exact items.wellFormed_trees shaped

theorem ItemsSome.wellFormed_trees : (items : ItemsSome) →
    AllShaped items.tokens → Expr.AllWellFormed items.trees
  | .last item, shaped => by
      rw [ItemsSome.trees]
      exact ⟨item.wellFormed_tree shaped, trivial⟩
  | .more item comma rest, shaped => by
      rw [ItemsSome.tokens, allShaped_append, allShaped_cons] at shaped
      rw [ItemsSome.trees]
      exact ⟨item.wellFormed_tree shaped.1, rest.wellFormed_trees shaped.2.2⟩

theorem Branch.wellFormed_clause : (branch : Branch) →
    AllShaped branch.tokens → Clause.WellFormed branch.clause
  | .mk left relation right colon result comma, shaped => by
      rw [Branch.tokens, allShaped_append, allShaped_cons, allShaped_append, allShaped_cons,
        allShaped_append] at shaped
      have known : relation.comparison ∈ Comparison.known := by
        cases relation
        all_goals simp [Relation.comparison, Comparison.known]
      rw [Branch.clause]
      exact ⟨known, left.wellFormed_tree shaped.1, right.wellFormed_tree shaped.2.2.1,
        result.wellFormed_tree shaped.2.2.2.2.1⟩

theorem Branches.wellFormed_clauses : (branches : Branches) → AllShaped branches.tokens →
    Clause.WellFormed branches.firstClause ∧ Clause.AllWellFormed branches.otherClauses
  | .last branch, shaped => by
      rw [Branches.firstClause, Branches.otherClauses]
      exact ⟨branch.wellFormed_clause shaped, trivial⟩
  | .more branch rest, shaped => by
      rw [Branches.tokens, allShaped_append] at shaped
      rw [Branches.firstClause, Branches.otherClauses]
      exact ⟨branch.wellFormed_clause shaped.1, rest.wellFormed_clauses shaped.2⟩

end

theorem TypeName.known_type (type : TypeName) : type.type ∈ ValueType.known := by
  cases type
  all_goals simp [TypeName.type, ValueType.known]

theorem Parameter.wellFormed_tree {parameter : Parameter} (shaped : AllShaped parameter.tokens) :
    parameter.tree.WellFormed := by
  rw [Parameter.tokens, allShaped_cons] at shaped
  exact ⟨⟨Terminal.isName shaped.1, parameter.name.property⟩, parameter.type.known_type⟩

theorem ParametersSome.wellFormed_trees {parameters : ParametersSome}
    (shaped : AllShaped parameters.tokens) : ∀ param ∈ parameters.trees, param.WellFormed := by
  induction parameters with
  | last parameter =>
      rw [ParametersSome.trees, List.forall_mem_singleton]
      exact Parameter.wellFormed_tree shaped
  | more parameter comma rest ih =>
      rw [ParametersSome.tokens, allShaped_append, allShaped_cons] at shaped
      rw [ParametersSome.trees, List.forall_mem_cons]
      exact ⟨Parameter.wellFormed_tree shaped.1, ih shaped.2.2⟩

theorem Parameters.wellFormed_trees {parameters : Parameters}
    (shaped : AllShaped parameters.tokens) : ∀ param ∈ parameters.trees, param.WellFormed := by
  cases parameters with
  | empty => exact nofun
  | listed parameters => exact ParametersSome.wellFormed_trees shaped

theorem Returns.known_type? (returns : Returns) :
    ∀ type ∈ returns.type?, type ∈ ValueType.known := by
  cases returns with
  | inferred => exact nofun
  | announced colon type =>
      rintro _ ⟨⟩
      exact type.known_type

/-- The tree of a line's derivation over tokens of a text is well-formed. -/
theorem Statement.wellFormed_tree {statement : Statement} (shaped : AllShaped statement.tokens) :
    statement.tree.WellFormed := by
  cases statement with
  | expr value => exact value.wellFormed_tree shaped
  | define name opening parameters closing returns sign body =>
      rw [Statement.tokens, allShaped_cons, allShaped_cons, allShaped_append, allShaped_cons,
        allShaped_append, allShaped_cons] at shaped
      rcases shaped with ⟨nameShaped, -, parametersShaped, -, -, -, bodyShaped⟩
      exact ⟨⟨Terminal.isName nameShaped, name.property⟩,
        Parameters.wellFormed_trees parametersShaped, returns.known_type?,
        body.wellFormed_tree bodyShaped⟩

end Grammar

theorem Line.mem_of_mem_split {tokens : List Token} {line : Line}
    (isLine : line ∈ split tokens) : ∀ token ∈ line.tokens, token ∈ tokens := by
  induction tokens generalizing line with
  | nil => cases isLine
  | cons first rest ih =>
      by_cases isEnd : first.kind = .eof
      · rw [split_cons_of_eof rest isEnd, List.mem_singleton] at isLine
        subst isLine
        exact nofun
      · by_cases isLineEnd : first.kind = .newline
        · rw [split_cons_of_newline rest isLineEnd, List.mem_cons] at isLine
          rcases isLine with rfl | isLine
          · exact nofun
          · intro token isToken
            exact List.mem_cons_of_mem _ (ih isLine token isToken)
        · rw [split_cons_of_ne rest isEnd isLineEnd] at isLine
          cases splitEq : split rest with
          | nil =>
              rw [splitEq] at isLine
              cases isLine
          | cons line' lines =>
              rw [splitEq, List.modifyHead_cons, List.mem_cons] at isLine
              rw [splitEq] at ih
              rcases isLine with rfl | isLine
              · rw [List.forall_mem_cons]
                refine ⟨List.mem_cons_self, ?_⟩
                intro token isToken
                exact List.mem_cons_of_mem _ (ih List.mem_cons_self token isToken)
              · intro token isToken
                exact List.mem_cons_of_mem _ (ih (List.mem_cons_of_mem _ isLine) token isToken)

/-- A program that was read without an error is well-formed. -/
theorem Parsed.wellFormed_program {file : String} {source : List Char}
    (noErrors : (Parsed.ofText file source).errors = []) :
    (Parsed.ofText file source).program.WellFormed := by
  have derivable := (errors_eq_nil_iff _).1 noErrors
  obtain ⟨statements, tokensEq⟩ := exists_derivations
    ((Line.split (tokenize file source)).map Line.tokens) (List.forall_mem_map.2 derivable)
  rw [Parsed.ofText, Parsed.ofTokens, program_eq_map_tree _ statements tokensEq]
  intro stmt isStmt
  rcases List.mem_map.1 isStmt with ⟨statement, isStatement, rfl⟩
  apply Statement.wellFormed_tree
  -- The tokens of a line are tokens of the text.
  have isRun : statement.tokens ∈ statements.map Statement.tokens :=
    List.mem_map_of_mem isStatement
  rw [tokensEq] at isRun
  rcases List.mem_map.1 (List.mem_filter.1 isRun).1 with ⟨line, isLine, lineTokens⟩
  intro token isToken
  rw [← lineTokens] at isToken
  exact Cursor.shaped_tokens _ token (Line.mem_of_mem_split isLine token isToken)

/-- Reading undoes printing: a well-formed program is read back from its text
without an error and up to spans.  So is every program that was read without an
error from any text. -/
theorem reading_undoes_printing :
    (∀ (program : Program) (file : String), program.WellFormed →
      (Parsed.ofText file program.text.toList).errors = [] ∧
        (Parsed.ofText file program.text.toList).program.bare = program.bare) ∧
    (∀ (source : List Char) (file printedFile : String),
      let parsed := Parsed.ofText file source
      let reparsed := Parsed.ofText printedFile parsed.program.text.toList
      parsed.errors = [] → reparsed.errors = [] ∧ reparsed.program.bare = parsed.program.bare) := by
  constructor
  · intro program file shape
    exact Program.ofText_text shape file
  · intro source file printedFile parsed reparsed noErrors
    exact Program.ofText_text (Parsed.wellFormed_program noErrors) printedFile

/-- A definition and a call of the defined function: the call is not mistaken
for another definition, and the minus sign stays with its number under the
factorial. -/
theorem reading_undoes_printing_call :
    let program : Program :=
      [.define .nowhere "f" [⟨.nowhere, "x", .number⟩] none
          (.unary .nowhere .factorial (.number .nowhere "-2")),
        .expr .nowhere (.call .nowhere .normal "f" [.var .nowhere "x"])]
    program.WellFormed ∧ (Parsed.ofText "" program.text.toList).errors = [] ∧
      (Parsed.ofText "" program.text.toList).program.bare = program := by
  intro program
  have shape : program.WellFormed := by
    intro stmt isStmt
    rcases List.mem_cons.1 isStmt with rfl | isStmt
    · refine ⟨⟨by decide, by decide⟩, ?_, nofun, rfl, .negative (.whole (by decide))⟩
      rw [List.forall_mem_singleton]
      exact ⟨⟨by decide, by decide⟩, by decide⟩
    · rw [List.mem_singleton] at isStmt
      subst isStmt
      exact ⟨rfl, by decide, (by decide : Lexeme.IsName ['x']), trivial⟩
  exact ⟨shape, reading_undoes_printing.1 program "" shape⟩

end GraphCalc
