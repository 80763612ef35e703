import GraphCalc.Proofs.Syntax.LineOutcomes
import GraphCalc.Proofs.Syntax.Trees
import GraphCalc.Proofs.Token.Offsets

/-!
# Spans form a tree

The span of an expression goes from the start of a token to the stop of a token.
It contains the spans of the parts of the expression, which follow each other as
they do in the text.  Parentheses are tokens but no parts, so a span may be
smaller than the tokens it was derived from; what is carried through a derivation
is that every span in its tree lies between tokens of the derivation.  Everything
else follows from the order of the tokens.
-/

namespace GraphCalc

open Lexeme

/-! ## Spans -/

namespace Span

/-- Whether a span contains another one. -/
def Contains (outer inner : Span) : Prop :=
  outer.start.offset ≤ inner.start.offset ∧ inner.stop.offset ≤ outer.stop.offset

/-- Whether a span stops before another one starts. -/
def Before (left right : Span) : Prop :=
  left.stop.offset ≤ right.start.offset

/-- Whether a span is not empty and goes from the start of a token to the stop of
a token. -/
structure Framed (tokens : List Token) (span : Span) : Prop extends span.Between tokens where
  filled : span.start.offset < span.stop.offset

theorem Framed.mono {tokens others : List Token} {span : Span} (framed : span.Framed tokens)
    (subset : tokens ⊆ others) : span.Framed others where
  start := framed.start.imp fun _ => And.imp_left (@subset _)
  stop := framed.stop.imp fun _ => And.imp_left (@subset _)
  filled := framed.filled

/-- The characters of a text that a span covers. -/
def cut (span : Span) (text : List Char) : List Char :=
  text.extract span.start.offset.toNat span.stop.offset.toNat

end Span

/-! ## Tokens in a text -/

/-- Tokens of a text in their order: none is empty, each one stops before the next
one starts, and each one covers its spelling. -/
structure Spread (text : List Char) (tokens : List Token) : Prop where
  ordered : tokens.Pairwise fun left right => left.span.Before right.span
  filled : ∀ token ∈ tokens, token.start.offset < token.stop.offset
  spelled : ∀ token ∈ tokens, token.span.cut text = token.spelling

namespace Spread

variable {text : List Char} {tokens left right : List Token}

theorem sublist (spread : Spread text tokens) {others : List Token}
    (isSublist : others.Sublist tokens) : Spread text others where
  ordered := spread.ordered.sublist isSublist
  filled token isToken := spread.filled token (isSublist.subset isToken)
  spelled token isToken := spread.spelled token (isSublist.subset isToken)

theorem of_append_left (spread : Spread text (left ++ right)) : Spread text left :=
  spread.sublist (List.sublist_append_left left right)

theorem of_append_right (spread : Spread text (left ++ right)) : Spread text right :=
  spread.sublist (List.sublist_append_right left right)

theorem of_cons {token : Token} (spread : Spread text (token :: tokens)) : Spread text tokens :=
  spread.sublist (List.sublist_cons_self token tokens)

theorem framed_token (spread : Spread text tokens) {token : Token} (isToken : token ∈ tokens) :
    token.span.Framed [token] where
  start := ⟨token, List.mem_singleton_self token, rfl⟩
  stop := ⟨token, List.mem_singleton_self token, rfl⟩
  filled := spread.filled token isToken

/-- Spans of tokens in front are before spans of tokens behind them. -/
theorem before (spread : Spread text (left ++ right)) {first last : Span}
    (inLeft : first.Between left) (inRight : last.Between right) : first.Before last := by
  rcases inLeft.stop with ⟨firstToken, isLeft, stopEq⟩
  rcases inRight.start with ⟨lastToken, isRight, startEq⟩
  rw [Span.Before, stopEq, startEq]
  exact (List.pairwise_append.1 spread.ordered).2.2 firstToken isLeft lastToken isRight

end Spread

/-- A span may go from a span of tokens in front to a span of tokens behind
them. -/
theorem Span.Framed.join {text : List Char} {left right : List Token} {first last : Span}
    (inLeft : first.Framed left) (inRight : last.Framed right)
    (spread : Spread text (left ++ right)) : (first.join last).Framed (left ++ right) where
  start := (inLeft.mono (List.subset_append_left left right)).start
  stop := (inRight.mono (List.subset_append_right left right)).stop
  filled := by
    have apart : first.stop.offset ≤ last.start.offset :=
      spread.before inLeft.toBetween inRight.toBetween
    have firstFilled := inLeft.filled
    have lastFilled := inRight.filled
    simp only [Span.join]
    omega

theorem Span.Framed.join_contains {text : List Char} {left right : List Token}
    {first last : Span} (inLeft : first.Framed left) (inRight : last.Framed right)
    (spread : Spread text (left ++ right)) :
    (first.join last).Contains first ∧ (first.join last).Contains last := by
  have apart : first.stop.offset ≤ last.start.offset :=
    spread.before inLeft.toBetween inRight.toBetween
  have firstFilled := inLeft.filled
  have lastFilled := inRight.filled
  simp only [Span.Contains, Span.join]
  omega

/-- Spans one after another, each of them framed by tokens. -/
structure Span.Series (tokens : List Token) (spans : List Span) : Prop where
  each : ∀ span ∈ spans, span.Framed tokens
  ordered : spans.Pairwise Span.Before

namespace Span.Series

variable {text : List Char} {tokens others left right : List Token} {spans : List Span}

theorem mono (series : Series tokens spans) (subset : tokens ⊆ others) : Series others spans where
  each span isSpan := (series.each span isSpan).mono subset
  ordered := series.ordered

theorem nil : Series tokens [] :=
  ⟨List.forall_mem_nil _, .nil⟩

theorem single {span : Span} (framed : span.Framed tokens) : Series tokens [span] :=
  ⟨List.forall_mem_singleton.2 framed, List.pairwise_singleton _ _⟩

/-- Spans of tokens in front and spans of tokens behind them make up one
series. -/
theorem append {firsts lasts : List Span} (front : Series left firsts) (back : Series right lasts)
    (spread : Spread text (left ++ right)) : Series (left ++ right) (firsts ++ lasts) where
  each := by
    intro span isSpan
    rcases List.mem_append.1 isSpan with isFirst | isLast
    · exact (front.each span isFirst).mono (List.subset_append_left left right)
    · exact (back.each span isLast).mono (List.subset_append_right left right)
  ordered := by
    refine List.pairwise_append.2 ⟨front.ordered, back.ordered, ?_⟩
    intro first isFirst last isLast
    exact spread.before (front.each first isFirst).toBetween (back.each last isLast).toBetween

end Span.Series

/-! ## Trees -/

/-- Whether there is a sign for the comparison of a conditional part, between the
two sides. -/
def Clause.Compared (tokens : List Token) (clause : Clause Expr) : Prop :=
  ∃ token ∈ tokens, token.kind.comparison? = some clause.comparison ∧
    clause.left.span.Before token.span ∧ token.span.Before clause.right.span

theorem Clause.Compared.mono {tokens others : List Token} {clause : Clause Expr}
    (compared : clause.Compared tokens) (subset : tokens ⊆ others) : clause.Compared others :=
  compared.imp fun _ => And.imp_left (@subset _)

namespace Expr

/-- The conditional parts of an expression. -/
def clauses : Expr → List (Clause Expr)
  | piecewise _ first rest _ => first :: rest
  | _ => []

/-- Whether the text of a variable or of a number without a sign is what is found
at its span. -/
def Spelled (text : List Char) : Expr → Prop
  | number span value => value.toList.head? ≠ some '-' → span.cut text = value.toList
  | var span name => span.cut text = name.toList
  | _ => True

/-- The spans of an expression form a tree.  Every span is framed by tokens and
contains the spans of the parts, which follow each other; so do the two sides of a
condition and the sign between them. -/
inductive Proper (text : List Char) (tokens : List Token) : Expr → Prop
  | node {expr : Expr} (framed : expr.span.Framed tokens)
      (within : ∀ part ∈ expr.parts, expr.span.Contains part.span)
      (ordered : (expr.parts.map Expr.span).Pairwise Span.Before)
      (compared : ∀ clause ∈ expr.clauses, clause.Compared tokens)
      (spelled : expr.Spelled text)
      (each : ∀ part ∈ expr.parts, part.Proper text tokens) : Proper text tokens expr

/-- Expressions one after another whose spans form trees. -/
structure Row (text : List Char) (tokens : List Token) (exprs : List Expr) : Prop
    extends Span.Series tokens (exprs.map Expr.span) where
  proper : ∀ expr ∈ exprs, expr.Proper text tokens

variable {text : List Char} {tokens others left right : List Token}

theorem Proper.framed {expr : Expr} (proper : expr.Proper text tokens) :
    expr.span.Framed tokens := by
  cases proper with
  | node framed => exact framed

theorem Proper.mono {expr : Expr} (proper : expr.Proper text tokens) (subset : tokens ⊆ others) :
    expr.Proper text others := by
  induction proper with
  | node framed within ordered compared spelled _ ih =>
      exact .node (framed.mono subset) within ordered
        (fun clause isClause => (compared clause isClause).mono subset) spelled ih

namespace Row

theorem mono {exprs : List Expr} (row : Row text tokens exprs) (subset : tokens ⊆ others) :
    Row text others exprs where
  toSeries := row.toSeries.mono subset
  proper expr isExpr := (row.proper expr isExpr).mono subset

theorem nil : Row text tokens [] where
  toSeries := .nil
  proper := List.forall_mem_nil _

theorem single {expr : Expr} (proper : expr.Proper text tokens) : Row text tokens [expr] where
  toSeries := .single proper.framed
  proper := List.forall_mem_singleton.2 proper

/-- Expressions of tokens in front and expressions of tokens behind them make up
one row. -/
theorem append {firsts lasts : List Expr} (front : Row text left firsts)
    (back : Row text right lasts) (spread : Spread text (left ++ right)) :
    Row text (left ++ right) (firsts ++ lasts) where
  toSeries := by
    rw [List.map_append]
    exact front.toSeries.append back.toSeries spread
  proper := by
    intro expr isExpr
    rcases List.mem_append.1 isExpr with isFirst | isLast
    · exact (front.proper expr isFirst).mono (List.subset_append_left left right)
    · exact (back.proper expr isLast).mono (List.subset_append_right left right)

end Row

/-- A phrase of one token. -/
theorem proper_of_token {expr : Expr} {token : Token} (spread : Spread text [token])
    (spanEq : expr.span = token.span) (noParts : expr.parts = []) (noClauses : expr.clauses = [])
    (spelled : expr.Spelled text) : expr.Proper text [token] := by
  apply Proper.node
  · rw [spanEq]
    exact spread.framed_token (List.mem_singleton_self token)
  · rw [noParts]
    exact List.forall_mem_nil _
  · rw [noParts]
    exact .nil
  · rw [noClauses]
    exact List.forall_mem_nil _
  · exact spelled
  · rw [noParts]
    exact List.forall_mem_nil _

/-- A phrase that a token opens and a token closes, with its parts in between. -/
theorem proper_of_enclosed (expr : Expr) (opening closing : Token) (inner : List Token)
    (spread : Spread text ([opening] ++ (inner ++ [closing])))
    (spanEq : expr.span = opening.spanTo closing) (row : Row text inner expr.parts)
    (compared : ∀ clause ∈ expr.clauses, clause.Compared inner) (spelled : expr.Spelled text) :
    expr.Proper text ([opening] ++ (inner ++ [closing])) := by
  have openingFramed : opening.span.Framed [opening] :=
    spread.framed_token (List.mem_append_left _ (List.mem_singleton_self opening))
  have closingFramed : closing.span.Framed [closing] :=
    spread.of_append_right.framed_token
      (List.mem_append_right inner (List.mem_singleton_self closing))
  have behindFramed : closing.span.Framed (inner ++ [closing]) :=
    closingFramed.mono (List.subset_append_right inner [closing])
  have innerSubset : inner ⊆ [opening] ++ (inner ++ [closing]) := fun _ isInner =>
    List.mem_append_right _ (List.mem_append_left _ isInner)
  have framed : expr.span.Framed ([opening] ++ (inner ++ [closing])) := by
    rw [spanEq]
    exact openingFramed.join behindFramed spread
  refine .node framed ?_ row.ordered
    (fun clause isClause => (compared clause isClause).mono innerSubset) spelled
    (row.mono innerSubset).proper
  intro part isPart
  have partFramed := (row.proper part isPart).framed
  have behindOpening := openingFramed.join_contains
    (partFramed.mono (List.subset_append_left inner [closing])) spread
  have beforeClosing := partFramed.join_contains closingFramed spread.of_append_right
  rw [spanEq]
  exact ⟨behindOpening.2.1, beforeClosing.1.2⟩

end Expr

namespace Grammar

variable {text : List Char}

/-- A token other than the name of a macro covers its text. -/
theorem cut_terminal {kind : Kind} (token : Terminal kind) (notMacro : kind ≠ .macroName)
    (spread : Spread text [token.val]) : token.val.span.cut text = token.val.text.toList := by
  rw [spread.spelled token.val (List.mem_singleton_self _), Token.spelling, token.property]
  exact if_neg notMacro

mutual

theorem Chain.proper {level : Level} : (chain : Chain level) → Spread text chain.tokens →
    chain.tree.Proper text chain.tokens
  | .operand only, spread => only.proper spread
  | .join left sign right, spread => by
      -- Each operand has its spans between its own tokens, which are some of the tokens here.
      have leftProper := left.proper spread.of_append_left
      have rightProper := (right.proper spread.of_append_right.of_cons).mono
        (List.subset_cons_self sign.token right.tokens)
      have row := (Expr.Row.single leftProper).append (.single rightProper) spread
      have within := leftProper.framed.join_contains rightProper.framed spread
      exact .node (leftProper.framed.join rightProper.framed spread)
        (List.forall_mem_cons.2 ⟨within.1, List.forall_mem_singleton.2 within.2⟩) row.ordered
        (List.forall_mem_nil _) trivial row.proper

theorem Operand.proper {level : Level} : (operand : Operand level) →
    Spread text operand.tokens → operand.tree.Proper text operand.tokens
  | .product chain, spread => chain.proper spread
  | .factor factor, spread => factor.proper spread

theorem Factor.proper : (factor : Factor) → Spread text factor.tokens →
    factor.tree.Proper text factor.tokens
  | .primary only, spread => only.proper spread
  | .marked operand mark, spread => by
      have operandProper := operand.proper spread.of_append_left
      have markFramed := spread.of_append_right.framed_token (List.mem_singleton_self mark.val)
      have row := (Expr.Row.single operandProper).mono
        (List.subset_append_left operand.tokens [mark.val])
      have within := operandProper.framed.join_contains markFramed spread
      exact .node (operandProper.framed.join markFramed spread)
        (List.forall_mem_singleton.2 within.1) row.ordered (List.forall_mem_nil _) trivial
        row.proper

theorem Primary.proper : (primary : Primary) → Spread text primary.tokens →
    primary.tree.Proper text primary.tokens
  | .number digits, spread =>
      Expr.proper_of_token spread rfl rfl rfl fun _ => cut_terminal digits nofun spread
  | .negative minus digits, spread => by
      apply Expr.proper_of_enclosed _ minus.val digits.val [] spread rfl .nil
        (List.forall_mem_nil _)
      intro unsigned
      simp at unsigned
  | .var name, spread => Expr.proper_of_token spread rfl rfl rfl (cut_terminal name nofun spread)
  | .call name opening args closing, spread => by
      have row := (args.row spread.of_cons.of_cons.of_append_left).mono
        (List.subset_cons_self opening.val args.tokens)
      exact Expr.proper_of_enclosed _ name.val closing.val (opening.val :: args.tokens) spread rfl
        row (List.forall_mem_nil _) trivial
  | .macroCall name opening args closing, spread => by
      have row := (args.row spread.of_cons.of_cons.of_append_left).mono
        (List.subset_cons_self opening.val args.tokens)
      exact Expr.proper_of_enclosed _ name.val closing.val (opening.val :: args.tokens) spread rfl
        row (List.forall_mem_nil _) trivial
  | .group opening inner closing, spread => by
      -- Parentheses leave no trace in the tree: there are more tokens but the same spans.
      have innerProper := inner.proper spread.of_cons.of_append_left
      apply innerProper.mono
      intro token isInner
      exact List.mem_cons_of_mem _ (List.mem_append_left _ isInner)
  | .list opening items closing, spread =>
      Expr.proper_of_enclosed _ opening.val closing.val items.tokens spread rfl
        (items.row spread.of_cons.of_append_left) (List.forall_mem_nil _) trivial
  | .piecewise opening branches otherwise closing, spread => by
      have tokensEq : (Primary.piecewise opening branches otherwise closing).tokens =
          [opening.val] ++ ((branches.tokens ++ otherwise.tokens) ++ [closing.val]) := by
        simp [Primary.tokens]
      rw [tokensEq] at spread ⊢
      have spreadInner := spread.of_append_right.of_append_left
      rcases branches.row spreadInner.of_append_left with ⟨row, compared⟩
      have allParts := row.append (.single (otherwise.proper spreadInner.of_append_right))
        spreadInner
      refine Expr.proper_of_enclosed _ opening.val closing.val _ spread rfl allParts ?_ trivial
      intro clause isClause
      exact (compared clause isClause).mono
        (List.subset_append_left branches.tokens otherwise.tokens)

theorem Items.row : (items : Items) → Spread text items.tokens →
    Expr.Row text items.tokens items.trees
  | .empty, _ => .nil
  | .listed items, spread => items.row spread

theorem ItemsSome.row : (items : ItemsSome) → Spread text items.tokens →
    Expr.Row text items.tokens items.trees
  | .last item, spread => .single (item.proper spread)
  | .more item comma rest, spread => by
      have restRow := (rest.row spread.of_append_right.of_cons).mono
        (List.subset_cons_self comma.val rest.tokens)
      exact (Expr.Row.single (item.proper spread.of_append_left)).append restRow spread

theorem Branch.row : (branch : Branch) → Spread text branch.tokens →
    Expr.Row text branch.tokens branch.clause.parts ∧ branch.clause.Compared branch.tokens
  | .mk left relation right colon result comma, spread => by
      have spreadBehind := spread.of_append_right.of_cons
      have leftProper := left.proper spread.of_append_left
      have rightProper := right.proper spreadBehind.of_append_left
      have resultProper := (result.proper spreadBehind.of_append_right.of_cons.of_append_left).mono
        (List.subset_cons_of_subset colon.val (List.subset_append_left result.tokens [comma.val]))
      have behind := (Expr.Row.single rightProper).append (.single resultProper) spreadBehind
      have row := (Expr.Row.single leftProper).append
        (behind.mono (List.subset_cons_self relation.token _)) spread
      have spreadRelation : Spread text ([relation.token] ++ _) := spread.of_append_right
      have relationFramed := spreadRelation.framed_token List.mem_cons_self
      refine ⟨row, relation.token, ?_, relation.comparison?_token, ?_, ?_⟩
      · exact List.mem_append_right _ List.mem_cons_self
      · exact spread.before leftProper.framed.toBetween
          ((relationFramed.mono (List.subset_append_left [relation.token] _)).toBetween)
      · exact spreadRelation.before relationFramed.toBetween
          (rightProper.framed.mono (List.subset_append_left right.tokens _)).toBetween

theorem Branches.row : (branches : Branches) → Spread text branches.tokens →
    Expr.Row text branches.tokens
        ((branches.firstClause :: branches.otherClauses).flatMap Clause.parts) ∧
      ∀ clause ∈ branches.firstClause :: branches.otherClauses, clause.Compared branches.tokens
  | .last branch, spread => by
      rcases branch.row spread with ⟨row, compared⟩
      refine ⟨?_, List.forall_mem_singleton.2 compared⟩
      rw [Branches.firstClause, Branches.otherClauses, List.flatMap_singleton]
      exact row
  | .more branch rest, spread => by
      rcases branch.row spread.of_append_left with ⟨row, compared⟩
      rcases rest.row spread.of_append_right with ⟨restRow, restCompared⟩
      refine ⟨row.append restRow spread, List.forall_mem_cons.2 ⟨?_, ?_⟩⟩
      · exact compared.mono (List.subset_append_left branch.tokens rest.tokens)
      · intro clause isClause
        exact (restCompared clause isClause).mono
          (List.subset_append_right branch.tokens rest.tokens)

end

end Grammar

/-! ## Statements -/

namespace Stmt

/-- The spans of the parts of a statement, in the order of the text. -/
def partSpans : Stmt → List Span
  | expr _ value => [value.span]
  | define _ _ params _ body => params.map Param.span ++ [body.span]

/-- The expression of a statement. -/
def value : Stmt → Expr
  | expr _ value => value
  | define _ _ _ _ body => body

/-- The spans of a statement and its parts form a tree. -/
structure Proper (text : List Char) (tokens : List Token) (stmt : Stmt) : Prop where
  framed : stmt.span.Framed tokens
  parts : Span.Series tokens stmt.partSpans
  within : ∀ span ∈ stmt.partSpans, stmt.span.Contains span
  value : stmt.value.Proper text tokens

end Stmt

namespace Grammar

variable {text : List Char}

theorem Parameter.framed (parameter : Parameter) (spread : Spread text parameter.tokens) :
    parameter.tree.span.Framed parameter.tokens := by
  rcases parameter with ⟨name, colon, type⟩
  have spreadParts : Spread text ([name.val.val] ++ [colon.val, type.token]) := spread
  have nameFramed := spreadParts.framed_token List.mem_cons_self
  have typeFramed := (spreadParts.of_append_right.of_cons.framed_token List.mem_cons_self).mono
    (List.subset_cons_self colon.val [type.token])
  exact nameFramed.join typeFramed spreadParts

theorem ParametersSome.series : (parameters : ParametersSome) → Spread text parameters.tokens →
    Span.Series parameters.tokens (parameters.trees.map Param.span)
  | .last parameter, spread => .single (parameter.framed spread)
  | .more parameter comma rest, spread => by
      have restSeries := (rest.series spread.of_append_right.of_cons).mono
        (List.subset_cons_self comma.val rest.tokens)
      exact (Span.Series.single (parameter.framed spread.of_append_left)).append restSeries spread

theorem Parameters.series : (parameters : Parameters) → Spread text parameters.tokens →
    Span.Series parameters.tokens (parameters.trees.map Param.span)
  | .empty, _ => .nil
  | .listed parameters, spread => parameters.series spread

/-- Parentheses may stand in front of what is in the tree, but nothing in the tree
stands in front of the first token. -/
theorem Chain.first_start_le {level : Level} (chain : Chain level)
    (spread : Spread text chain.tokens) :
    chain.first.start.offset ≤ chain.tree.span.start.offset := by
  rcases (chain.proper spread).framed.start with ⟨token, isToken, startEq⟩
  rcases chain.tokens_eq_cons with ⟨behind, tokensEq⟩
  rw [startEq]
  rw [tokensEq] at isToken spread
  rcases List.mem_cons.1 isToken with rfl | isBehind
  · exact Int.le_refl _
  · have filled := spread.filled chain.first List.mem_cons_self
    have apart : chain.first.stop.offset ≤ token.start.offset :=
      (List.pairwise_cons.1 spread.ordered).1 token isBehind
    omega

theorem Statement.proper (statement : Statement) (spread : Spread text statement.tokens) :
    statement.tree.Proper text statement.tokens := by
  cases statement with
  | expr value =>
      have valueProper := value.proper spread
      have firstLe := value.first_start_le spread
      refine ⟨⟨⟨?_, valueProper.framed.stop⟩, ?_⟩, .single valueProper.framed, ?_, valueProper⟩
      · rcases value.tokens_eq_cons with ⟨behind, tokensEq⟩
        refine ⟨value.first, ?_, rfl⟩
        rw [Statement.tokens, tokensEq]
        exact List.mem_cons_self
      · exact Int.lt_of_le_of_lt firstLe valueProper.framed.filled
      · exact List.forall_mem_singleton.2 ⟨firstLe, Int.le_refl _⟩
  | define name opening parameters closing returns sign body =>
      have spreadName : Spread text ([name.val.val] ++ _) := spread
      have spreadParts : Spread text ((opening.val :: parameters.tokens) ++
          (closing.val :: (returns.tokens ++ sign.val :: body.tokens))) :=
        spreadName.of_append_right
      have spreadBody := spreadParts.of_append_right.of_cons.of_append_right.of_cons
      have nameFramed := spreadName.framed_token List.mem_cons_self
      have paramSeries := (parameters.series spreadParts.of_append_left.of_cons).mono
        (List.subset_cons_self opening.val parameters.tokens)
      have bodyProper := (body.proper spreadBody).mono
        (List.subset_cons_of_subset closing.val
          (List.subset_append_of_subset_right returns.tokens
            (List.subset_cons_self sign.val body.tokens)))
      have parts := paramSeries.append (.single bodyProper.framed) spreadParts
      have behindName := List.subset_cons_self name.val.val (opening.val :: (parameters.tokens ++
        closing.val :: (returns.tokens ++ sign.val :: body.tokens)))
      have bodyBehind := bodyProper.mono
        (List.subset_append_right (opening.val :: parameters.tokens) _)
      refine ⟨nameFramed.join bodyBehind.framed spreadName, parts.mono behindName, ?_,
        bodyBehind.mono behindName⟩
      intro span isPart
      refine ⟨(nameFramed.join_contains (parts.each span isPart) spreadName).2.1, ?_⟩
      -- The statement stops where its body stops, which is the last of its parts.
      rcases List.mem_append.1 isPart with isParam | isBody
      · exact ((paramSeries.each span isParam).join_contains bodyProper.framed spreadParts).1.2
      · rw [List.mem_singleton.1 isBody]
        exact Int.le_refl _

end Grammar

/-! ## Lines -/

/-- The tokens of the lines of a sequence, one line after another, are tokens of
the sequence in their order, without the marks that end lines. -/
theorem Line.split_sublist (tokens : List Token) :
    ((split tokens).flatMap Line.tokens).Sublist
      (tokens.filter fun token => !token.kind.endsLine) := by
  induction tokens with
  | nil => exact .slnil
  | cons token rest ih =>
      by_cases isEnd : token.kind = .eof
      · rw [split_cons_of_eof rest isEnd]
        exact List.nil_sublist _
      · by_cases isLineEnd : token.kind = .newline
        · rw [split_cons_of_newline rest isLineEnd, List.filter_cons_of_neg]
          · exact ih
          · rw [isLineEnd]
            decide
        · rw [split_cons_of_ne rest isEnd isLineEnd, List.filter_cons_of_pos]
          · cases splitEq : split rest with
            | nil => exact List.nil_sublist _
            | cons line lines =>
                rw [splitEq] at ih
                exact ih.cons_cons token
          · rw [Kind.endsLine_eq_false isEnd isLineEnd]
            decide

/-- The statements of lines have spans that form trees and follow each other. -/
theorem Parsed.proper_of_spread {text : List Char} {lines : List Line}
    (spread : Spread text (lines.flatMap Line.tokens)) :
    (∀ stmt ∈ (ofOutcomes (lines.filterMap Line.read?)).program,
      ∃ line ∈ lines, line.read? = some (.ok stmt) ∧ stmt.Proper text line.tokens) ∧
    ((ofOutcomes (lines.filterMap Line.read?)).program.map Stmt.span).Pairwise Span.Before := by
  induction lines with
  | nil => exact ⟨List.forall_mem_nil _, .nil⟩
  | cons line lines ih =>
      rcases ih spread.of_append_right with ⟨proper, ordered⟩
      have properBehind : ∀ stmt ∈ (ofOutcomes (lines.filterMap Line.read?)).program,
          ∃ other ∈ line :: lines, other.read? = some (.ok stmt) ∧
            stmt.Proper text other.tokens := by
        intro stmt isStmt
        rcases proper stmt isStmt with ⟨other, isOther, found⟩
        exact ⟨other, List.mem_cons_of_mem _ isOther, found⟩
      cases read : line.read? with
      | none =>
          rw [List.filterMap_cons_none read]
          exact ⟨properBehind, ordered⟩
      | some outcome =>
          rw [List.filterMap_cons_some read]
          cases outcome with
          | error error => exact ⟨properBehind, ordered⟩
          | ok stmt =>
              rcases (Grammar.read?_eq_some_ok_iff line stmt).1 read with
                ⟨statement, tokensEq, rfl⟩
              have stmtProper := statement.proper (tokensEq.symm ▸ spread.of_append_left)
              rw [tokensEq] at stmtProper
              refine ⟨List.forall_mem_cons.2 ⟨⟨line, List.mem_cons_self, read, stmtProper⟩,
                properBehind⟩, List.pairwise_cons.2 ⟨List.forall_mem_map.2 ?_, ordered⟩⟩
              intro other isOther
              rcases proper other isOther with ⟨otherLine, isLine, _, otherProper⟩
              have behind := otherProper.framed.mono fun _ isToken =>
                List.mem_flatMap_of_mem isLine isToken
              exact spread.before stmtProper.framed.toBetween behind.toBetween

/-- The tokens of a text stand in it in their order, up to the end mark. -/
theorem exists_spread_tokenize (file : String) (text : List Char) :
    ∃ tokens finish, tokenize file text = tokens ++ [finish] ∧ finish.kind = .eof ∧
      Spread text tokens := by
  rcases Cursor.exists_tiled (.ofText file text) [] rfl (seam_nil _) with ⟨tokens, tokensEq, tiled⟩
  refine ⟨tokens, _, tokensEq, rfl, ?_⟩
  have inputEq : (Cursor.ofText file text).rest = text.take (text.idxOf '\x00') :=
    takeWhile_ne_eq_take '\x00' text
  have accounts := tiled.accounts
  rw [inputEq] at accounts
  refine ⟨accounts.ordered, fun token isToken => (accounts.inside token isToken).2.1, ?_⟩
  intro token isToken
  have inInput : token.stop.offset.toNat ≤ text.idxOf '\x00' := by
    have bound := (accounts.inside token isToken).2.2
    rw [List.length_take] at bound
    omega
  rw [← accounts.spelled token isToken]
  simp only [Span.cut, Token.span, List.extract_eq_take_drop, List.drop_take, List.take_take]
  congr 1
  omega

/-- The spans of every text form trees.  Each statement has been read from a line.
Its span and those of its parts go from the start of a token to the stop of a
token of that line and are not empty, every span contains the spans of the parts,
which follow each other as in the text, and where a span belongs to a variable or
to a number without a sign, the characters there are its name or its value.  The
spans of the statements follow each other as well. -/
theorem spans_form_trees (file : String) (text : List Char) :
    let program := (Parsed.ofText file text).program
    (∀ stmt ∈ program, ∃ line ∈ Line.split (tokenize file text),
      line.read? = some (.ok stmt) ∧ stmt.Proper text line.tokens) ∧
    (program.map Stmt.span).Pairwise Span.Before := by
  intro program
  rcases exists_spread_tokenize file text with ⟨tokens, finish, tokensEq, isEnd, spread⟩
  apply Parsed.proper_of_spread
  apply spread.sublist
  apply (Line.split_sublist (tokenize file text)).trans
  rw [tokensEq, List.filter_append, List.filter_cons_of_neg, List.filter_nil, List.append_nil]
  · exact List.filter_sublist
  · rw [isEnd]
    decide

end GraphCalc
