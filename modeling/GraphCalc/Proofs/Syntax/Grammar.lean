import GraphCalc.Syntax.Parser

/-!
# The grammar of statements

The grammar is given by its derivations.  A derivation keeps every token it
covers, so its tokens can be listed in order, and it has a tree, which is the
expression or statement it stands for.

    sum       ::= product | sum ("+" | "-") product
    product   ::= factor | product ("*" | "/" | "%") factor
    factor    ::= primary | factor "!"
    primary   ::= NUMBER | "-" NUMBER | IDENT | IDENT "(" items ")"
                | MACRO "(" items ")" | "(" sum ")" | "[" items "]"
                | "{" branch ... branch sum "}"
    items     ::= nothing | sum "," ... "," sum
    branch    ::= sum COMPARISON sum ":" sum ","
    statement ::= sum | IDENT "(" params ")" [":" TYPE] "=" sum
    params    ::= nothing | param "," ... "," param
    param     ::= IDENT ":" TYPE

Both levels of binary operators are left-recursive, so that grouping to the
left is part of a derivation and not of its reading.  No token of a wrong kind
can occur in a derivation, because terminals carry their kinds.
-/

namespace GraphCalc.Grammar

/-! ## Terminals -/

/-- A token of a given kind. -/
abbrev Terminal (kind : Kind) := { token : Token // token.kind = kind }

/-- A sign between two operands of a level. -/
inductive Sign : Level → Type
  | plus (token : Terminal .plus) : Sign .sum
  | minus (token : Terminal .minus) : Sign .sum
  | times (token : Terminal .star) : Sign .product
  | dividedBy (token : Terminal .slash) : Sign .product
  | modulo (token : Terminal .percent) : Sign .product

namespace Sign

def token {level : Level} : Sign level → Token
  | plus token | minus token | times token | dividedBy token | modulo token => token.val

/-- The operator a sign stands for. -/
def op {level : Level} : Sign level → BinaryOp
  | plus _ => .add
  | minus _ => .subtract
  | times _ => .multiply
  | dividedBy _ => .divide
  | modulo _ => .modulo

end Sign

/-- A sign between the two sides of a condition. -/
inductive Relation
  | assign (token : Terminal .assign)
  | equal (token : Terminal .equal)
  | greater (token : Terminal .greater)
  | less (token : Terminal .less)
  | greaterEqual (token : Terminal .greaterEqual)
  | lessEqual (token : Terminal .lessEqual)

namespace Relation

def token : Relation → Token
  | assign token | equal token | greater token | less token | greaterEqual token
  | lessEqual token => token.val

/-- The comparison a sign stands for.  Both equality signs mean the same. -/
def comparison : Relation → Comparison
  | assign _ | equal _ => .equal
  | greater _ => .greater
  | less _ => .less
  | greaterEqual _ => .greaterEqual
  | lessEqual _ => .lessEqual

end Relation

/-! ## Expressions -/

mutual

/-- An expression of a level: an operand, or an expression of the same level
joined to an operand. -/
inductive Chain : Level → Type
  | operand {level : Level} (only : Operand level) : Chain level
  | join {level : Level} (left : Chain level) (sign : Sign level)
      (right : Operand level) : Chain level

/-- An operand of a level's signs. -/
inductive Operand : Level → Type
  | product (chain : Chain .product) : Operand .sum
  | factor (factor : Factor) : Operand .product

/-- A primary expression and the factorial marks behind it. -/
inductive Factor
  | primary (only : Primary)
  | marked (operand : Factor) (mark : Terminal .bang)

/-- An expression that no operator can take apart. -/
inductive Primary
  | number (digits : Terminal .number)
  | negative (minus : Terminal .minus) (digits : Terminal .number)
  | var (name : Terminal .ident)
  | call (name : Terminal .ident) (opening : Terminal .lparen) (args : Items)
      (closing : Terminal .rparen)
  | macroCall (name : Terminal .macroName) (opening : Terminal .lparen) (args : Items)
      (closing : Terminal .rparen)
  | group (opening : Terminal .lparen) (inner : Chain .sum) (closing : Terminal .rparen)
  | list (opening : Terminal .lbrack) (items : Items) (closing : Terminal .rbrack)
  | piecewise (opening : Terminal .lbrace) (branches : Branches)
      (otherwise : Chain .sum) (closing : Terminal .rbrace)

/-- Expressions separated by commas, possibly none. -/
inductive Items
  | empty
  | listed (items : ItemsSome)

/-- One or more expressions separated by commas. -/
inductive ItemsSome
  | last (item : Chain .sum)
  | more (item : Chain .sum) (comma : Terminal .comma) (rest : ItemsSome)

/-- A condition, its result and the comma behind it. -/
inductive Branch
  | mk (left : Chain .sum) (relation : Relation) (right : Chain .sum)
      (colon : Terminal .colon) (result : Chain .sum) (comma : Terminal .comma)

/-- One or more branches. -/
inductive Branches
  | last (branch : Branch)
  | more (branch : Branch) (rest : Branches)

end

mutual

/-- The tokens a derivation covers, in order. -/
def Chain.tokens {level : Level} : Chain level → List Token
  | .operand only => only.tokens
  | .join left sign right => left.tokens ++ sign.token :: right.tokens

def Operand.tokens {level : Level} : Operand level → List Token
  | .product chain => chain.tokens
  | .factor factor => factor.tokens

def Factor.tokens : Factor → List Token
  | .primary only => only.tokens
  | .marked operand mark => operand.tokens ++ [mark.val]

def Primary.tokens : Primary → List Token
  | .number digits => [digits.val]
  | .negative minus digits => [minus.val, digits.val]
  | .var name => [name.val]
  | .call name opening args closing =>
      name.val :: opening.val :: (args.tokens ++ [closing.val])
  | .macroCall name opening args closing =>
      name.val :: opening.val :: (args.tokens ++ [closing.val])
  | .group opening inner closing => opening.val :: (inner.tokens ++ [closing.val])
  | .list opening items closing => opening.val :: (items.tokens ++ [closing.val])
  | .piecewise opening branches otherwise closing =>
      opening.val :: (branches.tokens ++ (otherwise.tokens ++ [closing.val]))

def Items.tokens : Items → List Token
  | .empty => []
  | .listed items => items.tokens

def ItemsSome.tokens : ItemsSome → List Token
  | .last item => item.tokens
  | .more item comma rest => item.tokens ++ comma.val :: rest.tokens

def Branch.tokens : Branch → List Token
  | .mk left relation right colon result comma =>
      left.tokens ++ relation.token :: (right.tokens ++
        colon.val :: (result.tokens ++ [comma.val]))

def Branches.tokens : Branches → List Token
  | .last branch => branch.tokens
  | .more branch rest => branch.tokens ++ rest.tokens

end

mutual

/-- The expression a derivation stands for.  Parentheses leave no trace in it;
the span of an operation runs over its operands, that of a bracketed phrase
over its brackets. -/
def Chain.tree {level : Level} : Chain level → Expr
  | .operand only => only.tree
  | .join left sign right =>
      .binary (left.tree.span.join right.tree.span) sign.op left.tree right.tree

def Operand.tree {level : Level} : Operand level → Expr
  | .product chain => chain.tree
  | .factor factor => factor.tree

def Factor.tree : Factor → Expr
  | .primary only => only.tree
  | .marked operand mark =>
      .unary (operand.tree.span.join mark.val.span) .factorial operand.tree

def Primary.tree : Primary → Expr
  | .number digits => .number digits.val.span digits.val.text
  | .negative minus digits =>
      .number (minus.val.spanTo digits.val) ("-" ++ digits.val.text)
  | .var name => .var name.val.span name.val.text
  | .call name _ args closing =>
      .call (name.val.spanTo closing.val) .normal name.val.text args.trees
  | .macroCall name _ args closing =>
      .macroCall (name.val.spanTo closing.val) name.val.text args.trees
  | .group _ inner _ => inner.tree
  | .list opening items closing => .list (opening.val.spanTo closing.val) items.trees
  | .piecewise opening branches otherwise closing =>
      .piecewise (opening.val.spanTo closing.val) branches.firstClause
        branches.otherClauses otherwise.tree

/-- The expressions a derivation stands for, in order. -/
def Items.trees : Items → List Expr
  | .empty => []
  | .listed items => items.trees

def ItemsSome.trees : ItemsSome → List Expr
  | .last item => [item.tree]
  | .more item _ rest => item.tree :: rest.trees

/-- The conditional part a branch stands for. -/
def Branch.clause : Branch → Clause Expr
  | .mk left relation right _ result _ =>
      ⟨left.tree, relation.comparison, right.tree, result.tree⟩

/-- The first of the conditional parts. -/
def Branches.firstClause : Branches → Clause Expr
  | .last branch => branch.clause
  | .more branch _ => branch.clause

/-- The conditional parts behind the first. -/
def Branches.otherClauses : Branches → List (Clause Expr)
  | .last _ => []
  | .more _ rest => rest.firstClause :: rest.otherClauses

end

mutual

/-- The token a derivation starts with. -/
def Chain.first {level : Level} : Chain level → Token
  | .operand only => only.first
  | .join left _ _ => left.first

def Operand.first {level : Level} : Operand level → Token
  | .product chain => chain.first
  | .factor factor => factor.first

def Factor.first : Factor → Token
  | .primary only => only.first
  | .marked operand _ => operand.first

def Primary.first : Primary → Token
  | .number token | .var token => token.val
  | .negative token _ => token.val
  | .call token _ _ _ => token.val
  | .macroCall token _ _ _ => token.val
  | .group token _ _ => token.val
  | .list token _ _ => token.val
  | .piecewise token _ _ _ => token.val

end

/-! ## Statements -/

/-- A name that is not reserved for a type. -/
abbrev FreeName := { token : Terminal .ident // token.val.text ∉ ValueType.names }

/-- The name of a type. -/
inductive TypeName
  | number (token : { token : Terminal .ident // token.val.text = "Number" })
  | list (token : { token : Terminal .ident // token.val.text = "List" })

namespace TypeName

def token : TypeName → Token
  | number token | list token => token.val.val

def type : TypeName → ValueType
  | number _ => .number
  | list _ => .list

end TypeName

/-- A typed parameter. -/
structure Parameter where
  name : FreeName
  colon : Terminal .colon
  type : TypeName

namespace Parameter

def tokens (parameter : Parameter) : List Token :=
  [parameter.name.val.val, parameter.colon.val, parameter.type.token]

def tree (parameter : Parameter) : Param :=
  ⟨parameter.name.val.val.spanTo parameter.type.token, parameter.name.val.val.text,
    parameter.type.type⟩

end Parameter

/-- One or more parameters separated by commas. -/
inductive ParametersSome
  | last (parameter : Parameter)
  | more (parameter : Parameter) (comma : Terminal .comma) (rest : ParametersSome)

namespace ParametersSome

def tokens : ParametersSome → List Token
  | last parameter => parameter.tokens
  | more parameter comma rest => parameter.tokens ++ comma.val :: rest.tokens

def trees : ParametersSome → List Param
  | last parameter => [parameter.tree]
  | more parameter _ rest => parameter.tree :: rest.trees

end ParametersSome

/-- Parameters separated by commas, possibly none. -/
inductive Parameters
  | empty
  | listed (parameters : ParametersSome)

namespace Parameters

def tokens : Parameters → List Token
  | empty => []
  | listed parameters => parameters.tokens

def trees : Parameters → List Param
  | empty => []
  | listed parameters => parameters.trees

end Parameters

/-- The announced type of a function, if it is announced. -/
inductive Returns
  | inferred
  | announced (colon : Terminal .colon) (type : TypeName)

namespace Returns

def tokens : Returns → List Token
  | inferred => []
  | announced colon type => [colon.val, type.token]

def type? : Returns → Option ValueType
  | inferred => none
  | announced _ type => some type.type

end Returns

/-- One line of a program. -/
inductive Statement
  | expr (value : Chain .sum)
  | define (name : FreeName) (opening : Terminal .lparen) (parameters : Parameters)
      (closing : Terminal .rparen) (returns : Returns) (sign : Terminal .assign)
      (body : Chain .sum)

namespace Statement

def tokens : Statement → List Token
  | expr value => value.tokens
  | define name opening parameters closing returns sign body =>
      name.val.val :: opening.val :: (parameters.tokens ++
        closing.val :: (returns.tokens ++ sign.val :: body.tokens))

/-- The statement a derivation stands for.  Its span runs from its first token
to the end of its expression. -/
def tree : Statement → Stmt
  | expr value => .expr (value.first.span.join value.tree.span) value.tree
  | define name _ parameters _ returns _ body =>
      .define (name.val.val.span.join body.tree.span) name.val.val.text
        parameters.trees returns.type? body.tree

end Statement

/-! ## What may stand around an expression -/

/-- Whether an expression may start with a token of the kind. -/
def startsExpression : Kind → Bool
  | .number | .minus | .ident | .macroName | .lparen | .lbrack | .lbrace => true
  | _ => false

/-- How tightly a token holds on to the expression before it.  Nothing holds
tighter than an opening parenthesis, which turns a name into a call. -/
def tightness : Kind → Nat
  | .plus | .minus => 1
  | .star | .slash | .percent => 2
  | .bang => 3
  | .lparen => 4
  | _ => 0

/-- The tightness of the signs of a level. -/
def levelTightness : Level → Nat
  | .sum => 1
  | .product => 2

/-- Whether an expression that ends before some tokens is not held by the first
of them as tightly as the limit says. -/
def Loose (limit : Nat) (rest : List Token) : Prop :=
  ∀ token ∈ rest.head?, tightness token.kind < limit

@[simp]
theorem loose_nil (limit : Nat) : Loose limit [] := by
  simp [Loose]

@[simp]
theorem loose_cons {limit : Nat} {token : Token} {rest : List Token} :
    Loose limit (token :: rest) ↔ tightness token.kind < limit := by
  simp [Loose]

theorem Loose.mono {low high : Nat} {rest : List Token} (loose : Loose low rest)
    (le : low ≤ high) : Loose high rest :=
  fun token member => Nat.lt_of_lt_of_le (loose token member) le

theorem Sign.operator?_token {level : Level} (sign : Sign level) :
    sign.token.kind.operator? level = some sign.op := by
  cases sign with
  | plus token | minus token | times token | dividedBy token | modulo token =>
      simp [Sign.token, Sign.op, token.property, Kind.operator?]

theorem Sign.tightness_token {level : Level} (sign : Sign level) :
    tightness sign.token.kind = levelTightness level := by
  cases sign with
  | plus token | minus token | times token | dividedBy token | modulo token =>
      simp [Sign.token, token.property, tightness, levelTightness]

/-- Behind an expression that is held less tightly than by a level's signs
there is no sign of the level. -/
theorem Loose.operator?_eq_none {level : Level} {token : Token} {rest : List Token}
    (loose : Loose (levelTightness level) (token :: rest)) :
    token.kind.operator? level = none := by
  rw [loose_cons] at loose
  cases level <;> cases kindEq : token.kind <;>
    simp_all [Kind.operator?, tightness, levelTightness]

theorem Relation.comparison?_token (relation : Relation) :
    relation.token.kind.comparison? = some relation.comparison := by
  cases relation with
  | assign token | equal token | greater token | less token | greaterEqual token
  | lessEqual token =>
      simp [Relation.token, Relation.comparison, token.property, Kind.comparison?]

theorem Relation.tightness_token (relation : Relation) :
    tightness relation.token.kind = 0 := by
  cases relation with
  | assign token | equal token | greater token | less token | greaterEqual token
  | lessEqual token =>
      simp [Relation.token, token.property, tightness]

mutual

theorem Chain.tokens_eq_cons {level : Level} : (chain : Chain level) →
    ∃ behind, chain.tokens = chain.first :: behind
  | .operand only => only.tokens_eq_cons
  | .join left sign right => by
      obtain ⟨behind, tokensEq⟩ := left.tokens_eq_cons
      exact ⟨behind ++ sign.token :: right.tokens, by simp [Chain.tokens, Chain.first, tokensEq]⟩

theorem Operand.tokens_eq_cons {level : Level} : (operand : Operand level) →
    ∃ behind, operand.tokens = operand.first :: behind
  | .product chain => chain.tokens_eq_cons
  | .factor factor => factor.tokens_eq_cons

theorem Factor.tokens_eq_cons : (factor : Factor) →
    ∃ behind, factor.tokens = factor.first :: behind
  | .primary only => only.tokens_eq_cons
  | .marked operand mark => by
      obtain ⟨behind, tokensEq⟩ := operand.tokens_eq_cons
      exact ⟨behind ++ [mark.val], by simp [Factor.tokens, Factor.first, tokensEq]⟩

theorem Primary.tokens_eq_cons : (primary : Primary) →
    ∃ behind, primary.tokens = primary.first :: behind
  | .number _ | .var _ | .negative _ _ | .call _ _ _ _ | .macroCall _ _ _ _
  | .group _ _ _ | .list _ _ _ | .piecewise _ _ _ _ => ⟨_, rfl⟩

end

mutual

theorem Chain.startsExpression_first {level : Level} : (chain : Chain level) →
    startsExpression chain.first.kind = true
  | .operand only => only.startsExpression_first
  | .join left _ _ => left.startsExpression_first

theorem Operand.startsExpression_first {level : Level} : (operand : Operand level) →
    startsExpression operand.first.kind = true
  | .product chain => chain.startsExpression_first
  | .factor factor => factor.startsExpression_first

theorem Factor.startsExpression_first : (factor : Factor) →
    startsExpression factor.first.kind = true
  | .primary only => only.startsExpression_first
  | .marked operand _ => operand.startsExpression_first

theorem Primary.startsExpression_first : (primary : Primary) →
    startsExpression primary.first.kind = true
  | .number token | .var token | .negative token _ | .call token _ _ _
  | .macroCall token _ _ _ | .group token _ _ | .list token _ _
  | .piecewise token _ _ _ => by simp [Primary.first, token.property, startsExpression]

end

end GraphCalc.Grammar
