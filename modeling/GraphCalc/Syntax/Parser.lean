import GraphCalc.Syntax.Basic
import GraphCalc.Syntax.Error
import GraphCalc.Syntax.Line
import GraphCalc.Token.Lexer

/-!
# Reading statements

A statement is read from the tokens of one line.  Sums are made of products,
products of factors, and a factor is a primary expression with any number of
factorial marks behind it; both binary levels group to the left.  The only use
of a minus sign other than subtraction is directly before a number.

Every function reads a phrase from the front of a token list and returns the
tokens behind it, which are fewer.  The mark that ends the line stands for
whatever is missing when the tokens run out.  The first error ends the reading
of a line, so each line yields one statement or one error.
-/

namespace GraphCalc

/-- A phrase read from the front of some tokens: its meaning and the tokens
behind it, of which there are fewer. -/
structure Phrase (tokens : List Token) (α : Type) where
  value : α
  rest : List Token
  shorter : rest.length < tokens.length

namespace Phrase

/-- The token at the front, if it is of the expected kind. -/
def expect (kind : Kind) (stop : Token) :
    (tokens : List Token) → Except SyntaxError (Phrase tokens Token)
  | [] => .error (.blaming stop (.expectedKind kind))
  | token :: rest =>
      if token.kind = kind then
        .ok ⟨token, rest, Nat.lt_succ_self _⟩
      else
        .error (.blaming token (.expectedKind kind))

/-- The tokens behind the first one, if that is of the given kind. -/
def skip? (kind : Kind) : (tokens : List Token) → Option (Phrase tokens Token)
  | [] => none
  | token :: rest =>
      if token.kind = kind then some ⟨token, rest, Nat.lt_succ_self _⟩ else none

end Phrase

/-- The two levels of binary operators; sums bind less tightly. -/
inductive Level
  | sum
  | product
deriving DecidableEq, Repr

/-- How far a level is from single factors. -/
@[simp]
def Level.height : Level → Nat
  | sum => 3
  | product => 1

theorem Level.height_le (level : Level) : level.height ≤ 3 := by
  cases level <;> simp

/-- The operator a token stands for on a level. -/
def Kind.operator? : Level → Kind → Option BinaryOp
  | .sum, .plus => some .add
  | .sum, .minus => some .subtract
  | .product, .star => some .multiply
  | .product, .slash => some .divide
  | .product, .percent => some .modulo
  | _, _ => none

/-- The comparison a token stands for. -/
def Kind.comparison? : Kind → Option Comparison
  | .assign | .equal => some .equal
  | .greater => some .greater
  | .less => some .less
  | .greaterEqual => some .greaterEqual
  | .lessEqual => some .lessEqual
  | _ => none

namespace Expr

/-- Wrap an expression in the factorial marks behind it. -/
def readMarks (operand : Expr) : (tokens : List Token) →
    { marked : Expr × List Token // marked.2.length ≤ tokens.length }
  | [] => ⟨(operand, []), Nat.le_refl _⟩
  | token :: rest =>
      if token.kind = .bang then
        let marked := readMarks (.unary (operand.span.join token.span) .factorial operand) rest
        ⟨marked.val, Nat.le_succ_of_le marked.property⟩
      else
        ⟨(operand, token :: rest), Nat.le_refl _⟩

mutual

/-- An expression of a level: operands joined by the level's operators. -/
def readLevel (stop : Token) (level : Level) (tokens : List Token) :
    Except SyntaxError (Phrase tokens Expr) := do
  let ⟨first, rest, shorter⟩ ← readOperand stop level tokens
  let ⟨(value, after), bound⟩ ← readTail stop level first rest
  return ⟨value, after, Nat.lt_of_le_of_lt bound shorter⟩
termination_by 8 * tokens.length + level.height + 2

/-- An operand of a level's operators: an expression of the level above. -/
def readOperand (stop : Token) (level : Level) (tokens : List Token) :
    Except SyntaxError (Phrase tokens Expr) :=
  match level with
  | .sum => readLevel stop .product tokens
  | .product => readFactor stop tokens
termination_by 8 * tokens.length + level.height + 1

/-- The operators of a level behind its first operand, grouping to the left. -/
def readTail (stop : Token) (level : Level) (left : Expr) (tokens : List Token) :
    Except SyntaxError
      { joined : Expr × List Token // joined.2.length ≤ tokens.length } :=
  match tokens with
  | [] => .ok ⟨(left, []), Nat.le_refl _⟩
  | token :: rest =>
      match token.kind.operator? level with
      | none => .ok ⟨(left, token :: rest), Nat.le_refl _⟩
      | some op => do
          let ⟨right, after, shorter⟩ ← readOperand stop level rest
          let ⟨joined, bound⟩ ←
            readTail stop level (.binary (left.span.join right.span) op left right) after
          return ⟨joined, by simp only [List.length_cons]; omega⟩
termination_by 8 * tokens.length
decreasing_by
  all_goals
    have height := level.height_le
    simp only [List.length_cons]
    omega

/-- A primary expression and the factorial marks behind it. -/
def readFactor (stop : Token) (tokens : List Token) :
    Except SyntaxError (Phrase tokens Expr) := do
  let ⟨operand, rest, shorter⟩ ← readPrimary stop tokens
  let marked := readMarks operand rest
  return ⟨marked.val.1, marked.val.2, Nat.lt_of_le_of_lt marked.property shorter⟩
termination_by 8 * tokens.length + 1

/-- An expression that no operator can take apart. -/
def readPrimary (stop : Token) (tokens : List Token) :
    Except SyntaxError (Phrase tokens Expr) :=
  match tokens with
  | [] => .error (.blaming stop .unexpectedStart)
  | token :: rest =>
      match token.kind with
      | .number => .ok ⟨.number token.span token.text, rest, Nat.lt_succ_self _⟩
      | .minus =>
          match Phrase.skip? .number rest with
          | some ⟨digits, after, shorter⟩ =>
              .ok ⟨.number (token.spanTo digits) ("-" ++ digits.text), after,
                Nat.lt_succ_of_lt shorter⟩
          | none => .error ⟨token.span, .misplacedMinus (rest.headD stop)⟩
      | .ident =>
          match Phrase.skip? .lparen rest with
          | some ⟨_, inner, opened⟩ => do
              let ⟨(args, close), after, shorter⟩ ← readItems stop .rparen inner
              return ⟨.call (token.spanTo close) .normal token.text args, after, by
                simp only [List.length_cons]; omega⟩
          | none => .ok ⟨.var token.span token.text, rest, Nat.lt_succ_self _⟩
      | .macroName => do
          let ⟨_, inner, opened⟩ ← Phrase.expect .lparen stop rest
          let ⟨(args, close), after, shorter⟩ ← readItems stop .rparen inner
          return ⟨.macroCall (token.spanTo close) token.text args, after, by
            simp only [List.length_cons]; omega⟩
      | .lparen => do
          let ⟨inner, closing, shorter⟩ ← readLevel stop .sum rest
          let ⟨_, after, closed⟩ ← Phrase.expect .rparen stop closing
          return ⟨inner, after, by simp only [List.length_cons]; omega⟩
      | .lbrack => do
          let ⟨(items, close), after, shorter⟩ ← readItems stop .rbrack rest
          return ⟨.list (token.spanTo close) items, after, Nat.lt_succ_of_lt shorter⟩
      | .lbrace => do
          let ⟨(clauses, otherwise, close), after, shorter⟩ ← readClauses stop rest
          match clauses with
          | [] => .error ⟨token.spanTo close, .noCondition⟩
          | first :: others =>
              .ok ⟨.piecewise (token.spanTo close) first others otherwise, after,
                Nat.lt_succ_of_lt shorter⟩
      | _ => .error (.blaming token .unexpectedStart)
termination_by 8 * tokens.length

/-- Expressions separated by commas, possibly none, up to a closing token,
which is returned with them. -/
def readItems (stop : Token) (close : Kind) (tokens : List Token) :
    Except SyntaxError (Phrase tokens (List Expr × Token)) :=
  match Phrase.skip? close tokens with
  | some ⟨closing, after, shorter⟩ => .ok ⟨([], closing), after, shorter⟩
  | none => readItemsSome stop close tokens
termination_by 8 * tokens.length + 7

/-- One or more expressions separated by commas, up to a closing token. -/
def readItemsSome (stop : Token) (close : Kind) (tokens : List Token) :
    Except SyntaxError (Phrase tokens (List Expr × Token)) := do
  let ⟨first, rest, shorter⟩ ← readLevel stop .sum tokens
  match Phrase.skip? .comma rest with
  | some ⟨_, more, skipped⟩ =>
      let ⟨(items, closing), after, bound⟩ ← readItemsSome stop close more
      return ⟨(first :: items, closing), after, by omega⟩
  | none =>
      let ⟨closing, after, bound⟩ ← Phrase.expect close stop rest
      return ⟨([first], closing), after, by omega⟩
termination_by 8 * tokens.length + 6

/-- The conditional parts of a piecewise expression, its default value and the
closing brace.  There may be no conditional part. -/
def readClauses (stop : Token) (tokens : List Token) :
    Except SyntaxError (Phrase tokens (List (Clause Expr) × Expr × Token)) := do
  let ⟨left, rest, shorter⟩ ← readLevel stop .sum tokens
  match rest, shorter with
  | [], _ => .error (.blaming stop (.expectedKind .rbrace))
  | token :: behind, shorter =>
      match token.kind.comparison? with
      | none =>
          let ⟨closing, after, closed⟩ ← Phrase.expect .rbrace stop (token :: behind)
          return ⟨([], left, closing), after, by omega⟩
      | some comparison =>
          let ⟨right, atColon, rightShorter⟩ ← readLevel stop .sum behind
          let ⟨_, atResult, colonShorter⟩ ← Phrase.expect .colon stop atColon
          let ⟨result, atComma, resultShorter⟩ ← readLevel stop .sum atResult
          match Phrase.skip? .comma atComma with
          | none => .error (.blaming (atComma.headD stop) .noDefault)
          | some ⟨_, more, commaShorter⟩ =>
              let ⟨(clauses, otherwise, closing), after, bound⟩ ← readClauses stop more
              return ⟨(⟨left, comparison, right, result⟩ :: clauses, otherwise, closing),
                after, by simp only [List.length_cons] at shorter; omega⟩
termination_by 8 * tokens.length + 6
decreasing_by
  all_goals
    simp only [List.length_cons, Level.height] at *
    omega

end

/-- The expression at the front of some tokens. -/
def read (stop : Token) (tokens : List Token) :
    Except SyntaxError (Phrase tokens Expr) :=
  readLevel stop .sum tokens

end Expr

/-- The type named by the token at the front. -/
def ValueType.read (stop : Token) (tokens : List Token) :
    Except SyntaxError (Phrase tokens (Token × ValueType)) := do
  let ⟨token, rest, shorter⟩ ← Phrase.expect .ident stop tokens
  match ValueType.ofName? token.text with
  | some type => return ⟨(token, type), rest, shorter⟩
  | none => .error ⟨token.span, .unknownType token.text⟩

namespace Param

/-- A name, a colon and a type. -/
def read (stop : Token) (tokens : List Token) :
    Except SyntaxError (Phrase tokens Param) := do
  let ⟨name, atColon, nameShorter⟩ ← Phrase.expect .ident stop tokens
  if ValueType.isReserved name.text then
    .error ⟨name.span, .reservedParameter name.text⟩
  else
    let ⟨_, atType, colonShorter⟩ ← Phrase.expect .colon stop atColon
    let ⟨(typeToken, type), rest, typeShorter⟩ ← ValueType.read stop atType
    return ⟨⟨name.spanTo typeToken, name.text, type⟩, rest, by omega⟩

/-- One or more parameters separated by commas, and the closing parenthesis. -/
def readSome (stop : Token) (tokens : List Token) :
    Except SyntaxError (Phrase tokens (List Param)) := do
  let ⟨first, rest, shorter⟩ ← read stop tokens
  match Phrase.skip? .comma rest with
  | some ⟨_, more, skipped⟩ =>
      let ⟨params, after, bound⟩ ← readSome stop more
      return ⟨first :: params, after, by omega⟩
  | none =>
      let ⟨_, after, bound⟩ ← Phrase.expect .rparen stop rest
      return ⟨[first], after, by omega⟩
termination_by tokens.length

/-- The parameters of a definition, possibly none, and the closing
parenthesis. -/
def readAll (stop : Token) (tokens : List Token) :
    Except SyntaxError (Phrase tokens (List Param)) :=
  match Phrase.skip? .rparen tokens with
  | some ⟨_, after, shorter⟩ => .ok ⟨[], after, shorter⟩
  | none => readSome stop tokens

end Param

namespace Stmt

/-- Whether some tokens start a definition: a name and a parameter list, of
which the first parameter's colon or, after an empty list, a colon or an
equality sign is in sight. -/
def startsDefinition : List Token → Bool
  | name :: opening :: third :: fourth :: _ =>
      name.kind = .ident && opening.kind = .lparen &&
        (third.kind = .rparen && (fourth.kind = .colon || fourth.kind = .assign) ||
          third.kind = .ident && fourth.kind = .colon)
  | _ => false

/-- Complain unless nothing is left of the line. -/
def expectEnd : List Token → Except SyntaxError Unit
  | [] => .ok ()
  | token :: _ => .error (.blaming token .expectedEnd)

/-- The type behind a colon, if there is a colon. -/
def readReturns (stop : Token) (tokens : List Token) :
    Except SyntaxError (Option ValueType × List Token) :=
  match Phrase.skip? .colon tokens with
  | none => .ok (none, tokens)
  | some ⟨_, atType, _⟩ => do
      let ⟨(_, type), rest, _⟩ ← ValueType.read stop atType
      return (some type, rest)

/-- The definition of a function whose name has been read. -/
def readDefinition (stop name : Token) (tokens : List Token) :
    Except SyntaxError Stmt := do
  if ValueType.isReserved name.text then
    .error ⟨name.span, .reservedFunction name.text⟩
  else
    let ⟨_, atParams, _⟩ ← Phrase.expect .lparen stop tokens
    let ⟨params, atReturns, _⟩ ← Param.readAll stop atParams
    let (returns, atSign) ← readReturns stop atReturns
    let ⟨_, atBody, _⟩ ← Phrase.expect .assign stop atSign
    let ⟨body, rest, _⟩ ← Expr.read stop atBody
    expectEnd rest
    return .define (name.span.join body.span) name.text params returns body

/-- The statement that takes up all the tokens of a line. -/
def read (stop first : Token) (others : List Token) : Except SyntaxError Stmt :=
  if startsDefinition (first :: others) then
    readDefinition stop first others
  else do
    let ⟨value, rest, _⟩ ← Expr.read stop (first :: others)
    expectEnd rest
    return .expr (first.span.join value.span) value

end Stmt

/-- The statement on a line; a blank line has none. -/
def Line.read? (line : Line) : Option (Except SyntaxError Stmt) :=
  match line.tokens with
  | [] => none
  | first :: others => some (Stmt.read line.stop first others)

/-- What reading a text gives: the statements of the lines that could be read,
and the errors of those that could not, both in line order. -/
structure Parsed where
  program : Program
  errors : List SyntaxError

namespace Parsed

/-- Sort the outcomes of lines into statements and errors. -/
def ofOutcomes (outcomes : List (Except SyntaxError Stmt)) : Parsed where
  program := outcomes.filterMap fun outcome => outcome.toOption
  errors := outcomes.filterMap fun
    | .ok _ => none
    | .error error => some error

/-- Read a token sequence line by line. -/
def ofTokens (tokens : List Token) : Parsed :=
  ofOutcomes ((Line.split tokens).filterMap Line.read?)

/-- Read a text. -/
def ofText (file : String) (text : List Char) : Parsed :=
  ofTokens (tokenize file text)

end Parsed

end GraphCalc
