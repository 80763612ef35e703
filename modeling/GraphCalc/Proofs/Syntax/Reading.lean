import GraphCalc.Syntax.Parser

/-!
# Readers without their bounds

The readers of expressions return the rest of the tokens together with a bound
on its length.  The bound serves termination only.  Here every reader gets a
plain form that returns a value and a rest, and an equation that says what the
plain form does in terms of plain forms.  Later arguments use the equations and
never open the readers.
-/

namespace GraphCalc

/-- A computation of two steps succeeds exactly when both steps do. -/
theorem bind_eq_ok_iff {ε α β : Type} {first : Except ε α} {next : α → Except ε β}
    {result : β} :
    (first >>= next) = .ok result ↔ ∃ value, first = .ok value ∧ next value = .ok result := by
  cases first with
  | error failure => simp [bind, Except.bind]
  | ok value => simp [bind, Except.bind]

namespace Phrase

/-- A reading without the bound on its rest. -/
def plain {tokens : List Token} {α : Type} (reading : Except SyntaxError (Phrase tokens α)) :
    Except SyntaxError (α × List Token) :=
  reading.map fun phrase => (phrase.value, phrase.rest)

/-- The token at the front, if it is of the given kind, and the tokens behind
it. -/
def pass? (kind : Kind) : List Token → Option (Token × List Token)
  | [] => none
  | token :: rest => if token.kind = kind then some (token, rest) else none

/-- The plain form of `expect`. -/
def take (kind : Kind) (stop : Token) (tokens : List Token) :
    Except SyntaxError (Token × List Token) :=
  plain (expect kind stop tokens)

theorem skip?_map (kind : Kind) (tokens : List Token) :
    (skip? kind tokens).map (fun phrase => (phrase.value, phrase.rest)) =
      pass? kind tokens := by
  cases tokens with
  | nil => rfl
  | cons token rest =>
      simp only [skip?, pass?]
      split <;> rfl

theorem skip?_cases (kind : Kind) (tokens : List Token) :
    (skip? kind tokens = none ∧ pass? kind tokens = none) ∨
      ∃ phrase, skip? kind tokens = some phrase ∧
        pass? kind tokens = some (phrase.value, phrase.rest) := by
  rw [← skip?_map]
  cases skip? kind tokens with
  | none => exact .inl ⟨rfl, rfl⟩
  | some phrase => exact .inr ⟨phrase, rfl, rfl⟩

@[simp]
theorem pass?_nil (kind : Kind) : pass? kind [] = none :=
  rfl

theorem pass?_cons_of_eq {kind : Kind} {token : Token} (rest : List Token)
    (kindEq : token.kind = kind) : pass? kind (token :: rest) = some (token, rest) := by
  simp [pass?, kindEq]

theorem pass?_cons_of_ne {kind : Kind} {token : Token} (rest : List Token)
    (kindNe : token.kind ≠ kind) : pass? kind (token :: rest) = none := by
  simp [pass?, kindNe]

/-- A token is passed exactly when it stands at the front and is of the kind. -/
theorem pass?_eq_some_iff {kind : Kind} {tokens rest : List Token} {token : Token} :
    pass? kind tokens = some (token, rest) ↔ tokens = token :: rest ∧ token.kind = kind := by
  cases tokens with
  | nil => simp
  | cons front behind =>
      by_cases kindEq : front.kind = kind
      · rw [pass?_cons_of_eq behind kindEq]
        constructor
        · intro passed
          cases passed
          exact ⟨rfl, kindEq⟩
        · rintro ⟨tokensEq, -⟩
          cases tokensEq
          rfl
      · rw [pass?_cons_of_ne behind kindEq]
        constructor
        · intro passed
          cases passed
        · rintro ⟨tokensEq, kindEq'⟩
          cases tokensEq
          exact absurd kindEq' kindEq

@[simp]
theorem take_nil (kind : Kind) (stop : Token) :
    take kind stop [] = .error (.blaming stop (.expectedKind kind)) :=
  rfl

theorem take_cons_of_eq {kind : Kind} {token : Token} (stop : Token) (rest : List Token)
    (kindEq : token.kind = kind) : take kind stop (token :: rest) = .ok (token, rest) := by
  simp [take, plain, expect, kindEq, Except.map]

theorem take_cons_of_ne {kind : Kind} {token : Token} (stop : Token) (rest : List Token)
    (kindNe : token.kind ≠ kind) :
    take kind stop (token :: rest) = .error (.blaming token (.expectedKind kind)) := by
  simp [take, plain, expect, kindNe, Except.map]

/-- A token is taken exactly when it stands at the front and is of the kind. -/
theorem take_eq_ok_iff {kind : Kind} {stop token : Token} {tokens rest : List Token} :
    take kind stop tokens = .ok (token, rest) ↔
      tokens = token :: rest ∧ token.kind = kind := by
  cases tokens with
  | nil => simp
  | cons front behind =>
      by_cases kindEq : front.kind = kind
      · rw [take_cons_of_eq stop behind kindEq]
        constructor
        · intro taken
          cases taken
          exact ⟨rfl, kindEq⟩
        · rintro ⟨tokensEq, -⟩
          cases tokensEq
          rfl
      · rw [take_cons_of_ne stop behind kindEq]
        constructor
        · intro taken
          cases taken
        · rintro ⟨tokensEq, kindEq'⟩
          cases tokensEq
          exact absurd kindEq' kindEq

end Phrase

namespace Expr

open Phrase

/-! ## Plain forms -/

def takeLevel (stop : Token) (level : Level) (tokens : List Token) :
    Except SyntaxError (Expr × List Token) :=
  plain (readLevel stop level tokens)

def takeOperand (stop : Token) (level : Level) (tokens : List Token) :
    Except SyntaxError (Expr × List Token) :=
  plain (readOperand stop level tokens)

def takeTail (stop : Token) (level : Level) (left : Expr) (tokens : List Token) :
    Except SyntaxError (Expr × List Token) :=
  (readTail stop level left tokens).map Subtype.val

def takeMarks (operand : Expr) (tokens : List Token) : Expr × List Token :=
  (readMarks operand tokens).val

def takeFactor (stop : Token) (tokens : List Token) :
    Except SyntaxError (Expr × List Token) :=
  plain (readFactor stop tokens)

def takePrimary (stop : Token) (tokens : List Token) :
    Except SyntaxError (Expr × List Token) :=
  plain (readPrimary stop tokens)

def takeItems (stop : Token) (close : Kind) (tokens : List Token) :
    Except SyntaxError ((List Expr × Token) × List Token) :=
  plain (readItems stop close tokens)

def takeItemsSome (stop : Token) (close : Kind) (tokens : List Token) :
    Except SyntaxError ((List Expr × Token) × List Token) :=
  plain (readItemsSome stop close tokens)

def takeClauses (stop : Token) (tokens : List Token) :
    Except SyntaxError ((List (Clause Expr) × Expr × Token) × List Token) :=
  plain (readClauses stop tokens)

/-! ## Their equations -/

theorem takeLevel_eq (stop : Token) (level : Level) (tokens : List Token) :
    takeLevel stop level tokens =
      takeOperand stop level tokens >>= fun read => takeTail stop level read.1 read.2 := by
  unfold takeLevel takeOperand
  rw [readLevel]
  cases readOperand stop level tokens with
  | error failure => rfl
  | ok phrase =>
      obtain ⟨first, rest, shorter⟩ := phrase
      unfold takeTail
      simp only [plain, bind, Except.bind, Except.map]
      cases readTail stop level first rest <;> rfl

theorem takeOperand_sum (stop : Token) (tokens : List Token) :
    takeOperand stop .sum tokens = takeLevel stop .product tokens := by
  unfold takeOperand takeLevel
  rw [readOperand]

theorem takeOperand_product (stop : Token) (tokens : List Token) :
    takeOperand stop .product tokens = takeFactor stop tokens := by
  unfold takeOperand takeFactor
  rw [readOperand]

@[simp]
theorem takeTail_nil (stop : Token) (level : Level) (left : Expr) :
    takeTail stop level left [] = .ok (left, []) := by
  rw [takeTail, readTail]
  rfl

theorem takeTail_of_none {stop token : Token} {level : Level} (left : Expr)
    (rest : List Token) (noSign : token.kind.operator? level = none) :
    takeTail stop level left (token :: rest) = .ok (left, token :: rest) := by
  rw [takeTail, readTail, noSign]
  rfl

theorem takeTail_of_some {stop token : Token} {level : Level} {op : BinaryOp}
    (left : Expr) (rest : List Token) (sign : token.kind.operator? level = some op) :
    takeTail stop level left (token :: rest) =
      takeOperand stop level rest >>= fun read =>
        takeTail stop level (.binary (left.span.join read.1.span) op left read.1) read.2 := by
  unfold takeTail takeOperand
  rw [readTail, sign]
  cases readOperand stop level rest with
  | error failure => rfl
  | ok phrase =>
      obtain ⟨right, after, shorter⟩ := phrase
      simp only [plain, bind, Except.bind, Except.map]
      cases readTail stop level (.binary (left.span.join right.span) op left right) after <;>
        rfl

@[simp]
theorem takeMarks_nil (operand : Expr) : takeMarks operand [] = (operand, []) := by
  rw [takeMarks, readMarks]

theorem takeMarks_of_eq {token : Token} (operand : Expr) (rest : List Token)
    (mark : token.kind = .bang) :
    takeMarks operand (token :: rest) =
      takeMarks (.unary (operand.span.join token.span) .factorial operand) rest := by
  rw [takeMarks, readMarks, if_pos mark]
  rfl

theorem takeMarks_of_ne {token : Token} (operand : Expr) (rest : List Token)
    (noMark : token.kind ≠ .bang) :
    takeMarks operand (token :: rest) = (operand, token :: rest) := by
  rw [takeMarks, readMarks, if_neg noMark]

theorem takeFactor_eq (stop : Token) (tokens : List Token) :
    takeFactor stop tokens =
      takePrimary stop tokens >>= fun read => .ok (takeMarks read.1 read.2) := by
  unfold takeFactor takePrimary
  rw [readFactor]
  cases readPrimary stop tokens with
  | error failure => rfl
  | ok phrase => rfl

theorem takePrimary_nil (stop : Token) :
    takePrimary stop [] = .error (.blaming stop .unexpectedStart) := by
  rw [takePrimary, readPrimary]
  rfl

/-- The plain form of a primary expression, by the kind of its first token. -/
theorem takePrimary_cons (stop token : Token) (rest : List Token) :
    takePrimary stop (token :: rest) =
      match token.kind with
      | .number => .ok (.number token.span token.text, rest)
      | .minus =>
          match pass? .number rest with
          | some (digits, after) =>
              .ok (.number (token.spanTo digits) ("-" ++ digits.text), after)
          | none => .error ⟨token.span, .misplacedMinus (rest.headD stop)⟩
      | .ident =>
          match pass? .lparen rest with
          | some (_, inner) =>
              takeItems stop .rparen inner >>= fun read =>
                .ok (.call (token.spanTo read.1.2) .normal token.text read.1.1, read.2)
          | none => .ok (.var token.span token.text, rest)
      | .macroName =>
          take .lparen stop rest >>= fun opening =>
            takeItems stop .rparen opening.2 >>= fun read =>
              .ok (.macroCall (token.spanTo read.1.2) token.text read.1.1, read.2)
      | .lparen =>
          takeLevel stop .sum rest >>= fun inner =>
            take .rparen stop inner.2 >>= fun closing => .ok (inner.1, closing.2)
      | .lbrack =>
          takeItems stop .rbrack rest >>= fun read =>
            .ok (.list (token.spanTo read.1.2) read.1.1, read.2)
      | .lbrace =>
          takeClauses stop rest >>= fun read =>
            match read.1 with
            | ([], _, close) => .error ⟨token.spanTo close, .noCondition⟩
            | (first :: others, otherwise, close) =>
                .ok (.piecewise (token.spanTo close) first others otherwise, read.2)
      | _ => .error (.blaming token .unexpectedStart) := by
  unfold takePrimary takeItems takeLevel takeClauses take
  rw [readPrimary]
  cases token.kind with
  | number => rfl
  | minus =>
      obtain ⟨skipped, passed⟩ | ⟨digits, skipped, passed⟩ := skip?_cases .number rest
      · simp only [skipped, passed]
        rfl
      · simp only [skipped, passed]
        rfl
  | ident =>
      obtain ⟨skipped, passed⟩ | ⟨opening, skipped, passed⟩ := skip?_cases .lparen rest
      · simp only [skipped, passed]
        rfl
      · simp only [skipped, passed]
        cases readItems stop .rparen opening.rest <;> rfl
  | macroName =>
      cases expect .lparen stop rest with
      | error failure => rfl
      | ok opening =>
          simp only [plain, bind, Except.bind, Except.map]
          cases readItems stop .rparen opening.rest <;> rfl
  | lparen =>
      cases readLevel stop .sum rest with
      | error failure => rfl
      | ok inner =>
          simp only [plain, bind, Except.bind, Except.map]
          cases expect .rparen stop inner.rest <;> rfl
  | lbrack => cases readItems stop .rbrack rest <;> rfl
  | lbrace =>
      cases readClauses stop rest with
      | error failure => rfl
      | ok phrase =>
          obtain ⟨⟨clauses, otherwise, close⟩, after, shorter⟩ := phrase
          cases clauses <;> rfl
  | _ => rfl

theorem takeItems_eq (stop : Token) (close : Kind) (tokens : List Token) :
    takeItems stop close tokens =
      match pass? close tokens with
      | some (closing, after) => .ok (([], closing), after)
      | none => takeItemsSome stop close tokens := by
  unfold takeItems takeItemsSome
  rw [readItems]
  obtain ⟨skipped, passed⟩ | ⟨closing, skipped, passed⟩ := skip?_cases close tokens
  · simp only [skipped, passed]
  · simp only [skipped, passed]
    rfl

theorem takeItemsSome_eq (stop : Token) (close : Kind) (tokens : List Token) :
    takeItemsSome stop close tokens =
      takeLevel stop .sum tokens >>= fun first =>
        match pass? .comma first.2 with
        | some (_, more) =>
            takeItemsSome stop close more >>= fun read =>
              .ok ((first.1 :: read.1.1, read.1.2), read.2)
        | none =>
            take close stop first.2 >>= fun closing => .ok (([first.1], closing.1), closing.2) := by
  unfold takeItemsSome takeLevel take
  rw [readItemsSome]
  cases readLevel stop .sum tokens with
  | error failure => rfl
  | ok first =>
      simp only [plain, bind, Except.bind, Except.map]
      obtain ⟨skipped, passed⟩ | ⟨comma, skipped, passed⟩ := skip?_cases .comma first.rest
      · simp only [skipped, passed]
        cases expect close stop first.rest <;> rfl
      · simp only [skipped, passed]
        cases readItemsSome stop close comma.rest <;> rfl

/-- The plain form of the inside of a piecewise expression: only the token
behind the first expression tells a condition from the default value. -/
theorem takeClauses_eq (stop : Token) (tokens : List Token) :
    takeClauses stop tokens =
      takeLevel stop .sum tokens >>= fun left =>
        match left.2 with
        | [] => .error (.blaming stop (.expectedKind .rbrace))
        | token :: behind =>
            match token.kind.comparison? with
            | none =>
                take .rbrace stop (token :: behind) >>= fun closing =>
                  .ok (([], left.1, closing.1), closing.2)
            | some comparison =>
                takeLevel stop .sum behind >>= fun right =>
                  take .colon stop right.2 >>= fun colon =>
                    takeLevel stop .sum colon.2 >>= fun result =>
                      match pass? .comma result.2 with
                      | none => .error (.blaming (result.2.headD stop) .noDefault)
                      | some (_, more) =>
                          takeClauses stop more >>= fun read =>
                            .ok ((⟨left.1, comparison, right.1, result.1⟩ :: read.1.1,
                              read.1.2), read.2) := by
  unfold takeClauses takeLevel take
  rw [readClauses]
  cases readLevel stop .sum tokens with
  | error failure => rfl
  | ok left =>
      obtain ⟨left, rest, shorter⟩ := left
      simp only [plain, bind, Except.bind, Except.map]
      cases rest with
      | nil => rfl
      | cons token behind =>
          simp only
          cases token.kind.comparison? with
          | none => cases expect .rbrace stop (token :: behind) <;> rfl
          | some comparison =>
              simp only
              cases readLevel stop .sum behind with
              | error failure => rfl
              | ok right =>
                  simp only
                  cases expect .colon stop right.rest with
                  | error failure => rfl
                  | ok colon =>
                      simp only
                      cases readLevel stop .sum colon.rest with
                      | error failure => rfl
                      | ok result =>
                          simp only
                          obtain ⟨skipped, passed⟩ | ⟨comma, skipped, passed⟩ :=
                            skip?_cases .comma result.rest
                          · simp only [skipped, passed]
                          · simp only [skipped, passed]
                            cases readClauses stop comma.rest <;> rfl

end Expr

/-! ## Definitions and statements -/

open Phrase

def ValueType.take (stop : Token) (tokens : List Token) :
    Except SyntaxError ((Token × ValueType) × List Token) :=
  plain (ValueType.read stop tokens)

theorem ValueType.take_eq (stop : Token) (tokens : List Token) :
    ValueType.take stop tokens =
      Phrase.take .ident stop tokens >>= fun name =>
        match ValueType.ofName? name.1.text with
        | some type => .ok ((name.1, type), name.2)
        | none => .error ⟨name.1.span, .unknownType name.1.text⟩ := by
  unfold ValueType.take ValueType.read Phrase.take
  cases expect .ident stop tokens with
  | error failure => rfl
  | ok name =>
      simp only [plain, bind, Except.bind, Except.map]
      cases ValueType.ofName? name.value.text <;> rfl

namespace Param

def take (stop : Token) (tokens : List Token) : Except SyntaxError (Param × List Token) :=
  plain (read stop tokens)

def takeSome (stop : Token) (tokens : List Token) :
    Except SyntaxError (List Param × List Token) :=
  plain (readSome stop tokens)

def takeAll (stop : Token) (tokens : List Token) :
    Except SyntaxError (List Param × List Token) :=
  plain (readAll stop tokens)

theorem take_eq (stop : Token) (tokens : List Token) :
    take stop tokens =
      Phrase.take .ident stop tokens >>= fun name =>
        if ValueType.isReserved name.1.text then
          .error ⟨name.1.span, .reservedParameter name.1.text⟩
        else
          Phrase.take .colon stop name.2 >>= fun colon =>
            ValueType.take stop colon.2 >>= fun read =>
              .ok (⟨name.1.spanTo read.1.1, name.1.text, read.1.2⟩, read.2) := by
  unfold take read Phrase.take ValueType.take
  cases expect .ident stop tokens with
  | error failure => rfl
  | ok name =>
      simp only [plain, bind, Except.bind, Except.map]
      cases ValueType.isReserved name.value.text with
      | true => rfl
      | false =>
          simp only [Bool.false_eq_true, if_false]
          cases expect .colon stop name.rest with
          | error failure => rfl
          | ok colon =>
              simp only
              cases ValueType.read stop colon.rest <;> rfl

theorem takeSome_eq (stop : Token) (tokens : List Token) :
    takeSome stop tokens =
      take stop tokens >>= fun first =>
        match pass? .comma first.2 with
        | some (_, more) =>
            takeSome stop more >>= fun read => .ok (first.1 :: read.1, read.2)
        | none =>
            Phrase.take .rparen stop first.2 >>= fun closing => .ok ([first.1], closing.2) := by
  unfold takeSome take Phrase.take
  rw [readSome]
  cases read stop tokens with
  | error failure => rfl
  | ok first =>
      simp only [plain, bind, Except.bind, Except.map]
      obtain ⟨skipped, passed⟩ | ⟨comma, skipped, passed⟩ := skip?_cases .comma first.rest
      · simp only [skipped, passed]
        cases expect .rparen stop first.rest <;> rfl
      · simp only [skipped, passed]
        cases readSome stop comma.rest <;> rfl

theorem takeAll_eq (stop : Token) (tokens : List Token) :
    takeAll stop tokens =
      match pass? .rparen tokens with
      | some (_, after) => .ok ([], after)
      | none => takeSome stop tokens := by
  unfold takeAll takeSome readAll
  obtain ⟨skipped, passed⟩ | ⟨closing, skipped, passed⟩ := skip?_cases .rparen tokens
  · simp only [skipped, passed]
  · simp only [skipped, passed]
    rfl

end Param

namespace Stmt

theorem readReturns_eq (stop : Token) (tokens : List Token) :
    readReturns stop tokens =
      match pass? .colon tokens with
      | none => .ok (none, tokens)
      | some (_, atType) =>
          ValueType.take stop atType >>= fun read => .ok (some read.1.2, read.2) := by
  unfold readReturns ValueType.take
  obtain ⟨skipped, passed⟩ | ⟨colon, skipped, passed⟩ := skip?_cases .colon tokens
  · simp only [skipped, passed]
  · simp only [skipped, passed]
    cases ValueType.read stop colon.rest <;> rfl

theorem readDefinition_eq (stop name : Token) (tokens : List Token) :
    readDefinition stop name tokens =
      if ValueType.isReserved name.text then
        .error ⟨name.span, .reservedFunction name.text⟩
      else
        Phrase.take .lparen stop tokens >>= fun opening =>
          Param.takeAll stop opening.2 >>= fun params =>
            readReturns stop params.2 >>= fun returns =>
              Phrase.take .assign stop returns.2 >>= fun sign =>
                Expr.takeLevel stop .sum sign.2 >>= fun body =>
                  expectEnd body.2 >>= fun _ =>
                    .ok (.define (name.span.join body.1.span) name.text params.1 returns.1
                      body.1) := by
  unfold readDefinition Phrase.take Param.takeAll Expr.takeLevel Expr.read
  split
  · rfl
  · simp only [plain, bind, Except.bind, Except.map]
    cases expect .lparen stop tokens with
    | error failure => rfl
    | ok opening =>
        simp only
        cases Param.readAll stop opening.rest with
        | error failure => rfl
        | ok params =>
            simp only
            cases readReturns stop params.rest with
            | error failure => rfl
            | ok returns =>
                simp only
                cases expect .assign stop returns.2 with
                | error failure => rfl
                | ok sign =>
                    simp only
                    cases Expr.readLevel stop .sum sign.rest <;> rfl

theorem read_eq (stop first : Token) (others : List Token) :
    read stop first others =
      if startsDefinition (first :: others) then
        readDefinition stop first others
      else
        Expr.takeLevel stop .sum (first :: others) >>= fun value =>
          expectEnd value.2 >>= fun _ =>
            .ok (.expr (first.span.join value.1.span) value.1) := by
  unfold read Expr.takeLevel Expr.read
  split
  · rfl
  · cases Expr.readLevel stop .sum (first :: others) <;> rfl

theorem expectEnd_eq_ok_iff {tokens : List Token} {done : Unit} :
    expectEnd tokens = .ok done ↔ tokens = [] := by
  cases tokens with
  | nil => simp [expectEnd]
  | cons token rest => simp [expectEnd]

end Stmt

end GraphCalc
