import GraphCalc.Proofs.Syntax.Reading

/-!
# Readers that call one another

The readers of statements and expressions are written here as scripts.  A script ends
with an outcome, or it calls a reader and goes on with what that reader has read; an
error of the called reader is its own.  A script may call any reader on any tokens, so
nothing about scripts says that following them comes to an end.

The readers do what their scripts say, so whatever following a script leads to is what
the reader gives.
-/

namespace GraphCalc

open Phrase

/-! ## Calls -/

/-- A call of a reader on some tokens, with the type of the value it reads.  An
expression is read at the start of a statement, in brackets, behind a sign of comparison
and the like, or else behind an operator, where it reaches to the next operator of the
same level. -/
inductive Call : Type → Type
  | statement (first : Token) (others : List Token) : Call Stmt
  | definition (name : Token) (tokens : List Token) : Call Stmt
  | params (tokens : List Token) : Call (List Param)
  | paramsSome (tokens : List Token) : Call (List Param)
  | expression (behind : Option Level) (tokens : List Token) : Call Expr
  | chain (level : Level) (tokens : List Token) : Call Expr
  | operand (level : Level) (tokens : List Token) : Call Expr
  | tail (level : Level) (left : Expr) (tokens : List Token) : Call Expr
  | factor (tokens : List Token) : Call Expr
  | marks (value : Expr) (tokens : List Token) : Call Expr
  | primary (tokens : List Token) : Call Expr
  | items (close : Kind) (tokens : List Token) : Call (List Expr × Token)
  | itemsSome (close : Kind) (tokens : List Token) : Call (List Expr × Token)
  | clauses (tokens : List Token) : Call (List (Clause Expr) × Expr × Token)

/-- What to do: end with an outcome, which is a value and the tokens behind it or an
error, or call a reader and go on with what it has read. -/
inductive Script (α : Type) : Type 1
  | done (outcome : Except SyntaxError (α × List Token)) : Script α
  | call {β : Type} (callee : Call β) (next : β × List Token → Script α) : Script α

namespace Script

/-- End with what has been read. -/
def give {α : Type} (read : α × List Token) : Script α :=
  .done (.ok read)

/-- End with an error. -/
def fail {α : Type} (error : SyntaxError) : Script α :=
  .done (.error error)

/-- Go on with what a reader gives that calls no other one. -/
def check {α β : Type} (outcome : Except SyntaxError β) (next : β → Script α) : Script α :=
  match outcome with
  | .error error => .fail error
  | .ok value => next value

end Script

namespace Call

open Script

/-- The script of a primary expression with the given first token. -/
def primaryScript (stop token : Token) (rest : List Token) : Script Expr :=
  match token.kind with
  | .number => .give (.number token.span token.text, rest)
  | .minus =>
      match pass? .number rest with
      | some (digits, after) => .give (.number (token.spanTo digits) ("-" ++ digits.text), after)
      | none => .fail ⟨token.span, .misplacedMinus (rest.headD stop)⟩
  | .ident =>
      match pass? .lparen rest with
      | some (_, inner) =>
          .call (.items .rparen inner) fun read =>
            .give (.call (token.spanTo read.1.2) .normal token.text read.1.1, read.2)
      | none => .give (.var token.span token.text, rest)
  | .macroName =>
      .check (take .lparen stop rest) fun opening =>
        .call (.items .rparen opening.2) fun read =>
          .give (.macroCall (token.spanTo read.1.2) token.text read.1.1, read.2)
  | .lparen =>
      .call (.expression none rest) fun inner =>
        .check (take .rparen stop inner.2) fun closing => .give (inner.1, closing.2)
  | .lbrack =>
      .call (.items .rbrack rest) fun read =>
        .give (.list (token.spanTo read.1.2) read.1.1, read.2)
  | .lbrace =>
      .call (.clauses rest) fun read =>
        match read.1 with
        | ([], _, close) => .fail ⟨token.spanTo close, .noCondition⟩
        | (first :: others, otherwise, close) =>
            .give (.piecewise (token.spanTo close) first others otherwise, read.2)
  | _ => .fail (.blaming token .unexpectedStart)

/-- The script of what is in the braces of a piecewise expression. -/
def clausesScript (stop : Token) (tokens : List Token) :
    Script (List (Clause Expr) × Expr × Token) :=
  .call (.expression none tokens) fun left =>
    match left.2 with
    | [] => .fail (.blaming stop (.expectedKind .rbrace))
    | token :: behind =>
        match token.kind.comparison? with
        | none =>
            .check (take .rbrace stop (token :: behind)) fun closing =>
              .give (([], left.1, closing.1), closing.2)
        | some comparison =>
            .call (.expression none behind) fun right =>
              .check (take .colon stop right.2) fun colon =>
                .call (.expression none colon.2) fun result =>
                  match pass? .comma result.2 with
                  | none => .fail (.blaming (result.2.headD stop) .noDefault)
                  | some (_, more) =>
                      .call (.clauses more) fun read =>
                        .give ((⟨left.1, comparison, right.1, result.1⟩ :: read.1.1, read.1.2),
                          read.2)

/-- The script of a definition whose name has been read. -/
def definitionScript (stop name : Token) (tokens : List Token) : Script Stmt :=
  if ValueType.isReserved name.text then
    .fail ⟨name.span, .reservedFunction name.text⟩
  else
    .check (take .lparen stop tokens) fun opening =>
      .call (.params opening.2) fun params =>
        .check (Stmt.readReturns stop params.2) fun returns =>
          .check (take .assign stop returns.2) fun sign =>
            .call (.expression none sign.2) fun body =>
              .check (Stmt.expectEnd body.2) fun _ =>
                .give (.define (name.span.join body.1.span) name.text params.1 returns.1 body.1,
                  [])

/-- What a reader does when it is called. -/
def script {α : Type} (stop : Token) : Call α → Script α
  | .statement first others =>
      if Stmt.startsDefinition (first :: others) then
        .call (.definition first others) .give
      else
        .call (.expression none (first :: others)) fun value =>
          .check (Stmt.expectEnd value.2) fun _ =>
            .give (.expr (first.span.join value.1.span) value.1, [])
  | .definition name tokens => definitionScript stop name tokens
  | .params tokens =>
      match pass? .rparen tokens with
      | some (_, after) => .give ([], after)
      | none => .call (.paramsSome tokens) .give
  | .paramsSome tokens =>
      .check (Param.take stop tokens) fun first =>
        match pass? .comma first.2 with
        | some (_, more) =>
            .call (.paramsSome more) fun read => .give (first.1 :: read.1, read.2)
        | none =>
            .check (take .rparen stop first.2) fun closing => .give ([first.1], closing.2)
  | .expression none tokens => .call (.chain .sum tokens) .give
  | .expression (some level) tokens => .call (.operand level tokens) .give
  | .chain level tokens =>
      .call (.operand level tokens) fun first => .call (.tail level first.1 first.2) .give
  | .operand .sum tokens => .call (.chain .product tokens) .give
  | .operand .product tokens => .call (.factor tokens) .give
  | .tail _ left [] => .give (left, [])
  | .tail level left (token :: rest) =>
      match token.kind.operator? level with
      | none => .give (left, token :: rest)
      | some op =>
          .call (.expression (some level) rest) fun right =>
            .call (.tail level (.binary (left.span.join right.1.span) op left right.1) right.2)
              .give
  | .factor tokens =>
      .call (.primary tokens) fun value => .call (.marks value.1 value.2) .give
  | .marks value [] => .give (value, [])
  | .marks value (token :: rest) =>
      if token.kind = .bang then
        .call (.marks (.unary (value.span.join token.span) .factorial value) rest) .give
      else
        .give (value, token :: rest)
  | .primary [] => .fail (.blaming stop .unexpectedStart)
  | .primary (token :: rest) => primaryScript stop token rest
  | .items close tokens =>
      match pass? close tokens with
      | some (closing, after) => .give (([], closing), after)
      | none => .call (.itemsSome close tokens) .give
  | .itemsSome close tokens =>
      .call (.expression none tokens) fun first =>
        match pass? .comma first.2 with
        | some (_, more) =>
            .call (.itemsSome close more) fun read =>
              .give ((first.1 :: read.1.1, read.1.2), read.2)
        | none =>
            .check (take close stop first.2) fun closing =>
              .give (([first.1], closing.1), closing.2)
  | .clauses tokens => clausesScript stop tokens

/-- What the called reader gives. -/
def outcome {α : Type} (stop : Token) : Call α → Except SyntaxError (α × List Token)
  | .statement first others => Stmt.read stop first others >>= fun stmt => .ok (stmt, [])
  | .definition name tokens =>
      Stmt.readDefinition stop name tokens >>= fun stmt => .ok (stmt, [])
  | .params tokens => Param.takeAll stop tokens
  | .paramsSome tokens => Param.takeSome stop tokens
  | .expression none tokens => Expr.takeLevel stop .sum tokens
  | .expression (some level) tokens => Expr.takeOperand stop level tokens
  | .chain level tokens => Expr.takeLevel stop level tokens
  | .operand level tokens => Expr.takeOperand stop level tokens
  | .tail level left tokens => Expr.takeTail stop level left tokens
  | .factor tokens => Expr.takeFactor stop tokens
  | .marks value tokens => .ok (Expr.takeMarks value tokens)
  | .primary tokens => Expr.takePrimary stop tokens
  | .items close tokens => Expr.takeItems stop close tokens
  | .itemsSome close tokens => Expr.takeItemsSome stop close tokens
  | .clauses tokens => Expr.takeClauses stop tokens

end Call

/-! ## Readers do what their scripts say -/

namespace Script

/-- The outcome of a script, given what the readers give that it calls. -/
def run {α : Type} (stop : Token) : Script α → Except SyntaxError (α × List Token)
  | .done outcome => outcome
  | .call callee next => callee.outcome stop >>= fun read => (next read).run stop

variable {α β : Type} (stop : Token)

@[simp]
theorem run_give (read : α × List Token) : (give read).run stop = .ok read :=
  rfl

@[simp]
theorem run_call (callee : Call β) (next : β × List Token → Script α) :
    (Script.call callee next).run stop =
      callee.outcome stop >>= fun read => (next read).run stop :=
  rfl

@[simp]
theorem run_check (outcome : Except SyntaxError β) (next : β → Script α) :
    (check outcome next).run stop = outcome >>= fun value => (next value).run stop := by
  cases outcome with
  | error error => rfl
  | ok value => rfl

end Script

namespace Call

open GraphCalc.Expr

theorem run_call_give {α : Type} (stop : Token) (callee : Call α) :
    (Script.call callee .give).run stop = callee.outcome stop := by
  rw [Script.run_call]
  cases callee.outcome stop with
  | error error => rfl
  | ok read => rfl

theorem takePrimary_eq_run (stop token : Token) (rest : List Token) :
    takePrimary stop (token :: rest) = (primaryScript stop token rest).run stop := by
  rw [takePrimary_cons, primaryScript]
  cases token.kind with
  | minus => cases pass? .number rest <;> rfl
  | ident => cases pass? .lparen rest <;> rfl
  | macroName => simp [outcome]
  | lparen => simp [outcome]
  | lbrack => simp [outcome]
  | lbrace =>
      simp only [Script.run_call, outcome]
      cases takeClauses stop rest with
      | error error => rfl
      | ok read =>
          rcases read with ⟨⟨clauses, otherwise, close⟩, after⟩
          cases clauses <;> rfl
  | _ => rfl

theorem takeClauses_eq_run (stop : Token) (tokens : List Token) :
    takeClauses stop tokens = (clausesScript stop tokens).run stop := by
  rw [takeClauses_eq, clausesScript]
  simp only [Script.run_call, outcome]
  refine congrArg _ (funext fun left => ?_)
  rcases left with ⟨left, rest⟩
  cases rest with
  | nil => rfl
  | cons token behind =>
      simp only
      cases token.kind.comparison? with
      | none => simp
      | some comparison =>
          simp only [Script.run_call, Script.run_check, outcome]
          refine congrArg _ (funext fun right => congrArg _ (funext fun colon =>
            congrArg _ (funext fun result => ?_)))
          cases pass? .comma result.2 with
          | none => rfl
          | some passed => rfl

theorem readDefinition_eq_run (stop name : Token) (tokens : List Token) :
    (Stmt.readDefinition stop name tokens >>= fun stmt => .ok (stmt, [])) =
      (definitionScript stop name tokens).run stop := by
  rw [Stmt.readDefinition_eq, definitionScript]
  split
  · rfl
  · simp only [Script.run_call, Script.run_check, Script.run_give, outcome, bind_assoc]
    rfl

theorem readStmt_eq_run (stop first : Token) (others : List Token) :
    (Stmt.read stop first others >>= fun stmt => .ok (stmt, [])) =
      (script stop (.statement first others)).run stop := by
  rw [Stmt.read_eq, script]
  split
  · exact (run_call_give stop (.definition first others)).symm
  · simp only [Script.run_call, Script.run_check, Script.run_give, outcome, bind_assoc]
    rfl

theorem takeTail_eq_run (stop : Token) (level : Level) (left : Expr) (tokens : List Token) :
    takeTail stop level left tokens = (script stop (.tail level left tokens)).run stop := by
  cases tokens with
  | nil => exact takeTail_nil stop level left
  | cons token rest =>
      rw [script]
      cases sign : token.kind.operator? level with
      | none => exact takeTail_of_none left rest sign
      | some op =>
          rw [takeTail_of_some left rest sign, Script.run_call]
          simp only [run_call_give, outcome]

theorem takeMarks_eq_run (stop : Token) (value : Expr) (tokens : List Token) :
    .ok (takeMarks value tokens) = (script stop (.marks value tokens)).run stop := by
  cases tokens with
  | nil => rw [takeMarks_nil, script, Script.run_give]
  | cons token rest =>
      rw [script]
      split
      · rename_i isMark
        rw [takeMarks_of_eq value rest isMark, run_call_give]
        rfl
      · rename_i noMark
        rw [takeMarks_of_ne value rest noMark, Script.run_give]

/-- Every reader gives what its script says. -/
theorem outcome_eq_run {α : Type} (stop : Token) (call : Call α) :
    call.outcome stop = (call.script stop).run stop := by
  cases call with
  | statement first others => exact readStmt_eq_run stop first others
  | definition name tokens => exact readDefinition_eq_run stop name tokens
  | params tokens =>
      rw [outcome, script, Param.takeAll_eq]
      cases pass? .rparen tokens with
      | none => exact (run_call_give stop (.paramsSome tokens)).symm
      | some passed => rfl
  | paramsSome tokens =>
      rw [outcome, script, Param.takeSome_eq]
      simp only [Script.run_check]
      refine congrArg _ (funext fun first => ?_)
      cases pass? .comma first.2 with
      | none => simp
      | some passed => rfl
  | expression behind tokens =>
      cases behind with
      | none => exact (run_call_give stop _).symm
      | some level => exact (run_call_give stop _).symm
  | chain level tokens =>
      rw [outcome, script, takeLevel_eq, Script.run_call]
      simp only [run_call_give, outcome]
  | operand level tokens =>
      cases level with
      | sum =>
          rw [script, run_call_give]
          exact takeOperand_sum stop tokens
      | product =>
          rw [script, run_call_give]
          exact takeOperand_product stop tokens
  | tail level left tokens => exact takeTail_eq_run stop level left tokens
  | factor tokens =>
      rw [outcome, script, takeFactor_eq, Script.run_call]
      simp only [run_call_give, outcome]
  | marks value tokens => exact takeMarks_eq_run stop value tokens
  | primary tokens =>
      cases tokens with
      | nil => exact takePrimary_nil stop
      | cons token rest => exact takePrimary_eq_run stop token rest
  | items close tokens =>
      rw [outcome, script, takeItems_eq]
      cases pass? close tokens with
      | none => exact (run_call_give stop (.itemsSome close tokens)).symm
      | some passed => rfl
  | itemsSome close tokens =>
      rw [outcome, script, takeItemsSome_eq]
      simp only [Script.run_call]
      refine congrArg _ (funext fun first => ?_)
      cases pass? .comma first.2 with
      | none => simp
      | some passed => rfl
  | clauses tokens => exact takeClauses_eq_run stop tokens

end Call

end GraphCalc
