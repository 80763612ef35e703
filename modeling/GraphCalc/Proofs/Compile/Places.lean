import GraphCalc.Proofs.Compile.Faultless
import GraphCalc.Proofs.Syntax.BlankLines

/-!
# Compiling does not look at places

Spans take no part in compiling: they are handed through to the faults.  So
changing the spans of a tree changes the spans of its faults in the same way, and
nothing else.  Together with the readers, which do not look at places either, two
texts that differ only in layout, comments and blank lines have the same meaning.
-/

namespace GraphCalc

/-! ## Changing the spans of outcomes -/

def Fault.mapSpans (change : Span → Span) : Fault → Fault
  | .compile error => .compile { error with span := change error.span }
  | .internal error => .internal { error with span := change error.span }

def Argument.mapSpan (change : Span → Span) (arg : Argument) : Argument :=
  { arg with span := change arg.span }

namespace Logged

variable {α β γ δ : Type} {change : Span → Span}

/-- A computation with the spans of its fault changed, and with its value
converted. -/
def mapSpans (change : Span → Span) (convert : α → β) (computation : Logged α) : Logged β where
  notes := computation.notes
  outcome :=
    match computation.outcome with
    | .ok value => .ok (convert value)
    | .error fault => .error (fault.mapSpans change)

/-- Changing spans step by step. -/
theorem mapSpans_bind {convert : α → β} {convertNext : γ → δ} (first : Logged α)
    {next : α → Logged γ} {changedNext : β → Logged δ}
    (changes : ∀ value,
      changedNext (convert value) = (next value).mapSpans change convertNext) :
    first.mapSpans change convert >>= changedNext =
      (first >>= next).mapSpans change convertNext := by
  rcases first with ⟨notes, outcome⟩
  cases outcome with
  | error fault => rfl
  | ok value =>
      simp only [bind, mapSpans]
      rw [changes]
      rfl

end Logged

/-! ## Steps of the compiler -/

namespace Compile

open Logged

variable {change : Span → Span}

theorem requireNumber_mapSpans (span : Span) (value : Typed) :
    requireNumber (change span) value = (requireNumber span value).mapSpans change id := by
  unfold requireNumber
  split
  · rfl
  · rfl

theorem requireItem_mapSpans (span : Span) (value : Typed) :
    requireItem (change span) value = (requireItem span value).mapSpans change id := by
  unfold requireItem
  split
  · rfl
  · rfl

theorem operation_mapSpans (span : Span) (op : BinaryOp) (left right : Formula) :
    operation (change span) op left right =
      (operation span op left right).mapSpans change id := by
  cases op with
  | _ => rfl

theorem comparison_mapSpans (span : Span) (sign : Comparison) :
    comparison (change span) sign = (comparison span sign).mapSpans change id := by
  cases sign with
  | _ => rfl

theorem checkReturn_mapSpans (span : Span) (returns : Option ValueType) (type : ValueType) :
    checkReturn (change span) returns type =
      (checkReturn span returns type).mapSpans change id := by
  unfold checkReturn
  split
  · rfl
  · split
    · rfl
    · rfl

theorem checkArguments_mapSpans (mode : CallMode) (args : List Argument)
    (params : List ValueType) :
    checkArguments mode (args.map (Argument.mapSpan change)) params =
      (checkArguments mode args params).mapSpans change id := by
  induction args generalizing params with
  | nil => rfl
  | cons arg args ih =>
      cases params with
      | nil => rfl
      | cons expected params =>
          simp only [List.map_cons, checkArguments, Argument.mapSpan]
          by_cases accepted : accepts mode arg.type expected = true
          · rw [if_pos accepted, if_pos accepted]
            exact ih params
          · rw [if_neg accepted, if_neg accepted]
            rfl

theorem call_mapSpans (context : Context) (span : Span) (mode : CallMode) (callee : String)
    (args : List Argument) :
    call context (change span) mode callee (args.map (Argument.mapSpan change)) =
      (call context span mode callee args).mapSpans change id := by
  unfold call
  cases context.signature? callee with
  | none => rfl
  | some signature =>
      simp only [List.length_map]
      split
      · rfl
      · rw [checkArguments_mapSpans]
        apply mapSpans_bind
        intro _
        rw [List.map_map]
        rfl

end Compile

open Compile Logged

/-! ## Compiling trees -/

/-- A change of spans that can be made before or after joining them. -/
def Span.KeepsJoins (change : Span → Span) : Prop :=
  ∀ first last : Span, change (first.join last) = (change first).join (change last)

section

variable {change : Span → Span}

/-- Where a number is required, the span of the expression is handed on. -/
theorem Logged.mapSpans_requireNumber {β : Type} (compiled : Logged Typed) (span : Span)
    {next changedNext : Formula → Logged β}
    (changes : ∀ formula, changedNext formula = (next formula).mapSpans change id) :
    (compiled.mapSpans change id >>= fun value =>
        requireNumber (change span) value >>= changedNext) =
      (compiled >>= fun value => requireNumber span value >>= next).mapSpans change id := by
  apply mapSpans_bind
  intro value
  rw [id, requireNumber_mapSpans]
  apply mapSpans_bind
  exact changes

/-- A macro call reports its own span or that of its first argument. -/
theorem Expr.compile_mapSpans_macroCall (context : Context) (span : Span) (name : String)
    {args : List Expr}
    (changes : Expr.compileArguments context (Expr.mapAllSpans change args.tail) =
      (Expr.compileArguments context args.tail).mapSpans change
        (List.map (Argument.mapSpan change))) :
    ((Expr.macroCall span name args).mapSpans change).compile context =
      ((Expr.macroCall span name args).compile context).mapSpans change id := by
  rw [Expr.mapSpans]
  by_cases isMap : name = mapName
  · subst isMap
    cases args with
    | nil => rfl
    | cons first others =>
        cases others with
        | nil => rfl
        | cons second others =>
            cases first with
            | var nameSpan callee =>
                have notEmpty : Expr.mapAllSpans change (second :: others) ≠ [] :=
                  List.cons_ne_nil _ _
                rw [Expr.compile_map context span nameSpan callee (List.cons_ne_nil _ _),
                  Expr.mapAllSpans, Expr.mapSpans,
                  Expr.compile_map context (change span) (change nameSpan) callee notEmpty]
                rw [List.tail_cons] at changes
                rw [changes]
                apply mapSpans_bind
                intro compiled
                rw [List.length_map]
                -- A note has no span.
                change (Logged.note _).mapSpans change id >>= _ = _
                apply mapSpans_bind
                intro _
                exact call_mapSpans context span .mapped callee compiled
            | _ => rfl
  · rw [Expr.compile.eq_def, Expr.compile.eq_def]
    simp only [if_neg isMap]
    rfl

mutual

/-- Changing the spans of an expression changes the span of its fault, and
nothing else. -/
theorem Expr.compile_mapSpans (joins : Span.KeepsJoins change) (context : Context) :
    (expr : Expr) →
      (expr.mapSpans change).compile context = (expr.compile context).mapSpans change id
  | .number _ _ => rfl
  | .var _ name => by
      simp only [Expr.mapSpans, Expr.compile]
      cases context.variableType? name with
      | none => rfl
      | some type => rfl
  | .binary span op left right => by
      simp only [Expr.mapSpans, Expr.compile, Expr.span_mapSpans,
        left.compile_mapSpans joins context, right.compile_mapSpans joins context]
      apply mapSpans_requireNumber
      intro leftFormula
      apply mapSpans_requireNumber
      intro rightFormula
      rw [operation_mapSpans]
      apply mapSpans_bind
      intro formula
      rfl
  | .unary span op operand => by
      simp only [Expr.mapSpans, Expr.compile, Expr.span_mapSpans,
        operand.compile_mapSpans joins context]
      apply mapSpans_requireNumber
      intro formula
      cases op with
      | _ => rfl
  | .call span mode callee args => by
      cases mode with
      | normal =>
          simp only [Expr.mapSpans, Expr.compile, Expr.compileArguments_mapSpans joins context args]
          apply mapSpans_bind
          intro compiled
          exact call_mapSpans context span .normal callee compiled
      | _ => rfl
  | .macroCall span name [] => Expr.compile_mapSpans_macroCall context span name rfl
  | .macroCall span name (_ :: others) =>
      Expr.compile_mapSpans_macroCall context span name
        (Expr.compileArguments_mapSpans joins context others)
  | .list _ items => by
      simp only [Expr.mapSpans, Expr.compile, Expr.compileItems_mapSpans joins context items]
      apply mapSpans_bind
      intro formulas
      rfl
  | .piecewise _ first rest otherwise => by
      simp only [Expr.mapSpans, Expr.compile, Expr.span_mapSpans,
        Clause.compile_mapSpans joins context first, Clause.compileAll_mapSpans joins context rest,
        otherwise.compile_mapSpans joins context]
      apply mapSpans_bind
      intro firstClause
      apply mapSpans_bind
      intro restClauses
      apply mapSpans_requireNumber
      intro formula
      rfl
  | .mapped _ _ => rfl

theorem Expr.compileArguments_mapSpans (joins : Span.KeepsJoins change) (context : Context) :
    (exprs : List Expr) → Expr.compileArguments context (Expr.mapAllSpans change exprs) =
      (Expr.compileArguments context exprs).mapSpans change (List.map (Argument.mapSpan change))
  | [] => rfl
  | first :: rest => by
      simp only [Expr.mapAllSpans, Expr.compileArguments, Expr.span_mapSpans,
        first.compile_mapSpans joins context, Expr.compileArguments_mapSpans joins context rest]
      apply mapSpans_bind
      intro value
      apply mapSpans_bind
      intro args
      rfl

theorem Expr.compileItems_mapSpans (joins : Span.KeepsJoins change) (context : Context) :
    (exprs : List Expr) → Expr.compileItems context (Expr.mapAllSpans change exprs) =
      (Expr.compileItems context exprs).mapSpans change id
  | [] => rfl
  | first :: rest => by
      simp only [Expr.mapAllSpans, Expr.compileItems, Expr.span_mapSpans,
        first.compile_mapSpans joins context, Expr.compileItems_mapSpans joins context rest]
      apply mapSpans_bind
      intro value
      rw [id, requireItem_mapSpans]
      apply mapSpans_bind
      intro item
      apply mapSpans_bind
      intro items
      rfl

theorem Clause.compile_mapSpans (joins : Span.KeepsJoins change) (context : Context) :
    (clause : Clause Expr) → Clause.compile context (Clause.mapSpans change clause) =
      (Clause.compile context clause).mapSpans change id
  | ⟨left, sign, right, result⟩ => by
      -- The fault of an unknown comparison is at the join of two spans.
      simp only [Clause.mapSpans, Clause.compile, Expr.span_mapSpans, ← joins _ _,
        left.compile_mapSpans joins context, right.compile_mapSpans joins context,
        result.compile_mapSpans joins context]
      apply mapSpans_requireNumber
      intro leftFormula
      apply mapSpans_bind
      intro rightValue
      apply mapSpans_bind
      intro resultValue
      rw [comparison_mapSpans]
      apply mapSpans_bind
      intro known
      rfl

theorem Clause.compileAll_mapSpans (joins : Span.KeepsJoins change) (context : Context) :
    (clauses : List (Clause Expr)) → Clause.compileAll context (Clause.mapAllSpans change clauses) =
      (Clause.compileAll context clauses).mapSpans change id
  | [] => rfl
  | first :: rest => by
      simp only [Clause.mapAllSpans, Clause.compileAll, Clause.compile_mapSpans joins context first,
        Clause.compileAll_mapSpans joins context rest]
      apply mapSpans_bind
      intro clause
      apply mapSpans_bind
      intro clauses
      rfl

end

/-! ## Compiling programs -/

theorem Context.withParams_mapSpans (context : Context) (params : List Param) :
    context.withParams (params.map (Param.mapSpans change)) = context.withParams params := by
  unfold withParams
  rw [List.foldl_map]
  rfl

theorem Stmt.compile_mapSpans (joins : Span.KeepsJoins change) (context : Context) (stmt : Stmt) :
    Stmt.compile context (stmt.mapSpans change) =
      (Stmt.compile context stmt).mapSpans change id := by
  cases stmt with
  | expr span value =>
      simp only [Stmt.mapSpans, Stmt.compile_expr, value.compile_mapSpans joins]
      apply mapSpans_bind
      intro compiled
      rfl
  | define span name params returns body =>
      simp only [Stmt.mapSpans, Stmt.compile_define, Context.withParams_mapSpans,
        Expr.span_mapSpans, body.compile_mapSpans joins, checkReturn_mapSpans, List.map_map]
      apply mapSpans_bind
      intro compiled
      apply mapSpans_bind
      intro _
      rfl

/-- A compiled program with the span of its fault changed. -/
def Compiled.mapSpans (change : Span → Span) (compiled : Compiled) : Compiled :=
  { compiled with fault := compiled.fault.map (Fault.mapSpans change) }

theorem Program.compile_mapSpans (joins : Span.KeepsJoins change) (context : Context)
    (program : Program) :
    Program.compile context (program.map (Stmt.mapSpans change)) =
      (Program.compile context program).mapSpans change := by
  induction program generalizing context with
  | nil => rfl
  | cons stmt rest ih =>
      have changed := Stmt.compile_mapSpans joins context stmt
      rw [List.map_cons]
      cases outcome : (Stmt.compile context stmt).outcome with
      | error fault =>
          have changedOutcome : (Stmt.compile context (stmt.mapSpans change)).outcome =
              .error (fault.mapSpans change) := by
            rw [changed, Logged.mapSpans, outcome]
          rw [Program.compile_cons_of_error rest outcome,
            Program.compile_cons_of_error _ changedOutcome, changed]
          rfl
      | ok result =>
          have changedOutcome : (Stmt.compile context (stmt.mapSpans change)).outcome =
              .ok (result.1, result.2) := by
            rw [changed, Logged.mapSpans, outcome]
            rfl
          rw [Program.compile_cons_of_ok rest outcome,
            Program.compile_cons_of_ok _ changedOutcome, changed, ih]
          rfl

end

/-- Programs that are equal up to spans have the same formulas and notes, and
the same fault up to its span. -/
theorem Program.compile_congr {program other : Program} (same : program.bare = other.bare)
    (context : Context) :
    (Program.compile context program).mapSpans .forget =
      (Program.compile context other).mapSpans .forget := by
  have joins : Span.KeepsJoins .forget := fun _ _ => rfl
  rw [← compile_mapSpans joins, ← compile_mapSpans joins]
  exact congrArg (Program.compile context) same

/-! ## Compiling texts -/

/-- A failure with all its spans forgotten. -/
def Failure.bare : Failure → Failure
  | .unreadable errors => .unreadable (errors.map (SyntaxError.mapSpans .forget))
  | .fault cause => .fault (cause.mapSpans .forget)
  | .during task cause => .during task cause.bare
  | failure => failure

/-- A compiled text with all its spans forgotten. -/
def CompiledText.bare (compiled : CompiledText) : CompiledText :=
  { compiled with failure := compiled.failure.map Failure.bare }

theorem CompiledText.bare_eq_of_compiled (compiled : Compiled) :
    (CompiledText.mk compiled.formulas compiled.notes (compiled.fault.map Failure.fault)).bare =
      let changed := compiled.mapSpans .forget
      ⟨changed.formulas, changed.notes, changed.fault.map Failure.fault⟩ := by
  rw [bare, Compiled.mapSpans]
  cases compiled.fault with
  | none => rfl
  | some fault => rfl

/-- Texts that are read alike are compiled alike. -/
theorem compileText_congr (globals : NameMap ValueType) {file otherFile : String}
    {text otherText : List Char}
    (alike : (Parsed.ofText file text).Alike .forget (Parsed.ofText otherFile otherText)) :
    (compileText globals file text).bare = (compileText globals otherFile otherText).bare := by
  rcases alike with ⟨programs, errors⟩
  simp only [SpanView.forget] at programs errors
  by_cases readable : (Parsed.ofText file text).errors = []
  · have otherReadable : (Parsed.ofText otherFile otherText).errors = [] := by
      rw [readable, List.map_nil, eq_comm, List.map_eq_nil_iff] at errors
      exact errors
    rcases compileText_of_readable globals readable with ⟨_, rfl, compiledEq⟩
    rcases compileText_of_readable globals otherReadable with ⟨_, rfl, otherEq⟩
    rw [compiledEq, otherEq, CompiledText.bare_eq_of_compiled, CompiledText.bare_eq_of_compiled,
      Program.compile_congr programs]
  · have otherUnreadable : (Parsed.ofText otherFile otherText).errors ≠ [] := by
      intro otherReadable
      rw [otherReadable, List.map_nil, List.map_eq_nil_iff] at errors
      exact readable errors
    rw [compileText_of_unreadable globals readable,
      compileText_of_unreadable globals otherUnreadable]
    simp only [CompiledText.bare, Option.map_some, Failure.bare, errors]

/-- Positions never influence meaning.  Two texts whose tokens have the same
kinds and texts, apart from line ends that make blank lines, are read as the same
statements up to spans, and with errors of the same wordings in the same order.
Given the same globals, they are compiled to the same formulas with the same
notes, and both succeed, or both fail with failures that differ in spans only. -/
theorem positions_never_influence_meaning (globals : NameMap ValueType)
    {file otherFile : String} {text otherText : List Char}
    (contents : (Token.withoutBlankLines (tokenize file text)).map Token.content =
      (Token.withoutBlankLines (tokenize otherFile otherText)).map Token.content) :
    let parsed := Parsed.ofText file text
    let otherParsed := Parsed.ofText otherFile otherText
    let compiled := compileText globals file text
    let otherCompiled := compileText globals otherFile otherText
    parsed.program.bare = otherParsed.program.bare ∧
      parsed.errors.map SyntaxError.message = otherParsed.errors.map SyntaxError.message ∧
      compiled.formulas = otherCompiled.formulas ∧ compiled.notes = otherCompiled.notes ∧
      compiled.failure.map Failure.bare = otherCompiled.failure.map Failure.bare := by
  intro parsed otherParsed compiled otherCompiled
  have alike : parsed.Alike .forget otherParsed := Parsed.alike_of_content contents
  have compiledAlike : compiled.bare = otherCompiled.bare := compileText_congr globals alike
  rcases CompiledText.mk.inj compiledAlike with ⟨formulas, notes, failures⟩
  refine ⟨alike.program, ?_, formulas, notes, failures⟩
  have messages := congrArg (List.map SyntaxError.message) alike.errors
  simpa only [List.map_map, Function.comp_def, SyntaxError.message_mapSpans] using messages

/-- A definition and a mistake behind it, without and with blank lines, comments
and a line end inside brackets: the mistake is the same, but elsewhere. -/
theorem positions_never_influence_meaning_layout :
    let text := "f(a: Number) = a\nf(b)".toList
    let spaced := "\n# f\nf( a : Number )= a # a\n\n \n f(\n b)".toList
    let failure := (compileText ∅ "" text).failure
    let otherFailure := (compileText ∅ "spaced" spaced).failure
    (Token.withoutBlankLines (tokenize "" text)).map Token.content =
        (Token.withoutBlankLines (tokenize "spaced" spaced)).map Token.content ∧
      failure.map Failure.text = some "2:3: Undefined variable 'b'" ∧
      otherFailure.map Failure.text = some "spaced:7:2: Undefined variable 'b'" ∧
      failure.map Failure.bare = otherFailure.map Failure.bare := by
  intro text spaced failure otherFailure
  have contents : (Token.withoutBlankLines (tokenize "" text)).map Token.content =
      (Token.withoutBlankLines (tokenize "spaced" spaced)).map Token.content := by
    decide +kernel
  refine ⟨contents, by decide +kernel, by decide +kernel, ?_⟩
  exact (positions_never_influence_meaning ∅ contents).2.2.2.2

end GraphCalc
