import Mathlib.Data.List.Forall2
import GraphCalc.Proofs.Syntax.Reading
import GraphCalc.Proofs.Syntax.Trees

/-!
# Readers do not look at places

Which phrase is read depends on the kinds and texts of tokens only; their
places end up in the spans of the result.  So tokens that agree up to their
places are read alike: as trees, or as errors, that agree up to their spans.

How spans are compared is a parameter.  The spans of one text can be compared
with those of another after both have been changed, as long as spans that look
alike are joined to spans that look alike.  Spans may thus be moved, or be
forgotten.
-/

namespace GraphCalc

/-! ## Changing the spans of errors -/

/-- A token that starts where its changed span does. -/
def Token.mapSpan (change : Span → Span) (token : Token) : Token :=
  { token with file := (change token.span).file, start := (change token.span).start }

def SyntaxError.Cause.mapSpans (change : Span → Span) : Cause → Cause
  | .unexpectedStart found => .unexpectedStart (found.mapSpan change)
  | .expectedKind expected found => .expectedKind expected (found.mapSpan change)
  | .expectedEnd found => .expectedEnd (found.mapSpan change)
  | .reservedFunction name => .reservedFunction name
  | .reservedParameter name => .reservedParameter name
  | .unknownType name => .unknownType name
  | .misplacedMinus found => .misplacedMinus (found.mapSpan change)
  | .noCondition => .noCondition
  | .noDefault found => .noDefault (found.mapSpan change)

/-- An error with its span, and that of the token it blames, changed. -/
def SyntaxError.mapSpans (change : Span → Span) (error : SyntaxError) : SyntaxError :=
  ⟨change error.span, error.cause.mapSpans change⟩

/-- The wording of an error does not show where anything stands. -/
@[simp]
theorem SyntaxError.message_mapSpans (change : Span → Span) (error : SyntaxError) :
    (error.mapSpans change).message = error.message := by
  unfold message mapSpans
  cases error.cause with
  | _ => rfl

theorem SyntaxError.mapSpans_id (error : SyntaxError) : error.mapSpans id = error := by
  rcases error with ⟨span, cause⟩
  cases cause with
  | _ => rfl

/-! ## Comparing spans -/

/-- Two ways of changing spans, one for each of two texts.  Spans that look alike
under them are joined to spans that look alike. -/
structure SpanView where
  left : Span → Span
  right : Span → Span
  join : ∀ {first last otherFirst otherLast : Span}, left first = right otherFirst →
    left last = right otherLast → left (first.join last) = right (otherFirst.join otherLast)

/-- Tokens of the same kind and text whose spans look alike. -/
structure Token.Alike (view : SpanView) (token other : Token) : Prop where
  kind : other.kind = token.kind
  text : other.text = token.text
  span : view.left token.span = view.right other.span

abbrev Token.AllAlike (view : SpanView) : List Token → List Token → Prop :=
  List.Forall₂ (Token.Alike view)

/-- Whether expressions differ in spans only, and these look alike. -/
def Expr.Alike (view : SpanView) (value other : Expr) : Prop :=
  value.mapSpans view.left = other.mapSpans view.right

/-- Whether errors differ in places only, and these look alike. -/
def SyntaxError.Alike (view : SpanView) (error other : SyntaxError) : Prop :=
  error.mapSpans view.left = other.mapSpans view.right

/-- Whether two readings both succeed with values that are the same, or both
fail with errors that look alike. -/
inductive Agree (view : SpanView) {α : Type} (same : α → α → Prop) :
    Except SyntaxError α → Except SyntaxError α → Prop
  | ok {value other : α} (alike : same value other) : Agree view same (.ok value) (.ok other)
  | error {error other : SyntaxError} (alike : error.Alike view other) :
      Agree view same (.error error) (.error other)

/-- Whether two phrases have the same value and tokens alike behind them. -/
def Taken (view : SpanView) {α : Type} (same : α → α → Prop) (phrase other : α × List Token) :
    Prop :=
  same phrase.1 other.1 ∧ Token.AllAlike view phrase.2 other.2

section

variable {view : SpanView}

/-- Readings agree if their first steps do and equal outcomes of these lead to
agreeing second steps. -/
theorem Agree.bind {α β : Type} {same : α → α → Prop} {sameResult : β → β → Prop}
    {first other : Except SyntaxError α} {next otherNext : α → Except SyntaxError β}
    (agree : Agree view same first other)
    (agreeNext : ∀ value otherValue, first = .ok value → same value otherValue →
      Agree view sameResult (next value) (otherNext otherValue)) :
    Agree view sameResult (first >>= next) (other >>= otherNext) := by
  cases agree with
  | ok alike => exact agreeNext _ _ rfl alike
  | error alike => exact .error alike

namespace Token.Alike

variable {token other : Token}

theorem kind_ne (alike : token.Alike view other) {kind : Kind} (kindNe : token.kind ≠ kind) :
    other.kind ≠ kind := by
  rw [alike.kind]
  exact kindNe

theorem mapSpan_eq (alike : token.Alike view other) :
    token.mapSpan view.left = other.mapSpan view.right := by
  unfold mapSpan
  rw [alike.kind, alike.text, alike.span]

theorem spanTo {last otherLast : Token} (alike : token.Alike view other)
    (lastAlike : last.Alike view otherLast) :
    view.left (token.spanTo last) = view.right (other.spanTo otherLast) :=
  view.join alike.span lastAlike.span

/-- Blaming tokens that look alike gives errors that look alike. -/
theorem blaming (alike : token.Alike view other) {cause : Token → SyntaxError.Cause}
    (causes : ∀ change found, (cause found).mapSpans change = cause (found.mapSpan change)) :
    (SyntaxError.blaming token cause).Alike view (.blaming other cause) := by
  unfold SyntaxError.Alike SyntaxError.blaming SyntaxError.mapSpans
  rw [causes view.left token, causes view.right other, alike.span, alike.mapSpan_eq]

end Token.Alike

/-- Errors that blame no token look alike if their spans do. -/
theorem SyntaxError.Alike.of_span {span other : Span} {cause : Cause}
    (spans : view.left span = view.right other) (fixed : ∀ change, cause.mapSpans change = cause) :
    SyntaxError.Alike view ⟨span, cause⟩ ⟨other, cause⟩ := by
  unfold Alike mapSpans
  rw [fixed, fixed, spans]

theorem Expr.Alike.span {value other : Expr} (alike : value.Alike view other) :
    view.left value.span = view.right other.span := by
  rw [← Expr.span_mapSpans view.left value, ← Expr.span_mapSpans view.right other, alike]

theorem Expr.Alike.binary {left right otherLeft otherRight : Expr} (op : BinaryOp)
    (leftAlike : left.Alike view otherLeft) (rightAlike : right.Alike view otherRight) :
    (Expr.binary (left.span.join right.span) op left right).Alike view
      (.binary (otherLeft.span.join otherRight.span) op otherLeft otherRight) := by
  unfold Alike mapSpans
  rw [view.join leftAlike.span rightAlike.span, leftAlike, rightAlike]

theorem Expr.Alike.factorial {operand other : Expr} {mark otherMark : Token}
    (alike : operand.Alike view other) (markAlike : mark.Alike view otherMark) :
    (Expr.unary (operand.span.join mark.span) .factorial operand).Alike view
      (.unary (other.span.join otherMark.span) .factorial other) := by
  unfold Alike mapSpans
  rw [view.join alike.span markAlike.span, alike]

end

/-! ## Readers -/

open GraphCalc.Expr Phrase

theorem Phrase.length_lt_of_plain {tokens rest : List Token} {α : Type} {value : α}
    {reading : Except SyntaxError (Phrase tokens α)} (read : plain reading = .ok (value, rest)) :
    rest.length < tokens.length := by
  cases reading with
  | error failure => cases read
  | ok phrase =>
      cases read
      exact phrase.shorter

/-- Whether a reader does not look at places: tokens alike, if fewer than the
bound, are read alike.  The bound is what the induction over the readers, which
call each other on fewer tokens, is on. -/
def Blind (view : SpanView) (bound : Nat) {α : Type} (same : α → α → Prop)
    (reader : Token → List Token → Except SyntaxError (α × List Token)) : Prop :=
  ∀ ⦃stop otherStop : Token⦄ ⦃tokens others : List Token⦄, stop.Alike view otherStop →
    Token.AllAlike view tokens others → tokens.length < bound →
    Agree view (Taken view same) (reader stop tokens) (reader otherStop others)

section

variable {view : SpanView} {bound : Nat} {stop otherStop : Token} {tokens others : List Token}

/-- Tokens alike both start with a token of a kind, or neither does. -/
theorem pass?_cases (kind : Kind) (alike : Token.AllAlike view tokens others) :
    (pass? kind tokens = none ∧ pass? kind others = none) ∨
    ∃ token rest other otherRest, tokens = token :: rest ∧
      pass? kind tokens = some (token, rest) ∧ pass? kind others = some (other, otherRest) ∧
      token.Alike view other ∧ Token.AllAlike view rest otherRest := by
  cases alike with
  | nil => exact .inl ⟨rfl, rfl⟩
  | @cons token other rest otherRest tokenAlike restAlike =>
      by_cases kindEq : token.kind = kind
      · exact .inr ⟨token, rest, other, otherRest, rfl, pass?_cons_of_eq rest kindEq,
          pass?_cons_of_eq otherRest (tokenAlike.kind.trans kindEq), tokenAlike, restAlike⟩
      · exact .inl ⟨pass?_cons_of_ne rest kindEq,
          pass?_cons_of_ne otherRest (tokenAlike.kind_ne kindEq)⟩

theorem agree_take (kind : Kind) (stops : stop.Alike view otherStop)
    (alike : Token.AllAlike view tokens others) :
    Agree view (Taken view (Token.Alike view)) (take kind stop tokens)
      (take kind otherStop others) := by
  cases alike with
  | nil =>
      rw [take_nil, take_nil]
      exact .error (stops.blaming fun _ _ => rfl)
  | @cons token other rest otherRest tokenAlike restAlike =>
      by_cases kindEq : token.kind = kind
      · rw [take_cons_of_eq stop rest kindEq,
          take_cons_of_eq otherStop otherRest (tokenAlike.kind.trans kindEq)]
        exact .ok ⟨tokenAlike, restAlike⟩
      · rw [take_cons_of_ne stop rest kindEq,
          take_cons_of_ne otherStop otherRest (tokenAlike.kind_ne kindEq)]
        exact .error (tokenAlike.blaming fun _ _ => rfl)

theorem alike_headD (stops : stop.Alike view otherStop)
    (alike : Token.AllAlike view tokens others) :
    (tokens.headD stop).Alike view (others.headD otherStop) := by
  cases alike with
  | nil => exact stops
  | cons tokenAlike _ => exact tokenAlike

/-! ### Factors and chains -/

theorem taken_takeMarks {operand other : Expr} (operandAlike : operand.Alike view other)
    (alike : Token.AllAlike view tokens others) :
    Taken view (Expr.Alike view) (takeMarks operand tokens) (takeMarks other others) := by
  induction alike generalizing operand other with
  | nil =>
      rw [takeMarks_nil, takeMarks_nil]
      exact ⟨operandAlike, .nil⟩
  | @cons token otherToken rest otherRest tokenAlike restAlike ih =>
      by_cases mark : token.kind = .bang
      · rw [takeMarks_of_eq operand rest mark,
          takeMarks_of_eq other otherRest (tokenAlike.kind.trans mark)]
        exact ih (operandAlike.factorial tokenAlike)
      · rw [takeMarks_of_ne operand rest mark,
          takeMarks_of_ne other otherRest (tokenAlike.kind_ne mark)]
        exact ⟨operandAlike, .cons tokenAlike restAlike⟩

theorem blind_product_operand (primaries : Blind view bound (Expr.Alike view) takePrimary) :
    Blind view bound (Expr.Alike view) (takeOperand · .product) := by
  intro stop otherStop tokens others stops alike short
  simp only [takeOperand_product, takeFactor_eq]
  refine (primaries stops alike short).bind ?_
  intro phrase otherPhrase _ taken
  exact .ok (taken_takeMarks taken.1 taken.2)

theorem blind_sum_operand (products : Blind view bound (Expr.Alike view) (takeLevel · .product)) :
    Blind view bound (Expr.Alike view) (takeOperand · .sum) := by
  intro stop otherStop tokens others stops alike short
  simp only [takeOperand_sum]
  exact products stops alike short

/-- The loop over the signs of a level does not look at places. -/
theorem agree_takeTail {level : Level}
    (operands : Blind view bound (Expr.Alike view) (takeOperand · level))
    (stops : stop.Alike view otherStop) {left otherLeft : Expr}
    (leftAlike : left.Alike view otherLeft) {tokens others : List Token}
    (alike : Token.AllAlike view tokens others) (short : tokens.length < bound) :
    Agree view (Taken view (Expr.Alike view)) (takeTail stop level left tokens)
      (takeTail otherStop level otherLeft others) := by
  cases alike with
  | nil =>
      rw [takeTail_nil, takeTail_nil]
      exact .ok ⟨leftAlike, .nil⟩
  | @cons token other rest otherRest tokenAlike restAlike =>
      cases sign : token.kind.operator? level with
      | none =>
          have otherSign : other.kind.operator? level = none := by
            rw [tokenAlike.kind, sign]
          rw [takeTail_of_none left rest sign, takeTail_of_none otherLeft otherRest otherSign]
          exact .ok ⟨leftAlike, .cons tokenAlike restAlike⟩
      | some op =>
          have otherSign : other.kind.operator? level = some op := by
            rw [tokenAlike.kind, sign]
          have restShort : rest.length < bound := Nat.lt_of_succ_lt short
          rw [takeTail_of_some left rest sign, takeTail_of_some otherLeft otherRest otherSign]
          refine (operands stops restAlike restShort).bind ?_
          rintro ⟨right, after⟩ ⟨otherRight, otherAfter⟩ read ⟨rightAlike, afterAlike⟩
          have shorter : after.length < rest.length := length_lt_of_plain read
          exact agree_takeTail operands stops (leftAlike.binary op rightAlike) afterAlike
            (Nat.lt_trans shorter restShort)
termination_by tokens.length
decreasing_by
  subst_vars
  exact Nat.lt_succ_of_lt shorter

theorem blind_level {level : Level}
    (operands : Blind view bound (Expr.Alike view) (takeOperand · level)) :
    Blind view bound (Expr.Alike view) (takeLevel · level) := by
  intro stop otherStop tokens others stops alike short
  simp only [takeLevel_eq]
  refine (operands stops alike short).bind ?_
  rintro ⟨first, rest⟩ ⟨otherFirst, otherRest⟩ read ⟨firstAlike, restAlike⟩
  have shorter : rest.length < tokens.length := length_lt_of_plain read
  exact agree_takeTail operands stops firstAlike restAlike (Nat.lt_trans shorter short)

/-! ### Items and clauses -/

/-- Items, and the tokens that close them, alike. -/
def ItemsAlike (view : SpanView) (items others : List Expr × Token) : Prop :=
  Expr.mapAllSpans view.left items.1 = Expr.mapAllSpans view.right others.1 ∧
    items.2.Alike view others.2

/-- Clauses, the default values behind them and the closing tokens, alike. -/
def ClausesAlike (view : SpanView) (clauses others : List (Clause Expr) × Expr × Token) : Prop :=
  Clause.mapAllSpans view.left clauses.1 = Clause.mapAllSpans view.right others.1 ∧
    clauses.2.1.Alike view others.2.1 ∧ clauses.2.2.Alike view others.2.2

theorem agree_takeItemsSome (sums : Blind view bound (Expr.Alike view) (takeLevel · .sum))
    (close : Kind) (stops : stop.Alike view otherStop) {tokens others : List Token}
    (alike : Token.AllAlike view tokens others) (short : tokens.length < bound) :
    Agree view (Taken view (ItemsAlike view)) (takeItemsSome stop close tokens)
      (takeItemsSome otherStop close others) := by
  rw [takeItemsSome_eq, takeItemsSome_eq]
  refine (sums stops alike short).bind ?_
  rintro ⟨first, rest⟩ ⟨otherFirst, otherRest⟩ read ⟨firstAlike, restAlike⟩
  have shorter : rest.length < tokens.length := length_lt_of_plain read
  rcases pass?_cases .comma restAlike with ⟨passed, otherPassed⟩ |
    ⟨comma, more, otherComma, otherMore, rfl, passed, otherPassed, _, moreAlike⟩
  · simp only [passed, otherPassed]
    refine (agree_take close stops restAlike).bind ?_
    rintro ⟨closing, after⟩ ⟨otherClosing, otherAfter⟩ _ ⟨closingAlike, afterAlike⟩
    refine .ok ⟨⟨?_, closingAlike⟩, afterAlike⟩
    simp only [mapAllSpans]
    rw [firstAlike]
  · simp only [passed, otherPassed]
    have moreShorter : more.length < tokens.length := Nat.lt_of_succ_lt shorter
    refine (agree_takeItemsSome sums close stops moreAlike
      (Nat.lt_trans moreShorter short)).bind ?_
    rintro ⟨items, after⟩ ⟨otherItems, otherAfter⟩ _ ⟨itemsAlike, afterAlike⟩
    refine .ok ⟨⟨?_, itemsAlike.2⟩, afterAlike⟩
    simp only [mapAllSpans]
    rw [firstAlike, itemsAlike.1]
termination_by tokens.length

theorem agree_takeItems (sums : Blind view bound (Expr.Alike view) (takeLevel · .sum))
    (close : Kind) (stops : stop.Alike view otherStop)
    (alike : Token.AllAlike view tokens others) (short : tokens.length < bound) :
    Agree view (Taken view (ItemsAlike view)) (takeItems stop close tokens)
      (takeItems otherStop close others) := by
  rw [takeItems_eq, takeItems_eq]
  rcases pass?_cases close alike with ⟨passed, otherPassed⟩ |
    ⟨closing, after, otherClosing, otherAfter, rfl, passed, otherPassed, closingAlike, afterAlike⟩
  · simp only [passed, otherPassed]
    exact agree_takeItemsSome sums close stops alike short
  · simp only [passed, otherPassed]
    exact .ok ⟨⟨rfl, closingAlike⟩, afterAlike⟩

theorem agree_takeClauses (sums : Blind view bound (Expr.Alike view) (takeLevel · .sum))
    (stops : stop.Alike view otherStop) {tokens others : List Token}
    (alike : Token.AllAlike view tokens others) (short : tokens.length < bound) :
    Agree view (Taken view (ClausesAlike view)) (takeClauses stop tokens)
      (takeClauses otherStop others) := by
  rw [takeClauses_eq, takeClauses_eq]
  refine (sums stops alike short).bind ?_
  rintro ⟨left, rest⟩ ⟨otherLeft, otherRest⟩ read ⟨leftAlike, restAlike⟩
  have leftShorter : rest.length < tokens.length := length_lt_of_plain read
  cases restAlike with
  | nil => exact .error (stops.blaming fun _ _ => rfl)
  | @cons token other behind otherBehind tokenAlike behindAlike =>
      simp only [tokenAlike.kind]
      cases token.kind.comparison? with
      | none =>
          refine (agree_take .rbrace stops (.cons tokenAlike behindAlike)).bind ?_
          rintro ⟨closing, after⟩ ⟨otherClosing, otherAfter⟩ _ ⟨closingAlike, afterAlike⟩
          exact .ok ⟨⟨rfl, leftAlike, closingAlike⟩, afterAlike⟩
      | some comparison =>
          have behindShorter : behind.length < tokens.length := Nat.lt_of_succ_lt leftShorter
          refine (sums stops behindAlike (Nat.lt_trans behindShorter short)).bind ?_
          rintro ⟨right, atColon⟩ ⟨otherRight, otherAtColon⟩ rightRead ⟨rightAlike, colonAlike⟩
          have rightShorter : atColon.length < behind.length := length_lt_of_plain rightRead
          refine (agree_take .colon stops colonAlike).bind ?_
          rintro ⟨colon, atResult⟩ ⟨otherColon, otherAtResult⟩ colonRead ⟨_, resultsAlike⟩
          have colonShorter : atResult.length < atColon.length := length_lt_of_plain colonRead
          have atResultShort : atResult.length < bound := by omega
          refine (sums stops resultsAlike atResultShort).bind ?_
          rintro ⟨result, atComma⟩ ⟨otherResult, otherAtComma⟩ resultRead ⟨resultAlike, commaAlike⟩
          have resultShorter : atComma.length < atResult.length := length_lt_of_plain resultRead
          rcases pass?_cases .comma commaAlike with ⟨passed, otherPassed⟩ |
            ⟨comma, more, otherComma, otherMore, rfl, passed, otherPassed, _, moreAlike⟩
          · simp only [passed, otherPassed]
            exact .error ((alike_headD stops commaAlike).blaming fun _ _ => rfl)
          · simp only [passed, otherPassed]
            have moreShorter : more.length < tokens.length := by
              simp only [List.length_cons] at resultShorter
              omega
            refine (agree_takeClauses sums stops moreAlike (Nat.lt_trans moreShorter short)).bind ?_
            rintro ⟨clauses, after⟩ ⟨otherClauses, otherAfter⟩ _ ⟨clausesAlike, afterAlike⟩
            refine .ok ⟨⟨?_, clausesAlike.2⟩, afterAlike⟩
            simp only [Clause.mapAllSpans, Clause.mapSpans]
            rw [leftAlike, rightAlike, resultAlike, clausesAlike.1]
termination_by tokens.length

/-! ### Primary expressions -/

/-- One round through the readers raises the bound by one. -/
theorem blind_primary_succ (sums : Blind view bound (Expr.Alike view) (takeLevel · .sum)) :
    Blind view (bound + 1) (Expr.Alike view) takePrimary := by
  intro stop otherStop tokens others stops alike short
  cases alike with
  | nil =>
      rw [takePrimary_nil, takePrimary_nil]
      exact .error (stops.blaming fun _ _ => rfl)
  | @cons token other rest otherRest tokenAlike restAlike =>
      have restShort : rest.length < bound := Nat.lt_of_succ_lt_succ short
      rw [takePrimary_cons, takePrimary_cons, tokenAlike.kind, tokenAlike.text]
      cases token.kind with
      | number =>
          refine .ok ⟨?_, restAlike⟩
          simp only [Expr.Alike, mapSpans]
          rw [tokenAlike.span]
      | minus =>
          rcases pass?_cases .number restAlike with ⟨passed, otherPassed⟩ |
            ⟨digits, after, otherDigits, otherAfter, _, passed, otherPassed, digitsAlike,
              afterAlike⟩
          · simp only [passed, otherPassed]
            refine .error ?_
            simp only [SyntaxError.Alike, SyntaxError.mapSpans, SyntaxError.Cause.mapSpans]
            rw [tokenAlike.span, (alike_headD stops restAlike).mapSpan_eq]
          · simp only [passed, otherPassed]
            refine .ok ⟨?_, afterAlike⟩
            simp only [Expr.Alike, mapSpans]
            rw [tokenAlike.spanTo digitsAlike, digitsAlike.text]
      | ident =>
          rcases pass?_cases .lparen restAlike with ⟨passed, otherPassed⟩ |
            ⟨opening, inner, otherOpening, otherInner, rfl, passed, otherPassed, _, innerAlike⟩
          · simp only [passed, otherPassed]
            refine .ok ⟨?_, restAlike⟩
            simp only [Expr.Alike, mapSpans]
            rw [tokenAlike.span]
          · simp only [passed, otherPassed]
            refine (agree_takeItems sums .rparen stops innerAlike
              (Nat.lt_of_succ_lt restShort)).bind ?_
            rintro ⟨items, after⟩ ⟨otherItems, otherAfter⟩ _ ⟨itemsAlike, afterAlike⟩
            refine .ok ⟨?_, afterAlike⟩
            simp only [Expr.Alike, mapSpans]
            rw [tokenAlike.spanTo itemsAlike.2, itemsAlike.1]
      | macroName =>
          refine (agree_take .lparen stops restAlike).bind ?_
          rintro ⟨opening, inner⟩ ⟨otherOpening, otherInner⟩ read ⟨_, innerAlike⟩
          have shorter : inner.length < rest.length := length_lt_of_plain read
          refine (agree_takeItems sums .rparen stops innerAlike
            (Nat.lt_trans shorter restShort)).bind ?_
          rintro ⟨items, after⟩ ⟨otherItems, otherAfter⟩ _ ⟨itemsAlike, afterAlike⟩
          refine .ok ⟨?_, afterAlike⟩
          simp only [Expr.Alike, mapSpans]
          rw [tokenAlike.spanTo itemsAlike.2, itemsAlike.1]
      | lparen =>
          refine (sums stops restAlike restShort).bind ?_
          rintro ⟨inner, closing⟩ ⟨otherInner, otherClosing⟩ _ ⟨innerAlike, closingAlike⟩
          refine (agree_take .rparen stops closingAlike).bind ?_
          rintro ⟨close, after⟩ ⟨otherClose, otherAfter⟩ _ ⟨_, afterAlike⟩
          exact .ok ⟨innerAlike, afterAlike⟩
      | lbrack =>
          refine (agree_takeItems sums .rbrack stops restAlike restShort).bind ?_
          rintro ⟨items, after⟩ ⟨otherItems, otherAfter⟩ _ ⟨itemsAlike, afterAlike⟩
          refine .ok ⟨?_, afterAlike⟩
          simp only [Expr.Alike, mapSpans]
          rw [tokenAlike.spanTo itemsAlike.2, itemsAlike.1]
      | lbrace =>
          refine (agree_takeClauses sums stops restAlike restShort).bind ?_
          rintro ⟨⟨clauses, otherwise, close⟩, after⟩
            ⟨⟨otherClauses, otherOtherwise, otherClose⟩, otherAfter⟩ _
            ⟨⟨clausesAlike, otherwiseAlike, closeAlike⟩, afterAlike⟩
          have spanAlike := tokenAlike.spanTo closeAlike
          cases clauses with
          | nil =>
              cases otherClauses with
              | nil =>
                  exact .error (.of_span spanAlike fun _ => rfl)
              | cons first others => cases clausesAlike
          | cons first others =>
              cases otherClauses with
              | nil => cases clausesAlike
              | cons otherFirst otherOthers =>
                  rcases List.cons.inj clausesAlike with ⟨firstAlike, othersAlike⟩
                  refine .ok ⟨?_, afterAlike⟩
                  simp only [Expr.Alike, mapSpans]
                  rw [spanAlike, firstAlike, othersAlike, otherwiseAlike]
      | _ => exact .error (tokenAlike.blaming fun _ _ => rfl)

/-- Sums are read without looking at places. -/
theorem blind_sum (view : SpanView) (bound : Nat) :
    Blind view bound (Expr.Alike view) (takeLevel · .sum) := by
  induction bound with
  | zero =>
      intro _ _ _ _ _ _ short
      exact absurd short (Nat.not_lt_zero _)
  | succ bound sums =>
      -- Only a primary expression needs fewer tokens; the other readers start on the same ones.
      have primaries := blind_primary_succ sums
      have products := blind_level (blind_product_operand primaries)
      exact blind_level (blind_sum_operand products)

/-! ### Definitions and statements -/

theorem agree_takeType (stops : stop.Alike view otherStop)
    (alike : Token.AllAlike view tokens others) :
    Agree view (Taken view fun read other => read.1.Alike view other.1 ∧ read.2 = other.2)
      (ValueType.take stop tokens) (ValueType.take otherStop others) := by
  rw [ValueType.take_eq, ValueType.take_eq]
  refine (agree_take .ident stops alike).bind ?_
  rintro ⟨name, rest⟩ ⟨otherName, otherRest⟩ _ ⟨nameAlike, restAlike⟩
  have textEq : otherName.text = name.text := nameAlike.text
  simp only [textEq]
  cases ValueType.ofName? name.text with
  | none =>
      exact .error (.of_span nameAlike.span fun _ => rfl)
  | some type => exact .ok ⟨⟨nameAlike, rfl⟩, restAlike⟩

theorem agree_takeParam (stops : stop.Alike view otherStop)
    (alike : Token.AllAlike view tokens others) :
    Agree view
      (Taken view fun param other => param.mapSpans view.left = other.mapSpans view.right)
      (Param.take stop tokens) (Param.take otherStop others) := by
  rw [Param.take_eq, Param.take_eq]
  refine (agree_take .ident stops alike).bind ?_
  rintro ⟨name, atColon⟩ ⟨otherName, otherAtColon⟩ _ ⟨nameAlike, colonAlike⟩
  have textEq : otherName.text = name.text := nameAlike.text
  simp only [textEq]
  split
  · exact .error (.of_span nameAlike.span fun _ => rfl)
  · refine (agree_take .colon stops colonAlike).bind ?_
    rintro ⟨colon, atType⟩ ⟨otherColon, otherAtType⟩ _ ⟨_, typeAlike⟩
    refine (agree_takeType stops typeAlike).bind ?_
    rintro ⟨⟨typeName, type⟩, rest⟩ ⟨⟨otherTypeName, _⟩, otherRest⟩ _
      ⟨⟨typeNameAlike, rfl⟩, restAlike⟩
    refine .ok ⟨?_, restAlike⟩
    simp only [Param.mapSpans]
    rw [nameAlike.spanTo typeNameAlike]

/-- Lists of parameters alike. -/
def ParamsAlike (view : SpanView) (params others : List Param) : Prop :=
  params.map (Param.mapSpans view.left) = others.map (Param.mapSpans view.right)

theorem agree_takeSome (stops : stop.Alike view otherStop) {tokens others : List Token}
    (alike : Token.AllAlike view tokens others) :
    Agree view (Taken view (ParamsAlike view)) (Param.takeSome stop tokens)
      (Param.takeSome otherStop others) := by
  rw [Param.takeSome_eq, Param.takeSome_eq]
  refine (agree_takeParam stops alike).bind ?_
  rintro ⟨first, rest⟩ ⟨otherFirst, otherRest⟩ read ⟨firstAlike, restAlike⟩
  have shorter : rest.length < tokens.length := length_lt_of_plain read
  rcases pass?_cases .comma restAlike with ⟨passed, otherPassed⟩ |
    ⟨comma, more, otherComma, otherMore, rfl, passed, otherPassed, _, moreAlike⟩
  · simp only [passed, otherPassed]
    refine (agree_take .rparen stops restAlike).bind ?_
    rintro ⟨closing, after⟩ ⟨otherClosing, otherAfter⟩ _ ⟨_, afterAlike⟩
    refine .ok ⟨?_, afterAlike⟩
    simp only [ParamsAlike, List.map_cons, List.map_nil]
    rw [firstAlike]
  · simp only [passed, otherPassed]
    have moreShorter : more.length < tokens.length := Nat.lt_of_succ_lt shorter
    refine (agree_takeSome stops moreAlike).bind ?_
    rintro ⟨params, after⟩ ⟨otherParams, otherAfter⟩ _ ⟨paramsAlike, afterAlike⟩
    refine .ok ⟨?_, afterAlike⟩
    simp only [ParamsAlike, List.map_cons]
    rw [firstAlike, paramsAlike]
termination_by tokens.length

theorem agree_takeAll (stops : stop.Alike view otherStop)
    (alike : Token.AllAlike view tokens others) :
    Agree view (Taken view (ParamsAlike view)) (Param.takeAll stop tokens)
      (Param.takeAll otherStop others) := by
  rw [Param.takeAll_eq, Param.takeAll_eq]
  rcases pass?_cases .rparen alike with ⟨passed, otherPassed⟩ |
    ⟨closing, after, otherClosing, otherAfter, _, passed, otherPassed, _, afterAlike⟩
  · simp only [passed, otherPassed]
    exact agree_takeSome stops alike
  · simp only [passed, otherPassed]
    exact .ok ⟨rfl, afterAlike⟩

theorem agree_readReturns (stops : stop.Alike view otherStop)
    (alike : Token.AllAlike view tokens others) :
    Agree view (Taken view Eq) (Stmt.readReturns stop tokens)
      (Stmt.readReturns otherStop others) := by
  rw [Stmt.readReturns_eq, Stmt.readReturns_eq]
  rcases pass?_cases .colon alike with ⟨passed, otherPassed⟩ |
    ⟨colon, atType, otherColon, otherAtType, _, passed, otherPassed, _, typeAlike⟩
  · simp only [passed, otherPassed]
    exact .ok ⟨rfl, alike⟩
  · simp only [passed, otherPassed]
    refine (agree_takeType stops typeAlike).bind ?_
    rintro ⟨⟨typeName, type⟩, rest⟩ ⟨⟨otherTypeName, _⟩, otherRest⟩ _ ⟨⟨_, rfl⟩, restAlike⟩
    exact .ok ⟨rfl, restAlike⟩

theorem agree_expectEnd (alike : Token.AllAlike view tokens others) :
    Agree view Eq (Stmt.expectEnd tokens) (Stmt.expectEnd others) := by
  cases alike with
  | nil => exact .ok rfl
  | cons tokenAlike _ => exact .error (tokenAlike.blaming fun _ _ => rfl)

/-- Whether statements differ in spans only, and these look alike. -/
def Stmt.Alike (view : SpanView) (stmt other : Stmt) : Prop :=
  stmt.mapSpans view.left = other.mapSpans view.right

theorem agree_readDefinition {name otherName : Token} (stops : stop.Alike view otherStop)
    (nameAlike : name.Alike view otherName)
    (alike : Token.AllAlike view tokens others) :
    Agree view (Stmt.Alike view) (Stmt.readDefinition stop name tokens)
      (Stmt.readDefinition otherStop otherName others) := by
  rw [Stmt.readDefinition_eq, Stmt.readDefinition_eq, nameAlike.text]
  split
  · exact .error (.of_span nameAlike.span fun _ => rfl)
  · refine (agree_take .lparen stops alike).bind ?_
    rintro ⟨opening, atParams⟩ ⟨otherOpening, otherAtParams⟩ _ ⟨_, atParamsAlike⟩
    refine (agree_takeAll stops atParamsAlike).bind ?_
    rintro ⟨params, atReturns⟩ ⟨otherParams, otherAtReturns⟩ _ ⟨paramsAlike, atReturnsAlike⟩
    refine (agree_readReturns stops atReturnsAlike).bind ?_
    rintro ⟨returns, atSign⟩ ⟨_, otherAtSign⟩ _ ⟨rfl, atSignAlike⟩
    refine (agree_take .assign stops atSignAlike).bind ?_
    rintro ⟨sign, atBody⟩ ⟨otherSign, otherAtBody⟩ _ ⟨_, atBodyAlike⟩
    refine (blind_sum view _ stops atBodyAlike (Nat.lt_succ_self _)).bind ?_
    rintro ⟨body, rest⟩ ⟨otherBody, otherRest⟩ _ ⟨bodyAlike, restAlike⟩
    refine (agree_expectEnd restAlike).bind ?_
    intro _ _ _ _
    refine .ok ?_
    simp only [Stmt.Alike, Stmt.mapSpans]
    rw [view.join nameAlike.span bodyAlike.span, paramsAlike, bodyAlike]

theorem startsDefinition_eq (alike : Token.AllAlike view tokens others) :
    Stmt.startsDefinition others = Stmt.startsDefinition tokens := by
  cases alike with
  | nil => rfl
  | cons nameAlike alike =>
      cases alike with
      | nil => rfl
      | cons openingAlike alike =>
          cases alike with
          | nil => rfl
          | cons thirdAlike alike =>
              cases alike with
              | nil => rfl
              | cons fourthAlike _ =>
                  simp only [Stmt.startsDefinition]
                  rw [nameAlike.kind, openingAlike.kind, thirdAlike.kind, fourthAlike.kind]

/-- Statements are read without looking at places. -/
theorem agree_readStmt {first otherFirst : Token} (stops : stop.Alike view otherStop)
    (firstAlike : first.Alike view otherFirst)
    (alike : Token.AllAlike view tokens others) :
    Agree view (Stmt.Alike view) (Stmt.read stop first tokens)
      (Stmt.read otherStop otherFirst others) := by
  have allAlike := List.Forall₂.cons firstAlike alike
  rw [Stmt.read_eq, Stmt.read_eq, startsDefinition_eq allAlike]
  split
  · exact agree_readDefinition stops firstAlike alike
  · refine (blind_sum view _ stops allAlike (Nat.lt_succ_self _)).bind ?_
    rintro ⟨value, rest⟩ ⟨otherValue, otherRest⟩ _ ⟨valueAlike, restAlike⟩
    refine (agree_expectEnd restAlike).bind ?_
    intro _ _ _ _
    refine .ok ?_
    simp only [Stmt.Alike, Stmt.mapSpans]
    rw [view.join firstAlike.span valueAlike.span, valueAlike]

/-! ### Lines and texts -/

/-- Lines with tokens alike, ended by tokens alike. -/
structure Line.Alike (view : SpanView) (line other : Line) : Prop where
  tokens : Token.AllAlike view line.tokens other.tokens
  stop : line.stop.Alike view other.stop

theorem Line.alike_split (alike : Token.AllAlike view tokens others) :
    List.Forall₂ (Line.Alike view) (split tokens) (split others) := by
  induction alike with
  | nil => exact .nil
  | @cons token other rest otherRest tokenAlike restAlike ih =>
      simp only [split]
      rw [tokenAlike.kind]
      split
      · exact .cons ⟨.nil, tokenAlike⟩ .nil
      · exact .cons ⟨.nil, tokenAlike⟩ ih
      · generalize Line.split rest = lines at ih ⊢
        generalize Line.split otherRest = otherLines at ih ⊢
        cases ih with
        | nil => exact .nil
        | cons lineAlike linesAlike =>
            exact .cons ⟨.cons tokenAlike lineAlike.tokens, lineAlike.stop⟩ linesAlike

/-- Lines alike have outcomes that agree. -/
theorem Line.agree_outcomes {lines otherLines : List Line}
    (alike : List.Forall₂ (Line.Alike view) lines otherLines) :
    List.Forall₂ (Agree view (Stmt.Alike view)) (lines.filterMap Line.read?)
      (otherLines.filterMap Line.read?) := by
  induction alike with
  | nil => exact .nil
  | @cons line other lines otherLines lineAlike _ ih =>
      rcases line with ⟨tokens, stop⟩
      rcases other with ⟨others, otherStop⟩
      rcases lineAlike with ⟨tokensAlike, stopAlike⟩
      cases tokensAlike with
      | nil => exact ih
      | cons firstAlike restAlike => exact .cons (agree_readStmt stopAlike firstAlike restAlike) ih

/-- Whether two readings of texts differ in places only, and these look
alike. -/
structure Parsed.Alike (view : SpanView) (parsed other : Parsed) : Prop where
  program : parsed.program.map (Stmt.mapSpans view.left) =
    other.program.map (Stmt.mapSpans view.right)
  errors : parsed.errors.map (SyntaxError.mapSpans view.left) =
    other.errors.map (SyntaxError.mapSpans view.right)

theorem Parsed.alike_ofOutcomes {outcomes otherOutcomes : List (Except SyntaxError Stmt)}
    (agree : List.Forall₂ (Agree view (Stmt.Alike view)) outcomes otherOutcomes) :
    (ofOutcomes outcomes).Alike view (ofOutcomes otherOutcomes) := by
  induction agree with
  | nil => exact ⟨rfl, rfl⟩
  | cons outcomeAgree _ ih =>
      cases outcomeAgree with
      | ok alike => exact ⟨congrArg₂ List.cons alike ih.program, ih.errors⟩
      | error alike => exact ⟨ih.program, congrArg₂ List.cons alike ih.errors⟩

/-- Tokens alike are read as programs and errors that look alike. -/
theorem Parsed.alike_ofTokens (alike : Token.AllAlike view tokens others) :
    (ofTokens tokens).Alike view (ofTokens others) :=
  alike_ofOutcomes (Line.agree_outcomes (Line.alike_split alike))

end

end GraphCalc
