import GraphCalc.Proofs.Syntax.Acceptance
import GraphCalc.Proofs.Syntax.Places
import GraphCalc.Proofs.Token.Lines

/-!
# Texts are read line by line

A text that is cut by a line end outside brackets is read as its two parts are:
first comes what is read from the upper part, then what is read from the lower
part, moved down.  So nothing on one line, and no error there, has a part in
what is read from another.
-/

namespace GraphCalc

/-! ## Reading further down -/

/-- Where a span of a text is when a text that ends a line is put in front. -/
def Span.below (front : List Char) (span : Span) : Span :=
  ⟨span.file, span.start.below front, span.stop.below front⟩

/-- Spans of a text are compared with those of the same text further down. -/
def SpanView.below (front : List Char) : SpanView where
  left := Span.below front
  right := id
  join := by
    intro first last _ _ firstEq lastEq
    rw [id] at firstEq lastEq ⊢
    rw [← firstEq, ← lastEq]
    rfl

theorem Token.alike_below (front : List Char) (token : Token) :
    token.Alike (.below front) (token.below front) where
  kind := rfl
  text := rfl
  span := by
    have stopEq := Position.right_below front token.start token.width
    exact congrArg (Span.mk token.file (token.start.below front)) stopEq.symm

theorem Token.allAlike_below (front : List Char) (tokens : List Token) :
    Token.AllAlike (.below front) tokens (tokens.map (Token.below front)) := by
  induction tokens with
  | nil => exact .nil
  | cons token tokens ih => exact .cons (token.alike_below front) ih

namespace Parsed

/-- A reading with everything moved down. -/
def below (front : List Char) (parsed : Parsed) : Parsed where
  program := parsed.program.map (Stmt.mapSpans (Span.below front))
  errors := parsed.errors.map (SyntaxError.mapSpans (Span.below front))

/-- Tokens further down are read as before, only further down. -/
theorem ofTokens_below (front : List Char) (tokens : List Token) :
    ofTokens (tokens.map (Token.below front)) = (ofTokens tokens).below front := by
  rcases alike_ofTokens (Token.allAlike_below front tokens) with ⟨programEq, errorsEq⟩
  have sameProgram := List.map_id'' Stmt.mapSpans_id
    (ofTokens (tokens.map (Token.below front))).program
  have sameErrors := List.map_id'' SyntaxError.mapSpans_id
    (ofTokens (tokens.map (Token.below front))).errors
  exact congrArg₂ Parsed.mk (sameProgram.symm.trans programEq.symm)
    (sameErrors.symm.trans errorsEq.symm)

end Parsed

/-! ## Cutting at a line end -/

theorem Line.split_concat_ne_nil {lineEnd : Token} (isLineEnd : lineEnd.kind = .newline)
    (tokens : List Token) : split (tokens ++ [lineEnd]) ≠ [] := by
  induction tokens with
  | nil =>
      rw [List.nil_append, split_cons_of_newline [] isLineEnd]
      exact List.cons_ne_nil _ _
  | cons token tokens ih =>
      rw [List.cons_append]
      by_cases atEnd : token.kind = .eof
      · rw [split_cons_of_eof _ atEnd]
        exact List.cons_ne_nil _ _
      · by_cases atLineEnd : token.kind = .newline
        · rw [split_cons_of_newline _ atLineEnd]
          exact List.cons_ne_nil _ _
        · rw [split_cons_of_ne _ atEnd atLineEnd]
          intro isEmpty
          exact ih (List.modifyHead_eq_nil_iff.1 isEmpty)

/-- Lines before a line end and lines behind it make up all lines. -/
theorem Line.split_append_lineEnd {tokens : List Token} {lineEnd : Token}
    (noEnd : ∀ token ∈ tokens, token.kind ≠ .eof) (isLineEnd : lineEnd.kind = .newline)
    (rest : List Token) :
    split (tokens ++ lineEnd :: rest) = split (tokens ++ [lineEnd]) ++ split rest := by
  induction tokens with
  | nil =>
      simp only [List.nil_append, split_cons_of_newline _ isLineEnd]
      rfl
  | cons token tokens ih =>
      rw [List.forall_mem_cons] at noEnd
      have lines := ih noEnd.2
      by_cases atLineEnd : token.kind = .newline
      · simp only [List.cons_append, split_cons_of_newline _ atLineEnd, lines]
      · simp only [List.cons_append, split_cons_of_ne _ noEnd.1 atLineEnd, lines]
        cases front : split (tokens ++ [lineEnd]) with
        | nil => exact absurd front (split_concat_ne_nil isLineEnd tokens)
        | cons line lines => rfl

namespace Parsed

/-- What is read from one text, and then from another. -/
def append (upper lower : Parsed) : Parsed where
  program := upper.program ++ lower.program
  errors := upper.errors ++ lower.errors

theorem ofOutcomes_append (outcomes others : List (Except SyntaxError Stmt)) :
    ofOutcomes (outcomes ++ others) = (ofOutcomes outcomes).append (ofOutcomes others) := by
  unfold ofOutcomes append
  rw [List.filterMap_append, List.filterMap_append]

theorem ofTokens_append_lineEnd {tokens : List Token} {lineEnd : Token}
    (noEnd : ∀ token ∈ tokens, token.kind ≠ .eof) (isLineEnd : lineEnd.kind = .newline)
    (rest : List Token) :
    ofTokens (tokens ++ lineEnd :: rest) =
      (ofTokens (tokens ++ [lineEnd])).append (ofTokens rest) := by
  unfold ofTokens
  rw [Line.split_append_lineEnd noEnd isLineEnd, List.filterMap_append, ofOutcomes_append]

theorem append_empty (parsed : Parsed) : parsed.append ⟨[], []⟩ = parsed := by
  unfold append
  rw [List.append_nil, List.append_nil]

theorem ofText_nil (file : String) : ofText file [] = ⟨[], []⟩ := by
  unfold ofText tokenize
  rw [Cursor.tokens_of_end rfl]
  rfl

/-- A text cut by a line end outside brackets is read as its two parts are. -/
theorem ofText_append_lineEnd (file : String) {upper : List Char} (lower : List Char)
    (noNul : '\x00' ∉ upper) (closed : depthBehind 0 (tokenize file upper) = 0) :
    ofText file (upper ++ '\n' :: lower) =
      (ofText file (upper ++ ['\n'])).append ((ofText file lower).below (upper ++ ['\n'])) := by
  have noEnd : ∀ token ∈ (tokenize file upper).dropLast, token.kind ≠ .eof :=
    Cursor.kind_ne_eof_of_mem_dropLast
  have cut : ∀ back, ofText file (upper ++ '\n' :: back) =
      (ofTokens ((tokenize file upper).dropLast ++
        [⟨.newline, "\n", file, .behind upper⟩])).append
          ((ofText file back).below (upper ++ ['\n'])) := by
    intro back
    rw [ofText, tokenize_append_lineEnd file back noNul closed,
      ofTokens_append_lineEnd noEnd rfl, ofTokens_below]
    rfl
  have upperEq := cut []
  rw [ofText_nil] at upperEq
  rw [cut lower, upperEq]
  exact congrArg (append · _) (append_empty _).symm

end Parsed

/-- Reading is compositional over lines.  If the brackets of an upper text are
closed at its end, then that text, a line end and any lower text are read as the
upper text with its line end, and then the lower text, further down by as many
characters and lines as there are in front of it. -/
theorem parsing_is_compositional_over_lines (file : String) (upper lower : List Char)
    (noNul : '\x00' ∉ upper) (closed : depthBehind 0 (tokenize file upper) = 0) :
    let front := upper ++ ['\n']
    let whole := Parsed.ofText file (front ++ lower)
    whole.program = (Parsed.ofText file front).program ++
        (Parsed.ofText file lower).program.map (Stmt.mapSpans (Span.below front)) ∧
      whole.errors = (Parsed.ofText file front).errors ++
        (Parsed.ofText file lower).errors.map (SyntaxError.mapSpans (Span.below front)) := by
  intro front whole
  have wholeEq := Parsed.ofText_append_lineEnd file lower noNul closed
  rw [List.append_cons] at wholeEq
  constructor
  · exact congrArg Parsed.program wholeEq
  · exact congrArg Parsed.errors wholeEq

/-- Two mistakes, the first of which crosses a line end inside brackets: each is
reported where it stands, and the bracket in the comment is not counted. -/
theorem parsing_is_compositional_over_lines_mistakes :
    let upper := ['(', 'a', '\n', ']', '#', '(']
    let lower := ['b', ' ', 'c']
    '\x00' ∉ upper ∧ depthBehind 0 (tokenize "" upper) = 0 ∧
      (Parsed.ofText "" (upper ++ ['\n'] ++ lower)).errors.map (fun error => error.span.start) =
        [⟨3, 2, 1⟩, ⟨9, 3, 3⟩] := by
  intro upper lower
  have noNul : '\x00' ∉ upper := by decide
  have closed : depthBehind 0 (tokenize "" upper) = 0 := by decide +kernel
  refine ⟨noNul, closed, ?_⟩
  rw [(parsing_is_compositional_over_lines "" upper lower noNul closed).2]
  decide +kernel

end GraphCalc
