import GraphCalc.Proofs.Syntax.Composition

/-!
# Every line gives one statement or one error

The tokens of a text are cut into lines at the line ends outside brackets.  A
blank line gives nothing, and every other line gives one statement or one error,
whatever the other lines hold.  An error stands at a token of its line or at the
mark that ends the line.

That errors stand at tokens needs no second look at the readers.  They do not
look at places, so they could not tell if all other places were changed.
-/

namespace GraphCalc

/-! ## Errors stand at tokens -/

namespace Position

/-- Move a place unless it is one of some places. -/
def moveUnless (places : List Position) (place : Position) : Position :=
  if place ∈ places then place else ⟨place.offset + 1, place.line, place.column⟩

theorem moveUnless_eq_self_iff {places : List Position} {place : Position} :
    place.moveUnless places = place ↔ place ∈ places := by
  unfold moveUnless
  split
  · rename_i isPlace
    exact iff_of_true rfl isPlace
  · rename_i isOther
    refine iff_of_false ?_ isOther
    intro same
    have sameOffset : place.offset + 1 = place.offset := congrArg Position.offset same
    omega

end Position

/-- Spans are compared with themselves after their starts and stops have been
changed. -/
def SpanView.changingEnds (onStart onStop : Position → Position) : SpanView where
  left := id
  right span := ⟨span.file, onStart span.start, onStop span.stop⟩
  join := by
    intro first last otherFirst otherLast firstEq lastEq
    rw [id] at firstEq lastEq ⊢
    rw [firstEq, lastEq]
    rfl

/-- Spans are compared with themselves after all starts and stops have been moved
that no token of a list has. -/
def SpanView.movingOthers (tokens : List Token) : SpanView :=
  .changingEnds (Position.moveUnless (tokens.map Token.start))
    (Position.moveUnless (tokens.map Token.stop))

theorem Token.alike_movingOthers {tokens : List Token} {token : Token} (isToken : token ∈ tokens) :
    token.Alike (.movingOthers tokens) token where
  kind := rfl
  text := rfl
  span := by
    have startKept : token.start.moveUnless (tokens.map Token.start) = token.start :=
      Position.moveUnless_eq_self_iff.2 (List.mem_map_of_mem isToken)
    have stopKept : token.stop.moveUnless (tokens.map Token.stop) = token.stop :=
      Position.moveUnless_eq_self_iff.2 (List.mem_map_of_mem isToken)
    exact (congrArg₂ (Span.mk token.file) startKept stopKept).symm

/-- Whether a span starts where a token starts and stops where a token stops. -/
structure Span.Between (tokens : List Token) (span : Span) : Prop where
  start : ∃ token ∈ tokens, span.start = token.start
  stop : ∃ token ∈ tokens, span.stop = token.stop

/-- A span that is not changed lies between tokens. -/
theorem Span.Between.of_kept {tokens : List Token} {span : Span}
    (kept : span = (SpanView.movingOthers tokens).right span) : span.Between tokens where
  start := by
    have isStart := Position.moveUnless_eq_self_iff.1 (congrArg Span.start kept).symm
    rcases List.mem_map.1 isStart with ⟨token, isToken, same⟩
    exact ⟨token, isToken, same.symm⟩
  stop := by
    have isStop := Position.moveUnless_eq_self_iff.1 (congrArg Span.stop kept).symm
    rcases List.mem_map.1 isStop with ⟨token, isToken, same⟩
    exact ⟨token, isToken, same.symm⟩

/-- The error of a line lies between tokens of the line, its end mark included. -/
theorem Stmt.between_of_read_error {stop first : Token} {others : List Token} {error : SyntaxError}
    (failed : Stmt.read stop first others = .error error) :
    error.span.Between (first :: others ++ [stop]) := by
  have stopAlike : stop.Alike (.movingOthers (first :: others ++ [stop])) stop :=
    Token.alike_movingOthers (List.mem_append_right _ List.mem_cons_self)
  have tokensAlike : Token.AllAlike (.movingOthers (first :: others ++ [stop]))
      (first :: others) (first :: others) := by
    rw [Token.AllAlike, List.forall₂_same]
    intro token isToken
    exact Token.alike_movingOthers (List.mem_append_left _ isToken)
  rw [Token.AllAlike, List.forall₂_cons] at tokensAlike
  have agree := agree_readStmt stopAlike tokensAlike.1 tokensAlike.2
  rw [failed] at agree
  cases agree with
  | error alike => exact .of_kept (congrArg SyntaxError.span alike)

/-! ## Lines -/

theorem Kind.endsLine_eq_false {kind : Kind} (notEnd : kind ≠ .eof) (notLineEnd : kind ≠ .newline) :
    kind.endsLine = false := by
  cases kind with
  | eof => exact absurd rfl notEnd
  | newline => exact absurd rfl notLineEnd
  | _ => rfl

namespace Line

/-- The tokens of a line and the mark that ends it. -/
def allTokens (line : Line) : List Token :=
  line.tokens ++ [line.stop]

/-- `Cut tokens lines` says that the lines are what is between the line ends of a
token sequence.  Every line is a run of tokens that end no line; the last one
goes up to the end mark. -/
inductive Cut : List Token → List Line → Prop
  | last {run : List Token} {stop : Token} (plain : ∀ token ∈ run, token.kind.endsLine = false)
      (isEnd : stop.kind = .eof) : Cut (run ++ [stop]) [⟨run, stop⟩]
  | more {run rest : List Token} {lineEnd : Token} {lines : List Line}
      (plain : ∀ token ∈ run, token.kind.endsLine = false) (isLineEnd : lineEnd.kind = .newline)
      (others : Cut rest lines) : Cut (run ++ lineEnd :: rest) (⟨run, lineEnd⟩ :: lines)

namespace Cut

variable {tokens : List Token} {lines : List Line}

/-- A token in front that ends no line belongs to the first line. -/
theorem cons {token : Token} (plainToken : token.kind.endsLine = false)
    (isCut : Cut tokens lines) : ∃ lines, Cut (token :: tokens) lines := by
  cases isCut with
  | last plain isEnd =>
      exact ⟨_, .last (List.forall_mem_cons.2 ⟨plainToken, plain⟩) isEnd⟩
  | more plain isLineEnd others =>
      exact ⟨_, .more (List.forall_mem_cons.2 ⟨plainToken, plain⟩) isLineEnd others⟩

/-- There is one way to cut a sequence into lines. -/
theorem split_eq (isCut : Cut tokens lines) : split tokens = lines := by
  induction isCut with
  | last plain isEnd => exact split_append plain (split_cons_of_eof [] isEnd)
  | more plain isLineEnd _ ih =>
      rw [split_append plain (split_cons_of_newline _ isLineEnd), ih]

/-- A line is read alone as it is read among others. -/
theorem split_allTokens (isCut : Cut tokens lines) {line : Line} (isLine : line ∈ lines) :
    split line.allTokens = [line] := by
  induction isCut with
  | @last run stop plain isEnd =>
      rw [List.mem_singleton.1 isLine]
      exact split_append plain (split_cons_of_eof [] isEnd)
  | @more run rest lineEnd lines plain isLineEnd _ ih =>
      rcases List.mem_cons.1 isLine with rfl | isOther
      · exact split_append plain (split_cons_of_newline [] isLineEnd)
      · exact ih isOther

end Cut

/-- A sequence with an end mark behind it can be cut into lines. -/
theorem exists_cut {front : List Token} {stop : Token} (noEnd : ∀ token ∈ front, token.kind ≠ .eof)
    (isEnd : stop.kind = .eof) : ∃ lines, Cut (front ++ [stop]) lines := by
  induction front with
  | nil => exact ⟨_, .last (List.forall_mem_nil _) isEnd⟩
  | cons token front ih =>
      rw [List.forall_mem_cons] at noEnd
      rcases ih noEnd.2 with ⟨lines, isCut⟩
      by_cases isLineEnd : token.kind = .newline
      · have blankFirst : Cut ([] ++ token :: (front ++ [stop])) (⟨[], token⟩ :: lines) :=
          .more (List.forall_mem_nil _) isLineEnd isCut
        exact ⟨_, blankFirst⟩
      · exact isCut.cons (Kind.endsLine_eq_false noEnd.1 isLineEnd)

/-- What is read from a line alone. -/
def parsed (line : Line) : Parsed :=
  .ofTokens line.allTokens

/-- What a line may give: a blank line gives nothing, another one gives one
statement and no error, or no statement and one error.  The error starts at a
token of the line or at the mark that ends it. -/
inductive Gives (line : Line) : Parsed → Prop
  | nothing (blank : line.tokens = []) : Gives line ⟨[], []⟩
  | statement (filled : line.tokens ≠ []) (stmt : Stmt) : Gives line ⟨[stmt], []⟩
  | error (filled : line.tokens ≠ []) (error : SyntaxError)
      (start : ∃ token ∈ line.allTokens, error.span.start = token.start) :
      Gives line ⟨[], [error]⟩

theorem parsed_eq {line : Line} (alone : split line.allTokens = [line]) :
    line.parsed = .ofOutcomes line.read?.toList := by
  rw [parsed, Parsed.ofTokens, alone]
  cases read : line.read? with
  | none => rw [List.filterMap_cons_none read, List.filterMap_nil, Option.toList_none]
  | some outcome => rw [List.filterMap_cons_some read, List.filterMap_nil, Option.toList_some]

theorem gives_parsed {line : Line} (alone : split line.allTokens = [line]) :
    line.Gives line.parsed := by
  rw [parsed_eq alone]
  rcases line with ⟨tokens, stop⟩
  cases tokens with
  | nil => exact .nothing rfl
  | cons first others =>
      have filled : first :: others ≠ [] := List.cons_ne_nil _ _
      have readEq : (Line.mk (first :: others) stop).read? = some (Stmt.read stop first others) :=
        rfl
      rw [readEq]
      cases read : Stmt.read stop first others with
      | ok stmt =>
          exact .statement filled stmt
      | error error =>
          exact .error filled error (Stmt.between_of_read_error read).start

/-- A line that is not blank gives one thing, and a blank one nothing. -/
theorem Gives.length_eq {line : Line} {parsed : Parsed} (gives : line.Gives parsed) :
    parsed.program.length + parsed.errors.length = if line.isBlank then 0 else 1 := by
  cases gives with
  | nothing blank =>
      rw [isBlank, blank]
      rfl
  | statement filled stmt =>
      rw [isBlank, List.isEmpty_eq_false_iff.2 filled]
      rfl
  | error filled error start =>
      rw [isBlank, List.isEmpty_eq_false_iff.2 filled]
      rfl

end Line

namespace Parsed

/-- What is read from lines in turn. -/
def ofLines (lines : List Line) : Parsed where
  program := lines.flatMap fun line => line.parsed.program
  errors := lines.flatMap fun line => line.parsed.errors

theorem ofOutcomes_eq_ofLines {lines : List Line}
    (alone : ∀ line ∈ lines, Line.split line.allTokens = [line]) :
    ofOutcomes (lines.filterMap Line.read?) = ofLines lines := by
  induction lines with
  | nil => rfl
  | cons line lines ih =>
      rw [List.forall_mem_cons] at alone
      rw [List.filterMap_eq_flatMap_toList] at ih ⊢
      rw [List.flatMap_cons, ofOutcomes_append, ← Line.parsed_eq alone.1, ih alone.2]
      rfl

/-- A sequence is read line by line. -/
theorem ofTokens_eq_ofLines {tokens : List Token} {lines : List Line}
    (isCut : Line.Cut tokens lines) : ofTokens tokens = ofLines lines := by
  rw [ofTokens, isCut.split_eq]
  exact ofOutcomes_eq_ofLines fun line isLine => isCut.split_allTokens isLine

/-- There are as many statements and errors as there are lines that are not
blank. -/
theorem length_ofLines {lines : List Line} (gives : ∀ line ∈ lines, line.Gives line.parsed) :
    (ofLines lines).program.length + (ofLines lines).errors.length =
      lines.countP fun line => !line.isBlank := by
  induction lines with
  | nil => rfl
  | cons line lines ih =>
      rw [List.forall_mem_cons] at gives
      have rest := ih gives.2
      have first := gives.1.length_eq
      simp only [ofLines] at rest ⊢
      rw [List.flatMap_cons, List.flatMap_cons, List.length_append, List.length_append,
        List.countP_cons, ← rest]
      cases blank : line.isBlank with
      | true =>
          rw [blank, if_pos rfl] at first
          rw [Bool.not_true, if_neg Bool.false_ne_true]
          omega
      | false =>
          rw [blank, if_neg Bool.false_ne_true] at first
          rw [Bool.not_false, if_pos rfl]
          omega

end Parsed

/-- Every line gives one statement or one error.  The tokens of a text are cut
into lines.  What is read from the text is what is read from its lines, in their
order: nothing from a blank line, and from any other line one statement and no
error, or no statement and one error that starts at a token of the line or at the
mark that ends it.  So statements and errors together are as many as the lines
that are not blank. -/
theorem every_line_gives_one_statement_or_one_error (file : String) (text : List Char) :
    let parsed := Parsed.ofText file text
    ∃ lines, Line.Cut (tokenize file text) lines ∧
      parsed.program = (lines.flatMap fun line => line.parsed.program) ∧
      parsed.errors = (lines.flatMap fun line => line.parsed.errors) ∧
      (∀ line ∈ lines, line.Gives line.parsed) ∧
      parsed.program.length + parsed.errors.length = lines.countP fun line => !line.isBlank := by
  intro parsed
  rcases Cursor.exists_tiled (.ofText file text) [] rfl (Lexeme.seam_nil _) with
    ⟨tokens, tokensEq, tiled⟩
  have ended : ∃ lines, Line.Cut (tokenize file text) lines := by
    rw [tokenize, tokensEq]
    exact Line.exists_cut tiled.kind_ne_eof rfl
  rcases ended with ⟨lines, isCut⟩
  have gives : ∀ line ∈ lines, line.Gives line.parsed := fun line isLine =>
    Line.gives_parsed (isCut.split_allTokens isLine)
  have parsedEq : parsed = .ofLines lines := Parsed.ofTokens_eq_ofLines isCut
  rw [parsedEq]
  exact ⟨lines, isCut, rfl, rfl, gives, Parsed.length_ofLines gives⟩

end GraphCalc
