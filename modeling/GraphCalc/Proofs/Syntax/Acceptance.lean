import GraphCalc.Proofs.Syntax.Soundness
import GraphCalc.Proofs.Syntax.Unambiguity

/-!
# The accepted token sequences

A token sequence is cut into runs at its line ends.  Reading it reports no
error exactly when every run is empty or has a derivation as a statement.  The
derivation is then unique, and the program read is the list of its trees.
-/

namespace GraphCalc

namespace Line

theorem split_cons_of_eof {token : Token} (rest : List Token) (kindEq : token.kind = .eof) :
    split (token :: rest) = [⟨[], token⟩] := by
  simp [split, kindEq]

theorem split_cons_of_newline {token : Token} (rest : List Token)
    (kindEq : token.kind = .newline) :
    split (token :: rest) = ⟨[], token⟩ :: split rest := by
  simp [split, kindEq]

theorem split_cons_of_ne {token : Token} (rest : List Token) (notEnd : token.kind ≠ .eof)
    (notLineEnd : token.kind ≠ .newline) :
    split (token :: rest) =
      (split rest).modifyHead fun line => { line with tokens := token :: line.tokens } := by
  rw [split]
  split
  · contradiction
  · contradiction
  · cases split rest with
    | nil => rfl
    | cons line lines => rfl

/-- Tokens that end no line stand at the front of the first line. -/
theorem split_append {run rest : List Token} {stop : Token} {lines : List Line}
    (plain : ∀ token ∈ run, token.kind.endsLine = false)
    (splitEq : split rest = ⟨[], stop⟩ :: lines) :
    split (run ++ rest) = ⟨run, stop⟩ :: lines := by
  induction run with
  | nil => exact splitEq
  | cons token run ih =>
      rw [List.forall_mem_cons] at plain
      have notEnd : token.kind ≠ .eof := by
        intro isEnd
        rw [isEnd] at plain
        cases plain.1
      have notLineEnd : token.kind ≠ .newline := by
        intro isLineEnd
        rw [isLineEnd] at plain
        cases plain.1
      rw [List.cons_append, split_cons_of_ne _ notEnd notLineEnd, ih plain.2]
      rfl

end Line

namespace Grammar

/-- The runs of tokens between line ends, up to the first end mark. -/
def runs (tokens : List Token) : List (List Token) :=
  (tokens.takeWhile fun token => token.kind ≠ .eof).splitOnP fun token => token.kind = .newline

/-- The lines of a sequence with an end mark are its runs. -/
theorem map_tokens_split (tokens : List Token) (ended : ∃ token ∈ tokens, token.kind = .eof) :
    (Line.split tokens).map Line.tokens = runs tokens := by
  induction tokens with
  | nil => simp at ended
  | cons token rest ih =>
      by_cases isEnd : token.kind = .eof
      · simp [Line.split_cons_of_eof rest isEnd, runs, isEnd]
      · have restEnded : ∃ token ∈ rest, token.kind = .eof := by
          simpa [isEnd] using ended
        have restLines := ih restEnded
        by_cases isLineEnd : token.kind = .newline
        · rw [Line.split_cons_of_newline rest isLineEnd, List.map_cons, restLines]
          simp [runs, isLineEnd, List.splitOnP_cons_eq_if_modifyHead]
        · rw [Line.split_cons_of_ne rest isEnd isLineEnd]
          have runsEq : runs (token :: rest) = (runs rest).modifyHead (List.cons token) := by
            simp [runs, isEnd, isLineEnd, List.splitOnP_cons_eq_if_modifyHead]
          rw [runsEq, ← restLines]
          cases Line.split rest with
          | nil => rfl
          | cons line lines => rfl

theorem Statement.tokens_ne_nil (statement : Statement) : statement.tokens ≠ [] := by
  cases statement with
  | expr value =>
      obtain ⟨behind, valueTokens⟩ := value.tokens_eq_cons
      rw [Statement.tokens, valueTokens]
      exact List.cons_ne_nil _ _
  | define => exact List.cons_ne_nil _ _

/-- A line is read as a statement exactly when that is the tree of one of its
derivations. -/
theorem read?_eq_some_ok_iff (line : Line) (stmt : Stmt) :
    line.read? = some (.ok stmt) ↔
      ∃ statement : Statement, statement.tokens = line.tokens ∧ statement.tree = stmt := by
  obtain ⟨tokens, stop⟩ := line
  cases tokens with
  | nil =>
      constructor
      · intro read
        cases read
      · rintro ⟨statement, tokensEq, -⟩
        exact absurd tokensEq statement.tokens_ne_nil
  | cons first others =>
      constructor
      · intro read
        exact read_derived (Option.some.inj read)
      · rintro ⟨statement, tokensEq, rfl⟩
        exact congrArg some (Statement.read_tokens stop statement tokensEq)

theorem read?_eq_none_iff (line : Line) : line.read? = none ↔ line.tokens = [] := by
  obtain ⟨tokens, stop⟩ := line
  cases tokens with
  | nil => exact iff_of_true rfl rfl
  | cons first others => exact iff_of_false (Option.some_ne_none _) (List.cons_ne_nil _ _)

/-- Lines are read without an error exactly when each is blank or derivable. -/
theorem errors_eq_nil_iff (lines : List Line) :
    (Parsed.ofOutcomes (lines.filterMap Line.read?)).errors = [] ↔
      ∀ line ∈ lines,
        line.tokens = [] ∨ ∃ statement : Statement, statement.tokens = line.tokens := by
  induction lines with
  | nil => simp [Parsed.ofOutcomes]
  | cons line lines ih =>
      rw [List.forall_mem_cons, ← ih]
      cases read : line.read? with
      | none =>
          rw [List.filterMap_cons_none read, (read?_eq_none_iff line).1 read]
          simp
      | some outcome =>
          have notBlank : line.tokens ≠ [] := by
            intro blank
            rw [(read?_eq_none_iff line).2 blank] at read
            cases read
          rw [List.filterMap_cons_some read]
          cases outcome with
          | ok stmt =>
              obtain ⟨statement, tokensEq, -⟩ := (read?_eq_some_ok_iff line stmt).1 read
              exact (and_iff_right (.inr ⟨statement, tokensEq⟩)).symm
          | error error =>
              refine iff_of_false (List.cons_ne_nil _ _) ?_
              rintro ⟨blank | ⟨statement, tokensEq⟩, -⟩
              · exact notBlank blank
              · rw [(read?_eq_some_ok_iff line _).2 ⟨statement, tokensEq, rfl⟩] at read
                cases read

/-- Lines with derivations are read as the trees of those, in order. -/
theorem program_eq_map_tree (lines : List Line) (statements : List Statement)
    (tokensEq : statements.map Statement.tokens =
      (lines.map Line.tokens).filter fun run => run ≠ []) :
    (Parsed.ofOutcomes (lines.filterMap Line.read?)).program =
      statements.map Statement.tree := by
  induction lines generalizing statements with
  | nil =>
      rw [List.map_eq_nil_iff.1 tokensEq]
      rfl
  | cons line lines ih =>
      by_cases blank : line.tokens = []
      · rw [List.filterMap_cons_none ((read?_eq_none_iff line).2 blank)]
        rw [List.map_cons, List.filter_cons_of_neg (by simpa using blank)] at tokensEq
        exact ih statements tokensEq
      · rw [List.map_cons, List.filter_cons_of_pos (by simpa using blank)] at tokensEq
        cases statements with
        | nil => cases tokensEq
        | cons statement statements =>
            obtain ⟨firstEq, othersEq⟩ := List.cons.inj tokensEq
            have read := (read?_eq_some_ok_iff line statement.tree).2 ⟨statement, firstEq, rfl⟩
            rw [List.filterMap_cons_some read]
            exact congrArg (statement.tree :: ·) (ih statements othersEq)

/-- Runs that are empty or derivable have a list of derivations. -/
theorem exists_derivations (lines : List (List Token))
    (derivable : ∀ run ∈ lines, run = [] ∨ ∃ statement : Statement, statement.tokens = run) :
    ∃ statements : List Statement,
      statements.map Statement.tokens = lines.filter fun run => run ≠ [] := by
  induction lines with
  | nil => exact ⟨[], rfl⟩
  | cons run lines ih =>
      rw [List.forall_mem_cons] at derivable
      obtain ⟨statements, tokensEq⟩ := ih derivable.2
      rcases derivable.1 with rfl | ⟨statement, rfl⟩
      · exact ⟨statements, tokensEq⟩
      · refine ⟨statement :: statements, ?_⟩
        rw [List.map_cons, tokensEq,
          List.filter_cons_of_pos (by simpa using statement.tokens_ne_nil)]

/-- A token sequence with an end mark is read without an error exactly when
every run between its line ends is empty or derivable.  No run has two
derivations, and a sequence without an error is read as their trees, in
order. -/
theorem accepts_exactly_derivable (tokens : List Token)
    (ended : ∃ token ∈ tokens, token.kind = .eof) :
    ((Parsed.ofTokens tokens).errors = [] ↔
      ∀ run ∈ runs tokens, run = [] ∨ ∃ statement : Statement, statement.tokens = run) ∧
    (∀ left right : Statement, left.tokens = right.tokens → left = right) ∧
    ((Parsed.ofTokens tokens).errors = [] →
      ∃ statements : List Statement,
        statements.map Statement.tokens = ((runs tokens).filter fun run => run ≠ []) ∧
        (Parsed.ofTokens tokens).program = statements.map Statement.tree) := by
  have accepts : (Parsed.ofTokens tokens).errors = [] ↔
      ∀ run ∈ runs tokens, run = [] ∨ ∃ statement : Statement, statement.tokens = run := by
    rw [Parsed.ofTokens, errors_eq_nil_iff, ← map_tokens_split tokens ended, List.forall_mem_map]
  refine ⟨accepts, fun _ _ => Statement.eq_of_tokens_eq, ?_⟩
  intro noErrors
  obtain ⟨statements, tokensEq⟩ := exists_derivations _ (accepts.1 noErrors)
  refine ⟨statements, tokensEq, program_eq_map_tree _ _ ?_⟩
  rw [map_tokens_split tokens ended, tokensEq]

/-- The sequence of `x!`: its only run is derivable, so it is accepted. -/
theorem accepts_exactly_derivable_factorial :
    let name : Token := ⟨.ident, "x", "", ⟨0, 1, 1⟩⟩
    let mark : Token := ⟨.bang, "!", "", ⟨1, 1, 2⟩⟩
    let stop : Token := ⟨.eof, "", "", ⟨2, 1, 3⟩⟩
    (∃ token ∈ [name, mark, stop], token.kind = .eof) ∧
      runs [name, mark, stop] = [[name, mark]] ∧
      (Parsed.ofTokens [name, mark, stop]).errors = [] := by
  intro name mark stop
  have ended : ∃ token ∈ [name, mark, stop], token.kind = .eof := by decide
  have oneRun : runs [name, mark, stop] = [[name, mark]] := by decide
  let factorial : Statement := .expr (.operand (.product (.operand (.factor
    (.marked (.primary (.var ⟨name, rfl⟩)) ⟨mark, rfl⟩)))))
  refine ⟨ended, oneRun, (accepts_exactly_derivable _ ended).1.2 ?_⟩
  intro run isRun
  rw [oneRun, List.mem_singleton] at isRun
  exact .inr ⟨factorial, isRun.symm⟩

end Grammar

end GraphCalc
