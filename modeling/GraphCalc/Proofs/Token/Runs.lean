import GraphCalc.Proofs.Token.Tiling

/-!
# Reading token by token

A text is read in steps: layout is skipped, and then a token is taken.  Which layout
is skipped can be told without running the reader, from the place where the next
token starts.  After some steps the reader stands in front of another token; the text
it has passed, the place it has reached and the number of open brackets follow from
the tokens it has taken.
-/

namespace GraphCalc

open Lexeme

/-! ## Where layout ends -/

theorem Lexeme.mark_of_mem_layoutStarts {mark : Char} (isMark : mark ∈ layoutStarts) :
    isLetterOrDigit mark = false ∧ mark.isDigit = false ∧ mark ∉ ['!', '(', '.', '='] := by
  have marks : layoutStarts.all (fun mark =>
      !isLetterOrDigit mark && !mark.isDigit &&
        !List.contains ['!', '(', '.', '='] mark) = true := by
    decide
  simpa [and_assoc] using List.all_eq_true.1 marks mark isMark

/-- Whether a character starts a token inside that many brackets.  A line end does so
outside brackets only. -/
def StartsToken (depth : Nat) (char : Char) : Prop :=
  char ∉ layoutStarts ∨ char = '\n' ∧ depth = 0

theorem StartsToken.outside {depth : Nat} (starts : StartsToken depth '\n') : depth = 0 := by
  rcases starts with noLayout | ⟨-, outside⟩
  · exact absurd (by decide) noLayout
  · exact outside

namespace Cursor

theorem spanLayout_start {depth : Nat} {first : Char} (starts : StartsToken depth first)
    (rest : List Char) : spanLayout depth false (first :: rest) = ([], first :: rest) := by
  rcases starts with noLayout | ⟨rfl, rfl⟩
  · exact spanLayout_other depth rest noLayout
  · exact spanLayout_lineEnd_outside false rest

/-- What is left behind layout starts with a token. -/
theorem startsToken_of_ahead {depth : Nat} {inComment : Bool} {text rest : List Char}
    {first : Char} (ahead : (spanLayout depth inComment text).2 = first :: rest) :
    StartsToken depth first := by
  induction text generalizing inComment with
  | nil => cases ahead
  | cons char text ih =>
      by_cases isLineEnd : char = '\n'
      · subst isLineEnd
        rcases Nat.eq_zero_or_pos depth with rfl | inBrackets
        · rw [spanLayout_lineEnd_outside] at ahead
          cases ahead
          exact .inr ⟨rfl, rfl⟩
        · rw [spanLayout_lineEnd_inside inBrackets] at ahead
          exact ih ahead
      · by_cases isComment : inComment = true ∨ char = '#'
        · rw [spanLayout_comment depth text isLineEnd isComment] at ahead
          exact ih ahead
        · rw [not_or, Bool.not_eq_true] at isComment
          rcases isComment with ⟨rfl, noSign⟩
          rcases layout_cases char with lineEnd | sign | isBlank | noLayout
          · exact absurd lineEnd isLineEnd
          · exact absurd sign noSign
          · rw [spanLayout_blank depth text isBlank] at ahead
            exact ih ahead
          · rw [spanLayout_other depth text noLayout] at ahead
            cases ahead
            exact .inl noLayout

/-- Inside a comment everything on the line is skipped. -/
theorem spanLayout_body (depth : Nat) {body : List Char} (sameLine : '\n' ∉ body)
    (more : List Char) :
    spanLayout depth true (body ++ more) =
      (body ++ (spanLayout depth true more).1, (spanLayout depth true more).2) := by
  induction body with
  | nil => rfl
  | cons char body ih =>
      rw [List.mem_cons, not_or] at sameLine
      rw [List.cons_append, spanLayout_comment depth _ (Ne.symm sameLine.1) (.inl rfl),
        ih sameLine.2]
      rfl

/-- A comment is left at the end of its line. -/
theorem spanLayout_lineEnd (depth : Nat) {text : List Char}
    (lineEnd : ∀ char ∈ text.head?, char = '\n') :
    spanLayout depth true text = spanLayout depth false text := by
  cases text with
  | nil => rfl
  | cons char text =>
      rw [lineEnd char rfl]
      rcases Nat.eq_zero_or_pos depth with rfl | inBrackets
      · rw [spanLayout_lineEnd_outside, spanLayout_lineEnd_outside]
      · rw [spanLayout_lineEnd_inside inBrackets, spanLayout_lineEnd_inside inBrackets]

end Cursor

open Cursor

/-- Layout that can be skipped is skipped, up to the next token. -/
theorem Skippable.spanLayout_eq {depth : Nat} {layout after : List Char}
    (skippable : Skippable depth layout after)
    (starts : ∀ first ∈ after.head?, StartsToken depth first) :
    spanLayout depth false (layout ++ after) = (layout, after) := by
  induction skippable with
  | @nil after =>
      cases after with
      | nil => rfl
      | cons first rest => exact spanLayout_start (starts first rfl) rest
  | blank isBlank _ ih => rw [List.cons_append, spanLayout_blank depth _ isBlank, ih starts]
  | lineEnd inBrackets _ ih =>
      rw [List.cons_append, spanLayout_lineEnd_inside inBrackets, ih starts]
  | @comment body layout after sameLine ends _ ih =>
      rw [List.append_assoc, List.cons_append, spanLayout_comment depth _ (by decide) (.inr rfl),
        spanLayout_body depth sameLine, spanLayout_lineEnd depth ends, ih starts]
      rfl

/-! ## Steps -/

/-- Only a line end is read as one. -/
theorem Lexeme.first_of_newline {first : Char} {rest : List Char}
    (isLineEnd : (read first rest).kind = .newline) : first = '\n' := by
  have longest := (cuts_read (seam_nil (first :: rest))).2
  have parts := covered_append_rest first rest
  rw [isLineEnd] at longest
  change (read first rest).text = ['\n'] at longest
  rw [covered, isLineEnd, longest] at parts
  exact (List.cons.inj parts).1.symm

namespace Cursor

/-- A cursor stands in front of layout and of a text that starts with a token or is
empty. -/
structure Faces (cursor : Cursor) (layout ahead : List Char) : Prop where
  parts : cursor.rest = layout ++ ahead
  skippable : Skippable cursor.depth layout ahead
  starts : ∀ first ∈ ahead.head?, StartsToken cursor.depth first

theorem exists_faces (cursor : Cursor) : ∃ layout ahead, cursor.Faces layout ahead := by
  refine ⟨_, _, (spanLayout_append cursor.depth false cursor.rest).symm,
    (Skippable.of_spanLayout cursor.depth cursor.rest).1, ?_⟩
  intro first isFirst
  rcases List.head?_eq_some_iff.1 isFirst with ⟨rest, ahead⟩
  exact startsToken_of_ahead ahead

namespace Faces

variable {cursor : Cursor} {layout ahead : List Char}

theorem spanLayout_eq (faces : cursor.Faces layout ahead) :
    spanLayout cursor.depth false cursor.rest = (layout, ahead) := by
  rw [faces.parts]
  exact faces.skippable.spanLayout_eq faces.starts

theorem next_eq_end (faces : cursor.Faces layout []) :
    cursor.next.1 = ⟨.eof, "", cursor.file, cursor.place.advance layout⟩ := by
  have atEnd := congrArg Prod.snd faces.spanLayout_eq
  rw [next_eq_of_end atEnd, faces.spanLayout_eq]

theorem next_eq_read {first : Char} {rest : List Char}
    (faces : cursor.Faces layout (first :: rest)) :
    let place := cursor.place.advance layout
    let lexeme := Lexeme.read first rest
    cursor.next =
      (⟨lexeme.kind, String.ofList lexeme.text, cursor.file, place⟩,
        ⟨cursor.file, lexeme.rest, place.advance lexeme.covered,
          lexeme.kind.depthAfter cursor.depth⟩) := by
  have nextEq := next_eq_of_read (congrArg Prod.snd faces.spanLayout_eq)
  rwa [faces.spanLayout_eq] at nextEq

/-- The next token starts behind the layout. -/
theorem start_next (faces : cursor.Faces layout ahead) :
    cursor.next.1.start = cursor.place.advance layout := by
  cases ahead with
  | nil => rw [faces.next_eq_end]
  | cons first rest => rw [faces.next_eq_read]

end Faces

/-- Past a token other than the end mark, a cursor has the text behind it ahead. -/
theorem exists_faces_of_ne_eof {cursor : Cursor} (notEnd : cursor.next.1.kind ≠ .eof) :
    ∃ layout first rest, cursor.Faces layout (first :: rest) := by
  rcases cursor.exists_faces with ⟨layout, ahead, faces⟩
  cases ahead with
  | nil =>
      rw [faces.next_eq_end] at notEnd
      exact absurd rfl notEnd
  | cons first rest => exact ⟨layout, first, rest, faces⟩

/-! ## Runs -/

/-- `Passes cursor tokens after` says that reading goes from one cursor to another past
the tokens, none of which is the end mark. -/
inductive Passes : Cursor → List Token → Cursor → Prop
  | done (cursor : Cursor) : Passes cursor [] cursor
  | token {cursor after : Cursor} {tokens : List Token} (notEnd : cursor.next.1.kind ≠ .eof)
      (rest : Passes cursor.next.2 tokens after) : Passes cursor (cursor.next.1 :: tokens) after

/-- Any tokens ahead are passed on the way to those behind them. -/
theorem exists_passes {cursor : Cursor} {front late : List Token}
    (tokensEq : cursor.tokens = front ++ late) (notEmpty : late ≠ []) :
    ∃ after, Passes cursor front after ∧ after.tokens = late := by
  induction front generalizing cursor with
  | nil => exact ⟨cursor, .done cursor, tokensEq⟩
  | cons token front ih =>
      rw [tokens, List.cons_append] at tokensEq
      split at tokensEq
      · have nothingBehind := (List.cons.inj tokensEq).2
        exact absurd (List.append_eq_nil_iff.1 nothingBehind.symm).2 notEmpty
      · rename_i notEnd
        rcases List.cons.inj tokensEq with ⟨rfl, restEq⟩
        rcases ih restEq with ⟨after, passes, lateEq⟩
        exact ⟨after, .token notEnd passes, lateEq⟩

theorem head_tokens {cursor : Cursor} {token : Token} {late : List Token}
    (tokensEq : cursor.tokens = token :: late) : cursor.next.1 = token := by
  rw [tokens] at tokensEq
  split at tokensEq
  · exact (List.cons.inj tokensEq).1
  · exact (List.cons.inj tokensEq).1

namespace Passes

variable {cursor after : Cursor} {tokens : List Token}

theorem tokens_eq (passes : Passes cursor tokens after) :
    cursor.tokens = tokens ++ after.tokens := by
  induction passes with
  | done => rfl
  | token notEnd _ ih => rw [Cursor.tokens, if_neg notEnd, ih, List.cons_append]

/-- The brackets of the tokens are counted. -/
theorem depth_eq (passes : Passes cursor tokens after) :
    after.depth = depthBehind cursor.depth tokens := by
  induction passes with
  | done => rfl
  | @token cursor after tokens notEnd _ ih =>
      rcases exists_faces_of_ne_eof notEnd with ⟨layout, first, rest, faces⟩
      rw [ih, faces.next_eq_read]
      rfl

/-- The place behind the tokens is reached by passing over the text up to there. -/
theorem exists_passed (passes : Passes cursor tokens after) :
    ∃ passed, cursor.rest = passed ++ after.rest ∧ after.place = cursor.place.advance passed := by
  induction passes with
  | done cursor => exact ⟨[], rfl, rfl⟩
  | @token cursor after tokens notEnd _ ih =>
      rcases exists_faces_of_ne_eof notEnd with ⟨layout, first, rest, faces⟩
      rcases ih with ⟨passed, restEq, placeEq⟩
      simp only [faces.next_eq_read] at restEq placeEq
      refine ⟨layout ++ ((Lexeme.read first rest).covered ++ passed), ?_, ?_⟩
      · rw [faces.parts, ← covered_append_rest first rest, restEq]
        simp only [List.append_assoc]
      · rw [placeEq]
        simp only [Position.advance, List.foldl_append]

/-- Every token takes at least one character. -/
theorem length_le (passes : Passes cursor tokens after) :
    tokens.length + after.rest.length ≤ cursor.rest.length := by
  induction passes with
  | done cursor => exact Nat.le_of_eq (Nat.zero_add _)
  | @token cursor after tokens notEnd _ ih =>
      have shorter := next_rest_lt cursor notEnd
      rw [List.length_cons]
      omega

end Passes

/-- Where a token of a text is read: behind the tokens in front of it and the layout
that follows them. -/
theorem exists_faces_of_tokenize {file : String} {text : List Char} {front late : List Token}
    {token : Token} (tokensEq : tokenize file text = front ++ token :: late) :
    ∃ after passed layout ahead, Passes (.ofText file text) front after ∧
      after.Faces layout ahead ∧ after.next.1 = token ∧
      (ofText file text).rest = passed ++ (layout ++ ahead) ∧
      token.start = .behind (passed ++ layout) := by
  rcases exists_passes tokensEq (List.cons_ne_nil _ _) with ⟨after, passes, lateEq⟩
  rcases passes.exists_passed with ⟨passed, restEq, placeEq⟩
  rcases after.exists_faces with ⟨layout, ahead, faces⟩
  have tokenEq := head_tokens lateEq
  rw [faces.parts] at restEq
  refine ⟨after, passed, layout, ahead, passes, faces, tokenEq, restEq, ?_⟩
  rw [← tokenEq, faces.start_next, placeEq]
  change ((Position.behind []).advance passed).advance layout = _
  rw [Position.advance_behind, Position.advance_behind, List.nil_append]

end Cursor

end GraphCalc
