import GraphCalc.Proofs.Token.Lines
import GraphCalc.Proofs.Token.Runs

/-!
# Layout between tokens

More layout may be put in front of any token but the parenthesis behind the name of a
macro.  The tokens before are read as they were: each of them was the longest where it
stood, and stays so when layout comes closer.  The layout itself is skipped, and what
follows it is read with the same number of open brackets.
-/

namespace GraphCalc

open Cursor

namespace Lexeme

/-! ## The longest token is read -/

theorem withEquality?_of_symbol? {char : Char} (noSymbol : symbol? char = none) :
    withEquality? char = none := by
  unfold withEquality?
  split
  · cases noSymbol
  · cases noSymbol
  · cases noSymbol
  · rfl

/-- A sign that may start a longer one is read alone where no equality sign
follows. -/
theorem read_alone {first : Char} {kind : Kind} {after : List Char}
    (symbolEq : symbol? first = some kind) (noEquality : after.head? ≠ some '=') :
    read first after = ⟨kind, [first], after⟩ := by
  obtain ⟨noLetter, noDigit⟩ := not_word_of_symbol? symbolEq
  unfold read
  rw [noLetter, noDigit, symbolEq]
  simp only [Bool.false_eq_true, if_false, Option.getD_some]
  split
  · exact absurd rfl noEquality
  · rfl

theorem read_illegal {first : Char} (noWord : isLetterOrDigit first = false)
    (noSymbol : symbol? first = none) (after : List Char) :
    read first after = ⟨.illegal, [first], after⟩ := by
  obtain ⟨noLetter, noDigit⟩ := (isLetterOrDigit_eq_false_iff first).1 noWord
  unfold read
  rw [noLetter, noDigit, withEquality?_of_symbol? noSymbol, noSymbol]
  rfl

/-- A token that could not be longer where it stands is the token that is read. -/
theorem IsLongest.read_eq {before after text rest : List Char} {kind : Kind} {first : Char}
    (longest : IsLongest before after kind text) (spelled : spell kind text = first :: rest) :
    read first (rest ++ after) = ⟨kind, text, after⟩ := by
  cases kind with
  | ident =>
      change text = first :: rest at spelled
      subst spelled
      exact read_name longest.1 longest.2.2.1 longest.2.2.2
  | macroName =>
      rcases longest with ⟨shape, -, opens⟩
      rcases List.head?_eq_some_iff.1 opens with ⟨behind, rfl⟩
      cases text with
      | nil => exact shape.elim
      | cons letter letters =>
          change letter :: (letters ++ ['!']) = first :: rest at spelled
          rcases List.cons.inj spelled with ⟨rfl, rfl⟩
          rw [List.append_assoc]
          exact read_macro shape behind
  | number =>
      change text = first :: rest at spelled
      rcases longest with ⟨-, stops, ⟨shape, noFraction⟩ |
        ⟨whole, fraction, shape, fractionShape, textEq⟩⟩
      · subst spelled
        exact read_digits shape stops noFraction
      · cases whole with
        | nil => exact absurd rfl shape.1
        | cons digit digits =>
            subst textEq
            rcases List.cons.inj spelled with ⟨rfl, rfl⟩
            exact read_decimal shape fractionShape stops
  | illegal =>
      rcases longest with ⟨char, rfl, noWord, noSymbol⟩
      cases spelled
      exact read_illegal noWord noSymbol after
  | assign | less | greater =>
      rcases longest with ⟨rfl, noEquality⟩
      cases spelled
      exact read_alone rfl noEquality
  | eof | other => exact longest.elim
  | _ =>
      cases longest
      cases spelled
      rfl

/-! ## Layout comes closer -/

/-- With other text behind some front, the first character is the same or that of the
other text. -/
theorem head?_of_front {front more : List Char} {mark : Char} (rest : List Char) :
    ∀ char ∈ (front ++ mark :: rest).head?, char = mark ∨ char ∈ (front ++ more).head? := by
  cases front with
  | nil =>
      rintro char ⟨⟩
      exact .inl rfl
  | cons first front =>
      rintro char ⟨⟩
      exact .inr rfl

theorem second_of_front (more : List Char) {front rest behind : List Char}
    {mark first second : Char} (startsWith : front ++ mark :: rest = first :: second :: behind) :
    first = mark ∨ second = mark ∨ ∃ others, front ++ more = first :: second :: others := by
  cases front with
  | nil =>
      cases startsWith
      exact .inl rfl
  | cons head front =>
      cases front with
      | nil =>
          cases startsWith
          exact .inr (.inl rfl)
      | cons next front =>
          cases startsWith
          exact .inr (.inr ⟨front ++ more, rfl⟩)

/-- The longest token is still the longest when layout comes closer.  Only the name of a
macro needs the character that directly follows it. -/
theorem IsLongest.of_layout {before front more text : List Char} {kind : Kind}
    (longest : IsLongest before (front ++ more) kind text)
    (noMacro : front = [] → kind ≠ .macroName) {mark : Char} (isMark : mark ∈ layoutStarts)
    (rest : List Char) : IsLongest before (front ++ mark :: rest) kind text := by
  rcases mark_of_mem_layoutStarts isMark with ⟨noWord, noDigit, noSign⟩
  simp only [List.mem_cons, List.not_mem_nil, or_false, not_or] at noSign
  rcases noSign with ⟨noBang, noOpening, noPoint, noEquality⟩
  have heads : ∀ char ∈ (front ++ mark :: rest).head?, char = mark ∨ char ∈ (front ++ more).head? :=
    head?_of_front rest
  cases kind with
  | ident =>
      rcases longest with ⟨shape, noLetter, stops, notMacro⟩
      refine ⟨shape, noLetter, ?_, ?_⟩
      · intro char isFirst
        rcases heads char isFirst with rfl | isFirst
        · exact noWord
        · exact stops char isFirst
      · intro behind startsWith
        rcases second_of_front more startsWith with isMark | isMark | ⟨others, startsWith⟩
        · exact noBang isMark.symm
        · exact noOpening isMark.symm
        · exact notMacro others startsWith
  | macroName =>
      rcases longest with ⟨shape, noLetter, opens⟩
      refine ⟨shape, noLetter, ?_⟩
      cases front with
      | nil => exact absurd rfl (noMacro rfl)
      | cons first front => exact opens
  | number =>
      rcases longest with ⟨noWordBefore, stops, shapes⟩
      refine ⟨noWordBefore, ?_, ?_⟩
      · intro char isFirst
        rcases heads char isFirst with rfl | isFirst
        · exact noDigit
        · exact stops char isFirst
      · rcases shapes with ⟨shape, noFraction⟩ | decimal
        · refine .inl ⟨shape, ?_⟩
          intro digit behind startsWith
          rcases second_of_front more startsWith with
            isMark | rfl | ⟨others, startsWith⟩
          · exact absurd isMark.symm noPoint
          · exact noDigit
          · exact noFraction digit others startsWith
        · exact .inr decimal
  | assign | less | greater =>
      rcases longest with ⟨textEq, notLonger⟩
      refine ⟨textEq, ?_⟩
      intro isEquality
      rcases heads _ isEquality with isMark | isFirst
      · exact noEquality isMark.symm
      · exact notLonger isFirst
  | _ => exact longest

end Lexeme

open Lexeme

/-! ## More layout -/

namespace Skippable

/-- Whether layout can be skipped depends on the first character behind it. -/
theorem of_head {depth : Nat} {layout after other : List Char}
    (skippable : Skippable depth layout after) (sameHead : other.head? = after.head?) :
    Skippable depth layout other := by
  induction skippable with
  | nil => exact .nil
  | blank isBlank _ ih => exact .blank isBlank (ih sameHead)
  | lineEnd inBrackets _ ih => exact .lineEnd inBrackets (ih sameHead)
  | @comment body layout after sameLine ends _ ih =>
      refine .comment sameLine ?_ (ih sameHead)
      rwa [List.head?_append, sameHead, ← List.head?_append]

/-- In front of a line end, layout may also be part of a comment. -/
theorem inComment {depth : Nat} {layout after : List Char}
    (skippable : Skippable depth layout after) (lineEnd : ∀ char ∈ after.head?, char = '\n') :
    InComment depth layout after := by
  induction skippable with
  | nil => exact .of_lineEnd .nil lineEnd
  | @blank char layout after isBlank _ ih =>
      refine (ih lineEnd).cons ?_
      rintro rfl
      exact absurd isBlank (by decide)
  | lineEnd inBrackets rest _ =>
      refine .of_lineEnd (.lineEnd inBrackets rest) ?_
      rintro char ⟨⟩
      rfl
  | @comment body layout after sameLine ends rest _ =>
      refine ⟨'#' :: body, layout, rfl, ?_, ends, rest⟩
      rw [List.mem_cons, not_or]
      exact ⟨by decide, sameLine⟩

/-- Layout and more layout.  A comment in the first that runs up to its end goes on in
the second. -/
theorem append {depth : Nat} {layout more after : List Char}
    (first : Skippable depth layout after) (second : Skippable depth more after) :
    Skippable depth (layout ++ more) after := by
  induction first with
  | nil => exact second
  | blank isBlank _ ih => exact .blank isBlank (ih second)
  | lineEnd inBrackets _ ih => exact .lineEnd inBrackets (ih second)
  | @comment body layout after sameLine ends _ ih =>
      rw [List.append_assoc]
      cases layout with
      | nil =>
          rcases second.inComment ends with ⟨rest, others, rfl, restSameLine, restEnds, skippable⟩
          rw [List.nil_append, ← List.append_assoc, List.cons_append]
          refine .comment ?_ restEnds skippable
          rw [List.mem_append, not_or]
          exact ⟨sameLine, restSameLine⟩
      | cons char layout => exact .comment sameLine ends (ih second)

/-- Layout starts with one of five characters. -/
theorem head_mem_layoutStarts {depth : Nat} {layout after : List Char}
    (skippable : Skippable depth layout after) : ∀ char ∈ layout.head?, char ∈ layoutStarts := by
  cases skippable with
  | nil =>
      rintro _ ⟨⟩
  | @blank char _ _ isBlank =>
      rintro _ ⟨⟩
      have starts : blanks ⊆ layoutStarts := by decide
      exact starts isBlank
  | lineEnd =>
      rintro _ ⟨⟩
      decide
  | comment =>
      rintro _ ⟨⟩
      decide

end Skippable

/-! ## The tokens on both sides -/

theorem scan_skippable {depth : Nat} {layout after : List Char}
    (skippable : Skippable depth layout after)
    (starts : ∀ first ∈ after.head?, StartsToken depth first) :
    scan depth (layout ++ after) = scan depth after := by
  have withLayout := congrArg Prod.snd (skippable.spanLayout_eq starts)
  cases after with
  | nil => rw [scan_of_end withLayout, scan_nil]
  | cons first rest => rw [scan_of_read withLayout, scan_of_start (starts first rfl) rfl]

namespace Cursor

/-- The token that a cursor faces is read as before when layout comes closer. -/
theorem Faces.scan_eq {cursor : Cursor} {layout rest front more : List Char} {first : Char}
    (faces : cursor.Faces layout (first :: rest)) (restEq : cursor.next.2.rest = front ++ more)
    (noMacro : front = [] → cursor.next.1.kind ≠ .macroName) {mark : Char}
    (isMark : mark ∈ layoutStarts) (behind : List Char) :
    scan cursor.depth (layout ++ ((read first rest).covered ++ (front ++ mark :: behind))) =
      cursor.next.1.content :: scan cursor.next.2.depth (front ++ mark :: behind) := by
  simp only [faces.next_eq_read] at restEq noMacro ⊢
  have longest := (cuts_read (seam_nil (first :: rest))).2
  have covered := covered_append_rest first rest
  rw [restEq] at longest
  cases coveredEq : (read first rest).covered with
  | nil => exact absurd coveredEq (covered_read_ne_nil first rest)
  | cons char tail =>
      rw [coveredEq, List.cons_append] at covered
      rcases List.cons.inj covered with ⟨rfl, -⟩
      have readEq := (longest.of_layout noMacro isMark behind).read_eq coveredEq
      have skippable : Skippable cursor.depth layout
          (char :: (tail ++ (front ++ mark :: behind))) :=
        faces.skippable.of_head rfl
      rw [List.cons_append, scan_skippable skippable faces.starts,
        scan_of_start (faces.starts char rfl) readEq]
      simp only [Token.content, String.toList_ofList]

namespace Passes

variable {cursor after : Cursor} {tokens : List Token}

/-- The tokens that are passed are read as before when layout comes closer.  The last of
them is not the name of a macro, which would have to stand directly in front of its
parenthesis. -/
theorem scan_eq (passes : Passes cursor tokens after)
    (noMacro : ∀ last ∈ tokens.getLast?, last.kind ≠ .macroName) {passed : List Char}
    (restEq : cursor.rest = passed ++ after.rest) {mark : Char} (isMark : mark ∈ layoutStarts)
    (behind : List Char) :
    scan cursor.depth (passed ++ mark :: behind) =
      tokens.map Token.content ++ scan after.depth (mark :: behind) := by
  induction passes generalizing passed with
  | done cursor =>
      rw [List.self_eq_append_left.1 restEq]
      rfl
  | @token cursor after tokens notEnd rest ih =>
      rcases exists_faces_of_ne_eof notEnd with ⟨layout, first, text, faces⟩
      rcases rest.exists_passed with ⟨front, frontEq, -⟩
      have passedEq : passed = layout ++ ((read first text).covered ++ front) := by
        rw [faces.parts, ← covered_append_rest first text] at restEq
        simp only [faces.next_eq_read] at frontEq
        rw [frontEq] at restEq
        rw [← List.append_left_inj after.rest, ← restEq]
        simp only [List.append_assoc]
      -- Without text up to the layout there are no further tokens.
      have lastOfEmpty : front = [] → tokens = [] := by
        intro isEmpty
        have bound := rest.length_le
        rw [frontEq, isEmpty, List.nil_append] at bound
        exact List.length_eq_zero_iff.1 (by omega)
      have noMacroHere : front = [] → cursor.next.1.kind ≠ .macroName := by
        intro isEmpty
        rw [lastOfEmpty isEmpty] at noMacro
        exact noMacro _ rfl
      have noMacroLater : ∀ last ∈ tokens.getLast?, last.kind ≠ .macroName := by
        intro last isLast
        apply noMacro
        rw [List.getLast?_cons, isLast]
        rfl
      rw [passedEq, List.append_assoc, List.append_assoc,
        faces.scan_eq frontEq noMacroHere isMark, ih noMacroLater frontEq, List.map_cons,
        List.cons_append]

/-- The name of a macro stands directly in front of its parenthesis. -/
theorem head?_of_macro (passes : Passes cursor tokens after) {last : Token}
    (isLast : last ∈ tokens.getLast?) (isMacro : last.kind = .macroName) :
    after.rest.head? = some '(' := by
  induction passes with
  | done => cases isLast
  | @token cursor after tokens notEnd rest ih =>
      cases rest with
      | done =>
          rcases exists_faces_of_ne_eof notEnd with ⟨layout, first, text, faces⟩
          rw [List.getLast?_singleton, Option.mem_some_iff] at isLast
          subst isLast
          have longest := (cuts_read (seam_nil (first :: text))).2
          simp only [faces.next_eq_read] at isMacro ⊢
          rw [isMacro] at longest
          exact longest.2.2
      | token notEnd rest =>
          rw [List.getLast?_cons_cons] at isLast
          exact ih isLast

/-- The name of a macro is not the last token of a line. -/
theorem kind_ne_macroName (passes : Passes cursor tokens after) {layout ahead : List Char}
    (faces : after.Faces layout ahead) (ends : ∀ char ∈ ahead.head?, char = '\n') :
    ∀ last ∈ tokens.getLast?, last.kind ≠ .macroName := by
  intro last isLast isMacro
  have opens := passes.head?_of_macro isLast isMacro
  rw [faces.parts] at opens
  cases layout with
  | nil => exact absurd (ends _ opens) (by decide)
  | cons char layout =>
      have isLayout := faces.skippable.head_mem_layoutStarts _ opens
      exact absurd isLayout (by decide)

end Passes

/-- In front of a line end that is a token and of the end mark, the line ends. -/
theorem Faces.ends {cursor : Cursor} {layout ahead : List Char}
    (faces : cursor.Faces layout ahead)
    (isEnd : cursor.next.1.kind = .newline ∨ cursor.next.1.kind = .eof) :
    ∀ char ∈ ahead.head?, char = '\n' := by
  cases ahead with
  | nil =>
      rintro char ⟨⟩
  | cons first rest =>
      rintro char ⟨⟩
      simp only [faces.next_eq_read] at isEnd
      rcases isEnd with isLineEnd | isEnd
      · exact first_of_newline isLineEnd
      · exact absurd isEnd (kind_read_ne_eof first rest)

end Cursor

/-! ## Insertion -/

/-- A text with more put in where a token starts. -/
def insertBefore (token : Token) (inserted text : List Char) : List Char :=
  text.take token.start.offset.toNat ++ (inserted ++ text.drop token.start.offset.toNat)

/-- Whether two texts have tokens of the same kinds with the same texts. -/
def SameTokens (file : String) (left right : List Char) : Prop :=
  (tokenize file left).map Token.content = (tokenize file right).map Token.content

/-- Layout that may stand anywhere inside brackets: a blank, a line end, or a comment with
the line end behind it. -/
def IsInnerLayout (piece : List Char) : Prop :=
  (∃ blank ∈ blanks, piece = [blank]) ∨ piece = ['\n'] ∨
    ∃ body, '\n' ∉ body ∧ '\x00' ∉ body ∧ piece = '#' :: body ++ ['\n']

theorem skippable_of_blanks (depth : Nat) {layout : List Char}
    (allBlank : ∀ char ∈ layout, char ∈ blanks) (after : List Char) :
    Skippable depth layout after := by
  induction layout with
  | nil => exact .nil
  | cons char layout ih =>
      rw [List.forall_mem_cons] at allBlank
      exact .blank allBlank.1 (ih allBlank.2)

theorem IsInnerLayout.skippable {depth : Nat} (inBrackets : 0 < depth) {piece : List Char}
    (isLayout : IsInnerLayout piece) (after : List Char) : Skippable depth piece after := by
  rcases isLayout with ⟨blank, isBlank, rfl⟩ | rfl | ⟨body, sameLine, -, rfl⟩
  · exact .blank isBlank .nil
  · exact .lineEnd inBrackets .nil
  · refine .comment sameLine ?_ (.lineEnd inBrackets .nil)
    rintro char ⟨⟩
    rfl

theorem IsInnerLayout.skippable_flatten {depth : Nat} (inBrackets : 0 < depth)
    {pieces : List (List Char)} (areLayout : ∀ piece ∈ pieces, IsInnerLayout piece)
    (after : List Char) : Skippable depth pieces.flatten after := by
  induction pieces with
  | nil => exact .nil
  | cons piece pieces ih =>
      rw [List.forall_mem_cons] at areLayout
      exact (areLayout.1.skippable inBrackets after).append (ih areLayout.2)

theorem IsInnerLayout.noNul {piece : List Char} (isLayout : IsInnerLayout piece) :
    '\x00' ∉ piece := by
  rcases isLayout with ⟨blank, isBlank, rfl⟩ | rfl | ⟨body, -, noNul, rfl⟩
  · rw [List.mem_singleton]
    rintro rfl
    exact absurd isBlank (by decide)
  · decide
  · simp [noNul]

/-- Where text is put in, the characters ahead go on with it. -/
theorem rest_insertBefore {file : String} {text front ahead inserted : List Char} {token : Token}
    (placed : token.start = .behind front) (restEq : (ofText file text).rest = front ++ ahead)
    (noNul : '\x00' ∉ inserted) :
    (ofText file (insertBefore token inserted text)).rest = front ++ (inserted ++ ahead) := by
  have offsetEq : token.start.offset.toNat = front.length := by
    rw [placed]
    exact Int.toNat_natCast _
  have parts := List.takeWhile_append_dropWhile (p := (· ≠ '\x00')) (l := text)
  change text.takeWhile (· ≠ '\x00') = front ++ ahead at restEq
  have noNulFront : '\x00' ∉ front := by
    intro isNul
    have isChar : '\x00' ∈ text.takeWhile (· ≠ '\x00') := by
      rw [restEq]
      exact List.mem_append_left _ isNul
    simpa using forall_mem_takeWhile _ text _ isChar
  rw [restEq, List.append_assoc] at parts
  unfold insertBefore
  rw [offsetEq, ← parts, List.take_left, List.drop_left]
  change List.takeWhile _ _ = _
  rw [takeWhile_ne_append noNulFront, takeWhile_ne_append noNul]
  rw [← parts, takeWhile_ne_append noNulFront] at restEq
  rw [List.append_cancel_left restEq]

namespace Cursor

/-- The tokens on both sides of layout. -/
theorem Passes.scan_layout {cursor after : Cursor} {tokens : List Token}
    (passes : Passes cursor tokens after)
    (noMacro : ∀ last ∈ tokens.getLast?, last.kind ≠ .macroName)
    {passed layout ahead : List Char} (restEq : cursor.rest = passed ++ after.rest)
    (notEmpty : layout ≠ []) (skippable : Skippable after.depth layout ahead)
    (starts : ∀ first ∈ ahead.head?, StartsToken after.depth first) :
    scan cursor.depth (passed ++ (layout ++ ahead)) =
      tokens.map Token.content ++ scan after.depth ahead := by
  rw [← scan_skippable skippable starts]
  cases layout with
  | nil => exact absurd rfl notEmpty
  | cons mark layout =>
      exact passes.scan_eq noMacro restEq (skippable.head_mem_layoutStarts mark rfl) _

end Cursor

/-- Layout put in front of a token leaves the kinds and texts of all tokens as they
are. -/
theorem exists_sameTokens_insertBefore {file : String} {text : List Char}
    {front late : List Token} {token : Token}
    (tokensEq : tokenize file text = front ++ token :: late) :
    ∃ after layout ahead, Passes (.ofText file text) front after ∧
      after.Faces layout ahead ∧ after.next.1 = token ∧
      ∀ inserted, '\x00' ∉ inserted → (∀ last ∈ front.getLast?, last.kind ≠ .macroName) →
        Skippable after.depth inserted ahead →
          SameTokens file (insertBefore token inserted text) text := by
  rcases exists_faces_of_tokenize tokensEq with
    ⟨after, passed, layout, ahead, passes, faces, tokenEq, restEq, placed⟩
  refine ⟨after, layout, ahead, passes, faces, tokenEq, ?_⟩
  intro inserted noNul noMacro skippable
  rw [← List.append_assoc] at restEq
  have insertedEq := rest_insertBefore placed restEq noNul
  rw [List.append_assoc] at restEq
  unfold SameTokens tokenize
  rw [content_tokens, insertedEq]
  cases allEq : layout ++ inserted with
  | nil =>
      rcases List.append_eq_nil_iff.1 allEq with ⟨rfl, rfl⟩
      rw [content_tokens, restEq, List.append_assoc]
      rfl
  | cons mark more =>
      have notEmpty : layout ++ inserted ≠ [] := by
        rw [allEq]
        exact List.cons_ne_nil _ _
      rw [passes.tokens_eq, List.map_append, content_tokens, faces.parts,
        scan_skippable faces.skippable faces.starts, List.append_assoc, ← List.append_assoc layout]
      rw [← faces.parts] at restEq
      exact passes.scan_layout noMacro restEq notEmpty (faces.skippable.append skippable)
        faces.starts

/-- Layout between tokens is irrelevant: the kinds and texts of all tokens stay the same when
blanks are put in front of any token that does not stand directly behind the name of a macro,
when any layout is put there inside brackets, and when a comment is put in front of a line end
that is a token or at the end of the text. -/
theorem layout_between_tokens_is_irrelevant (file : String) (text : List Char)
    (front late : List Token) (token : Token)
    (tokensEq : tokenize file text = front ++ token :: late) :
    ((∀ last ∈ front.getLast?, last.kind ≠ .macroName) →
      (∀ inserted, (∀ char ∈ inserted, char ∈ [' ', '\t', '\r']) →
        SameTokens file (insertBefore token inserted text) text) ∧
      (0 < depthBehind 0 front →
        ∀ pieces : List (List Char), (∀ piece ∈ pieces, IsInnerLayout piece) →
          SameTokens file (insertBefore token pieces.flatten text) text)) ∧
    (token.kind = .newline ∨ token.kind = .eof →
      ∀ body, '\n' ∉ body → '\x00' ∉ body →
        SameTokens file (insertBefore token ('#' :: body) text) text) := by
  rcases exists_sameTokens_insertBefore tokensEq with
    ⟨after, layout, ahead, passes, faces, tokenEq, unchanged⟩
  have depthEq : after.depth = depthBehind 0 front := passes.depth_eq
  refine ⟨fun noMacro => ⟨?_, ?_⟩, ?_⟩
  · intro inserted allBlank
    apply unchanged inserted _ noMacro (skippable_of_blanks _ allBlank ahead)
    intro isNul
    exact absurd (allBlank _ isNul) (by decide)
  · intro inBrackets pieces areLayout
    rw [← depthEq] at inBrackets
    apply unchanged _ _ noMacro (IsInnerLayout.skippable_flatten inBrackets areLayout ahead)
    intro isNul
    rcases List.mem_flatten.1 isNul with ⟨piece, isPiece, isNul⟩
    exact (areLayout piece isPiece).noNul isNul
  · intro isEnd body sameLine noNul
    rw [← tokenEq] at isEnd
    have ends := faces.ends isEnd
    apply unchanged _ _ (passes.kind_ne_macroName faces ends)
    · have skippable : Skippable after.depth ('#' :: body ++ []) ahead :=
        .comment sameLine ends .nil
      rwa [List.append_nil] at skippable
    · rw [List.mem_cons, not_or]
      exact ⟨by decide, noNul⟩

theorem layout_between_tokens_is_irrelevant_in_call :
    SameTokens "calc" "f( #y)\n\n\tx)\n".toList "f(x)\n".toList ∧
      SameTokens "calc" "f(x)#(\n".toList "f(x)\n".toList := by
  have tokensEq : tokenize "calc" "f(x)\n".toList =
      [⟨.ident, "f", "calc", ⟨0, 1, 1⟩⟩, ⟨.lparen, "(", "calc", ⟨1, 1, 2⟩⟩,
        ⟨.ident, "x", "calc", ⟨2, 1, 3⟩⟩, ⟨.rparen, ")", "calc", ⟨3, 1, 4⟩⟩,
        ⟨.newline, "\n", "calc", ⟨4, 1, 5⟩⟩, ⟨.eof, "", "calc", ⟨5, 2, 1⟩⟩] := by
    with_unfolding_all rfl
  constructor
  · have noMacro : ∀ last ∈ [⟨.ident, "f", "calc", ⟨0, 1, 1⟩⟩,
        (⟨.lparen, "(", "calc", ⟨1, 1, 2⟩⟩ : Token)].getLast?, last.kind ≠ .macroName := by
      rintro last ⟨⟩
      decide
    have irrelevant := (layout_between_tokens_is_irrelevant "calc" "f(x)\n".toList
      _ _ ⟨.ident, "x", "calc", ⟨2, 1, 3⟩⟩ tokensEq).1 noMacro
    have areLayout : ∀ piece ∈ [[' '], "#y)\n".toList, ['\n'], ['\t']], IsInnerLayout piece := by
      rw [List.forall_mem_cons, List.forall_mem_cons, List.forall_mem_cons,
        List.forall_mem_singleton]
      exact ⟨.inl ⟨' ', by decide, rfl⟩,
        .inr (.inr ⟨"y)".toList, by decide, by decide, rfl⟩), .inr (.inl rfl),
        .inl ⟨'\t', by decide, rfl⟩⟩
    exact irrelevant.2 (by decide) _ areLayout
  · have irrelevant := (layout_between_tokens_is_irrelevant "calc" "f(x)\n".toList
      [_, _, _, _] _ ⟨.newline, "\n", "calc", ⟨4, 1, 5⟩⟩ tokensEq).2 (.inl rfl)
    exact irrelevant ['('] (by decide) (by decide)

end GraphCalc
