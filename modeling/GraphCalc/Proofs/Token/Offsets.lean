import GraphCalc.Proofs.Token.Tiling

/-!
# Tokens account for the text

The tokens of a text cover ranges of offsets that follow each other.  The
characters under a token are its text, those that no token covers are blanks,
line ends inside brackets, or comments, and the line and the column of a token
are found by counting the characters before it.
-/

namespace GraphCalc

open Cursor Lexeme

/-- Whether the character at an offset belongs to a token. -/
def Token.Covers (token : Token) (offset : Nat) : Prop :=
  token.start.offset ≤ offset ∧ offset < token.stop.offset

/-- The number of open brackets at an offset: behind the tokens that start
before it. -/
def openBrackets (tokens : List Token) (offset : Nat) : Nat :=
  depthBehind 0 (tokens.filter fun token => token.start.offset < offset)

/-- A comment runs from its sign up to the next line end or the end of the
text. -/
structure IsComment (text : List Char) (first last : Nat) : Prop where
  starts : text[first]? = some '#'
  sameLine : ∀ place, first ≤ place → place < last → text[place]? ≠ some '\n'
  ends : last = text.length ∨ text[last]? = some '\n'

/-- Tokens account for every character of a text: they follow each other
without overlap, each one covers its own spelling, has its place and is as long
as can be, and whatever lies between them is a blank, a line end inside
brackets, or part of a comment that no token reaches into. -/
structure Accounts (text : List Char) (tokens : List Token) : Prop where
  ordered : tokens.Pairwise fun left right => left.stop.offset ≤ right.start.offset
  inside : ∀ token ∈ tokens, 0 ≤ token.start.offset ∧
    token.start.offset < token.stop.offset ∧ token.stop.offset ≤ text.length
  spelled : ∀ token ∈ tokens,
    text.extract token.start.offset.toNat token.stop.offset.toNat = token.spelling
  longest : ∀ token ∈ tokens,
    IsLongest (text.take token.start.offset.toNat) (text.drop token.stop.offset.toNat)
      token.kind token.text.toList
  placed : ∀ token ∈ tokens, token.start = .behind (text.take token.start.offset.toNat)
  skipped : ∀ offset < text.length, (∀ token ∈ tokens, ¬token.Covers offset) →
    (∃ blank ∈ blanks, text[offset]? = some blank) ∨
    (text[offset]? = some '\n' ∧ 0 < openBrackets tokens offset) ∨
    ∃ first last, IsComment text first last ∧ first ≤ offset ∧ offset < last ∧
      ∀ place, first ≤ place → place < last → ∀ token ∈ tokens, ¬token.Covers place

/-! ### Layout by offsets -/

theorem isComment_of_body {body after : List Char} (sameLine : '\n' ∉ body)
    (ends : ∀ char ∈ after.head?, char = '\n') :
    IsComment ('#' :: body ++ after) 0 ('#' :: body).length where
  starts := rfl
  sameLine := by
    intro place _ inComment isLineEnd
    rw [List.getElem?_append_left inComment] at isLineEnd
    rcases List.mem_cons.1 (List.mem_of_getElem? isLineEnd) with isSign | inBody
    · cases isSign
    · exact sameLine inBody
  ends := by
    rw [List.length_append, List.getElem?_append_right (Nat.le_refl _), Nat.sub_self]
    cases after with
    | nil => exact .inl rfl
    | cons char after => exact .inr (congrArg some (ends char rfl))

theorem IsComment.append_left {text : List Char} {first last : Nat}
    (isComment : IsComment text first last) (front : List Char) :
    IsComment (front ++ text) (front.length + first) (front.length + last) where
  starts := by
    rw [List.getElem?_append_right (Nat.le_add_right _ _), Nat.add_sub_cancel_left]
    exact isComment.starts
  sameLine := by
    intro place fromFirst toLast
    rw [List.getElem?_append_right (by omega)]
    exact isComment.sameLine _ (by omega) (by omega)
  ends := by
    rw [List.length_append, List.getElem?_append_right (Nat.le_add_right _ _),
      Nat.add_sub_cancel_left, Nat.add_left_cancel_iff]
    exact isComment.ends

/-- Why the character at an index of a text may be skipped; if it is part of a
comment, the comment ends no later than at the bound. -/
def SkippedAt (depth bound : Nat) (text : List Char) (index : Nat) : Prop :=
  (∃ blank ∈ blanks, text[index]? = some blank) ∨
  (text[index]? = some '\n' ∧ 0 < depth) ∨
  ∃ first last, IsComment text first last ∧ first ≤ index ∧ index < last ∧ last ≤ bound

theorem SkippedAt.append_left {depth bound index : Nat} {text : List Char}
    (skipped : SkippedAt depth bound text index) (front : List Char) :
    SkippedAt depth (front.length + bound) (front ++ text) (front.length + index) := by
  have sameChar : (front ++ text)[front.length + index]? = text[index]? := by
    rw [List.getElem?_append_right (Nat.le_add_right _ _), Nat.add_sub_cancel_left]
  unfold SkippedAt
  rw [sameChar]
  rcases skipped with isBlank | isLineEnd | ⟨first, last, isComment, fromFirst, toLast, bounded⟩
  · exact .inl isBlank
  · exact .inr (.inl isLineEnd)
  · exact .inr (.inr ⟨_, _, isComment.append_left front, by omega, by omega, by omega⟩)

/-- Every character of layout may be skipped for one of three reasons. -/
theorem Skippable.skippedAt {depth : Nat} {layout after : List Char}
    (skippable : Skippable depth layout after) {index : Nat} (inLayout : index < layout.length) :
    SkippedAt depth layout.length (layout ++ after) index := by
  induction skippable generalizing index with
  | nil => cases inLayout
  | @blank char layout after isBlank _ ih =>
      cases index with
      | zero => exact .inl ⟨char, isBlank, rfl⟩
      | succ index =>
          have rest := (ih (Nat.lt_of_succ_lt_succ inLayout)).append_left [char]
          simpa [Nat.add_comm] using rest
  | @lineEnd layout after inBrackets _ ih =>
      cases index with
      | zero => exact .inr (.inl ⟨rfl, inBrackets⟩)
      | succ index =>
          have rest := (ih (Nat.lt_of_succ_lt_succ inLayout)).append_left ['\n']
          simpa [Nat.add_comm] using rest
  | @comment body layout after sameLine ends _ ih =>
      rw [List.append_assoc, List.length_append]
      by_cases inComment : index < ('#' :: body).length
      · exact .inr (.inr ⟨0, _, isComment_of_body sameLine ends, Nat.zero_le _, inComment,
          Nat.le_add_right _ _⟩)
      · rw [Nat.not_lt] at inComment
        have inRest : index - ('#' :: body).length < layout.length := by
          rw [List.length_append] at inLayout
          omega
        have rest := (ih inRest).append_left ('#' :: body)
        rwa [Nat.add_sub_of_le inComment] at rest

/-! ### Tilings by offsets -/

/-- A token that stands behind a text covers the offsets behind it. -/
theorem Token.offsets {token : Token} {front : List Char} (placed : token.start = .behind front) :
    token.start.offset = front.length ∧
      token.stop.offset = (front.length + token.spelling.length : Nat) := by
  unfold stop Position.right
  rw [placed, token.width_eq_length_spelling]
  exact ⟨rfl, rfl⟩

/-- A gap of layout in a text between the tokens before and behind it. -/
structure IsGap (depth : Nat) (text : List Char) (early late : List Token)
    (front layout after : List Char) : Prop where
  parts : text = front ++ (layout ++ after)
  skippable : Skippable (depthBehind depth early) layout after
  early : ∀ token ∈ early, token.start.offset < token.stop.offset ∧
    token.stop.offset ≤ front.length
  late : ∀ token ∈ late, (front.length + layout.length : Nat) ≤ token.start.offset

namespace IsGap

variable {depth : Nat} {text : List Char} {early late : List Token}
  {front layout after : List Char} {offset : Nat}

theorem uncovered (isGap : IsGap depth text early late front layout after)
    (fromFront : front.length ≤ offset) (inLayout : offset < front.length + layout.length) :
    ∀ token ∈ early ++ late, ¬token.Covers offset := by
  intro token isToken covers
  rcases List.mem_append.1 isToken with isEarly | isLate
  · have bound := (isGap.early token isEarly).2
    have inToken := covers.2
    omega
  · have bound := isGap.late token isLate
    have inToken := covers.1
    omega

/-- Inside a gap the brackets of the tokens before it are open. -/
theorem openBrackets_eq (isGap : IsGap 0 text early late front layout after)
    (fromFront : front.length ≤ offset) (inLayout : offset < front.length + layout.length) :
    openBrackets (early ++ late) offset = depthBehind 0 early := by
  have allEarly : early.filter (fun token => token.start.offset < (offset : Int)) = early := by
    rw [List.filter_eq_self]
    intro token isEarly
    have bound := isGap.early token isEarly
    rw [decide_eq_true_iff]
    omega
  have noLate : late.filter (fun token => token.start.offset < (offset : Int)) = [] := by
    rw [List.filter_eq_nil_iff]
    intro token isLate
    have bound := isGap.late token isLate
    rw [decide_eq_true_iff]
    omega
  rw [openBrackets, List.filter_append, allEarly, noLate, List.append_nil]

end IsGap

namespace Tiled

variable {before text : List Char} {depth : Nat} {tokens : List Token}

/-- Every token of a tiling stands behind some text, in front of some other. -/
theorem stands (tiled : Tiled before depth text tokens) :
    ∀ token ∈ tokens, ∃ front after, before ++ text = front ++ (token.spelling ++ after) ∧
      before.length ≤ front.length ∧ token.spelling ≠ [] ∧ token.start = .behind front ∧
      IsLongest front after token.kind token.text.toList := by
  induction tiled with
  | done => exact List.forall_mem_nil _
  | @token before layout after depth token tokens _ visible placed longest _ ih =>
      rw [List.forall_mem_cons]
      constructor
      · refine ⟨before ++ layout, after, ?_, ?_, visible, placed, longest⟩
        · rw [List.append_assoc]
        · rw [List.length_append]
          exact Nat.le_add_right _ _
      · intro other isOther
        rcases ih other isOther with ⟨front, behind, textEq, bound, rest⟩
        refine ⟨front, behind, ?_, ?_, rest⟩
        · rw [← textEq]
          simp
        · simp only [List.length_append] at bound
          omega

theorem start_le (tiled : Tiled before depth text tokens) :
    ∀ token ∈ tokens, before.length ≤ token.start.offset := by
  intro token isToken
  rcases tiled.stands token isToken with ⟨front, _, _, bound, _, placed, _⟩
  rw [placed]
  exact Int.ofNat_le.2 bound

theorem ordered (tiled : Tiled before depth text tokens) :
    tokens.Pairwise fun left right => left.stop.offset ≤ right.start.offset := by
  induction tiled with
  | done => exact .nil
  | @token before layout after depth token tokens _ _ placed _ rest ih =>
      refine .cons ?_ ih
      intro other isOther
      have bound := rest.start_le other isOther
      rw [List.length_append] at bound
      rw [(Token.offsets placed).2]
      exact bound

/-- A character ahead is covered by a token, or it stands in a gap between the
tokens before and behind it. -/
theorem locate (tiled : Tiled before depth text tokens) {offset : Nat}
    (ahead : before.length ≤ offset) (inText : offset < (before ++ text).length) :
    (∃ token ∈ tokens, token.Covers offset) ∨
    ∃ early late front layout after, tokens = early ++ late ∧
      IsGap depth (before ++ text) early late front layout after ∧
      before.length ≤ front.length ∧ front.length ≤ offset ∧
      offset < front.length + layout.length := by
  induction tiled with
  | @done before layout depth skippable =>
      refine .inr ⟨[], [], before, layout, [], rfl, ⟨?_, skippable, List.forall_mem_nil _,
        List.forall_mem_nil _⟩, Nat.le_refl _, ahead, ?_⟩
      · rw [List.append_nil]
      · rwa [List.length_append] at inText
  | @token before layout after depth token tokens skippable visible placed _ rest ih =>
      have wide := List.length_pos_iff.2 visible
      rcases Token.offsets placed with ⟨start, stop⟩
      rw [List.length_append] at start stop
      -- The offset is in the layout in front of the token, in the token, or behind it.
      by_cases inLayout : offset < before.length + layout.length
      · refine .inr ⟨[], token :: tokens, before, layout, token.spelling ++ after, rfl,
          ⟨rfl, skippable, List.forall_mem_nil _, ?_⟩, Nat.le_refl _, ahead, inLayout⟩
        rw [List.forall_mem_cons]
        constructor
        · exact Int.le_of_eq start.symm
        · intro other isOther
          have bound := rest.start_le other isOther
          simp only [List.length_append] at bound
          omega
      · by_cases covered : offset < before.length + layout.length + token.spelling.length
        · refine .inl ⟨token, List.mem_cons_self, ?_, ?_⟩
          · rw [start]
            omega
          · rw [stop]
            omega
        · have restAhead : (before ++ layout ++ token.spelling).length ≤ offset := by
            simp only [List.length_append]
            omega
          have restInText : offset < (before ++ layout ++ token.spelling ++ after).length := by
            simpa [Nat.add_assoc] using inText
          rcases ih restAhead restInText with ⟨other, isOther, covers⟩ |
            ⟨early, late, front, gap, behind, tokensEq, isGap, bound, inGap⟩
          · exact .inl ⟨other, List.mem_cons_of_mem _ isOther, covers⟩
          · simp only [List.length_append] at bound
            refine .inr ⟨token :: early, late, front, gap, behind, ?_,
              ⟨?_, isGap.skippable, ?_, isGap.late⟩, ?_, inGap⟩
            · rw [tokensEq, List.cons_append]
            · rw [← isGap.parts]
              simp
            · rw [List.forall_mem_cons]
              refine ⟨?_, isGap.early⟩
              rw [start, stop]
              omega
            · omega

/-- The tokens of a tiling account for the whole text. -/
theorem accounts (tiled : Tiled [] 0 text tokens) : Accounts text tokens where
  ordered := tiled.ordered
  inside := by
    intro token isToken
    rcases tiled.stands token isToken with ⟨front, after, rfl, _, visible, placed, _⟩
    have wide := List.length_pos_iff.2 visible
    rcases Token.offsets placed with ⟨start, stop⟩
    simp only [start, stop, List.length_append]
    omega
  spelled := by
    intro token isToken
    rcases tiled.stands token isToken with ⟨front, after, rfl, _, _, placed, _⟩
    rcases Token.offsets placed with ⟨start, stop⟩
    rw [start, stop, Int.toNat_natCast, Int.toNat_natCast]
    simp [List.extract_eq_take_drop]
  longest := by
    intro token isToken
    rcases tiled.stands token isToken with ⟨front, after, rfl, _, _, placed, longest⟩
    rcases Token.offsets placed with ⟨start, stop⟩
    rw [start, stop, Int.toNat_natCast, Int.toNat_natCast]
    simpa using longest
  placed := by
    intro token isToken
    rcases tiled.stands token isToken with ⟨front, after, rfl, _, _, placed, _⟩
    rw [(Token.offsets placed).1, placed, Int.toNat_natCast]
    simp
  skipped := by
    intro offset inText uncovered
    rcases tiled.locate (Nat.zero_le _) inText with ⟨token, isToken, covers⟩ |
      ⟨early, late, front, layout, after, rfl, isGap, _, fromFront, inLayout⟩
    · exact absurd covers (uncovered token isToken)
    · have parts : text = front ++ (layout ++ after) := isGap.parts
      have inGap : offset - front.length < layout.length := by omega
      have sameChar : text[offset]? = (layout ++ after)[offset - front.length]? := by
        rw [parts, List.getElem?_append_right fromFront]
      rw [sameChar]
      rcases isGap.skippable.skippedAt inGap with isBlank | ⟨isLineEnd, inBrackets⟩ |
        ⟨first, last, isComment, fromFirst, toLast, bounded⟩
      · exact .inl isBlank
      · rw [← isGap.openBrackets_eq fromFront inLayout] at inBrackets
        exact .inr (.inl ⟨isLineEnd, inBrackets⟩)
      · refine .inr (.inr ⟨front.length + first, front.length + last, ?_, by omega, by omega, ?_⟩)
        · rw [parts]
          exact isComment.append_left front
        · intro place fromComment inComment
          exact isGap.uncovered (by omega) (by omega)

end Tiled

theorem takeWhile_ne_eq_take (mark : Char) (text : List Char) :
    text.takeWhile (· ≠ mark) = text.take (text.idxOf mark) := by
  induction text with
  | nil => rfl
  | cons char text ih =>
      by_cases isMark : char = mark
      · simp [isMark]
      · rw [List.idxOf_cons, beq_false_of_ne isMark, cond_false, List.take_succ_cons, ← ih]
        simp [isMark]

/-- The tokens of a text account for everything up to its first NUL, or for all
of it if it has none, and the end mark stands just there. -/
theorem tokenize_accounts_for_text (file : String) (text : List Char) :
    let size := text.idxOf '\x00'
    let input := text.take size
    ∃ (tokens : List Token) (finish : Position),
      tokenize file text = tokens ++ [⟨.eof, "", file, finish⟩] ∧
      (∀ token ∈ tokens, token.kind ≠ .eof) ∧ Accounts input tokens ∧
      finish = .behind input ∧ finish.offset = size := by
  intro size input
  have inputEq : (Cursor.ofText file text).rest = input := takeWhile_ne_eq_take '\x00' text
  rcases Cursor.exists_tiled (.ofText file text) [] rfl (seam_nil _) with ⟨tokens, tokensEq, tiled⟩
  rw [inputEq] at tokensEq tiled
  refine ⟨tokens, .behind input, tokensEq, tiled.kind_ne_eof, tiled.accounts, rfl, ?_⟩
  rw [Position.behind, List.length_take, Nat.min_eq_left List.idxOf_le_length]

end GraphCalc
