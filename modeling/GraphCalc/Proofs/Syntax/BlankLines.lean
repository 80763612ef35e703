import GraphCalc.Proofs.Syntax.Acceptance
import GraphCalc.Proofs.Syntax.Places
import GraphCalc.Proofs.Syntax.Printed

/-!
# Blank lines

A line end behind another one, or in front of everything, makes a blank line and
nothing else.  So a token sequence is read as it would be without such line
ends, and two sequences that have the same kinds and texts without them are read
as the same statements up to spans, and as errors of the same wording.
-/

namespace GraphCalc

/-! ## Line ends that make blank lines -/

namespace Token

def isLineEnd (token : Token) : Bool :=
  token.kind = .newline

/-- A token sequence in which every run of line ends is cut down to its first. -/
def mergeLineEnds : List Token → List Token
  | [] => []
  | token :: rest =>
      token ::
        if token.isLineEnd then (mergeLineEnds rest).dropWhile isLineEnd
        else mergeLineEnds rest

/-- A token sequence without the line ends in front of everything, and with one
line end for every other run of them. -/
def withoutBlankLines (tokens : List Token) : List Token :=
  mergeLineEnds (tokens.dropWhile isLineEnd)

end Token

namespace Line

open Token

/-- What is read from some lines, blank ones apart. -/
def outcomes (lines : List Line) : List (Except SyntaxError Stmt) :=
  lines.filterMap read?

/-- Line ends in front of everything add no outcome. -/
theorem outcomes_split_dropWhile (tokens : List Token) :
    outcomes (split (tokens.dropWhile isLineEnd)) = outcomes (split tokens) := by
  induction tokens with
  | nil => rfl
  | cons token rest ih =>
      by_cases lineEnd : token.isLineEnd
      · have kindEq : token.kind = .newline := of_decide_eq_true lineEnd
        rw [List.dropWhile_cons_of_pos lineEnd, ih, split_cons_of_newline rest kindEq]
        rfl
      · rw [List.dropWhile_cons_of_neg lineEnd]

/-- What is read from some lines depends on the first line and on what is read
from the others. -/
theorem outcomes_congr {lines others : List Line} (heads : lines.head? = others.head?)
    (tails : outcomes lines.tail = outcomes others.tail) : outcomes lines = outcomes others := by
  have outcomes_eq : ∀ lines : List Line,
      outcomes lines = (lines.head?.bind read?).toList ++ outcomes lines.tail := by
    intro lines
    cases lines with
    | nil => rfl
    | cons line lines =>
        simp only [outcomes, List.filterMap_cons, List.head?_cons, Option.bind_some,
          List.tail_cons]
        cases line.read? with
        | none => rfl
        | some outcome => rfl
  rw [outcomes_eq lines, outcomes_eq others, heads, tails]

/-- Merging line ends keeps the first line and its end, and what is read from the
lines behind it.  The first line is kept as it is because the tokens in front of
it, in a longer sequence, belong to it. -/
theorem split_mergeLineEnds (tokens : List Token) :
    (split (mergeLineEnds tokens)).head? = (split tokens).head? ∧
      outcomes (split (mergeLineEnds tokens)).tail = outcomes (split tokens).tail := by
  induction tokens with
  | nil => exact ⟨rfl, rfl⟩
  | cons token rest ih =>
      rcases ih with ⟨heads, tails⟩
      rw [mergeLineEnds]
      by_cases lineEnd : token.isLineEnd
      · have kindEq : token.kind = .newline := of_decide_eq_true lineEnd
        rw [if_pos lineEnd, split_cons_of_newline _ kindEq, split_cons_of_newline _ kindEq]
        refine ⟨rfl, ?_⟩
        rw [List.tail_cons, List.tail_cons, outcomes_split_dropWhile]
        exact outcomes_congr heads tails
      · have kindNe : token.kind ≠ .newline := mt decide_eq_true lineEnd
        rw [if_neg lineEnd]
        by_cases atEnd : token.kind = .eof
        · rw [split_cons_of_eof _ atEnd, split_cons_of_eof _ atEnd]
          exact ⟨rfl, rfl⟩
        · rw [split_cons_of_ne _ atEnd kindNe, split_cons_of_ne _ atEnd kindNe,
            List.head?_modifyHead, List.head?_modifyHead, List.tail_modifyHead,
            List.tail_modifyHead, heads]
          exact ⟨rfl, tails⟩

end Line

/-- A token sequence is read as it would be without its blank lines. -/
theorem Parsed.ofTokens_withoutBlankLines (tokens : List Token) :
    ofTokens (Token.withoutBlankLines tokens) = ofTokens tokens := by
  rcases Line.split_mergeLineEnds (tokens.dropWhile Token.isLineEnd) with ⟨heads, tails⟩
  have merged := Line.outcomes_congr heads tails
  exact congrArg ofOutcomes (merged.trans (Line.outcomes_split_dropWhile tokens))

/-! ## Forgetting spans -/

/-- All spans look alike. -/
def SpanView.forget : SpanView where
  left := Span.forget
  right := Span.forget
  join _ _ := rfl

/-! ## Sequences of the same kinds and texts -/

/-- Tokens of the same kinds and texts look alike without their places. -/
theorem Token.allAlike_of_content {tokens others : List Token}
    (contents : tokens.map content = others.map content) :
    AllAlike .forget tokens others := by
  have sameContents : List.Forall₂ Eq (tokens.map content) (others.map content) := by
    rw [List.forall₂_eq_eq_eq]
    exact contents
  rw [List.forall₂_map_left_iff, List.forall₂_map_right_iff] at sameContents
  apply sameContents.imp
  intro token other contentEq
  rcases Prod.mk.inj contentEq with ⟨kindEq, textEq⟩
  exact ⟨kindEq.symm, (String.toList_inj.1 textEq).symm, rfl⟩

/-- Sequences that differ in places and blank lines only are read alike. -/
theorem Parsed.alike_of_content {tokens others : List Token}
    (contents : (Token.withoutBlankLines tokens).map Token.content =
      (Token.withoutBlankLines others).map Token.content) :
    (ofTokens tokens).Alike .forget (ofTokens others) := by
  rw [← ofTokens_withoutBlankLines tokens, ← ofTokens_withoutBlankLines others]
  exact alike_ofTokens (Token.allAlike_of_content contents)

end GraphCalc
