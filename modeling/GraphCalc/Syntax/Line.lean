import GraphCalc.Token.Basic

/-!
# Logical lines

Statements do not cross line ends, so the tokens of a text are read line by
line.  A logical line is a run of tokens and the mark that ends it, which is a
line end outside brackets or the end of the text.
-/

namespace GraphCalc

/-- The tokens of a line, and the mark that ends it. -/
structure Line where
  tokens : List Token
  stop : Token
deriving DecidableEq, Repr

namespace Line

/-- The lines of a token sequence, blank ones included.  The sequence ends at
its first end mark. -/
def split : List Token → List Line
  | [] => []
  | token :: rest =>
      match token.kind with
      | .eof => [⟨[], token⟩]
      | .newline => ⟨[], token⟩ :: split rest
      | _ =>
          match split rest with
          | [] => []
          | line :: lines => { line with tokens := token :: line.tokens } :: lines

/-- Whether a line has no tokens. -/
def isBlank (line : Line) : Bool :=
  line.tokens.isEmpty

end Line

end GraphCalc
