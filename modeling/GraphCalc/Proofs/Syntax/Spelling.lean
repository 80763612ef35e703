import GraphCalc.Proofs.Syntax.WellFormed
import GraphCalc.Syntax.Printer

/-!
# The tokens of printed trees

A tree whose names and numbers have the shapes of such is printed as a text
that is read back token by token: no two tokens run together, no name turns
into a macro's, and brackets are balanced.  The kinds and texts of these tokens
are listed here by recursion on the tree.
-/

namespace GraphCalc

/-! ## Tokens of trees -/

/-- The kind of an operator's sign. -/
def BinaryOp.kind : BinaryOp → Kind
  | add => .plus
  | subtract => .minus
  | multiply => .star
  | divide => .slash
  | modulo => .percent
  | other _ => .illegal

/-- The kind of a comparison's sign. -/
def Comparison.kind : Comparison → Kind
  | equal => .equal
  | greater => .greater
  | less => .less
  | greaterEqual => .greaterEqual
  | lessEqual => .lessEqual
  | other _ => .illegal

/-- A minus sign is a token of its own. -/
def numberContents : List Char → List Content
  | '-' :: digits => [(.minus, ['-']), (.number, digits)]
  | digits => [(.number, digits)]

mutual

/-- The kinds and texts of the tokens of a printed expression. -/
def Expr.contents : Expr → List Content
  | .number _ value => numberContents value.toList
  | .var _ name => [(.ident, name.toList)]
  | .binary _ op left right =>
      (.lparen, ['(']) :: (left.contents ++ (op.kind, op.text.toList) ::
        (right.contents ++ [(.rparen, [')'])]))
  | .unary _ _ operand => operand.contents ++ [(.bang, ['!'])]
  | .call _ _ callee args =>
      (.ident, callee.toList) :: (.lparen, ['(']) ::
        (Expr.listContents args ++ [(.rparen, [')'])])
  | .macroCall _ name args =>
      (.macroName, name.toList) :: (.lparen, ['(']) ::
        (Expr.listContents args ++ [(.rparen, [')'])])
  | .list _ items => (.lbrack, ['[']) :: (Expr.listContents items ++ [(.rbrack, [']'])])
  | .piecewise _ first rest otherwise =>
      (.lbrace, ['\x7b']) :: (Clause.contents first ++ (Clause.listContents rest ++
        (otherwise.contents ++ [(.rbrace, ['\x7d'])])))
  | .mapped _ inner => (.ident, ['m', 'a', 'p']) :: inner.contents

/-- The tokens of expressions with commas between them. -/
def Expr.listContents : List Expr → List Content
  | [] => []
  | first :: rest => first.contents ++ Expr.moreContents rest

/-- The tokens of expressions with a comma before each. -/
def Expr.moreContents : List Expr → List Content
  | [] => []
  | first :: rest => (.comma, [',']) :: (first.contents ++ Expr.moreContents rest)

/-- The tokens of a conditional part and the comma behind it. -/
def Clause.contents : Clause Expr → List Content
  | ⟨left, comparison, right, result⟩ =>
      left.contents ++ (comparison.kind, comparison.text.toList) ::
        (right.contents ++ (.colon, [':']) :: (result.contents ++ [(.comma, [','])]))

def Clause.listContents : List (Clause Expr) → List Content
  | [] => []
  | first :: rest => Clause.contents first ++ Clause.listContents rest

end

/-! ## Reading printed expressions -/

/-- Texts that may stand behind a printed expression: nothing, a separator, or
factorial marks before those. -/
inductive Boundary : List Char → Prop
  | nil : Boundary []
  | separator {char : Char} (rest : List Char)
      (isSeparator : char ∈ [' ', ',', ':', ')', ']', '\x7d', '\n']) : Boundary (char :: rest)
  | mark {rest : List Char} (behind : Boundary rest) : Boundary ('!' :: rest)

namespace Boundary

theorem head_mem {after : List Char} (boundary : Boundary after) :
    ∀ char ∈ after.head?, char ∈ [' ', ',', ':', ')', ']', '\x7d', '\n', '!'] := by
  cases boundary with
  | nil => exact nofun
  | separator rest isSeparator =>
      rintro char ⟨⟩
      exact List.mem_append_left ['!'] isSeparator
  | mark behind =>
      rintro char ⟨⟩
      decide

theorem not_of_head {test : Char → Bool} {after : List Char} (boundary : Boundary after)
    (excluded : [' ', ',', ':', ')', ']', '\x7d', '\n', '!'].any test = false) :
    ∀ char ∈ after.head?, test char = false := by
  intro char isHead
  have notPassed := List.any_eq_false.1 excluded char (boundary.head_mem char isHead)
  exact Bool.eq_false_iff.2 notPassed

theorem ne_cons {after : List Char} (boundary : Boundary after) {char : Char}
    (excluded : char ∉ [' ', ',', ':', ')', ']', '\x7d', '\n', '!']) (rest : List Char) :
    after ≠ char :: rest := by
  rintro rfl
  exact excluded (boundary.head_mem char rfl)

theorem ne_macro {after : List Char} (boundary : Boundary after) (rest : List Char) :
    after ≠ '!' :: '(' :: rest := by
  rintro rfl
  cases boundary with
  | separator _ isSeparator => exact absurd isSeparator (by decide)
  | mark behind => exact behind.ne_cons (by decide) rest rfl

end Boundary

theorem numberContents_of_isNumeral {digits : List Char} (shape : Lexeme.IsNumeral digits) :
    numberContents digits = [(.number, digits)] := by
  obtain ⟨first, rest, rfl, digit⟩ := shape.cons
  unfold numberContents
  split
  · rename_i textEq
    cases textEq
    exact absurd digit (by decide)
  · rfl

theorem scan_signed {digits after : List Char} (depth : Nat)
    (shape : Lexeme.IsSignedNumeral digits) (boundary : Boundary after) :
    scan depth (digits ++ after) = numberContents digits ++ scan depth after := by
  cases shape with
  | plain shape =>
      rw [numberContents_of_isNumeral shape]
      exact scan_numeral depth shape (boundary.not_of_head (by decide))
        (boundary.ne_cons (by decide))
  | negative shape =>
      rw [List.cons_append, scan_symbol depth '-' .minus _ (by decide),
        scan_numeral _ shape (boundary.not_of_head (by decide)) (boundary.ne_cons (by decide))]
      rfl

theorem scan_operator {op : BinaryOp} (depth : Nat) (known : op ∈ BinaryOp.known)
    (after : List Char) :
    scan depth (op.text.toList ++ ' ' :: after) =
      (op.kind, op.text.toList) :: scan depth after := by
  rw [← scan_blank depth after]
  cases op with
  | other code => simp [BinaryOp.known] at known
  | _ =>
      refine scan_of_start (.inl ?_) rfl
      decide

theorem scan_comparison {comparison : Comparison} (depth : Nat)
    (known : comparison ∈ Comparison.known) (after : List Char) :
    scan depth (comparison.text.toList ++ ' ' :: after) =
      (comparison.kind, comparison.text.toList) :: scan depth after := by
  rw [← scan_blank depth after]
  cases comparison with
  | other code => simp [Comparison.known] at known
  | _ =>
      refine scan_of_start (.inl ?_) rfl
      decide

/-- A name is followed by an opening parenthesis in a call. -/
theorem scan_callee {name : List Char} (depth : Nat) (shape : Lexeme.IsName name)
    (after : List Char) :
    scan depth (name ++ '(' :: after) =
      (.ident, name) :: (.lparen, ['(']) :: scan (depth + 1) after := by
  have stops : ∀ char ∈ ('(' :: after).head?, Lexeme.isLetterOrDigit char = false := by
    rintro char ⟨⟩
    decide
  rw [scan_name depth shape stops nofun, scan_symbol depth '(' .lparen after (by decide)]
  rfl

/-- Texts with a comma and a blank before each. -/
def moreText (texts : List String) : List Char :=
  texts.flatMap fun text => ',' :: ' ' :: text.toList

theorem Boundary.moreText {after : List Char} (boundary : Boundary after)
    (texts : List String) : Boundary (moreText texts ++ after) := by
  cases texts with
  | nil => exact boundary
  | cons text texts => exact .separator _ (by decide)

theorem toList_commaSeparated_cons (first : String) (rest : List String) :
    (commaSeparated (first :: rest)).toList = first.toList ++ moreText rest := by
  induction rest generalizing first with
  | nil => simp [commaSeparated, moreText]
  | cons second rest ih =>
      have step : (commaSeparated (first :: second :: rest)).toList =
          first.toList ++ ',' :: ' ' :: (commaSeparated (second :: rest)).toList := by
        simp [commaSeparated]
      rw [step, ih]
      rfl

theorem toList_commaSeparated_concat (texts : List String) (last : String) :
    (commaSeparated (texts ++ [last])).toList =
      (texts.flatMap fun text => text.toList ++ [',', ' ']) ++ last.toList := by
  induction texts with
  | nil => simp [commaSeparated]
  | cons text texts ih =>
      have notEmpty : (texts ++ [last]).map String.toList ≠ [] := by simp
      rw [commaSeparated, String.toList_intercalate] at ih ⊢
      rw [List.cons_append, List.map_cons, List.intercalate_cons_of_ne_nil notEmpty, ih]
      simp

mutual

/-- A printed expression is read as its tokens. -/
theorem Expr.scan_text : (expr : Expr) → expr.WellFormed → (depth : Nat) → {after : List Char} →
    Boundary after → scan depth (expr.text.toList ++ after) = expr.contents ++ scan depth after
  | .number _ value, shape, depth, after, boundary => scan_signed depth shape boundary
  | .var _ name, shape, depth, after, boundary =>
      scan_name depth shape (boundary.not_of_head (by decide)) boundary.ne_macro
  | .binary span op left right, ⟨known, leftShape, rightShape⟩, depth, after, boundary => by
      have spelled : (Expr.binary span op left right).text.toList ++ after =
          '(' :: (left.text.toList ++ ' ' :: (op.text.toList ++ ' ' ::
            (right.text.toList ++ ')' :: after))) := by
        simp [Expr.text]
      rw [spelled, scan_symbol depth '(' .lparen _ (by decide),
        left.scan_text leftShape _ (.separator _ (by decide)), scan_blank,
        scan_operator _ known, right.scan_text rightShape _ (.separator _ (by decide)),
        scan_symbol _ ')' .rparen _ (by decide)]
      simp [Expr.contents, Kind.depthAfter]
  | .unary span op operand, ⟨_, shape⟩, depth, after, boundary => by
      have spelled : (Expr.unary span op operand).text.toList ++ after =
          operand.text.toList ++ '!' :: after := by
        simp [Expr.text]
      rw [spelled, operand.scan_text shape depth (.mark boundary),
        scan_symbol depth '!' .bang _ (by decide)]
      simp [Expr.contents, Kind.depthAfter]
  | .call span mode callee args, ⟨_, nameShape, argsShape⟩, depth, after, boundary => by
      have spelled : (Expr.call span mode callee args).text.toList ++ after =
          callee.toList ++ '(' :: ((commaSeparated (Expr.texts args)).toList ++ ')' :: after) := by
        simp [Expr.text]
      rw [spelled, scan_callee depth nameShape,
        Expr.scan_texts args argsShape _ (.separator _ (by decide)),
        scan_symbol _ ')' .rparen _ (by decide)]
      simp [Expr.contents, Kind.depthAfter]
  | .macroCall span name args, ⟨nameShape, argsShape⟩, depth, after, boundary => by
      have spelled : (Expr.macroCall span name args).text.toList ++ after =
          name.toList ++ '!' :: '(' ::
            ((commaSeparated (Expr.texts args)).toList ++ ')' :: after) := by
        simp [Expr.text]
      rw [spelled, scan_macro depth nameShape, scan_symbol depth '(' .lparen _ (by decide),
        Expr.scan_texts args argsShape _ (.separator _ (by decide)),
        scan_symbol _ ')' .rparen _ (by decide)]
      simp [Expr.contents, Kind.depthAfter]
  | .list span items, shape, depth, after, boundary => by
      have spelled : (Expr.list span items).text.toList ++ after =
          '[' :: ((commaSeparated (Expr.texts items)).toList ++ ']' :: after) := by
        simp [Expr.text]
      rw [spelled, scan_symbol depth '[' .lbrack _ (by decide),
        Expr.scan_texts items shape _ (.separator _ (by decide)),
        scan_symbol _ ']' .rbrack _ (by decide)]
      simp [Expr.contents, Kind.depthAfter]
  | .piecewise span first rest otherwise, ⟨firstShape, restShape, otherwiseShape⟩, depth, after,
      boundary => by
      have spelled : (Expr.piecewise span first rest otherwise).text.toList ++ after =
          '\x7b' :: ((Clause.exprText first).toList ++ ',' :: ' ' ::
            (((Clause.exprTexts rest).flatMap fun text => text.toList ++ [',', ' ']) ++
              (otherwise.text.toList ++ '\x7d' :: after))) := by
        have separated := toList_commaSeparated_concat
          (Clause.exprText first :: Clause.exprTexts rest) otherwise.text
        rw [List.cons_append] at separated
        simp [Expr.text, separated]
      rw [spelled, scan_symbol depth '\x7b' .lbrace _ (by decide),
        Clause.scan_exprText first firstShape, Clause.scan_exprTexts rest restShape,
        otherwise.scan_text otherwiseShape _ (.separator _ (by decide)),
        scan_symbol _ '\x7d' .rbrace _ (by decide)]
      simp [Expr.contents, Kind.depthAfter]
  | .mapped _ _, shape, _, _, _ => absurd shape id

theorem Expr.scan_texts : (exprs : List Expr) → Expr.AllWellFormed exprs → (depth : Nat) →
    {after : List Char} → Boundary after →
    scan depth ((commaSeparated (Expr.texts exprs)).toList ++ after) =
      Expr.listContents exprs ++ scan depth after
  | [], _, depth, after, boundary => rfl
  | first :: rest, ⟨firstShape, restShape⟩, depth, after, boundary => by
      rw [Expr.texts, toList_commaSeparated_cons, List.append_assoc,
        first.scan_text firstShape depth (boundary.moreText _),
        Expr.scan_moreTexts rest restShape depth boundary, Expr.listContents, List.append_assoc]

theorem Expr.scan_moreTexts : (exprs : List Expr) → Expr.AllWellFormed exprs → (depth : Nat) →
    {after : List Char} → Boundary after →
    scan depth (moreText (Expr.texts exprs) ++ after) =
      Expr.moreContents exprs ++ scan depth after
  | [], _, _, _, _ => rfl
  | first :: rest, ⟨firstShape, restShape⟩, depth, after, boundary => by
      have spelled : moreText (Expr.texts (first :: rest)) ++ after =
          ',' :: ' ' :: (first.text.toList ++ (moreText (Expr.texts rest) ++ after)) := by
        simp [Expr.texts, moreText]
      rw [spelled, scan_symbol depth ',' .comma _ (by decide), scan_blank,
        first.scan_text firstShape _ (boundary.moreText _),
        Expr.scan_moreTexts rest restShape _ boundary]
      simp [Expr.moreContents, Kind.depthAfter]

theorem Clause.scan_exprText : (clause : Clause Expr) → Clause.WellFormed clause →
    (depth : Nat) → (after : List Char) →
    scan depth ((Clause.exprText clause).toList ++ ',' :: ' ' :: after) =
      Clause.contents clause ++ scan depth after
  | ⟨left, comparison, right, result⟩, ⟨known, leftShape, rightShape, resultShape⟩, depth,
      after => by
      have spelled : (Clause.exprText ⟨left, comparison, right, result⟩).toList ++
            ',' :: ' ' :: after =
          left.text.toList ++ ' ' :: (comparison.text.toList ++ ' ' :: (right.text.toList ++
            ':' :: ' ' :: (result.text.toList ++ ',' :: ' ' :: after))) := by
        simp [Clause.exprText]
      rw [spelled, left.scan_text leftShape _ (.separator _ (by decide)), scan_blank,
        scan_comparison _ known, right.scan_text rightShape _ (.separator _ (by decide)),
        scan_symbol _ ':' .colon _ (by decide), scan_blank,
        result.scan_text resultShape _ (.separator _ (by decide)),
        scan_symbol _ ',' .comma _ (by decide), scan_blank]
      simp [Clause.contents, Kind.depthAfter]

theorem Clause.scan_exprTexts : (clauses : List (Clause Expr)) → Clause.AllWellFormed clauses →
    (depth : Nat) → (after : List Char) →
    scan depth (((Clause.exprTexts clauses).flatMap fun text => text.toList ++ [',', ' ']) ++
        after) =
      Clause.listContents clauses ++ scan depth after
  | [], _, _, _ => rfl
  | first :: rest, ⟨firstShape, restShape⟩, depth, after => by
      have spelled : ((Clause.exprTexts (first :: rest)).flatMap fun text =>
            text.toList ++ [',', ' ']) ++ after =
          (Clause.exprText first).toList ++ ',' :: ' ' ::
            (((Clause.exprTexts rest).flatMap fun text => text.toList ++ [',', ' ']) ++
              after) := by
        simp [Clause.exprTexts]
      rw [spelled, Clause.scan_exprText first firstShape, Clause.scan_exprTexts rest restShape,
        Clause.listContents, List.append_assoc]

end

/-! ## Reading printed statements -/

/-- The tokens of a parameter. -/
def Param.contents (param : Param) : List Content :=
  [(.ident, param.name.toList), (.colon, [':']), (.ident, param.type.name.toList)]

/-- The tokens of parameters with a comma before each. -/
def Param.moreContents (params : List Param) : List Content :=
  params.flatMap fun param => (.comma, [',']) :: param.contents

/-- The tokens of parameters with commas between them. -/
def Param.listContents : List Param → List Content
  | [] => []
  | first :: rest => first.contents ++ Param.moreContents rest

/-- The tokens of an announced result type. -/
def returnContents : Option ValueType → List Content
  | none => []
  | some type => [(.colon, [':']), (.ident, type.name.toList)]

/-- The tokens of a statement. -/
def Stmt.contents : Stmt → List Content
  | .expr _ value => value.contents
  | .define _ name params returns body =>
      (.ident, name.toList) :: (.lparen, ['(']) :: (Param.listContents params ++
        (.rparen, [')']) :: (returnContents returns ++ (.assign, ['=']) :: body.contents))

/-- The tokens of a program: its statements, a line end between any two of
them, and the end mark. -/
def Program.contents : Program → List Content
  | [] => [(.eof, [])]
  | [stmt] => stmt.contents ++ [(.eof, [])]
  | stmt :: second :: rest =>
      stmt.contents ++ (.newline, ['\n']) :: Program.contents (second :: rest)

theorem isName_typeName {type : ValueType} (known : type ∈ ValueType.known) :
    Lexeme.IsName type.name.toList := by
  simp only [ValueType.known, List.mem_cons, List.not_mem_nil, or_false] at known
  rcases known with rfl | rfl
  · decide
  · decide

theorem scan_word {name after : List Char} (depth : Nat) (shape : Lexeme.IsName name)
    (boundary : Boundary after) :
    scan depth (name ++ after) = (.ident, name) :: scan depth after :=
  scan_name depth shape (boundary.not_of_head (by decide)) boundary.ne_macro

theorem Param.scan_text {param : Param} (depth : Nat) (shape : param.WellFormed)
    {after : List Char} (boundary : Boundary after) :
    scan depth (param.text.toList ++ after) = param.contents ++ scan depth after := by
  have spelled : param.text.toList ++ after =
      param.name.toList ++ ':' :: ' ' :: (param.type.name.toList ++ after) := by
    simp [Param.text]
  rw [spelled, scan_word depth shape.1.1 (.separator _ (by decide)),
    scan_symbol depth ':' .colon _ (by decide), scan_blank,
    scan_word _ (isName_typeName shape.2) boundary]
  rfl

theorem Param.scan_moreTexts {params : List Param} (depth : Nat)
    (shape : ∀ param ∈ params, param.WellFormed) {after : List Char} (boundary : Boundary after) :
    scan depth (moreText (params.map Param.text) ++ after) =
      Param.moreContents params ++ scan depth after := by
  induction params with
  | nil => rfl
  | cons first rest ih =>
      rw [List.forall_mem_cons] at shape
      have spelled : moreText ((first :: rest).map Param.text) ++ after =
          ',' :: ' ' :: (first.text.toList ++ (moreText (rest.map Param.text) ++ after)) := by
        simp [moreText]
      rw [spelled, scan_symbol depth ',' .comma _ (by decide), scan_blank]
      simp only [Kind.depthAfter]
      rw [Param.scan_text depth shape.1 (boundary.moreText _), ih shape.2]
      simp [Param.moreContents]

theorem Param.scan_texts {params : List Param} (depth : Nat)
    (shape : ∀ param ∈ params, param.WellFormed) {after : List Char} (boundary : Boundary after) :
    scan depth ((commaSeparated (params.map Param.text)).toList ++ after) =
      Param.listContents params ++ scan depth after := by
  cases params with
  | nil => rfl
  | cons first rest =>
      rw [List.forall_mem_cons] at shape
      rw [List.map_cons, toList_commaSeparated_cons, List.append_assoc,
        Param.scan_text depth shape.1 (boundary.moreText _),
        Param.scan_moreTexts depth shape.2 boundary, Param.listContents, List.append_assoc]

theorem scan_assign (depth : Nat) (after : List Char) :
    scan depth ('=' :: ' ' :: after) = (.assign, ['=']) :: scan depth after := by
  rw [← scan_blank depth after]
  refine scan_of_start (.inl ?_) rfl
  decide

theorem Stmt.scan_text {stmt : Stmt} (shape : stmt.WellFormed) (depth : Nat) {after : List Char}
    (boundary : Boundary after) :
    scan depth (stmt.text.toList ++ after) = stmt.contents ++ scan depth after := by
  cases stmt with
  | expr span value => exact value.scan_text shape depth boundary
  | define span name params returns body =>
      obtain ⟨nameShape, paramsShape, returnsShape, bodyShape⟩ := shape
      cases returns with
      | none =>
          have spelled : (Stmt.define span name params none body).text.toList ++ after =
              name.toList ++ '(' :: ((commaSeparated (params.map Param.text)).toList ++ ')' ::
                ' ' :: '=' :: ' ' :: (body.text.toList ++ after)) := by
            simp [Stmt.text]
          rw [spelled, scan_callee depth nameShape.1,
            Param.scan_texts _ paramsShape (.separator _ (by decide)),
            scan_symbol _ ')' .rparen _ (by decide), scan_blank, scan_assign,
            body.scan_text bodyShape _ boundary]
          simp [Stmt.contents, returnContents, Kind.depthAfter]
      | some type =>
          have spelled : (Stmt.define span name params (some type) body).text.toList ++ after =
              name.toList ++ '(' :: ((commaSeparated (params.map Param.text)).toList ++ ')' ::
                ':' :: ' ' :: (type.name.toList ++ ' ' :: '=' :: ' ' ::
                  (body.text.toList ++ after))) := by
            simp [Stmt.text]
          rw [spelled, scan_callee depth nameShape.1,
            Param.scan_texts _ paramsShape (.separator _ (by decide)),
            scan_symbol _ ')' .rparen _ (by decide), scan_symbol _ ':' .colon _ (by decide),
            scan_blank, scan_word _ (isName_typeName (returnsShape type rfl))
              (.separator _ (by decide)), scan_blank, scan_assign,
            body.scan_text bodyShape _ boundary]
          simp [Stmt.contents, returnContents, Kind.depthAfter]

/-- A printed program is read as its tokens. -/
theorem Program.scan_text {program : Program} (shape : program.WellFormed) :
    scan 0 program.text.toList = program.contents := by
  induction program with
  | nil => exact scan_nil 0
  | cons stmt rest ih =>
      unfold Program.WellFormed at shape
      rw [List.forall_mem_cons] at shape
      cases rest with
      | nil =>
          have spelled : (Program.text [stmt]).toList = stmt.text.toList ++ [] := by
            simp [Program.text]
          rw [spelled, Stmt.scan_text shape.1 0 .nil, scan_nil]
          rfl
      | cons second rest =>
          have spelled : (Program.text (stmt :: second :: rest)).toList =
              stmt.text.toList ++ '\n' :: (Program.text (second :: rest)).toList := by
            simp [Program.text]
          rw [spelled, Stmt.scan_text shape.1 0 (.separator _ (by decide)), scan_newline,
            ih shape.2]
          rfl

/-! ## Printed programs are whole texts

A NUL would end a text early, but none is printed. -/

theorem Lexeme.IsName.nul_not_mem {name : List Char} (shape : Lexeme.IsName name) :
    '\x00' ∉ name := by
  cases name with
  | nil => exact absurd shape id
  | cons first rest =>
      intro isMember
      rcases List.mem_cons.1 isMember with rfl | isMember
      · exact absurd shape.1 (by decide)
      · exact absurd (shape.2 _ isMember) (by decide)

theorem Lexeme.IsDigits.nul_not_mem {digits : List Char} (shape : Lexeme.IsDigits digits) :
    '\x00' ∉ digits :=
  fun isMember => absurd (shape.2 _ isMember) (by decide)

theorem Lexeme.IsNumeral.nul_not_mem {digits : List Char} (shape : Lexeme.IsNumeral digits) :
    '\x00' ∉ digits := by
  cases shape with
  | whole shape => exact shape.nul_not_mem
  | decimal shape fractionShape => simp [shape.nul_not_mem, fractionShape.nul_not_mem]

theorem Lexeme.IsSignedNumeral.nul_not_mem {digits : List Char}
    (shape : Lexeme.IsSignedNumeral digits) : '\x00' ∉ digits := by
  cases shape with
  | plain shape => exact shape.nul_not_mem
  | negative shape => simp [shape.nul_not_mem]

theorem nul_not_mem_intercalate {separator : String} {texts : List String}
    (cleanSeparator : '\x00' ∉ separator.toList) (clean : ∀ text ∈ texts, '\x00' ∉ text.toList) :
    '\x00' ∉ (separator.intercalate texts).toList := by
  rw [String.toList_intercalate]
  induction texts with
  | nil => exact List.not_mem_nil
  | cons first rest ih =>
      rw [List.forall_mem_cons] at clean
      cases rest with
      | nil => simpa using clean.1
      | cons second rest =>
          rw [List.map_cons, List.map_cons, List.intercalate_cons_cons, List.mem_append,
            List.mem_append, not_or, not_or]
          exact ⟨⟨clean.1, cleanSeparator⟩, ih clean.2⟩

theorem nul_not_mem_commaSeparated {texts : List String}
    (clean : ∀ text ∈ texts, '\x00' ∉ text.toList) : '\x00' ∉ (commaSeparated texts).toList :=
  nul_not_mem_intercalate (by decide) clean

theorem BinaryOp.nul_not_mem (op : BinaryOp) : '\x00' ∉ op.text.toList := by
  cases op
  all_goals simp [BinaryOp.text]

theorem Comparison.nul_not_mem (comparison : Comparison) :
    '\x00' ∉ comparison.text.toList := by
  cases comparison
  all_goals simp [Comparison.text]

mutual

theorem Expr.nul_not_mem : (expr : Expr) → expr.WellFormed → '\x00' ∉ expr.text.toList
  | .number _ value, shape => shape.nul_not_mem
  | .var _ name, shape => shape.nul_not_mem
  | .binary _ op left right, ⟨_, leftShape, rightShape⟩ => by
      simp [Expr.text, left.nul_not_mem leftShape, op.nul_not_mem, right.nul_not_mem rightShape]
  | .unary _ _ operand, ⟨_, shape⟩ => by
      simp [Expr.text, operand.nul_not_mem shape]
  | .call _ _ callee args, ⟨_, nameShape, argsShape⟩ => by
      simp [Expr.text, nameShape.nul_not_mem,
        nul_not_mem_commaSeparated (Expr.nul_not_mem_texts args argsShape)]
  | .macroCall _ name args, ⟨nameShape, argsShape⟩ => by
      simp [Expr.text, nameShape.nul_not_mem,
        nul_not_mem_commaSeparated (Expr.nul_not_mem_texts args argsShape)]
  | .list _ items, shape => by
      simp [Expr.text, nul_not_mem_commaSeparated (Expr.nul_not_mem_texts items shape)]
  | .piecewise _ first rest otherwise, ⟨firstShape, restShape, otherwiseShape⟩ => by
      have clean : ∀ text ∈ Clause.exprText first :: Clause.exprTexts rest ++ [otherwise.text],
          '\x00' ∉ text.toList := by
        rw [List.forall_mem_append, List.forall_mem_cons, List.forall_mem_singleton]
        exact ⟨⟨Clause.nul_not_mem first firstShape, Clause.nul_not_mem_texts rest restShape⟩,
          otherwise.nul_not_mem otherwiseShape⟩
      have separated := nul_not_mem_commaSeparated clean
      rw [List.cons_append] at separated
      simp [Expr.text, separated]
  | .mapped _ _, shape => absurd shape id

theorem Expr.nul_not_mem_texts : (exprs : List Expr) → Expr.AllWellFormed exprs →
    ∀ text ∈ Expr.texts exprs, '\x00' ∉ text.toList
  | [], _ => nofun
  | first :: rest, ⟨firstShape, restShape⟩ => by
      rw [Expr.texts, List.forall_mem_cons]
      exact ⟨first.nul_not_mem firstShape, Expr.nul_not_mem_texts rest restShape⟩

theorem Clause.nul_not_mem : (clause : Clause Expr) → Clause.WellFormed clause →
    '\x00' ∉ (Clause.exprText clause).toList
  | ⟨left, comparison, right, result⟩, ⟨_, leftShape, rightShape, resultShape⟩ => by
      simp [Clause.exprText, left.nul_not_mem leftShape, comparison.nul_not_mem,
        right.nul_not_mem rightShape, result.nul_not_mem resultShape]

theorem Clause.nul_not_mem_texts : (clauses : List (Clause Expr)) →
    Clause.AllWellFormed clauses → ∀ text ∈ Clause.exprTexts clauses, '\x00' ∉ text.toList
  | [], _ => nofun
  | first :: rest, ⟨firstShape, restShape⟩ => by
      rw [Clause.exprTexts, List.forall_mem_cons]
      exact ⟨Clause.nul_not_mem first firstShape, Clause.nul_not_mem_texts rest restShape⟩

end

theorem Param.nul_not_mem {param : Param} (shape : param.WellFormed) :
    '\x00' ∉ param.text.toList := by
  simp [Param.text, shape.1.1.nul_not_mem, (isName_typeName shape.2).nul_not_mem]

theorem Stmt.nul_not_mem {stmt : Stmt} (shape : stmt.WellFormed) : '\x00' ∉ stmt.text.toList := by
  cases stmt with
  | expr span value => exact value.nul_not_mem shape
  | define span name params returns body =>
      obtain ⟨nameShape, paramsShape, returnsShape, bodyShape⟩ := shape
      have params := nul_not_mem_commaSeparated
        (List.forall_mem_map.2 fun param isParam => Param.nul_not_mem (paramsShape param isParam))
      cases returns with
      | none => simp [Stmt.text, nameShape.1.nul_not_mem, params, body.nul_not_mem bodyShape]
      | some type =>
          simp [Stmt.text, nameShape.1.nul_not_mem, params, body.nul_not_mem bodyShape,
            (isName_typeName (returnsShape type rfl)).nul_not_mem]

theorem Program.nul_not_mem {program : Program} (shape : program.WellFormed) :
    '\x00' ∉ program.text.toList :=
  nul_not_mem_intercalate (by decide)
    (List.forall_mem_map.2 fun stmt isStmt => Stmt.nul_not_mem (shape stmt isStmt))

/-- The tokens of a printed program, whatever their places. -/
theorem Program.content_tokenize {program : Program} (shape : program.WellFormed)
    (file : String) :
    (tokenize file program.text.toList).map Token.content = program.contents := by
  have whole : program.text.toList.takeWhile (· ≠ '\x00') = program.text.toList := by
    have clean : ∀ char ∈ program.text.toList, decide (char ≠ '\x00') = true := by
      intro char isMember
      rw [decide_eq_true_eq]
      rintro rfl
      exact Program.nul_not_mem shape isMember
    have taken := Lexeme.takeWhile_append_of_stop clean
      (show ∀ char ∈ List.head? [], decide (char ≠ '\x00') = false from nofun)
    rwa [List.append_nil] at taken
  rw [tokenize, content_tokens, ← Program.scan_text shape, Cursor.ofText, whole]

end GraphCalc
