import GraphCalc.Proofs.Syntax.Calls
import GraphCalc.Proofs.Syntax.LineOutcomes
import GraphCalc.Proofs.Syntax.Soundness
import Mathlib.Logic.Relation

/-!
# Reading comes to an end

Following the script of a reader always leads to an outcome, whatever the tokens are.
A reader that is called starts at a later token than its caller, or at the same token
and then it ranks lower.  So a reader that is called again, by itself or through other
readers, starts at a later token than before; and behind the last token of a line there
is nothing an expression can start with.
-/

namespace GraphCalc

open Phrase

/-! ## Following scripts -/

/-- `LeadsTo stop script outcome` says that following a script on a line with the given
end mark leads to an outcome. -/
inductive Script.LeadsTo (stop : Token) :
    {α : Type} → Script α → Except SyntaxError (α × List Token) → Prop
  | done {α : Type} (outcome : Except SyntaxError (α × List Token)) :
      LeadsTo stop (.done outcome) outcome
  | failed {α β : Type} {callee : Call β} {next : β × List Token → Script α}
      {error : SyntaxError} (called : LeadsTo stop (callee.script stop) (.error error)) :
      LeadsTo stop (.call callee next) (.error error)
  | read {α β : Type} {callee : Call β} {next : β × List Token → Script α}
      {read : β × List Token} {outcome : Except SyntaxError (α × List Token)}
      (called : LeadsTo stop (callee.script stop) (.ok read))
      (rest : LeadsTo stop (next read) outcome) : LeadsTo stop (.call callee next) outcome

/-- Following a script leads to what the readers make of it. -/
theorem Script.LeadsTo.eq_run {α : Type} {stop : Token} {script : Script α}
    {outcome : Except SyntaxError (α × List Token)} (leads : script.LeadsTo stop outcome) :
    outcome = script.run stop := by
  induction leads with
  | done outcome => rfl
  | failed _ calledEq =>
      rw [← Call.outcome_eq_run] at calledEq
      rw [run_call, ← calledEq]
      rfl
  | read _ _ calledEq restEq =>
      rw [← Call.outcome_eq_run] at calledEq
      rw [run_call, ← calledEq, restEq]
      rfl

/-- A call of any reader. -/
abbrev AnyCall :=
  Σ α, Call α

/-- `Makes stop script inner` says that a call is made in the course of following a
script. -/
inductive Script.Makes (stop : Token) : {α : Type} → Script α → AnyCall → Prop
  | now {α β : Type} {callee : Call β} {next : β × List Token → Script α} :
      Makes stop (.call callee next) ⟨β, callee⟩
  | later {α β : Type} {callee : Call β} {next : β × List Token → Script α}
      {read : β × List Token} {inner : AnyCall}
      (called : LeadsTo stop (callee.script stop) (.ok read))
      (rest : Makes stop (next read) inner) : Makes stop (.call callee next) inner

/-- Whether one call makes another one. -/
def AnyCall.Makes (stop : Token) (outer inner : AnyCall) : Prop :=
  (outer.2.script stop).Makes stop inner

/-! ## Later tokens -/

/-- Whether tokens are what is left of others behind one token at least. -/
def Behind (rest tokens : List Token) : Prop :=
  ∃ passed, passed ≠ [] ∧ tokens = passed ++ rest

theorem behind_cons (token : Token) (rest : List Token) : Behind rest (token :: rest) :=
  ⟨[token], List.cons_ne_nil _ _, rfl⟩

namespace Behind

variable {first second third : List Token}

theorem suffix (behind : Behind second first) : second <:+ first := by
  rcases behind with ⟨passed, -, rfl⟩
  exact List.suffix_append passed second

theorem length_lt (behind : Behind second first) : second.length < first.length := by
  rcases behind with ⟨passed, notEmpty, rfl⟩
  have some := List.length_pos_iff.2 notEmpty
  rw [List.length_append]
  omega

theorem trans_suffix (behind : Behind third second) (isSuffix : second <:+ first) :
    Behind third first := by
  rcases behind with ⟨passed, notEmpty, rfl⟩
  rcases isSuffix with ⟨front, rfl⟩
  exact ⟨front ++ passed, List.append_ne_nil_of_right_ne_nil front notEmpty,
    (List.append_assoc _ _ _).symm⟩

theorem of_suffix (behind : Behind second first) (isSuffix : third <:+ second) :
    Behind third first := by
  rcases behind with ⟨passed, notEmpty, rfl⟩
  rcases isSuffix with ⟨front, rfl⟩
  exact ⟨passed ++ front, List.append_ne_nil_of_left_ne_nil notEmpty front,
    (List.append_assoc _ _ _).symm⟩

theorem trans (behind : Behind third second) (isBehind : Behind second first) :
    Behind third first :=
  behind.trans_suffix isBehind.suffix

end Behind

theorem behind_of_pass {kind : Kind} {tokens : List Token} {passed : Token × List Token}
    (passes : pass? kind tokens = some passed) : Behind passed.2 tokens := by
  rcases pass?_eq_some_iff.1 passes with ⟨rfl, -⟩
  exact behind_cons _ _

theorem behind_of_take {kind : Kind} {stop : Token} {tokens : List Token}
    {taken : Token × List Token} (takes : take kind stop tokens = .ok taken) :
    Behind taken.2 tokens := by
  rcases take_eq_ok_iff.1 takes with ⟨rfl, -⟩
  exact behind_cons _ _

/-! ## Ranks -/

/-- The readers. -/
inductive Reader
  | statement
  | definition
  | params
  | paramsSome
  | expression
  | chain (level : Level)
  | operand (level : Level)
  | tail (level : Level)
  | factor
  | marks
  | primary
  | items
  | itemsSome
  | clauses
deriving DecidableEq

/-- A reader that is called at the token where its caller starts has a lower rank. -/
def Reader.rank : Reader → Nat
  | statement => 9
  | items | params => 9
  | itemsSome | clauses | paramsSome => 8
  | expression => 7
  | chain .sum => 6
  | operand .sum => 5
  | chain .product => 4
  | operand .product => 3
  | factor => 2
  | primary => 1
  | definition | tail _ | marks => 0

namespace Call

variable {α β : Type}

/-- The reader that is called. -/
def reader : Call α → Reader
  | statement .. => .statement
  | definition .. => .definition
  | params _ => .params
  | paramsSome _ => .paramsSome
  | expression .. => .expression
  | chain level _ => .chain level
  | operand level _ => .operand level
  | tail level .. => .tail level
  | factor _ => .factor
  | marks .. => .marks
  | primary _ => .primary
  | items .. => .items
  | itemsSome .. => .itemsSome
  | clauses _ => .clauses

/-- The tokens of the line from the one where the call starts.  If there are none it
starts at the end mark. -/
def ahead : Call α → List Token
  | statement first others => first :: others
  | definition _ tokens | params tokens | paramsSome tokens | expression _ tokens
  | chain _ tokens | operand _ tokens | tail _ _ tokens | factor tokens | marks _ tokens
  | primary tokens | items _ tokens | itemsSome _ tokens | clauses tokens => tokens

/-- Whether a reader takes a token at least when it succeeds. -/
def takesToken : Call α → Bool
  | statement .. | definition .. | tail .. | marks .. => false
  | _ => true

/-- Whether what has been read can be the outcome of a call: the tokens behind it are
among those ahead of the call, without the first of them if the reader takes a token. -/
structure Fits (call : Call α) (read : α × List Token) : Prop where
  suffix : read.2 <:+ call.ahead
  behind : call.takesToken = true → Behind read.2 call.ahead

/-- Whether a call can be made by another one: it starts at a later token, or at the same
token with a lower rank. -/
def Below (inner : Call β) (outer : Call α) : Prop :=
  Behind inner.ahead outer.ahead ∨
    inner.ahead = outer.ahead ∧ inner.reader.rank < outer.reader.rank

theorem Fits.of_behind {call : Call α} {read : α × List Token}
    (behind : Behind read.2 call.ahead) : call.Fits read :=
  ⟨behind.suffix, fun _ => behind⟩

end Call

/-! ## Scripts are orderly -/

namespace Script

variable {α β : Type}

/-- Whether a script is one that a call can have: it makes calls below that one only, and
what it ends with can be an outcome of it, as long as this is so for the calls it
makes. -/
def Orderly (outer : Call α) : Script α → Prop
  | .done (.error _) => True
  | .done (.ok read) => outer.Fits read
  | .call callee next => callee.Below outer ∧ ∀ read, callee.Fits read → (next read).Orderly outer

theorem orderly_check {outer : Call α} {outcome : Except SyntaxError β} {next : β → Script α}
    (orderly : ∀ value, outcome = .ok value → (next value).Orderly outer) :
    (check outcome next).Orderly outer := by
  cases outcome with
  | error error => trivial
  | ok value => exact orderly value rfl

/-- A call that hands on what another one reads at the same token. -/
theorem orderly_call_give {outer callee : Call α} (sameStart : callee.ahead = outer.ahead)
    (lower : callee.reader.rank < outer.reader.rank)
    (takes : callee.takesToken = outer.takesToken) :
    (Script.call callee .give).Orderly outer := by
  refine ⟨.inr ⟨sameStart, lower⟩, ?_⟩
  rintro read ⟨suffix, behind⟩
  rw [sameStart] at suffix behind
  rw [takes] at behind
  exact ⟨suffix, behind⟩

end Script

namespace Call

open Script

variable {stop : Token}

theorem orderly_statement (first : Token) (others : List Token) :
    (script stop (.statement first others)).Orderly (.statement first others) := by
  rw [script]
  split
  · refine ⟨.inl (behind_cons first others), ?_⟩
    rintro read ⟨suffix, -⟩
    exact .of_behind ((behind_cons first others).of_suffix suffix)
  · refine ⟨.inr ⟨rfl, show Reader.rank .expression < Reader.rank .statement by decide⟩, ?_⟩
    intro read _
    exact orderly_check fun _ _ => ⟨List.nil_suffix, Bool.noConfusion⟩

theorem orderly_definition (name : Token) (tokens : List Token) :
    (definitionScript stop name tokens).Orderly (.definition name tokens) := by
  rw [definitionScript]
  split
  · trivial
  · refine orderly_check fun opening opened => ?_
    have atParams := behind_of_take opened
    refine ⟨.inl atParams, ?_⟩
    rintro params ⟨atReturns, -⟩
    refine orderly_check fun returns returnsRead => orderly_check fun sign signRead => ?_
    rcases Grammar.readReturns_derived returnsRead with ⟨type, typeEq, -⟩
    have atSign : returns.2 <:+ params.2 := ⟨type.tokens, typeEq.symm⟩
    have atBody := (behind_of_take signRead).trans_suffix (atSign.trans atReturns)
    refine ⟨.inl (atBody.trans atParams), ?_⟩
    intro body _
    exact orderly_check fun _ _ => ⟨List.nil_suffix, Bool.noConfusion⟩

theorem orderly_paramsSome (tokens : List Token) :
    (script stop (.paramsSome tokens)).Orderly (.paramsSome tokens) := by
  rw [script]
  refine orderly_check fun first firstRead => ?_
  rcases Grammar.param_take_derived firstRead with ⟨param, paramEq, -⟩
  have behindFirst : first.2 <:+ tokens := ⟨param.tokens, paramEq.symm⟩
  cases passed : pass? .comma first.2 with
  | none =>
      refine orderly_check fun closing closed => ?_
      exact .of_behind ((behind_of_take closed).trans_suffix behindFirst)
  | some step =>
      have atNext := (behind_of_pass passed).trans_suffix behindFirst
      refine ⟨.inl atNext, ?_⟩
      rintro read ⟨suffix, -⟩
      exact .of_behind (atNext.of_suffix suffix)

theorem orderly_tail (level : Level) (left : Expr) (tokens : List Token) :
    (script stop (.tail level left tokens)).Orderly (.tail level left tokens) := by
  cases tokens with
  | nil => exact ⟨List.suffix_rfl, Bool.noConfusion⟩
  | cons token rest =>
      rw [script]
      have atRight := behind_cons token rest
      split
      · exact ⟨List.suffix_rfl, Bool.noConfusion⟩
      · refine ⟨.inl atRight, ?_⟩
        rintro right ⟨atSign, -⟩
        refine ⟨.inl (atRight.of_suffix atSign), ?_⟩
        rintro joined ⟨suffix, -⟩
        exact .of_behind (atRight.of_suffix (suffix.trans atSign))

theorem orderly_marks (value : Expr) (tokens : List Token) :
    (script stop (.marks value tokens)).Orderly (.marks value tokens) := by
  cases tokens with
  | nil => exact ⟨List.suffix_rfl, Bool.noConfusion⟩
  | cons token rest =>
      rw [script]
      split
      · refine ⟨.inl (behind_cons token rest), ?_⟩
        rintro marked ⟨suffix, -⟩
        exact .of_behind ((behind_cons token rest).of_suffix suffix)
      · exact ⟨List.suffix_rfl, Bool.noConfusion⟩

theorem orderly_itemsSome (close : Kind) (tokens : List Token) :
    (script stop (.itemsSome close tokens)).Orderly (.itemsSome close tokens) := by
  rw [script]
  refine ⟨.inr ⟨rfl, show Reader.rank .expression < Reader.rank .itemsSome by decide⟩, ?_⟩
  rintro ⟨first, rest⟩ ⟨-, behindFirst⟩
  dsimp only
  cases passed : pass? .comma rest with
  | none =>
      refine orderly_check fun closing closed => ?_
      exact .of_behind ((behind_of_take closed).trans (behindFirst rfl))
  | some step =>
      have atNext := (behind_of_pass passed).trans (behindFirst rfl)
      refine ⟨.inl atNext, ?_⟩
      rintro read ⟨suffix, -⟩
      exact .of_behind (atNext.of_suffix suffix)

theorem orderly_clauses (tokens : List Token) :
    (clausesScript stop tokens).Orderly (.clauses tokens) := by
  rw [clausesScript]
  refine ⟨.inr ⟨rfl, show Reader.rank .expression < Reader.rank .clauses by decide⟩, ?_⟩
  rintro ⟨left, rest⟩ ⟨-, behindLeft⟩
  replace behindLeft : Behind rest tokens := behindLeft rfl
  cases rest with
  | nil => trivial
  | cons token behind =>
      dsimp only
      cases token.kind.comparison? with
      | none =>
          refine orderly_check fun closing closed => ?_
          exact .of_behind ((behind_of_take closed).trans behindLeft)
      | some comparison =>
          have atRight := (behind_cons token behind).trans behindLeft
          refine ⟨.inl atRight, ?_⟩
          rintro right ⟨atColon, -⟩
          refine orderly_check fun colon colonRead => ?_
          have atResult := (behind_of_take colonRead).trans_suffix atColon |>.trans atRight
          refine ⟨.inl atResult, ?_⟩
          rintro result ⟨atComma, -⟩
          cases passed : pass? .comma result.2 with
          | none =>
              dsimp only
              rw [passed]
              trivial
          | some step =>
              dsimp only
              rw [passed]
              have atNext := ((behind_of_pass passed).trans_suffix atComma).trans atResult
              refine ⟨.inl atNext, ?_⟩
              rintro read ⟨suffix, -⟩
              exact .of_behind (atNext.of_suffix suffix)

theorem orderly_primary (token : Token) (rest : List Token) :
    (primaryScript stop token rest).Orderly (.primary (token :: rest)) := by
  have behindFirst := behind_cons token rest
  rw [primaryScript]
  cases token.kind with
  | number => exact .of_behind behindFirst
  | minus =>
      dsimp only
      cases passed : pass? .number rest with
      | none => trivial
      | some step => exact .of_behind ((behind_of_pass passed).trans behindFirst)
  | ident =>
      dsimp only
      cases passed : pass? .lparen rest with
      | none => exact .of_behind behindFirst
      | some step =>
          have atItems := (behind_of_pass passed).trans behindFirst
          refine ⟨.inl atItems, ?_⟩
          rintro read ⟨suffix, -⟩
          exact .of_behind (atItems.of_suffix suffix)
  | macroName =>
      refine orderly_check fun opening opened => ?_
      have atItems := (behind_of_take opened).trans behindFirst
      refine ⟨.inl atItems, ?_⟩
      rintro read ⟨suffix, -⟩
      exact .of_behind (atItems.of_suffix suffix)
  | lparen =>
      refine ⟨.inl behindFirst, ?_⟩
      rintro inner ⟨atClosing, -⟩
      refine orderly_check fun closing closed => ?_
      exact .of_behind (((behind_of_take closed).trans_suffix atClosing).trans behindFirst)
  | lbrack =>
      refine ⟨.inl behindFirst, ?_⟩
      rintro read ⟨suffix, -⟩
      exact .of_behind (behindFirst.of_suffix suffix)
  | lbrace =>
      refine ⟨.inl behindFirst, ?_⟩
      rintro ⟨⟨clauses, otherwise, close⟩, after⟩ ⟨suffix, -⟩
      cases clauses with
      | nil => trivial
      | cons first others => exact .of_behind (behindFirst.of_suffix suffix)
  | _ => trivial

/-- What a reader does is in order, on any tokens. -/
theorem orderly_script {α : Type} (stop : Token) (call : Call α) :
    (call.script stop).Orderly call := by
  cases call with
  | statement first others => exact orderly_statement first others
  | definition name tokens => exact orderly_definition name tokens
  | params tokens =>
      rw [script]
      cases passed : pass? .rparen tokens with
      | none =>
          exact orderly_call_give rfl
            (show Reader.rank .paramsSome < Reader.rank .params by decide) rfl
      | some step => exact .of_behind (behind_of_pass passed)
  | paramsSome tokens => exact orderly_paramsSome tokens
  | expression behind tokens =>
      cases behind with
      | none =>
          exact orderly_call_give rfl
            (show Reader.rank (.chain .sum) < Reader.rank .expression by decide) rfl
      | some level =>
          exact orderly_call_give rfl
            (show Reader.rank (.operand level) < Reader.rank .expression by cases level <;> decide)
            rfl
  | chain level tokens =>
      rw [script]
      have lower : Reader.rank (.operand level) < Reader.rank (.chain level) := by
        cases level <;> decide
      refine ⟨.inr ⟨rfl, lower⟩, ?_⟩
      rintro first ⟨-, behindFirst⟩
      replace behindFirst : Behind first.2 tokens := behindFirst rfl
      refine ⟨.inl behindFirst, ?_⟩
      rintro joined ⟨suffix, -⟩
      exact .of_behind (behindFirst.of_suffix suffix)
  | operand level tokens =>
      cases level with
      | sum =>
          exact orderly_call_give rfl
            (show Reader.rank (.chain .product) < Reader.rank (.operand .sum) by decide) rfl
      | product =>
          exact orderly_call_give rfl
            (show Reader.rank .factor < Reader.rank (.operand .product) by decide) rfl
  | tail level left tokens => exact orderly_tail level left tokens
  | factor tokens =>
      rw [script]
      refine ⟨.inr ⟨rfl, show Reader.rank .primary < Reader.rank .factor by decide⟩, ?_⟩
      rintro value ⟨-, behindValue⟩
      replace behindValue : Behind value.2 tokens := behindValue rfl
      refine ⟨.inl behindValue, ?_⟩
      rintro marked ⟨suffix, -⟩
      exact .of_behind (behindValue.of_suffix suffix)
  | marks value tokens => exact orderly_marks value tokens
  | primary tokens =>
      cases tokens with
      | nil => trivial
      | cons token rest => exact orderly_primary token rest
  | items close tokens =>
      rw [script]
      cases passed : pass? close tokens with
      | none =>
          exact orderly_call_give rfl
            (show Reader.rank .itemsSome < Reader.rank .items by decide) rfl
      | some step => exact .of_behind (behind_of_pass passed)
  | itemsSome close tokens => exact orderly_itemsSome close tokens
  | clauses tokens => exact orderly_clauses tokens

end Call

/-! ## Every call comes to an end -/

theorem Script.LeadsTo.fits {α : Type} {stop : Token} {script : Script α} {outer : Call α}
    {outcome : Except SyntaxError (α × List Token)} (leads : script.LeadsTo stop outcome)
    (orderly : script.Orderly outer) {read : α × List Token} (outcomeEq : outcome = .ok read) :
    outer.Fits read := by
  induction leads with
  | done outcome =>
      subst outcomeEq
      exact orderly
  | failed => cases outcomeEq
  | @read _ _ callee _ _ _ _ _ calledFits restFits =>
      exact restFits (orderly.2 _ (calledFits (callee.orderly_script stop) rfl)) outcomeEq

/-- What a call reads fits it. -/
theorem Call.fits_of_leadsTo {α : Type} {stop : Token} {call : Call α} {read : α × List Token}
    (leads : (call.script stop).LeadsTo stop (.ok read)) : call.Fits read :=
  leads.fits (call.orderly_script stop) rfl

/-- The calls that a call makes are below it. -/
theorem Script.Makes.below_of_orderly {α : Type} {stop : Token} {script : Script α} {outer : Call α}
    {inner : AnyCall} (makes : script.Makes stop inner) (orderly : script.Orderly outer) :
    inner.2.Below outer := by
  induction makes with
  | now => exact orderly.1
  | later called _ restBelow => exact restBelow (orderly.2 _ (Call.fits_of_leadsTo called))

/-- The height of a call: calls below it are of less height. -/
def Call.height {α : Type} (call : Call α) : Nat :=
  10 * call.ahead.length + call.reader.rank

theorem Reader.rank_lt (reader : Reader) : reader.rank < 10 := by
  cases reader with
  | chain level | operand level | tail level => cases level <;> decide
  | _ => decide

theorem Call.Below.height_lt {α β : Type} {inner : Call β} {outer : Call α}
    (below : inner.Below outer) : inner.height < outer.height := by
  have innerRank := inner.reader.rank_lt
  unfold height
  rcases below with behind | ⟨sameStart, lower⟩
  · have shorter := behind.length_lt
    omega
  · rw [sameStart]
    omega

/-- Following a script leads to an outcome if every call below does. -/
theorem Script.exists_leadsTo {α : Type} {stop : Token} {outer : Call α}
    (callsEnd : ∀ {β : Type} (callee : Call β), callee.Below outer →
      ∃ outcome, (callee.script stop).LeadsTo stop outcome)
    (script : Script α) (orderly : script.Orderly outer) :
    ∃ outcome, script.LeadsTo stop outcome := by
  induction script with
  | done outcome => exact ⟨outcome, .done outcome⟩
  | call callee next ih =>
      rcases callsEnd callee orderly.1 with ⟨called, leads⟩
      cases called with
      | error error => exact ⟨.error error, .failed leads⟩
      | ok read =>
          rcases ih read (orderly.2 read (Call.fits_of_leadsTo leads)) with ⟨outcome, rest⟩
          exact ⟨outcome, .read leads rest⟩

/-- Every call comes to an end. -/
theorem Call.exists_leadsTo {α : Type} (stop : Token) (call : Call α) :
    ∃ outcome, (call.script stop).LeadsTo stop outcome :=
  Script.exists_leadsTo (fun callee below =>
    have := below.height_lt
    callee.exists_leadsTo stop) (call.script stop) (call.orderly_script stop)
termination_by call.height

/-- Every call comes to its outcome and to no other one. -/
theorem Call.leadsTo_iff {α : Type} {stop : Token} {call : Call α}
    {outcome : Except SyntaxError (α × List Token)} :
    (call.script stop).LeadsTo stop outcome ↔ outcome = call.outcome stop := by
  rcases call.exists_leadsTo stop with ⟨reached, leads⟩
  have reachedEq := leads.eq_run
  rw [← outcome_eq_run] at reachedEq
  constructor
  · intro leads
    rw [leads.eq_run, outcome_eq_run]
  · rintro rfl
    rwa [← reachedEq]

/-! ## Calls inside of calls -/

theorem Call.Below.trans {α β γ : Type} {inner : Call γ} {middle : Call β} {outer : Call α}
    (below : inner.Below middle) (isBelow : middle.Below outer) : inner.Below outer := by
  rcases below with behind | ⟨sameStart, lower⟩
  · rcases isBelow with isBehind | ⟨sameStart', -⟩
    · exact .inl (behind.trans isBehind)
    · exact .inl (sameStart' ▸ behind)
  · rcases isBelow with isBehind | ⟨sameStart', lower'⟩
    · exact .inl (sameStart ▸ isBehind)
    · exact .inr ⟨sameStart.trans sameStart', Nat.lt_trans lower lower'⟩

/-- Calls are made below the calls in whose course they are made. -/
theorem AnyCall.below_of_makes {stop : Token} {outer inner : AnyCall}
    (inside : Relation.TransGen (AnyCall.Makes stop) outer inner) : inner.2.Below outer.2 := by
  induction inside with
  | single makes => exact makes.below_of_orderly (outer.2.orderly_script stop)
  | @tail middle inner _ makes below =>
      exact (makes.below_of_orderly (middle.2.orderly_script stop)).trans below

/-- A reader that is called again starts at a later token. -/
theorem AnyCall.behind_of_makes {stop : Token} {outer inner : AnyCall}
    (inside : Relation.TransGen (AnyCall.Makes stop) outer inner)
    (sameReader : inner.2.reader = outer.2.reader) : Behind inner.2.ahead outer.2.ahead := by
  rcases below_of_makes inside with behind | ⟨-, lower⟩
  · exact behind
  · rw [sameReader] at lower
    exact absurd lower (Nat.lt_irrefl _)

/-- Behind the last token of a line no expression starts. -/
theorem Call.outcome_expression_nil (stop : Token) (behind : Option Level) :
    (Call.expression behind []).outcome stop = .error (.blaming stop .unexpectedStart) := by
  have factorFails : Expr.takeFactor stop [] = .error (.blaming stop .unexpectedStart) := by
    rw [Expr.takeFactor_eq, Expr.takePrimary_nil]
    rfl
  have productFails : Expr.takeLevel stop .product [] =
      .error (.blaming stop .unexpectedStart) := by
    rw [Expr.takeLevel_eq, Expr.takeOperand_product, factorFails]
    rfl
  cases behind with
  | none =>
      rw [outcome, Expr.takeLevel_eq, Expr.takeOperand_sum, productFails]
      rfl
  | some level =>
      rw [outcome]
      cases level with
      | sum => rw [Expr.takeOperand_sum, productFails]
      | product => rw [Expr.takeOperand_product, factorFails]

/-! ## Lines one after another -/

theorem Kind.eq_of_endsLine {kind : Kind} (ends : kind.endsLine = true) :
    kind = .eof ∨ kind = .newline := by
  cases kind with
  | eof => exact .inl rfl
  | newline => exact .inr rfl
  | _ => cases ends

namespace Line

/-- `Turn tokens outcome rest` says what is done with the first line of a token sequence:
a line end alone is passed, and otherwise a statement is read and the line is left behind.
The end mark is never passed. -/
inductive Turn : List Token → Option (Except SyntaxError Stmt) → List Token → Prop
  | blank {lineEnd : Token} {rest : List Token} (isLineEnd : lineEnd.kind = .newline) :
      Turn (lineEnd :: rest) none rest
  | line {first lineEnd : Token} {others rest : List Token} {outcome : Except SyntaxError Stmt}
      (plain : ∀ token ∈ first :: others, token.kind.endsLine = false)
      (isLineEnd : lineEnd.kind = .newline)
      (reads : (Call.script lineEnd (.statement first others)).LeadsTo lineEnd
        (outcome.map fun stmt => (stmt, []))) :
      Turn (first :: others ++ lineEnd :: rest) (some outcome) rest
  | last {first mark : Token} {others rest : List Token} {outcome : Except SyntaxError Stmt}
      (plain : ∀ token ∈ first :: others, token.kind.endsLine = false) (isEnd : mark.kind = .eof)
      (reads : (Call.script mark (.statement first others)).LeadsTo mark
        (outcome.map fun stmt => (stmt, []))) :
      Turn (first :: others ++ mark :: rest) (some outcome) (mark :: rest)

/-- `Turns tokens outcomes rest` says that one line after another is read until the rest
is ahead, with the outcomes of the statements. -/
inductive Turns : List Token → List (Except SyntaxError Stmt) → List Token → Prop
  | nil (tokens : List Token) : Turns tokens [] tokens
  | cons {tokens middle rest : List Token} {outcome : Option (Except SyntaxError Stmt)}
      {outcomes : List (Except SyntaxError Stmt)} (first : Turn tokens outcome middle)
      (others : Turns middle outcomes rest) : Turns tokens (outcome.toList ++ outcomes) rest

theorem Turn.behind {tokens rest : List Token} {outcome : Option (Except SyntaxError Stmt)}
    (turn : Turn tokens outcome rest) : Behind rest tokens := by
  cases turn with
  | blank _ => exact behind_cons _ _
  | @line first lineEnd others _ _ _ _ _ =>
      exact (behind_cons lineEnd rest).trans_suffix (List.suffix_append (first :: others) _)
  | @last first _ others _ _ _ _ _ => exact ⟨first :: others, List.cons_ne_nil _ _, rfl⟩

/-- At the end mark there is no turn. -/
theorem not_turn_of_eof {mark : Token} {behind rest : List Token}
    {outcome : Option (Except SyntaxError Stmt)} (isEnd : mark.kind = .eof) :
    ¬Turn (mark :: behind) outcome rest := by
  intro turn
  have notPlain : mark.kind.endsLine ≠ false := by
    rw [isEnd]
    decide
  cases turn with
  | blank isLineEnd =>
      rw [isEnd] at isLineEnd
      cases isLineEnd
  | line plain | last plain => exact notPlain (plain mark List.mem_cons_self)

/-- The statement of a line leads to one outcome, which is what is read from the line. -/
theorem leadsTo_statement_iff {stop first : Token} {others : List Token}
    {outcome : Except SyntaxError Stmt} :
    (Call.script stop (.statement first others)).LeadsTo stop
      (outcome.map fun stmt => (stmt, [])) ↔ read? ⟨first :: others, stop⟩ = some outcome := by
  have readEq : read? ⟨first :: others, stop⟩ = some (Stmt.read stop first others) := rfl
  rw [Call.leadsTo_iff, readEq, Option.some_inj, Call.outcome, eq_comm]
  cases outcome <;> cases Stmt.read stop first others <;> simp [Except.map, bind, Except.bind]

/-- What is read from a sequence is what the first turn gives and what is read from the
rest. -/
theorem Turn.filterMap_read {tokens rest : List Token}
    {outcome : Option (Except SyntaxError Stmt)} (turn : Turn tokens outcome rest) :
    (split tokens).filterMap read? = outcome.toList ++ (split rest).filterMap read? := by
  cases turn with
  | blank isLineEnd =>
      rw [split_cons_of_newline rest isLineEnd]
      rfl
  | line plain isLineEnd reads =>
      rw [split_append plain (split_cons_of_newline rest isLineEnd),
        List.filterMap_cons_some (leadsTo_statement_iff.1 reads)]
      rfl
  | last plain isEnd reads =>
      rw [split_append plain (split_cons_of_eof _ isEnd), split_cons_of_eof _ isEnd,
        List.filterMap_cons_some (leadsTo_statement_iff.1 reads)]
      rfl

theorem Turns.filterMap_read {tokens rest : List Token}
    {outcomes : List (Except SyntaxError Stmt)} (turns : Turns tokens outcomes rest) :
    (split tokens).filterMap read? = outcomes ++ (split rest).filterMap read? := by
  induction turns with
  | nil tokens => rfl
  | cons first _ ih => rw [first.filterMap_read, ih, List.append_assoc]

/-- Where the end mark is ahead and not next, there is a turn to take. -/
theorem exists_turn {next : Token} {tokens : List Token}
    (ended : ∃ token ∈ next :: tokens, token.kind = .eof) (notEnd : next.kind ≠ .eof) :
    ∃ outcome rest, Turn (next :: tokens) outcome rest ∧ ∃ token ∈ rest, token.kind = .eof := by
  rcases ended with ⟨mark, isToken, isEnd⟩
  have found : ((next :: tokens).find? fun token => token.kind.endsLine).isSome := by
    rw [List.find?_isSome]
    exact ⟨mark, isToken, by rw [isEnd]; rfl⟩
  rcases Option.isSome_iff_exists.1 found with ⟨stop, stopFound⟩
  rcases List.find?_eq_some_iff_append.1 stopFound with ⟨stopEnds, run, rest, tokensEq, plain⟩
  replace plain : ∀ token ∈ run, token.kind.endsLine = false := fun token inRun =>
    Bool.not_eq_true' _ ▸ plain token inRun
  -- The end mark is not in front of the first token that ends a line.
  have inRest : mark ∈ stop :: rest := by
    rw [tokensEq] at isToken
    rcases List.mem_append.1 isToken with inRun | inRest
    · have plainMark := plain mark inRun
      rw [isEnd] at plainMark
      cases plainMark
    · exact inRest
  -- Behind a line end, the end mark is among the rest.
  have restEnded (isLineEnd : stop.kind = .newline) : ∃ token ∈ rest, token.kind = .eof := by
    rcases List.mem_cons.1 inRest with rfl | inRest
    · rw [isLineEnd] at isEnd
      cases isEnd
    · exact ⟨mark, inRest, isEnd⟩
  cases run with
  | nil =>
      rcases List.cons_eq_cons.1 tokensEq with ⟨rfl, rfl⟩
      have isLineEnd := (Kind.eq_of_endsLine stopEnds).resolve_left notEnd
      exact ⟨none, _, .blank isLineEnd, restEnded isLineEnd⟩
  | cons first others =>
      have reads := leadsTo_statement_iff.2 (rfl : read? ⟨first :: others, stop⟩ = some _)
      rw [tokensEq]
      rcases Kind.eq_of_endsLine stopEnds with stopIsEnd | isLineEnd
      · exact ⟨_, _, .last plain stopIsEnd reads, stop, List.mem_cons_self, stopIsEnd⟩
      · exact ⟨_, _, .line plain isLineEnd reads, restEnded isLineEnd⟩

/-- One turn after another leads to the end mark. -/
theorem exists_turns {tokens : List Token} (ended : ∃ token ∈ tokens, token.kind = .eof) :
    ∃ outcomes mark rest, Turns tokens outcomes (mark :: rest) ∧ mark.kind = .eof := by
  cases tokens with
  | nil =>
      rcases ended with ⟨_, isToken, -⟩
      cases isToken
  | cons next others =>
      by_cases isEnd : next.kind = .eof
      · exact ⟨[], next, others, .nil _, isEnd⟩
      · rcases exists_turn ended isEnd with ⟨outcome, middle, turn, middleEnded⟩
        have shorter := turn.behind.length_lt
        rcases exists_turns middleEnded with ⟨outcomes, mark, rest, turns, marks⟩
        exact ⟨_, mark, rest, .cons turn turns, marks⟩
termination_by tokens.length

end Line

/-- Reading always ends.  Line by line, a token sequence is passed until no turn is left,
and every turn passes one token at least.  The script of each reader leads to one
outcome, and that is what the reader gives.  On the way, a reader that is called in the
course of a call of itself starts at a later token: so do the expressions inside of an
expression, and the readers of operators, factorial marks, items, clauses and parameters
when they call themselves to go on.  An expression that starts at the mark behind the
last token fails, and no other expression is read for it. -/
theorem reading_always_ends {tokens : List Token} (ended : ∃ token ∈ tokens, token.kind = .eof) :
    (∃ outcomes last, Line.Turns tokens outcomes last ∧
      (∀ outcome rest, ¬Line.Turn last outcome rest) ∧
      Parsed.ofTokens tokens = .ofOutcomes outcomes) ∧
    (∀ ahead outcome rest, Line.Turn ahead outcome rest → Behind rest ahead) ∧
    ∀ stop : Token,
      (∀ (call : AnyCall) outcome,
        (call.2.script stop).LeadsTo stop outcome ↔ outcome = call.2.outcome stop) ∧
      (∀ outer inner : AnyCall, Relation.TransGen (AnyCall.Makes stop) outer inner →
        inner.2.reader = outer.2.reader → Behind inner.2.ahead outer.2.ahead) ∧
      ∀ behind : Option Level,
        (Call.script stop (.expression behind [])).LeadsTo stop
          (.error (.blaming stop .unexpectedStart)) ∧
        ∀ inner, Relation.TransGen (AnyCall.Makes stop) ⟨_, .expression behind []⟩ inner →
          inner.2.reader ≠ .expression := by
  refine ⟨?_, fun _ _ _ turn => turn.behind, fun stop => ⟨fun _ _ => Call.leadsTo_iff,
    fun _ _ inside sameReader => AnyCall.behind_of_makes inside sameReader, ?_⟩⟩
  · rcases Line.exists_turns ended with ⟨outcomes, mark, rest, turns, isEnd⟩
    refine ⟨outcomes, mark :: rest, turns, fun _ _ => Line.not_turn_of_eof isEnd, ?_⟩
    have nothingLeft : (Line.split (mark :: rest)).filterMap Line.read? = [] := by
      rw [Line.split_cons_of_eof rest isEnd]
      rfl
    rw [Parsed.ofTokens, turns.filterMap_read, nothingLeft, List.append_nil]
  · intro behind
    refine ⟨Call.leadsTo_iff.2 (Call.outcome_expression_nil stop behind).symm, ?_⟩
    intro inner inside sameReader
    have shorter := (AnyCall.behind_of_makes inside sameReader).length_lt
    exact absurd shorter (Nat.not_lt_zero _)

/-- Two parentheses that are never closed. -/
theorem reading_always_ends_unclosed :
    let outer : Token := ⟨.lparen, "(", "", ⟨0, 1, 1⟩⟩
    let inner : Token := ⟨.lparen, "(", "", ⟨1, 1, 2⟩⟩
    let mark : Token := ⟨.eof, "", "", ⟨2, 1, 3⟩⟩
    (∃ token ∈ [outer, inner, mark], token.kind = .eof) ∧
      Relation.TransGen (AnyCall.Makes mark) ⟨_, .expression none [outer, inner]⟩
        ⟨_, .expression none [inner]⟩ ∧
      Behind [inner] [outer, inner] ∧
      (Call.expression none [outer, inner]).outcome mark =
        .error (.blaming mark .unexpectedStart) := by
  intro outer inner mark
  have ended : ∃ token ∈ [outer, inner, mark], token.kind = .eof :=
    ⟨mark, List.mem_cons_of_mem _ (List.mem_cons_of_mem _ List.mem_cons_self), rfl⟩
  rcases (reading_always_ends ended).2.2 mark with ⟨leadsTo_iff, later, atMark⟩
  have inside : Relation.TransGen (AnyCall.Makes mark) ⟨_, .expression none [outer, inner]⟩
      ⟨_, .expression none [inner]⟩ :=
    .tail (.tail (.tail (.tail (.tail (.tail (.single .now) .now) .now) .now) .now) .now) .now
  have innerFails : (Call.script mark (.expression none [inner])).LeadsTo mark
      (.error (.blaming mark .unexpectedStart)) :=
    .failed (.failed (.failed (.failed (.failed (.failed (.failed (atMark none).1))))))
  have outerFails : (Call.script mark (.expression none [outer, inner])).LeadsTo mark
      (.error (.blaming mark .unexpectedStart)) :=
    .failed (.failed (.failed (.failed (.failed (.failed (.failed innerFails))))))
  refine ⟨ended, inside, later _ _ inside rfl, ?_⟩
  exact ((leadsTo_iff ⟨_, .expression none [outer, inner]⟩ _).1 outerFails).symm

end GraphCalc
