import GraphCalc.Proofs.Compile.Names
import GraphCalc.Proofs.Compile.Scoping

/-!
# Parameters are bound names

The parameters of a definition are variables of its body, unless a global variable
has the same name.  What they are called is up to the definition: another name gives
the same function, if it is not taken by a global variable, another parameter or a
variable of the body.
-/

namespace GraphCalc

open Compile

/-- Put one name in the place of another. -/
def replaceName (old new : String) (name : String) : String :=
  if name = old then new else name

theorem replaceName_self (old new : String) : replaceName old new old = new :=
  if_pos rfl

theorem replaceName_of_ne {old name : String} (new : String) (isOther : name ≠ old) :
    replaceName old new name = name :=
  if_neg isOther

def Param.rename (change : String → String) (param : Param) : Param :=
  { param with name := change param.name }

/-! ## Parameters in scope -/

/-- A name is looked up among renamed parameters as the old one among the parameters,
if no other parameter gets it.  If it is no parameter, the local variables
around the function decide. -/
theorem getElem?_insertParams_rename {change : String → String} {params : List Param}
    {name : String} {locals others : NameMap ValueType}
    (unique : ∀ param ∈ params, change param.name = change name → param.name = name)
    (known : name ∈ params.map Param.name ∨ others[change name]? = locals[name]?) :
    ((params.map (Param.rename change)).foldl
        (fun locals param => locals.insert param.name param.type) others)[change name]? =
      (params.foldl (fun locals param => locals.insert param.name param.type) locals)[name]? := by
  induction params generalizing locals others with
  | nil =>
      rcases known with isParam | same
      · cases isParam
      · exact same
  | cons param params ih =>
      rw [List.forall_mem_cons] at unique
      rw [List.map_cons, List.mem_cons] at known
      apply ih unique.2
      simp only [Param.rename, Std.ExtTreeMap.getElem?_insert, Std.compare_eq_iff_eq]
      by_cases isName : param.name = name
      · rw [if_pos isName, if_pos (congrArg change isName)]
        exact .inr rfl
      · rw [if_neg isName, if_neg (mt unique.1 isName)]
        rcases known with (isFirst | isParam) | same
        · exact absurd isFirst.symm isName
        · exact .inl isParam
        · exact .inr same

namespace Context

theorem variableType?_withParams_rename {context : Context} {change : String → String}
    {params : List Param} {name : String}
    (sameGlobal : context.globals[change name]? = context.globals[name]?)
    (unique : ∀ param ∈ params, change param.name = change name → param.name = name)
    (known : name ∈ params.map Param.name ∨
      context.locals[change name]? = context.locals[name]?) :
    (context.withParams (params.map (Param.rename change))).variableType? (change name) =
      (context.withParams params).variableType? name := by
  have sameLocal := getElem?_insertParams_rename unique known
  rw [variableType?_eq_or, variableType?_eq_or]
  exact congrArg₂ Option.or sameGlobal sameLocal

/-- A parameter under its new name, and every other variable of the body, stand for
what they stood for before. -/
theorem matches_withParams {context : Context} {params : List Param} {old new : String}
    {names : List String} (callees : List String) (isParam : old ∈ params.map Param.name)
    (oldNotGlobal : context.globals[old]? = none) (newNotGlobal : context.globals[new]? = none)
    (notOther : new ∈ params.map Param.name → new = old) (unused : new ∉ names) :
    Matches (replaceName old new) names callees (context.withParams params)
      (context.withParams (params.map (Param.rename (replaceName old new)))) where
  types := by
    intro name occurs
    by_cases isOld : name = old
    · subst isOld
      apply variableType?_withParams_rename
      · rw [replaceName_self, oldNotGlobal, newNotGlobal]
      · intro param isOne renamed
        by_contra isOther
        rw [replaceName_self, replaceName_of_ne new isOther] at renamed
        have isNew := notOther (renamed ▸ List.mem_map_of_mem isOne)
        exact isOther (renamed.trans isNew)
      · exact .inl isParam
    · have sameName := replaceName_of_ne new isOld
      apply variableType?_withParams_rename
      · rw [sameName]
      · intro param _ renamed
        rw [sameName] at renamed
        by_cases isOldParam : param.name = old
        · rw [isOldParam, replaceName_self] at renamed
          exact absurd (renamed ▸ occurs) unused
        · rwa [replaceName_of_ne new isOldParam] at renamed
      · rw [sameName]
        exact .inr rfl
  unknown := by
    intro name _ undefined
    apply replaceName_of_ne
    rintro rfl
    rw [variableType?_eq_or, Option.or_eq_none_iff] at undefined
    have isLocal := (mem_locals_withParams_iff context params name).2 (.inr isParam)
    rw [Std.ExtTreeMap.mem_iff_isSome_getElem?, undefined.2] at isLocal
    cases isLocal
  signatures _ _ := rfl

end Context

/-- Parameters are bound names.  Let a parameter have a name that no global variable
has, and let another name belong to no global variable, to no other parameter and to
no variable of the body.  Let it take the place of the first name among the parameters
and wherever that is a variable of the body, but not where it names a mapped function.
Then the definition fails as before, with the same fault, or it succeeds as before,
enters the same signature, and has the formula it had with the new name in the place of
the old one among the parameters and variables. -/
theorem parameters_are_bound_names (context : Context) (span : Span) (function : String)
    (params : List Param) (returns : Option ValueType) (body : Expr) (old new : String)
    (isParam : old ∈ params.map Param.name)
    (oldNotGlobal : context.globals[old]? = none) (newNotGlobal : context.globals[new]? = none)
    (notOther : new ∈ params.map Param.name → new = old) (unused : new ∉ body.variableNames) :
    let change := replaceName old new
    let names := params.map Param.name
    let original := Stmt.compile context (.define span function params returns body)
    let renamed := Stmt.compile context
      (.define span function (params.map (Param.rename change)) returns (body.rename change))
    (∃ fault, original.outcome = .error fault ∧ renamed = original) ∨
    ∃ (notes : List Note) (type : ValueType) (formula : Formula),
      let signature : Signature := ⟨params.map Param.type, type, false⟩
      original = ⟨notes ++ [.registered function names signature],
        .ok (.define function names formula, context.define function signature)⟩ ∧
      renamed = ⟨notes ++ [.registered function (names.map change) signature],
        .ok (.define function (names.map change) (formula.rename change),
          context.define function signature)⟩ := by
  intro change names original renamed
  have bodyRenamed := body.compile_rename (context.matches_withParams body.callees isParam
    oldNotGlobal newNotGlobal notOther unused)
  have sameTypes : (params.map (Param.rename change)).map Param.type = params.map Param.type := by
    rw [List.map_map]
    rfl
  have newNames : (params.map (Param.rename change)).map Param.name = names.map change := by
    rw [List.map_map, List.map_map]
    rfl
  have originalEq : original = _ := Stmt.compile_define ..
  have renamedEq : renamed = _ := Stmt.compile_define ..
  rw [bodyRenamed, Expr.span_rename, sameTypes, newNames] at renamedEq
  rw [originalEq, renamedEq]
  rcases body.compile (context.withParams params) with ⟨notes, fault | value⟩
  · exact .inl ⟨fault, rfl, rfl⟩
  · -- The type of the body is the same, so the announced type is checked with one outcome.
    simp only [bind, Logged.map, Except.map, Typed.rename]
    rcases checkReturn body.span returns value.type with ⟨checkNotes, fault | done⟩
    · exact .inl ⟨fault, rfl, rfl⟩
    · refine .inr ⟨notes ++ checkNotes, value.type, value.formula, ?_, ?_⟩
      · simp only [List.append_assoc]
        rfl
      · simp only [List.append_assoc]
        rfl

/-- In the body of a definition with the parameter `p`, the first `p` of
`map!(p, [p])` names a function.  Only the second one becomes `q`, although there is
a local variable `q` outside. -/
theorem parameters_are_bound_names_mapped :
    let place : Span := .nowhere
    let context : Context := ⟨∅, (∅ : NameMap ValueType).insert "q" .list,
      (∅ : NameMap Signature).insert "p" ⟨[.number], .number, false⟩⟩
    let params : List Param := [⟨place, "p", .number⟩]
    let body : Expr :=
      .macroCall place mapName [.var place "p", .list place [.var place "p"]]
    let renamedBody : Expr :=
      .macroCall place mapName [.var place "p", .list place [.var place "q"]]
    let signature : Signature := ⟨[.number], .number, false⟩
    "p" ∈ params.map Param.name ∧ "q" ∉ body.variableNames ∧
      body.rename (replaceName "p" "q") = renamedBody ∧
      Stmt.compile context (.define place "f" [⟨place, "q", .number⟩] none renamedBody) =
        ⟨[.expanding "p" 1, .registered "f" ["q"] signature],
          .ok (.define "f" ["q"] (.call "p" false [.list [.var "q"]]),
            context.define "f" signature)⟩ := by
  intro place context params body renamedBody signature
  have isParam : "p" ∈ params.map Param.name := List.mem_cons_self
  have unused : "q" ∉ body.variableNames := by decide
  have originalEq : Stmt.compile context (.define place "f" params none body) =
      ⟨[.expanding "p" 1, .registered "f" ["p"] signature],
        .ok (.define "f" ["p"] (.call "p" false [.list [.var "p"]]),
          context.define "f" signature)⟩ := by
    dsimp only [place, context, params, body, signature]
    rfl
  refine ⟨isParam, unused, rfl, ?_⟩
  rcases parameters_are_bound_names context place "f" params none body "p" "q" isParam rfl rfl
    (by decide) unused with ⟨fault, failed, -⟩ | ⟨notes, type, formula, original, renamed⟩
  · rw [originalEq] at failed
    cases failed
  · rw [originalEq] at original
    rcases Logged.mk.inj original with ⟨notesEq, outcomeEq⟩
    have partsEq : [Note.expanding "p" 1] ++ [_] = notes ++ [_] := notesEq
    rcases List.append_inj' partsEq rfl with ⟨rfl, entryEq⟩
    have typeEq : ValueType.number = type :=
      congrArg Signature.result (Note.registered.inj (List.cons.inj entryEq).1).2.2
    have formulaEq := (Formula.define.inj (Prod.mk.inj (Except.ok.inj outcomeEq)).1).2.2
    rw [← typeEq, ← formulaEq] at renamed
    exact renamed

end GraphCalc
