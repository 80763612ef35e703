import GraphCalc.Globals.Declarations

/-!
# Resolving declarations

The declarations of a globals file are the entries of a map, and a map can be listed in
any order.  Whichever it is, resolving them gives the same: the types of all variables
if every type name is known, or else the declarations whose type names are not, in the
order of the variables' names.
-/

namespace GraphCalc

open Text (Bytes utf8)

/-! ## Type names -/

theorem Text.toByteArray_eq (text : String) : text.toByteArray = ⟨(utf8 text).toArray⟩ := by
  rw [← String.utf8Encode_toList]
  exact ByteArray.ext List.data_toByteArray

/-- Bytes are read as a text exactly if they are its encoding. -/
theorem Text.ofUtf8?_eq_some_iff (bytes : Bytes) (text : String) :
    Text.ofUtf8? bytes = some text ↔ bytes = utf8 text := by
  have arrays : (⟨bytes.toArray⟩ : ByteArray) = text.toByteArray ↔ bytes = utf8 text := by
    rw [Text.toByteArray_eq, ByteArray.mk.injEq]
    exact ⟨List.toArray_inj, congrArg List.toArray⟩
  rw [← arrays, Text.ofUtf8?, String.fromUTF8?]
  split
  · rename_i valid
    rw [Option.some.injEq, ← String.toByteArray_inj]
    rfl
  · rename_i invalid
    refine iff_of_false (Option.some_ne_none text).symm ?_
    intro arrayEq
    rw [arrayEq] at invalid
    exact invalid text.isValidUTF8

theorem ValueType.ofName?_eq_some_iff (name : String) (type : ValueType) :
    ofName? name = some type ↔ type = .number ∧ name = "Number" ∨ type = .list ∧ name = "List" := by
  rw [ofName?, ValueType.name, ValueType.name]
  by_cases isNumber : name = "Number"
  · subst isNumber
    rw [if_pos rfl]
    simp [eq_comm]
  · rw [if_neg isNumber]
    by_cases isList : name = "List"
    · simp [isList, eq_comm]
    · simp [isNumber, isList]

/-- Whether bytes are one of the type names of the language. -/
def IsTypeName (typeName : Bytes) : Prop :=
  typeName = utf8 "Number" ∨ typeName = utf8 "List"

instance (typeName : Bytes) : Decidable (IsTypeName typeName) :=
  inferInstanceAs (Decidable (_ ∨ _))

namespace Declaration

theorem type?_eq_some_iff (declaration : Declaration) (type : ValueType) :
    declaration.type? = some type ↔
      type = .number ∧ declaration.typeName = utf8 "Number" ∨
        type = .list ∧ declaration.typeName = utf8 "List" := by
  rw [type?, Option.bind_eq_some_iff]
  simp only [Text.ofUtf8?_eq_some_iff, ValueType.ofName?_eq_some_iff]
  constructor
  · rintro ⟨text, typeNameEq, ⟨isNumber, rfl⟩ | ⟨isList, rfl⟩⟩
    · exact .inl ⟨isNumber, typeNameEq⟩
    · exact .inr ⟨isList, typeNameEq⟩
  · rintro (⟨isNumber, typeNameEq⟩ | ⟨isList, typeNameEq⟩)
    · exact ⟨"Number", typeNameEq, .inl ⟨isNumber, rfl⟩⟩
    · exact ⟨"List", typeNameEq, .inr ⟨isList, rfl⟩⟩

theorem type?_eq_none_iff (declaration : Declaration) :
    declaration.type? = none ↔ ¬IsTypeName declaration.typeName := by
  rw [Option.eq_none_iff_forall_ne_some]
  simp only [ne_eq, type?_eq_some_iff, IsTypeName]
  constructor
  · rintro noType (isNumber | isList)
    · exact noType .number (.inl ⟨rfl, isNumber⟩)
    · exact noType .list (.inr ⟨rfl, isList⟩)
  · rintro unknown type (⟨-, isNumber⟩ | ⟨-, isList⟩)
    · exact unknown (.inl isNumber)
    · exact unknown (.inr isList)

/-! ## Declarations in order -/

/-- Whether no two declarations are of the same variable. -/
def Distinct (declarations : List Declaration) : Prop :=
  declarations.Pairwise fun first second => first.name ≠ second.name

theorem Distinct.perm {declarations others : List Declaration} (distinct : Distinct declarations)
    (perm : declarations.Perm others) : Distinct others :=
  List.Pairwise.perm distinct perm Ne.symm

theorem sorted_perm (declarations : List Declaration) :
    (sorted declarations).Perm declarations :=
  List.mergeSort_perm _ _

/-- The names of sorted declarations ascend. -/
theorem Distinct.pairwise_sorted {declarations : List Declaration}
    (distinct : Distinct declarations) :
    (sorted declarations).Pairwise fun first second => first.name < second.name := by
  have transitive (first second third : Declaration)
      (firstLe : decide (first.name ≤ second.name) = true)
      (secondLe : decide (second.name ≤ third.name) = true) :
      decide (first.name ≤ third.name) = true :=
    decide_eq_true (List.le_trans (of_decide_eq_true firstLe) (of_decide_eq_true secondLe))
  have total (first second : Declaration) :
      (decide (first.name ≤ second.name) || decide (second.name ≤ first.name)) = true := by
    rw [Bool.or_eq_true, decide_eq_true_iff, decide_eq_true_iff]
    exact List.le_total first.name second.name
  have ascending := List.pairwise_mergeSort transitive total declarations
  refine (ascending.and (distinct.perm (sorted_perm declarations).symm)).imp ?_
  rintro first second ⟨firstLe, namesNe⟩
  refine Decidable.by_contra fun notLess => namesNe ?_
  exact List.le_antisymm (of_decide_eq_true firstLe) (List.not_lt.1 notLess)

/-- Declarations with ascending names are determined by which they are. -/
theorem eq_of_ascending {declarations others : List Declaration}
    (ascending : declarations.Pairwise fun first second => first.name < second.name)
    (othersAscending : others.Pairwise fun first second => first.name < second.name)
    (sameMembers : ∀ declaration, declaration ∈ declarations ↔ declaration ∈ others) :
    declarations = others := by
  have different {first second : Declaration} (less : first.name < second.name) :
      first ≠ second := by
    rintro rfl
    exact List.lt_irrefl _ less
  refine List.Perm.eq_of_pairwise ?_ ascending othersAscending
    ((List.perm_ext_iff_of_nodup (ascending.imp different) (othersAscending.imp different)).2
      sameMembers)
  intro first second _ _ firstLess secondLess
  exact absurd secondLess (List.lt_asymm firstLess)

/-- The order of declarations does not matter once they are sorted. -/
theorem Distinct.sorted_eq_of_perm {declarations others : List Declaration}
    (distinct : Distinct declarations) (perm : declarations.Perm others) :
    sorted declarations = sorted others := by
  refine eq_of_ascending distinct.pairwise_sorted (distinct.perm perm).pairwise_sorted ?_
  intro declaration
  rw [(sorted_perm declarations).mem_iff, perm.mem_iff, (sorted_perm others).mem_iff]

/-! ## The two results -/

/-- The declarations whose type names are unknown, in order. -/
def unknown (declarations : List Declaration) : List Declaration :=
  (sorted declarations).filter fun declaration => declaration.type?.isNone

/-- The variables of the other declarations, with their types. -/
def typed (declarations : List Declaration) : List (Bytes × ValueType) :=
  declarations.filterMap fun declaration =>
    declaration.type?.map fun type => (declaration.name, type)

theorem mem_unknown {declarations : List Declaration} {declaration : Declaration} :
    declaration ∈ unknown declarations ↔
      declaration ∈ declarations ∧ ¬IsTypeName declaration.typeName := by
  rw [unknown, List.mem_filter, (sorted_perm declarations).mem_iff, Option.isNone_iff_eq_none,
    type?_eq_none_iff]

theorem mem_typed {declarations : List Declaration} {name : Bytes} {type : ValueType} :
    (name, type) ∈ typed declarations ↔
      ∃ declaration ∈ declarations, declaration.name = name ∧ declaration.type? = some type := by
  simp only [typed, List.mem_filterMap, Option.map_eq_some_iff, Prod.mk.injEq]
  constructor
  · rintro ⟨declaration, isMember, _, typeEq, nameEq, rfl⟩
    exact ⟨declaration, isMember, nameEq, typeEq⟩
  · rintro ⟨declaration, isMember, nameEq, typeEq⟩
    exact ⟨declaration, isMember, type, typeEq, nameEq, rfl⟩

theorem Distinct.pairwise_typed {declarations : List Declaration}
    (distinct : Distinct declarations) :
    (typed declarations).Pairwise fun first second => ¬compare first.1 second.1 = .eq := by
  rw [typed, List.pairwise_filterMap]
  refine distinct.imp ?_
  intro first second namesNe firstEntry firstEq secondEntry secondEq sameKey
  rcases Option.map_eq_some_iff.1 firstEq with ⟨_, -, rfl⟩
  rcases Option.map_eq_some_iff.1 secondEq with ⟨_, -, rfl⟩
  exact namesNe (Std.compare_eq_iff_eq.1 sameKey)

theorem Distinct.getElem?_ofList_typed {declarations : List Declaration}
    (distinct : Distinct declarations) (name : Bytes) (type : ValueType) :
    (Std.ExtTreeMap.ofList (typed declarations) compare)[name]? = some type ↔
      (name, type) ∈ typed declarations := by
  have present {type : ValueType} (isMember : (name, type) ∈ typed declarations) :
      (Std.ExtTreeMap.ofList (typed declarations) compare)[name]? = some type :=
    Std.ExtTreeMap.getElem?_ofList_of_mem Std.ReflCmp.compare_self distinct.pairwise_typed isMember
  refine ⟨?_, present⟩
  intro found
  have isKey : name ∈ Std.ExtTreeMap.ofList (typed declarations) compare := by
    rw [Std.ExtTreeMap.mem_iff_isSome_getElem?, found]
    rfl
  rw [Std.ExtTreeMap.mem_ofList, List.contains_iff_mem, List.mem_map] at isKey
  rcases isKey with ⟨⟨_, other⟩, isMember, rfl⟩
  rw [present isMember, Option.some.injEq] at found
  rwa [← found]

/-- Resolving succeeds if every type name is known, and otherwise gives the declarations
with those that are not. -/
theorem resolve_cases (declarations : List Declaration) :
    ((∀ declaration ∈ declarations, IsTypeName declaration.typeName) ∧
      resolve declarations = .ok (.ofList (typed declarations) compare)) ∨
    ((¬∀ declaration ∈ declarations, IsTypeName declaration.typeName) ∧
      resolve declarations = .error (unknown declarations)) := by
  have resolveEq : resolve declarations =
      if (unknown declarations).isEmpty then .ok (.ofList (typed declarations) compare)
      else .error (unknown declarations) := rfl
  have emptyIff : unknown declarations = [] ↔
      ∀ declaration ∈ declarations, IsTypeName declaration.typeName := by
    simp only [List.eq_nil_iff_forall_not_mem, mem_unknown, not_and, Classical.not_not]
  rw [resolveEq]
  by_cases isEmpty : unknown declarations = []
  · exact .inl ⟨emptyIff.1 isEmpty, if_pos (List.isEmpty_iff.2 isEmpty)⟩
  · exact .inr ⟨mt emptyIff.2 isEmpty, if_neg (mt List.isEmpty_iff.1 isEmpty)⟩

/-- Resolving gives the same for the same declarations in another order. -/
theorem Distinct.resolve_eq_of_perm {declarations others : List Declaration}
    (distinct : Distinct declarations) (perm : declarations.Perm others) :
    resolve declarations = resolve others := by
  have sameUnknown : unknown declarations = unknown others := by
    rw [unknown, unknown, distinct.sorted_eq_of_perm perm]
  have sameTypes : Std.ExtTreeMap.ofList (typed declarations) compare =
      Std.ExtTreeMap.ofList (typed others) compare := by
    refine Std.ExtTreeMap.ext_getElem? fun name => Option.ext fun type => ?_
    rw [distinct.getElem?_ofList_typed, (distinct.perm perm).getElem?_ofList_typed, typed, typed]
    exact (perm.filterMap _).mem_iff
  rcases resolve_cases declarations with ⟨known, resolveEq⟩ | ⟨unknown, resolveEq⟩
  · rcases resolve_cases others with ⟨-, otherEq⟩ | ⟨otherUnknown, -⟩
    · rw [resolveEq, otherEq, sameTypes]
    · exact absurd (fun declaration isMember => known declaration (perm.mem_iff.2 isMember))
        otherUnknown
  · rcases resolve_cases others with ⟨otherKnown, -⟩ | ⟨-, otherEq⟩
    · exact absurd (fun declaration isMember => otherKnown declaration (perm.mem_iff.1 isMember))
        unknown
    · rw [resolveEq, otherEq, sameUnknown]

/-! ## Maps -/

/-- The entries of a map from names to type names. -/
def ofMap (globals : Std.ExtTreeMap Bytes Bytes compare) : List Declaration :=
  globals.toList.map fun (name, typeName) => ⟨name, typeName⟩

theorem mem_ofMap {globals : Std.ExtTreeMap Bytes Bytes compare} {declaration : Declaration} :
    declaration ∈ ofMap globals ↔ globals[declaration.name]? = some declaration.typeName := by
  rw [← Std.ExtTreeMap.mem_toList_iff_getElem?_eq_some, ofMap, List.mem_map]
  constructor
  · rintro ⟨⟨name, typeName⟩, isMember, rfl⟩
    exact isMember
  · exact fun isMember => ⟨_, isMember, rfl⟩

theorem distinct_ofMap (globals : Std.ExtTreeMap Bytes Bytes compare) :
    Distinct (ofMap globals) := by
  rw [Distinct, ofMap, List.pairwise_map]
  refine Std.ExtTreeMap.distinct_keys_toList.imp ?_
  intro first second notEq namesEq
  exact notEq (Std.compare_eq_iff_eq.2 namesEq)

section

variable {globals : Std.ExtTreeMap Bytes Bytes compare} {declarations : List Declaration}

theorem mem_of_perm_ofMap (listed : declarations.Perm (ofMap globals))
    (declaration : Declaration) :
    declaration ∈ declarations ↔ globals[declaration.name]? = some declaration.typeName := by
  rw [listed.mem_iff, mem_ofMap]

theorem forall_isTypeName_iff (listed : declarations.Perm (ofMap globals)) :
    (∀ declaration ∈ declarations, IsTypeName declaration.typeName) ↔
      ∀ name typeName : Bytes, globals[name]? = some typeName → IsTypeName typeName := by
  constructor
  · intro known name typeName found
    exact known ⟨name, typeName⟩ ((mem_of_perm_ofMap listed _).2 found)
  · intro known declaration isMember
    exact known _ _ ((mem_of_perm_ofMap listed declaration).1 isMember)

/-- The type of a variable is the one with the type name that the map has for it. -/
theorem getElem?_ofList_typed_iff (listed : declarations.Perm (ofMap globals)) (name : Bytes)
    (type : ValueType) :
    (Std.ExtTreeMap.ofList (typed declarations) compare)[name]? = some type ↔
      type = .number ∧ globals[name]? = some (utf8 "Number") ∨
        type = .list ∧ globals[name]? = some (utf8 "List") := by
  have distinct := (distinct_ofMap globals).perm listed.symm
  rw [distinct.getElem?_ofList_typed, mem_typed]
  simp only [mem_of_perm_ofMap listed, type?_eq_some_iff]
  constructor
  · rintro ⟨declaration, found, rfl, ⟨isNumber, typeNameEq⟩ | ⟨isList, typeNameEq⟩⟩
    · exact .inl ⟨isNumber, typeNameEq ▸ found⟩
    · exact .inr ⟨isList, typeNameEq ▸ found⟩
  · rintro (⟨isNumber, found⟩ | ⟨isList, found⟩)
    · exact ⟨⟨name, utf8 "Number"⟩, found, rfl, .inl ⟨isNumber, rfl⟩⟩
    · exact ⟨⟨name, utf8 "List"⟩, found, rfl, .inr ⟨isList, rfl⟩⟩

/-- If all type names are known, the same names have types as have type names. -/
theorem mem_ofList_typed_iff (listed : declarations.Perm (ofMap globals))
    (known : ∀ name typeName : Bytes, globals[name]? = some typeName → IsTypeName typeName)
    (name : Bytes) :
    name ∈ Std.ExtTreeMap.ofList (typed declarations) compare ↔ name ∈ globals := by
  rw [Std.ExtTreeMap.mem_iff_isSome_getElem?, Std.ExtTreeMap.mem_iff_isSome_getElem?,
    Option.isSome_iff_exists, Option.isSome_iff_exists]
  simp only [getElem?_ofList_typed_iff listed]
  constructor
  · rintro ⟨type, ⟨-, found⟩ | ⟨-, found⟩⟩
    · exact ⟨_, found⟩
    · exact ⟨_, found⟩
  · rintro ⟨typeName, found⟩
    rcases known name typeName found with rfl | rfl
    · exact ⟨.number, .inl ⟨rfl, found⟩⟩
    · exact ⟨.list, .inr ⟨rfl, found⟩⟩

end

end Declaration

open Declaration

/-- Resolving a map of declarations is complete, all or nothing, and does not depend on
the order in which the map is listed.  It succeeds exactly if every type name is known,
and then has the same names with the types of these type names; otherwise it gives the
declarations with unknown type names, which are ascending by name and so listed
once each, and no others. -/
theorem resolving_is_all_or_nothing {globals : Std.ExtTreeMap Bytes Bytes compare}
    {declarations : List Declaration} (listed : declarations.Perm (ofMap globals)) :
    ((∃ types, resolve declarations = .ok types) ↔
      ∀ name typeName : Bytes, globals[name]? = some typeName → IsTypeName typeName) ∧
    (∀ types, resolve declarations = .ok types → ∀ name,
      (name ∈ types ↔ name ∈ globals) ∧
      (types[name]? = some .number ↔ globals[name]? = some (utf8 "Number")) ∧
      (types[name]? = some .list ↔ globals[name]? = some (utf8 "List"))) ∧
    (∀ unknown, resolve declarations = .error unknown →
      unknown.Pairwise (fun first second => first.name < second.name) ∧
      ∀ declaration, declaration ∈ unknown ↔
        globals[declaration.name]? = some declaration.typeName ∧
          ¬IsTypeName declaration.typeName) ∧
    ∀ others, others.Perm (ofMap globals) → resolve others = resolve declarations := by
  have distinct := (distinct_ofMap globals).perm listed.symm
  have independent (others : List Declaration) (othersListed : others.Perm (ofMap globals)) :
      resolve others = resolve declarations :=
    (distinct.resolve_eq_of_perm (listed.trans othersListed.symm)).symm
  have knownIff := forall_isTypeName_iff listed
  rcases resolve_cases declarations with ⟨known, resolveEq⟩ | ⟨notKnown, resolveEq⟩
  · rw [knownIff] at known
    refine ⟨iff_of_true ⟨_, resolveEq⟩ known, ?_, ?_, independent⟩
    · intro types succeeded name
      cases resolveEq.symm.trans succeeded
      refine ⟨mem_ofList_typed_iff listed known name, ?_, ?_⟩
      · simp [getElem?_ofList_typed_iff listed]
      · simp [getElem?_ofList_typed_iff listed]
    · intro unknown failed
      cases resolveEq.symm.trans failed
  · refine ⟨iff_of_false ?_ (mt knownIff.2 notKnown), ?_, ?_, independent⟩
    · rintro ⟨types, succeeded⟩
      cases resolveEq.symm.trans succeeded
    · intro types succeeded
      cases resolveEq.symm.trans succeeded
    · intro unknown failed
      cases resolveEq.symm.trans failed
      refine ⟨distinct.pairwise_sorted.filter _, ?_⟩
      intro declaration
      rw [mem_unknown, mem_of_perm_ofMap listed]

/-- Two unknown type names among four are complained about in the order of the
variables, however the map is listed. -/
theorem resolving_is_all_or_nothing_mistakes :
    let globals : Std.ExtTreeMap Bytes Bytes compare :=
      .ofList [(utf8 "y", utf8 "Real"), (utf8 "x", utf8 "Number"), (utf8 "a", utf8 "number"),
        (utf8 "l", utf8 "List")] compare
    let declarations : List Declaration :=
      [⟨utf8 "l", utf8 "List"⟩, ⟨utf8 "y", utf8 "Real"⟩, ⟨utf8 "x", utf8 "Number"⟩,
        ⟨utf8 "a", utf8 "number"⟩]
    let unknown : List Declaration := [⟨utf8 "a", utf8 "number"⟩, ⟨utf8 "y", utf8 "Real"⟩]
    declarations.Perm (ofMap globals) ∧ resolve declarations = .error unknown ∧
      ∀ others, others.Perm (ofMap globals) → resolve others = .error unknown := by
  intro globals declarations unknown
  have listed : declarations.Perm (ofMap globals) := by decide +kernel
  rcases resolving_is_all_or_nothing listed with ⟨succeedsIff, -, mistakes, independent⟩
  have failed : resolve declarations = .error unknown := by
    cases resolveEq : resolve declarations with
    | ok types =>
        have isKnown := succeedsIff.1 ⟨types, resolveEq⟩ (utf8 "y") (utf8 "Real") (by rfl)
        exact absurd isKnown (by decide)
    | error result =>
        rcases mistakes result resolveEq with ⟨ascending, members⟩
        have sameMembers (declaration : Declaration) :
            declaration ∈ result ↔ declaration ∈ unknown := by
          have isMistaken : declaration ∈ declarations.filter (fun declaration =>
              ¬IsTypeName declaration.typeName) ↔ declaration ∈ unknown.reverse := by
            have filterEq : declarations.filter (fun declaration =>
                ¬IsTypeName declaration.typeName) = unknown.reverse := by decide +kernel
            rw [filterEq]
          rw [List.mem_reverse, List.mem_filter, decide_eq_true_iff] at isMistaken
          rw [members, ← mem_of_perm_ofMap listed, isMistaken]
        rw [eq_of_ascending ascending (by decide +kernel) sameMembers]
  refine ⟨listed, failed, ?_⟩
  intro others othersListed
  rw [independent others othersListed, failed]

end GraphCalc
