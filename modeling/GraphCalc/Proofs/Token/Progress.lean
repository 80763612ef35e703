import GraphCalc.Proofs.Token.Runs
import GraphCalc.Proofs.Token.Offsets

/-!
# Tokens up to the end of the text

Reading the next token moves ahead in the text or, at the end of the text, changes
nothing.  A cursor always stands inside the text: what is ahead of it and what it has
passed make up the text before the first NUL.  Hence the end mark comes after no more
tokens than there are characters, and once it has come nothing else does.
-/

namespace GraphCalc

open Lexeme

/-- The text of a token is at the front of the characters it covers. -/
theorem Token.exists_spelling_eq (token : Token) :
    ∃ mark, token.spelling = token.text.toList ++ mark := by
  unfold spelling spell
  split
  · exact ⟨['!'], rfl⟩
  · exact ⟨[], (List.append_nil _).symm⟩

namespace Cursor

/-! ## Calls one after another -/

/-- The cursor that some calls leave behind. -/
def afterCalls (cursor : Cursor) : Nat → Cursor
  | 0 => cursor
  | calls + 1 => (cursor.afterCalls calls).next.2

/-- The token of a call, given how many calls were made before. -/
def call (cursor : Cursor) (earlier : Nat) : Token :=
  (cursor.afterCalls earlier).next.1

theorem afterCalls_add (cursor : Cursor) (early late : Nat) :
    cursor.afterCalls (early + late) = (cursor.afterCalls early).afterCalls late := by
  induction late with
  | zero => rfl
  | succ late ih => rw [← Nat.add_assoc, afterCalls, afterCalls, ih]

theorem call_add (cursor : Cursor) (early late : Nat) :
    cursor.call (early + late) = (cursor.afterCalls early).call late := by
  rw [call, call, afterCalls_add]

/-! ## One call -/

/-- Whether a cursor stands in a text, behind what it has passed and in front of the rest
up to the first NUL. -/
def StandsIn (text : List Char) (cursor : Cursor) : Prop :=
  ∃ passed, text.takeWhile (· ≠ '\x00') = passed ++ cursor.rest ∧ cursor.place = .behind passed

theorem standsIn_ofText (file : String) (text : List Char) :
    (ofText file text).StandsIn text :=
  ⟨[], rfl, rfl⟩

namespace Faces

variable {cursor : Cursor} {layout ahead : List Char}

theorem after_eq_end (faces : cursor.Faces layout []) :
    cursor.next.2 = ⟨cursor.file, [], cursor.place.advance layout, cursor.depth⟩ := by
  have atEnd := faces.spanLayout_eq
  unfold next
  simp only [atEnd]

/-- Reading the end mark a second time changes nothing. -/
theorem next_after_end (faces : cursor.Faces layout []) :
    cursor.next.2.next = (cursor.next.1, cursor.next.2) := by
  rw [faces.after_eq_end, faces.next_eq_end]
  rfl

/-- A token that is read covers the characters of its lexeme. -/
theorem spelling_eq_covered {first : Char} {rest : List Char}
    (faces : cursor.Faces layout (first :: rest)) :
    cursor.next.1.spelling = (read first rest).covered := by
  rw [faces.next_eq_read]
  simp [Token.spelling, spell, covered]

/-- The token and what is left behind it make up the text ahead. -/
theorem spelling_append_rest (faces : cursor.Faces layout ahead) :
    cursor.next.1.spelling ++ cursor.next.2.rest = ahead := by
  cases ahead with
  | nil =>
      rw [faces.after_eq_end, faces.next_eq_end]
      rfl
  | cons first rest =>
      rw [faces.spelling_eq_covered, faces.next_eq_read]
      exact covered_append_rest first rest

/-- A call passes the layout and the token. -/
theorem place_next (faces : cursor.Faces layout ahead) :
    cursor.next.2.place = (cursor.place.advance layout).advance cursor.next.1.spelling := by
  cases ahead with
  | nil =>
      rw [faces.after_eq_end, faces.next_eq_end]
      rfl
  | cons first rest => rw [faces.spelling_eq_covered, faces.next_eq_read]

/-- A call that passes nothing is at the end and leaves the cursor as it is. -/
theorem next_eq_of_stays (faces : cursor.Faces layout ahead)
    (nothing : layout ++ cursor.next.1.spelling = []) :
    cursor.next.1.kind = .eof ∧ cursor.next.2 = cursor := by
  rcases List.append_eq_nil_iff.1 nothing with ⟨rfl, noSpelling⟩
  cases ahead with
  | nil =>
      have atEnd : cursor.rest = [] := faces.parts
      refine ⟨?_, ?_⟩
      · rw [faces.next_eq_end]
      · rw [faces.after_eq_end]
        cases cursor
        cases atEnd
        rfl
  | cons first rest =>
      rw [faces.spelling_eq_covered] at noSpelling
      exact absurd noSpelling (covered_read_ne_nil first rest)

end Faces

namespace StandsIn

variable {text : List Char} {cursor : Cursor}

/-- Where a call stands in the text: behind what was passed there are layout, the token
and what is left. -/
theorem exists_parts (stands : cursor.StandsIn text) :
    ∃ passed layout, text.takeWhile (· ≠ '\x00') =
        passed ++ (layout ++ (cursor.next.1.spelling ++ cursor.next.2.rest)) ∧
      cursor.place = .behind passed ∧ cursor.next.1.start = .behind (passed ++ layout) ∧
      cursor.next.2.place = .behind (passed ++ (layout ++ cursor.next.1.spelling)) ∧
      (layout ++ cursor.next.1.spelling = [] →
        cursor.next.1.kind = .eof ∧ cursor.next.2 = cursor) := by
  rcases stands with ⟨passed, textEq, placeEq⟩
  rcases cursor.exists_faces with ⟨layout, ahead, faces⟩
  refine ⟨passed, layout, ?_, placeEq, ?_, ?_, faces.next_eq_of_stays⟩
  · rw [textEq, faces.parts, faces.spelling_append_rest]
  · rw [faces.start_next, placeEq, Position.advance_behind]
  · rw [faces.place_next, placeEq, Position.advance_behind, Position.advance_behind,
      List.append_assoc]

theorem next (stands : cursor.StandsIn text) : cursor.next.2.StandsIn text := by
  rcases stands.exists_parts with ⟨passed, layout, textEq, -, -, placeEq, -⟩
  refine ⟨_, ?_, placeEq⟩
  rw [textEq]
  simp only [List.append_assoc]

theorem afterCalls (stands : cursor.StandsIn text) (calls : Nat) :
    (cursor.afterCalls calls).StandsIn text := by
  induction calls with
  | zero => exact stands
  | succ calls ih => exact ih.next

end StandsIn

/-- What a call does at a cursor in a text: it moves ahead or stays at the end, it never
leaves the text, and the text of the token is cut out of the text between two offsets
inside it. -/
structure ReadsIn (text : List Char) (cursor : Cursor) : Prop where
  progress : cursor.place.offset < cursor.next.2.place.offset ∨
    cursor.next.1.kind = .eof ∧ cursor.next.2 = cursor
  bounded : 0 ≤ cursor.place.offset ∧ cursor.place.offset ≤ text.idxOf '\x00'
  slice : ∃ first last : Nat, first ≤ last ∧ last ≤ text.idxOf '\x00' ∧
    cursor.next.1.start.offset = first ∧ cursor.next.1.text.toList = text.extract first last ∧
    cursor.next.2.place.offset = (first + cursor.next.1.spelling.length : Nat)

theorem extract_of_take_eq {text front middle behind : List Char} {size : Nat}
    (parts : text.take size = front ++ (middle ++ behind)) :
    text.extract front.length (front.length + middle.length) = middle := by
  rw [← List.take_append_drop size text, parts, List.extract_eq_take_drop]
  simp

theorem StandsIn.readsIn {text : List Char} {cursor : Cursor} (stands : cursor.StandsIn text) :
    cursor.ReadsIn text := by
  rcases stands.exists_parts with ⟨passed, layout, textEq, placeEq, startEq, afterEq, stays⟩
  rw [takeWhile_ne_eq_take] at textEq
  have size := congrArg List.length textEq
  rw [List.length_take, Nat.min_eq_left List.idxOf_le_length] at size
  simp only [List.length_append] at size
  rcases cursor.next.1.exists_spelling_eq with ⟨mark, spellingEq⟩
  refine ⟨?_, ?_, (passed ++ layout).length,
    (passed ++ layout).length + cursor.next.1.text.toList.length, Nat.le_add_right _ _, ?_, ?_, ?_,
    ?_⟩
  · by_cases nothing : layout ++ cursor.next.1.spelling = []
    · exact .inr (stays nothing)
    · have ahead := List.length_pos_iff.2 nothing
      rw [placeEq, afterEq]
      simp only [Position.behind, List.length_append] at ahead ⊢
      omega
  · rw [placeEq]
    simp only [Position.behind]
    omega
  · rw [spellingEq] at size
    simp only [List.length_append] at size ⊢
    omega
  · rw [startEq]
    rfl
  · rw [spellingEq] at textEq
    have parts : text.take (text.idxOf '\x00') = passed ++ layout ++
        (cursor.next.1.text.toList ++ (mark ++ cursor.next.2.rest)) := by
      rw [textEq]
      simp only [List.append_assoc]
    exact (extract_of_take_eq parts).symm
  · rw [afterEq, ← List.append_assoc]
    simp only [Position.behind, List.length_append]

/-! ## All calls -/

/-- Once the end mark has come, it comes again and again, and the cursor stays. -/
theorem afterCalls_of_end {cursor : Cursor} (isEnd : cursor.next.1.kind = .eof) (calls : Nat) :
    cursor.next.2.afterCalls calls = cursor.next.2 ∧
      cursor.next.2.call calls = cursor.next.1 := by
  rcases cursor.exists_faces with ⟨layout, ahead, faces⟩
  cases ahead with
  | cons first rest =>
      exact absurd isEnd (kind_next_ne_eof (congrArg Prod.snd faces.spanLayout_eq))
  | nil =>
      have again := faces.next_after_end
      have stays : cursor.next.2.afterCalls calls = cursor.next.2 := by
        induction calls with
        | zero => rfl
        | succ calls ih => rw [afterCalls, ih, again]
      rw [call, stays, again]
      exact ⟨rfl, rfl⟩

/-- The tokens ahead are those of the calls up to the first end mark. -/
theorem exists_tokens_eq (cursor : Cursor) :
    ∃ count, count ≤ cursor.rest.length ∧
      cursor.tokens = (List.range (count + 1)).map cursor.call ∧
      (∀ earlier < count, (cursor.call earlier).kind ≠ .eof) ∧
      (cursor.call count).kind = .eof := by
  induction cursor using tokens.induct with
  | case1 cursor isEnd =>
      refine ⟨0, Nat.zero_le _, ?_, ?_, isEnd⟩
      · rw [tokens, if_pos isEnd]
        rfl
      · intro earlier isEarlier
        exact absurd isEarlier (Nat.not_lt_zero earlier)
  | case2 cursor notEnd ih =>
      rcases ih with ⟨count, bound, tokensEq, early, isEnd⟩
      have shorter := next_rest_lt cursor notEnd
      have callEq (earlier : Nat) : cursor.next.2.call earlier = cursor.call (earlier + 1) := by
        rw [Nat.add_comm, call_add]
        rfl
      refine ⟨count + 1, by omega, ?_, ?_, callEq count ▸ isEnd⟩
      · have behind : cursor.next.2.call = fun earlier => cursor.call (earlier + 1) :=
          funext callEq
        have rangeEq : List.range (count + 1 + 1) = 0 :: (List.range (count + 1)).map Nat.succ :=
          List.range_succ_eq_map
        rw [tokens, if_neg notEnd, tokensEq, behind, rangeEq, List.map_cons, List.map_map]
        rfl
      · intro earlier isEarlier
        cases earlier with
        | zero => exact notEnd
        | succ earlier =>
            rw [← callEq]
            exact early earlier (Nat.lt_of_succ_lt_succ isEarlier)

end Cursor

open Cursor

/-- Reading always reaches the end and stays there.  Whatever the text is, each of the
calls one after another moves ahead or is at the end and changes nothing; the end mark
comes after no more tokens than there are characters before the first NUL, and these
calls give the tokens of the text; and all later calls give the same end mark. -/
theorem reading_reaches_the_end (file : String) (text : List Char) :
    let start := Cursor.ofText file text
    (∀ calls, (start.afterCalls calls).ReadsIn text) ∧
    (∃ count ≤ text.idxOf '\x00',
      tokenize file text = (List.range (count + 1)).map start.call ∧
      (∀ earlier < count, (start.call earlier).kind ≠ .eof) ∧ (start.call count).kind = .eof) ∧
    ∀ first later, (start.call first).kind = .eof → first < later →
      start.call later = start.call first ∧
        start.afterCalls later = start.afterCalls (first + 1) := by
  intro start
  refine ⟨?_, ?_, ?_⟩
  · intro calls
    exact ((standsIn_ofText file text).afterCalls calls).readsIn
  · have size : start.rest.length = text.idxOf '\x00' := by
      change (text.takeWhile (· ≠ '\x00')).length = _
      rw [takeWhile_ne_eq_take, List.length_take, Nat.min_eq_left List.idxOf_le_length]
    rw [← size]
    exact start.exists_tokens_eq
  · intro first later isEnd isLater
    rcases Nat.exists_eq_add_of_le isLater with ⟨more, rfl⟩
    rcases afterCalls_of_end isEnd more with ⟨stays, again⟩
    rw [call_add, afterCalls_add]
    exact ⟨again, stays⟩

end GraphCalc
