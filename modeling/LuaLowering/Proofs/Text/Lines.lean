import LuaLowering.Text
import Mathlib.Data.List.DropRight
import Mathlib.Data.List.Induction

namespace LuaLowering

namespace LineTable

/-! The starts of lines. -/

theorem startsAfter_append (offset : Nat) (bytes more : List UInt8) :
    startsAfter offset (bytes ++ more) =
      startsAfter offset bytes ++ startsAfter (offset + bytes.length) more := by
  induction bytes generalizing offset with
  | nil => rfl
  | cons byte bytes ih =>
      have hlength : offset + (byte :: bytes).length = offset + 1 + bytes.length := by
        rw [List.length_cons]
        omega
      rw [List.cons_append, startsAfter, startsAfter, ih, hlength]
      split <;> rfl

theorem length_startsAfter (offset : Nat) (bytes : List UInt8) :
    (startsAfter offset bytes).length = bytes.count newline := by
  induction bytes generalizing offset with
  | nil => rfl
  | cons byte bytes ih =>
      rw [startsAfter, List.count_cons]
      by_cases hbyte : byte = newline <;> simp [hbyte, ih]

theorem mem_startsAfter {offset start : Nat} {bytes : List UInt8}
    (hmem : start ∈ startsAfter offset bytes) :
    offset < start ∧ start ≤ offset + bytes.length := by
  induction bytes generalizing offset with
  | nil => cases hmem
  | cons byte bytes ih =>
      have hbounds : start = offset + 1 ∨ start ∈ startsAfter (offset + 1) bytes := by
        rw [startsAfter] at hmem
        split at hmem
        · exact List.mem_cons.mp hmem
        · exact Or.inr hmem
      rw [List.length_cons]
      rcases hbounds with rfl | hmem
      · omega
      · have hrest := ih hmem
        omega

theorem startsAfter_split {count : Nat} {bytes : List UInt8} (hcount : count ≤ bytes.length) :
    startsAfter 0 bytes =
      startsAfter 0 (bytes.take count) ++ startsAfter count (bytes.drop count) := by
  have happend := startsAfter_append 0 (bytes.take count) (bytes.drop count)
  rwa [List.take_append_drop, List.length_take_of_le hcount, Nat.zero_add] at happend

theorem le_of_mem_startsAfter_take {count start : Nat} {bytes : List UInt8}
    (hmem : start ∈ startsAfter 0 (bytes.take count)) : start ≤ count := by
  have hbound := (mem_startsAfter hmem).2
  rw [Nat.zero_add, List.length_take] at hbound
  exact Nat.le_trans hbound (Nat.min_le_left _ _)

/-- The starts up to an offset are the ones in the text before the offset. -/
theorem takeWhile_startsAfter {count : Nat} {bytes : List UInt8} (hcount : count ≤ bytes.length) :
    (startsAfter 0 bytes).takeWhile (fun start => decide (start ≤ count)) =
      startsAfter 0 (bytes.take count) := by
  have hbefore : ∀ start ∈ startsAfter 0 (bytes.take count), decide (start ≤ count) = true :=
    fun start hmem => decide_eq_true (le_of_mem_startsAfter_take hmem)
  have hbehind : (startsAfter count (bytes.drop count)).takeWhile
      (fun start => decide (start ≤ count)) = [] := by
    cases hstarts : startsAfter count (bytes.drop count) with
    | nil => rfl
    | cons start starts =>
        have hbound := (mem_startsAfter (hstarts ▸ List.mem_cons_self)).1
        exact List.takeWhile_cons_of_neg (by simpa using hbound)
  rw [startsAfter_split hcount, List.takeWhile_append_of_pos hbefore, hbehind, List.append_nil]

/-- The last start and the bytes behind it make up the whole text. -/
theorem getLastD_startsAfter (bytes : List UInt8) :
    (startsAfter 0 bytes).getLastD 0 + (bytes.rtakeWhile (· ≠ newline)).length = bytes.length := by
  induction bytes using List.reverseRecOn with
  | nil => rfl
  | append_singleton bytes byte ih =>
      rw [startsAfter_append, Nat.zero_add, List.length_append, List.length_singleton]
      by_cases hbyte : byte = newline
      · rw [List.rtakeWhile_concat_neg _ _ _ (by simpa using hbyte)]
        simp [startsAfter, hbyte]
      · rw [List.rtakeWhile_concat_pos _ _ _ (by simpa using hbyte)]
        simp only [startsAfter, if_neg hbyte, List.append_nil, List.length_append,
          List.length_singleton]
        omega

end LineTable

namespace Position

/-! Places in a text, without a table. -/

/-- The place behind a text. -/
def behind (bytes : List UInt8) : Position where
  line := bytes.count LineTable.newline
  column := (bytes.rtakeWhile (· ≠ LineTable.newline)).length

/-- Earlier lines come first, and in one line earlier columns. -/
def Precedes (first second : Position) : Prop :=
  first.line < second.line ∨ first.line = second.line ∧ first.column < second.column

theorem Precedes.trans {first second third : Position} (hfirst : first.Precedes second)
    (hsecond : second.Precedes third) : first.Precedes third := by
  unfold Precedes at *
  omega

theorem Precedes.asymm {first second : Position} (hfirst : first.Precedes second) :
    ¬ second.Precedes first := by
  unfold Precedes at *
  omega

theorem not_precedes_self (position : Position) : ¬ position.Precedes position :=
  fun hprecedes => hprecedes.asymm hprecedes

theorem behind_precedes_concat (bytes : List UInt8) (byte : UInt8) :
    (behind bytes).Precedes (behind (bytes ++ [byte])) := by
  by_cases hbyte : byte = LineTable.newline
  · left
    simp [behind, hbyte]
  · right
    have hcolumn : (bytes ++ [byte]).rtakeWhile (· ≠ LineTable.newline) =
        bytes.rtakeWhile (· ≠ LineTable.newline) ++ [byte] :=
      List.rtakeWhile_concat_pos _ _ _ (by simpa using hbyte)
    simp only [behind, hcolumn, List.length_append, List.length_singleton, List.count_append,
      List.count_singleton, beq_iff_eq, if_neg hbyte, Nat.add_zero, true_and]
    omega

theorem behind_precedes_append (bytes : List UInt8) {more : List UInt8} (hmore : more ≠ []) :
    (behind bytes).Precedes (behind (bytes ++ more)) := by
  induction more using List.reverseRecOn with
  | nil => contradiction
  | append_singleton more byte ih =>
      rw [← List.append_assoc]
      have hlast := behind_precedes_concat (bytes ++ more) byte
      by_cases hnil : more = []
      · rwa [hnil, List.append_nil] at hlast ⊢
      · exact (ih hnil).trans hlast

end Position

namespace LineTable

/-! The table finds the places of all offsets. -/

variable {bytes : List UInt8}

theorem position_of_le {offset : Nat} (hoffset : offset ≤ bytes.length) :
    (ofBytes bytes).position offset = .behind (bytes.take offset) := by
  have hcapped : min offset (ofBytes bytes).length = offset := Nat.min_eq_left hoffset
  have hreached : (ofBytes bytes).starts.takeWhile (fun start => decide (start ≤ offset)) =
      0 :: startsAfter 0 (bytes.take offset) := by
    rw [ofBytes, List.takeWhile_cons_of_pos (by simp), takeWhile_startsAfter hoffset]
  have hlast := getLastD_startsAfter (bytes.take offset)
  rw [List.length_take_of_le hoffset] at hlast
  simp only [position, hcapped, hreached, Position.behind, List.length_cons, Nat.add_sub_cancel,
    length_startsAfter, List.getLastD_cons, Position.mk.injEq, true_and]
  omega

theorem position_of_length_le {offset : Nat} (hoffset : bytes.length ≤ offset) :
    (ofBytes bytes).position offset = (ofBytes bytes).position bytes.length := by
  have hcapped : min offset (ofBytes bytes).length = min bytes.length (ofBytes bytes).length := by
    simp only [ofBytes]
    omega
  simp only [position, hcapped]

theorem position_eq (offset : Nat) :
    (ofBytes bytes).position offset = .behind (bytes.take (min offset bytes.length)) := by
  rcases Nat.le_total offset bytes.length with hoffset | hoffset
  · rw [position_of_le hoffset, Nat.min_eq_left hoffset]
  · rw [position_of_length_le hoffset, position_of_le (Nat.le_refl _), Nat.min_eq_right hoffset]

theorem position_precedes {offset later : Nat} (hlt : offset < later)
    (hlater : later ≤ bytes.length) :
    ((ofBytes bytes).position offset).Precedes ((ofBytes bytes).position later) := by
  have hsplit : bytes.take later =
      bytes.take offset ++ (bytes.drop offset).take (later - offset) := by
    rw [← List.take_add, Nat.add_sub_cancel' (Nat.le_of_lt hlt)]
  rw [position_of_le (Nat.le_trans (Nat.le_of_lt hlt) hlater), position_of_le hlater, hsplit]
  apply Position.behind_precedes_append
  intro hnil
  have hlength := congrArg List.length hnil
  simp only [List.length_take, List.length_drop, List.length_nil] at hlength
  omega

theorem starts_split {count : Nat} (hcount : count ≤ bytes.length) :
    (ofBytes bytes).starts =
      (0 :: startsAfter 0 (bytes.take count)) ++ startsAfter count (bytes.drop count) := by
  rw [ofBytes, startsAfter_split hcount, List.cons_append]

theorem le_length_of_mem_starts {start : Nat} (hmem : start ∈ (ofBytes bytes).starts) :
    start ≤ bytes.length := by
  rcases List.mem_cons.mp hmem with rfl | hmem
  · exact Nat.zero_le _
  · exact Nat.zero_add bytes.length ▸ (mem_startsAfter hmem).2

/-- The line of a place starts where the bytes of its column begin. -/
theorem exists_start {count : Nat} (hcount : count ≤ bytes.length) :
    ∃ start, (ofBytes bytes).starts[(Position.behind (bytes.take count)).line]? = some start ∧
      start + (Position.behind (bytes.take count)).column = count := by
  refine ⟨(startsAfter 0 (bytes.take count)).getLastD 0, ?_, ?_⟩
  · have hline : (Position.behind (bytes.take count)).line =
        (startsAfter 0 (bytes.take count)).length := (length_startsAfter _ _).symm
    rw [starts_split hcount, hline, List.getElem?_append_left (by simp)]
    have hlast := List.getLast?_eq_getElem? (l := 0 :: startsAfter 0 (bytes.take count))
    rw [List.length_cons, Nat.add_sub_cancel] at hlast
    rw [← hlast, List.getLast?_cons, List.getLastD_eq_getLast?]
  · have hlast := getLastD_startsAfter (bytes.take count)
    rwa [List.length_take_of_le hcount] at hlast

theorem start_le_iff {count line start : Nat} (hcount : count ≤ bytes.length)
    (hstart : (ofBytes bytes).starts[line]? = some start) :
    start ≤ count ↔ line ≤ (Position.behind (bytes.take count)).line := by
  have hlength : (0 :: startsAfter 0 (bytes.take count)).length =
      (Position.behind (bytes.take count)).line + 1 := by
    rw [List.length_cons, length_startsAfter]
    rfl
  rw [starts_split hcount] at hstart
  rcases Nat.lt_or_ge line (0 :: startsAfter 0 (bytes.take count)).length with hline | hline
  · rw [List.getElem?_append_left hline] at hstart
    have hle : start ≤ count := by
      rcases List.mem_cons.mp (List.mem_of_getElem? hstart) with rfl | hmem
      · exact Nat.zero_le _
      · exact le_of_mem_startsAfter_take hmem
    omega
  · rw [List.getElem?_append_right hline] at hstart
    have hlt : count < start := (mem_startsAfter (List.mem_of_getElem? hstart)).1
    omega

theorem not_precedes_of_le {offset later : Nat} (hle : offset ≤ later) :
    ¬ ((ofBytes bytes).position later).Precedes ((ofBytes bytes).position offset) := by
  have hcapped : min offset bytes.length ≤ min later bytes.length := by omega
  have hposition (offset : Nat) : (ofBytes bytes).position offset =
      (ofBytes bytes).position (min offset bytes.length) := by
    rw [position_eq, position_eq, Nat.min_assoc, Nat.min_self]
  rw [hposition offset, hposition later]
  rcases Nat.lt_or_eq_of_le hcapped with hlt | heq
  · exact (position_precedes hlt (Nat.min_le_right _ _)).asymm
  · rw [heq]
    exact Position.not_precedes_self _

/-- The line of an offset is the number of newlines before it, and its column the number of bytes
behind the last of them: the line is the last one that starts no later than the offset.  Up to the
end of the text later offsets have later places, and no number exceeds the length of the text. -/
theorem position_counts_newlines (text : String) :
    let bytes := text.toUTF8.data.toList
    let table := ofText text
    (∀ start ∈ table.starts, start ≤ bytes.length) ∧
    (∀ offset,
      let capped := min offset bytes.length
      let place := table.position offset
      place.line = (bytes.take capped).count newline ∧
      place.column = ((bytes.take capped).rtakeWhile (· ≠ newline)).length ∧
      place.line ≤ capped ∧ place.line < table.lineCount ∧
      (∃ start, table.starts[place.line]? = some start ∧ start ≤ capped ∧
        place.column = capped - start) ∧
      ∀ line start, table.starts[line]? = some start → (start ≤ capped ↔ line ≤ place.line)) ∧
    (∀ offset later, offset < later → later ≤ bytes.length →
      (table.position offset).Precedes (table.position later)) ∧
    (∀ offset, bytes.length ≤ offset → table.position offset = table.position bytes.length) ∧
    ∀ span, ¬ (table.positions span).2.Precedes (table.positions span).1 := by
  intro bytes table
  refine ⟨fun _ => le_length_of_mem_starts, ?_, fun _ _ => position_precedes,
    fun _ => position_of_length_le, ?_⟩
  · intro offset capped place
    have hcapped : capped ≤ bytes.length := Nat.min_le_right _ _
    have hplace : place = .behind (bytes.take capped) := position_eq offset
    obtain ⟨start, hstart, hcolumn⟩ := exists_start hcapped
    rw [← hplace] at hstart hcolumn
    have hline : place.line = (bytes.take capped).count newline := congrArg Position.line hplace
    refine ⟨hline, congrArg Position.column hplace, ?_, ?_,
      ⟨start, hstart, by omega, by omega⟩, ?_⟩
    · rw [hline]
      exact Nat.le_trans List.count_le_length (List.length_take_le capped bytes)
    · exact (List.getElem?_eq_some_iff.mp hstart).1
    · intro line next hnext
      rw [hplace]
      exact start_le_iff hcapped hnext
  · intro span
    exact not_precedes_of_le span.start_le_stop

-- Columns count bytes, of which the first character here has two.
example : (ofText "é=\n1").position 5 = { line := 1, column := 1 } := by decide

end LineTable

end LuaLowering
