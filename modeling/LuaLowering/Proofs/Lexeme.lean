import LuaLowering.Lua.Lexeme
import LuaLowering.Proofs.Spelling

namespace LuaLowering.Lua

/-! The pieces of rendered text can be told apart: a word ends where no character of a name follows,
and a literal ends with the first quote that is not escaped. -/

/-! Words. -/

def Delimited (text : List Char) : Prop := ∀ c ∈ text.head?, isNameChar c = false

theorem delimited_nil : Delimited [] := by
  simp [Delimited]

theorem delimited_cons {c : Char} (hc : isNameChar c = false) (text : List Char) :
    Delimited (c :: text) := by
  simpa [Delimited] using hc

theorem takeWhile_isNameChar_append {word rest : List Char} (hword : word.all isNameChar = true)
    (hrest : Delimited rest) : (word ++ rest).takeWhile isNameChar = word := by
  have hnone : rest.takeWhile isNameChar = [] := by
    cases rest with
    | nil => rfl
    | cons c text => exact List.takeWhile_cons_of_neg (by simp [hrest c rfl])
  rw [List.takeWhile_append_of_pos (List.all_eq_true.mp hword), hnone, List.append_nil]

theorem word_append_inj {word word' rest rest' : List Char} (hword : word.all isNameChar = true)
    (hword' : word'.all isNameChar = true) (hrest : Delimited rest) (hrest' : Delimited rest')
    (heq : word ++ rest = word' ++ rest') : word = word' ∧ rest = rest' := by
  have hwords : word = word' := by
    rw [← takeWhile_isNameChar_append hword hrest, heq, takeWhile_isNameChar_append hword' hrest']
  subst hwords
  exact ⟨rfl, List.append_cancel_left heq⟩

theorem all_isNameChar_of_isIdentifier {name : String} (hname : isIdentifier name = true) :
    name.toList.all isNameChar = true := by
  obtain ⟨first, rest, hchars, hfirst, hrest, _⟩ := isIdentifier_iff.mp hname
  have hstart : isNameChar first = true := by
    simp only [isNameStart, Bool.or_eq_true] at hfirst
    rcases hfirst with halpha | hmark
    · simp [isNameChar, Char.isAlphanum, halpha]
    · simp [isNameChar, hmark]
  rw [hchars, List.all_cons, hstart, hrest, Bool.and_self]

/-! String literals. -/

/-- The character that an escape with the given letter stands for. -/
def escapedBy (letter : Char) : Char :=
  match letter with
  | 'n' => '\n'
  | 'r' => '\r'
  | 't' => '\t'
  | '0' => '\x00'
  | _ => letter

/-- A character is written as an escape, or as itself if it could not be taken for the beginning of
an escape or for the end of the literal. -/
theorem escapeChar_cases (c : Char) :
    (∃ letter, escapeChar c = ['\\', letter] ∧ escapedBy letter = c) ∨
      (escapeChar c = [c] ∧ c ≠ '\\' ∧ c ≠ '"') := by
  unfold escapeChar
  split
  case h_7 hquote hbackslash _ _ _ _ => exact Or.inr ⟨rfl, hbackslash, hquote⟩
  all_goals exact Or.inl ⟨_, rfl, rfl⟩

theorem escapeChar_append_inj {c d : Char} {afterC afterD : List Char}
    (heq : escapeChar c ++ afterC = escapeChar d ++ afterD) : c = d ∧ afterC = afterD := by
  rcases escapeChar_cases c with ⟨letter, hc, hletter⟩ | ⟨hc, hbackslash, _⟩ <;>
    rcases escapeChar_cases d with ⟨letter', hd, hletter'⟩ | ⟨hd, hbackslash', _⟩ <;>
    simp only [hc, hd, List.cons_append, List.nil_append, List.cons.injEq] at heq
  · exact ⟨by rw [← hletter, ← hletter', heq.2.1], heq.2.2⟩
  · exact absurd heq.1.symm hbackslash'
  · exact absurd heq.1 hbackslash
  · exact heq

theorem quote_ne_escapeChar_append (c : Char) (rest text : List Char) :
    '"' :: rest ≠ escapeChar c ++ text := by
  rcases escapeChar_cases c with ⟨letter, hc, _⟩ | ⟨hc, _, hquote⟩ <;>
    simp only [hc, List.cons_append, ne_eq, List.cons.injEq]
  · simp
  · exact fun heq => hquote heq.1.symm

theorem flatMap_escapeChar_append_inj :
    ∀ {text text' rest rest' : List Char},
      text.flatMap escapeChar ++ '"' :: rest = text'.flatMap escapeChar ++ '"' :: rest' →
        text = text' ∧ rest = rest'
  | [], [], _, _, heq => ⟨rfl, (List.cons.inj heq).2⟩
  | [], d :: _, _, _, heq => by
      rw [List.flatMap_cons, List.append_assoc] at heq
      exact absurd heq (quote_ne_escapeChar_append d _ _)
  | c :: _, [], _, _, heq => by
      rw [List.flatMap_cons, List.append_assoc] at heq
      exact absurd heq.symm (quote_ne_escapeChar_append c _ _)
  | c :: _, d :: _, _, _, heq => by
      rw [List.flatMap_cons, List.append_assoc, List.flatMap_cons, List.append_assoc] at heq
      obtain ⟨hhead, htail⟩ := escapeChar_append_inj heq
      obtain ⟨htext, hrest⟩ := flatMap_escapeChar_append_inj htail
      exact ⟨by rw [hhead, htext], hrest⟩

theorem quote_append_inj {text text' : String} {rest rest' : List Char}
    (heq : quote text ++ rest = quote text' ++ rest') : text = text' ∧ rest = rest' := by
  simp only [quote, List.cons_append, List.append_assoc, List.nil_append, List.cons.injEq,
    true_and] at heq
  obtain ⟨htext, hrest⟩ := flatMap_escapeChar_append_inj heq
  exact ⟨String.toList_injective htext, hrest⟩

end LuaLowering.Lua
