import LuaLowering.Lua.Lexeme
import Mathlib.Logic.Function.Basic

namespace LuaLowering.Lua

/-! The theory of spelling.  A source name is spelled by a valid Lua name, and two source names are
never spelled alike. -/

/-! The shape of names. -/

theorem isIdentifier_iff {name : String} :
    isIdentifier name = true ↔
      ∃ first rest, name.toList = first :: rest ∧ isNameStart first = true ∧
        rest.all isNameChar = true ∧ isKeyword name = false := by
  unfold isIdentifier
  cases hchars : name.toList with
  | nil => simp
  | cons first rest => simp [and_assoc]

theorem not_isKeyword_of_isIdentifier {name : String} (hname : isIdentifier name = true) :
    isKeyword name = false := by
  obtain ⟨_, _, _, _, _, hkeyword⟩ := isIdentifier_iff.mp hname
  exact hkeyword

theorem needsMangling_eq_false_iff {name : String} :
    needsMangling name = false ↔
      isIdentifier name = true ∧ isGlobalName name = false ∧
        ¬ reservedOpening.toList <+: name.toList := by
  simp only [needsMangling, isUnsafe, Bool.or_eq_false_iff, Bool.not_eq_false', and_assoc,
    ← List.isPrefixOf_iff_prefix, Bool.not_eq_true]

theorem needsMangling_of_opening {name : String}
    (hopening : reservedOpening.toList <+: name.toList) : needsMangling name = true := by
  simp [needsMangling, hopening]

/-! Hexadecimal numerals. -/

theorem isAlphanum_hexDigit : ∀ n < 16, (hexDigit n).isAlphanum = true := by
  decide

theorem hexDigit_inj : ∀ m < 16, ∀ n < 16, hexDigit m = hexDigit n → m = n := by
  decide

theorem hexDigits_of_lt {n : Nat} (hn : n < 16) : hexDigits n = [hexDigit n] := by
  rw [hexDigits, if_pos hn]

theorem hexDigits_of_le {n : Nat} (hn : 16 ≤ n) :
    hexDigits n = hexDigits (n / 16) ++ [hexDigit (n % 16)] := by
  rw [hexDigits, if_neg (Nat.not_lt.mpr hn)]

theorem hexDigits_ne_nil (n : Nat) : hexDigits n ≠ [] := by
  rw [hexDigits]
  split <;> simp

theorem isAlphanum_of_mem_hexDigits {n : Nat} {c : Char} (hmem : c ∈ hexDigits n) :
    c.isAlphanum = true := by
  induction n using Nat.strongRecOn with
  | ind n ih =>
      rcases Nat.lt_or_ge n 16 with hlt | hle
      · rw [hexDigits_of_lt hlt, List.mem_singleton] at hmem
        rw [hmem]
        exact isAlphanum_hexDigit n hlt
      · rw [hexDigits_of_le hle, List.mem_append, List.mem_singleton] at hmem
        rcases hmem with hinit | hlast
        · exact ih (n / 16) (by omega) hinit
        · rw [hlast]
          exact isAlphanum_hexDigit (n % 16) (Nat.mod_lt n (by decide))

theorem hexDigits_injective : Function.Injective hexDigits := by
  intro m
  induction m using Nat.strongRecOn with
  | ind m ih =>
      intro n hdigits
      -- A digit alone and a longer numeral differ in length.
      rcases Nat.lt_or_ge m 16 with hm | hm <;> rcases Nat.lt_or_ge n 16 with hn | hn
      · rw [hexDigits_of_lt hm, hexDigits_of_lt hn] at hdigits
        exact hexDigit_inj m hm n hn (List.singleton_inj.mp hdigits)
      · have hlength := congrArg List.length hdigits
        simp [hexDigits_of_lt hm, hexDigits_of_le hn, hexDigits_ne_nil] at hlength
      · have hlength := congrArg List.length hdigits
        simp [hexDigits_of_le hm, hexDigits_of_lt hn, hexDigits_ne_nil] at hlength
      · rw [hexDigits_of_le hm, hexDigits_of_le hn] at hdigits
        obtain ⟨hinit, hlast⟩ := List.append_inj' hdigits rfl
        have hdiv : m / 16 = n / 16 := ih (m / 16) (by omega) hinit
        have hmod : m % 16 = n % 16 :=
          hexDigit_inj _ (Nat.mod_lt m (by decide)) _ (Nat.mod_lt n (by decide))
            (List.singleton_inj.mp hlast)
        omega

/-! Respelled characters form a prefix code: an escape closes with the first underscore after the
one that opens it. -/

theorem underscore_not_mem_hexDigits (n : Nat) : '_' ∉ hexDigits n := by
  intro hmem
  have halphanum := isAlphanum_of_mem_hexDigits hmem
  contradiction

theorem mangleChar_of_isAlphanum {c : Char} (hc : c.isAlphanum = true) : mangleChar c = [c] := by
  rw [mangleChar, if_pos hc]

theorem mangleChar_of_not_isAlphanum {c : Char} (hc : ¬ c.isAlphanum = true) :
    mangleChar c = '_' :: hexDigits c.toNat ++ ['_'] := by
  rw [mangleChar, if_neg hc]

theorem mangleChar_ne_nil (c : Char) : mangleChar c ≠ [] := by
  rw [mangleChar]
  split <;> simp

theorem append_cons_inj_of_first {α : Type} {mark : α} :
    ∀ {first second afterFirst afterSecond : List α}, mark ∉ first → mark ∉ second →
      first ++ mark :: afterFirst = second ++ mark :: afterSecond →
        first = second ∧ afterFirst = afterSecond
  | [], [], _, _, _, _, heq => ⟨rfl, (List.cons.inj heq).2⟩
  | [], _ :: _, _, _, _, hsecond, heq => by
      rw [(List.cons.inj heq).1] at hsecond
      simp at hsecond
  | _ :: _, [], _, _, hfirst, _, heq => by
      rw [← (List.cons.inj heq).1] at hfirst
      simp at hfirst
  | _ :: _, _ :: _, _, _, hfirst, hsecond, heq => by
      obtain ⟨hhead, htail⟩ := List.cons.inj heq
      obtain ⟨hrest, hafter⟩ :=
        append_cons_inj_of_first (List.not_mem_of_not_mem_cons hfirst)
          (List.not_mem_of_not_mem_cons hsecond) htail
      exact ⟨by rw [hhead, hrest], hafter⟩

theorem mangleChar_append_inj {c d : Char} {afterC afterD : List Char}
    (heq : mangleChar c ++ afterC = mangleChar d ++ afterD) : c = d ∧ afterC = afterD := by
  by_cases hc : c.isAlphanum = true <;> by_cases hd : d.isAlphanum = true
  · rw [mangleChar_of_isAlphanum hc, mangleChar_of_isAlphanum hd] at heq
    exact List.cons.inj heq
  · rw [mangleChar_of_isAlphanum hc, mangleChar_of_not_isAlphanum hd] at heq
    rw [(List.cons.inj heq).1] at hc
    contradiction
  · rw [mangleChar_of_not_isAlphanum hc, mangleChar_of_isAlphanum hd] at heq
    rw [← (List.cons.inj heq).1] at hd
    contradiction
  · rw [mangleChar_of_not_isAlphanum hc, mangleChar_of_not_isAlphanum hd] at heq
    simp only [List.cons_append, List.append_assoc, List.nil_append, List.cons.injEq,
      true_and] at heq
    obtain ⟨hdigits, hafter⟩ :=
      append_cons_inj_of_first (underscore_not_mem_hexDigits c.toNat)
        (underscore_not_mem_hexDigits d.toNat) heq
    exact ⟨Char.toNat_inj.mp (hexDigits_injective hdigits), hafter⟩

theorem flatMap_mangleChar_injective :
    Function.Injective (List.flatMap mangleChar) := by
  intro first
  induction first with
  | nil =>
      intro second heq
      cases second with
      | nil => rfl
      | cons d rest => exact absurd heq.symm (by simp [mangleChar_ne_nil])
  | cons c chars ih =>
      intro second heq
      cases second with
      | nil => exact absurd heq (by simp [mangleChar_ne_nil])
      | cons d rest =>
          rw [List.flatMap_cons, List.flatMap_cons] at heq
          obtain ⟨hhead, htail⟩ := mangleChar_append_inj heq
          rw [hhead, ih htail]

theorem toList_mangle (name : String) :
    (mangle name).toList = reservedOpening.toList ++ name.toList.flatMap mangleChar := by
  rw [mangle, String.toList_ofList]

theorem mangle_injective : Function.Injective mangle := by
  intro first second heq
  have hchars := congrArg String.toList heq
  rw [toList_mangle, toList_mangle, List.append_right_inj] at hchars
  exact String.toList_injective (flatMap_mangleChar_injective hchars)

theorem length_le_length_flatMap_mangleChar (chars : List Char) :
    chars.length ≤ (chars.flatMap mangleChar).length := by
  induction chars with
  | nil => exact Nat.le_refl 0
  | cons c chars ih =>
      have hpos := List.length_pos_iff.mpr (mangleChar_ne_nil c)
      rw [List.flatMap_cons, List.length_append, List.length_cons]
      omega

theorem mangle_ne_self (name : String) : mangle name ≠ name := by
  intro heq
  have hlength := congrArg List.length (toList_mangle name)
  rw [heq, List.length_append] at hlength
  have hopening : reservedOpening.toList.length = 4 := by decide
  have hchars := length_le_length_flatMap_mangleChar name.toList
  omega

/-! Respelled names are valid, and they are told from all others by their opening. -/

theorem opening_isPrefix_mangle (name : String) :
    reservedOpening.toList <+: (mangle name).toList :=
  ⟨name.toList.flatMap mangleChar, (toList_mangle name).symm⟩

theorem needsMangling_mangle (name : String) : needsMangling (mangle name) = true :=
  needsMangling_of_opening (opening_isPrefix_mangle name)

theorem not_opening_of_mem_keywords :
    ∀ word ∈ keywords, ¬ reservedOpening.toList <+: word.toList := by
  decide

theorem not_opening_of_mem_globalNames :
    ∀ word ∈ globalNames, ¬ reservedOpening.toList <+: word.toList := by
  decide

theorem isKeyword_eq_false_of_opening {name : String}
    (hopening : reservedOpening.toList <+: name.toList) : isKeyword name = false := by
  rw [Bool.eq_false_iff]
  intro hkeyword
  exact not_opening_of_mem_keywords name (List.contains_iff_mem.mp hkeyword) hopening

theorem isGlobalName_eq_false_of_opening {name : String}
    (hopening : reservedOpening.toList <+: name.toList) : isGlobalName name = false := by
  rw [Bool.eq_false_iff]
  intro hglobal
  exact not_opening_of_mem_globalNames name (List.contains_iff_mem.mp hglobal) hopening

theorem all_isNameChar_mangleChar (c : Char) : (mangleChar c).all isNameChar = true := by
  by_cases hc : c.isAlphanum = true
  · simp [mangleChar_of_isAlphanum hc, isNameChar, hc]
  · have hdigits : ∀ d ∈ hexDigits c.toNat, isNameChar d = true := by
      intro d hmem
      simp [isNameChar, isAlphanum_of_mem_hexDigits hmem]
    have hmark : isNameChar '_' = true := by decide
    simpa [mangleChar_of_not_isAlphanum hc, hmark] using hdigits

theorem isIdentifier_mangle (name : String) : isIdentifier (mangle name) = true := by
  refine isIdentifier_iff.mpr
    ⟨'_', ['_', '_', '_'] ++ name.toList.flatMap mangleChar, ?_, by decide, ?_, ?_⟩
  · exact toList_mangle name
  · have hopening : ['_', '_', '_'].all isNameChar = true := by decide
    rw [List.all_append, List.all_flatMap, hopening, Bool.true_and, List.all_eq_true]
    intro c _
    exact all_isNameChar_mangleChar c
  · exact isKeyword_eq_false_of_opening (opening_isPrefix_mangle name)

/-! Spellings. -/

theorem emit_of_needsMangling {name : String} (hname : needsMangling name = true) :
    emit name = mangle name := by
  rw [emit, if_pos hname]

theorem emit_of_not_needsMangling {name : String} (hname : needsMangling name = false) :
    emit name = name := by
  rw [emit, if_neg (Bool.eq_false_iff.mp hname)]

theorem isIdentifier_emit (name : String) : isIdentifier (emit name) = true := by
  cases hname : needsMangling name with
  | true =>
      rw [emit_of_needsMangling hname]
      exact isIdentifier_mangle name
  | false =>
      rw [emit_of_not_needsMangling hname]
      exact (needsMangling_eq_false_iff.mp hname).1

theorem isGlobalName_emit (name : String) : isGlobalName (emit name) = false := by
  cases hname : needsMangling name with
  | true =>
      rw [emit_of_needsMangling hname]
      exact isGlobalName_eq_false_of_opening (opening_isPrefix_mangle name)
  | false =>
      rw [emit_of_not_needsMangling hname]
      exact (needsMangling_eq_false_iff.mp hname).2.1

theorem ne_mangle_of_not_needsMangling {name : String} (hname : needsMangling name = false)
    (other : String) : name ≠ mangle other := by
  intro heq
  rw [heq, needsMangling_mangle] at hname
  contradiction

theorem emit_injective : Function.Injective emit := by
  intro first second heq
  cases hfirst : needsMangling first <;> cases hsecond : needsMangling second
  · rwa [emit_of_not_needsMangling hfirst, emit_of_not_needsMangling hsecond] at heq
  · rw [emit_of_not_needsMangling hfirst, emit_of_needsMangling hsecond] at heq
    exact absurd heq (ne_mangle_of_not_needsMangling hfirst second)
  · rw [emit_of_needsMangling hfirst, emit_of_not_needsMangling hsecond] at heq
    exact absurd heq.symm (ne_mangle_of_not_needsMangling hsecond first)
  · rw [emit_of_needsMangling hfirst, emit_of_needsMangling hsecond] at heq
    exact mangle_injective heq

theorem emit_ne_mangle {name : String} (hname : needsMangling name = false) (other : String) :
    emit other ≠ mangle name := by
  intro heq
  cases hother : needsMangling other with
  | true =>
      rw [emit_of_needsMangling hother] at heq
      rw [mangle_injective heq, hname] at hother
      contradiction
  | false =>
      rw [emit_of_not_needsMangling hother] at heq
      exact ne_mangle_of_not_needsMangling hother name heq

/-- Spelling is a faithful renaming into the names that Lua leaves free.  Respelling alone is
injective too, and what it produces would be respelled again. -/
theorem emit_valid_and_injective :
    (∀ name, isIdentifier (emit name) = true ∧ isKeyword (emit name) = false ∧
      emit name ∉ globalNames) ∧
    Function.Injective mangle ∧
    (∀ name, needsMangling (mangle name) = true) ∧
    Function.Injective emit := by
  refine ⟨?_, mangle_injective, needsMangling_mangle, emit_injective⟩
  intro name
  have hvalid := isIdentifier_emit name
  refine ⟨hvalid, not_isKeyword_of_isIdentifier hvalid, ?_⟩
  intro hmem
  have hglobal : isGlobalName (emit name) = true := List.contains_iff_mem.mpr hmem
  rw [isGlobalName_emit] at hglobal
  contradiction

end LuaLowering.Lua
