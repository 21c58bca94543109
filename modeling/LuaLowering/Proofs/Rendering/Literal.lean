import LuaLowering.Lua.Render
import LuaLowering.Proofs.Lexeme

namespace LuaLowering.Lua

/-! Reading short string literals.  A decimal escape has no mark at its end: it takes in every digit
that follows, up to three. -/

/-- The digits in front of a text, up to a limit, and what follows them. -/
def leadingDigits : Nat → List Char → List Char × List Char
  | 0, text => ([], text)
  | _ + 1, [] => ([], [])
  | limit + 1, c :: rest =>
      if c.isDigit then (c :: (leadingDigits limit rest).1, (leadingDigits limit rest).2)
      else ([], c :: rest)

def decimalValue (digits : List Char) : Nat :=
  digits.foldl (fun value digit => 10 * value + (digit.toNat - '0'.toNat)) 0

/-- What a backslash in front of a text stands for, and the text behind the escape. -/
def readEscape? : List Char → Option (Char × List Char)
  | '"' :: rest => some ('"', rest)
  | '\\' :: rest => some ('\\', rest)
  | 'n' :: rest => some ('\n', rest)
  | 'r' :: rest => some ('\r', rest)
  | 't' :: rest => some ('\t', rest)
  | text =>
      match leadingDigits 3 text with
      | ([], _) => none
      | (digits, rest) => some (Char.ofNat (decimalValue digits), rest)

/-- The character that stands in front of a text, and the text behind it.  A backslash that begins
no escape stands for itself. -/
def readChar (c : Char) (rest : List Char) : Char × List Char :=
  if c = '\\' then (readEscape? rest).getD (c, rest) else (c, rest)

theorem leadingDigits_append (limit : Nat) (text : List Char) :
    (leadingDigits limit text).1 ++ (leadingDigits limit text).2 = text := by
  fun_induction leadingDigits limit text with
  | case1 text => rfl
  | case2 limit => rfl
  | case3 limit c rest hdigit ih => rw [List.cons_append, ih]
  | case4 limit c rest hdigit => rfl

theorem length_leadingDigits (limit : Nat) (text : List Char) :
    (leadingDigits limit text).1.length + (leadingDigits limit text).2.length = text.length := by
  rw [← List.length_append, leadingDigits_append]

theorem length_readEscape? {text rest : List Char} {c : Char}
    (hread : readEscape? text = some (c, rest)) : rest.length ≤ text.length := by
  unfold readEscape? at hread
  split at hread
  case h_6 =>
    split at hread
    · cases hread
    case h_2 digits behind _ hdigits =>
      obtain ⟨rfl, rfl⟩ := Prod.mk.inj (Option.some.inj hread)
      have hlength := length_leadingDigits 3 text
      rw [hdigits] at hlength
      exact hlength ▸ Nat.le_add_left _ _
  all_goals
    obtain ⟨rfl, rfl⟩ := Prod.mk.inj (Option.some.inj hread)
    simp

theorem length_readChar (c : Char) (rest : List Char) :
    (readChar c rest).2.length ≤ rest.length := by
  unfold readChar
  split
  · cases hread : readEscape? rest with
    | none => simp
    | some read => simpa using length_readEscape? hread
  · simp

/-- The contents of a literal up to the quote that ends it, and the text behind that. -/
def readContents : List Char → Option (List Char × List Char)
  | [] => none
  | c :: rest =>
      if c = '"' then some ([], rest)
      else
        (readContents (readChar c rest).2).map fun (contents, behind) =>
          ((readChar c rest).1 :: contents, behind)
termination_by text => text.length
decreasing_by exact Nat.lt_succ_of_le (length_readChar c rest)

def readLiteral : List Char → Option (List Char × List Char)
  | '"' :: text => readContents text
  | _ => none

/-! What is read where a text was written. -/

/-- A zero character is taken together with the digits that follow it, up to two. -/
def asRead : List Char → List Char
  | [] => []
  | c :: rest =>
      if c = '\x00' then
        Char.ofNat (decimalValue (leadingDigits 2 rest).1) :: asRead (leadingDigits 2 rest).2
      else c :: asRead rest
termination_by text => text.length
decreasing_by
  · have hlength := length_leadingDigits 2 rest
    simp only [List.length_cons]
    omega
  · exact Nat.lt_succ_self _

theorem escapeChar_of_isDigit {c : Char} (hdigit : c.isDigit = true) : escapeChar c = [c] := by
  unfold escapeChar
  split
  case h_7 => rfl
  all_goals contradiction

theorem leadingDigits_of_head {text : List Char} (hhead : ∀ c ∈ text.head?, c.isDigit = false)
    (limit : Nat) : leadingDigits limit text = ([], text) := by
  cases limit with
  | zero => rfl
  | succ limit =>
      cases text with
      | nil => rfl
      | cons c rest => simp [leadingDigits, hhead c rfl]

theorem isDigit_head?_escapeChar_append {c : Char} (hdigit : c.isDigit = false)
    (text : List Char) : ∀ d ∈ (escapeChar c ++ text).head?, d.isDigit = false := by
  rcases escapeChar_cases c with ⟨letter, hc, _⟩ | ⟨hc, _, _⟩ <;>
    simp only [hc, List.cons_append, List.head?_cons, Option.mem_def, Option.some.injEq,
      forall_eq']
  · rfl
  · exact hdigit

theorem leadingDigits_escaped (limit : Nat) (text behind : List Char) :
    leadingDigits limit (text.flatMap escapeChar ++ '"' :: behind) =
      ((leadingDigits limit text).1,
        (leadingDigits limit text).2.flatMap escapeChar ++ '"' :: behind) := by
  fun_induction leadingDigits limit text with
  | case1 text => rfl
  | case2 limit => rfl
  | case3 limit c rest hdigit ih =>
      rw [List.flatMap_cons, escapeChar_of_isDigit hdigit, List.singleton_append, List.cons_append,
        leadingDigits, if_pos hdigit, ih]
  | case4 limit c rest hdigit =>
      rw [List.flatMap_cons, List.append_assoc]
      exact leadingDigits_of_head
        (isDigit_head?_escapeChar_append (Bool.not_eq_true _ ▸ hdigit) _) _

theorem readContents_escapeChar {c : Char} (hc : c ≠ '\x00') (text : List Char) :
    readContents (escapeChar c ++ text) =
      (readContents text).map fun (contents, behind) => (c :: contents, behind) := by
  unfold escapeChar
  split
  case h_6 => exact absurd rfl hc
  case h_7 hquote hbackslash _ _ _ _ =>
    rw [List.singleton_append, readContents, if_neg hquote, readChar, if_neg hbackslash]
  all_goals
    rw [List.cons_append, readContents, if_neg (by decide)]
    rfl

theorem readContents_zero (text : List Char) :
    readContents (escapeChar '\x00' ++ text) =
      (readContents (leadingDigits 2 text).2).map fun (contents, behind) =>
        (Char.ofNat (decimalValue (leadingDigits 2 text).1) :: contents, behind) := by
  change readContents ('\\' :: '0' :: text) = _
  rw [readContents, if_neg (by decide)]
  rfl

theorem readContents_escaped (text behind : List Char) :
    readContents (text.flatMap escapeChar ++ '"' :: behind) = some (asRead text, behind) := by
  fun_induction asRead text with
  | case1 => rw [List.flatMap_nil, List.nil_append, readContents, if_pos rfl]
  | case2 rest ih =>
      rw [List.flatMap_cons, List.append_assoc, readContents_zero, leadingDigits_escaped, ih]
      rfl
  | case3 c rest hzero ih =>
      rw [List.flatMap_cons, List.append_assoc, readContents_escapeChar hzero, ih]
      rfl

theorem readLiteral_quote (text : String) (behind : List Char) :
    readLiteral (quote text ++ behind) = some (asRead text.toList, behind) := by
  have hquote : quote text ++ behind =
      '"' :: (text.toList.flatMap escapeChar ++ '"' :: behind) := by
    simp [quote]
  rw [hquote, readLiteral, readContents_escaped]

theorem readLiteral_string (value : String) :
    readLiteral (Expr.string value).text.toList = some (asRead value.toList, []) := by
  rw [← readLiteral_quote value [], List.append_nil, Expr.text, String.toList_ofList, Expr.render]

/-! When the text that is read is the one that was written. -/

def ZeroBeforeDigit (text : List Char) : Prop :=
  ∃ digit, digit.isDigit = true ∧ ['\x00', digit] <:+: text

theorem not_zeroBeforeDigit_nil : ¬ ZeroBeforeDigit [] := by
  rintro ⟨digit, _, hinfix⟩
  cases List.infix_nil.mp hinfix

theorem zeroBeforeDigit_cons {c : Char} {rest : List Char} :
    ZeroBeforeDigit (c :: rest) ↔
      (c = '\x00' ∧ ∃ digit ∈ rest.head?, digit.isDigit = true) ∨ ZeroBeforeDigit rest := by
  simp only [ZeroBeforeDigit, List.infix_cons_iff, List.cons_prefix_cons]
  cases rest with
  | nil => simp
  | cons d rest =>
    simp only [List.cons_prefix_cons, List.nil_prefix]
    grind

theorem length_asRead_le (text : List Char) : (asRead text).length ≤ text.length := by
  fun_induction asRead text with
  | case1 => exact Nat.le_refl _
  | case2 rest ih =>
      have hlength := length_leadingDigits 2 rest
      simp only [List.length_cons]
      omega
  | case3 c rest hzero ih => exact Nat.succ_le_succ ih

theorem length_leadingDigits_lt {limit : Nat} {text : List Char}
    (hdigit : ∃ digit ∈ text.head?, digit.isDigit = true) :
    (leadingDigits (limit + 1) text).2.length < text.length := by
  cases text with
  | nil => simp at hdigit
  | cons c rest =>
      have hc : c.isDigit = true := by simpa using hdigit
      have hlength := length_leadingDigits limit rest
      simp only [leadingDigits, hc, if_true, List.length_cons]
      omega

theorem asRead_eq_self_iff (text : List Char) : asRead text = text ↔ ¬ ZeroBeforeDigit text := by
  fun_induction asRead text with
  | case1 => simp [not_zeroBeforeDigit_nil]
  | case2 rest ih =>
      rw [zeroBeforeDigit_cons]
      by_cases hdigit : ∃ digit ∈ rest.head?, digit.isDigit = true
      · -- The digits do not come back, so what is read is shorter than what was written.
        have hshorter : (asRead (leadingDigits 2 rest).2).length < rest.length :=
          Nat.lt_of_le_of_lt (length_asRead_le _) (length_leadingDigits_lt hdigit)
        have hne : asRead (leadingDigits 2 rest).2 ≠ rest := by
          intro heq
          rw [heq] at hshorter
          exact Nat.lt_irrefl _ hshorter
        exact iff_of_false (fun heq => hne (List.cons.inj heq).2)
          (fun hnot => hnot (Or.inl ⟨rfl, hdigit⟩))
      · have hnone : leadingDigits 2 rest = ([], rest) :=
          leadingDigits_of_head (by simpa using hdigit) 2
        rw [hnone] at ih ⊢
        simp only [List.cons.injEq, ih, hdigit, and_false, false_or, and_iff_right_iff_imp]
        exact fun _ => rfl
  | case3 c rest hzero ih => simp [zeroBeforeDigit_cons, hzero, ih]

/-- A literal is always read to its end, and gives back its text unless a zero character stands
right before a digit there. -/
theorem readLiteral_string_eq_iff (value : String) :
    (∃ contents, readLiteral (Expr.string value).text.toList = some (contents, [])) ∧
    (readLiteral (Expr.string value).text.toList = some (value.toList, []) ↔
      ¬ ∃ digit, digit.isDigit = true ∧ ['\x00', digit] <:+: value.toList) := by
  refine ⟨⟨_, readLiteral_string value⟩, ?_⟩
  rw [readLiteral_string, Option.some.injEq, Prod.mk.injEq, and_iff_left rfl]
  exact asRead_eq_self_iff value.toList

/-- A zero character and a one are read as the character with the code one. -/
theorem readLiteral_zero_one :
    (Expr.string "\x001").text = "\"\\01\"" ∧
      readLiteral (Expr.string "\x001").text.toList = some (['\x01'], []) ∧
      readLiteral (Expr.string "\x001").text.toList ≠ some ("\x001".toList, []) := by
  refine ⟨by rfl, ?_, ?_⟩
  · rw [readLiteral_string]
    simp [asRead, leadingDigits, decimalValue]
  · intro hread
    exact (readLiteral_string_eq_iff "\x001").2.mp hread ⟨'1', rfl, [], [], rfl⟩

end LuaLowering.Lua
