import LuaLowering.Lua.Render
import LuaLowering.Proofs.Lexeme
import LuaLowering.Proofs.Lowering.Coupling

namespace LuaLowering.Lua

/-! The shape of rendered operands.  An operand is written as an opening, which is an atom or an
expression between parentheses, followed by the keys and arguments that are applied to it. -/

/-- A word without what is known about its origin. -/
def Ident.bare (word : Ident) : Ident := { text := word.text }

namespace Expr

def bare (expr : Expr) : Expr := expr.map Ident.bare id

mutual

/-- Expressions without numbers and lists of values, whose words Lua can write and whose calls are
of something that can be called without parentheses. -/
def isPlain : Expr → Bool
  | .nil => true
  | .dots => true
  | .boolean _ => true
  | .numeric _ => false
  | .string _ => true
  | .ident word => isIdentifier word.text
  | .index table key => isPlain table && isPlain key
  | .binary _ left right => isPlain left && isPlain right
  | .unary _ operand => isPlain operand
  | .call callee arguments => callee.isIndexable && isPlain callee && arePlain arguments
  | .multiple _ => false
  | .numericRange .. => false

def arePlain : List Expr → Bool
  | [] => true
  | first :: rest => isPlain first && arePlain rest

end

theorem isPlain_of_mem_arePlain {exprs : List Expr} (hplain : arePlain exprs = true)
    {expr : Expr} (hmem : expr ∈ exprs) : expr.isPlain = true := by
  induction exprs with
  | nil => cases hmem
  | cons first rest ih =>
      rw [arePlain, Bool.and_eq_true] at hplain
      rcases List.mem_cons.mp hmem with rfl | hrest
      · exact hplain.1
      · exact ih hplain.2 hrest

/-! What is applied to an operand to make a longer one. -/

inductive Suffix where
  | key (key : Expr)
  | arguments (arguments : List Expr)

namespace Suffix

def apply (expr : Expr) : Suffix → Expr
  | .key inner => .index expr inner
  | .arguments values => .call expr values

def text : Suffix → List Char
  | .key inner =>
      match dotKey? inner with
      | some word => '.' :: word.toList
      | none => '[' :: inner.render ++ [']']
  | .arguments values => '(' :: renderList values ++ [')']

def bare : Suffix → Suffix
  | .key inner => .key inner.bare
  | .arguments values => .arguments (values.map Expr.bare)

/-- The expressions whose text is part of it. -/
def parts : Suffix → List Expr
  | .key inner => [inner]
  | .arguments values => values

def IsPlain (suffix : Suffix) : Prop := ∀ part ∈ suffix.parts, part.isPlain = true

end Suffix

theorem bare_apply (expr : Expr) (suffix : Suffix) :
    (suffix.apply expr).bare = suffix.bare.apply expr.bare := by
  cases suffix with
  | key inner => simp only [Suffix.apply, Suffix.bare, bare, map]
  | arguments values =>
      simp only [Suffix.apply, Suffix.bare, bare, map, mapAll_eq_map]
      rfl

theorem render_index (table key : Expr) :
    (index table key).render =
      parenthesise (!table.isIndexable) table.render ++ (Suffix.key key).text := by
  rw [render]
  rfl

theorem render_call (callee : Expr) (arguments : List Expr) :
    (call callee arguments).render = callee.render ++ (Suffix.arguments arguments).text := by
  rw [render, Suffix.text]
  simp

/-! Openings. -/

/-- A word that can open an operand: `not` is not one, since it stands before an operand. -/
structure IsWord (word : String) : Prop where
  chars : word.toList.all isNameChar = true
  nonempty : word.toList ≠ []
  ne_not : word ≠ "not"

theorem isWord_of_isIdentifier {word : String} (hword : isIdentifier word = true) :
    IsWord word := by
  obtain ⟨first, rest, hchars, _, _, _⟩ := isIdentifier_iff.mp hword
  refine ⟨all_isNameChar_of_isIdentifier hword, ?_, ?_⟩
  · rw [hchars]
    exact List.cons_ne_nil first rest
  · rintro rfl
    exact absurd hword (by decide)

/-- The atom that a word stands for. -/
def ofWord (word : String) : Expr :=
  if word = "nil" then .nil
  else if word = "true" then .boolean true
  else if word = "false" then .boolean false
  else .ident { text := word }

theorem ofWord_of_isIdentifier {word : String} (hword : isIdentifier word = true) :
    ofWord word = .ident { text := word } := by
  have hne : ∀ {keyword}, isIdentifier keyword = false → word ≠ keyword := by
    rintro keyword hkeyword rfl
    rw [hword] at hkeyword
    contradiction
  rw [ofWord, if_neg (hne (by decide)), if_neg (hne (by decide)), if_neg (hne (by decide))]

inductive Opening where
  | word (name : String)
  | dots
  | literal (value : String)
  | bracketed (expr : Expr)

namespace Opening

def text : Opening → List Char
  | .word name => name.toList
  | .dots => "...".toList
  | .literal value => quote value
  | .bracketed expr => '(' :: expr.render ++ [')']

def bare : Opening → Expr
  | .word name => ofWord name
  | .dots => .dots
  | .literal value => .string value
  | .bracketed expr => expr.bare

def parts : Opening → List Expr
  | .bracketed expr => [expr]
  | _ => []

def IsPlain : Opening → Prop
  | .word name => IsWord name
  | .bracketed expr => expr.isPlain = true
  | _ => True

end Opening

/-! Whole operands. -/

/-- The text of an expression between operators. -/
def operand (expr : Expr) : List Char := parenthesise expr.isOperation expr.render

/-- What a plain operand begins with, and what is applied to it from left to right. -/
def spine : Expr → Opening × List Suffix
  | .nil => (.word "nil", [])
  | .dots => (.dots, [])
  | .boolean value => (.word (if value then "true" else "false"), [])
  | .string value => (.literal value, [])
  | .ident word => (.word word.text, [])
  | .index table key =>
      if table.isIndexable then ((spine table).1, (spine table).2 ++ [.key key])
      else (.bracketed table, [.key key])
  | .call callee arguments => ((spine callee).1, (spine callee).2 ++ [.arguments arguments])
  | expr => (.bracketed expr, [])

theorem operand_of_isIndexable {expr : Expr} (hindexable : expr.isIndexable = true) :
    expr.operand = expr.render := by
  cases expr with
  | ident | index | call => rfl
  | _ => contradiction

theorem spine_index_of_isIndexable {table : Expr} (hindexable : table.isIndexable = true)
    (key : Expr) :
    (index table key).spine = (table.spine.1, table.spine.2 ++ [.key key]) := by
  rw [spine, if_pos hindexable]

theorem spine_index_of_not_isIndexable {table : Expr} (hindexable : table.isIndexable = false)
    (key : Expr) : (index table key).spine = (.bracketed table, [.key key]) := by
  rw [spine, if_neg (Bool.eq_false_iff.mp hindexable)]

/-- Every operand is written along its spine. -/
theorem operand_eq_spine (expr : Expr) (hplain : expr.isPlain = true) :
    expr.operand = expr.spine.1.text ++ expr.spine.2.flatMap Suffix.text := by
  cases expr with
  | index table key =>
      rw [isPlain, Bool.and_eq_true] at hplain
      rw [operand_of_isIndexable rfl, render_index]
      cases hindexable : table.isIndexable with
      | true =>
          have htable := operand_eq_spine table hplain.1
          rw [operand_of_isIndexable hindexable] at htable
          rw [spine_index_of_isIndexable hindexable, List.flatMap_append, ← List.append_assoc,
            ← htable]
          simp [parenthesise]
      | false =>
          rw [spine_index_of_not_isIndexable hindexable]
          simp [parenthesise, Opening.text]
  | call callee arguments =>
      simp only [isPlain, Bool.and_eq_true] at hplain
      have hcallee := operand_eq_spine callee hplain.1.2
      rw [operand_of_isIndexable hplain.1.1] at hcallee
      rw [operand_of_isIndexable rfl, render_call, spine, List.flatMap_append, ← List.append_assoc,
        ← hcallee]
      simp
  | boolean value =>
      cases value <;> simp [operand, parenthesise, isOperation, spine, render, Opening.text]
  | numeric | multiple | numericRange => contradiction
  | _ => simp [operand, parenthesise, isOperation, spine, render, Opening.text]

/-- An expression is its opening with the suffixes applied from left to right. -/
theorem bare_eq_spine (expr : Expr) (hplain : expr.isPlain = true) :
    expr.bare = (expr.spine.2.map Suffix.bare).foldl Suffix.apply expr.spine.1.bare := by
  cases expr with
  | ident word => exact (ofWord_of_isIdentifier hplain).symm
  | boolean value => cases value <;> rfl
  | index table key =>
      rw [isPlain, Bool.and_eq_true] at hplain
      cases hindexable : table.isIndexable with
      | true =>
          rw [spine_index_of_isIndexable hindexable, List.map_append, List.foldl_append,
            ← bare_eq_spine table hplain.1]
          exact bare_apply table (.key key)
      | false =>
          rw [spine_index_of_not_isIndexable hindexable]
          exact bare_apply table (.key key)
  | call callee arguments =>
      simp only [isPlain, Bool.and_eq_true] at hplain
      rw [spine, List.map_append, List.foldl_append, ← bare_eq_spine callee hplain.1.2]
      exact bare_apply callee (.arguments arguments)
  | _ => rfl

theorem isPlain_opening (expr : Expr) (hplain : expr.isPlain = true) : expr.spine.1.IsPlain := by
  cases expr with
  | nil => exact ⟨by decide, by decide, by decide⟩
  | boolean value =>
      cases value with
      | true => exact ⟨by decide, by decide, by decide⟩
      | false => exact ⟨by decide, by decide, by decide⟩
  | dots => trivial
  | string value => trivial
  | ident word => exact isWord_of_isIdentifier hplain
  | index table key =>
      rw [isPlain, Bool.and_eq_true] at hplain
      cases hindexable : table.isIndexable with
      | true =>
          rw [spine_index_of_isIndexable hindexable]
          exact isPlain_opening table hplain.1
      | false =>
          rw [spine_index_of_not_isIndexable hindexable]
          exact hplain.1
  | call callee arguments =>
      simp only [isPlain, Bool.and_eq_true] at hplain
      exact isPlain_opening callee hplain.1.2
  | _ => exact hplain

theorem isPlain_of_mem_spine (expr : Expr) (hplain : expr.isPlain = true) {suffix : Suffix}
    (hmem : suffix ∈ expr.spine.2) : suffix.IsPlain := by
  cases expr with
  | index table key =>
      rw [isPlain, Bool.and_eq_true] at hplain
      have hkey : (Suffix.key key).IsPlain := by
        intro part hpart
        obtain rfl := List.mem_singleton.mp hpart
        exact hplain.2
      cases hindexable : table.isIndexable with
      | true =>
          rw [spine_index_of_isIndexable hindexable] at hmem
          rcases List.mem_append.mp hmem with htable | hlast
          · exact isPlain_of_mem_spine table hplain.1 htable
          · rwa [List.mem_singleton.mp hlast]
      | false =>
          rw [spine_index_of_not_isIndexable hindexable] at hmem
          rwa [List.mem_singleton.mp hmem]
  | call callee arguments =>
      simp only [isPlain, Bool.and_eq_true] at hplain
      rw [spine] at hmem
      rcases List.mem_append.mp hmem with hcallee | hlast
      · exact isPlain_of_mem_spine callee hplain.1.2 hcallee
      · obtain rfl := List.mem_singleton.mp hlast
        exact fun part hpart => isPlain_of_mem_arePlain hplain.2 hpart
  | _ => simp [spine] at hmem

end Expr

end LuaLowering.Lua
