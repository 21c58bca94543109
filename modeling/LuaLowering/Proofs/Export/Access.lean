import LuaLowering.Export
import LuaLowering.Lua.Render
import LuaLowering.Proofs.Lexeme

namespace LuaLowering

/-! Reads through export tables can be told apart by their text. -/

namespace Lua.Expr

/-! Fields.  A key that is a name stands after a dot, any other key stands as a literal between
brackets. -/

def keyText (key : String) : List Char :=
  if isIdentifier key then '.' :: key.toList else '[' :: quote key ++ [']']

theorem keyText_of_isIdentifier {key : String} (hkey : isIdentifier key = true) :
    keyText key = '.' :: key.toList := by
  rw [keyText, if_pos hkey]

theorem keyText_of_not_isIdentifier {key : String} (hkey : isIdentifier key = false) :
    keyText key = '[' :: quote key ++ [']'] := by
  rw [keyText, if_neg (Bool.eq_false_iff.mp hkey)]

theorem render_field {table : Expr} (htable : table.isIndexable = true) (key : String) :
    (table.field key).render = table.render ++ keyText key := by
  cases hkey : isIdentifier key with
  | true =>
      rw [keyText_of_isIdentifier hkey]
      simp [field, render, dotKey?, hkey, htable, parenthesise]
  | false =>
      rw [keyText_of_not_isIdentifier hkey]
      simp [field, render, dotKey?, hkey, htable, parenthesise]

theorem render_foldl_field {table : Expr} (htable : table.isIndexable = true)
    (keys : List String) :
    (keys.foldl field table).render = table.render ++ keys.flatMap keyText := by
  induction keys generalizing table with
  | nil => simp
  | cons key keys ih =>
      have hfield : (table.field key).isIndexable = true := rfl
      rw [List.foldl_cons, ih hfield, render_field htable, List.flatMap_cons, List.append_assoc]

theorem delimited_keyText_append (key : String) (rest : List Char) :
    Delimited (keyText key ++ rest) := by
  cases hkey : isIdentifier key with
  | true =>
      rw [keyText_of_isIdentifier hkey]
      exact delimited_cons (by decide) _
  | false =>
      rw [keyText_of_not_isIdentifier hkey]
      exact delimited_cons (by decide) _

theorem delimited_flatMap_keyText (keys : List String) : Delimited (keys.flatMap keyText) := by
  cases keys with
  | nil => exact delimited_nil
  | cons key keys =>
      rw [List.flatMap_cons]
      exact delimited_keyText_append key _

theorem keyText_append_inj {key key' : String} {rest rest' : List Char} (hrest : Delimited rest)
    (hrest' : Delimited rest') (heq : keyText key ++ rest = keyText key' ++ rest') :
    key = key' ∧ rest = rest' := by
  cases hkey : isIdentifier key <;> cases hkey' : isIdentifier key'
  · rw [keyText_of_not_isIdentifier hkey, keyText_of_not_isIdentifier hkey'] at heq
    simp only [List.cons_append, List.append_assoc, List.nil_append, List.cons.injEq,
      true_and] at heq
    obtain ⟨hkeys, hclose⟩ := quote_append_inj heq
    exact ⟨hkeys, (List.cons.inj hclose).2⟩
  · rw [keyText_of_not_isIdentifier hkey, keyText_of_isIdentifier hkey'] at heq
    exact absurd (List.cons.inj heq).1 (by decide)
  · rw [keyText_of_isIdentifier hkey, keyText_of_not_isIdentifier hkey'] at heq
    exact absurd (List.cons.inj heq).1 (by decide)
  · rw [keyText_of_isIdentifier hkey, keyText_of_isIdentifier hkey'] at heq
    obtain ⟨hkeys, hafter⟩ :=
      word_append_inj (all_isNameChar_of_isIdentifier hkey) (all_isNameChar_of_isIdentifier hkey')
        hrest hrest' (List.cons.inj heq).2
    exact ⟨String.toList_injective hkeys, hafter⟩

theorem keyText_ne_nil (key : String) : keyText key ≠ [] := by
  rw [keyText]
  split <;> simp

theorem flatMap_keyText_injective : Function.Injective (List.flatMap keyText) := by
  intro keys
  induction keys with
  | nil =>
      intro keys' heq
      cases keys' with
      | nil => rfl
      | cons key' keys' => exact absurd heq.symm (by simp [keyText_ne_nil])
  | cons key keys ih =>
      intro keys' heq
      cases keys' with
      | nil => exact absurd heq (by simp [keyText_ne_nil])
      | cons key' keys' =>
          rw [List.flatMap_cons, List.flatMap_cons] at heq
          obtain ⟨hkey, hkeys⟩ := keyText_append_inj (delimited_flatMap_keyText keys)
            (delimited_flatMap_keyText keys') heq
          rw [hkey, ih hkeys]

end Lua.Expr

namespace ExportPath

open Lua.Expr

/-! The outermost table.  No namespace is spelled like the table of a module. -/

/-- The spelling of the outermost table. -/
def rootText (name : String) : String := if name = moduleTable then name else Lua.emit name

theorem root_eq_ident (name : String) :
    ∃ word : Lua.Ident, root name = .ident word ∧ word.text = rootText name := by
  unfold root rootText
  split
  · exact ⟨_, rfl, rfl⟩
  · cases hname : Lua.needsMangling name with
    | true => exact ⟨_, rfl, (Lua.emit_of_needsMangling hname).symm⟩
    | false => exact ⟨_, rfl, (Lua.emit_of_not_needsMangling hname).symm⟩

theorem rootText_moduleTable : rootText moduleTable = moduleTable := if_pos rfl

theorem rootText_of_ne {name : String} (hname : name ≠ moduleTable) :
    rootText name = Lua.emit name := if_neg hname

theorem mangle_exports : Lua.mangle "exports" = moduleTable := by
  decide

theorem emit_ne_moduleTable (name : String) : Lua.emit name ≠ moduleTable := by
  rw [← mangle_exports]
  exact Lua.emit_ne_mangle (by decide) name

theorem rootText_injective : Function.Injective rootText := by
  intro first second heq
  by_cases hfirst : first = moduleTable <;> by_cases hsecond : second = moduleTable
  · rw [hfirst, hsecond]
  · rw [hfirst, rootText_moduleTable, rootText_of_ne hsecond] at heq
    exact absurd heq.symm (emit_ne_moduleTable second)
  · rw [hsecond, rootText_moduleTable, rootText_of_ne hfirst] at heq
    exact absurd heq (emit_ne_moduleTable first)
  · rw [rootText_of_ne hfirst, rootText_of_ne hsecond] at heq
    exact Lua.emit_injective heq

theorem isIdentifier_rootText (name : String) : Lua.isIdentifier (rootText name) = true := by
  by_cases hname : name = moduleTable
  · rw [hname]
    decide
  · rw [rootText_of_ne hname]
    exact Lua.isIdentifier_emit name

/-! The whole access. -/

theorem render_access (first : String) (rest : List String) (word : Lua.Ident) :
    (access ⟨first :: rest⟩ word).render =
      (rootText first).toList ++ (rest ++ [word.sourceName.getD word.text]).flatMap keyText := by
  obtain ⟨rootWord, hroot, htext⟩ := root_eq_ident first
  have haccess : access ⟨first :: rest⟩ word =
      (rest ++ [word.sourceName.getD word.text]).foldl field (root first) := by
    simp [access, table]
  rw [haccess, hroot, render_foldl_field rfl, render, htext]

/-- Two reads through export tables are written alike only if they go through the same tables and
read the same entry. -/
theorem access_text_inj {path path' : ExportPath} {word word' : Lua.Ident}
    (hpath : path.segments ≠ []) (hpath' : path'.segments ≠ [])
    (htext : (path.access word).text = (path'.access word').text) :
    path = path' ∧ word.sourceName.getD word.text = word'.sourceName.getD word'.text := by
  obtain ⟨first, rest, hsegments⟩ := List.exists_cons_of_ne_nil hpath
  obtain ⟨first', rest', hsegments'⟩ := List.exists_cons_of_ne_nil hpath'
  obtain rfl : path = ⟨first :: rest⟩ := by rw [← hsegments]
  obtain rfl : path' = ⟨first' :: rest'⟩ := by rw [← hsegments']
  have hrender := String.ofList_injective htext
  rw [render_access, render_access] at hrender
  obtain ⟨hroot, hkeys⟩ :=
    Lua.word_append_inj (Lua.all_isNameChar_of_isIdentifier (isIdentifier_rootText first))
      (Lua.all_isNameChar_of_isIdentifier (isIdentifier_rootText first'))
      (delimited_flatMap_keyText _) (delimited_flatMap_keyText _) hrender
  have hfirst : first = first' := rootText_injective (String.toList_injective hroot)
  obtain ⟨hrest, hkey⟩ := List.append_inj' (flatMap_keyText_injective hkeys) rfl
  exact ⟨by rw [hfirst, hrest], List.singleton_inj.mp hkey⟩

def printTable : ExportPath := ⟨["print", "a\\"]⟩

/-- A respelled name and the name itself read one entry. -/
theorem access_text_inj_printTable :
    (printTable.access { text := "____end", sourceName := some "end" }).text =
      "____print[\"a\\\\\"][\"end\"]" ∧
    (printTable.access { text := "end" }).text = "____print[\"a\\\\\"][\"end\"]" ∧
    (some "end").getD "____end" = (none : Option String).getD "end" := by
  have hrespelled : (printTable.access { text := "____end", sourceName := some "end" }).text =
      "____print[\"a\\\\\"][\"end\"]" := by decide
  have hkept : (printTable.access { text := "end" }).text = "____print[\"a\\\\\"][\"end\"]" := by
    decide
  exact ⟨hrespelled, hkept,
    (access_text_inj (by decide) (by decide) (hrespelled.trans hkept.symm)).2⟩

end ExportPath

end LuaLowering
