import LuaLowering.Proofs.Rendering.Operand

namespace LuaLowering.Lua

/-! Rendered expressions can be read in one way only. -/

/-! Operators. -/

theorem BinaryOp.find?_text (op : BinaryOp) : all.find? (·.text = op.text) = some op := by
  cases op <;> rfl

theorem BinaryOp.blank_not_mem_text (op : BinaryOp) : ' ' ∉ op.text.toList := by
  cases op <;> decide

theorem BinaryOp.text_append_inj {op op' : BinaryOp} {rest rest' : List Char}
    (heq : op.text.toList ++ ' ' :: rest = op'.text.toList ++ ' ' :: rest') :
    op = op' ∧ rest = rest' := by
  obtain ⟨htext, hrest⟩ :=
    append_cons_inj_of_first op.blank_not_mem_text op'.blank_not_mem_text heq
  refine ⟨Option.some.inj ?_, hrest⟩
  rw [← op.find?_text, String.toList_injective htext, op'.find?_text]

theorem UnaryOp.find?_head? (op : UnaryOp) (rest : List Char) :
    all.find? (·.text.toList.head? = (op.text.toList ++ rest).head?) = some op := by
  cases op <;> rfl

theorem UnaryOp.text_append_inj {op op' : UnaryOp} {rest rest' : List Char}
    (heq : op.text.toList ++ rest = op'.text.toList ++ rest') : op = op' ∧ rest = rest' := by
  obtain rfl : op = op' := by
    apply Option.some.inj
    rw [← op.find?_head? rest, heq, op'.find?_head? rest']
  exact ⟨rfl, List.append_cancel_left heq⟩

namespace Expr

theorem Opening.append_ne_not {opening : Opening} (hopening : opening.IsPlain) {rest : List Char}
    (hrest : Delimited rest) (after : List Char) :
    opening.text ++ rest ≠ "not".toList ++ ' ' :: after := by
  intro heq
  cases opening with
  | word name =>
      obtain ⟨hname, _⟩ := word_append_inj hopening.chars (by decide) hrest
        (delimited_cons (by decide) after) heq
      exact hopening.ne_not (String.toList_injective hname)
  | _ => exact absurd (List.cons.inj heq).1 (by decide)

theorem operand_append_ne_unary {expr : Expr} (hplain : expr.isPlain = true) {rest : List Char}
    (hrest : Stopped rest) (op : UnaryOp) (after : List Char) :
    expr.operand ++ rest ≠ op.text.toList ++ after := by
  cases op with
  | not =>
      rw [operand_eq_spine expr hplain, List.append_assoc]
      exact Opening.append_ne_not (isPlain_opening expr hplain)
        (Suffix.delimited_flatMap_text _ hrest.delimited) after
  | _ => exact operand_append_ne_cons hplain (by decide) (by decide) rest after

/-! One lemma for each way to write an expression. -/

theorem readable_of_not_isOperation {expr : Expr} (hoperation : expr.isOperation = false)
    (hplain : expr.isPlain = true) (hread : ∀ part ∈ expr.parts, part.Readable) :
    expr.Readable := by
  intro other rest rest' hother hrest hrest' heq
  rw [render_of_not_isOperation hoperation] at heq
  rcases operation_cases other with hoperation' | ⟨op, left, right, rfl⟩ | ⟨op, inner, rfl⟩
  · rw [render_of_not_isOperation hoperation'] at heq
    exact operand_append_inj hplain hread hother hrest.stopped hrest'.stopped heq
  · rw [isPlain, Bool.and_eq_true] at hother
    rw [render_binary_append] at heq
    obtain ⟨_, rfl⟩ :=
      operand_append_inj hplain hread hother.1 hrest.stopped (stopped_blank _) heq
    exact absurd hrest (not_closing_blank _)
  · rw [render_unary_append] at heq
    exact absurd heq (operand_append_ne_unary hplain hrest.stopped op _)

theorem readable_binary {left right : Expr} (hleft : left.isPlain = true)
    (hright : right.isPlain = true) (hreadLeft : ∀ part ∈ left.parts, part.Readable)
    (hreadRight : ∀ part ∈ right.parts, part.Readable) (op : BinaryOp) :
    (binary op left right).Readable := by
  intro other rest rest' hother hrest hrest' heq
  rw [render_binary_append] at heq
  rcases operation_cases other with hoperation' | ⟨op', left', right', rfl⟩ | ⟨op', inner, rfl⟩
  · rw [render_of_not_isOperation hoperation'] at heq
    obtain ⟨_, rfl⟩ :=
      operand_append_inj hleft hreadLeft hother (stopped_blank _) hrest'.stopped heq
    exact absurd hrest' (not_closing_blank _)
  · rw [isPlain, Bool.and_eq_true] at hother
    rw [render_binary_append] at heq
    obtain ⟨hlefts, hafter⟩ :=
      operand_append_inj hleft hreadLeft hother.1 (stopped_blank _) (stopped_blank _) heq
    obtain ⟨rfl, hoperands⟩ := BinaryOp.text_append_inj (List.cons.inj hafter).2
    obtain ⟨hrights, hends⟩ :=
      operand_append_inj hright hreadRight hother.2 hrest.stopped hrest'.stopped hoperands
    exact ⟨congrArg₂ (binary op) hlefts hrights, hends⟩
  · rw [render_unary_append] at heq
    exact absurd heq (operand_append_ne_unary hleft (stopped_blank _) op' _)

theorem readable_unary {inner : Expr} (hinner : inner.isPlain = true)
    (hread : ∀ part ∈ inner.parts, part.Readable) (op : UnaryOp) :
    (unary op inner).Readable := by
  intro other rest rest' hother hrest hrest' heq
  rw [render_unary_append] at heq
  rcases operation_cases other with hoperation' | ⟨op', left, right, rfl⟩ | ⟨op', inner', rfl⟩
  · rw [render_of_not_isOperation hoperation'] at heq
    exact absurd heq.symm (operand_append_ne_unary hother hrest'.stopped op _)
  · rw [isPlain, Bool.and_eq_true] at hother
    rw [render_binary_append] at heq
    exact absurd heq.symm (operand_append_ne_unary hother.1 (stopped_blank _) op _)
  · rw [isPlain] at hother
    rw [render_unary_append] at heq
    obtain ⟨rfl, hoperands⟩ := UnaryOp.text_append_inj heq
    obtain ⟨hinners, hends⟩ :=
      operand_append_inj hinner hread hother hrest.stopped hrest'.stopped hoperands
    exact ⟨congrArg (unary op) hinners, hends⟩

/-! All plain expressions. -/

theorem mem_parts_index {table key part : Expr} (hpart : part ∈ (index table key).parts) :
    part ∈ table.parts ∨ part = table ∨ part = key := by
  cases hindexable : table.isIndexable with
  | true =>
      rw [parts, spine_index_of_isIndexable hindexable, List.flatMap_append,
        ← List.append_assoc] at hpart
      rcases List.mem_append.mp hpart with htable | hkey
      · exact Or.inl htable
      · exact Or.inr (Or.inr (by simpa [Suffix.parts] using hkey))
  | false =>
      rw [parts, spine_index_of_not_isIndexable hindexable] at hpart
      exact Or.inr (by simpa [Opening.parts, Suffix.parts] using hpart)

theorem parts_call (callee : Expr) (arguments : List Expr) :
    (call callee arguments).parts = callee.parts ++ arguments := by
  simp [parts, spine, Suffix.parts]

mutual

/-- The parts of an operand are its proper subexpressions, or the operation that it is. -/
theorem readable_of_isPlain (expr : Expr) (hplain : expr.isPlain = true) :
    expr.Readable ∧ ∀ part ∈ expr.parts, part.Readable := by
  cases expr with
  | index table key =>
      have hparts : ∀ part ∈ (index table key).parts, part.Readable := by
        rw [isPlain, Bool.and_eq_true] at hplain
        obtain ⟨htable, htableParts⟩ := readable_of_isPlain table hplain.1
        obtain ⟨hkey, _⟩ := readable_of_isPlain key hplain.2
        intro part hpart
        rcases mem_parts_index hpart with hmem | rfl | rfl
        · exact htableParts part hmem
        · exact htable
        · exact hkey
      exact ⟨readable_of_not_isOperation rfl hplain hparts, hparts⟩
  | call callee arguments =>
      have hparts : ∀ part ∈ (call callee arguments).parts, part.Readable := by
        simp only [isPlain, Bool.and_eq_true] at hplain
        obtain ⟨_, hcallee⟩ := readable_of_isPlain callee hplain.1.2
        rw [parts_call, List.forall_mem_append]
        exact ⟨hcallee, readable_of_arePlain arguments hplain.2⟩
      exact ⟨readable_of_not_isOperation rfl hplain hparts, hparts⟩
  | binary op left right =>
      rw [isPlain, Bool.and_eq_true] at hplain
      obtain ⟨_, hleft⟩ := readable_of_isPlain left hplain.1
      obtain ⟨_, hright⟩ := readable_of_isPlain right hplain.2
      have hread := readable_binary hplain.1 hplain.2 hleft hright
      exact ⟨hread op, List.forall_mem_singleton.mpr (hread op)⟩
  | unary op inner =>
      rw [isPlain] at hplain
      obtain ⟨_, hinner⟩ := readable_of_isPlain inner hplain
      have hread := readable_unary hplain hinner
      exact ⟨hread op, List.forall_mem_singleton.mpr (hread op)⟩
  | numeric | multiple | numericRange => contradiction
  | _ =>
      have hparts : ∀ part ∈ [], Readable part := List.forall_mem_nil _
      exact ⟨readable_of_not_isOperation rfl hplain hparts, hparts⟩

theorem readable_of_arePlain (exprs : List Expr) (hplain : arePlain exprs = true) :
    ∀ expr ∈ exprs, expr.Readable := by
  cases exprs with
  | nil => exact List.forall_mem_nil _
  | cons first rest =>
      rw [arePlain, Bool.and_eq_true] at hplain
      rw [List.forall_mem_cons]
      exact ⟨(readable_of_isPlain first hplain.1).1, readable_of_arePlain rest hplain.2⟩

end

/-! The origin of a word does not show in the text. -/

theorem isOperation_bare (expr : Expr) : expr.bare.isOperation = expr.isOperation := by
  cases expr <;> rfl

theorem isIndexable_bare (expr : Expr) : expr.bare.isIndexable = expr.isIndexable := by
  cases expr <;> rfl

theorem dotKey?_bare (expr : Expr) : dotKey? expr.bare = dotKey? expr := by
  cases expr <;> rfl

mutual

theorem render_bare (expr : Expr) : expr.bare.render = expr.render := by
  cases expr with
  | index table key =>
      change (index table.bare key.bare).render = _
      rw [render_index, render_index, isIndexable_bare, render_bare table, Suffix.text, Suffix.text,
        dotKey?_bare, render_bare key]
  | binary op left right =>
      change (binary op left.bare right.bare).render = _
      rw [render, render, isOperation_bare, isOperation_bare, render_bare left, render_bare right]
  | unary op inner =>
      change (unary op inner.bare).render = _
      rw [render, render, isOperation_bare, render_bare inner]
  | call callee arguments =>
      rw [bare, map, mapAll_eq_map]
      change (call callee.bare (arguments.map bare)).render = _
      rw [render, render, render_bare callee, renderList_bare arguments]
  | multiple values =>
      rw [bare, map, mapAll_eq_map]
      change (multiple (values.map bare)).render = _
      rw [render, render, renderList_bare values]
  | numericRange start limit step =>
      change (numericRange start.bare limit.bare (mapStep Ident.bare id step)).render = _
      rw [render, render, render_bare start, render_bare limit, renderStep_bare step]
  | _ => rfl

theorem renderList_bare (exprs : List Expr) : renderList (exprs.map bare) = renderList exprs := by
  cases exprs with
  | nil => rfl
  | cons first rest =>
      rw [List.map_cons, renderList, renderList, render_bare first, renderRest_bare rest]

theorem renderRest_bare (exprs : List Expr) : renderRest (exprs.map bare) = renderRest exprs := by
  cases exprs with
  | nil => rfl
  | cons next rest =>
      rw [List.map_cons, renderRest, renderRest, render_bare next, renderRest_bare rest]

theorem renderStep_bare (step : Option Expr) :
    renderStep (mapStep Ident.bare id step) = renderStep step := by
  cases step with
  | none => rfl
  | some step =>
      change renderStep (some step.bare) = _
      rw [renderStep, renderStep, render_bare step]

end

/-- Plain expressions are written alike only if they are the same, apart from what is known about
the origin of their words. -/
theorem text_eq_iff_bare_eq {expr expr' : Expr} (hplain : expr.isPlain = true)
    (hplain' : expr'.isPlain = true) : expr.text = expr'.text ↔ expr.bare = expr'.bare := by
  constructor
  · intro htext
    have hrender : expr.render ++ [] = expr'.render ++ [] := by
      rw [String.ofList_injective htext]
    exact ((readable_of_isPlain expr hplain).1 hplain' closing_nil closing_nil hrender).1
  · intro hbare
    rw [text, text, ← render_bare expr, hbare, render_bare expr']

def guardedCall (word : Ident) : Expr :=
  .call (.field (.binary .concat (.unary .length (.ident word)) (.string "a\"]")) "on click")
    [.unary .not (.ident word), .nil]

/-- A word with an origin and one without. -/
theorem text_eq_iff_bare_eq_guardedCall :
    (guardedCall { text := "x" }).text = "((#x) .. \"a\\\"]\")[\"on click\"](not x, nil)" ∧
    (guardedCall { text := "x", sourceName := some "x", identity := some ⟨3⟩ }).text =
      "((#x) .. \"a\\\"]\")[\"on click\"](not x, nil)" ∧
    (guardedCall { text := "x" }).bare =
      (guardedCall { text := "x", sourceName := some "x", identity := some ⟨3⟩ }).bare := by
  have hkept : (guardedCall { text := "x" }).text =
      "((#x) .. \"a\\\"]\")[\"on click\"](not x, nil)" := by decide
  have hknown : (guardedCall { text := "x", sourceName := some "x", identity := some ⟨3⟩ }).text =
      "((#x) .. \"a\\\"]\")[\"on click\"](not x, nil)" := by decide
  exact ⟨hkept, hknown,
    (text_eq_iff_bare_eq (by decide) (by decide)).mp (hkept.trans hknown.symm)⟩

end Expr

end LuaLowering.Lua
