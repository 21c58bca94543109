import LuaLowering.Proofs.Rendering.Spine

namespace LuaLowering.Lua

/-! Where the expressions inside an operand can be read in one way only, so can the operand. -/

/-! What follows an expression. -/

/-- An expression ends before the text: it goes on with no operator, key or arguments. -/
def Closing (text : List Char) : Prop := ∀ c ∈ text.head?, c ∈ [')', ']', ',']

/-- An operand ends before the text, which may go on with a binary operator. -/
def Stopped (text : List Char) : Prop := ∀ c ∈ text.head?, c ∈ [' ', ')', ']', ',']

theorem closing_nil : Closing [] := by
  simp [Closing]

theorem closing_cons {c : Char} (hc : c ∈ [')', ']', ',']) (text : List Char) :
    Closing (c :: text) := by
  simpa [Closing] using hc

theorem Closing.stopped {text : List Char} (htext : Closing text) : Stopped text :=
  fun c hc => List.mem_cons_of_mem _ (htext c hc)

theorem stopped_blank (text : List Char) : Stopped (' ' :: text) := by
  simp [Stopped]

theorem not_closing_blank (text : List Char) : ¬ Closing (' ' :: text) := by
  simp [Closing]

theorem Stopped.delimited {text : List Char} (htext : Stopped text) : Delimited text := by
  intro c hc
  have hmarks : [' ', ')', ']', ','].all (!isNameChar ·) = true := by decide
  simpa using List.all_eq_true.mp hmarks c (htext c hc)

namespace Expr

/-- Where the expression is written before closing text, no other plain expression is, and the
text that follows it is known. -/
def Readable (expr : Expr) : Prop :=
  ∀ ⦃other : Expr⦄ ⦃rest rest' : List Char⦄, other.isPlain = true → Closing rest →
    Closing rest' → expr.render ++ rest = other.render ++ rest' →
      expr.bare = other.bare ∧ rest = rest'

/-! Openings. -/

namespace Opening

/-- The mark that an opening begins with, unless it is a word. -/
def mark? : Opening → Option Char
  | .word _ => none
  | .dots => some '.'
  | .literal _ => some '"'
  | .bracketed _ => some '('

/-- The mark is found again at the beginning of the text. -/
theorem filter_head?_text {opening : Opening} (hopening : opening.IsPlain) (rest : List Char) :
    (opening.text ++ rest).head?.filter (!isNameChar ·) = opening.mark? := by
  cases opening with
  | word name =>
      cases hname : name.toList with
      | nil => exact absurd hname hopening.nonempty
      | cons first more =>
          have hfirst : isNameChar first = true := by
            have hchars := hopening.chars
            rw [hname, List.all_cons, Bool.and_eq_true] at hchars
            exact hchars.1
          simp [text, mark?, hname, hfirst]
  | dots => rfl
  | literal value => rfl
  | bracketed expr => rfl

theorem append_ne_cons {opening : Opening} (hopening : opening.IsPlain) {mark : Char}
    (hname : isNameChar mark = false) (hmark : mark ∉ ['.', '"', '(']) (rest after : List Char) :
    opening.text ++ rest ≠ mark :: after := by
  intro heq
  have hfound : opening.mark? = some mark := by
    rw [← filter_head?_text hopening rest, heq]
    simp [hname]
  cases opening with
  | word name => cases hfound
  | _ =>
      cases hfound
      exact hmark (by decide)

theorem append_inj {opening opening' : Opening} (hopening : opening.IsPlain)
    (hopening' : opening'.IsPlain) (hread : ∀ part ∈ opening.parts, part.Readable)
    {rest rest' : List Char} (hrest : Delimited rest) (hrest' : Delimited rest')
    (heq : opening.text ++ rest = opening'.text ++ rest') :
    opening.bare = opening'.bare ∧ rest = rest' := by
  have hmark : opening.mark? = opening'.mark? := by
    rw [← filter_head?_text hopening rest, heq, filter_head?_text hopening' rest']
  cases opening with
  | word name =>
      cases opening' with
      | word name' =>
          obtain ⟨hnames, hafter⟩ :=
            word_append_inj hopening.chars hopening'.chars hrest hrest' heq
          exact ⟨congrArg ofWord (String.toList_injective hnames), hafter⟩
      | _ => cases hmark
  | dots =>
      cases opening' with
      | dots => exact ⟨rfl, List.append_cancel_left heq⟩
      | _ => simp [mark?] at hmark
  | literal value =>
      cases opening' with
      | literal value' =>
          obtain ⟨hvalues, hafter⟩ := quote_append_inj heq
          exact ⟨congrArg string hvalues, hafter⟩
      | _ => simp [mark?] at hmark
  | bracketed expr =>
      cases opening' with
      | bracketed expr' =>
          simp only [text, List.cons_append, List.append_assoc, List.nil_append, List.cons.injEq,
            true_and] at heq
          obtain ⟨hbare, hclose⟩ := hread expr List.mem_cons_self hopening'
            (closing_cons (by decide) rest) (closing_cons (by decide) rest') heq
          exact ⟨hbare, (List.cons.inj hclose).2⟩
      | _ => simp [mark?] at hmark

end Opening

/-! Beginnings. -/

theorem operation_cases (expr : Expr) :
    expr.isOperation = false ∨ (∃ op left right, expr = binary op left right) ∨
      ∃ op operand, expr = unary op operand := by
  cases expr <;> simp [isOperation]

theorem render_of_not_isOperation {expr : Expr} (hoperation : expr.isOperation = false) :
    expr.render = expr.operand := by
  simp [operand, parenthesise, hoperation]

theorem render_binary_append (op : BinaryOp) (left right : Expr) (rest : List Char) :
    (binary op left right).render ++ rest =
      left.operand ++ ' ' :: (op.text.toList ++ ' ' :: (right.operand ++ rest)) := by
  rw [render, operand, operand]
  simp

theorem render_unary_append (op : UnaryOp) (inner : Expr) (rest : List Char) :
    (unary op inner).render ++ rest = op.text.toList ++ (inner.operand ++ rest) := by
  rw [render, operand, List.append_assoc]

theorem operand_append_ne_cons {expr : Expr} (hplain : expr.isPlain = true) {mark : Char}
    (hname : isNameChar mark = false) (hmark : mark ∉ ['.', '"', '(']) (rest after : List Char) :
    expr.operand ++ rest ≠ mark :: after := by
  rw [operand_eq_spine expr hplain, List.append_assoc]
  exact Opening.append_ne_cons (isPlain_opening expr hplain) hname hmark _ after

theorem render_append_ne_bracket {expr : Expr} (hplain : expr.isPlain = true)
    (rest after : List Char) : expr.render ++ rest ≠ ')' :: after := by
  rcases operation_cases expr with hoperation | ⟨op, left, right, rfl⟩ | ⟨op, inner, rfl⟩
  · rw [render_of_not_isOperation hoperation]
    exact operand_append_ne_cons hplain (by decide) (by decide) rest after
  · rw [isPlain, Bool.and_eq_true] at hplain
    rw [render_binary_append]
    exact operand_append_ne_cons hplain.1 (by decide) (by decide) _ after
  · rw [render_unary_append]
    cases op <;> simp [UnaryOp.text]

/-! Lists of arguments. -/

theorem closing_renderRest (exprs : List Expr) (rest : List Char) :
    Closing (renderRest exprs ++ ')' :: rest) := by
  cases exprs with
  | nil =>
      rw [renderRest]
      exact closing_cons (by decide) rest
  | cons next exprs =>
      rw [renderRest]
      exact closing_cons (by decide) _

theorem renderRest_append_inj {exprs exprs' : List Expr} {rest rest' : List Char}
    (hread : ∀ expr ∈ exprs, expr.Readable) (hplain' : ∀ expr ∈ exprs', expr.isPlain = true)
    (heq : renderRest exprs ++ ')' :: rest = renderRest exprs' ++ ')' :: rest') :
    exprs.map bare = exprs'.map bare ∧ rest = rest' := by
  induction exprs generalizing exprs' with
  | nil =>
      cases exprs' with
      | nil =>
          rw [renderRest] at heq
          exact ⟨rfl, (List.cons.inj heq).2⟩
      | cons next' exprs' =>
          rw [renderRest, renderRest] at heq
          exact absurd (List.cons.inj heq).1 (by decide)
  | cons next exprs ih =>
      cases exprs' with
      | nil =>
          rw [renderRest, renderRest] at heq
          exact absurd (List.cons.inj heq).1 (by decide)
      | cons next' exprs' =>
          simp only [renderRest, List.cons_append, List.append_assoc, List.cons.injEq,
            true_and] at heq
          rw [List.forall_mem_cons] at hread hplain'
          obtain ⟨hnext, hafter⟩ := hread.1 hplain'.1 (closing_renderRest exprs rest)
            (closing_renderRest exprs' rest') heq
          obtain ⟨hexprs, hrest⟩ := ih hread.2 hplain'.2 hafter
          exact ⟨by rw [List.map_cons, List.map_cons, hnext, hexprs], hrest⟩

theorem renderList_append_inj {exprs exprs' : List Expr} {rest rest' : List Char}
    (hplain : ∀ expr ∈ exprs, expr.isPlain = true) (hread : ∀ expr ∈ exprs, expr.Readable)
    (hplain' : ∀ expr ∈ exprs', expr.isPlain = true)
    (heq : renderList exprs ++ ')' :: rest = renderList exprs' ++ ')' :: rest') :
    exprs.map bare = exprs'.map bare ∧ rest = rest' := by
  cases exprs with
  | nil =>
      cases exprs' with
      | nil =>
          rw [renderList] at heq
          exact ⟨rfl, (List.cons.inj heq).2⟩
      | cons first' exprs' =>
          rw [renderList, renderList, List.append_assoc] at heq
          exact absurd heq.symm (render_append_ne_bracket (hplain' first' List.mem_cons_self) _ _)
  | cons first exprs =>
      cases exprs' with
      | nil =>
          rw [renderList, renderList, List.append_assoc] at heq
          exact absurd heq (render_append_ne_bracket (hplain first List.mem_cons_self) _ _)
      | cons first' exprs' =>
          rw [renderList, renderList, List.append_assoc, List.append_assoc] at heq
          rw [List.forall_mem_cons] at hread hplain'
          obtain ⟨hfirst, hafter⟩ := hread.1 hplain'.1 (closing_renderRest exprs rest)
            (closing_renderRest exprs' rest') heq
          obtain ⟨hexprs, hrest⟩ := renderRest_append_inj hread.2 hplain'.2 hafter
          exact ⟨by rw [List.map_cons, List.map_cons, hfirst, hexprs], hrest⟩

/-! Keys and arguments. -/

theorem dotKey?_eq_some {key : Expr} {word : String} (hkey : dotKey? key = some word) :
    key = string word ∧ isIdentifier word = true := by
  cases key with
  | string value =>
      rw [dotKey?] at hkey
      split at hkey
      · cases hkey
        exact ⟨rfl, by assumption⟩
      · cases hkey
  | _ => cases hkey

namespace Suffix

theorem text_eq_cons (suffix : Suffix) :
    ∃ mark after, suffix.text = mark :: after ∧ mark ∈ ['.', '[', '('] := by
  cases suffix with
  | key inner =>
      rw [text]
      split
      · exact ⟨_, _, rfl, by decide⟩
      · exact ⟨_, _, rfl, by decide⟩
  | arguments values => exact ⟨_, _, rfl, by decide⟩

theorem ne_text_append {rest : List Char} (hrest : Stopped rest) (suffix : Suffix)
    (after : List Char) : rest ≠ suffix.text ++ after := by
  obtain ⟨mark, tail, htext, hmark⟩ := suffix.text_eq_cons
  rintro rfl
  rw [htext] at hrest
  have hstop : mark ∈ [' ', ')', ']', ','] := hrest mark rfl
  have hdisjoint : ['.', '[', '('].all (· ∉ [' ', ')', ']', ',']) = true := by decide
  exact of_decide_eq_true (List.all_eq_true.mp hdisjoint mark hmark) hstop

theorem delimited_flatMap_text (suffixes : List Suffix) {rest : List Char}
    (hrest : Delimited rest) : Delimited (suffixes.flatMap text ++ rest) := by
  cases suffixes with
  | nil => exact hrest
  | cons suffix suffixes =>
      obtain ⟨mark, tail, htext, hmark⟩ := suffix.text_eq_cons
      have hmarks : ['.', '[', '('].all (!isNameChar ·) = true := by decide
      have hname : isNameChar mark = false := by
        simpa using List.all_eq_true.mp hmarks mark hmark
      rw [List.flatMap_cons, htext]
      exact delimited_cons hname _

theorem key_append_inj {inner inner' : Expr} {rest rest' : List Char} (hread : inner.Readable)
    (hplain' : inner'.isPlain = true) (hrest : Delimited rest) (hrest' : Delimited rest')
    (heq : (key inner).text ++ rest = (key inner').text ++ rest') :
    inner.bare = inner'.bare ∧ rest = rest' := by
  rw [text, text] at heq
  cases hdot : dotKey? inner with
  | some word =>
      cases hdot' : dotKey? inner' with
      | some word' =>
          obtain ⟨rfl, hword⟩ := dotKey?_eq_some hdot
          obtain ⟨rfl, hword'⟩ := dotKey?_eq_some hdot'
          rw [hdot, hdot'] at heq
          obtain ⟨hwords, hafter⟩ :=
            word_append_inj (all_isNameChar_of_isIdentifier hword)
              (all_isNameChar_of_isIdentifier hword') hrest hrest' (List.cons.inj heq).2
          exact ⟨by rw [String.toList_injective hwords], hafter⟩
      | none =>
          rw [hdot, hdot'] at heq
          exact absurd (List.cons.inj heq).1 (by decide)
  | none =>
      cases hdot' : dotKey? inner' with
      | some word' =>
          rw [hdot, hdot'] at heq
          exact absurd (List.cons.inj heq).1 (by decide)
      | none =>
          simp only [hdot, hdot', List.cons_append, List.append_assoc, List.nil_append,
            List.cons.injEq, true_and] at heq
          obtain ⟨hbare, hclose⟩ := hread hplain' (closing_cons (by decide) rest)
            (closing_cons (by decide) rest') heq
          exact ⟨hbare, (List.cons.inj hclose).2⟩

theorem key_append_ne_arguments (inner : Expr) (values : List Expr) (rest rest' : List Char) :
    (key inner).text ++ rest ≠ (arguments values).text ++ rest' := by
  rw [text, text]
  split <;> simp

theorem append_inj {suffix suffix' : Suffix} {rest rest' : List Char} (hplain : suffix.IsPlain)
    (hread : ∀ part ∈ suffix.parts, part.Readable) (hplain' : suffix'.IsPlain)
    (hrest : Delimited rest) (hrest' : Delimited rest')
    (heq : suffix.text ++ rest = suffix'.text ++ rest') :
    suffix.bare = suffix'.bare ∧ rest = rest' := by
  cases suffix with
  | key inner =>
      cases suffix' with
      | key inner' =>
          obtain ⟨hbare, hafter⟩ :=
            key_append_inj (hread inner List.mem_cons_self) (hplain' inner' List.mem_cons_self)
              hrest hrest' heq
          exact ⟨congrArg key hbare, hafter⟩
      | arguments values' => exact absurd heq (key_append_ne_arguments inner values' rest rest')
  | arguments values =>
      cases suffix' with
      | key inner' => exact absurd heq.symm (key_append_ne_arguments inner' values rest' rest)
      | arguments values' =>
          simp only [text, List.cons_append, List.append_assoc, List.nil_append, List.cons.injEq,
            true_and] at heq
          obtain ⟨hbare, hafter⟩ := renderList_append_inj hplain hread hplain' heq
          exact ⟨congrArg arguments hbare, hafter⟩

theorem flatMap_append_inj {suffixes suffixes' : List Suffix} {rest rest' : List Char}
    (hplain : ∀ suffix ∈ suffixes, suffix.IsPlain)
    (hread : ∀ suffix ∈ suffixes, ∀ part ∈ suffix.parts, part.Readable)
    (hplain' : ∀ suffix ∈ suffixes', suffix.IsPlain) (hrest : Stopped rest)
    (hrest' : Stopped rest')
    (heq : suffixes.flatMap text ++ rest = suffixes'.flatMap text ++ rest') :
    suffixes.map bare = suffixes'.map bare ∧ rest = rest' := by
  induction suffixes generalizing suffixes' with
  | nil =>
      cases suffixes' with
      | nil => exact ⟨rfl, heq⟩
      | cons suffix' suffixes' =>
          rw [List.flatMap_cons, List.append_assoc] at heq
          exact absurd heq (ne_text_append hrest suffix' _)
  | cons suffix suffixes ih =>
      cases suffixes' with
      | nil =>
          rw [List.flatMap_cons, List.append_assoc] at heq
          exact absurd heq.symm (ne_text_append hrest' suffix _)
      | cons suffix' suffixes' =>
          rw [List.flatMap_cons, List.append_assoc, List.flatMap_cons, List.append_assoc] at heq
          rw [List.forall_mem_cons] at hplain hread hplain'
          obtain ⟨hsuffix, hafter⟩ := append_inj hplain.1 hread.1 hplain'.1
            (delimited_flatMap_text suffixes hrest.delimited)
            (delimited_flatMap_text suffixes' hrest'.delimited) heq
          obtain ⟨hsuffixes, hends⟩ := ih hplain.2 hread.2 hplain'.2 hafter
          exact ⟨by rw [List.map_cons, List.map_cons, hsuffix, hsuffixes], hends⟩

end Suffix

/-! Operands. -/

def parts (expr : Expr) : List Expr := expr.spine.1.parts ++ expr.spine.2.flatMap Suffix.parts

theorem operand_append_inj {expr expr' : Expr} {rest rest' : List Char}
    (hplain : expr.isPlain = true) (hread : ∀ part ∈ expr.parts, part.Readable)
    (hplain' : expr'.isPlain = true) (hrest : Stopped rest) (hrest' : Stopped rest')
    (heq : expr.operand ++ rest = expr'.operand ++ rest') :
    expr.bare = expr'.bare ∧ rest = rest' := by
  rw [operand_eq_spine expr hplain, operand_eq_spine expr' hplain', List.append_assoc,
    List.append_assoc] at heq
  rw [parts, List.forall_mem_append] at hread
  obtain ⟨hopening, hafter⟩ :=
    Opening.append_inj (isPlain_opening expr hplain) (isPlain_opening expr' hplain') hread.1
      (Suffix.delimited_flatMap_text _ hrest.delimited)
      (Suffix.delimited_flatMap_text _ hrest'.delimited) heq
  obtain ⟨hsuffixes, hends⟩ :=
    Suffix.flatMap_append_inj (fun _ => isPlain_of_mem_spine expr hplain)
      (fun suffix hsuffix part hpart =>
        hread.2 part (List.mem_flatMap.mpr ⟨suffix, hsuffix, hpart⟩))
      (fun _ => isPlain_of_mem_spine expr' hplain') hrest hrest' hafter
  refine ⟨?_, hends⟩
  rw [bare_eq_spine expr hplain, bare_eq_spine expr' hplain', hopening, hsuffixes]

end Expr

end LuaLowering.Lua
