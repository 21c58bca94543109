import Mathlib.Data.List.Nodup
import Mathlib.Logic.Relator

namespace LuaLowering

/-! Chains along a relation, for chains that end.  Where every item leads to one other at most, a
chain comes to no item twice, so it is no longer than there are items to come to. -/

/-- The items that are passed on the way from the first one to the last one, which leads nowhere. -/
inductive Chain {α : Type} (Leads : α → α → Prop) : α → List α → α → Prop
  | stop {last : α} (hstop : ∀ next, ¬ Leads last next) : Chain Leads last [] last
  | step {first next last : α} {passed : List α} (hleads : Leads first next)
      (hchain : Chain Leads next passed last) : Chain Leads first (first :: passed) last

namespace Chain

variable {α : Type} {Leads : α → α → Prop} {first last last' item : α} {passed passed' : List α}

theorem stops (hchain : Chain Leads first passed last) (next : α) : ¬ Leads last next := by
  induction hchain with
  | stop hstop => exact hstop next
  | step _ _ ih => exact ih

theorem leads_of_mem (hchain : Chain Leads first passed last) (hmem : item ∈ passed) :
    ∃ next, Leads item next := by
  induction hchain with
  | stop hstop => cases hmem
  | step hleads _ ih =>
      rcases List.mem_cons.mp hmem with rfl | hmem
      · exact ⟨_, hleads⟩
      · exact ih hmem

theorem exists_of_mem (hchain : Chain Leads first passed last) (hmem : item ∈ passed) :
    ∃ rest, Chain Leads item rest last ∧ rest.length ≤ passed.length := by
  induction hchain with
  | stop hstop => cases hmem
  | step hleads hchain ih =>
      rcases List.mem_cons.mp hmem with rfl | hmem
      · exact ⟨_, .step hleads hchain, Nat.le_refl _⟩
      · obtain ⟨rest, hrest, hlength⟩ := ih hmem
        exact ⟨rest, hrest, Nat.le_succ_of_le hlength⟩

section Unique

variable (hunique : Relator.RightUnique Leads)
include hunique

theorem unique (hchain : Chain Leads first passed last)
    (hother : Chain Leads first passed' last') : passed = passed' ∧ last = last' := by
  induction hchain generalizing passed' with
  | stop hstop =>
      cases hother with
      | stop _ => exact ⟨rfl, rfl⟩
      | step hleads _ => exact absurd hleads (hstop _)
  | step hleads _ ih =>
      cases hother with
      | stop hstop => exact absurd hleads (hstop _)
      | step hleads' hchain' =>
          obtain rfl := hunique hleads hleads'
          obtain ⟨rfl, rfl⟩ := ih hchain'
          exact ⟨rfl, rfl⟩

theorem nodup (hchain : Chain Leads first passed last) : passed.Nodup := by
  induction hchain with
  | stop hstop => exact List.nodup_nil
  | step hleads hchain ih =>
      refine List.nodup_cons.mpr ⟨?_, ih⟩
      intro hmem
      -- The chain from an item that is passed again would be shorter than itself.
      obtain ⟨rest, hrest, hlength⟩ := hchain.exists_of_mem hmem
      obtain ⟨rfl, _⟩ := unique hunique hrest (.step hleads hchain)
      exact Nat.not_succ_le_self _ hlength

theorem length_le (hchain : Chain Leads first passed last) {index : α → Nat}
    (hindex : Function.Injective index) {size : Nat}
    (hsize : ∀ item next, Leads item next → index item < size) : passed.length ≤ size := by
  have hnodup : (passed.map index).Nodup := List.Nodup.map hindex (nodup hunique hchain)
  have hsubset : passed.map index ⊆ List.range size := by
    intro number hmem
    obtain ⟨item, hitem, rfl⟩ := List.mem_map.mp hmem
    obtain ⟨next, hleads⟩ := hchain.leads_of_mem hitem
    exact List.mem_range.mpr (hsize item next hleads)
  have hlength := hnodup.length_le_of_subset hsubset
  rwa [List.length_map, List.length_range] at hlength

end Unique

end Chain

end LuaLowering
