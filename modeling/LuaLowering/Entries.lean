namespace LuaLowering

universe u v

/-! Finite maps that remember the order in which their keys first arrived. -/

abbrev Entries (κ : Type u) (α : Type v) := List (κ × α)

namespace Entries

variable {κ : Type u} {α : Type v} [DecidableEq κ]

def keys (entries : Entries κ α) : List κ := entries.map Prod.fst

def find? : Entries κ α → κ → Option α
  | [], _ => none
  | (key, value) :: rest, wanted => if key = wanted then some value else find? rest wanted

/-- A known key keeps its place and takes the new value; a new key goes to the end. -/
def insert : Entries κ α → κ → α → Entries κ α
  | [], key, value => [(key, value)]
  | (known, old) :: rest, key, value =>
      if known = key then (known, value) :: rest else (known, old) :: insert rest key value

def ofList (pairs : List (κ × α)) : Entries κ α :=
  pairs.foldl (fun entries pair => insert entries pair.1 pair.2) []

@[simp] theorem find?_nil (key : κ) : find? ([] : Entries κ α) key = none := rfl

@[simp] theorem find?_insert_self (entries : Entries κ α) (key : κ) (value : α) :
    find? (insert entries key value) key = some value := by
  induction entries with
  | nil => simp [insert, find?]
  | cons entry rest ih =>
      obtain ⟨known, old⟩ := entry
      by_cases heq : known = key <;> simp [insert, find?, heq, ih]

theorem find?_insert_of_ne (entries : Entries κ α) {key other : κ} (value : α)
    (hne : other ≠ key) : find? (insert entries key value) other = find? entries other := by
  induction entries with
  | nil => simp [insert, find?, Ne.symm hne]
  | cons entry rest ih =>
      obtain ⟨known, old⟩ := entry
      by_cases heq : known = key
      · subst heq
        simp [insert, find?, Ne.symm hne]
      · simp [insert, find?, heq, ih]

/-- Inserting changes the answer for one key only. -/
theorem find?_insert (entries : Entries κ α) (key other : κ) (value : α) :
    find? (insert entries key value) other =
      if other = key then some value else find? entries other := by
  by_cases heq : other = key
  · subst heq
    simp
  · simp [heq, find?_insert_of_ne entries value heq]

theorem keys_insert (entries : Entries κ α) (key : κ) (value : α) :
    keys (insert entries key value) =
      if key ∈ keys entries then keys entries else keys entries ++ [key] := by
  induction entries with
  | nil => simp [insert, keys]
  | cons entry rest ih =>
      obtain ⟨known, old⟩ := entry
      by_cases heq : known = key
      · simp [insert, keys, heq]
      · by_cases hmem : key ∈ keys rest
        · simp_all [insert, keys]
        · simp_all [insert, keys, Ne.symm heq]

theorem find?_foldl_insert {pairs : List (κ × α)} {entries : Entries κ α} {key : κ} {value : α}
    (hfound : find? (pairs.foldl (fun entries pair => insert entries pair.1 pair.2) entries) key =
      some value) : (key, value) ∈ pairs ∨ find? entries key = some value := by
  induction pairs generalizing entries with
  | nil => exact Or.inr hfound
  | cons pair pairs ih =>
      rcases ih hfound with hmem | hinsert
      · exact Or.inl (List.mem_cons_of_mem pair hmem)
      · rw [find?_insert] at hinsert
        by_cases heq : key = pair.1
        · rw [if_pos heq] at hinsert
          rw [heq, ← Option.some.inj hinsert]
          exact Or.inl List.mem_cons_self
        · rw [if_neg heq] at hinsert
          exact Or.inr hinsert

theorem mem_of_find?_ofList {pairs : List (κ × α)} {key : κ} {value : α}
    (hfound : find? (ofList pairs) key = some value) : (key, value) ∈ pairs := by
  rcases find?_foldl_insert hfound with hmem | hnone
  · exact hmem
  · contradiction

end Entries

end LuaLowering
