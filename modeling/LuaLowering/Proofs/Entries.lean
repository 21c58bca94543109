import LuaLowering.Entries
import Mathlib.Data.List.Nodup

namespace LuaLowering.Entries

/-! Tables over different keys.  They hold all that is put into them, and it does not matter for an
answer in which order that was done. -/

variable {κ α : Type} [DecidableEq κ]

theorem insert_of_not_mem_keys {entries : Entries κ α} {key : κ} (hkey : key ∉ keys entries)
    (value : α) : insert entries key value = entries ++ [(key, value)] := by
  induction entries with
  | nil => rfl
  | cons entry entries ih =>
      obtain ⟨known, old⟩ := entry
      have hne : known ≠ key := by
        rintro rfl
        exact hkey List.mem_cons_self
      have hrest : key ∉ keys entries := fun hmem => hkey (List.mem_cons_of_mem known hmem)
      rw [insert, if_neg hne, ih hrest, List.cons_append]

/-- Pairs over different keys are put in one behind the other. -/
theorem foldl_insert_of_nodup {entries : Entries κ α} {pairs : List (κ × α)}
    (hnodup : (keys (entries ++ pairs)).Nodup) :
    pairs.foldl (fun entries pair => insert entries pair.1 pair.2) entries = entries ++ pairs := by
  induction pairs generalizing entries with
  | nil => exact (List.append_nil entries).symm
  | cons pair pairs ih =>
      rw [List.append_cons] at hnodup
      have hfront : (keys (entries ++ [pair])).Nodup := by
        rw [keys, List.map_append] at hnodup
        exact hnodup.of_append_left
      have hkey : pair.1 ∉ keys entries := by
        rw [keys, List.map_append, List.map_singleton, ← List.concat_eq_append,
          List.nodup_concat] at hfront
        exact hfront.1
      rw [List.foldl_cons, insert_of_not_mem_keys hkey, ih hnodup, List.append_assoc]
      rfl

theorem find?_foldl_insert_of_not_mem {pairs : List (κ × α)} {key : κ}
    (hkey : key ∉ pairs.map Prod.fst) (entries : Entries κ α) :
    find? (pairs.foldl (fun entries pair => insert entries pair.1 pair.2) entries) key =
      find? entries key := by
  induction pairs generalizing entries with
  | nil => rfl
  | cons pair pairs ih =>
      rw [List.map_cons, List.mem_cons, not_or] at hkey
      rw [List.foldl_cons, ih hkey.2, find?_insert_of_ne entries pair.2 hkey.1]

theorem find?_foldl_insert_of_mem {pairs : List (κ × α)} {key : κ} {value : α}
    (hnodup : (pairs.map Prod.fst).Nodup) (hmem : (key, value) ∈ pairs)
    (entries : Entries κ α) :
    find? (pairs.foldl (fun entries pair => insert entries pair.1 pair.2) entries) key =
      some value := by
  induction pairs generalizing entries with
  | nil => cases hmem
  | cons pair pairs ih =>
      rw [List.map_cons, List.nodup_cons] at hnodup
      rw [List.foldl_cons]
      cases hmem with
      | head => rw [find?_foldl_insert_of_not_mem hnodup.1, find?_insert_self]
      | tail _ hmem => exact ih hnodup.2 hmem _

omit [DecidableEq κ] in
theorem mem_keys_iff_exists {entries : Entries κ α} {key : κ} :
    key ∈ keys entries ↔ ∃ value, (key, value) ∈ entries := by
  rw [keys, List.mem_map]
  constructor
  · rintro ⟨⟨_, value⟩, hmem, rfl⟩
    exact ⟨value, hmem⟩
  · rintro ⟨value, hmem⟩
    exact ⟨(key, value), hmem, rfl⟩

theorem find?_eq_none_iff {entries : Entries κ α} {key : κ} :
    find? entries key = none ↔ key ∉ keys entries := by
  induction entries with
  | nil => simp [keys]
  | cons entry entries ih =>
      obtain ⟨known, value⟩ := entry
      by_cases heq : known = key
      · simp [find?, keys, heq]
      · rw [find?, if_neg heq, ih, keys, keys, List.map_cons, List.mem_cons, not_or]
        exact (and_iff_right (Ne.symm heq)).symm

theorem find?_eq_some_iff {entries : Entries κ α} (hnodup : (keys entries).Nodup) {key : κ}
    {value : α} : find? entries key = some value ↔ (key, value) ∈ entries := by
  induction entries with
  | nil => simp
  | cons entry entries ih =>
      obtain ⟨known, old⟩ := entry
      rw [keys, List.map_cons, List.nodup_cons] at hnodup
      by_cases heq : known = key
      · subst heq
        have hrest : (known, value) ∉ entries := fun hmem =>
          hnodup.1 (mem_keys_iff_exists.mpr ⟨value, hmem⟩)
        simp [find?, hrest, eq_comm]
      · rw [find?, if_neg heq, ih hnodup.2, List.mem_cons, Prod.mk.injEq]
        exact (or_iff_right fun hpair => heq hpair.1.symm).symm

theorem find?_of_perm {entries entries' : Entries κ α} (hnodup : (keys entries).Nodup)
    (hperm : entries.Perm entries') (key : κ) : find? entries key = find? entries' key := by
  have hnodup' : (keys entries').Nodup := (hperm.map Prod.fst).nodup_iff.mp hnodup
  cases hfind : find? entries' key with
  | none =>
      rw [find?_eq_none_iff] at hfind ⊢
      exact fun hmem => hfind ((hperm.map Prod.fst).mem_iff.mp hmem)
  | some value =>
      rw [find?_eq_some_iff hnodup'] at hfind
      rw [find?_eq_some_iff hnodup]
      exact hperm.mem_iff.mpr hfind

theorem find?_filter {entries : Entries κ α} {selected : κ × α → Bool} {key : κ}
    (hselected : ∀ value, selected (key, value) = true) :
    find? (entries.filter selected) key = find? entries key := by
  induction entries with
  | nil => rfl
  | cons entry entries ih =>
      obtain ⟨known, value⟩ := entry
      by_cases heq : known = key
      · subst heq
        rw [List.filter_cons_of_pos (hselected value), find?, find?, if_pos rfl, if_pos rfl]
      · rw [find?, if_neg heq, ← ih, List.filter_cons]
        split
        · rw [find?, if_neg heq]
        · rfl

/-! Tables put on top of others. -/

theorem find?_foldl_insert_eq {pairs : Entries κ α} (hnodup : (keys pairs).Nodup)
    (entries : Entries κ α) (key : κ) :
    find? (pairs.foldl (fun entries pair => insert entries pair.1 pair.2) entries) key =
      (find? pairs key).or (find? entries key) := by
  cases hfind : find? pairs key with
  | none =>
      rw [find?_eq_none_iff] at hfind
      rw [find?_foldl_insert_of_not_mem hfind, Option.none_or]
  | some value =>
      rw [find?_eq_some_iff hnodup] at hfind
      rw [find?_foldl_insert_of_mem hnodup hfind, Option.some_or]

/-- Known keys stay where they are, and new ones follow them. -/
theorem keys_foldl_insert {pairs : Entries κ α} (hnodup : (keys pairs).Nodup)
    (entries : Entries κ α) :
    keys (pairs.foldl (fun entries pair => insert entries pair.1 pair.2) entries) =
      keys entries ++ (keys pairs).filter (fun key => key ∉ keys entries) := by
  induction pairs generalizing entries with
  | nil => simp [keys]
  | cons pair pairs ih =>
      obtain ⟨key, value⟩ := pair
      obtain ⟨hkey, hrest⟩ := List.nodup_cons.mp hnodup
      rw [List.foldl_cons, ih hrest, keys_insert]
      have hkeys : keys ((key, value) :: pairs) = key :: keys pairs := rfl
      rw [hkeys, List.filter_cons]
      by_cases hmem : key ∈ keys entries
      · simp [hmem]
      · have hsame : (keys pairs).filter (fun other => other ∉ keys entries ++ [key]) =
            (keys pairs).filter (fun other => other ∉ keys entries) := by
          apply List.filter_congr
          intro other hother
          have hne : other ≠ key := by
            rintro rfl
            exact hkey hother
          simp [hne]
        rw [if_neg hmem, hsame, if_pos (decide_eq_true hmem), List.append_assoc,
          List.singleton_append]

end LuaLowering.Entries
