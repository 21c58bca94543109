import LuaLowering.Identity

namespace LuaLowering

/-! Identities are numbers from one upwards. -/

namespace Identity

def number (identity : Identity) : Nat := identity.value.toNat

theorem number_injective {first second : Identity} (hnumber : first.number = second.number) :
    first = second := by
  cases first
  cases second
  exact congrArg Identity.mk (UInt32.toNat_inj.mp hnumber)

theorem number_eq_zero_iff (identity : Identity) :
    identity.number = 0 ↔ identity = .temporary := by
  constructor
  · intro hnumber
    exact number_injective hnumber
  · rintro rfl
    rfl

end Identity

namespace IdentityTable

variable {table later : IdentityTable} {symbol : Symbol} {identity : Identity}

theorem info?_eq_some_iff {info : IdentityInfo} :
    table.info? identity = some info ↔
      ∃ position, identity.number = position + 1 ∧ table.infos[position]? = some info := by
  have hzero := identity.number_eq_zero_iff
  rw [info?, Identity.isTemporary]
  by_cases htemporary : identity = .temporary
  · rw [hzero.mpr htemporary]
    simp [htemporary]
  · have hpositive : identity.number ≠ 0 := fun hnumber => htemporary (hzero.mp hnumber)
    simp only [htemporary, decide_false, Bool.false_eq_true, if_false]
    constructor
    · intro hinfo
      exact ⟨identity.number - 1, by omega, hinfo⟩
    · rintro ⟨position, hnumber, hinfo⟩
      rw [← hinfo, ← Identity.number, hnumber, Nat.add_sub_cancel]

theorem isSome_info?_iff :
    (table.info? identity).isSome ↔ 1 ≤ identity.number ∧ identity.number ≤ table.size := by
  rw [Option.isSome_iff_exists]
  constructor
  · rintro ⟨info, hinfo⟩
    obtain ⟨position, hnumber, hposition⟩ := info?_eq_some_iff.mp hinfo
    obtain ⟨hlt, _⟩ := List.getElem?_eq_some_iff.mp hposition
    rw [size]
    omega
  · rintro ⟨hpositive, hsize⟩
    have hlt : identity.number - 1 < table.infos.length := by
      rw [size] at hsize
      omega
    exact ⟨_, info?_eq_some_iff.mpr ⟨_, by omega, List.getElem?_eq_getElem hlt⟩⟩

/-- The symbols in the order of their identities. -/
def symbols (table : IdentityTable) : List Symbol := table.infos.map IdentityInfo.symbol

theorem length_symbols (table : IdentityTable) : table.symbols.length = table.size :=
  List.length_map _

/-! A table keeps two ways: from symbols to identities, and back.  They stay inverse to each other,
and as long as there are no more identities than the limit allows, numbers do not wrap. -/

structure WellFormed (table : IdentityTable) : Prop where
  size_le : table.size ≤ table.limit.toNat
  lookup?_iff : ∀ symbol identity,
    table.lookup? symbol = some identity ↔
      (table.info? identity).map IdentityInfo.symbol = some symbol

theorem wellFormed_withLimit (limit : UInt32) : (withLimit limit).WellFormed where
  size_le := Nat.zero_le _
  lookup?_iff := by
    intro symbol identity
    simp [withLimit, lookup?, info?]

namespace WellFormed

theorem size_lt (hwell : table.WellFormed) : table.size < UInt32.size :=
  Nat.lt_of_le_of_lt hwell.size_le table.limit.toNat_lt

theorem number_allocated (hwell : table.WellFormed) : table.allocated.toNat = table.size :=
  UInt32.toNat_ofNat_of_lt' hwell.size_lt

theorem limit_le_allocated_iff (hwell : table.WellFormed) :
    table.limit ≤ table.allocated ↔ table.size = table.limit.toNat := by
  have hsize := hwell.size_le
  rw [UInt32.le_iff_toNat_le, hwell.number_allocated]
  omega

theorem allocated_eq_limit (hwell : table.WellFormed) (hfull : table.limit ≤ table.allocated) :
    table.allocated = table.limit :=
  UInt32.toNat_inj.mp (hwell.number_allocated.trans (hwell.limit_le_allocated_iff.mp hfull))

theorem size_lt_limit (hwell : table.WellFormed) (hroom : ¬ table.limit ≤ table.allocated) :
    table.size < table.limit.toNat := by
  rw [hwell.limit_le_allocated_iff] at hroom
  exact Nat.lt_of_le_of_ne hwell.size_le hroom

theorem number_next (hwell : table.WellFormed) (hroom : table.size < table.limit.toNat) :
    table.next.number = table.size + 1 := by
  have hlimit := table.limit.toNat_lt
  have hone : (1 : UInt32).toNat = 1 := rfl
  rw [Identity.number, next, UInt32.toNat_add, hwell.number_allocated, hone]
  omega

theorem ne_temporary_of_lookup? (hwell : table.WellFormed)
    (hlookup : table.lookup? symbol = some identity) : identity ≠ .temporary := by
  rintro rfl
  have hinfo := (hwell.lookup?_iff symbol _).mp hlookup
  contradiction

theorem eq_of_lookup? (hwell : table.WellFormed) {other : Symbol}
    (hlookup : table.lookup? symbol = some identity)
    (hother : table.lookup? other = some identity) : symbol = other := by
  have hinfo := (hwell.lookup?_iff symbol identity).mp hlookup
  rw [(hwell.lookup?_iff other identity).mp hother] at hinfo
  exact (Option.some.inj hinfo).symm

theorem mem_infos_iff (hwell : table.WellFormed) {info : IdentityInfo} :
    info ∈ table.infos ↔ ∃ identity, table.info? identity = some info := by
  constructor
  · intro hmem
    obtain ⟨position, hposition⟩ := List.mem_iff_getElem?.mp hmem
    obtain ⟨hlt, _⟩ := List.getElem?_eq_some_iff.mp hposition
    have hsize := hwell.size_le
    have hlimit := table.limit.toNat_lt
    have hnumber : (UInt32.ofNat (position + 1)).toNat = position + 1 := by
      apply UInt32.toNat_ofNat_of_lt'
      rw [size] at hsize
      exact Nat.lt_of_le_of_lt (Nat.le_trans hlt hsize) hlimit
    exact ⟨⟨UInt32.ofNat (position + 1)⟩, info?_eq_some_iff.mpr ⟨position, hnumber, hposition⟩⟩
  · rintro ⟨identity, hinfo⟩
    obtain ⟨position, _, hposition⟩ := info?_eq_some_iff.mp hinfo
    exact List.mem_of_getElem? hposition

theorem mem_symbols_iff (hwell : table.WellFormed) :
    symbol ∈ table.symbols ↔ ∃ identity, table.lookup? symbol = some identity := by
  simp only [symbols, List.mem_map, hwell.mem_infos_iff, hwell.lookup?_iff, Option.map_eq_some_iff]
  constructor
  · rintro ⟨info, ⟨identity, hinfo⟩, hsymbol⟩
    exact ⟨identity, info, hinfo, hsymbol⟩
  · rintro ⟨identity, info, hinfo, hsymbol⟩
    exact ⟨info, ⟨identity, hinfo⟩, hsymbol⟩

end WellFormed

/-! A new symbol takes the next identity, and nothing else changes. -/

section Add

variable (table symbol) (firstSeen : Option Span)

theorem lookup?_add (other : Symbol) :
    (table.add symbol firstSeen).lookup? other =
      if other = symbol then some table.next else table.lookup? other :=
  Entries.find?_insert table.identities symbol other table.next

theorem size_add : (table.add symbol firstSeen).size = table.size + 1 :=
  List.length_append

end Add

theorem info?_next (hnext : table.next.number = table.size + 1) :
    table.info? table.next = none := by
  rw [← Option.not_isSome_iff_eq_none, isSome_info?_iff]
  omega

theorem info?_add (hnext : table.next.number = table.size + 1) (symbol : Symbol)
    (firstSeen : Option Span) (identity : Identity) :
    (table.add symbol firstSeen).info? identity =
      if identity = table.next then some ⟨symbol, firstSeen⟩ else table.info? identity := by
  by_cases hidentity : identity = table.next
  · rw [if_pos hidentity, hidentity]
    exact info?_eq_some_iff.mpr ⟨table.size, hnext, List.getElem?_concat_length⟩
  · have hslot : ∀ position, identity.number = position + 1 →
        (table.add symbol firstSeen).infos[position]? = table.infos[position]? := by
      intro position hnumber
      have hposition : position ≠ table.infos.length := by
        rintro rfl
        exact hidentity (Identity.number_injective (hnumber.trans hnext.symm))
      rw [add, List.getElem?_append]
      split
      · rfl
      · rw [List.getElem?_eq_none (by simp; omega), List.getElem?_eq_none (by omega)]
    rw [if_neg hidentity]
    apply Option.ext
    intro info
    rw [info?_eq_some_iff, info?_eq_some_iff]
    constructor
    · rintro ⟨position, hnumber, hinfo⟩
      exact ⟨position, hnumber, hslot position hnumber ▸ hinfo⟩
    · rintro ⟨position, hnumber, hinfo⟩
      exact ⟨position, hnumber, (hslot position hnumber).trans hinfo⟩

theorem WellFormed.add (hwell : table.WellFormed) (hnew : table.lookup? symbol = none)
    (hroom : table.size < table.limit.toNat) (firstSeen : Option Span) :
    (table.add symbol firstSeen).WellFormed where
  size_le := by
    rw [size_add]
    exact hroom
  lookup?_iff := by
    intro other identity
    have hnext := hwell.number_next hroom
    rw [lookup?_add, info?_add hnext]
    by_cases hsymbol : other = symbol <;> by_cases hidentity : identity = table.next
    · simp [hsymbol, hidentity]
    · subst hsymbol
      rw [if_pos rfl, if_neg hidentity, ← hwell.lookup?_iff, hnew]
      simp [Ne.symm hidentity]
    · subst hidentity
      rw [if_neg hsymbol, if_pos rfl, hwell.lookup?_iff, info?_next hnext]
      simp [Ne.symm hsymbol]
    · rw [if_neg hsymbol, if_neg hidentity, hwell.lookup?_iff]

/-! One use of a symbol. -/

/-- What can happen when a symbol is used. -/
inductive Identifies (table : IdentityTable) (symbol : Symbol) (firstSeen : Option Span) :
    Except LoweringError Identity × IdentityTable → Prop
  | known {identity : Identity} (hknown : table.lookup? symbol = some identity) :
      Identifies table symbol firstSeen (.ok identity, table)
  | refused (hnew : table.lookup? symbol = none) (hfull : table.limit ≤ table.allocated) :
      Identifies table symbol firstSeen (.error (.identitiesExhausted table.allocated), table)
  | fresh (hnew : table.lookup? symbol = none) (hroom : ¬ table.limit ≤ table.allocated) :
      Identifies table symbol firstSeen (.ok table.next, table.add symbol firstSeen)

theorem identifies (table : IdentityTable) (symbol : Symbol) (firstSeen : Option Span) :
    Identifies table symbol firstSeen (table.identify symbol firstSeen) := by
  unfold identify
  cases hlookup : table.lookup? symbol with
  | some identity => exact .known hlookup
  | none =>
      simp only
      split
      case isTrue hfull => exact .refused hlookup hfull
      case isFalse hroom => exact .fresh hlookup hroom

namespace Identifies

variable {firstSeen : Option Span} {answer : Except LoweringError Identity} {next : IdentityTable}

theorem lookup?_eq (hstep : Identifies table symbol firstSeen (.ok identity, next)) :
    next.lookup? symbol = some identity := by
  cases hstep with
  | known hknown => exact hknown
  | fresh => rw [lookup?_add, if_pos rfl]

theorem wellFormed (hstep : Identifies table symbol firstSeen (answer, next))
    (hwell : table.WellFormed) : next.WellFormed := by
  cases hstep with
  | known => exact hwell
  | refused => exact hwell
  | fresh hnew hroom => exact hwell.add hnew (hwell.size_lt_limit hroom) firstSeen

/-- A full table changes no more. -/
theorem eq_of_full (hstep : Identifies table symbol firstSeen (answer, next))
    (hfull : table.limit ≤ table.allocated) : next = table := by
  cases hstep with
  | known => rfl
  | refused => rfl
  | fresh _ hroom => contradiction

theorem error_iff (hstep : Identifies table symbol firstSeen (answer, next))
    (hwell : table.WellFormed) (error : LoweringError) (later : IdentityTable) :
    (answer, next) = (.error error, later) ↔
      (table.lookup? symbol = none ∧ table.size = table.limit.toNat) ∧
        error = .identitiesExhausted table.limit ∧ later = table := by
  rw [← hwell.limit_le_allocated_iff]
  cases hstep with
  | known hknown => simp [hknown]
  | refused hnew hfull => simp [hnew, hwell.allocated_eq_limit hfull, eq_comm]
  | fresh hnew hroom => simp [hroom]

end Identifies

/-! Tables only grow. -/

structure Extends (table later : IdentityTable) : Prop where
  limit_eq : later.limit = table.limit
  lookup?_eq : ∀ {symbol identity},
    table.lookup? symbol = some identity → later.lookup? symbol = some identity
  info?_eq : ∀ {identity info},
    table.info? identity = some info → later.info? identity = some info

namespace Extends

theorem refl (table : IdentityTable) : table.Extends table := ⟨rfl, id, id⟩

theorem trans {first second third : IdentityTable} (hfirst : first.Extends second)
    (hsecond : second.Extends third) : first.Extends third where
  limit_eq := hsecond.limit_eq.trans hfirst.limit_eq
  lookup?_eq := fun hlookup => hsecond.lookup?_eq (hfirst.lookup?_eq hlookup)
  info?_eq := fun hinfo => hsecond.info?_eq (hfirst.info?_eq hinfo)

theorem add (hnew : table.lookup? symbol = none) (firstSeen : Option Span) :
    table.Extends (table.add symbol firstSeen) where
  limit_eq := rfl
  lookup?_eq := by
    intro other identity hlookup
    have hne : other ≠ symbol := by
      rintro rfl
      rw [hnew] at hlookup
      contradiction
    rw [lookup?_add, if_neg hne, hlookup]
  info?_eq := by
    intro identity info hinfo
    obtain ⟨position, hnumber, hposition⟩ := info?_eq_some_iff.mp hinfo
    obtain ⟨hlt, _⟩ := List.getElem?_eq_some_iff.mp hposition
    have hkept : (table.add symbol firstSeen).infos[position]? = some info := by
      rw [IdentityTable.add, List.getElem?_append_left hlt, hposition]
    exact info?_eq_some_iff.mpr ⟨position, hnumber, hkept⟩

theorem of_identifies {firstSeen : Option Span} {answer : Except LoweringError Identity}
    {next : IdentityTable} (hstep : Identifies table symbol firstSeen (answer, next)) :
    table.Extends next := by
  cases hstep with
  | known => exact refl table
  | refused => exact refl table
  | fresh hnew => exact add hnew firstSeen

end Extends

end IdentityTable

end LuaLowering
