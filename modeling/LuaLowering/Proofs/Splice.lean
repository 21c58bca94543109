import LuaLowering.SparseArray
import Mathlib.Algebra.Group.Int.Defs
import Mathlib.Algebra.Group.Nat.Defs
import Mathlib.Data.List.Induction

namespace LuaLowering.SparseArray

variable {α : Type}

/-! Splicing never fails, and puts the items where the range was.  Taking the range leaves a run of
holes; the slots behind it move by jumping over holes, so that the run is as long as the items are
when they are filled in. -/

def holes (count : Nat) : List (Option α) := List.replicate count none

@[simp] theorem length_holes (count : Nat) : (holes count : List (Option α)).length = count :=
  List.length_replicate

theorem holes_add (first second : Nat) :
    (holes (first + second) : List (Option α)) = holes first ++ holes second :=
  (List.replicate_append_replicate).symm

theorem holes_append_none (count : Nat) (back : List (Option α)) :
    holes count ++ none :: back = none :: (holes count ++ back) := by
  rw [List.append_cons, holes, ← List.replicate_succ', List.replicate_succ, List.cons_append]

/-! Single slots.  A slot that moves jumps over the holes before or behind it. -/

section Slot

variable (front back : List (Option α)) (slot old : Option α)

theorem take?_toArray :
    take? (front ++ slot :: back).toArray front.length =
      some (slot, (front ++ none :: back).toArray) := by
  simp [take?]

theorem put?_toArray :
    put? (front ++ old :: back).toArray front.length slot =
      some (front ++ slot :: back).toArray := by
  simp [put?]

theorem move?_over_holes_down (gap : Nat) :
    move? (front ++ (holes gap ++ slot :: back)).toArray (front.length + gap) front.length =
      some (front ++ slot :: (holes gap ++ back)).toArray := by
  have htake := take?_toArray (front ++ holes gap) back slot
  rw [List.append_assoc, List.append_assoc, holes_append_none, List.length_append,
    length_holes] at htake
  rw [move?, htake]
  exact put?_toArray front _ slot none

theorem move?_over_holes_up (gap : Nat) :
    move? (front ++ slot :: (holes gap ++ back)).toArray front.length (front.length + gap) =
      some (front ++ (holes gap ++ slot :: back)).toArray := by
  have hput := put?_toArray (front ++ holes gap) back slot none
  rw [List.append_assoc, List.append_assoc, holes_append_none, List.length_append,
    length_holes] at hput
  rw [move?, take?_toArray]
  exact hput

end Slot

/-! Loops over slots. -/

theorem takeRange?_toArray (front range back : List (Option α)) :
    takeRange? (front ++ (range ++ back)).toArray front.length range.length =
      some (range, (front ++ (holes range.length ++ back)).toArray) := by
  induction range generalizing front with
  | nil => simp [takeRange?, holes]
  | cons slot range ih =>
      have hrest : takeRange? (front ++ none :: (range ++ back)).toArray (front.length + 1)
          range.length = some (range, (front ++ none :: (holes range.length ++ back)).toArray) := by
        have hnext := ih (front ++ [none])
        simpa using hnext
      simp only [List.length_cons, takeRange?, List.cons_append, take?_toArray, hrest,
        Option.bind_eq_bind, Option.bind_some, Option.pure_def]
      rfl

theorem moveDown?_toArray (front behind : List (Option α)) (gap : Nat) :
    moveDown? (front ++ (holes gap ++ behind)).toArray (front.length + gap) front.length
        behind.length =
      some (front ++ (behind ++ holes gap)).toArray := by
  -- A slot that has moved belongs to the front, and the holes stand right behind it again.
  induction behind generalizing front with
  | nil => simp [moveDown?]
  | cons slot behind ih =>
      have hrest : moveDown? (front ++ slot :: (holes gap ++ behind)).toArray
          (front.length + gap + 1) (front.length + 1) behind.length =
            some (front ++ slot :: (behind ++ holes gap)).toArray := by
        simpa [Nat.add_right_comm] using ih (front ++ [slot])
      simp only [List.length_cons, moveDown?, move?_over_holes_down, Option.bind_eq_bind,
        Option.bind_some, hrest, List.cons_append]

theorem moveUp?_toArray (front behind back : List (Option α)) (gap : Nat) :
    moveUp? (front ++ (behind ++ (holes gap ++ back))).toArray front.length (front.length + gap)
        behind.length =
      some (front ++ (holes gap ++ (behind ++ back))).toArray := by
  -- The last slot moves first, so the slots are taken from their end, and those that have moved
  -- belong to the back.
  induction behind using List.reverseRecOn generalizing back with
  | nil => simp [moveUp?]
  | append_singleton behind slot ih =>
      have hmove : move? (front ++ (behind ++ slot :: (holes gap ++ back))).toArray
          (front.length + behind.length) (front.length + gap + behind.length) =
            some (front ++ (behind ++ (holes gap ++ slot :: back))).toArray := by
        simpa [Nat.add_right_comm] using move?_over_holes_up (front ++ behind) back slot gap
      simp only [List.append_assoc, List.singleton_append, List.length_append,
        List.length_singleton, moveUp?, hmove, Option.bind_eq_bind, Option.bind_some, ih]

theorem fill?_toArray (front back : List (Option α)) (items : List α) :
    fill? (front ++ (holes items.length ++ back)).toArray front.length items =
      some (front ++ (items.map some ++ back)).toArray := by
  induction items generalizing front with
  | nil => simp [fill?, holes]
  | cons item items ih =>
      have hrest : fill? (front ++ some item :: (holes items.length ++ back)).toArray
          (front.length + 1) items =
            some (front ++ some item :: (items.map some ++ back)).toArray := by
        simpa using ih (front ++ [some item])
      simp only [List.length_cons, holes, List.replicate_succ, List.cons_append, fill?,
        put?_toArray, Option.bind_eq_bind, Option.bind_some, List.map_cons]
      exact hrest

/-- A run of holes is made as long as wanted, and nothing else changes. -/
theorem resizeGap?_toArray (front behind : List (Option α)) (deleted inserted : Nat) :
    resizeGap? (front ++ (holes deleted ++ behind)).toArray front.length deleted inserted =
      some (front ++ (holes inserted ++ behind)).toArray := by
  have hbehind : (front ++ (holes deleted ++ behind)).toArray.size - deleted - front.length =
      behind.length := by
    simp only [List.size_toArray, List.length_append, length_holes]
    omega
  rw [resizeGap?, hbehind]
  rcases Nat.lt_trichotomy inserted deleted with hshrink | rfl | hgrow
  · obtain ⟨gap, rfl⟩ := Nat.exists_eq_add_of_le (Nat.le_of_lt hshrink)
    have hmove := moveDown?_toArray (front ++ holes inserted) behind gap
    simp only [List.append_assoc, List.length_append, length_holes, Nat.add_assoc] at hmove
    have hlength : (front ++ (holes inserted ++ (behind ++ holes gap))).length -
        (inserted + gap) + inserted = (front ++ (holes inserted ++ behind)).length := by
      simp only [List.length_append, length_holes]
      omega
    have hkept : (front ++ (holes inserted ++ (behind ++ holes gap))).take
        (front ++ (holes inserted ++ behind)).length = front ++ (holes inserted ++ behind) := by
      simp only [← List.append_assoc, List.take_left]
    simp only [if_pos hshrink, holes_add, List.append_assoc, hmove, Option.bind_eq_bind,
      Option.bind_some, Option.pure_def, List.size_toArray, hlength, List.take_toArray, hkept]
  · simp
  · obtain ⟨gap, rfl⟩ := Nat.exists_eq_add_of_le (Nat.le_of_lt hgrow)
    have hmove := moveUp?_toArray (front ++ holes deleted) behind [] gap
    simp only [List.append_assoc, List.length_append, length_holes, Nat.add_assoc,
      List.append_nil] at hmove
    have hlonger : (front ++ (holes deleted ++ behind)).toArray ++
        Array.replicate (deleted + gap - deleted) none =
          (front ++ (holes deleted ++ (behind ++ holes gap))).toArray := by
      rw [Nat.add_sub_cancel_left, ← List.toArray_replicate, List.append_toArray,
        List.append_assoc, List.append_assoc]
      rfl
    rw [if_neg (Nat.lt_asymm hgrow), if_pos hgrow, hlonger, hmove, holes_add, List.append_assoc]

/-- Whatever the range holds, the items take its place. -/
theorem replace?_toArray (front range behind : List (Option α)) (items : List α) :
    replace? (front ++ (range ++ behind)).toArray front.length range.length items =
      some (range, (front ++ (items.map some ++ behind)).toArray) := by
  simp only [replace?, takeRange?_toArray, resizeGap?_toArray, fill?_toArray, Option.bind_eq_bind,
    Option.bind_some, Option.pure_def]

/-! The range in words is the range in integers. -/

/-- A negative start counts from the end, and what lies outside the array is cut off. -/
def rangeStart (size : Nat) (start : Int) : Nat :=
  (if start < 0 then max (size + start) 0 else min start size).toNat

def rangeLength (size first : Nat) : Option Int → Nat
  | none => size - first
  | some count => (max 0 (min count (size - first))).toNat

theorem rangeStart_le (size : Nat) (start : Int) : rangeStart size start ≤ size := by
  unfold rangeStart
  split <;> omega

theorem rangeStart_add_rangeLength_le {size first : Nat} (hfirst : first ≤ size)
    (count : Option Int) : first + rangeLength size first count ≤ size := by
  cases count with
  | none => simp only [rangeLength]; omega
  | some count => simp only [rangeLength]; omega

theorem word?_toInt {value : Int} (hlow : -2 ^ 63 ≤ value) (hhigh : value < 2 ^ 63) :
    ∃ word, word? value = some word ∧ word.toInt = value := by
  refine ⟨Int64.ofInt value, ?_, Int64.toInt_ofInt_of_le hlow hhigh⟩
  rw [word?, if_pos]
  rw [Int64.toInt_minValue, Int64.toInt_maxValue]
  omega

theorem slotNumber_of_nonneg {word : Int64} (hword : 0 ≤ word.toInt) :
    slotNumber word = word.toInt.toNat := by
  have hle : 0 ≤ word := Int64.le_iff_toInt_le.mpr hword
  rw [slotNumber, Int64.toNat_toUInt64_of_le hle, Int64.toNat_toInt]

theorem toInt_max (first second : Int64) :
    (max first second).toInt = max first.toInt second.toInt := by
  have hmax : max first second = if first ≤ second then second else first := rfl
  rw [hmax, Int.max_def, apply_ite Int64.toInt]
  simp only [Int64.le_iff_toInt_le]

theorem toInt_min (first second : Int64) :
    (min first second).toInt = min first.toInt second.toInt := by
  have hmin : min first second = if first ≤ second then first else second := rfl
  rw [hmin, Int.min_def, apply_ite Int64.toInt]
  simp only [Int64.le_iff_toInt_le]

theorem firstSlot?_eq {size : Nat} (hsize : size < 2 ^ 63) (start : Int64) :
    firstSlot? (Int64.ofNat size) start = some (rangeStart size start.toInt) := by
  have hlength := Int64.toInt_ofNat_of_lt hsize
  have hzero : (0 : Int64).toInt = 0 := rfl
  unfold firstSlot? rangeStart
  by_cases hstart : start < 0
  · have hneg : start.toInt < 0 := Int64.lt_iff_toInt_lt.mp hstart
    have hlow := start.le_toInt
    obtain ⟨word, hword, hvalue⟩ :=
      word?_toInt (show -2 ^ 63 ≤ (size : Int) + start.toInt by omega) (by omega)
    have hnumber : (max word 0).toInt = max (size + start.toInt) 0 := by
      rw [toInt_max, hvalue, hzero]
    rw [if_pos hstart, if_pos hneg, hlength, hword, ← hnumber]
    simp only [Option.bind_eq_bind, Option.bind_some, Option.pure_def]
    rw [slotNumber_of_nonneg (by omega)]
  · have hnonneg : ¬ start.toInt < 0 := fun hneg => hstart (Int64.lt_iff_toInt_lt.mpr hneg)
    have hnumber : (min start (Int64.ofNat size)).toInt = min start.toInt size := by
      rw [toInt_min, hlength]
    rw [if_neg hstart, if_neg hnonneg, ← hnumber]
    simp only [Option.pure_def]
    rw [slotNumber_of_nonneg (by omega)]

theorem deletedSlots?_eq {size first : Nat} (hsize : size < 2 ^ 63) (hfirst : first ≤ size)
    (count : Option Int64) :
    deletedSlots? (Int64.ofNat size) first count =
      some (rangeLength size first (count.map Int64.toInt)) := by
  have hlength := Int64.toInt_ofNat_of_lt hsize
  have hzero : (0 : Int64).toInt = 0 := rfl
  cases count with
  | none =>
      have hnumber : slotNumber (Int64.ofNat size) = size := by
        rw [slotNumber_of_nonneg (by omega), hlength, Int.toNat_natCast]
      simp only [deletedSlots?, hnumber, if_pos hfirst, rangeLength, Option.map_none]
  | some count =>
      have hstart := Int64.toInt_ofNat_of_lt (Nat.lt_of_le_of_lt hfirst hsize)
      obtain ⟨room, hroom, hvalue⟩ :=
        word?_toInt (show -2 ^ 63 ≤ (size : Int) - first by omega) (by omega)
      have hle : 0 ≤ room := Int64.le_iff_toInt_le.mpr (by omega)
      have hnumber : (max 0 (min count room)).toInt = max 0 (min count.toInt (size - first)) := by
        rw [toInt_max, toInt_min, hvalue, hzero]
      simp only [deletedSlots?, hlength, hstart, hroom, Option.bind_eq_bind, Option.bind_some,
        if_pos hle, Option.pure_def, rangeLength, Option.map_some, ← hnumber]
      rw [slotNumber_of_nonneg (by omega)]

/-! The whole splice. -/

theorem exists_range {slots : Array (Option α)} {first deleted : Nat}
    (hrange : first + deleted ≤ slots.size) :
    ∃ front range behind : List (Option α), slots = (front ++ (range ++ behind)).toArray ∧
      front.length = first ∧ range.length = deleted := by
  refine ⟨slots.toList.take first, (slots.toList.drop first).take deleted,
    (slots.toList.drop first).drop deleted, ?_, ?_, ?_⟩
  · rw [List.take_append_drop, List.take_append_drop]
  · rw [List.length_take, Array.length_toList]
    omega
  · rw [List.length_take, List.length_drop, Array.length_toList]
    omega

section Extract

variable (front range behind : List (Option α))

theorem extract_front :
    (front ++ (range ++ behind)).toArray.extract 0 front.length = front.toArray := by
  simp

theorem extract_range :
    (front ++ (range ++ behind)).toArray.extract front.length (front.length + range.length) =
      range.toArray := by
  simp

theorem extract_behind :
    (front ++ (range ++ behind)).toArray.extract (front.length + range.length)
      (front ++ (range ++ behind)).toArray.size = behind.toArray := by
  simp only [List.size_toArray, List.length_append, List.extract_toArray,
    List.extract_eq_take_drop, List.drop_length_add_append, List.drop_left', Array.mk.injEq]
  exact List.take_of_length_le (by omega)

end Extract

/-- Splicing an array whose length is a word never fails.  It gives out the slots of the range,
holes included, and puts the items in their place. -/
theorem splice?_eq_some (array : SparseArray α) (start : Int64) (count : Option Int64)
    (items : List α) (hsize : array.size < 2 ^ 63) :
    let first := rangeStart array.size start.toInt
    let deleted := rangeLength array.size first (count.map Int64.toInt)
    array.splice? start count items =
      some (⟨array.slots.extract first (first + deleted)⟩,
        ⟨array.slots.extract 0 first ++ (items.map some).toArray ++
          array.slots.extract (first + deleted) array.size⟩) := by
  intro first deleted
  have hle : first ≤ array.slots.size := rangeStart_le array.size start.toInt
  have hinside : first + deleted ≤ array.slots.size :=
    rangeStart_add_rangeLength_le hle (count.map Int64.toInt)
  have hfirst : firstSlot? (Int64.ofNat array.slots.size) start = some first :=
    firstSlot?_eq hsize start
  have hdeleted : deletedSlots? (Int64.ofNat array.slots.size) first count = some deleted :=
    deletedSlots?_eq hsize hle count
  clear_value first deleted
  obtain ⟨front, range, behind, hslots, rfl, rfl⟩ := exists_range hinside
  rw [hslots] at hfirst hdeleted
  simp only [splice?, size, hslots, hfirst, hdeleted, replace?_toArray, Option.bind_eq_bind,
    Option.bind_some, Option.pure_def]
  rw [extract_front, extract_range, extract_behind, List.append_toArray, List.append_toArray,
    List.append_assoc]

theorem splice?_eq_some_holes :
    (⟨#[some 1, none, some 3, none]⟩ : SparseArray Nat).splice? (-3) (some 2) [8, 9, 10] =
      some (⟨#[none, some 3]⟩, ⟨#[some 1, some 8, some 9, some 10, none]⟩) :=
  (splice?_eq_some _ (-3) (some 2) [8, 9, 10] (by decide)).trans (by decide)

end LuaLowering.SparseArray
