namespace LuaLowering

/-! Arrays with holes, spliced in place.  A hole is a slot that was never given a value, and is not
the same as a slot that holds an empty value. -/

structure SparseArray (α : Type) where
  slots : Array (Option α) := #[]
deriving DecidableEq, Repr

namespace SparseArray

variable {α : Type}

def ofList (values : List α) : SparseArray α := ⟨(values.map some).toArray⟩

def size (array : SparseArray α) : Nat := array.slots.size

def isEmpty (array : SparseArray α) : Bool := array.slots.isEmpty

def get? (array : SparseArray α) (index : Nat) : Option α := array.slots[index]?.join

/-- There are no holes beyond the end. -/
def isHole (array : SparseArray α) (index : Nat) : Bool :=
  match array.slots[index]? with
  | some none => true
  | _ => false

/-! The range that a splice replaces.  A negative start counts from the end; both numbers are cut
down to what the array has.  All of it is done in words, and none of it may overflow. -/

/-- The word with the given value, if a word can hold it. -/
def word? (value : Int) : Option Int64 :=
  if Int64.minValue.toInt ≤ value ∧ value ≤ Int64.maxValue.toInt then some (Int64.ofInt value)
  else none

/-- A word taken for the number of a slot. -/
def slotNumber (word : Int64) : Nat := word.toUInt64.toNat

def firstSlot? (length start : Int64) : Option Nat :=
  if start < 0 then do
    let fromEnd ← word? (length.toInt + start.toInt)
    return slotNumber (max fromEnd 0)
  else return slotNumber (min start length)

def deletedSlots? (length : Int64) (first : Nat) (count : Option Int64) : Option Nat :=
  match count with
  | none => if first ≤ slotNumber length then some (slotNumber length - first) else none
  | some count => do
      let room ← word? (length.toInt - (Int64.ofNat first).toInt)
      if 0 ≤ room then return slotNumber (max 0 (min count room)) else none

/-! Moving slots.  A slot that does not exist can neither be taken nor be put. -/

/-- Takes what is in a slot and leaves a hole. -/
def take? (slots : Array (Option α)) (index : Nat) : Option (Option α × Array (Option α)) :=
  if h : index < slots.size then some (slots[index], slots.set index none) else none

def put? (slots : Array (Option α)) (index : Nat) (slot : Option α) :
    Option (Array (Option α)) :=
  if h : index < slots.size then some (slots.set index slot) else none

def move? (slots : Array (Option α)) (source target : Nat) : Option (Array (Option α)) := do
  let (slot, slots) ← take? slots source
  put? slots target slot

/-- Takes `count` slots from `first` on.  They must lie inside the array even if there are none. -/
def takeRange? (slots : Array (Option α)) (first : Nat) :
    Nat → Option (List (Option α) × Array (Option α))
  | 0 => if first ≤ slots.size then some ([], slots) else none
  | count + 1 => do
      let (slot, slots) ← take? slots first
      let (rest, slots) ← takeRange? slots (first + 1) count
      return (slot :: rest, slots)

/-- Moves `count` slots from `source` towards the front, first one first. -/
def moveDown? (slots : Array (Option α)) (source target : Nat) : Nat → Option (Array (Option α))
  | 0 => some slots
  | count + 1 => do
      let slots ← move? slots source target
      moveDown? slots (source + 1) (target + 1) count

/-- Moves `count` slots from `source` towards the back, last one first. -/
def moveUp? (slots : Array (Option α)) (source target : Nat) : Nat → Option (Array (Option α))
  | 0 => some slots
  | count + 1 => do
      let slots ← move? slots (source + count) (target + count)
      moveUp? slots source target count

/-- Fills slots from `target` on. -/
def fill? (slots : Array (Option α)) (target : Nat) : List α → Option (Array (Option α))
  | [] => some slots
  | item :: rest => do
      let slots ← put? slots target (some item)
      fill? slots (target + 1) rest

/-! Splicing. -/

/-- Makes room for `inserted` slots in place of the `deleted` ones after `first`: the slots behind
them move, and the array ends up just long enough. -/
def resizeGap? (slots : Array (Option α)) (first deleted inserted : Nat) :
    Option (Array (Option α)) :=
  let behind := slots.size - deleted - first
  if inserted < deleted then do
    let slots ← moveDown? slots (first + deleted) (first + inserted) behind
    return slots.take (slots.size - deleted + inserted)
  else if deleted < inserted then
    moveUp? (slots ++ Array.replicate (inserted - deleted) none) (first + deleted)
      (first + inserted) behind
  else some slots

/-- Puts `items` in the place of the `deleted` slots after `first`. -/
def replace? (slots : Array (Option α)) (first deleted : Nat) (items : List α) :
    Option (List (Option α) × Array (Option α)) := do
  let (removed, slots) ← takeRange? slots first deleted
  let slots ← resizeGap? slots first deleted items.length
  let slots ← fill? slots first items
  return (removed, slots)

/-- Replaces a range of slots by `items` and gives out the slots it held, holes included.  It fails
if a word overflows or a slot is out of range. -/
def splice? (array : SparseArray α) (start : Int64) (count : Option Int64) (items : List α) :
    Option (SparseArray α × SparseArray α) := do
  let length := Int64.ofNat array.slots.size
  let first ← firstSlot? length start
  let deleted ← deletedSlots? length first count
  let (removed, slots) ← replace? array.slots first deleted items
  return (⟨removed.toArray⟩, ⟨slots⟩)

end SparseArray

end LuaLowering
