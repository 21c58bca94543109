namespace LuaLowering

/-! Stretches of source text, counted in UTF-8 bytes, and the units they belong to.  Offsets are
natural numbers, and so are the numbers of units: that a number of thirty-two bits wraps at `2 ^ 32`
is left out, and no text below that length shows the difference. -/

/-- A half-open stretch of text; it never ends before it starts. -/
structure Span where
  start : Nat
  stop : Nat
  start_le_stop : start ≤ stop := by omega
deriving DecidableEq, Repr

namespace Span

def empty : Span := { start := 0, stop := 0 }

def ofLength (start length : Nat) : Span := { start := start, stop := start + length }

@[simp] theorem start_ofLength (start length : Nat) : (ofLength start length).start = start := rfl

@[simp] theorem stop_ofLength (start length : Nat) :
    (ofLength start length).stop = start + length := rfl

end Span

/-- One compilation unit. -/
structure UnitId where
  index : Nat
deriving DecidableEq, Repr

namespace UnitId

def text (unit : UnitId) : String := "unit#" ++ toString unit.index

def debugText (unit : UnitId) : String := "FileId(" ++ toString unit.index ++ ")"

end UnitId

/-! Byte offsets as lines and columns.  A line starts at offset zero and after every newline. -/

/-- A place in a text: line and byte column, both counted from zero. -/
structure Position where
  line : Nat
  column : Nat
deriving DecidableEq, Repr

namespace Position

def lineNumber (position : Position) : Nat := position.line + 1

def columnNumber (position : Position) : Nat := position.column + 1

/-- People count lines and columns from one. -/
def text (position : Position) : String :=
  toString position.lineNumber ++ ":" ++ toString position.columnNumber

end Position

/-- The offsets at which the lines of a text start, in order, and its length in bytes. -/
structure LineTable where
  starts : List Nat
  length : Nat
deriving DecidableEq, Repr

namespace LineTable

def newline : UInt8 := 10

/-- The offsets just after the newlines of `bytes`, the first of which stands at `offset`. -/
def startsAfter (offset : Nat) : List UInt8 → List Nat
  | [] => []
  | byte :: rest =>
      if byte = newline then (offset + 1) :: startsAfter (offset + 1) rest
      else startsAfter (offset + 1) rest

def ofBytes (bytes : List UInt8) : LineTable where
  starts := 0 :: startsAfter 0 bytes
  length := bytes.length

def ofText (text : String) : LineTable := ofBytes text.toUTF8.data.toList

def lineCount (table : LineTable) : Nat := table.starts.length

/-- The place of an offset.  An offset past the end stands for the end. -/
def position (table : LineTable) (offset : Nat) : Position :=
  let capped := min offset table.length
  let reached := table.starts.takeWhile (fun start => decide (start ≤ capped))
  { line := reached.length - 1, column := capped - reached.getLastD 0 }

def positions (table : LineTable) (span : Span) : Position × Position :=
  (table.position span.start, table.position span.stop)

end LineTable

end LuaLowering
