import Offside.Text.Utf8

/-!
# Columns

The width of a run of characters is counted in columns: a tab goes on to the
next tab stop and any other character takes one column.  Widths are 32-bit
words that stop at the greatest word, and they are remembered as signed words
that stop at the greatest signed word.
-/

namespace Offside
namespace Layout
namespace Columns

def greatest : UInt32 := 4294967295

/-- Adds two widths and stops at the greatest one. -/
def addSaturating (a b : UInt32) : UInt32 :=
  if a.toNat + b.toNat < UInt32.size then a + b else greatest

/-- The column after a character that starts at the given column. -/
def advance
    (tabWidth : UInt32)
    (column : UInt32)
    (c : Char) :
    UInt32 :=
  if c = '\t' then
    addSaturating column (tabWidth - column % tabWidth)
  else
    addSaturating column 1

/-- The width of a run of characters that starts a line. -/
def width
    (tabWidth : UInt32)
    (cs : List Char) :
    UInt32 :=
  cs.foldl (advance tabWidth) 0

/-- The width of what stands between two byte positions of a source. -/
def between
    (tabWidth : UInt32)
    (source : List Char)
    (start stop : Nat) :
    UInt32 :=
  width tabWidth ((Utf8.slice? start stop source).getD [])

/-- A width as it is remembered between lines. -/
def remembered (w : UInt32) : Int32 :=
  if w.toNat < 2147483648 then w.toInt32 else Int32.maxValue

/-- One more than a remembered count, unless it is the greatest. -/
def increment (n : Int32) : Int32 :=
  if n = Int32.maxValue then n else n + 1

theorem toNat_addSaturating (a b : UInt32) :
    (addSaturating a b).toNat = min (a.toNat + b.toNat) greatest.toNat := by
  have hgreatest : greatest.toNat = 4294967295 := rfl
  have hsize : UInt32.size = 4294967296 := rfl
  unfold addSaturating
  split
  next h =>
    rw [UInt32.toNat_add]
    omega
  next h =>
    omega

theorem toInt_remembered (w : UInt32) :
    (remembered w).toInt = min w.toNat 2147483647 := by
  have hw := w.toNat_lt
  unfold remembered
  split
  next h =>
    have hword : w.toInt32.toInt = w.toNat :=
      BitVec.toInt_eq_toNat_of_lt (show 2 * w.toNat < 4294967296 by omega)
    omega
  next h =>
    have : Int32.maxValue.toInt = 2147483647 := by decide
    omega

end Columns
end Layout
end Offside
