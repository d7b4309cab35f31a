import Offside.Layout.Columns

/-!
# Columns that do not stop

A width is a 32-bit word that stops at the greatest one, and it is remembered as
a signed word that stops at the greatest of these.  Beside it stands here the
width that never stops: a tab goes on to the next multiple of the tab width and
any other character takes one column.  The word is that width or the greatest
word, whichever is less, and so is what is remembered of it.
-/

namespace Offside
namespace Layout
namespace Columns

/-- The column after a character that starts at the given column. -/
def advanceExact
    (tabWidth column : Nat)
    (c : Char) :
    Nat :=
  if c = '\t' then (column / tabWidth + 1) * tabWidth else column + 1

/-- The width of a run of characters that starts a line, however great. -/
def expanded
    (tabWidth : Nat)
    (cs : List Char) :
    Nat :=
  cs.foldl (advanceExact tabWidth) 0

/-- What is left to the next tab stop leads to the next multiple. -/
theorem add_sub_mod_eq
    {tabWidth : Nat}
    (htab : 0 < tabWidth)
    (column : Nat) :
    column + (tabWidth - column % tabWidth) = (column / tabWidth + 1) * tabWidth := by
  have hmod := Nat.mod_lt column htab
  have hdiv := Nat.div_add_mod' column tabWidth
  rw [Nat.succ_mul]
  omega

theorem toNat_pos
    {tabWidth : UInt32}
    (htab : tabWidth ≠ 0) :
    0 < tabWidth.toNat := by
  rw [Nat.pos_iff_ne_zero]
  intro hzero
  exact htab (UInt32.toNat_inj.1 hzero)

/-- The width of a tab is never less than one column. -/
theorem toNat_sub_mod
    {tabWidth : UInt32}
    (htab : tabWidth ≠ 0)
    (column : UInt32) :
    (tabWidth - column % tabWidth).toNat =
        tabWidth.toNat - column.toNat % tabWidth.toNat ∧
      column.toNat % tabWidth.toNat < tabWidth.toNat := by
  have hlt := Nat.mod_lt column.toNat (toNat_pos htab)
  refine ⟨?_, hlt⟩
  rw [UInt32.toNat_sub_of_le, UInt32.toNat_mod]
  rw [UInt32.le_iff_toNat_le, UInt32.toNat_mod]
  exact Nat.le_of_lt hlt

/-- One character moves both columns alike, until the word stops. -/
theorem toNat_advance
    {tabWidth : UInt32}
    (htab : tabWidth ≠ 0)
    {column : UInt32}
    {exact : Nat}
    (h : column.toNat = min exact greatest.toNat)
    (c : Char) :
    (advance tabWidth column c).toNat =
      min (advanceExact tabWidth.toNat exact c) greatest.toNat := by
  obtain ⟨hsub, hlt⟩ := toNat_sub_mod htab column
  have hnext := add_sub_mod_eq (toNat_pos htab) exact
  have hmod := Nat.mod_lt exact (toNat_pos htab)
  unfold advance advanceExact
  by_cases hc : c = '\t'
  · rw [if_pos hc, if_pos hc, toNat_addSaturating, hsub, ← hnext]
    generalize greatest.toNat = top at h ⊢
    by_cases hstopped : exact < top
    · have hcolumn : column.toNat = exact := by omega
      rw [hcolumn]
    · omega
  · have hone : (1 : UInt32).toNat = 1 := rfl
    rw [if_neg hc, if_neg hc, toNat_addSaturating, hone]
    generalize greatest.toNat = top at h ⊢
    omega

/-- A width is the exact one or the greatest word, whichever is less. -/
theorem toNat_width
    {tabWidth : UInt32}
    (htab : tabWidth ≠ 0)
    (cs : List Char) :
    (width tabWidth cs).toNat = min (expanded tabWidth.toNat cs) greatest.toNat := by
  have hfold (column : UInt32) (exact : Nat) (h : column.toNat = min exact greatest.toNat) :
      (cs.foldl (advance tabWidth) column).toNat =
        min (cs.foldl (advanceExact tabWidth.toNat) exact) greatest.toNat := by
    induction cs generalizing column exact with
    | nil => exact h
    | cons c cs ih => exact ih _ _ (toNat_advance htab h c)
  exact hfold 0 0 rfl

/-- Every character goes on. -/
theorem lt_advanceExact
    {tabWidth : Nat}
    (htab : 0 < tabWidth)
    (column : Nat)
    (c : Char) :
    column < advanceExact tabWidth column c := by
  unfold advanceExact
  split
  next =>
    have hnext := add_sub_mod_eq htab column
    have hmod := Nat.mod_lt column htab
    omega
  next => exact Nat.lt_succ_self column

/-- More characters are never less wide. -/
theorem expanded_le_append
    {tabWidth : Nat}
    (htab : 0 < tabWidth)
    (cs ds : List Char) :
    expanded tabWidth cs ≤ expanded tabWidth (cs ++ ds) := by
  rw [expanded, expanded, List.foldl_append]
  generalize cs.foldl (advanceExact tabWidth) 0 = column
  induction ds generalizing column with
  | nil => exact Nat.le_refl column
  | cons d ds ih => exact Nat.le_trans (Nat.le_of_lt (lt_advanceExact htab column d)) (ih _)

/-- So is what is remembered of it, with the greatest signed word. -/
theorem toInt_remembered_width
    {tabWidth : UInt32}
    (htab : tabWidth ≠ 0)
    (cs : List Char) :
    (remembered (width tabWidth cs)).toInt =
      min (expanded tabWidth.toNat cs : Int) 2147483647 := by
  have hgreatest : greatest.toNat = 4294967295 := rfl
  have hwidth := toNat_width htab cs
  rw [toInt_remembered]
  omega

/-- One more than any number, up to the greatest. -/
theorem toInt_increment_eq_min (n : Int32) :
    (increment n).toInt = min (n.toInt + 1) 2147483647 := by
  have hgreatest : Int32.maxValue.toInt = 2147483647 := by decide
  have hone : (1 : Int32).toInt = 1 := by decide
  have hbelow := n.le_toInt
  have habove := n.toInt_lt
  unfold increment
  by_cases hn : n = Int32.maxValue
  · rw [if_pos hn, hn, hgreatest]
    omega
  · have hne : n.toInt ≠ 2147483647 := by
      intro heq
      exact hn (Int32.toInt_inj.1 (heq.trans hgreatest.symm))
    rw [if_neg hn, Int32.toInt_add, hone, Int.bmod_eq_of_le] <;> omega

/-- One more than a remembered count, up to the greatest. -/
theorem toInt_increment
    {n : Int32}
    {count : Nat}
    (h : n.toInt = min (count : Int) 2147483647) :
    (increment n).toInt = min ((count + 1 : Nat) : Int) 2147483647 := by
  rw [toInt_increment_eq_min, h]
  omega

end Columns
end Layout
end Offside
