import Mathlib.Order.Bounds.Basic
import Offside.Proofs.LineTrace
import Offside.Proofs.TabStops

/-!
# Widths that reach the greatest word

A width may stop at the greatest word in the middle of a run, and the tab stops behind
that are counted from a word that is not the column any more.  It is the width that never
stops all the same, cut off once at the end (`toNat_width`).  What a measure is used for
follows from there: more characters never take columns away, a width that has stopped
stays where it is, and what is remembered of widths keeps their order.

What is left to a tab stop is the tab width less a remainder, as words.  `width?` asks for
remainders and differences that exist only, and it never has to give up
(`width?_eq_width`).
-/

namespace Offside
namespace Layout
namespace Columns

/-- The remainder of a word, unless the divisor is zero. -/
def remainder? (a b : UInt32) : Option UInt32 :=
  if b = 0 then none else some (a % b)

/-- The difference of two words, unless it falls below zero. -/
def difference? (a b : UInt32) : Option UInt32 :=
  if b ≤ a then some (a - b) else none

/-- The column after a character, by remainders and differences that exist. -/
def advance?
    (tabWidth : UInt32)
    (column : UInt32)
    (c : Char) :
    Option UInt32 :=
  if c = '\t' then do
    let past ← remainder? column tabWidth
    let left ← difference? tabWidth past
    return addSaturating column left
  else
    return addSaturating column 1

/-- The width of a run of characters, by remainders and differences that exist. -/
def width?
    (tabWidth : UInt32)
    (cs : List Char) :
    Option UInt32 :=
  cs.foldlM (advance? tabWidth) 0

/-- A tab goes on to the first multiple of the tab width behind the column. -/
theorem isLeast_advanceExact_tab
    {tabWidth : Nat}
    (htab : 0 < tabWidth)
    (column : Nat) :
    IsLeast {stop | tabWidth ∣ stop ∧ column < stop} (advanceExact tabWidth column '\t') := by
  have hstop : advanceExact tabWidth column '\t' = (column / tabWidth + 1) * tabWidth := if_pos rfl
  refine ⟨⟨?_, lt_advanceExact htab column '\t'⟩, ?_⟩
  · rw [hstop]
    exact Nat.dvd_mul_left tabWidth _
  · rintro stop ⟨⟨count, rfl⟩, hlt⟩
    have hcount : column / tabWidth < count := by
      rw [Nat.div_lt_iff_lt_mul htab, Nat.mul_comm]
      exact hlt
    rw [hstop, Nat.mul_comm tabWidth]
    exact Nat.mul_le_mul_right tabWidth hcount

section

variable {tabWidth : UInt32}

/-- A column is past the last tab stop by less than a tab. -/
theorem difference?_remainder
    (htab : tabWidth ≠ 0)
    (column : UInt32) :
    difference? tabWidth (column % tabWidth) = some (tabWidth - column % tabWidth) := by
  obtain ⟨-, hlt⟩ := toNat_sub_mod htab column
  rw [difference?, if_pos]
  rw [UInt32.le_iff_toNat_le, UInt32.toNat_mod]
  exact Nat.le_of_lt hlt

theorem advance?_eq_advance
    (htab : tabWidth ≠ 0)
    (column : UInt32)
    (c : Char) :
    advance? tabWidth column c = some (advance tabWidth column c) := by
  have hremainder : remainder? column tabWidth = some (column % tabWidth) := if_neg htab
  unfold advance? advance
  by_cases hc : c = '\t'
  · rw [if_pos hc, if_pos hc, hremainder, Option.bind_eq_bind, Option.bind_some,
      difference?_remainder htab]
    rfl
  · rw [if_neg hc, if_neg hc]
    rfl

/-- No step of a width asks for a remainder or a difference that does not exist. -/
theorem width?_eq_width
    (htab : tabWidth ≠ 0)
    (cs : List Char) :
    width? tabWidth cs = some (width tabWidth cs) := by
  rw [width?, width]
  generalize (0 : UInt32) = column
  induction cs generalizing column with
  | nil => rfl
  | cons c cs ih =>
      rw [List.foldlM_cons, advance?_eq_advance htab, List.foldl_cons]
      exact ih (advance tabWidth column c)

/-- More characters are never less wide, also where the width stops. -/
theorem width_le_append
    (htab : tabWidth ≠ 0)
    (cs more : List Char) :
    width tabWidth cs ≤ width tabWidth (cs ++ more) := by
  have hexact := expanded_le_append (toNat_pos htab) cs more
  rw [UInt32.le_iff_toNat_le, toNat_width htab, toNat_width htab]
  omega

/-- A width that has stopped stays where it is. -/
theorem width_append_eq_greatest
    (htab : tabWidth ≠ 0)
    {cs : List Char}
    (h : width tabWidth cs = greatest)
    (more : List Char) :
    width tabWidth (cs ++ more) = greatest := by
  have hle := width_le_append htab cs more
  have hgreatest : greatest.toNat = 4294967295 := rfl
  have hlt := (width tabWidth (cs ++ more)).toNat_lt
  rw [h, UInt32.le_iff_toNat_le] at hle
  rw [← UInt32.toNat_inj]
  omega

/-- A greater width is never remembered as a lesser one. -/
theorem remembered_le_remembered
    {narrow wide : UInt32}
    (h : narrow ≤ wide) :
    remembered narrow ≤ remembered wide := by
  rw [UInt32.le_iff_toNat_le] at h
  rw [Int32.le_iff_toInt_le, toInt_remembered, toInt_remembered]
  omega

end

/-- How the width of a run of characters stands to the width that never stops. -/
structure StopsAtGreatest
    (tabWidth : UInt32)
    (cs : List Char) :
    Prop where
  /-- The run is as wide wherever it stands in a source. -/
  between_eq : ∀ before after,
    between tabWidth (before ++ (cs ++ after)) (Utf8.byteLength before)
        (Utf8.byteLength before + Utf8.byteLength cs) =
      width tabWidth cs
  /-- No difference on the way falls below zero. -/
  width?_eq : width? tabWidth cs = some (width tabWidth cs)
  toNat_eq : (width tabWidth cs).toNat = min (expanded tabWidth.toNat cs) 4294967295
  le_append : ∀ more, width tabWidth cs ≤ width tabWidth (cs ++ more)
  stays : width tabWidth cs = greatest → ∀ more, width tabWidth (cs ++ more) = greatest
  remembered_eq :
    (remembered (width tabWidth cs)).toInt = min (expanded tabWidth.toNat cs : Int) 2147483647
  remembered_bounds :
    0 ≤ (remembered (width tabWidth cs)).toInt ∧
      (remembered (width tabWidth cs)).toInt ≤ 2147483647
  remembered_le_append : ∀ more,
    remembered (width tabWidth cs) ≤ remembered (width tabWidth (cs ++ more))

/-- For every tab width, where a tab goes on to the first multiple behind the column, the
width of every run of characters is the width that never stops or the greatest word,
whichever is less.  No difference on the way falls below zero.  So a part at the front of
a run is never wider than the run, a width that has stopped stays, and what is remembered
of widths keeps their order and lies between zero and the greatest signed word. -/
theorem widths_stop_at_greatest
    {tabWidth : UInt32}
    (htab : tabWidth ≠ 0) :
    (∀ column,
      IsLeast {stop | tabWidth.toNat ∣ stop ∧ column < stop}
        (advanceExact tabWidth.toNat column '\t')) ∧
    (∀ narrow wide : UInt32, narrow ≤ wide → remembered narrow ≤ remembered wide) ∧
    ∀ cs, StopsAtGreatest tabWidth cs := by
  refine ⟨isLeast_advanceExact_tab (toNat_pos htab), fun _ _ => remembered_le_remembered, ?_⟩
  intro cs
  have hremembered := toInt_remembered_width htab cs
  refine
    { between_eq := fun before after => between_append tabWidth before cs after
      width?_eq := width?_eq_width htab cs
      toNat_eq := toNat_width htab cs
      le_append := width_le_append htab cs
      stays := width_append_eq_greatest htab
      remembered_eq := hremembered
      remembered_bounds := ?_
      remembered_le_append := fun more => remembered_le_remembered (width_le_append htab cs more) }
  rw [hremembered]
  omega

/-- The second of two tabs half as wide as there is room for leads one column too far. -/
theorem widths_stop_at_greatest_two_tabs :
    StopsAtGreatest 2147483648 ['\t', '\t'] ∧
      expanded 2147483648 ['\t', '\t'] = 4294967296 ∧
      width 2147483648 ['\t', '\t'] = greatest ∧
      ∀ more, width 2147483648 (['\t', '\t'] ++ more) = greatest := by
  obtain ⟨-, -, hwidths⟩ := @widths_stop_at_greatest 2147483648 (by decide)
  have hstopped : width 2147483648 ['\t', '\t'] = greatest := by decide
  exact ⟨hwidths _, by decide, hstopped, (hwidths _).stays hstopped⟩

end Columns
end Layout
end Offside
