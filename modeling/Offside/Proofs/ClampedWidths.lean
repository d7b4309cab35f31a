import Offside.Proofs.LineOutcome

/-!
# Lines that are taken for as wide as a misdented one

A line that is wider than every open level opens a level, unless the line before was
misdented at the same width.  Levels are kept in full, but of the line before only a
signed word is remembered, which stops at the greatest one.  Two different widths that
are not less than that one look the same, and then a line goes on where it should have
opened a level (`Blurred`).

`wider_lines_of_traceOf` says that this is the only exception.  It takes tab stops that
are far apart, and `blurred_line_opens_no_level` is a source of three lines that meets it.
-/

namespace Offside
namespace Layout

/-- Whether a line is remembered like the line with content before it, and like a
misdented one, whatever the two widths are. -/
structure Blurred (current previous width : UInt32) : Prop where
  current_lt : current.toNat < 2147483647
  le_previous : 2147483647 ≤ previous.toNat
  le_width : 2147483647 ≤ width.toNat

end Layout

namespace StateView

/-- A line that is wider than the innermost level, and for which there is room, opens a
level, or goes on at the width of the line before. -/
theorem settle_of_wider
    {v : StateView}
    {width : UInt32}
    (hwider : v.currentWidth < width)
    (hroom : v.levels.length < maxDepth) :
    v.settle width =
      if v.atMisdentedWidth width = true then ([.newline], v)
      else ([.indent], v.withLevels (v.levels ++ [width])) := by
  rw [settle, if_pos hwider, if_pos hroom]

end StateView

namespace Layout

/-- A line as wide as no line before it seems to stand at the width of a misdented one
only where the widths are blurred. -/
theorem atMisdentedWidth_after_iff
    {measures : List (Option Measure)}
    {width : UInt32}
    (hwider : (IndentState.initial.view.after measures).currentWidth < width)
    (hother : lastWidth? (measures.map (Option.map Measure.width)) ≠ some width) :
    (IndentState.initial.view.after measures).atMisdentedWidth width = true ↔
      ∃ previous,
        lastWidth? (measures.map (Option.map Measure.width)) = some previous ∧
        Blurred (IndentState.initial.view.after measures).currentWidth previous width := by
  have hlast := toInt_lastWidth_after measures
  rw [UInt32.lt_iff_toNat_lt] at hwider
  rw [StateView.atMisdentedWidth_iff]
  cases hprevious : lastWidth? (measures.map (Option.map Measure.width)) with
  | none =>
      rw [hprevious, Option.map_none, rememberedAs] at hlast
      simp only [reduceCtorEq, false_and, exists_false, iff_false]
      omega
  | some previous =>
      have hne : previous.toNat ≠ width.toNat := by
        intro heq
        apply hother
        rw [hprevious, UInt32.toNat_inj.1 heq]
      rw [hprevious, Option.map_some, rememberedAs] at hlast
      constructor
      · rintro ⟨hsame, hlt⟩
        exact ⟨previous, rfl, by omega, by omega, by omega⟩
      · rintro ⟨_, hsome, hblurred⟩
        cases hsome
        obtain ⟨hcurrent, hle, hle'⟩ := hblurred
        omega

variable {options : Options}

/-- A line with content that is wider than every open level opens a level of its width,
provided that there is room and that the line with content before it has another width.
The widths decide as they are, except where both are too great to be remembered and no
level is as great: there the line goes on as if it were as wide as the one before. -/
theorem wider_lines_of_traceOf
    (htab : options.tabWidth ≠ 0)
    (source : List Char) :
    ∃ full,
      traceOf source options = .ok full ∧
      ∀ (line : Nat) (width : UInt32),
        (lineWidths options source)[line]? = some (some width) →
        ∃ before after,
          full.stateBefore? line = some before ∧
          full.stateBefore? (line + 1) = some after ∧
          (before.currentWidth < width →
            before.levels.length < maxDepth →
            lastWidth? ((lineWidths options source).take line) ≠ some width →
            let blurred :=
              ∃ previous,
                lastWidth? ((lineWidths options source).take line) = some previous ∧
                Blurred before.currentWidth previous width
            (¬ blurred →
              full.lineTokens line = [.indent] ∧ after.levels = before.levels ++ [width]) ∧
            (blurred →
              full.lineTokens line = [.newline] ∧ after.levels = before.levels)) := by
  have hfull := traceOf_eq htab source
  refine ⟨_, hfull, ?_⟩
  intro line width hwidth
  obtain ⟨before, after, hbefore, hafter, hview, htokens, hlevels⟩ :=
    exists_settle_of_width htab hfull hwidth
  refine ⟨before, after, hbefore, hafter, ?_⟩
  intro hwider hroom hother
  rw [← IndentState.view_currentWidth] at hwider ⊢
  rw [StateView.settle_of_wider hwider hroom] at htokens hlevels
  rw [lineWidths_eq, ← List.map_take] at hother ⊢
  rw [hview] at hwider
  have hmisdented := atMisdentedWidth_after_iff hwider hother
  rw [← hview] at hmisdented
  refine ⟨fun hblurred => ?_, fun hblurred => ?_⟩
  · rw [if_neg fun h => hblurred (hmisdented.1 h)] at htokens hlevels
    exact ⟨htokens, hlevels⟩
  · rw [if_pos (hmisdented.2 hblurred)] at htokens hlevels
    exact ⟨htokens, hlevels⟩

/-- Widths that are too great to be remembered, above a level that is as great: the line
behind the misdented one opens a level. -/
theorem wider_lines_of_traceOf_great :
    ∃ full before after,
      traceOf "\ta\n\t   b\n\t c\n\t  d".toList ⟨2147483647, true⟩ = .ok full ∧
      full.stateBefore? 3 = some before ∧
      full.stateBefore? 4 = some after ∧
      before.levels = [2147483647] ∧
      full.lineTokens 3 = [.indent] ∧
      after.levels = [2147483647, 2147483649] := by
  obtain ⟨full, hfull, hwider⟩ :=
    @wider_lines_of_traceOf ⟨2147483647, true⟩ (by decide) "\ta\n\t   b\n\t c\n\t  d".toList
  have hwidths :
      lineWidths ⟨2147483647, true⟩ "\ta\n\t   b\n\t c\n\t  d".toList =
        [some 2147483647, some 2147483650, some 2147483648, some 2147483649] := by
    decide +kernel
  have hlevels :
      (traceOf "\ta\n\t   b\n\t c\n\t  d".toList ⟨2147483647, true⟩).toOption.map (fun full =>
          (full.stateBefore? 3).map fun state => (state.levels, state.currentWidth)) =
        some (some ([2147483647], 2147483647)) := by
    decide +kernel
  rw [hwidths] at hwider
  obtain ⟨before, after, hbefore, hafter, hopens⟩ := hwider 3 2147483649 rfl
  rw [hfull, Except.toOption, Option.map_some, Option.some.injEq, hbefore, Option.map_some,
    Option.some.injEq, Prod.mk.injEq] at hlevels
  obtain ⟨hbeforeLevels, hcurrent⟩ := hlevels
  rw [hcurrent, hbeforeLevels] at hopens
  obtain ⟨hexact, -⟩ := hopens (by decide) (by decide) (by decide)
  obtain ⟨htokens, hafterLevels⟩ := hexact (by
    rintro ⟨_, _, hblurred⟩
    exact absurd hblurred.current_lt (by decide))
  exact ⟨full, before, after, hfull, hbefore, hafter, hbeforeLevels, htokens, hafterLevels⟩

/-- A line of another width than the misdented one before it, wider than all levels and
with room for one more, that opens no level. -/
theorem blurred_line_opens_no_level :
    ∃ full before after,
      traceOf "\t\ta\n\tb\n\t c\n".toList ⟨2147483648, true⟩ = .ok full ∧
      lineWidths ⟨2147483648, true⟩ "\t\ta\n\tb\n\t c\n".toList =
        [some 4294967295, some 2147483648, some 2147483649] ∧
      full.stateBefore? 2 = some before ∧
      full.stateBefore? 3 = some after ∧
      before.currentWidth < 2147483649 ∧
      before.levels.length < maxDepth ∧
      full.lineTokens 2 = [.newline] ∧
      after.levels = before.levels := by
  obtain ⟨full, hfull⟩ :
      ∃ full, traceOf "\t\ta\n\tb\n\t c\n".toList ⟨2147483648, true⟩ = .ok full :=
    ⟨_, traceOf_eq (by decide) _⟩
  have hfound :
      (traceOf "\t\ta\n\tb\n\t c\n".toList ⟨2147483648, true⟩).toOption.map (fun full =>
          ((full.stateBefore? 2).map fun state => (state.levels, state.currentWidth),
            (full.stateBefore? 3).map IndentState.levels, full.lineTokens 2)) =
        some (some ([], 0), some [], [.newline]) := by
    decide +kernel
  rw [hfull, Except.toOption, Option.map_some, Option.some.injEq, Prod.mk.injEq, Prod.mk.injEq,
    Option.map_eq_some_iff, Option.map_eq_some_iff] at hfound
  obtain ⟨⟨before, hbefore, hlevels⟩, ⟨after, hafter, hafterLevels⟩, htokens⟩ := hfound
  rw [Prod.mk.injEq] at hlevels
  obtain ⟨hbeforeLevels, hcurrent⟩ := hlevels
  refine ⟨full, before, after, hfull, by decide +kernel, hbefore, hafter, ?_, ?_, htokens, ?_⟩
  · rw [hcurrent]
    decide
  · rw [hbeforeLevels]
    decide
  · rw [hbeforeLevels, hafterLevels]

end Layout
end Offside
