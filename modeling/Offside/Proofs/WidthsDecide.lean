import Mathlib.Logic.Relation
import Offside.Proofs.MeasureRun

/-!
# The widths of lines decide

A scan carries counts, columns and positions along with the open levels, and the
layout policy looks at none of them.  Of a line with content it only sees the
width of the blanks at its start, and a blank line it does not see at all.  Two
sources whose lines with content are equally wide, one after the other, have the
same layout tokens, however differently they are written.

The two runs do not go in step, since either source may have blank lines where
the other has none.  Each of them is therefore compared with a third run, over
the widths alone (`StateView.SameStack.tokensOver`).

`Edit` lists the changes to the lines of a source that leave its widths alone.
-/

namespace Offside

namespace TextLine

/-- The width of a line with content. -/
def width?
    (options : Layout.Options)
    (line : TextLine) :
    Option UInt32 :=
  if line.isBlank options.commentsAreBlank then none
  else some (Layout.Columns.width options.tabWidth line.indentation)

theorem width_measure?
    (options : Layout.Options)
    (line : TextLine) :
    (line.measure? options).map Layout.Measure.width = line.width? options := by
  have hblank := line.beforeLastContent?_eq_none_iff options.commentsAreBlank
  rw [measure?, width?, Option.map_map]
  cases hbefore : line.beforeLastContent? options.commentsAreBlank with
  | none => rw [if_pos (hblank.1 hbefore)]; rfl
  | some before =>
      rw [if_neg fun h => by rw [hblank.2 h] at hbefore; cases hbefore]
      rfl

end TextLine

namespace StateView

/-- Views that the layout policy cannot tell apart. -/
structure SameStack (v u : StateView) : Prop where
  levels : u.levels = v.levels
  lastWidth : u.lastWidth = v.lastWidth

namespace SameStack

variable {v u : StateView}

theorem currentWidth (h : SameStack v u) : u.currentWidth = v.currentWidth := by
  rw [StateView.currentWidth, h.levels]
  rfl

theorem atMisdentedWidth
    (h : SameStack v u)
    (width : UInt32) :
    u.atMisdentedWidth width = v.atMisdentedWidth width := by
  rw [StateView.atMisdentedWidth, h.currentWidth, h.lastWidth]
  rfl

/-- The policy does the same to both. -/
theorem settle
    (h : SameStack v u)
    (width : UInt32) :
    (u.settle width).1 = (v.settle width).1 ∧
      (u.settle width).2.levels = (v.settle width).2.levels := by
  have hkept : u.kept width = v.kept width := by
    rw [kept, h.levels]
    rfl
  have hafter (levels : List UInt32) :
      (u.withLevels levels).currentWidth = (v.withLevels levels).currentWidth := rfl
  simp only [StateView.settle, h.atMisdentedWidth, h.currentWidth, h.levels, h.lastWidth, hafter,
    hkept]
  split_ifs <;> simp [h.levels]

/-- Lines of one width, at whatever columns their content ends, keep them alike. -/
theorem afterContent
    (h : SameStack v u)
    (width column column' : UInt32) :
    (u.afterLine (some ⟨width, column'⟩)).1 = (v.afterLine (some ⟨width, column⟩)).1 ∧
      SameStack (v.afterLine (some ⟨width, column⟩)).2 (u.afterLine (some ⟨width, column'⟩)).2 := by
  obtain ⟨htokens, hlevels⟩ := h.settle width
  exact ⟨htokens, hlevels, rfl⟩

/-- A blank line keeps them alike when only one of them sees it. -/
theorem afterBlank (h : SameStack v u) : SameStack (v.afterLine none).2 u :=
  ⟨h.levels, h.lastWidth⟩

/-- A run over lines goes with the run over the widths of those with content. -/
theorem tokensOver
    (h : SameStack v u)
    (measures : List (Option Layout.Measure)) :
    let widths := measures.filterMap (Option.map Layout.Measure.width)
    u.tokensOver (widths.map fun width => some ⟨width, 0⟩) = v.tokensOver measures ∧
      SameStack (v.after measures) (u.after (widths.map fun width => some ⟨width, 0⟩)) := by
  induction measures generalizing v u with
  | nil => exact ⟨rfl, h⟩
  | cons measure rest ih =>
      cases measure with
      | none => exact ih h.afterBlank
      | some measure =>
          obtain ⟨htokens, hnext⟩ := h.afterContent measure.width measure.column 0
          obtain ⟨ihtokens, ihafter⟩ := ih hnext
          refine ⟨?_, ihafter⟩
          exact congrArg₂ (· ++ ·) htokens ihtokens

end SameStack
end StateView

namespace Layout

/-- The widths of the lines with content of a source, in order. -/
def contentWidths
    (options : Options)
    (source : List Char) :
    List UInt32 :=
  (TextLine.split source).filterMap (TextLine.width? options)

/-- The tokens of lines of some widths, and then those that close every level. -/
def tokensOfWidths (widths : List UInt32) : List Token :=
  IndentState.initial.view.tokensToEnd (widths.map fun width => some ⟨width, 0⟩)

/-- The tokens of a scan are a function of the widths of its lines. -/
theorem tokens_eq_tokensOfWidths
    {options : Options}
    (htab : options.tabWidth ≠ 0)
    {source : List Char}
    {full : Trace}
    (hfull : traceOf source options = .ok full) :
    full.tokens = tokensOfWidths (contentWidths options source) := by
  have hwidths :
      (measuresOf options source).filterMap (Option.map Measure.width) =
        contentWidths options source := by
    rw [measuresOf, contentWidths, List.filterMap_map]
    exact congrArg (List.filterMap · _) (funext fun line => line.width_measure? options)
  obtain ⟨htokens, hafter⟩ :=
    StateView.SameStack.tokensOver ⟨rfl, rfl⟩ (v := IndentState.initial.view)
      (u := IndentState.initial.view) (measuresOf options source)
  rw [hwidths] at htokens hafter
  rw [tokens_of_traceOf htab hfull, tokensOfWidths, StateView.tokensToEnd, StateView.tokensToEnd,
    htokens, hafter.levels]

end Layout

namespace TextLine

open Layout

/-- Lines as they may follow each other in a text: no line break stands inside of
one, and all but the last end in one. -/
inductive Spelled : List TextLine → Prop
  | nil : Spelled []
  | last
      (content : List Char)
      (hcontent : ∀ c ∈ content, Lexeme.isBreak c = false) :
      Spelled [⟨content, []⟩]
  | cons
      {line : TextLine}
      {rest : List TextLine}
      (hcontent : ∀ c ∈ line.content, Lexeme.isBreak c = false)
      (hending : line.ending = ['\r', '\n'] ∨ line.ending = ['\n'] ∨ line.ending = ['\r'])
      (hrest : Spelled rest) :
      Spelled (line :: rest)

/-- A change of one line that leaves the widths of the lines with content alone. -/
inductive Edit (options : Options) : List TextLine → List TextLine → Prop
  /-- A blank line comes in anywhere. -/
  | insert
      (before after : List TextLine)
      {line : TextLine}
      (hblank : line.isBlank options.commentsAreBlank = true) :
      Edit options (before ++ after) (before ++ line :: after)
  /-- A blank line goes. -/
  | remove
      (before after : List TextLine)
      {line : TextLine}
      (hblank : line.isBlank options.commentsAreBlank = true) :
      Edit options (before ++ line :: after) (before ++ after)
  /-- A line break is written in another way. -/
  | rebreak
      (before after : List TextLine)
      (line : TextLine)
      (ending : List Char) :
      Edit options (before ++ line :: after) (before ++ { line with ending } :: after)
  /-- What stands behind the indentation changes, and the line stays blank or not. -/
  | reword
      (before after : List TextLine)
      {line line' : TextLine}
      (hindentation : line'.indentation = line.indentation)
      (hblank :
        line'.isBlank options.commentsAreBlank = line.isBlank options.commentsAreBlank) :
      Edit options (before ++ line :: after) (before ++ line' :: after)
  /-- The indentation is written with other blanks of the same width. -/
  | respell
      (before after : List TextLine)
      {line line' : TextLine}
      (hrest :
        line'.content.dropWhile Lexeme.isBlank = line.content.dropWhile Lexeme.isBlank)
      (hwidth :
        Columns.width options.tabWidth line'.indentation =
          Columns.width options.tabWidth line.indentation) :
      Edit options (before ++ line :: after) (before ++ line' :: after)

/-- A change of one line does not change the widths. -/
theorem Edit.filterMap_width?
    {options : Options}
    {lines lines' : List TextLine}
    (h : Edit options lines lines') :
    lines'.filterMap (width? options) = lines.filterMap (width? options) := by
  have hreplace
      (before after : List TextLine)
      {line line' : TextLine}
      (hline : line'.width? options = line.width? options) :
      (before ++ line' :: after).filterMap (width? options) =
        (before ++ line :: after).filterMap (width? options) := by
    rw [List.filterMap_append, List.filterMap_append, List.filterMap_cons, List.filterMap_cons,
      hline]
  cases h with
  | insert before after hblank => simp [width?, hblank]
  | remove before after hblank => simp [width?, hblank]
  | rebreak before after line ending => exact hreplace before after rfl
  | reword before after hindentation hblank =>
      exact hreplace before after (by rw [width?, width?, hindentation, hblank])
  | respell before after hrest hwidth =>
      exact hreplace before after (by rw [width?, width?, isBlank, isBlank, hrest, hwidth])

theorem split_append
    {before : List Char}
    (hbefore : ∀ c ∈ before, Lexeme.isBreak c = false)
    (cs : List Char) :
    split (before ++ cs) = before.foldr prepend (split cs) := by
  induction before with
  | nil => rfl
  | cons c before ih =>
      have hc := hbefore c List.mem_cons_self
      simp only [Lexeme.isBreak, Bool.or_eq_false_iff, beq_eq_false_iff_ne, ne_eq] at hc
      rw [List.foldr_cons, ← ih fun d hd => hbefore d (List.mem_cons_of_mem c hd), List.cons_append,
        split]
      all_goals simp_all

/-- A line break ends the line before it, and the widths behind it are those of
the text behind it. -/
theorem exists_split_ending
    (options : Options)
    {ending : List Char}
    (hending : ending = ['\r', '\n'] ∨ ending = ['\n'] ∨ ending = ['\r'])
    (cs : List Char) :
    ∃ ending' lines,
      split (ending ++ cs) = ⟨[], ending'⟩ :: lines ∧
      lines.filterMap (width? options) = contentWidths options cs := by
  rcases hending with rfl | rfl | rfl
  · exact ⟨_, _, rfl, rfl⟩
  · exact ⟨_, _, rfl, rfl⟩
  · by_cases hfeed : ∃ rest, cs = '\n' :: rest
    · -- the carriage return takes the line feed of a blank line that follows
      obtain ⟨rest, rfl⟩ := hfeed
      exact ⟨_, _, rfl, rfl⟩
    · exact ⟨_, _, split.eq_3 cs fun rest hrest => hfeed ⟨rest, hrest⟩, rfl⟩

/-- The widths of a text are those of the lines that it is made of. -/
theorem contentWidths_flatMap_text
    (options : Options)
    {lines : List TextLine}
    (h : Spelled lines) :
    contentWidths options (lines.flatMap text) = lines.filterMap (width? options) := by
  induction h with
  | nil => rfl
  | last content hcontent =>
      have htext : [TextLine.mk content []].flatMap text = content ++ [] := by simp [text]
      rw [htext, contentWidths, split_append hcontent, split]
      by_cases hnil : content = []
      · subst hnil
        rfl
      · rw [foldr_prepend_nil hnil]
  | @cons line rest hcontent hending hrest ih =>
      obtain ⟨ending', lines, hsplit, hwidths⟩ :=
        exists_split_ending options hending (rest.flatMap text)
      rw [List.flatMap_cons, text, List.append_assoc, contentWidths, split_append hcontent, hsplit,
        foldr_prepend_cons, List.filterMap_cons, List.filterMap_cons, hwidths, ih, List.append_nil]
      rfl

end TextLine

namespace Layout

/-- Two sources, each read with its own options, have the same layout tokens when
their lines with content have the same widths in the same order.  In particular
the tokens stay the same under any number of edits of the lines of a source that
bring in or take out blank lines, write line breaks or indentations in another
way, or change what stands behind an indentation while blank lines stay blank and
lines with content keep some. -/
theorem tokens_of_contentWidths
    {options₁ options₂ : Options}
    (htab₁ : options₁.tabWidth ≠ 0)
    (htab₂ : options₂.tabWidth ≠ 0)
    (source₁ source₂ : List Char) :
    ∃ full₁ full₂,
      traceOf source₁ options₁ = .ok full₁ ∧
      traceOf source₂ options₂ = .ok full₂ ∧
      (contentWidths options₁ source₁ = contentWidths options₂ source₂ →
        full₁.tokens = full₂.tokens) ∧
      (options₁ = options₂ →
        ∀ lines,
          TextLine.Spelled lines →
          source₂ = lines.flatMap TextLine.text →
          Relation.ReflTransGen (TextLine.Edit options₁) (TextLine.split source₁) lines →
          full₁.tokens = full₂.tokens) := by
  have hfull₁ := traceOf_eq htab₁ source₁
  have hfull₂ := traceOf_eq htab₂ source₂
  have htokens
      (hwidths : contentWidths options₁ source₁ = contentWidths options₂ source₂) :
      Trace.tokens (Cursor.start.traceLines options₁ (Line.ofSource source₁)) =
        Trace.tokens (Cursor.start.traceLines options₂ (Line.ofSource source₂)) := by
    rw [tokens_eq_tokensOfWidths htab₁ hfull₁, tokens_eq_tokensOfWidths htab₂ hfull₂, hwidths]
  refine ⟨_, _, hfull₁, hfull₂, htokens, ?_⟩
  rintro rfl lines hspelled rfl hedits
  apply htokens
  rw [TextLine.contentWidths_flatMap_text options₁ hspelled]
  clear hspelled hfull₂ htokens
  induction hedits with
  | refl => rfl
  | tail _ hedit ih => rw [hedit.filterMap_width?, ih]

/-- Other options, other line breaks and other words, and one line that the edit
of a line break joins to a blank one. -/
theorem tokens_of_contentWidths_rewritten :
    ∃ full₁ full₂ full₃,
      traceOf "a\n\tb\n\n  c".toList {} = .ok full₁ ∧
      traceOf "// d\r    e f // g\r\n\t\r\t h".toList ⟨1, false⟩ = .ok full₂ ∧
      traceOf "a\n\tb\r\n  c".toList {} = .ok full₃ ∧
      full₁.tokens = full₂.tokens ∧
      full₁.tokens = full₃.tokens := by
  obtain ⟨full₁, full₂, hfull₁, hfull₂, hwidths, -⟩ :=
    @tokens_of_contentWidths {} ⟨1, false⟩ (by decide) (by decide)
      "a\n\tb\n\n  c".toList "// d\r    e f // g\r\n\t\r\t h".toList
  obtain ⟨full₁', full₃, hfull₁', hfull₃, -, hedits⟩ :=
    @tokens_of_contentWidths {} {} (by decide) (by decide)
      "a\n\tb\n\n  c".toList "a\n\tb\r\n  c".toList
  rw [hfull₁, Except.ok.injEq] at hfull₁'
  subst hfull₁'
  have hspelled :
      TextLine.Spelled
        [⟨['a'], ['\n']⟩, ⟨['\t', 'b'], ['\r']⟩, ⟨[], ['\n']⟩, ⟨[' ', ' ', 'c'], []⟩] :=
    .cons (by simp [Lexeme.isBreak]) (by simp) <|
      .cons (by simp [Lexeme.isBreak]) (by simp) <|
        .cons (by simp) (by simp) <|
          .last _ (by simp [Lexeme.isBreak])
  have hedit :
      TextLine.Edit {} (TextLine.split "a\n\tb\n\n  c".toList)
        [⟨['a'], ['\n']⟩, ⟨['\t', 'b'], ['\r']⟩, ⟨[], ['\n']⟩, ⟨[' ', ' ', 'c'], []⟩] :=
    .rebreak [⟨['a'], ['\n']⟩] [⟨[], ['\n']⟩, ⟨[' ', ' ', 'c'], []⟩] ⟨['\t', 'b'], ['\n']⟩ ['\r']
  refine ⟨full₁, full₂, full₃, hfull₁, hfull₂, hfull₃, hwidths (by decide +kernel), ?_⟩
  exact hedits rfl _ hspelled (by decide +kernel) (.single hedit)

end Layout
end Offside
