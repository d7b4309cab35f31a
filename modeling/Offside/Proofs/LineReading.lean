import Mathlib.Data.List.DropRight
import Offside.Proofs.MeasureRun
import Offside.Proofs.TabStops

/-!
# What a scan remembers of the lines

The three numbers that are kept between lines have a plain meaning, which takes
no lexeme to say: how many blank lines came since the last line with content,
how wide the blanks at the start of that line are, and at which column its last
word or its comment starts.  All three stop at the greatest signed word.

One line keeps them right (`Remembers.afterLine`), so they are right after any
number of lines (`remembers_after`), and a checkpoint holds what is right after
the lines up to it (`checkpoints_of_lines`).
-/

namespace Offside
namespace Layout

/-- The last of some lines that is not blank. -/
def lastContent?
    (commentsAreBlank : Bool)
    (lines : List TextLine) :
    Option TextLine :=
  (lines.filter fun line => !line.isBlank commentsAreBlank).getLast?

/-- How a measure is remembered: it stops at the greatest signed word, and minus
one stands for no measure. -/
def rememberedAs : Option Nat → Int
  | none => -1
  | some n => min n 2147483647

/-- Whether the numbers of a view are those of the lines before it. -/
structure Remembers
    (options : Options)
    (lines : List TextLine)
    (v : StateView) :
    Prop where
  blankRun :
    v.blankRun.toInt =
      min ((lines.rtakeWhile (TextLine.isBlank options.commentsAreBlank)).length : Int) 2147483647
  lastWidth :
    v.lastWidth.toInt =
      rememberedAs
        ((lastContent? options.commentsAreBlank lines).map fun line =>
          Columns.expanded options.tabWidth.toNat line.indentation)
  lastColumn :
    v.lastColumn.toInt =
      rememberedAs
        ((lastContent? options.commentsAreBlank lines).bind fun line =>
          (line.beforeLastContent? options.commentsAreBlank).map
            (Columns.expanded options.tabWidth.toNat))

namespace Remembers

variable {options : Options} {lines : List TextLine} {v : StateView}

theorem initial (options : Options) : Remembers options [] IndentState.initial.view :=
  ⟨rfl, rfl, rfl⟩

/-- A blank line counts as one more, and leaves the measures alone. -/
theorem afterBlank
    (h : Remembers options lines v)
    {line : TextLine}
    (hline : line.isBlank options.commentsAreBlank = true) :
    Remembers options (lines ++ [line]) (v.afterLine none).2 := by
  have hlast :
      lastContent? options.commentsAreBlank (lines ++ [line]) =
        lastContent? options.commentsAreBlank lines := by
    simp [lastContent?, hline]
  refine ⟨?_, ?_, ?_⟩
  · rw [List.rtakeWhile_concat_pos _ _ _ hline, List.length_append]
    exact Columns.toInt_increment h.blankRun
  · rw [hlast]
    exact h.lastWidth
  · rw [hlast]
    exact h.lastColumn

/-- A line with content starts the count anew, and is measured. -/
theorem afterContent
    (htab : options.tabWidth ≠ 0)
    (lines : List TextLine)
    (v : StateView)
    {line : TextLine}
    {before : List Char}
    (hline : line.isBlank options.commentsAreBlank = false)
    (hbefore : line.beforeLastContent? options.commentsAreBlank = some before) :
    Remembers options (lines ++ [line])
      (v.afterLine
        (some
          ⟨Columns.width options.tabWidth line.indentation,
            Columns.width options.tabWidth before⟩)).2 := by
  have hlast : lastContent? options.commentsAreBlank (lines ++ [line]) = some line := by
    simp [lastContent?, hline]
  refine ⟨?_, ?_, ?_⟩
  · rw [List.rtakeWhile_concat_neg _ _ _ (by simp [hline])]
    rfl
  · rw [hlast]
    exact Columns.toInt_remembered_width htab line.indentation
  · rw [hlast, Option.bind_some, hbefore]
    exact Columns.toInt_remembered_width htab before

/-- One line keeps the numbers right. -/
theorem afterLine
    (htab : options.tabWidth ≠ 0)
    (h : Remembers options lines v)
    (line : TextLine) :
    Remembers options (lines ++ [line]) (v.afterLine (line.measure? options)).2 := by
  have hblank := line.beforeLastContent?_eq_none_iff options.commentsAreBlank
  rw [TextLine.measure?]
  cases hbefore : line.beforeLastContent? options.commentsAreBlank with
  | none => exact h.afterBlank (hblank.1 hbefore)
  | some before =>
      refine afterContent htab lines v ?_ hbefore
      rw [← Bool.not_eq_true, ← hblank, hbefore]
      simp

end Remembers

/-- So do any number of lines. -/
theorem remembers_after
    {options : Options}
    (htab : options.tabWidth ≠ 0)
    (lines : List TextLine) :
    Remembers options lines
      (IndentState.initial.view.after (lines.map (TextLine.measure? options))) := by
  induction lines using List.reverseRecOn with
  | nil => exact Remembers.initial options
  | append_singleton lines line ih =>
      rw [List.map_append, StateView.after_append]
      exact ih.afterLine htab line

/-- A scan records one checkpoint for each line of its source, in order and with
the number of the line, at the byte where the line ends.  Its bytes spell a state
that remembers the lines up to there: the blank lines since the last line with
content, the width of the blanks at the start of that line, and the column at
which its last word or its comment starts. -/
theorem checkpoints_of_lines
    {options : Options}
    (htab : options.tabWidth ≠ 0)
    (source : List Char) :
    ∃ full,
      traceOf source options = .ok full ∧
      full.checkpoints.length = (TextLine.split source).length ∧
      ∀ (index : Nat) (checkpoint : Checkpoint),
        full.checkpoints[index]? = some checkpoint →
        let lines := (TextLine.split source).take (index + 1)
        checkpoint.line = index + 1 ∧
        checkpoint.offset = Utf8.byteLength (lines.flatMap TextLine.text) ∧
        ∃ state,
          IndentState.decode checkpoint.state = .ok state ∧
          Remembers options lines state.view := by
  have hfull := traceOf_eq htab source
  refine ⟨_, hfull, length_checkpoints_of_traceOf htab hfull, ?_⟩
  intro index checkpoint hcheckpoint
  obtain ⟨hline, hoffset, -, state, hdecode, hview⟩ :=
    checkpoint_of_traceOf htab hfull hcheckpoint
  refine ⟨hline, hoffset, state, hdecode, ?_⟩
  rw [hview, measuresOf, ← List.map_take]
  exact remembers_after htab _

/-- Three kinds of line breaks, a tab behind a space, and a comment behind the
last word. -/
theorem checkpoints_of_lines_mixed :
    ∃ full checkpoint state,
      traceOf "a\r \tfoo bar // c\r\n\n// d".toList {} = .ok full ∧
      full.checkpoints.length = 4 ∧
      full.checkpoints[3]? = some checkpoint ∧
      checkpoint.line = 4 ∧
      checkpoint.offset = 23 ∧
      IndentState.decode checkpoint.state = .ok state ∧
      state.blankRun.toInt = 2 ∧
      state.lastWidth.toInt = 4 ∧
      state.lastColumn.toInt = 8 := by
  obtain ⟨full, hfull, hlength, hcheckpoints⟩ :=
    @checkpoints_of_lines {} (by decide) "a\r \tfoo bar // c\r\n\n// d".toList
  have hfour : full.checkpoints.length = 4 := hlength.trans (by decide +kernel)
  have hindex : 3 < full.checkpoints.length := by omega
  obtain ⟨hline, hoffset, state, hdecode, hremembers⟩ :=
    hcheckpoints 3 _ (List.getElem?_eq_getElem hindex)
  refine
    ⟨full, _, state, hfull, hfour, List.getElem?_eq_getElem hindex, hline,
      hoffset.trans (by decide +kernel), hdecode, ?_, ?_, ?_⟩
  · exact hremembers.blankRun.trans (by decide +kernel)
  · exact hremembers.lastWidth.trans (by decide +kernel)
  · exact hremembers.lastColumn.trans (by decide +kernel)

end Layout
end Offside
