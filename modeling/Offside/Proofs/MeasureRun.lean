import Offside.Proofs.Resumption
import Offside.Proofs.TextLines

/-!
# A scan as a run over measures

What a scan finds in a source depends on the measures of its lines alone.  Here
is the run of the layout policy over a list of measures, one for each line and
none for a blank line: the view that it comes to, and the tokens on the way.

A scan of a source is that run over the measures of the written lines.  Each of
its checkpoints holds the view after the lines up to there
(`checkpoint_of_traceOf`), and its tokens are those of the run and then those
that close every open level (`tokens_of_traceOf`).
-/

namespace Offside
namespace StateView

/-- The view after some lines. -/
def after
    (v : StateView)
    (measures : List (Option Layout.Measure)) :
    StateView :=
  measures.foldl (fun v measure => (v.afterLine measure).2) v

/-- The tokens of some lines. -/
def tokensOver
    (v : StateView) :
    List (Option Layout.Measure) → List Layout.Token
  | [] => []
  | measure :: rest => (v.afterLine measure).1 ++ (v.afterLine measure).2.tokensOver rest

@[simp] theorem after_nil (v : StateView) : v.after [] = v := rfl

@[simp] theorem after_cons
    (v : StateView)
    (measure : Option Layout.Measure)
    (rest : List (Option Layout.Measure)) :
    v.after (measure :: rest) = (v.afterLine measure).2.after rest := rfl

theorem after_append
    (v : StateView)
    (first second : List (Option Layout.Measure)) :
    v.after (first ++ second) = (v.after first).after second :=
  List.foldl_append

theorem tokensOver_append
    (v : StateView)
    (first second : List (Option Layout.Measure)) :
    v.tokensOver (first ++ second) =
      v.tokensOver first ++ (v.after first).tokensOver second := by
  induction first generalizing v with
  | nil => rfl
  | cons measure rest ih => simp [tokensOver, ih]

/-- The tokens of some lines, and then those that close every open level. -/
def tokensToEnd
    (v : StateView)
    (measures : List (Option Layout.Measure)) :
    List Layout.Token :=
  v.tokensOver measures ++ List.replicate (v.after measures).levels.length Layout.Token.dedent

theorem tokensToEnd_cons
    (v : StateView)
    (measure : Option Layout.Measure)
    (rest : List (Option Layout.Measure)) :
    v.tokensToEnd (measure :: rest) =
      (v.afterLine measure).1 ++ (v.afterLine measure).2.tokensToEnd rest := by
  simp [tokensToEnd, tokensOver]

theorem tokensToEnd_append
    (v : StateView)
    (first second : List (Option Layout.Measure)) :
    v.tokensToEnd (first ++ second) =
      v.tokensOver first ++ (v.after first).tokensToEnd second := by
  simp [tokensToEnd, tokensOver_append, after_append]

end StateView

namespace Layout

/-- The measures of the lines of a source; a blank line has none. -/
def measuresOf
    (options : Options)
    (source : List Char) :
    List (Option Measure) :=
  (TextLine.split source).map (TextLine.measure? options)

namespace Cursor

theorem view_stop_walk
    (options : Options)
    (c : Cursor)
    (lines : List Line) :
    (c.walk options lines).stop.state.view =
      c.state.view.after (lines.map (Line.measure? options)) := by
  induction lines generalizing c with
  | nil => rfl
  | cons line lines ih =>
      rw [walk, ih, List.map_cons, StateView.after_cons, IndentState.view_afterLine]
      rfl

theorem line_stop_walk
    (options : Options)
    (c : Cursor)
    (lines : List Line) :
    (c.walk options lines).stop.line = c.line + lines.length := by
  induction lines generalizing c with
  | nil => rfl
  | cons line lines ih =>
      rw [walk, ih, List.length_cons, Nat.add_comm lines.length, ← Nat.add_assoc]
      rfl

theorem tokens_walk
    (options : Options)
    (c : Cursor)
    (lines : List Line) :
    (c.walk options lines).events.map Event.token =
      c.state.view.tokensOver (lines.map (Line.measure? options)) := by
  induction lines generalizing c with
  | nil => rfl
  | cons line lines ih =>
      rw [walk, List.map_append, ih, List.map_cons, StateView.tokensOver,
        IndentState.view_afterLine]
      simp [stepLine, step, Function.comp_def]

/-- The tokens of a scan from any place are those of its lines, and then the open
levels are closed. -/
theorem tokens_traceLines
    (options : Options)
    (c : Cursor)
    (lines : List Line) :
    (c.traceLines options lines).tokens =
      c.state.view.tokensToEnd (lines.map (Line.measure? options)) := by
  have hclosing (d : Cursor) :
      d.closing.map Event.token = List.replicate d.state.view.levels.length Token.dedent := by
    rw [closing, List.map_replicate, IndentState.view_levels, IndentState.levels_length]
  rw [Trace.tokens, traceLines, List.map_append, hclosing, tokens_walk, view_stop_walk]
  rfl

/-- A checkpoint of a scan from any place holds what the run over the lines up to it
came to. -/
theorem checkpoint_of_traceLines
    {options : Options}
    {c : Cursor}
    {lines : List Line}
    {index : Nat}
    {checkpoint : Checkpoint}
    (h : (c.traceLines options lines).checkpoints[index]? = some checkpoint) :
    let measures := (lines.map (Line.measure? options)).take (index + 1)
    index < lines.length ∧
    checkpoint.line = c.line + (index + 1) ∧
    checkpoint.offset = c.offset + Utf8.byteLength ((lines.take (index + 1)).flatMap Line.text) ∧
    checkpoint.emitted = c.emitted + (c.state.view.tokensOver measures).length ∧
    ∃ state,
      IndentState.decode checkpoint.state = .ok state ∧
      state.view = c.state.view.after measures := by
  obtain ⟨hindex, rfl⟩ := getElem?_checkpoints_walk h
  obtain ⟨state, hdecode, hview⟩ :=
    IndentState.exists_decode_encode (c.walk options (lines.take (index + 1))).stop.state
  refine ⟨hindex, ?_, offset_stop_walk options c _, ?_, state, hdecode, ?_⟩
  · show (walk _ _ _).stop.line = _
    rw [line_stop_walk, List.length_take, Nat.min_eq_left hindex]
  · show (walk _ _ _).stop.emitted = _
    rw [emitted_stop_walk, ← List.map_take, ← tokens_walk, List.length_map]
  · rw [hview, view_stop_walk, List.map_take]

end Cursor

variable {options : Options} {source : List Char} {full : Trace}

/-- The tokens of a scan are those of its lines, and then the open levels are
closed. -/
theorem tokens_of_traceOf
    (htab : options.tabWidth ≠ 0)
    (hfull : traceOf source options = .ok full) :
    full.tokens = IndentState.initial.view.tokensToEnd (measuresOf options source) := by
  rw [traceOf_eq htab, Except.ok.injEq] at hfull
  subst hfull
  rw [Cursor.tokens_traceLines, Line.map_measure?_ofSource]
  rfl

/-- There is one checkpoint for each line. -/
theorem length_checkpoints_of_traceOf
    (htab : options.tabWidth ≠ 0)
    (hfull : traceOf source options = .ok full) :
    full.checkpoints.length = (TextLine.split source).length := by
  rw [traceOf_eq htab, Except.ok.injEq] at hfull
  subst hfull
  rw [Cursor.traceLines, Cursor.length_checkpoints_walk, Line.ofSource_eq, List.length_map]

/-- A checkpoint of a scan holds what the run over the lines up to it came to. -/
theorem checkpoint_of_traceOf
    (htab : options.tabWidth ≠ 0)
    (hfull : traceOf source options = .ok full)
    {index : Nat}
    {checkpoint : Checkpoint}
    (hcheckpoint : full.checkpoints[index]? = some checkpoint) :
    checkpoint.line = index + 1 ∧
    checkpoint.offset =
      Utf8.byteLength (((TextLine.split source).take (index + 1)).flatMap TextLine.text) ∧
    checkpoint.emitted =
      (IndentState.initial.view.tokensOver
        ((measuresOf options source).take (index + 1))).length ∧
    ∃ state,
      IndentState.decode checkpoint.state = .ok state ∧
      state.view =
        IndentState.initial.view.after ((measuresOf options source).take (index + 1)) := by
  rw [traceOf_eq htab, Except.ok.injEq] at hfull
  subst hfull
  obtain ⟨-, hline, hoffset, hemitted, state, hdecode, hview⟩ :=
    Cursor.checkpoint_of_traceLines hcheckpoint
  rw [Line.map_measure?_ofSource] at hemitted hview
  refine ⟨hline.trans (Nat.zero_add _), ?_, hemitted.trans (Nat.zero_add _), state, hdecode, hview⟩
  rw [hoffset, Line.ofSource_eq, ← List.map_take, List.flatMap_map]
  simp only [Line.text_ofText]
  exact Nat.zero_add _

end Layout
end Offside
