import Offside.Layout.Scan
import Offside.Line
import Offside.Proofs.ByteBoundary

/-!
# Scanning line by line

A scan never sees lines: it collects lexemes until a line break comes, and it
measures by cutting pieces out of the source at absolute positions.  Here a scan
walks over the lines of a text instead and measures each line by its own
characters.

`Scan.trace_eq_traceLines` says that both give the same trace, wherever in a
source the scan stands.  A walk over some lines is a walk over the first of them
and then, from where that one stops, over the others (`Cursor.walk_append`).
-/

namespace Offside
namespace Line

/-- The measure of a line, taken from the line alone. -/
def measure?
    (options : Layout.Options)
    (line : Line) :
    Option Layout.Measure :=
  (line.beforeLastContent? options.commentsAreBlank).map fun before =>
    ⟨Layout.Columns.width options.tabWidth line.indentation,
      Layout.Columns.width options.tabWidth before⟩

/-- What stands before the last of some lexemes stands at their front. -/
theorem exists_append_of_beforeLast?
    {p : Lexeme → Bool}
    {ts : List Lexeme}
    {before : List Char}
    (h : beforeLast? p ts = some before) :
    ∃ rest, ts.flatMap Lexeme.text = before ++ rest := by
  induction ts generalizing before with
  | nil => cases h
  | cons t ts ih =>
      rw [beforeLast?] at h
      cases hts : beforeLast? p ts with
      | none =>
          rw [hts] at h
          by_cases hp : p t = true
          · simp only [hp, if_true, Option.some.injEq] at h
            exact ⟨_, by rw [← h, List.nil_append]⟩
          · simp [hp] at h
      | some inner =>
          rw [hts] at h
          obtain ⟨rest, hrest⟩ := ih hts
          cases h
          exact ⟨rest, by rw [List.flatMap_cons, hrest, List.append_assoc]⟩

/-- Lexemes without a line break are one line. -/
theorem ofLexemes_body
    {body : List Lexeme}
    (hbody : ∀ t ∈ body, t.kind ≠ .newline)
    (hne : body ≠ []) :
    ofLexemes body = [⟨body, []⟩] := by
  induction body with
  | nil => exact absurd rfl hne
  | cons t body ih =>
      have ht := hbody t (List.mem_cons_self)
      rw [ofLexemes, if_neg ht]
      by_cases hnil : body = []
      · subst hnil
        rfl
      · rw [ih (fun u hu => hbody u (List.mem_cons_of_mem t hu)) hnil]
        rfl

/-- A line ends with its line break. -/
theorem ofLexemes_body_newline
    {body : List Lexeme}
    {t : Lexeme}
    (hbody : ∀ u ∈ body, u.kind ≠ .newline)
    (ht : t.kind = .newline)
    (rest : List Lexeme) :
    ofLexemes (body ++ t :: rest) = ⟨body, t.text⟩ :: ofLexemes rest := by
  induction body with
  | nil => rw [List.nil_append, ofLexemes, if_pos ht]
  | cons u body ih =>
      have hu := hbody u (List.mem_cons_self)
      rw [List.cons_append, ofLexemes, if_neg hu,
        ih fun v hv => hbody v (List.mem_cons_of_mem u hv)]
      rfl

end Line

namespace PlacedLexeme

theorem ofLexemes_append
    (start : Nat)
    (ts us : List Lexeme) :
    ofLexemes start (ts ++ us) =
      ofLexemes start ts ++
        ofLexemes (start + Utf8.byteLength (ts.flatMap Lexeme.text)) us := by
  induction ts generalizing start with
  | nil => rfl
  | cons t ts ih =>
      rw [List.cons_append, ofLexemes, ih, ofLexemes, List.flatMap_cons, Utf8.byteLength_append,
        Nat.add_assoc]
      rfl

theorem ofLexemes_eq_nil_iff
    (start : Nat)
    (ts : List Lexeme) :
    ofLexemes start ts = [] ↔ ts = [] := by
  cases ts <;> simp [ofLexemes]

/-- The last lexeme with a property starts behind what stands before it. -/
theorem start_of_find?_reverse
    (p : LexemeKind → Bool)
    (start : Nat)
    (ts : List Lexeme) :
    ((ofLexemes start ts).reverse.find? fun t => p t.kind).map PlacedLexeme.start =
      (Line.beforeLast? (fun t => p t.kind) ts).map fun before =>
        start + Utf8.byteLength before := by
  induction ts generalizing start with
  | nil => rfl
  | cons t ts ih =>
      have ih' := ih (start + Utf8.byteLength t.text)
      rw [ofLexemes, List.reverse_cons, List.find?_append, Line.beforeLast?]
      cases hts : Line.beforeLast? (fun t => p t.kind) ts with
      | none =>
          rw [hts, Option.map_none, Option.map_eq_none_iff] at ih'
          rw [ih', Option.none_or]
          by_cases ht : p t.kind = true <;> simp [ht]
      | some before =>
          rw [hts, Option.map_some, Option.map_eq_some_iff] at ih'
          obtain ⟨last, hlast, hstart⟩ := ih'
          rw [hlast, Option.some_or, Option.map_some, Option.map_some, hstart,
            Utf8.byteLength_append, Nat.add_assoc]

end PlacedLexeme

namespace Layout

/-- A piece of a source that lies behind some text is as wide as its characters. -/
theorem between_append
    (tabWidth : UInt32)
    (before part after : List Char) :
    Columns.between tabWidth (before ++ (part ++ after)) (Utf8.byteLength before)
        (Utf8.byteLength before + Utf8.byteLength part) =
      Columns.width tabWidth part := by
  rw [Columns.between, Utf8.slice?_append]
  rfl

theorem indentWidth_ofLexemes
    (tabWidth : UInt32)
    (before : List Char)
    (line : Line)
    (after : List Char) :
    indentWidth tabWidth (before ++ (line.body.flatMap Lexeme.text ++ after))
        (PlacedLexeme.ofLexemes (Utf8.byteLength before) line.body) =
      Columns.width tabWidth line.indentation := by
  obtain ⟨body, ending⟩ := line
  cases body with
  | nil => rfl
  | cons t rest =>
      obtain ⟨kind, text⟩ := t
      cases kind with
      | whitespace =>
          rw [List.flatMap_cons, List.append_assoc]
          exact between_append tabWidth before text _
      | newline => rfl
      | comment => rfl
      | word => rfl

/-- Measuring a line in the source comes to measuring it alone. -/
theorem measure?_ofLexemes
    (options : Options)
    (before : List Char)
    (line : Line)
    (after : List Char) :
    measure? (before ++ (line.body.flatMap Lexeme.text ++ after)) options
        (Utf8.byteLength before)
        (PlacedLexeme.ofLexemes (Utf8.byteLength before) line.body) =
      line.measure? options := by
  have hfind :=
    PlacedLexeme.start_of_find?_reverse
      (fun kind => kind.isContent options.commentsAreBlank) (Utf8.byteLength before) line.body
  rw [measure?, indentWidth_ofLexemes, Line.measure?, Line.beforeLastContent?]
  cases hlast :
      Line.beforeLast? (fun t => t.kind.isContent options.commentsAreBlank) line.body with
  | none =>
      rw [hlast, Option.map_none, Option.map_eq_none_iff] at hfind
      rw [hfind]
      rfl
  | some inner =>
      rw [hlast, Option.map_some, Option.map_eq_some_iff] at hfind
      obtain ⟨last, hlast', hstart⟩ := hfind
      obtain ⟨rest, hrest⟩ := Line.exists_append_of_beforeLast? hlast
      rw [hlast', Option.map_some, Option.map_some, hstart, hrest, List.append_assoc,
        between_append]

/-- What a scan leaves behind on its way over some lines, and where it stops. -/
structure Walk where
  events : List Event
  checkpoints : List Checkpoint
  stop : Cursor

namespace Cursor

/-- The events of a line, and where the scan stands after it. -/
def stepLine
    (options : Options)
    (c : Cursor)
    (line : Line) :
    List Event × Cursor :=
  c.step (line.measure? options) (c.offset + Utf8.byteLength line.text)

/-- The way over some lines. -/
def walk
    (options : Options)
    (c : Cursor) :
    List Line → Walk
  | [] => ⟨[], [], c⟩
  | line :: rest =>
      let next := c.stepLine options line
      let walked := next.2.walk options rest
      ⟨next.1 ++ walked.events, next.2.checkpoint :: walked.checkpoints, walked.stop⟩

/-- The trace of the lines that follow. -/
def traceLines
    (options : Options)
    (c : Cursor)
    (lines : List Line) :
    Trace :=
  let walked := c.walk options lines
  ⟨walked.events ++ walked.stop.closing, walked.checkpoints⟩

theorem traceLines_cons
    (options : Options)
    (c : Cursor)
    (line : Line)
    (rest : List Line) :
    c.traceLines options (line :: rest) =
      ⟨(c.stepLine options line).1 ++
          ((c.stepLine options line).2.traceLines options rest).events,
        (c.stepLine options line).2.checkpoint ::
          ((c.stepLine options line).2.traceLines options rest).checkpoints⟩ := by
  simp [traceLines, walk]

/-- Going through the lexemes of a source, some of which are already collected,
is going over the lines that they form. -/
theorem traceLexemes_eq_traceLines
    (options : Options)
    (source before : List Char)
    (c : Cursor)
    (body ts : List Lexeme)
    (hsource :
      source = before ++ (body.flatMap Lexeme.text ++ ts.flatMap Lexeme.text))
    (hoffset : c.offset = Utf8.byteLength before)
    (hbody : ∀ t ∈ body, t.kind ≠ .newline) :
    c.traceLexemes source options (PlacedLexeme.ofLexemes c.offset body)
        (PlacedLexeme.ofLexemes
          (c.offset + Utf8.byteLength (body.flatMap Lexeme.text)) ts) =
      c.traceLines options (Line.ofLexemes (body ++ ts)) := by
  induction ts generalizing before c body with
  | nil =>
      rw [PlacedLexeme.ofLexemes, traceLexemes, List.append_nil]
      by_cases hnil : body = []
      · subst hnil
        rfl
      · have hmeasure :
            measure? source options c.offset (PlacedLexeme.ofLexemes c.offset body) =
              Line.measure? options ⟨body, []⟩ := by
          rw [hsource, hoffset]
          exact measure?_ofLexemes options before ⟨body, []⟩ []
        have hend :
            Utf8.byteLength source = c.offset + Utf8.byteLength (Line.text ⟨body, []⟩) := by
          rw [hsource, Utf8.byteLength_append, hoffset]
          rfl
        have hne : (PlacedLexeme.ofLexemes c.offset body).isEmpty = false := by
          rw [List.isEmpty_eq_false_iff, Ne, PlacedLexeme.ofLexemes_eq_nil_iff]
          exact hnil
        rw [hne, hmeasure, hend, Line.ofLexemes_body hbody hnil, traceLines_cons]
        rfl
  | cons t rest ih =>
      have hstop :
          c.offset + Utf8.byteLength (body.flatMap Lexeme.text) + Utf8.byteLength t.text =
            c.offset + Utf8.byteLength (body.flatMap Lexeme.text ++ t.text) := by
        rw [Utf8.byteLength_append, Nat.add_assoc]
      rw [PlacedLexeme.ofLexemes, traceLexemes, hstop]
      by_cases hkind : t.kind = .newline
      · -- the line is complete, and the next one starts with nothing collected
        have hmeasure :
            measure? source options c.offset (PlacedLexeme.ofLexemes c.offset body) =
              Line.measure? options ⟨body, t.text⟩ := by
          rw [hsource, hoffset]
          exact measure?_ofLexemes options before ⟨body, t.text⟩ ((t :: rest).flatMap Lexeme.text)
        have hnext :=
          ih (before ++ (body.flatMap Lexeme.text ++ t.text))
            (c.stepLine options ⟨body, t.text⟩).2 []
            (by rw [hsource]; simp)
            (by rw [Utf8.byteLength_append, ← hoffset]; rfl)
            (by simp)
        rw [if_pos hkind, hmeasure, Line.ofLexemes_body_newline hbody hkind, traceLines_cons]
        rw [List.nil_append] at hnext
        rw [← hnext]
        rfl
      · -- the lexeme joins those of the line under way
        have hnext :=
          ih before c (body ++ [t])
            (by rw [hsource]; simp)
            hoffset
            (by
              intro u hu
              rcases List.mem_append.1 hu with hu | hu
              · exact hbody u hu
              · rwa [List.mem_singleton.1 hu])
        rw [if_neg hkind]
        rw [PlacedLexeme.ofLexemes_append, List.flatMap_append, List.append_assoc] at hnext
        simpa [PlacedLexeme.ofLexemes, hstop] using hnext

/-- A walk goes over the first lines, and from where it stops over the others. -/
theorem walk_append
    (options : Options)
    (c : Cursor)
    (front back : List Line) :
    c.walk options (front ++ back) =
      ⟨(c.walk options front).events ++
          ((c.walk options front).stop.walk options back).events,
        (c.walk options front).checkpoints ++
          ((c.walk options front).stop.walk options back).checkpoints,
        ((c.walk options front).stop.walk options back).stop⟩ := by
  induction front generalizing c with
  | nil => rfl
  | cons line front ih => simp [walk, ih]

theorem traceLines_append
    (options : Options)
    (c : Cursor)
    (front back : List Line) :
    c.traceLines options (front ++ back) =
      ⟨(c.walk options front).events ++
          ((c.walk options front).stop.traceLines options back).events,
        (c.walk options front).checkpoints ++
          ((c.walk options front).stop.traceLines options back).checkpoints⟩ := by
  simp [traceLines, walk_append]

theorem offset_stop_walk
    (options : Options)
    (c : Cursor)
    (lines : List Line) :
    (c.walk options lines).stop.offset =
      c.offset + Utf8.byteLength (lines.flatMap Line.text) := by
  induction lines generalizing c with
  | nil => rfl
  | cons line lines ih =>
      rw [walk, ih, List.flatMap_cons, Utf8.byteLength_append, ← Nat.add_assoc]
      rfl

theorem emitted_stop_walk
    (options : Options)
    (c : Cursor)
    (lines : List Line) :
    (c.walk options lines).stop.emitted =
      c.emitted + (c.walk options lines).events.length := by
  induction lines generalizing c with
  | nil => rfl
  | cons line lines ih =>
      rw [walk, ih, List.length_append, ← Nat.add_assoc]
      simp [stepLine, step]

theorem length_checkpoints_walk
    (options : Options)
    (c : Cursor)
    (lines : List Line) :
    (c.walk options lines).checkpoints.length = lines.length := by
  induction lines generalizing c with
  | nil => rfl
  | cons line lines ih => simp [walk, ih]

/-- The checkpoint of a line is recorded where the walk over the lines up to it
stops. -/
theorem getElem?_checkpoints_walk
    {options : Options}
    {c : Cursor}
    {lines : List Line}
    {index : Nat}
    {checkpoint : Checkpoint}
    (h : (c.walk options lines).checkpoints[index]? = some checkpoint) :
    index < lines.length ∧
      checkpoint = (c.walk options (lines.take (index + 1))).stop.checkpoint := by
  induction lines generalizing c index with
  | nil => simp [walk] at h
  | cons line lines ih =>
      cases index with
      | zero =>
          rw [walk, List.getElem?_cons_zero, Option.some.injEq] at h
          exact ⟨by simp, h.symm⟩
      | succ index =>
          rw [walk, List.getElem?_cons_succ] at h
          obtain ⟨hlt, hcheckpoint⟩ := ih h
          exact ⟨by simpa using hlt, hcheckpoint⟩

end Cursor

namespace Scan

/-- Where a scan stands behind some text, the rest is the text behind that. -/
theorem rest_eq
    {scan : Scan}
    {before after : List Char}
    (hsource : scan.source = before ++ after)
    (hoffset : scan.cursor.offset = Utf8.byteLength before) :
    scan.rest = after := by
  rw [rest, hoffset, hsource, Utf8.dropBytes?_append]
  rfl

/-- A scan goes over the lines of the text behind the place where it stands. -/
theorem trace_eq_traceLines
    {scan : Scan}
    {before after : List Char}
    (hsource : scan.source = before ++ after)
    (hoffset : scan.cursor.offset = Utf8.byteLength before) :
    scan.trace = scan.cursor.traceLines scan.options (Line.ofSource after) := by
  have hrest := rest_eq hsource hoffset
  have hplaced :
      (PlacedLexeme.ofSource after).map (PlacedLexeme.shift scan.cursor.offset) =
        PlacedLexeme.ofLexemes scan.cursor.offset (Lexeme.lex after) :=
    PlacedLexeme.map_shift_ofLexemes scan.cursor.offset 0 (Lexeme.lex after)
  have hlexemes :=
    Cursor.traceLexemes_eq_traceLines scan.options scan.source before scan.cursor
      [] (Lexeme.lex after)
      (by rw [hsource, Lexeme.flatMap_text_lex]; rfl)
      hoffset
      (by simp)
  rw [trace, hrest, hplaced]
  exact hlexemes

end Scan
end Layout
end Offside
