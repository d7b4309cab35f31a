import Offside.Proofs.LineTrace

/-!
# Scans that count in words

The trace of a scan is put together from the back: the events of a line stand before those
of the lines that follow, and its numbers are as great as they need to be.  Here a scan is
seen under way.  It keeps what it has found so far, tells one event after another, counts
lines and events in words of 64 bits, and places each lexeme in the source as it comes to
it.  It gives up at the first count that is no word, and at the first position that lies
behind the end of the source, whose length is a word itself.  The open levels need no such
care, since a state has room for a fixed number of them.

`Scan.checkedTrace?_eq` says when it comes to the end, with the trace of the scan: when the
number of the last line is a word, and the number of all events is one.
-/

namespace Offside
namespace Layout

/-- The sum of two counts, unless it is no word. -/
def wordSum? (a b : Nat) : Option Nat :=
  if a + b < UInt64.size then some (a + b) else none

/-- The position so many bytes behind another one, unless the source ends before it. -/
def position?
    (source : List Char)
    (base distance : Nat) :
    Option Nat :=
  if base + distance ≤ Utf8.byteLength source then some (base + distance) else none

/-- A lexeme of the text behind a position, placed in the source. -/
def place?
    (source : List Char)
    (base : Nat)
    (t : PlacedLexeme) :
    Option PlacedLexeme := do
  let start ← position? source base t.start
  let stop ← position? source base t.stop
  return ⟨t.kind, start, stop⟩

/-- A scan under way, with what it has found so far. -/
structure Recorder where
  state : IndentState
  line : Nat
  offset : Nat
  /-- Number of events before the scan was taken up. -/
  before : Nat
  events : List Event
  checkpoints : List Checkpoint

namespace Recorder

/-- A scan that is about to start, or to be taken up. -/
def ofCursor (c : Cursor) : Recorder :=
  ⟨c.state, c.line, c.offset, c.emitted, [], []⟩

/-- Where a scan under way stands. -/
def cursor (r : Recorder) : Cursor :=
  ⟨r.state, r.line, r.offset, r.before + r.events.length⟩

def trace (r : Recorder) : Trace :=
  ⟨r.events, r.checkpoints⟩

/-- The same scan with some more events. -/
def withEvents
    (r : Recorder)
    (events : List Event) :
    Recorder :=
  { r with events := r.events ++ events }

/-- Tells one event. -/
def emit?
    (r : Recorder)
    (token : Token) :
    Option Recorder :=
  (wordSum? r.events.length 1).map fun _ => r.withEvents [⟨r.line, token⟩]

/-- Tells the events of a line and records its checkpoint. -/
def finishLine?
    (source : List Char)
    (options : Options)
    (r : Recorder)
    (line : List PlacedLexeme)
    (next : Nat) :
    Option Recorder := do
  let number ← wordSum? r.line 1
  let result := r.state.afterLine (measure? source options r.offset line)
  let told ← result.1.foldlM emit? { r with state := result.2, line := number }
  let emitted ← wordSum? told.before told.events.length
  return { told with
    offset := next
    checkpoints := told.checkpoints ++ [⟨number, next, emitted, told.state.encode⟩] }

/-- Tells the events that close every open level. -/
def close? (r : Recorder) : Option Recorder :=
  (List.replicate r.state.depth .dedent).foldlM emit? r

/-- Goes through the lexemes behind a position that follow those of the line under way. -/
def run?
    (source : List Char)
    (options : Options)
    (base : Nat)
    (r : Recorder)
    (line : List PlacedLexeme) :
    List PlacedLexeme → Option Recorder
  | [] =>
      if line.isEmpty then
        r.close?
      else
        (r.finishLine? source options line (Utf8.byteLength source)).bind close?
  | t :: rest =>
      (place? source base t).bind fun placed =>
        if placed.kind = .newline then
          (r.finishLine? source options line placed.stop).bind fun next =>
            next.run? source options base [] rest
        else
          r.run? source options base (line ++ [placed]) rest

/-- What a line adds to a scan under way, when nothing gives up. -/
def step
    (r : Recorder)
    (measure : Option Measure)
    (next : Nat) :
    Recorder :=
  let found := r.cursor.step measure next
  { state := found.2.state
    line := found.2.line
    offset := found.2.offset
    before := r.before
    events := r.events ++ found.1
    checkpoints := r.checkpoints ++ [found.2.checkpoint] }

end Recorder

/-- The trace of a scan that counts in words. -/
def Scan.checkedTrace? (scan : Scan) : Option Trace :=
  ((Recorder.ofCursor scan.cursor).run? scan.source scan.options scan.cursor.offset []
    (PlacedLexeme.ofSource scan.rest)).map Recorder.trace

theorem wordSum?_of_lt
    {a b : Nat}
    (h : a + b < UInt64.size) :
    wordSum? a b = some (a + b) :=
  if_pos h

/-- A lexeme that ends in the source can be placed there. -/
theorem place?_eq_shift
    {source : List Char}
    {base : Nat}
    {t : PlacedLexeme}
    (horder : t.start ≤ t.stop)
    (hstop : base + t.stop ≤ Utf8.byteLength source) :
    place? source base t = some (t.shift base) := by
  have hstart : base + t.start ≤ Utf8.byteLength source := by omega
  rw [place?, position?, if_pos hstart, position?, if_pos hstop]
  rfl

namespace Recorder

variable {r : Recorder}

theorem length_withEvents
    (r : Recorder)
    (events : List Event) :
    (r.withEvents events).events.length = r.events.length + events.length :=
  List.length_append

theorem withEvents_withEvents
    (r : Recorder)
    (first second : List Event) :
    (r.withEvents first).withEvents second = r.withEvents (first ++ second) := by
  simp [withEvents]

/-- Events are told one after another as long as their number stays a word. -/
theorem foldlM_emit?
    {tokens : List Token}
    (h : r.events.length + tokens.length < UInt64.size) :
    tokens.foldlM emit? r = some (r.withEvents (tokens.map (Event.mk r.line))) := by
  induction tokens generalizing r with
  | nil =>
      rw [List.map_nil, withEvents, List.append_nil]
      rfl
  | cons token tokens ih =>
      rw [List.length_cons] at h
      have hone : r.emit? token = some (r.withEvents [⟨r.line, token⟩]) := by
        rw [emit?, wordSum?_of_lt (by omega), Option.map_some]
      have hrest :
          (r.withEvents [⟨r.line, token⟩]).events.length + tokens.length < UInt64.size := by
        rw [length_withEvents, List.length_singleton]
        omega
      rw [List.foldlM_cons, hone, Option.bind_eq_bind, Option.bind_some, ih hrest,
        withEvents_withEvents]
      rfl

/-- So are those that close the open levels at the end of a source. -/
theorem close?_eq
    (h : r.events.length + r.cursor.closing.length < UInt64.size) :
    r.close? = some (r.withEvents r.cursor.closing) := by
  have hlength : r.cursor.closing.length = r.state.depth := List.length_replicate
  rw [close?, foldlM_emit?, List.map_replicate]
  · rfl
  · rwa [List.length_replicate, ← hlength]

/-- A line is finished when its number and the count of events stay words. -/
theorem finishLine?_eq_step
    {source : List Char}
    {options : Options}
    {line : List PlacedLexeme}
    {measure : Option Measure}
    {next : Nat}
    (hmeasure : measure? source options r.cursor.offset line = measure)
    (hline : r.line + 1 < UInt64.size)
    (hevents :
      r.before + (r.events.length + (r.cursor.step measure next).1.length) < UInt64.size) :
    r.finishLine? source options line next = some (r.step measure next) := by
  have hcount :
      (r.cursor.step measure next).1.length = (r.state.afterLine measure).1.length :=
    List.length_map _
  rw [hcount] at hevents
  have htold :=
    @foldlM_emit? { r with state := (r.state.afterLine measure).2, line := r.line + 1 }
      (r.state.afterLine measure).1 (by show r.events.length + _ < _; omega)
  have hemitted :
      wordSum? r.before
          (r.events ++ (r.state.afterLine measure).1.map (Event.mk (r.line + 1))).length =
        some (r.before + r.events.length + (r.state.afterLine measure).1.length) := by
    rw [List.length_append, List.length_map, wordSum?_of_lt hevents, Nat.add_assoc]
  rw [cursor] at hmeasure
  rw [finishLine?, wordSum?_of_lt hline, Option.bind_eq_bind, Option.bind_some, hmeasure]
  dsimp only
  rw [htold, Option.bind_eq_bind, Option.bind_some]
  dsimp only [withEvents]
  rw [hemitted]
  rfl

theorem length_events_step
    (r : Recorder)
    (measure : Option Measure)
    (next : Nat) :
    (r.step measure next).events.length =
      r.events.length + (r.cursor.step measure next).1.length :=
  List.length_append

/-- Behind a line the scan under way stands where the scan does. -/
theorem cursor_step
    (r : Recorder)
    (measure : Option Measure)
    (next : Nat) :
    (r.step measure next).cursor = (r.cursor.step measure next).2 := by
  simp [step, cursor, Cursor.step, Nat.add_assoc]

theorem checkpoints_step
    (r : Recorder)
    (measure : Option Measure)
    (next : Nat) :
    (r.step measure next).checkpoints =
      r.checkpoints ++ [(r.step measure next).cursor.checkpoint] := by
  rw [cursor_step]
  rfl

/-- A scan under way finds behind its events and checkpoints those of the trace from where
it stands, as long as the number of its line and the count of its events are words and all
lexemes end in the source. -/
theorem map_trace_run?
    {source : List Char}
    {options : Options}
    {base : Nat}
    {line lexemes : List PlacedLexeme}
    {found : Trace}
    (hfound :
      r.cursor.traceLexemes source options line (lexemes.map (PlacedLexeme.shift base)) = found)
    (hplaces :
      ∀ t ∈ lexemes, t.start ≤ t.stop ∧ base + t.stop ≤ Utf8.byteLength source)
    (hlines : r.line + found.checkpoints.length < UInt64.size)
    (hevents : r.before + (r.events.length + found.events.length) < UInt64.size) :
    (r.run? source options base line lexemes).map trace =
      some ⟨r.events ++ found.events, r.checkpoints ++ found.checkpoints⟩ := by
  induction lexemes generalizing r line found with
  | nil =>
      rw [List.map_nil, Cursor.traceLexemes] at hfound
      rw [run?]
      by_cases hline : line.isEmpty = true
      · rw [if_pos hline] at hfound ⊢
        subst hfound
        rw [close?_eq (by dsimp only at hevents; omega), Option.map_some, List.append_nil]
        rfl
      · -- the lexemes collected so far are the last line, and then the levels are closed
        rw [if_neg hline] at hfound ⊢
        subst hfound
        dsimp only at hevents ⊢
        rw [List.length_append, ← cursor_step] at hevents
        rw [← cursor_step, finishLine?_eq_step rfl hlines (by omega), Option.bind_some,
          close?_eq (by rw [length_events_step]; omega), Option.map_some, ← List.append_assoc,
          ← checkpoints_step]
        rfl
  | cons t rest ih =>
      obtain ⟨horder, hstop⟩ := hplaces t List.mem_cons_self
      have hrest := fun u hu => hplaces u (List.mem_cons_of_mem t hu)
      rw [List.map_cons, Cursor.traceLexemes] at hfound
      rw [run?, place?_eq_shift horder hstop, Option.bind_some]
      by_cases hkind : (t.shift base).kind = .newline
      · -- the line is complete, and its events and its checkpoint come before all others
        rw [if_pos hkind] at hfound ⊢
        subst hfound
        dsimp only at hlines hevents ⊢
        rw [List.length_cons] at hlines
        rw [List.length_append, ← cursor_step] at hevents
        rw [← cursor_step] at hlines ⊢
        rw [finishLine?_eq_step rfl (by omega) (by omega), Option.bind_some,
          ih rfl hrest (by show r.line + 1 + _ < _; omega)
            (by rw [length_events_step]; show r.before + _ < _; omega),
          checkpoints_step, List.append_assoc, List.singleton_append, ← List.append_assoc]
        rfl
      · rw [if_neg hkind] at hfound ⊢
        exact ih hfound hrest hlines hevents

end Recorder
end Layout

/-- The lexemes of a text end in it. -/
theorem PlacedLexeme.stop_le_of_mem_ofLexemes
    {start : Nat}
    {ts : List Lexeme}
    {t : PlacedLexeme}
    (h : t ∈ ofLexemes start ts) :
    t.start ≤ t.stop ∧ t.stop ≤ start + Utf8.byteLength (ts.flatMap Lexeme.text) := by
  induction ts generalizing start with
  | nil => cases h
  | cons u ts ih =>
      rw [List.flatMap_cons, Utf8.byteLength_append]
      rcases List.mem_cons.1 h with rfl | h
      · dsimp only
        omega
      · obtain ⟨horder, hstop⟩ := ih h
        omega

namespace Layout

/-- A scan that counts in words comes to the end, with the trace of the scan, when the
number of its last line and the number of all events are words. -/
theorem Scan.checkedTrace?_eq
    {scan : Scan}
    {before after : List Char}
    (hsource : scan.source = before ++ after)
    (hoffset : scan.cursor.offset = Utf8.byteLength before)
    (hlines : scan.cursor.line + scan.trace.checkpoints.length < UInt64.size)
    (hevents : scan.cursor.emitted + scan.trace.events.length < UInt64.size) :
    scan.checkedTrace? = some scan.trace := by
  have hplaces :
      ∀ t ∈ PlacedLexeme.ofSource scan.rest,
        t.start ≤ t.stop ∧ scan.cursor.offset + t.stop ≤ Utf8.byteLength scan.source := by
    intro t ht
    obtain ⟨horder, hstop⟩ := PlacedLexeme.stop_le_of_mem_ofLexemes ht
    rw [rest_eq hsource hoffset, Lexeme.flatMap_text_lex] at hstop
    rw [hoffset, hsource, Utf8.byteLength_append]
    omega
  have hrun :=
    @Recorder.map_trace_run? (Recorder.ofCursor scan.cursor) _ _ _ [] _ scan.trace rfl hplaces
      hlines (by show scan.cursor.emitted + (0 + _) < _; omega)
  rw [checkedTrace?, hrun]
  rfl

/-- The second line has no number that is a word. -/
example :
    Scan.checkedTrace?
        ⟨"a\nb".toList, {}, ⟨IndentState.initial, 18446744073709551614, 0, 0⟩⟩ =
      none := by
  decide +kernel

end Layout
end Offside
