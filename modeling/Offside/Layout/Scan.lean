import Offside.Layout.LineStart
import Offside.Layout.Policy
import Offside.Lexeme

/-!
# Layout scans

A scan goes through the lexemes of a source.  It collects those of a line until
the line break comes, measures the line in the source, and applies the layout
policy to it.  After each line it records a checkpoint, and after the last line
it closes every level that is still open.

A scan can be taken up at a checkpoint.  Only the text behind the checkpoint is
cut into lexemes then, while every position still counts from the start of the
source.  The checkpoint is refused when no line starts at its position, or when
its bytes are not the written form of a state.
-/

namespace Offside
namespace Layout

/-- The width of the blanks at the start of a line. -/
def indentWidth
    (tabWidth : UInt32)
    (source : List Char)
    (line : List PlacedLexeme) :
    UInt32 :=
  match line.head? with
  | some ⟨.whitespace, start, stop⟩ => Columns.between tabWidth source start stop
  | _ => 0

/-- The measure of a line that starts at a byte position of a source; a line
without content has none. -/
def measure?
    (source : List Char)
    (options : Options)
    (start : Nat)
    (line : List PlacedLexeme) :
    Option Measure :=
  (line.reverse.find? fun t => t.kind.isContent options.commentsAreBlank).map fun last =>
    ⟨indentWidth options.tabWidth source line,
      Columns.between options.tabWidth source start last.start⟩

/-- Where a scan stands between two lines. -/
structure Cursor where
  state : IndentState
  /-- Number of the last line scanned. -/
  line : Nat
  /-- Byte position at which the next line starts. -/
  offset : Nat
  emitted : Nat

namespace Cursor

def start : Cursor := ⟨IndentState.initial, 0, 0, 0⟩

/-- The place that a checkpoint marks, given the state that its bytes spell. -/
def ofCheckpoint
    (checkpoint : Checkpoint)
    (state : IndentState) :
    Cursor :=
  ⟨state, checkpoint.line, checkpoint.offset, checkpoint.emitted⟩

/-- The checkpoint that is recorded here. -/
def checkpoint (c : Cursor) : Checkpoint :=
  ⟨c.line, c.offset, c.emitted, c.state.encode⟩

/-- The events of the next line, and where the scan stands after it. -/
def step
    (c : Cursor)
    (measure : Option Measure)
    (next : Nat) :
    List Event × Cursor :=
  let result := c.state.afterLine measure
  (result.1.map fun token => ⟨c.line + 1, token⟩,
    { state := result.2
      line := c.line + 1
      offset := next
      emitted := c.emitted + result.1.length })

/-- The events that close every open level at the end of a source. -/
def closing (c : Cursor) : List Event :=
  List.replicate c.state.depth ⟨c.line, .dedent⟩

/-- The trace of the lexemes that follow those of the line under way. -/
def traceLexemes
    (source : List Char)
    (options : Options)
    (c : Cursor)
    (line : List PlacedLexeme) :
    List PlacedLexeme → Trace
  | [] =>
      if line.isEmpty then
        ⟨c.closing, []⟩
      else
        let next := c.step (measure? source options c.offset line) (Utf8.byteLength source)
        ⟨next.1 ++ next.2.closing, [next.2.checkpoint]⟩
  | t :: rest =>
      if t.kind = .newline then
        let next := c.step (measure? source options c.offset line) t.stop
        let tail := next.2.traceLexemes source options [] rest
        ⟨next.1 ++ tail.events, next.2.checkpoint :: tail.checkpoints⟩
      else
        c.traceLexemes source options (line ++ [t]) rest

end Cursor

/-- A scan that is about to go through the rest of a source. -/
structure Scan where
  source : List Char
  options : Options
  cursor : Cursor

namespace Scan

def ofSource
    (source : List Char)
    (options : Options) :
    Except Error Scan :=
  if options.tabWidth = 0 then
    .error .zeroTabWidth
  else
    .ok ⟨source, options, Cursor.start⟩

def ofCheckpoint
    (source : List Char)
    (options : Options)
    (checkpoint : Checkpoint) :
    Except Error Scan :=
  if options.tabWidth = 0 then
    .error .zeroTabWidth
  else if startsLine source checkpoint.offset = false then
    .error (.notLineStart checkpoint.offset (Utf8.byteLength source))
  else
    match IndentState.decode checkpoint.state with
    | .error cause => .error (.badState cause)
    | .ok state => .ok ⟨source, options, Cursor.ofCheckpoint checkpoint state⟩

/-- The text behind the place where the scan stands. -/
def rest (scan : Scan) : List Char :=
  (Utf8.dropBytes? scan.cursor.offset scan.source).getD []

/-- The trace from here to the end of the source. -/
def trace (scan : Scan) : Trace :=
  scan.cursor.traceLexemes scan.source scan.options []
    ((PlacedLexeme.ofSource scan.rest).map (PlacedLexeme.shift scan.cursor.offset))

end Scan

def traceOf
    (source : List Char)
    (options : Options) :
    Except Error Trace :=
  (Scan.ofSource source options).map Scan.trace

def traceFrom
    (source : List Char)
    (options : Options)
    (checkpoint : Checkpoint) :
    Except Error Trace :=
  (Scan.ofCheckpoint source options checkpoint).map Scan.trace

end Layout
end Offside
