import Offside.Proofs.ReportLines

/-!
# Reading a text report

A text report is read back line by line (`trace?`).  A line is that of an event or that of a
checkpoint.  How many events were recorded before a checkpoint is not printed: it is the
number of event lines that stand before its line, and so the reader counts them.

The reader gives back every trace whose checkpoints mark places among its events
(`trace?_render`), those of scans among them.
-/

namespace Offside

namespace Decimal

/-- A run of digits goes on up to the first other character. -/
theorem span_isDigit_append
    {ds rest : List Char}
    (hdigits : ∀ c ∈ ds, c.isDigit = true)
    (hrest : ∀ c, rest.head? = some c → c.isDigit = false) :
    (ds ++ rest).takeWhile Char.isDigit = ds ∧ (ds ++ rest).dropWhile Char.isDigit = rest := by
  rw [List.takeWhile_append_of_pos hdigits, List.dropWhile_append_of_pos hdigits]
  cases rest with
  | nil => simp
  | cons c rest => simp [hrest c rfl]

/-- The number at the front of a text, and what follows. -/
def read? (cs : List Char) : Option (Nat × List Char) :=
  let digits := cs.takeWhile Char.isDigit
  if digits = [] then none
  else some (Nat.ofDigitChars 10 digits 0, cs.dropWhile Char.isDigit)

/-- A number is read back from its digits. -/
theorem read?_toDigits_append
    (n : Nat)
    {rest : List Char}
    (hrest : ∀ c, rest.head? = some c → c.isDigit = false) :
    read? (Nat.toDigits 10 n ++ rest) = some (n, rest) := by
  have hdigits : ∀ c ∈ Nat.toDigits 10 n, c.isDigit = true :=
    fun c hc => Nat.isDigit_of_mem_toDigits (by decide) (by decide) hc
  obtain ⟨htake, hdrop⟩ := span_isDigit_append hdigits hrest
  rw [read?, htake, hdrop, if_neg Nat.toDigits_ne_nil, Nat.ofDigitChars_ten_toDigits]

/-- A text that starts with no digit starts with no number. -/
theorem read?_cons_of_not_isDigit
    {c : Char}
    (h : c.isDigit = false)
    (rest : List Char) :
    read? (c :: rest) = none := by
  rw [read?, List.takeWhile_cons_of_neg (by simp [h]), if_pos rfl]

end Decimal

namespace TextReport

open Layout (Event Checkpoint Trace Options Marks)

/-- What follows some words at the front of a text. -/
def after?
    (words cs : List Char) :
    Option (List Char) :=
  if words.isPrefixOf cs then some (cs.drop words.length) else none

theorem after?_append (words rest : List Char) : after? words (words ++ rest) = some rest := by
  rw [after?, if_pos (List.isPrefixOf_iff_prefix.2 (List.prefix_append words rest)),
    List.drop_left]

/-- The event that a line spells. -/
def event? (line : List Char) : Option Event := do
  let (number, line) ← Decimal.read? line
  let name ← after? ['\t'] line
  let token ← Layout.Token.ofName? (String.ofList name)
  pure ⟨number, token⟩

/-- The checkpoint that a line spells, when so many events were printed before it. -/
def checkpoint?
    (printed : Nat)
    (line : List Char) :
    Option Checkpoint := do
  let line ← after? "checkpoint\tline=".toList line
  let (number, line) ← Decimal.read? line
  let line ← after? "\toffset=".toList line
  let (offset, line) ← Decimal.read? line
  let digits ← after? "\tstate=".toList line
  let state ← Hex.toBytes? digits
  pure ⟨number, offset, printed, state⟩

/-- The trace that some lines spell, when so many events were printed before them. -/
def ofLines? : Nat → List (List Char) → Option Trace
  | _, [] => some Trace.empty
  | printed, line :: rest =>
      match event? line with
      | some event => do
          let trace ← ofLines? (printed + 1) rest
          pure { trace with events := event :: trace.events }
      | none => do
          let checkpoint ← checkpoint? printed line
          let trace ← ofLines? printed rest
          pure { trace with checkpoints := checkpoint :: trace.checkpoints }

/-- The trace that a report spells. -/
def trace? (report : List Char) : Option Trace :=
  ofLines? 0 (lines report)

/-- A number ends before a tab. -/
theorem not_isDigit_of_head?_tab
    {cs : List Char}
    (h : cs.head? = some '\t') :
    ∀ c, cs.head? = some c → c.isDigit = false := by
  intro c hc
  rw [h] at hc
  rw [← Option.some.inj hc]
  decide

theorem event?_body (e : Event) : event? (Entry.event e).body = some e := by
  have hhead : ('\t' :: e.token.name.toList).head? = some '\t' := rfl
  have hnumber := Decimal.read?_toDigits_append e.line (not_isDigit_of_head?_tab hhead)
  have hname : after? ['\t'] ('\t' :: e.token.name.toList) = some e.token.name.toList :=
    after?_append ['\t'] e.token.name.toList
  show event? (Nat.toDigits 10 e.line ++ '\t' :: e.token.name.toList) = some e
  simp only [event?, hnumber, hname, Option.bind_eq_bind, Option.bind_some, String.ofList_toList,
    Layout.Token.ofName?_name]
  rfl

/-- The line of a checkpoint is not that of an event. -/
theorem event?_body_checkpoint (c : Checkpoint) : event? (Entry.checkpoint c).body = none := by
  have hread : Decimal.read? (Entry.checkpoint c).body = none :=
    Decimal.read?_cons_of_not_isDigit (by decide) _
  rw [event?, hread]
  rfl

theorem checkpoint?_body (c : Checkpoint) :
    checkpoint? c.emitted (Entry.checkpoint c).body = some c := by
  have hstate : ∀ rest,
      Decimal.read? (Nat.toDigits 10 c.offset ++ ("\tstate=".toList ++ rest)) =
        some (c.offset, "\tstate=".toList ++ rest) :=
    fun _ => Decimal.read?_toDigits_append c.offset (not_isDigit_of_head?_tab rfl)
  have hoffset : ∀ rest,
      Decimal.read? (Nat.toDigits 10 c.line ++ ("\toffset=".toList ++ rest)) =
        some (c.line, "\toffset=".toList ++ rest) :=
    fun _ => Decimal.read?_toDigits_append c.line (not_isDigit_of_head?_tab rfl)
  show checkpoint? c.emitted ("checkpoint\tline=".toList ++ Nat.toDigits 10 c.line
    ++ "\toffset=".toList ++ Nat.toDigits 10 c.offset
    ++ "\tstate=".toList ++ Hex.ofBytes c.state) = some c
  simp only [List.append_assoc, checkpoint?, after?_append, hoffset, hstate, Hex.toBytes?_ofBytes,
    Option.bind_eq_bind, Option.bind_some]
  rfl

/-- Event lines are read as the events that they spell, and counted. -/
theorem ofLines?_events_append
    (printed : Nat)
    (events : List Event)
    (rest : List (List Char)) :
    ofLines? printed ((events.map Entry.event).map Entry.body ++ rest) =
      (ofLines? (printed + events.length) rest).map fun trace =>
        { trace with events := events ++ trace.events } := by
  induction events generalizing printed with
  | nil =>
      show ofLines? printed rest = (ofLines? printed rest).map id
      rw [Option.map_id]
      rfl
  | cons e events ih =>
      have hlength : printed + 1 + events.length = printed + (e :: events).length := by
        rw [List.length_cons]
        omega
      rw [List.map_cons, List.map_cons, List.cons_append, ofLines?, event?_body]
      show ((ofLines? (printed + 1) _).bind _) = _
      rw [ih, hlength]
      cases ofLines? (printed + (e :: events).length) rest <;> rfl

/-- The lines of a report spell the trace, where the checkpoints mark places among the
events. -/
theorem ofLines?_interleave
    {printed : Nat}
    {events : List Event}
    {checkpoints : List Checkpoint}
    (h : Marks (printed + events.length) printed checkpoints) :
    ofLines? printed ((interleave printed events checkpoints).map Entry.body) =
      some ⟨events, checkpoints⟩ := by
  induction checkpoints generalizing printed events with
  | nil =>
      have hlines := ofLines?_events_append printed events []
      rw [List.append_nil, ofLines?] at hlines
      rw [interleave, hlines, Option.map_some]
      simp [Trace.empty]
  | cons c rest ih =>
      have hle := h.2.le_total
      have hplace : printed + (events.take (c.emitted - printed)).length = c.emitted := by
        have hprinted := h.1
        rw [List.length_take]
        omega
      have htotal :
          printed + events.length = c.emitted + (events.drop (c.emitted - printed)).length := by
        have hprinted := h.1
        rw [List.length_drop]
        omega
      have hrest := h.2
      rw [htotal] at hrest
      rw [interleave, List.map_append, ofLines?_events_append, hplace, List.map_cons, ofLines?,
        event?_body_checkpoint]
      simp only [checkpoint?_body, ih hrest, Option.bind_eq_bind, Option.bind_some,
        Option.pure_def, Option.map_some, List.take_append_drop]

/-- A report that shows the checkpoints is read back as the trace, and one that hides them
as its events, where the checkpoints mark places among the events. -/
theorem trace?_render
    {trace : Trace}
    (h : Marks trace.events.length 0 trace.checkpoints) :
    trace? (render trace true) = some trace ∧
      trace? (render trace false) = some ⟨trace.events, []⟩ := by
  rw [← Nat.zero_add trace.events.length] at h
  constructor
  · rw [trace?, render, lines_flatMap_body]
    exact ofLines?_interleave h
  · rw [trace?, render, lines_flatMap_body]
    exact ofLines?_interleave (Nat.zero_le _)

/-- The text report of a scan is read back, with checkpoints as the whole trace and without
them as its events.  So scans with one and the same report are equal. -/
theorem scan_of_text_report
    {options options' : Options}
    (htab : options.tabWidth ≠ 0)
    (htab' : options'.tabWidth ≠ 0)
    (source source' : List Char) :
    ∃ full full',
      Layout.traceOf source options = .ok full ∧
      Layout.traceOf source' options' = .ok full' ∧
      trace? (render full true) = some full ∧
      trace? (render full false) = some ⟨full.events, []⟩ ∧
      (render full true = render full' true → full = full') := by
  obtain ⟨full, hfull⟩ : ∃ full, Layout.traceOf source options = .ok full :=
    ⟨_, Layout.traceOf_eq htab source⟩
  obtain ⟨full', hfull'⟩ : ∃ full', Layout.traceOf source' options' = .ok full' :=
    ⟨_, Layout.traceOf_eq htab' source'⟩
  obtain ⟨hshown, hhidden⟩ := trace?_render (Layout.marks_of_traceOf htab hfull)
  obtain ⟨hshown', -⟩ := trace?_render (Layout.marks_of_traceOf htab' hfull')
  refine ⟨full, full', hfull, hfull', hshown, hhidden, ?_⟩
  intro hrender
  rw [hrender, hshown'] at hshown
  exact (Option.some.inj hshown).symm

/-- Two sources with the same indentation, whose reports are one and the same. -/
theorem scan_of_text_report_renamed :
    ∃ full full',
      Layout.traceOf "a\n  b\n\n".toList {} = .ok full ∧
      Layout.traceOf "c\n  d\n\n".toList {} = .ok full' ∧
      trace? (render full true) = some full ∧
      trace? (render full false) = some ⟨full.events, []⟩ ∧
      render full true = render full' true ∧
      full = full' := by
  obtain ⟨full, full', hfull, hfull', hshown, hhidden, hequal⟩ :=
    @scan_of_text_report {} {} (by decide) (by decide) "a\n  b\n\n".toList "c\n  d\n\n".toList
  have hreports :
      (Layout.traceOf "a\n  b\n\n".toList {}).map (fun trace => render trace true) =
        (Layout.traceOf "c\n  d\n\n".toList {}).map (fun trace => render trace true) := by
    decide +kernel
  rw [hfull, hfull'] at hreports
  have hrender := Except.ok.inj hreports
  exact ⟨full, full', hfull, hfull', hshown, hhidden, hrender, hequal hrender⟩

end TextReport
end Offside
