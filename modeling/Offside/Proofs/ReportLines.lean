import Offside.Proofs.Resumption
import Offside.Report.Text

/-!
# The lines of a text report

A text report prints the events of a trace and puts each checkpoint behind as many of them
as were recorded before it.  Which events stand between two checkpoints is found by slices of
the list of all events (`interleave?`), and a slice may fail: its places have to lie in the
list, the first one not behind the second one.  In the trace of a scan they do (`Marks`).

So a report has one line for each event and one for each checkpoint, in their orders, and
without the lines of the checkpoints it is the report that hides them.
-/

namespace Offside
namespace Layout

/-- Whether checkpoints mark places among so many events, one behind the other and none of
them before a given place. -/
def Marks (total : Nat) : Nat → List Checkpoint → Prop
  | place, [] => place ≤ total
  | place, c :: rest => place ≤ c.emitted ∧ Marks total c.emitted rest

theorem Marks.le_total
    {total place : Nat}
    {checkpoints : List Checkpoint}
    (h : Marks total place checkpoints) :
    place ≤ total := by
  induction checkpoints generalizing place with
  | nil => exact h
  | cons c rest ih => exact Nat.le_trans h.1 (ih h.2)

/-- The checkpoints of a scan mark places among its events. -/
theorem Cursor.marks_traceLines
    (options : Options)
    (c : Cursor)
    (lines : List Line) :
    Marks (c.emitted + (c.traceLines options lines).events.length) c.emitted
      (c.traceLines options lines).checkpoints := by
  induction lines generalizing c with
  | nil => exact Nat.le_add_right _ _
  | cons line rest ih =>
      have hemitted :
          (c.stepLine options line).2.emitted =
            c.emitted + (c.stepLine options line).1.length := by
        simp [stepLine, step]
      have hrest := ih (c.stepLine options line).2
      rw [hemitted, Nat.add_assoc, ← List.length_append] at hrest
      rw [traceLines_cons]
      refine ⟨?_, ?_⟩
      · show c.emitted ≤ (c.stepLine options line).2.emitted
        rw [hemitted]
        exact Nat.le_add_right _ _
      · show Marks _ (c.stepLine options line).2.emitted _
        rw [hemitted]
        exact hrest

theorem marks_of_traceOf
    {options : Options}
    {source : List Char}
    {full : Trace}
    (htab : options.tabWidth ≠ 0)
    (hfull : traceOf source options = .ok full) :
    Marks full.events.length 0 full.checkpoints := by
  have hmarks := Cursor.start.marks_traceLines options (Line.ofSource source)
  rw [traceOf_eq htab, Except.ok.injEq] at hfull
  rw [hfull] at hmarks
  exact Nat.zero_add full.events.length ▸ hmarks

end Layout

namespace TextReport

open Layout (Event Checkpoint Trace Options Marks)

/-- The events from one place to another; none if the places do not lie in the list in this
order. -/
def slice?
    (start stop : Nat)
    (events : List Event) :
    Option (List Event) :=
  if start ≤ stop ∧ stop ≤ events.length then some ((events.take stop).drop start) else none

/-- Events and checkpoints in the order in which they are printed.  Each checkpoint is led by
the events from the place of the last one to its own. -/
def interleave? (events : List Event) : Nat → List Checkpoint → Option (List Entry)
  | printed, [] => (slice? printed events.length events).map (List.map .event)
  | printed, c :: rest => do
      let before ← slice? printed c.emitted events
      let behind ← interleave? events c.emitted rest
      pure (before.map .event ++ .checkpoint c :: behind)

/-- The report, unless a slice of the events is out of range. -/
def render?
    (trace : Trace)
    (showCheckpoints : Bool) :
    Option (List Char) :=
  (interleave? trace.events 0 (if showCheckpoints then trace.checkpoints else [])).map
    fun entries => entries.flatMap fun entry => entry.body ++ ['\n']

theorem slice?_of_le
    {start stop : Nat}
    {events : List Event}
    (hstart : start ≤ stop)
    (hstop : stop ≤ events.length) :
    slice? start stop events = some ((events.drop start).take (stop - start)) := by
  rw [slice?, if_pos ⟨hstart, hstop⟩, List.drop_take]

/-- Where the checkpoints mark places among the events, no slice is out of range. -/
theorem interleave?_of_marks
    {events : List Event}
    {printed : Nat}
    {checkpoints : List Checkpoint}
    (h : Marks events.length printed checkpoints) :
    interleave? events printed checkpoints =
      some (interleave printed (events.drop printed) checkpoints) := by
  induction checkpoints generalizing printed with
  | nil =>
      have hall : (events.drop printed).take (events.length - printed) = events.drop printed := by
        rw [← List.length_drop, List.take_length]
      rw [interleave?, slice?_of_le h (Nat.le_refl _), hall]
      rfl
  | cons c rest ih =>
      have hplaces : printed + (c.emitted - printed) = c.emitted := Nat.add_sub_of_le h.1
      rw [interleave?, slice?_of_le h.1 h.2.le_total, ih h.2, interleave, List.drop_drop, hplaces]
      rfl

namespace Entry

def event? : Entry → Option Event
  | event e => some e
  | checkpoint _ => none

def checkpoint? : Entry → Option Checkpoint
  | event _ => none
  | checkpoint c => some c

end Entry

theorem filterMap_event?_map (events : List Event) :
    (events.map Entry.event).filterMap Entry.event? = events := by
  rw [List.filterMap_map]
  exact List.filterMap_some

theorem filterMap_checkpoint?_map (events : List Event) :
    (events.map Entry.event).filterMap Entry.checkpoint? = [] := by
  rw [List.filterMap_map, List.filterMap_eq_nil_iff]
  exact fun _ _ => rfl

/-- Every event is printed once, in order. -/
theorem filterMap_event?_interleave
    (printed : Nat)
    (events : List Event)
    (checkpoints : List Checkpoint) :
    (interleave printed events checkpoints).filterMap Entry.event? = events := by
  induction checkpoints generalizing printed events with
  | nil => exact filterMap_event?_map events
  | cons c rest ih =>
      rw [interleave, List.filterMap_append, filterMap_event?_map,
        List.filterMap_cons_none (by rfl), ih, List.take_append_drop]

/-- Every checkpoint is printed once, in order. -/
theorem filterMap_checkpoint?_interleave
    (printed : Nat)
    (events : List Event)
    (checkpoints : List Checkpoint) :
    (interleave printed events checkpoints).filterMap Entry.checkpoint? = checkpoints := by
  induction checkpoints generalizing printed events with
  | nil => exact filterMap_checkpoint?_map events
  | cons c rest ih =>
      rw [interleave, List.filterMap_append, filterMap_checkpoint?_map,
        List.filterMap_cons_some (by rfl), ih, List.nil_append]

/-- Before a checkpoint stand the checkpoints before it and the events up to its place. -/
theorem interleave_eq_append
    {printed index : Nat}
    {events : List Event}
    {checkpoints : List Checkpoint}
    {checkpoint : Checkpoint}
    (h : Marks (printed + events.length) printed checkpoints)
    (hindex : checkpoints[index]? = some checkpoint) :
    ∃ before after,
      interleave printed events checkpoints = before ++ .checkpoint checkpoint :: after ∧
      before.filterMap Entry.checkpoint? = checkpoints.take index ∧
      before.filterMap Entry.event? = events.take (checkpoint.emitted - printed) ∧
      printed ≤ checkpoint.emitted ∧
      checkpoint.emitted ≤ printed + events.length := by
  induction checkpoints generalizing printed events index with
  | nil => cases hindex
  | cons c rest ih =>
      have hle : c.emitted ≤ printed + events.length := h.2.le_total
      cases index with
      | zero =>
          rw [List.getElem?_cons_zero, Option.some.injEq] at hindex
          subst hindex
          exact ⟨_, _, rfl, filterMap_checkpoint?_map _, filterMap_event?_map _, h.1, hle⟩
      | succ index =>
          have htotal :
              printed + events.length =
                c.emitted + (events.drop (c.emitted - printed)).length := by
            have hprinted := h.1
            rw [List.length_drop]
            omega
          have hrest := h.2
          rw [htotal] at hrest
          rw [List.getElem?_cons_succ] at hindex
          obtain ⟨before, after, hentries, hcheckpoints, hevents, hfirst, hlast⟩ :=
            ih hrest hindex
          have hplaces :
              checkpoint.emitted - printed =
                (c.emitted - printed) + (checkpoint.emitted - c.emitted) := by
            have hprinted := h.1
            omega
          refine ⟨(events.take (c.emitted - printed)).map .event ++ .checkpoint c :: before,
            after, ?_, ?_, ?_, Nat.le_trans h.1 hfirst, ?_⟩
          · rw [interleave, hentries, List.append_assoc]
            rfl
          · rw [List.filterMap_append, filterMap_checkpoint?_map,
              List.filterMap_cons_some (by rfl), hcheckpoints]
            rfl
          · rw [List.filterMap_append, filterMap_event?_map, List.filterMap_cons_none (by rfl),
              hevents, hplaces, List.take_add]
          · rwa [htotal]

/-- The lines of a text, without their line breaks. -/
def lines : List Char → List (List Char)
  | [] => []
  | c :: rest =>
      if c = '\n' then [] :: lines rest
      else
        match lines rest with
        | [] => [[c]]
        | line :: more => (c :: line) :: more

/-- A line comes first when a text starts with it and its line break. -/
theorem lines_append_break
    {line : List Char}
    (h : '\n' ∉ line)
    (rest : List Char) :
    lines (line ++ '\n' :: rest) = line :: lines rest := by
  induction line with
  | nil => rw [List.nil_append, lines, if_pos rfl]
  | cons c line ih =>
      rw [List.mem_cons, not_or] at h
      rw [List.cons_append, lines, if_neg (Ne.symm h.1), ih h.2]

theorem not_mem_hex
    (bytes : List UInt8) :
    '\n' ∉ Hex.ofBytes bytes := by
  have hdigit : ∀ n : Fin 16, '\n' ≠ Hex.digit n := by decide
  intro hmem
  obtain ⟨b, -, hmem⟩ := List.mem_flatMap.1 hmem
  have hb := b.toNat_lt
  simp only [Hex.ofByte, List.mem_cons, List.not_mem_nil, or_false] at hmem
  rcases hmem with h | h
  · exact hdigit ⟨b.toNat / 16, by omega⟩ h
  · exact hdigit ⟨b.toNat % 16, by omega⟩ h

theorem not_mem_toDigits (n : Nat) : '\n' ∉ Nat.toDigits 10 n := by
  intro hmem
  have hdigit := Nat.isDigit_of_mem_toDigits (b := 10) (by decide) (by decide) hmem
  exact absurd hdigit (by decide)

/-- An entry takes one line. -/
theorem Entry.not_mem_body (entry : Entry) : '\n' ∉ entry.body := by
  cases entry with
  | event e =>
      have htoken : ∀ token : Layout.Token, '\n' ∉ token.name.toList := by
        intro token
        cases token <;> decide
      show '\n' ∉ Nat.toDigits 10 e.line ++ '\t' :: e.token.name.toList
      rw [List.mem_append, List.mem_cons]
      rintro (h | h | h)
      · exact not_mem_toDigits _ h
      · exact absurd h (by decide)
      · exact htoken _ h
  | checkpoint c =>
      show '\n' ∉ "checkpoint\tline=".toList ++ Nat.toDigits 10 c.line
        ++ "\toffset=".toList ++ Nat.toDigits 10 c.offset
        ++ "\tstate=".toList ++ Hex.ofBytes c.state
      simp only [List.mem_append]
      rintro (((((h | h) | h) | h) | h) | h)
      · exact absurd h (by decide)
      · exact not_mem_toDigits _ h
      · exact absurd h (by decide)
      · exact not_mem_toDigits _ h
      · exact absurd h (by decide)
      · exact not_mem_hex _ h

theorem lines_flatMap_body (entries : List Entry) :
    lines (entries.flatMap fun entry => entry.body ++ ['\n']) = entries.map Entry.body := by
  induction entries with
  | nil => rfl
  | cons entry rest ih =>
      rw [List.flatMap_cons, List.append_assoc, List.singleton_append,
        lines_append_break entry.not_mem_body, ih, List.map_cons]

/-- Whether a line of a report is that of a checkpoint. -/
def isCheckpointLine (line : List Char) : Bool :=
  "checkpoint".toList.isPrefixOf line

theorem isCheckpointLine_body (entry : Entry) :
    isCheckpointLine entry.body = entry.checkpoint?.isSome := by
  cases entry with
  | event e =>
      obtain ⟨digit, rest, hdigits⟩ := List.exists_cons_of_ne_nil (@Nat.toDigits_ne_nil e.line 10)
      have hdigit : digit.isDigit = true :=
        Nat.isDigit_of_mem_toDigits (b := 10) (by decide) (by decide)
          (by rw [hdigits]; exact List.mem_cons_self)
      have hne : digit ≠ 'c' := by
        rintro rfl
        exact absurd hdigit (by decide)
      show ('c' :: "heckpoint".toList).isPrefixOf (Nat.toDigits 10 e.line ++ _) = false
      rw [hdigits, List.cons_append, List.isPrefixOf, beq_false_of_ne (Ne.symm hne)]
      rfl
  | checkpoint c =>
      show "checkpoint".toList.isPrefixOf ("checkpoint".toList ++ _) = true
      rw [List.isPrefixOf_iff_prefix]
      exact List.prefix_append _ _

/-- A report from which the lines of the checkpoints were deleted. -/
def deleteCheckpoints (report : List Char) : List Char :=
  ((lines report).filter fun line => !isCheckpointLine line).flatMap fun line => line ++ ['\n']

theorem filter_not_checkpoint (entries : List Entry) :
    (entries.filter fun entry => !entry.checkpoint?.isSome) =
      (entries.filterMap Entry.event?).map .event := by
  induction entries with
  | nil => rfl
  | cons entry rest ih =>
      cases entry with
      | event e => exact congrArg (Entry.event e :: ·) ih
      | checkpoint c => exact ih

/-- Without the lines of the checkpoints a report is the one that hides them. -/
theorem deleteCheckpoints_render
    (trace : Trace)
    (showCheckpoints : Bool) :
    deleteCheckpoints (render trace showCheckpoints) = render trace false := by
  have hevents : (entries trace showCheckpoints).filterMap Entry.event? = trace.events :=
    filterMap_event?_interleave 0 trace.events _
  have hlines : lines (render trace showCheckpoints) =
      (entries trace showCheckpoints).map Entry.body :=
    lines_flatMap_body _
  have hkept :
      (((entries trace showCheckpoints).map Entry.body).filter fun line => !isCheckpointLine line) =
        (trace.events.map Entry.event).map Entry.body := by
    rw [← hevents, ← filter_not_checkpoint, List.filter_map]
    simp only [Function.comp_def, isCheckpointLine_body]
  rw [deleteCheckpoints, hlines, hkept, List.flatMap_map]
  rfl

/-- How a report puts the events of a trace and its checkpoints together. -/
structure Interleaved (trace : Trace) : Prop where
  /-- No slice of the events is out of range. -/
  in_range : ∀ showCheckpoints, render? trace showCheckpoints = some (render trace showCheckpoints)
  lines_eq : lines (render trace true) = (entries trace true).map Entry.body
  events_eq : (entries trace true).filterMap Entry.event? = trace.events
  checkpoints_eq : (entries trace true).filterMap Entry.checkpoint? = trace.checkpoints
  /-- Before a checkpoint stand as many events as were recorded before it. -/
  place : ∀ index checkpoint, trace.checkpoints[index]? = some checkpoint →
    ∃ before after,
      entries trace true = before ++ .checkpoint checkpoint :: after ∧
      before.filterMap Entry.checkpoint? = trace.checkpoints.take index ∧
      before.filterMap Entry.event? = trace.events.take checkpoint.emitted ∧
      (before.filterMap Entry.event?).length = checkpoint.emitted
  hidden : deleteCheckpoints (render trace true) = render trace false

/-- A report of a scan prints every event and every checkpoint once and in order, each
checkpoint behind the events that were recorded before it, and never takes events from
beyond their list.  Without the lines of the checkpoints it is the report that hides them. -/
theorem text_report_interleaves
    {options : Options}
    (htab : options.tabWidth ≠ 0)
    (source : List Char) :
    ∃ full,
      Layout.traceOf source options = .ok full ∧
      Interleaved full := by
  obtain ⟨full, hfull⟩ : ∃ full, Layout.traceOf source options = .ok full :=
    ⟨_, Layout.traceOf_eq htab source⟩
  have hmarks := Layout.marks_of_traceOf htab hfull
  have hlines : lines (render full true) = (entries full true).map Entry.body :=
    lines_flatMap_body _
  have hevents : (entries full true).filterMap Entry.event? = full.events :=
    filterMap_event?_interleave 0 full.events _
  refine ⟨full, hfull, ?_, hlines, hevents, ?_, ?_, deleteCheckpoints_render full true⟩
  · intro showCheckpoints
    have hshown :
        Marks full.events.length 0 (if showCheckpoints then full.checkpoints else []) := by
      cases showCheckpoints
      · exact Nat.zero_le _
      · exact hmarks
    rw [render?, interleave?_of_marks hshown]
    rfl
  · exact filterMap_checkpoint?_interleave 0 full.events _
  · intro index checkpoint hindex
    have hplaces : Marks (0 + full.events.length) 0 full.checkpoints := by
      rwa [Nat.zero_add]
    obtain ⟨before, after, hentries, hcheckpoints, hbefore, -, hle⟩ :=
      interleave_eq_append hplaces hindex
    rw [Nat.sub_zero] at hbefore
    rw [Nat.zero_add] at hle
    refine ⟨before, after, hentries, hcheckpoints, hbefore, ?_⟩
    rw [hbefore, List.length_take, Nat.min_eq_left hle]

/-- A first line without events, a blank line, and a level that is closed behind the last
checkpoint. -/
theorem text_report_interleaves_blank_line :
    ∃ full,
      Layout.traceOf "a\n  b\n\n".toList {} = .ok full ∧
      render full true =
        "checkpoint\tline=1\toffset=2\tstate=000000000000000000000000\n".toList ++
          "2\tindent\n".toList ++
          "checkpoint\tline=2\toffset=6\tstate=02000000020000000000000002000000\n".toList ++
          "checkpoint\tline=3\toffset=7\tstate=02000000020000000100000002000000\n".toList ++
          "3\tdedent\n".toList ∧
      render full false = "2\tindent\n3\tdedent\n".toList ∧
      Interleaved full := by
  obtain ⟨full, hfull, hinterleaved⟩ :=
    @text_report_interleaves {} (by decide) "a\n  b\n\n".toList
  have hreports :
      (Layout.traceOf "a\n  b\n\n".toList {}).map
          (fun trace => (render trace true, render trace false)) =
        .ok
          ("checkpoint\tline=1\toffset=2\tstate=000000000000000000000000\n".toList ++
            "2\tindent\n".toList ++
            "checkpoint\tline=2\toffset=6\tstate=02000000020000000000000002000000\n".toList ++
            "checkpoint\tline=3\toffset=7\tstate=02000000020000000100000002000000\n".toList ++
            "3\tdedent\n".toList,
            "2\tindent\n3\tdedent\n".toList) := by
    decide +kernel
  rw [hfull] at hreports
  obtain ⟨hshown, hhidden⟩ := Prod.mk.inj (Except.ok.inj hreports)
  exact ⟨full, hfull, hshown, hhidden, hinterleaved⟩

end TextReport
end Offside
