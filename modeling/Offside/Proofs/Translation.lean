import Mathlib.Data.List.Forall2
import Offside.Proofs.LineTrace
import Offside.Proofs.StateCodec

/-!
# Scans that differ in their counters

A scan counts lines, bytes and events, and none of the three counters has a say
in what it finds.  Two scans that stand at places of the same view and go over
the same lines leave the same behind, apart from the distance between their
counters (`Cursor.Shifted.traceLines`).

Distances are integers, since either scan may be the one that is further on.
-/

namespace Offside
namespace Layout

/-- The same token, so many lines further on. -/
structure Event.Shifted
    (lines : Int)
    (e f : Event) :
    Prop where
  token : f.token = e.token
  line : (f.line : Int) = e.line + lines

/-- The same state, so many lines, bytes and events further on. -/
structure Checkpoint.Shifted
    (lines bytes count : Int)
    (c d : Checkpoint) :
    Prop where
  state : d.state = c.state
  line : (d.line : Int) = c.line + lines
  offset : (d.offset : Int) = c.offset + bytes
  emitted : (d.emitted : Int) = c.emitted + count

/-- The same trace, so many lines, bytes and events further on. -/
structure Trace.Shifted
    (lines bytes count : Int)
    (t u : Trace) :
    Prop where
  events : List.Forall₂ (Event.Shifted lines) t.events u.events
  checkpoints :
    List.Forall₂ (Checkpoint.Shifted lines bytes count) t.checkpoints u.checkpoints

/-- Places at which the same is remembered, so many lines, bytes and events apart. -/
structure Cursor.Shifted
    (lines bytes count : Int)
    (c d : Cursor) :
    Prop where
  view : d.state.view = c.state.view
  line : (d.line : Int) = c.line + lines
  offset : (d.offset : Int) = c.offset + bytes
  emitted : (d.emitted : Int) = c.emitted + count

/-- Traces at no distance are the same. -/
theorem Trace.eq_of_shifted_zero
    {t u : Trace}
    (h : Trace.Shifted 0 0 0 t u) :
    t = u := by
  obtain ⟨hevents, hcheckpoints⟩ := h
  have hevents' : t.events = u.events := by
    rw [← List.forall₂_eq_eq_eq]
    refine hevents.imp ?_
    rintro ⟨line, token⟩ ⟨line', token'⟩ ⟨htoken, hline⟩
    simp only [Event.mk.injEq] at *
    exact ⟨by omega, htoken.symm⟩
  have hcheckpoints' : t.checkpoints = u.checkpoints := by
    rw [← List.forall₂_eq_eq_eq]
    refine hcheckpoints.imp ?_
    rintro ⟨line, offset, emitted, state⟩ ⟨line', offset', emitted', state'⟩ h
    obtain ⟨hstate, hline, hoffset, hemitted⟩ := h
    simp only [Checkpoint.mk.injEq] at *
    exact ⟨by omega, by omega, by omega, hstate.symm⟩
  cases t
  cases u
  rw [Trace.mk.injEq]
  exact ⟨hevents', hcheckpoints'⟩

namespace Cursor.Shifted

/-- Places that two checkpoints mark are as far apart as their counters. -/
theorem ofCheckpoint
    (first second : Checkpoint)
    {s t : IndentState}
    (h : t.view = s.view) :
    Cursor.Shifted
      (second.line - first.line)
      (second.offset - first.offset)
      (second.emitted - first.emitted)
      (Cursor.ofCheckpoint first s)
      (Cursor.ofCheckpoint second t) := by
  refine ⟨h, ?_, ?_, ?_⟩
  · show (second.line : Int) = first.line + (second.line - first.line)
    omega
  · show (second.offset : Int) = first.offset + (second.offset - first.offset)
    omega
  · show (second.emitted : Int) = first.emitted + (second.emitted - first.emitted)
    omega

variable {lines bytes count : Int} {c d : Cursor}

theorem checkpoint
    (h : Cursor.Shifted lines bytes count c d) :
    Checkpoint.Shifted lines bytes count c.checkpoint d.checkpoint :=
  ⟨IndentState.encode_eq_of_view_eq h.view, h.line, h.offset, h.emitted⟩

/-- One line keeps the distance between two scans. -/
theorem stepLine
    (h : Cursor.Shifted lines bytes count c d)
    (options : Options)
    (line : Line) :
    List.Forall₂ (Event.Shifted lines)
        (c.stepLine options line).1 (d.stepLine options line).1 ∧
      Cursor.Shifted lines bytes count
        (c.stepLine options line).2 (d.stepLine options line).2 := by
  obtain ⟨htokens, hview⟩ :=
    IndentState.afterLine_of_view_eq h.view (line.measure? options)
  have hline := h.line
  have hoffset := h.offset
  have hemitted := h.emitted
  constructor
  · show List.Forall₂ _
      ((c.state.afterLine (line.measure? options)).1.map fun token => Event.mk (c.line + 1) token)
      ((d.state.afterLine (line.measure? options)).1.map fun token => Event.mk (d.line + 1) token)
    rw [htokens, List.forall₂_map_left_iff, List.forall₂_map_right_iff, List.forall₂_same]
    intro token _
    refine ⟨rfl, ?_⟩
    show ((d.line + 1 : Nat) : Int) = (c.line + 1 : Nat) + lines
    omega
  · refine ⟨hview, ?_, ?_, ?_⟩
    · show ((d.line + 1 : Nat) : Int) = (c.line + 1 : Nat) + lines
      omega
    · show ((d.offset + Utf8.byteLength line.text : Nat) : Int) =
        (c.offset + Utf8.byteLength line.text : Nat) + bytes
      omega
    · show ((d.emitted + (d.state.afterLine (line.measure? options)).1.length : Nat) : Int) =
        (c.emitted + (c.state.afterLine (line.measure? options)).1.length : Nat) + count
      rw [htokens]
      omega

/-- So do any number of lines. -/
theorem walk
    (h : Cursor.Shifted lines bytes count c d)
    (options : Options)
    (ls : List Line) :
    List.Forall₂ (Event.Shifted lines) (c.walk options ls).events (d.walk options ls).events ∧
      List.Forall₂ (Checkpoint.Shifted lines bytes count)
        (c.walk options ls).checkpoints (d.walk options ls).checkpoints ∧
      Cursor.Shifted lines bytes count (c.walk options ls).stop (d.walk options ls).stop := by
  induction ls generalizing c d with
  | nil => exact ⟨List.Forall₂.nil, List.Forall₂.nil, h⟩
  | cons line ls ih =>
      obtain ⟨hevents, hnext⟩ := h.stepLine options line
      obtain ⟨ihevents, ihcheckpoints, ihstop⟩ := ih hnext
      exact
        ⟨List.rel_append hevents ihevents,
          List.Forall₂.cons hnext.checkpoint ihcheckpoints,
          ihstop⟩

/-- As many levels are closed at the end. -/
theorem closing
    (h : Cursor.Shifted lines bytes count c d) :
    List.Forall₂ (Event.Shifted lines) c.closing d.closing := by
  rw [Cursor.closing, Cursor.closing, IndentState.depth_eq_of_view_eq h.view]
  induction c.state.depth with
  | zero => exact List.Forall₂.nil
  | succ n ih => exact List.Forall₂.cons ⟨rfl, h.line⟩ ih

/-- Scans that go over the same lines from places at some distance leave traces
at that distance. -/
theorem traceLines
    (h : Cursor.Shifted lines bytes count c d)
    (options : Options)
    (ls : List Line) :
    Trace.Shifted lines bytes count (c.traceLines options ls) (d.traceLines options ls) := by
  obtain ⟨hevents, hcheckpoints, hstop⟩ := h.walk options ls
  exact ⟨List.rel_append hevents hstop.closing, hcheckpoints⟩

end Cursor.Shifted

/-- What is remembered matters only as far as it can be seen. -/
theorem Cursor.traceLines_of_view_eq
    {c : Cursor}
    {s : IndentState}
    (h : s.view = c.state.view)
    (options : Options)
    (ls : List Line) :
    Cursor.traceLines options { c with state := s } ls = c.traceLines options ls := by
  have hshifted : Cursor.Shifted 0 0 0 { c with state := s } c :=
    ⟨h.symm, (Int.add_zero _).symm, (Int.add_zero _).symm, (Int.add_zero _).symm⟩
  exact Trace.eq_of_shifted_zero (hshifted.traceLines options ls)

end Layout
end Offside
