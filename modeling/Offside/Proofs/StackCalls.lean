import Offside.Proofs.Snapshots
import Offside.Proofs.StateReload

/-!
# A row of slots as a list

A caller of a state can take it for a list of at most 128 widths with three numbers
beside it: a level is opened by an append, closed by taking off the last width, and the
rest is a matter of replacing the whole.  That list is written down here as a machine of
its own (`StateView.call`).  One call gives the same answer on the state and on the list,
and commutes with the view (`IndentState.call_view`), so that any number of calls do.

Slots that are not in use do not show in the view.  They hold zero nevertheless, in every
state that calls lead to, as each operation clears what it takes out of use
(`Clean.call`).  A state is then told by its view alone, and closing a level that was
just opened gives the very state before.  The calls are made a third time on a bare row,
where a slot that is not there would make them give up, and they never do
(`SlotRow.call?_row`).
-/

namespace Offside
namespace IndentState

/-- What is asked of a state. -/
inductive Call where
  | peek
  | on (operation : Operation)

/-- What is told in answer. -/
inductive Answer where
  | nothing
  /-- The width of a level, if there is one. -/
  | level (width : Option UInt32)
  | outcome (result : Except Error Unit)

/-- What an operation tells of a state. -/
def Operation.answer
    (s : IndentState) :
    Operation → Answer
  | .push width => .outcome ((s.push width).map fun _ => ())
  | .pop => .level (s.pop?.map Prod.fst)
  | .reset => .nothing
  | .note _ _ _ => .nothing
  | .restore bytes => .outcome (s.reload bytes).2
  | .read bytes => .outcome ((decode bytes).map fun _ => ())

/-- The answer to a call, and the state after it. -/
def call
    (s : IndentState) :
    Call → Answer × IndentState
  | .peek => (.level s.top?, s)
  | .on operation => (operation.answer s, operation.perform s)

/-- The answers to calls that are made one after another, and the state after them. -/
def run
    (s : IndentState) :
    List Call → List Answer × IndentState
  | [] => ([], s)
  | c :: calls =>
      let rest := (s.call c).2.run calls
      ((s.call c).1 :: rest.1, rest.2)

end IndentState

namespace StateView

open IndentState (Answer Call)

def initial : StateView := ⟨[], unmeasured, 0, unmeasured⟩

/-- What bytes spell: three numbers at the end, and levels before them. -/
def spelledBy (bytes : List UInt8) : Except IndentState.Error StateView :=
  match IndentState.defect? bytes.length with
  | some defect => .error (.malformed bytes.length defect)
  | none =>
      match (LittleEndian.words bytes).reverse with
      | lastColumn :: blankRun :: lastWidth :: levels =>
          .ok ⟨levels.reverse, lastWidth.toInt32, blankRun.toInt32, lastColumn.toInt32⟩
      | _ => .ok initial

/-- The answer to a call, and the list after it. -/
def call
    (v : StateView) :
    Call → Answer × StateView
  | .peek => (.level v.levels.getLast?, v)
  | .on (.push width) =>
      if v.levels.length < maxDepth then
        (.outcome (.ok ()), v.withLevels (v.levels ++ [width]))
      else
        (.outcome (.error (.full width maxDepth)), v)
  | .on .pop => (.level v.levels.getLast?, v.withLevels v.levels.dropLast)
  | .on .reset => (.nothing, initial)
  | .on (.note lastWidth blankRun lastColumn) =>
      (.nothing, { v with lastWidth, blankRun, lastColumn })
  | .on (.restore bytes) =>
      match spelledBy bytes with
      | .ok after => (.outcome (.ok ()), after)
      | .error e => (.outcome (.error e), initial)
  | .on (.read bytes) =>
      match spelledBy bytes with
      | .ok after => (.outcome (.ok ()), after)
      | .error e => (.outcome (.error e), v)

def run
    (v : StateView) :
    List Call → List Answer × StateView
  | [] => ([], v)
  | c :: calls =>
      let rest := (v.call c).2.run calls
      ((v.call c).1 :: rest.1, rest.2)

end StateView

namespace SlotRow

open IndentState (Answer Call)

/-- The answer to a call, and the row after it, if no slot is asked for that is not there. -/
def call?
    (row : SlotRow) :
    Call → Option (Answer × SlotRow)
  | .peek => row.top?.map fun top => (.level top, row)
  | .on (.push width) =>
      (row.push? width).map fun result =>
        match result with
        | .ok after => (.outcome (.ok ()), after)
        | .error e => (.outcome (.error e), row)
  | .on .pop =>
      row.pop?.map fun popped =>
        match popped with
        | some (width, after) => (.level (some width), after)
        | none => (.level none, row)
  | .on .reset => row.reset?.map fun after => (.nothing, after)
  | .on (.note lastWidth blankRun lastColumn) =>
      some (.nothing, { row with lastWidth, blankRun, lastColumn })
  | .on (.restore bytes) =>
      (row.reload? bytes).map fun replaced => (.outcome replaced.2, replaced.1)
  | .on (.read bytes) =>
      (decode? bytes).map fun result =>
        match result with
        | .ok after => (.outcome (.ok ()), after)
        | .error e => (.outcome (.error e), row)

def run?
    (row : SlotRow) :
    List Call → Option (List Answer × SlotRow)
  | [] => some ([], row)
  | c :: calls =>
      (row.call? c).bind fun first =>
        (first.2.run? calls).map fun rest => (first.1 :: rest.1, rest.2)

/-- A call never asks for a slot of a state that is not there. -/
theorem call?_row
    (s : IndentState)
    (c : Call) :
    s.row.call? c = some ((s.call c).1, (s.call c).2.row) := by
  cases c with
  | peek =>
      rw [call?, top?_row]
      rfl
  | on operation =>
      cases operation with
      | push width =>
          rw [call?, push?_row, IndentState.call, IndentState.Operation.answer,
            IndentState.Operation.perform]
          cases s.push width <;> rfl
      | pop =>
          rw [call?, pop?_row, IndentState.call, IndentState.Operation.answer,
            IndentState.Operation.perform]
          cases s.pop? <;> rfl
      | reset =>
          rw [call?, reset?_row]
          rfl
      | note lastWidth blankRun lastColumn => rfl
      | restore bytes =>
          rw [call?, reload?_row]
          rfl
      | read bytes =>
          rw [call?, decode?_eq, IndentState.call, IndentState.Operation.answer,
            IndentState.Operation.perform]
          cases IndentState.decode bytes <;> rfl

theorem run?_row
    (s : IndentState)
    (calls : List Call) :
    s.row.run? calls = some ((s.run calls).1, (s.run calls).2.row) := by
  induction calls generalizing s with
  | nil => rfl
  | cons c calls ih =>
      rw [run?, call?_row, Option.bind_some, ih]
      rfl

end SlotRow

namespace IndentState

/-- What is read from bytes looks like what they spell. -/
theorem map_view_decode (bytes : List UInt8) :
    (decode bytes).map view = StateView.spelledBy bytes := by
  rw [StateView.spelledBy]
  cases hdecode : decode bytes with
  | error e =>
      obtain ⟨defect, hdefect, rfl⟩ := decode_eq_error_iff.1 hdecode
      rw [hdefect]
      rfl
  | ok s =>
      have hnone : defect? bytes.length = none := by
        rw [Option.eq_none_iff_forall_ne_some]
        intro defect hdefect
        rw [decode_eq_error_iff.2 ⟨defect, hdefect, rfl⟩] at hdecode
        cases hdecode
      rw [hnone]
      by_cases hnil : bytes = []
      · subst hnil
        cases hdecode
        rfl
      · have hwords : LittleEndian.words bytes = s.fields := by
          rw [← flatMap_bytes_fields_of_decode hnil hdecode, LittleEndian.words_flatMap_bytes]
        simp [hwords, fields, Except.map, view]

/-- One call gives the same answer on a state and on its list, and does the same to both. -/
theorem call_view
    (s : IndentState)
    (c : Call) :
    s.view.call c = ((s.call c).1, (s.call c).2.view) := by
  cases c with
  | peek =>
      rw [call, top?_eq_getLast?]
      rfl
  | on operation =>
      rw [call]
      cases operation with
      | push width =>
          rw [StateView.call, Operation.answer, Operation.perform]
          rcases push_cases s width with ⟨hroom, t, hpush, hview⟩ | ⟨hfull, hpush⟩
          · rw [if_pos hroom, hpush, ← hview]
            rfl
          · rw [if_neg hfull, hpush]
            rfl
      | pop =>
          rw [StateView.call, Operation.answer, Operation.perform, view_levels]
          cases hpop : s.pop? with
          | none =>
              have hnil := levels_of_pop?_eq_none hpop
              have hsame : s.view.withLevels [] = s.view :=
                StateView.ext hnil.symm rfl rfl rfl
              rw [hnil, List.dropLast_nil, hsame]
              rfl
          | some popped =>
              have hlevels := levels_of_pop? hpop
              have hview := view_of_pop? hpop
              rw [hlevels, List.dropLast_concat, List.getLast?_concat, hview]
              rfl
      | reset => rw [StateView.call, Operation.answer, Operation.perform, view_reset]; rfl
      | note lastWidth blankRun lastColumn => rfl
      | restore bytes =>
          rw [StateView.call, Operation.answer, Operation.perform, ← map_view_decode]
          cases hdecode : decode bytes with
          | error e =>
              rw [reload_of_decode_eq_error hdecode, view_reset]
              rfl
          | ok t =>
              rw [reload_of_decode_eq_ok hdecode]
              rfl
      | read bytes =>
          rw [StateView.call, Operation.answer, Operation.perform, ← map_view_decode]
          cases decode bytes <;> rfl

/-- So do any number of calls. -/
theorem run_view
    (s : IndentState)
    (calls : List Call) :
    s.view.run calls = ((s.run calls).1, (s.run calls).2.view) := by
  induction calls generalizing s with
  | nil => rfl
  | cons c calls ih =>
      rw [StateView.run, call_view, ih]
      rfl

/-- Slots that are not in use hold zero. -/
def Clean (s : IndentState) : Prop :=
  ∀ (i : Nat) (hi : i < maxDepth), s.depth ≤ i → s.slots[i] = 0

theorem clean_initial : initial.Clean := by
  intro i hi _
  exact Vector.getElem_replicate hi

theorem Clean.push
    {s t : IndentState}
    {width : UInt32}
    (h : s.Clean)
    (hpush : s.push width = .ok t) :
    t.Clean := by
  unfold IndentState.push at hpush
  split at hpush
  next hlt =>
    cases hpush
    intro i hi hdepth
    dsimp only at hdepth ⊢
    rw [Vector.getElem_set_ne hlt hi (by omega)]
    exact h i hi (by omega)
  next => cases hpush

/-- The slot that is taken out of use is cleared. -/
theorem Clean.pop?
    {s t : IndentState}
    {width : UInt32}
    (h : s.Clean)
    (hpop : s.pop? = some (width, t)) :
    t.Clean := by
  unfold IndentState.pop? at hpop
  split at hpop
  next hpos =>
    cases hpop
    intro i hi hdepth
    dsimp only at hdepth ⊢
    rw [Vector.getElem_set]
    split
    next => rfl
    next hne => exact h i hi (by omega)
  next => cases hpop

/-- So are those that a reset takes out of use. -/
theorem Clean.reset
    {s : IndentState}
    (h : s.Clean) :
    s.reset.Clean := by
  intro i hi _
  rw [IndentState.reset, Vector.getElem_ofFn]
  split
  next => rfl
  next hne => exact h i hi (Nat.not_lt.1 hne)

/-- What is read from bytes starts from a cleared row. -/
theorem clean_of_decode
    {bytes : List UInt8}
    {s : IndentState}
    (h : decode bytes = .ok s) :
    s.Clean := by
  rw [decode] at h
  split at h
  next =>
    cases h
    exact clean_initial
  next =>
    cases hdepth : depthOfLength bytes.length with
    | error e =>
        rw [hdepth] at h
        cases h
    | ok depth =>
        rw [hdepth, Except.map, Except.ok.injEq] at h
        subst h
        intro i hi hle
        have hend : ((LittleEndian.words bytes).take depth).length ≤ i :=
          Nat.le_trans (List.length_take_le _ _) hle
        simp [ofFields, slotsOf, List.getElem?_eq_none hend]

/-- A state whose other slots hold zero is told by what can be seen of it. -/
theorem Clean.eq_of_view_eq
    {s t : IndentState}
    (hs : s.Clean)
    (ht : t.Clean)
    (h : s.view = t.view) :
    s = t := by
  have hdepth := depth_eq_of_view_eq h
  obtain ⟨hlevels, hwidth, hblank, hcolumn⟩ := view_eq_iff.1 h
  have hslots : s.slots = t.slots := by
    apply Vector.ext
    intro i hi
    by_cases hlt : i < s.depth
    · have hslot := getElem?_levels s hi hlt
      rw [hlevels, getElem?_levels t hi (hdepth ▸ hlt)] at hslot
      exact (Option.some.inj hslot).symm
    · rw [hs i hi (by omega), ht i hi (by omega)]
  cases s
  cases t
  simp only [mk.injEq]
  exact ⟨hslots, hdepth, hwidth, hblank, hcolumn⟩

/-- A call leaves the slots clean that are not in use. -/
theorem Clean.call
    {s : IndentState}
    (h : s.Clean)
    (c : Call) :
    (s.call c).2.Clean := by
  cases c with
  | peek => exact h
  | on operation =>
      rw [IndentState.call]
      cases operation with
      | push width =>
          rw [Operation.perform]
          cases hpush : s.push width with
          | error e => exact h
          | ok t => exact h.push hpush
      | pop =>
          rw [Operation.perform]
          cases hpop : s.pop? with
          | none => exact h
          | some popped => exact h.pop? hpop
      | reset => exact h.reset
      | note lastWidth blankRun lastColumn => exact h
      | restore bytes =>
          rw [Operation.perform]
          cases hdecode : decode bytes with
          | error e =>
              rw [reload_of_decode_eq_error hdecode]
              exact h.reset
          | ok t =>
              rw [reload_of_decode_eq_ok hdecode]
              exact clean_of_decode hdecode
      | read bytes =>
          rw [Operation.perform]
          cases hdecode : decode bytes with
          | error e => exact h
          | ok t => exact clean_of_decode hdecode

theorem Clean.run
    {s : IndentState}
    (h : s.Clean)
    (calls : List Call) :
    (s.run calls).2.Clean := by
  induction calls generalizing s with
  | nil => exact h
  | cons c calls ih => exact ih (h.call c)

/-- Closing the level that was just opened gives the state before. -/
theorem Clean.pop?_of_push
    {s t : IndentState}
    {width : UInt32}
    (h : s.Clean)
    (hpush : s.push width = .ok t)
    (hview : t.view = s.view.withLevels (s.levels ++ [width])) :
    t.pop? = some (width, s) := by
  have hlevels := levels_of_push hpush
  cases hpop : t.pop? with
  | none =>
      rw [levels_of_pop?_eq_none hpop] at hlevels
      simp at hlevels
  | some popped =>
      obtain ⟨top, u⟩ := popped
      have hwhole := levels_of_pop? hpop
      rw [hlevels] at hwhole
      obtain ⟨hfront, htop⟩ := List.append_inj' hwhole rfl
      have htop : width = top := by simpa using htop
      have hback : u.view = s.view := by
        have hpopped := view_of_pop? hpop
        rw [hview, ← hfront, ← htop, StateView.ext_iff] at hpopped
        obtain ⟨-, hlastWidth, hblankRun, hlastColumn⟩ := hpopped
        exact StateView.ext hfront.symm hlastWidth.symm hblankRun.symm hlastColumn.symm
      rw [((h.push hpush).pop? hpop).eq_of_view_eq h hback, htop]

/-- What a state lets be seen and done is what a list of at most 128 widths does. -/
structure ActsAsList
    (s : IndentState)
    (v : StateView) :
    Prop where
  view_eq : s.view = v
  bounded : v.levels.length ≤ 128
  depth_eq : s.depth = v.levels.length
  isEmpty_iff : s.isEmpty = true ↔ v.levels = []
  isFull_iff : s.isFull = true ↔ v.levels.length = 128
  top?_eq : s.top? = v.levels.getLast?
  refuses : ∀ width, s.push width = .error (.full width 128) ↔ v.levels.length = 128
  opens :
    ∀ width, v.levels.length < 128 →
      ∃ t,
        s.push width = .ok t ∧
        t.view = v.withLevels (v.levels ++ [width]) ∧
        t.pop? = some (width, s)
  nothing_to_close : s.pop? = none ↔ v.levels = []
  closes :
    ∀ width front, v.levels = front ++ [width] →
      ∃ t, s.pop? = some (width, t) ∧ t.view = v.withLevels front
  clean : ∀ (i : Nat) (hi : i < maxDepth), s.depth ≤ i → s.slots[i] = 0

theorem Clean.actsAsList
    {s : IndentState}
    (h : s.Clean) :
    s.ActsAsList s.view where
  view_eq := rfl
  bounded := by
    rw [view_levels, levels_length]
    exact s.depth_le
  depth_eq := (levels_length s).symm
  isEmpty_iff := by
    rw [view_levels, ← List.length_eq_zero_iff, levels_length]
    exact beq_iff_eq
  isFull_iff := by
    rw [view_levels, levels_length]
    exact beq_iff_eq
  top?_eq := top?_eq_getLast? s
  refuses := by
    intro width
    have hle := s.depth_le
    have hdepth : maxDepth = 128 := rfl
    have hlength : s.view.levels.length = s.depth := levels_length s
    rcases push_cases s width with ⟨hroom, t, hpush, -⟩ | ⟨hfull, hpush⟩
    · rw [hpush]
      simp only [reduceCtorEq, false_iff]
      omega
    · rw [hpush]
      simp only [hdepth, true_iff]
      omega
  opens := by
    intro width hroom
    rcases push_cases s width with ⟨-, t, hpush, hview⟩ | ⟨hfull, -⟩
    · exact ⟨t, hpush, hview, h.pop?_of_push hpush hview⟩
    · exact absurd hroom hfull
  nothing_to_close := pop?_eq_none_iff s
  closes := by
    intro width front hlevels
    cases hpop : s.pop? with
    | none =>
        rw [view_levels, levels_of_pop?_eq_none hpop] at hlevels
        simp at hlevels
    | some popped =>
        obtain ⟨top, t⟩ := popped
        rw [view_levels, levels_of_pop? hpop] at hlevels
        obtain ⟨hfront, htop⟩ := List.append_inj' hlevels rfl
        have htop : top = width := by simpa using htop
        refine ⟨t, by rw [htop], ?_⟩
        rw [view_of_pop? hpop, ← hfront]
        rfl
  clean := h

/-- Whatever calls are made of a state that starts without levels, the answers are those
of a list of at most 128 widths, and what can be seen of the state afterwards is that
list.  No call asks for a slot that is not there, and slots that are not in use hold
zero.  A state that equals the one reached, whatever its other slots hold, answers all
further calls alike and stays equal to it. -/
theorem run_acts_on_bounded_list (calls : List Call) :
    ∃ answers s v,
      initial.run calls = (answers, s) ∧
      StateView.initial.run calls = (answers, v) ∧
      SlotRow.initial.run? calls = some (answers, s.row) ∧
      s.ActsAsList v ∧
      ∀ t : IndentState,
        (s == t) = true →
          ∀ further,
            (s.run further).1 = (t.run further).1 ∧
            ((s.run further).2 == (t.run further).2) = true ∧
            (s.run further).2.encode = (t.run further).2.encode ∧
            (s.run further).2.describe = (t.run further).2.describe := by
  refine ⟨_, _, _, rfl, run_view initial calls, SlotRow.run?_row initial calls,
    (clean_initial.run calls).actsAsList, ?_⟩
  intro t heq further
  have hview := (beq_iff_view_eq _ t).1 heq
  have hs := run_view (initial.run calls).2 further
  rw [hview, run_view t further] at hs
  obtain ⟨hanswers, hafter⟩ := Prod.mk.inj hs
  exact
    ⟨hanswers.symm, (beq_iff_view_eq _ _).2 hafter.symm, encode_eq_of_view_eq hafter.symm,
      describe_eq_of_view_eq hafter.symm⟩

end IndentState
end Offside
