import Mathlib.Logic.Function.Basic
import Offside.Proofs.OpenLevels
import Offside.Proofs.StateCodec

/-!
# States held side by side

A host holds several states at once, one for each branch that it follows, and stores
their written forms for later.  It may do with them what it likes, in any order, as
long as it opens no level that is not wider than the innermost one, and reads no bytes
but those that it stored, or such as are refused.

Reading does not look at the order of levels.  They increase all the same in every
state that the host can come to hold, since each operation keeps them increasing, those
that fail included (`Operation.increasing_perform`), and what was stored is read back
as it was.
-/

namespace Offside
namespace IndentState

/-- What is done to one state. -/
inductive Operation where
  | push (width : UInt32)
  | pop
  | reset
  | note (lastWidth blankRun lastColumn : Int32)
  /-- Bytes that are refused leave the state reset. -/
  | restore (bytes : List UInt8)
  /-- Bytes that are refused leave the state alone. -/
  | read (bytes : List UInt8)

/-- A written form, and the state that it was taken from. -/
structure Stored where
  bytes : List UInt8
  origin : IndentState

/-- The bytes are those that the state is written as, and its levels increase. -/
structure Stored.Faithful (stored : Stored) : Prop where
  bytes_eq : stored.bytes = stored.origin.encode
  increasing : stored.origin.view.Increasing

namespace Operation

/-- What an operation makes of a state. -/
def perform
    (s : IndentState) :
    Operation → IndentState
  | .push width =>
      match s.push width with
      | .ok t => t
      | .error _ => s
  | .pop =>
      match s.pop? with
      | some (_, t) => t
      | none => s
  | .reset => s.reset
  | .note lastWidth blankRun lastColumn => { s with lastWidth, blankRun, lastColumn }
  | .restore bytes => (s.reload bytes).1
  | .read bytes =>
      match decode bytes with
      | .ok t => t
      | .error _ => s

/-- Whether bytes are stored, or refused. -/
def MayRead
    (cache : List Stored)
    (bytes : List UInt8) :
    Prop :=
  (∃ stored ∈ cache, stored.bytes = bytes) ∨ ∃ e, decode bytes = .error e

/-- Whether an operation may be done to a state. -/
def Allowed
    (cache : List Stored)
    (s : IndentState) :
    Operation → Prop
  | .push width => ∀ top ∈ s.top?, top < width
  | .restore bytes => MayRead cache bytes
  | .read bytes => MayRead cache bytes
  | .pop => True
  | .reset => True
  | .note _ _ _ => True

end Operation

/-- States that a host holds side by side, and what it has stored. -/
structure Snapshots (count : Nat) where
  states : Fin count → IndentState
  cache : List Stored

/-- What a host does next. -/
inductive Action (count : Nat) where
  | on (index : Fin count) (operation : Operation)
  | copy (source target : Fin count)
  | swap (first second : Fin count)
  | store (index : Fin count)

namespace Snapshots

variable {count : Nat}

/-- States that are all as they are before the first line, and nothing stored. -/
def start (count : Nat) : Snapshots count :=
  ⟨fun _ => initial, []⟩

def put
    (snapshots : Snapshots count)
    (index : Fin count)
    (s : IndentState) :
    Snapshots count :=
  { snapshots with states := Function.update snapshots.states index s }

def perform
    (snapshots : Snapshots count) :
    Action count → Snapshots count
  | .on index operation => snapshots.put index (operation.perform (snapshots.states index))
  | .copy source target => snapshots.put target (snapshots.states source)
  | .swap first second =>
      (snapshots.put first (snapshots.states second)).put second (snapshots.states first)
  | .store index =>
      let s := snapshots.states index
      { snapshots with cache := ⟨s.encode, s⟩ :: snapshots.cache }

def Allowed
    (snapshots : Snapshots count) :
    Action count → Prop
  | .on index operation => operation.Allowed snapshots.cache (snapshots.states index)
  | .copy _ _ => True
  | .swap _ _ => True
  | .store _ => True

/-- What a host can come to hold. -/
inductive Reachable : Snapshots count → Prop
  | start : Reachable (start count)
  | step
      {snapshots : Snapshots count}
      (h : Reachable snapshots)
      (action : Action count)
      (hallowed : snapshots.Allowed action) :
      Reachable (snapshots.perform action)

/-- The levels increase in every state that is held or was stored. -/
structure Increasing (snapshots : Snapshots count) : Prop where
  states : ∀ index, (snapshots.states index).view.Increasing
  cache : ∀ stored ∈ snapshots.cache, stored.Faithful

end Snapshots

/-- A level that is wider than the innermost one is wider than all of them. -/
theorem lt_of_mem_levels
    {s : IndentState}
    (h : s.view.Increasing)
    {width : UInt32}
    (hwidth : ∀ top ∈ s.top?, top < width)
    {level : UInt32}
    (hlevel : level ∈ s.levels) :
    level < width := by
  have hle := h.le_currentWidth hlevel
  rw [view_currentWidth, currentWidth] at hle
  cases htop : s.top? with
  | none =>
      rw [top?_eq_getLast?, List.getLast?_eq_none_iff] at htop
      rw [htop] at hlevel
      cases hlevel
  | some top =>
      rw [htop] at hle
      exact UInt32.lt_of_le_of_lt hle (hwidth top htop)

/-- What was stored is read back as it was. -/
theorem increasing_of_decode
    {cache : List Stored}
    (hcache : ∀ stored ∈ cache, stored.Faithful)
    {bytes : List UInt8}
    (hbytes : Operation.MayRead cache bytes)
    {t : IndentState}
    (hdecode : decode bytes = .ok t) :
    t.view.Increasing := by
  rcases hbytes with ⟨stored, hstored, rfl⟩ | ⟨e, hrefused⟩
  · obtain ⟨hwritten, hincreasing⟩ := hcache stored hstored
    obtain ⟨u, hread, hview⟩ := exists_decode_encode stored.origin
    rw [hwritten, hread, Except.ok.injEq] at hdecode
    rw [← hdecode, hview]
    exact hincreasing
  · rw [hrefused] at hdecode
    cases hdecode

/-- An operation that is allowed keeps the levels increasing, whether it succeeds or
fails. -/
theorem Operation.increasing_perform
    {cache : List Stored}
    (hcache : ∀ stored ∈ cache, stored.Faithful)
    {s : IndentState}
    (h : s.view.Increasing)
    {operation : Operation}
    (hallowed : operation.Allowed cache s) :
    (operation.perform s).view.Increasing := by
  cases operation with
  | push width =>
      rw [perform]
      cases hpush : s.push width with
      | error e => exact h
      | ok t =>
          show t.levels.Pairwise (· < ·)
          rw [levels_of_push hpush, List.pairwise_append]
          refine ⟨h, List.pairwise_singleton _ _, ?_⟩
          intro level hlevel inner hinner
          rw [List.mem_singleton.1 hinner]
          exact lt_of_mem_levels h hallowed hlevel
  | pop =>
      rw [perform]
      cases hpop : s.pop? with
      | none => exact h
      | some popped => exact h.of_append (levels_of_pop? hpop)
  | reset => exact List.Pairwise.nil
  | note lastWidth blankRun lastColumn => exact h
  | restore bytes =>
      rw [perform, reload]
      cases hdecode : decode bytes with
      | error e => exact List.Pairwise.nil
      | ok t => exact increasing_of_decode hcache hallowed hdecode
  | read bytes =>
      rw [perform]
      cases hdecode : decode bytes with
      | error e => exact h
      | ok t => exact increasing_of_decode hcache hallowed hdecode

namespace Snapshots

variable {count : Nat} {snapshots : Snapshots count}

theorem Increasing.put
    (h : snapshots.Increasing)
    (index : Fin count)
    {s : IndentState}
    (hs : s.view.Increasing) :
    (snapshots.put index s).Increasing := by
  refine ⟨?_, h.cache⟩
  intro other
  show (Function.update snapshots.states index s other).view.Increasing
  by_cases hother : other = index
  · rw [hother, Function.update_self]
    exact hs
  · rw [Function.update_of_ne hother]
    exact h.states other

/-- One action keeps the levels increasing. -/
theorem Increasing.perform
    (h : snapshots.Increasing)
    {action : Action count}
    (hallowed : snapshots.Allowed action) :
    (snapshots.perform action).Increasing := by
  cases action with
  | on index operation =>
      exact h.put index (Operation.increasing_perform h.cache (h.states index) hallowed)
  | copy source target => exact h.put target (h.states source)
  | swap first second => exact (h.put first (h.states second)).put second (h.states first)
  | store index =>
      refine ⟨h.states, ?_⟩
      intro stored hstored
      rcases List.mem_cons.1 hstored with rfl | hstored
      · exact ⟨rfl, h.states index⟩
      · exact h.cache stored hstored

/-- So do any number of actions. -/
theorem Reachable.increasing (h : snapshots.Reachable) : snapshots.Increasing := by
  induction h with
  | start => exact ⟨fun _ => StateView.increasing_initial, List.forall_mem_nil _⟩
  | step _ _ hallowed ih => exact ih.perform hallowed

/-- In whatever order a host opens and closes levels, resets, copies and swaps states,
writes their numbers, and stores and reads their written forms, the states that it
holds have levels that increase from the outermost to the innermost, and no more than
there is room for.  Every written form that it has stored is read as a state that is
equal to the one that it was taken from. -/
theorem levels_increasing_of_reachable
    {count : Nat}
    {snapshots : Snapshots count}
    (h : snapshots.Reachable) :
    (∀ index : Fin count,
      (snapshots.states index).levels.length ≤ maxDepth ∧
      (snapshots.states index).levels.Pairwise (· < ·)) ∧
    ∀ stored ∈ snapshots.cache,
      ∃ s,
        decode stored.bytes = .ok s ∧
        (s == stored.origin) = true ∧
        s.levels.Pairwise (· < ·) := by
  refine ⟨?_, ?_⟩
  · intro index
    refine ⟨?_, h.increasing.states index⟩
    rw [levels_length]
    exact (snapshots.states index).depth_le
  · intro stored hstored
    obtain ⟨hwritten, hincreasing⟩ := h.increasing.cache stored hstored
    obtain ⟨s, hread, hview⟩ := exists_decode_encode stored.origin
    rw [hwritten]
    refine ⟨s, hread, (beq_iff_view_eq s stored.origin).2 hview, ?_⟩
    rw [← hview] at hincreasing
    exact hincreasing

/-- A state is stored, narrowed and restored, and another one that was copied from it is
reset by bytes that are refused. -/
theorem levels_increasing_of_reachable_restored :
    ∃ snapshots : Snapshots 2,
      snapshots.Reachable ∧
      (snapshots.states 0).levels = [3, 7] ∧
      (snapshots.states 1).levels = [] ∧
      snapshots.cache.length = 1 ∧
      (∀ index : Fin 2, (snapshots.states index).levels.Pairwise (· < ·)) ∧
      ∀ stored ∈ snapshots.cache,
        ∃ s, decode stored.bytes = .ok s ∧ (s == stored.origin) = true := by
  have hempty : (start 2).Allowed (.on 0 (.push 3)) := by
    intro top htop
    cases htop
  have hfirst := Reachable.start.step _ hempty
  have hwider : ((start 2).perform (.on 0 (.push 3))).Allowed (.on 0 (.push 7)) := by
    intro top htop
    cases htop
    decide +kernel
  have hstored := (hfirst.step _ hwider).step (.store 0) trivial
  have hnarrowed := (hstored.step (.on 0 .pop) trivial).step (.copy 0 1) trivial
  have hrestored := hnarrowed.step (.on 0 (.restore _)) (.inl ⟨_, List.mem_cons_self, rfl⟩)
  have hreset := hrestored.step (.on 1 (.restore [1, 2, 3, 4, 5])) (.inr ⟨_, rfl⟩)
  obtain ⟨hstates, hcache⟩ := levels_increasing_of_reachable hreset
  refine ⟨_, hreset, by decide +kernel, by decide +kernel, rfl, ?_, ?_⟩
  · exact fun index => (hstates index).2
  · intro stored hmem
    obtain ⟨s, hread, heq, -⟩ := hcache stored hmem
    exact ⟨s, hread, heq⟩

end Snapshots
end IndentState
end Offside
