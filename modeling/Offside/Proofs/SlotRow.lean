import Offside.Proofs.StateCodec

/-!
# Slots that are there

A state has as many slots as its type says, and carries a proof that its depth does not
exceed that number.  So no operation on a state can reach for a slot that is not there,
and none says what would happen then.

Here the operations are done on a bare row instead: slots, and a counter of which nothing
is known.  They look at one slot or one field after another, and give up as soon as a
slot, a byte or a part of the bytes is asked for that is not there, or the counter would
fall below zero.  On the row of a state they never give up, and do what the operation on
the state does.  The bytes of a state are read in the same way: once their number has
been checked, nothing is asked for that they do not have (`SlotRow.decode?_eq`).
-/

namespace Offside

/-- Slots, a counter for those in use, and the numbers about the lines before. -/
structure SlotRow where
  slots : Vector UInt32 maxDepth
  depth : Nat
  lastWidth : Int32
  blankRun : Int32
  lastColumn : Int32

namespace IndentState

/-- The slots of a state and its counter, without what is known of them. -/
def row (s : IndentState) : SlotRow :=
  ⟨s.slots, s.depth, s.lastWidth, s.blankRun, s.lastColumn⟩

end IndentState

namespace SlotRow

open IndentState (slotsOf depthOfLength trailerFields wordBytes)

def initial : SlotRow :=
  ⟨Vector.replicate maxDepth 0, 0, unmeasured, 0, unmeasured⟩

/-- Writes one slot. -/
def write?
    (row : SlotRow)
    (index : Nat)
    (width : UInt32) :
    Option SlotRow :=
  if h : index < maxDepth then some { row with slots := row.slots.set index width } else none

/-- The slots in use. -/
def levels? (row : SlotRow) : Option (List UInt32) :=
  if row.depth ≤ maxDepth then some (row.slots.toList.take row.depth) else none

def top? (row : SlotRow) : Option (Option UInt32) :=
  row.levels?.map List.getLast?

/-- Writes the slot behind those in use, and takes it into use. -/
def append?
    (row : SlotRow)
    (width : UInt32) :
    Option SlotRow :=
  (row.write? row.depth width).map fun after => { after with depth := row.depth + 1 }

def push?
    (row : SlotRow)
    (width : UInt32) :
    Option (Except IndentState.Error SlotRow) :=
  if row.depth = maxDepth then
    some (.error (.full width maxDepth))
  else
    (row.append? width).map .ok

def pop? (row : SlotRow) : Option (Option (UInt32 × SlotRow)) :=
  row.top?.bind fun top =>
    match top with
    | none => some none
    | some width =>
        if row.depth = 0 then
          none
        else
          (row.write? (row.depth - 1) 0).map fun after =>
            some (width, { after with depth := row.depth - 1 })

def reset? (row : SlotRow) : Option SlotRow :=
  if row.depth ≤ maxDepth then
    some
      { initial with
        slots := Vector.ofFn fun i => if i.val < row.depth then 0 else row.slots.get i }
  else
    none

/-- Takes slots into use for some widths, one after another. -/
def load? (row : SlotRow) : List UInt32 → Option SlotRow
  | [] => some row
  | width :: rest => (row.append? width).bind fun after => after.load? rest

/-- Some bytes, and those behind them. -/
def splitAt?
    (count : Nat)
    (bytes : List UInt8) :
    Option (List UInt8 × List UInt8) :=
  if count ≤ bytes.length then some (bytes.take count, bytes.drop count) else none

/-- The word that a field spells. -/
def word? : List UInt8 → Option UInt32
  | [a, b, c, d] => some (LittleEndian.word a b c d)
  | _ => none

/-- Reads the levels of a state, and then its three numbers. -/
def readFields?
    (depth : Nat)
    (bytes : List UInt8) :
    Option SlotRow := do
  let (levels, numbers) ← splitAt? (depth * wordBytes) bytes
  let row ← initial.load? (LittleEndian.words levels)
  let (lastWidth, rest) ← splitAt? wordBytes numbers
  let (blankRun, lastColumn) ← splitAt? wordBytes rest
  let lastWidth ← word? lastWidth
  let blankRun ← word? blankRun
  let lastColumn ← word? lastColumn
  return { row with
    lastWidth := lastWidth.toInt32
    blankRun := blankRun.toInt32
    lastColumn := lastColumn.toInt32 }

def decode? (bytes : List UInt8) : Option (Except IndentState.Error SlotRow) :=
  if bytes.isEmpty then
    some (.ok initial)
  else
    match depthOfLength bytes.length with
    | .error e => some (.error e)
    | .ok depth => (readFields? depth bytes).map .ok

def reload?
    (row : SlotRow)
    (bytes : List UInt8) :
    Option (SlotRow × Except IndentState.Error Unit) :=
  (decode? bytes).bind fun result =>
    match result with
    | .ok after => some (after, .ok ())
    | .error e => row.reset?.map fun after => (after, .error e)

theorem write?_of_lt
    (row : SlotRow)
    {index : Nat}
    (h : index < maxDepth)
    (width : UInt32) :
    row.write? index width = some { row with slots := row.slots.set index width } :=
  dif_pos h

theorem append?_of_lt
    {row : SlotRow}
    (h : row.depth < maxDepth)
    (width : UInt32) :
    row.append? width =
      some { row with slots := row.slots.set row.depth width, depth := row.depth + 1 } := by
  rw [append?, write?_of_lt row h]
  rfl

theorem top?_row (s : IndentState) : s.row.top? = some s.top? := by
  have hlevels : s.row.levels? = some s.levels := if_pos s.depth_le
  rw [top?, hlevels, IndentState.top?_eq_getLast?]
  rfl

theorem push?_row
    (s : IndentState)
    (width : UInt32) :
    s.row.push? width = some ((s.push width).map IndentState.row) := by
  have hle := s.depth_le
  by_cases hfull : s.depth = maxDepth
  · have hpush : s.push width = .error (.full width maxDepth) := dif_neg (by omega)
    have hrow : s.row.push? width = some (.error (.full width maxDepth)) := if_pos hfull
    rw [hrow, hpush]
    rfl
  · have hne : s.row.depth ≠ maxDepth := hfull
    have hlt : s.row.depth < maxDepth := Nat.lt_of_le_of_ne hle hfull
    have hpush : s.push width = .ok _ := dif_pos hlt
    rw [push?, if_neg hne, append?_of_lt hlt, hpush]
    rfl

theorem pop?_row (s : IndentState) :
    s.row.pop? = some (s.pop?.map fun popped => (popped.1, popped.2.row)) := by
  have hle := s.depth_le
  by_cases hpos : 0 < s.depth
  · have htop : s.top? = some _ := dif_pos hpos
    have hpop : s.pop? = some _ := dif_pos hpos
    have hne : s.row.depth ≠ 0 := Nat.ne_of_gt hpos
    have hlt : s.row.depth - 1 < maxDepth := by
      show s.depth - 1 < maxDepth
      omega
    rw [pop?, top?_row, htop, hpop, Option.bind_some]
    dsimp only
    rw [if_neg hne, write?_of_lt s.row hlt]
    rfl
  · have htop : s.top? = none := dif_neg hpos
    have hpop : s.pop? = none := dif_neg hpos
    rw [pop?, top?_row, htop, hpop]
    rfl

theorem reset?_row (s : IndentState) : s.row.reset? = some s.reset.row :=
  if_pos s.depth_le

/-- The slot behind the first ones is written to go on with them. -/
theorem set_slotsOf
    {widths : List UInt32}
    (h : widths.length < maxDepth)
    (width : UInt32) :
    (slotsOf widths).set widths.length width = slotsOf (widths ++ [width]) := by
  apply Vector.ext
  intro i hi
  rw [Vector.getElem_set]
  simp only [slotsOf, Vector.getElem_ofFn]
  rcases Nat.lt_trichotomy i widths.length with hlt | rfl | hgt
  · rw [if_neg (Nat.ne_of_gt hlt), List.getElem?_append_left hlt]
  · simp
  · have hend : (widths ++ [width]).length ≤ i := by
      rw [List.length_append, List.length_singleton]
      omega
    rw [if_neg (Nat.ne_of_lt hgt), List.getElem?_eq_none (by omega), List.getElem?_eq_none hend]

theorem slotsOf_nil : slotsOf [] = Vector.replicate maxDepth 0 := by
  apply Vector.ext
  intro i hi
  simp [slotsOf]

/-- Widths for which there is room are all written. -/
theorem load?_of_le
    {row : SlotRow}
    {before widths : List UInt32}
    (hslots : row.slots = slotsOf before)
    (hdepth : row.depth = before.length)
    (hroom : (before ++ widths).length ≤ maxDepth) :
    row.load? widths =
      some { row with
        slots := slotsOf (before ++ widths)
        depth := (before ++ widths).length } := by
  induction widths generalizing row before with
  | nil =>
      rw [List.append_nil, ← hslots, ← hdepth]
      rfl
  | cons width widths ih =>
      obtain ⟨slots, depth, lastWidth, blankRun, lastColumn⟩ := row
      dsimp only at hslots hdepth
      subst hslots hdepth
      have hlt : before.length < maxDepth := by
        rw [List.length_append, List.length_cons] at hroom
        omega
      have hwhole : before ++ [width] ++ widths = before ++ width :: widths := by simp
      have hlength : (before ++ [width]).length = before.length + 1 := by simp
      have hrest :=
        @ih ⟨slotsOf (before ++ [width]), before.length + 1, lastWidth, blankRun, lastColumn⟩
          (before ++ [width]) rfl hlength.symm (by rwa [hwhole])
      rw [load?, append?_of_lt hlt, Option.bind_some, set_slotsOf hlt, hrest, hwhole]

theorem splitAt?_append
    (front back : List UInt8) :
    splitAt? front.length (front ++ back) = some (front, back) := by
  have hle : front.length ≤ (front ++ back).length := by simp
  rw [splitAt?, if_pos hle, List.take_left, List.drop_left]

/-- A field of four bytes spells a word, which is the next one of the bytes that it starts. -/
theorem exists_word?
    {field : List UInt8}
    (h : field.length = wordBytes) :
    ∃ w,
      word? field = some w ∧
      ∀ rest, LittleEndian.words (field ++ rest) = w :: LittleEndian.words rest := by
  match field, h with
  | [a, b, c, d], _ => exact ⟨_, rfl, fun _ => rfl⟩

/-- Bytes of the right length are levels and three fields. -/
theorem exists_fields
    {depth : Nat}
    {bytes : List UInt8}
    (h : bytes.length = (depth + trailerFields) * wordBytes) :
    ∃ levels lastWidth blankRun lastColumn,
      bytes = levels ++ (lastWidth ++ (blankRun ++ lastColumn)) ∧
      levels.length = depth * wordBytes ∧
      lastWidth.length = wordBytes ∧
      blankRun.length = wordBytes ∧
      lastColumn.length = wordBytes := by
  have hlength : bytes.length = depth * wordBytes + 3 * wordBytes := by
    rw [h, Nat.add_mul]
    rfl
  have hword : wordBytes = 4 := rfl
  refine
    ⟨bytes.take (depth * wordBytes),
      (bytes.drop (depth * wordBytes)).take wordBytes,
      ((bytes.drop (depth * wordBytes)).drop wordBytes).take wordBytes,
      ((bytes.drop (depth * wordBytes)).drop wordBytes).drop wordBytes, ?_⟩
  simp only [List.take_append_drop, List.length_take, List.length_drop]
  refine ⟨trivial, ?_⟩
  omega

/-- The row of a state that is made of its fields. -/
theorem row_ofFields
    {depth : Fin (maxDepth + 1)}
    {levels : List UInt32}
    (h : levels.length = depth)
    (a b c : UInt32) :
    (IndentState.ofFields depth (levels ++ [a, b, c])).row =
      ⟨slotsOf levels, depth, a.toInt32, b.toInt32, c.toInt32⟩ := by
  have htake : (levels ++ [a, b, c]).take depth = levels := List.take_left' h
  rw [IndentState.row, IndentState.ofFields, htake]
  simp [← h]

/-- Once their number has been checked, bytes have all the fields that are asked for. -/
theorem readFields?_of_depthOfLength
    {bytes : List UInt8}
    {depth : Fin (maxDepth + 1)}
    (h : depthOfLength bytes.length = .ok depth) :
    readFields? depth bytes = some (IndentState.ofFields depth (LittleEndian.words bytes)).row := by
  obtain ⟨levels, a, b, c, rfl, hlevels, ha, hb, hc⟩ :=
    exists_fields (IndentState.length_of_depthOfLength h)
  obtain ⟨lastWidth, hlastWidth, hwordsA⟩ := exists_word? ha
  obtain ⟨blankRun, hblankRun, hwordsB⟩ := exists_word? hb
  obtain ⟨lastColumn, hlastColumn, hwordsC⟩ := exists_word? hc
  have hwords :
      LittleEndian.words (levels ++ (a ++ (b ++ c))) =
        LittleEndian.words levels ++ [lastWidth, blankRun, lastColumn] := by
    have hwhole : levels.length % LittleEndian.width = 0 := by
      rw [hlevels]
      exact Nat.mul_mod_left _ _
    have hlast := hwordsC []
    rw [List.append_nil] at hlast
    rw [LittleEndian.words_append hwhole, hwordsA, hwordsB, hlast]
    rfl
  have hcount : (LittleEndian.words levels).length = depth := by
    rw [LittleEndian.words_length, hlevels]
    exact Nat.mul_div_cancel _ (by decide)
  have hroom : ([] ++ LittleEndian.words levels).length ≤ maxDepth := by
    rw [List.nil_append, hcount]
    exact Nat.le_of_lt_succ depth.isLt
  have hload := @load?_of_le initial [] (LittleEndian.words levels) slotsOf_nil.symm rfl hroom
  rw [List.nil_append] at hload
  have hsplit := splitAt?_append levels (a ++ (b ++ c))
  rw [hlevels] at hsplit
  have hsplitA := splitAt?_append a (b ++ c)
  have hsplitB := splitAt?_append b c
  rw [ha] at hsplitA
  rw [hb] at hsplitB
  rw [hwords, row_ofFields hcount, readFields?, hsplit]
  simp only [bind, Option.bind_some, hload, hsplitA, hsplitB, hlastWidth, hblankRun, hlastColumn,
    hcount]
  rfl

/-- Reading bytes never asks for a byte or a slot that is not there. -/
theorem decode?_eq (bytes : List UInt8) :
    decode? bytes = some ((IndentState.decode bytes).map IndentState.row) := by
  rw [decode?, IndentState.decode]
  by_cases hempty : bytes.isEmpty = true
  · rw [if_pos hempty, if_pos hempty]
    rfl
  · rw [if_neg hempty, if_neg hempty]
    cases hdepth : depthOfLength bytes.length with
    | error e => rfl
    | ok depth =>
        dsimp only
        rw [readFields?_of_depthOfLength hdepth]
        rfl

theorem reload?_row
    (s : IndentState)
    (bytes : List UInt8) :
    s.row.reload? bytes = some ((s.reload bytes).1.row, (s.reload bytes).2) := by
  rw [reload?, decode?_eq, IndentState.reload]
  cases IndentState.decode bytes with
  | error e =>
      rw [Option.bind_some]
      dsimp only [Except.map]
      rw [reset?_row]
      rfl
  | ok t => rfl

end SlotRow
end Offside
