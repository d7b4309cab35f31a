import Offside.Proofs.JsonPrinting
import Offside.Report.Structured

/-!
# Reading a JSON report

The report of a trace is a JSON text that spells one value only.  Its events and checkpoints
are read back from that value field by field (`event?`, `checkpoint?`): numbers as numbers
without sign, fraction and exponent, tokens by their names, and the bytes of a state as
numbers below 256.
-/

namespace Offside
namespace JsonReport

open Json (Datum IsText)
open Layout (Event Checkpoint Trace)

def natural? : Datum → Option Nat
  | .number n => if n = .natural n.mantissa then some n.mantissa else none
  | _ => none

def byte? (d : Datum) : Option UInt8 :=
  (natural? d).bind fun n => if n < 256 then some (UInt8.ofNat n) else none

def text? : Datum → Option String
  | .string cs => some (String.ofList cs)
  | _ => none

def bytes? : Datum → Option (List UInt8)
  | .array items => items.mapM byte?
  | _ => none

/-- The value of the first field with a name. -/
def field?
    (name : String) :
    Datum → Option Datum
  | .object fields => (fields.find? fun field => String.ofList field.1 == name).map Prod.snd
  | _ => none

def event? (d : Datum) : Option Event := do
  let line ← (field? "line" d).bind natural?
  let name ← (field? "token" d).bind text?
  let token ← Layout.Token.ofName? name
  pure ⟨line, token⟩

def checkpoint? (d : Datum) : Option Checkpoint := do
  let line ← (field? "line" d).bind natural?
  let offset ← (field? "offset" d).bind natural?
  let emitted ← (field? "emitted" d).bind natural?
  let state ← (field? "state" d).bind bytes?
  pure ⟨line, offset, emitted, state⟩

@[simp] theorem natural?_number (n : Nat) : natural? (.number (.natural n)) = some n :=
  if_pos rfl

@[simp] theorem byte?_number (b : UInt8) : byte? (.number (.natural b.toNat)) = some b := by
  rw [byte?, natural?_number, Option.bind_some, if_pos b.toNat_lt, UInt8.ofNat_toNat]

/-- Values that are read one by one are read together. -/
theorem mapM_map_eq_some
    {α β : Type}
    {read : β → Option α}
    {write : α → β}
    (h : ∀ a, read (write a) = some a)
    (xs : List α) :
    (xs.map write).mapM read = some xs := by
  induction xs with
  | nil => rfl
  | cons a xs ih =>
      rw [List.map_cons, List.mapM_cons, h, ih]
      rfl

theorem bytes?_array (bytes : List UInt8) :
    bytes? (Json.datum (.array (bytes.map fun b => .number b.toNat))) = some bytes := by
  rw [Json.datum, Json.data_eq_map, List.map_map]
  exact mapM_map_eq_some byte?_number bytes

theorem event?_ofEvent (e : Event) : event? (ofEvent e).datum = some e := by
  simp [event?, ofEvent, Json.datum, Json.dataOfFields, field?, text?]

theorem checkpoint?_ofCheckpoint (c : Checkpoint) :
    checkpoint? (ofCheckpoint c).datum = some c := by
  have hstate := bytes?_array c.state
  simp [checkpoint?, ofCheckpoint, Json.dataOfFields, field?, Json.datum] at hstate ⊢
  simp [hstate]

/-- With checkpoints, the report of a trace is a text that spells an object with an array of
events and one of checkpoints, and nothing else; they are read back as those of the trace.
Without checkpoints it spells an array alone, which is read back as the events. -/
theorem json_report_spells_trace (trace : Trace) :
    (∃ events checkpoints,
      (∀ d, IsText d (render trace true) ↔
        d = .object
          [("events".toList, .array events), ("checkpoints".toList, .array checkpoints)]) ∧
      events.mapM event? = some trace.events ∧
      checkpoints.mapM checkpoint? = some trace.checkpoints) ∧
    (∃ events,
      (∀ d, IsText d (render trace false) ↔ d = .array events) ∧
      events.mapM event? = some trace.events) := by
  have hevents : (Json.data (trace.events.map ofEvent)).mapM event? = some trace.events := by
    rw [Json.data_eq_map, List.map_map]
    exact mapM_map_eq_some event?_ofEvent trace.events
  have hcheckpoints :
      (Json.data (trace.checkpoints.map ofCheckpoint)).mapM checkpoint? =
        some trace.checkpoints := by
    rw [Json.data_eq_map, List.map_map]
    exact mapM_map_eq_some checkpoint?_ofCheckpoint trace.checkpoints
  constructor
  · refine ⟨_, _, ?_, hevents, hcheckpoints⟩
    intro d
    exact Json.isText_render_iff (ofTrace trace) d
  · refine ⟨_, ?_, hevents⟩
    intro d
    exact Json.isText_render_iff (ofEvents trace.events) d

end JsonReport
end Offside
