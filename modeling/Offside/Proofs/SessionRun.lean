import Offside.Proofs.Resumption

/-!
# Sessions that go on

A session splices traces that were made at different times from different
sources.  What it holds is compared here with the trace of one source, that of
the last step that succeeded: a step which fails may leave the session with a
source that it knows nothing about.

A request to go on at a held checkpoint is admitted when its source starts as the
source of the last successful step does, up to the checkpoint.  Nothing else is
asked of a request, so checkpoints may be tried that lie far behind the last one
used, and again and again.  One admitted request keeps the trace right
(`Host.InSync.perform`), and so do any number of them (`Host.InSync.run`).
-/

namespace Offside
namespace Layout

namespace Session

variable {session : Session} {options : Options} {index : Nat}

theorem takeUp_of_getElem?_eq_none
    (h : session.held.checkpoints[index]? = none) :
    session.takeUp options index = (session, .error .noCheckpoint) := by
  simp only [takeUp, h]

theorem takeUp_of_ofCheckpoint_eq_error
    {checkpoint : Checkpoint}
    {cause : Error}
    (h : session.held.checkpoints[index]? = some checkpoint)
    (hrefused : Scan.ofCheckpoint session.source options checkpoint = .error cause) :
    session.takeUp options index = (session, .error (.layout cause)) := by
  simp only [takeUp, h, hrefused]

theorem takeUp_of_ofCheckpoint_eq_ok
    {checkpoint : Checkpoint}
    {scan : Scan}
    (h : session.held.checkpoints[index]? = some checkpoint)
    (hscan : Scan.ofCheckpoint session.source options checkpoint = .ok scan) :
    session.takeUp options index =
      ({ session with held := splice session.held index checkpoint scan.trace },
        .ok (scan.cursor.state, scan.trace)) := by
  simp only [takeUp, h, hscan]

end Session

/-- What a session is asked to do next. -/
inductive Request where
  | scan (source : List Char)
  | takeUp (index : Nat) (source : List Char)

/-- A session, and the source of its last successful step. -/
structure Host where
  session : Session
  /-- The source that the held trace should belong to. -/
  settled : List Char

namespace Host

/-- The source that is settled after an answer. -/
def settle
    {α : Type}
    (host : Host)
    (source : List Char)
    (answer : Session × Except Session.Refusal α) :
    Host where
  session := answer.1
  settled :=
    match answer.2 with
    | .ok _ => source
    | .error _ => host.settled

/-- Carries out a request. -/
def perform
    (options : Options)
    (host : Host) :
    Request → Host
  | .scan source => host.settle source ((host.session.edit source).scanAll options)
  | .takeUp index source =>
      host.settle source ((host.session.edit source).takeUp options index)

/-- A session that starts with the scan of a source. -/
def start
    (options : Options)
    (source : List Char) :
    Host :=
  perform options ⟨Session.initial, []⟩ (.scan source)

/-- Carries out some requests one after the other. -/
def run
    (options : Options)
    (host : Host)
    (requests : List Request) :
    Host :=
  requests.foldl (perform options) host

/-- Whether a request may be made: a source to go on in starts as the settled
one does, up to the checkpoint. -/
def Admits
    (host : Host) :
    Request → Prop
  | .scan _ => True
  | .takeUp index source =>
      ∀ checkpoint ∈ host.session.held.checkpoints[index]?,
        (Utf8.bytes source).take checkpoint.offset =
          (Utf8.bytes host.settled).take checkpoint.offset

instance (host : Host) : DecidablePred host.Admits
  | .scan _ => inferInstanceAs (Decidable True)
  | .takeUp _ _ => inferInstanceAs (Decidable (∀ _ ∈ _, _))

/-- Whether requests may be made in this order. -/
def AdmitsAll
    (options : Options)
    (host : Host) :
    List Request → Prop
  | [] => True
  | request :: rest => host.Admits request ∧ (host.perform options request).AdmitsAll options rest

/-- The held trace is the trace of the settled source. -/
def InSync
    (options : Options)
    (host : Host) :
    Prop :=
  traceOf host.settled options = .ok host.session.held

variable {options : Options} {host : Host}

/-- A scan brings a session in order whatever it held before. -/
theorem inSync_perform_scan
    (htab : options.tabWidth ≠ 0)
    (host : Host)
    (source : List Char) :
    (host.perform options (.scan source)).InSync options := by
  have htrace := traceOf_eq htab source
  simp only [InSync, perform, settle, Session.scanAll, Session.edit, htrace]

/-- One admitted request keeps a session in order. -/
theorem InSync.perform
    (htab : options.tabWidth ≠ 0)
    (hsync : host.InSync options)
    {request : Request}
    (hadmits : host.Admits request) :
    (host.perform options request).InSync options := by
  cases request with
  | scan source => exact inSync_perform_scan htab host source
  | takeUp index source =>
      rw [Host.perform]
      cases hcheckpoint : (host.session.edit source).held.checkpoints[index]? with
      | none =>
          rw [Session.takeUp_of_getElem?_eq_none hcheckpoint]
          exact hsync
      | some checkpoint =>
          have hagree := hadmits checkpoint hcheckpoint
          rcases resume_or_refuse htab hsync hcheckpoint hagree with
            ⟨-, hrefused⟩ | ⟨-, scan, hscan, -, hspliced⟩
          · rw [Session.takeUp_of_ofCheckpoint_eq_error hcheckpoint hrefused]
            exact hsync
          · rw [Session.takeUp_of_ofCheckpoint_eq_ok hcheckpoint hscan]
            exact hspliced

/-- So do any number of them. -/
theorem InSync.run
    (htab : options.tabWidth ≠ 0)
    (hsync : host.InSync options)
    {requests : List Request}
    (hadmits : host.AdmitsAll options requests) :
    (host.run options requests).InSync options := by
  induction requests generalizing host with
  | nil => exact hsync
  | cons request rest ih => exact ih (hsync.perform htab hadmits.1) hadmits.2

end Host

/-- Whatever admitted requests came before, and whether they succeeded or failed,
a session holds the events and the checkpoints of the source that was scanned or
taken up last with success. -/
theorem holds_trace_of_settled
    {options : Options}
    (htab : options.tabWidth ≠ 0)
    (source : List Char)
    {requests : List Request}
    (hadmits : (Host.start options source).AdmitsAll options requests) :
    traceOf ((Host.start options source).run options requests).settled options =
      .ok ((Host.start options source).run options requests).session.held :=
  (Host.inSync_perform_scan htab _ source).run htab hadmits

/-- A step that fails between steps that succeed, and a checkpoint far behind the
last one used. -/
theorem holds_trace_of_settled_after_failure :
    let host :=
      (Host.start {} "a\n  b\rc".toList).run {}
        [.takeUp 1 "a\n  b\r\nc".toList,
          .takeUp 1 "a\n  b\r    d".toList,
          .takeUp 2 "a\n  b\r    d\ne".toList,
          .takeUp 0 "a\n\tx".toList]
    host.settled = "a\n\tx".toList ∧
    traceOf "a\n\tx".toList {} = .ok host.session.held := by
  have hadmits :
      (Host.start {} "a\n  b\rc".toList).AdmitsAll {}
        [.takeUp 1 "a\n  b\r\nc".toList,
          .takeUp 1 "a\n  b\r    d".toList,
          .takeUp 2 "a\n  b\r    d\ne".toList,
          .takeUp 0 "a\n\tx".toList] :=
    ⟨by decide +kernel, by decide +kernel, by decide +kernel, by decide +kernel, trivial⟩
  have hheld := holds_trace_of_settled (by decide) _ hadmits
  have hsettled :
      ((Host.start {} "a\n  b\rc".toList).run {}
        [.takeUp 1 "a\n  b\r\nc".toList,
          .takeUp 1 "a\n  b\r    d".toList,
          .takeUp 2 "a\n  b\r    d\ne".toList,
          .takeUp 0 "a\n\tx".toList]).settled = "a\n\tx".toList := by
    decide +kernel
  rw [hsettled] at hheld
  exact ⟨hsettled, hheld⟩

end Layout
end Offside
