import Mathlib.Algebra.Ring.Nat
import SentryCocoa.Library.Machine

/-! Crash reports over the launches of an app. A report is written by a process that crashes and is
sent by a later one: the reports on disk are read once, each is made an event and given to the SDK,
and then all reports are deleted. The envelope of an event is stored on another queue. -/
namespace SentryCocoa.CrashReportSending
open SentryCocoa.Library.Machine

/-- Whether a report can be loaded, and made an event. -/
structure Report where
  reportID : Nat
  isReadable : Bool
  isConvertible : Bool
  deriving DecidableEq, Repr

inductive DeleteBehavior where
  | never
  | onSuccess
  | always
  deriving DecidableEq, Repr

inductive Pass where
  | notStarted
  | sending (reports : List Report) (sentReports : List Report)
  | finished
  deriving DecidableEq, Repr

def Pass.isSending : Pass → Bool
  | .sending _ _ => true
  | _ => false

structure Process where
  hasClient : Bool
  pass : Pass
  queue : List Nat
  notStoredEnvelopes : List Nat
  deriving DecidableEq, Repr

/-- The events are named after their reports. A report is refused when no envelope is made of it. -/
structure State where
  deleteBehaviorAfterSendAll : DeleteBehavior
  maxReportCount : Nat
  reports : List Report
  process : Option Process
  envelopes : List Nat
  refused : List Nat
  pruned : List Nat
  written : Nat
  deriving DecidableEq, Repr

inductive Input where
  | install
  | setClient (hasClient : Bool)
  | sendAllReports
  | sendNext (isDropped : Bool)
  | complete
  | storeEnvelope (isStored : Bool)
  | writeReport (isReadable isConvertible : Bool)
  | crash (isReadable isConvertible : Bool)
  | terminate
  deriving DecidableEq, Repr

namespace State

def init (deleteBehavior : DeleteBehavior) (maxReportCount : Nat) : State :=
  ⟨deleteBehavior, maxReportCount, [], none, [], [], [], 0⟩

variable (s : State)

def withProcess (process : Process) : State := { s with process := some process }

/-- The oldest reports are deleted when there are more than the allowed ones. -/
def install : State :=
  let pruned := s.reports.take (s.reports.length - s.maxReportCount)
  { s with
    reports := s.reports.drop (s.reports.length - s.maxReportCount)
    pruned := s.pruned ++ pruned.map Report.reportID
    process := some ⟨false, .notStarted, [], []⟩ }

/-- All reports are deleted, not only those that were sent. -/
def onCompletion (process : Process) (completed : Bool) : State :=
  let deletes := match s.deleteBehaviorAfterSendAll with
    | .never => false
    | .onSuccess => completed
    | .always => true
  { s.withProcess { process with pass := .finished } with
    reports := if deletes then [] else s.reports }

/-- Reports that cannot be loaded are left out. -/
def sendAllReports (process : Process) : State :=
  let reports := s.reports.filter Report.isReadable
  let unreadable := s.reports.filter fun report => !report.isReadable
  let s := { s with refused := s.refused ++ unreadable.map Report.reportID }
  if reports = [] then s.onCompletion process true
  else s.withProcess { process with pass := .sending reports [] }

/-- One report of `sendReports:`. The client may drop the event. -/
def sendReport (process : Process) (report : Report) (reports sentReports : List Report)
    (isDropped : Bool) : State :=
  if process.hasClient ∧ report.isConvertible then
    let process := { process with pass := .sending reports (sentReports ++ [report]) }
    if isDropped then
      { s.withProcess process with refused := s.refused ++ [report.reportID] }
    else s.withProcess { process with queue := process.queue ++ [report.reportID] }
  else
    { s.withProcess { process with pass := .sending reports sentReports } with
      refused := s.refused ++ [report.reportID] }

def storeEnvelope (process : Process) (envelope : Nat) (queue : List Nat) (isStored : Bool) :
    State :=
  if isStored then
    { s.withProcess { process with queue := queue } with envelopes := s.envelopes ++ [envelope] }
  else
    s.withProcess { process with
      queue := queue
      notStoredEnvelopes := process.notStoredEnvelopes ++ [envelope] }

def writeReport (isReadable isConvertible : Bool) : State :=
  { s with
    reports := s.reports ++ [⟨s.written, isReadable, isConvertible⟩]
    written := s.written + 1 }

def step : Input → Option State
  | .install => if s.process = none then some s.install else none
  | .setClient hasClient =>
    s.process.map fun process => s.withProcess { process with hasClient := hasClient }
  | .sendAllReports => do
    let process ← s.process
    if process.pass = .notStarted then some (s.sendAllReports process) else none
  | .sendNext isDropped => do
    let process ← s.process
    match process.pass with
    | .sending (report :: reports) sentReports =>
      some (s.sendReport process report reports sentReports isDropped)
    | _ => none
  | .complete => do
    let process ← s.process
    match process.pass with
    | .sending [] _ => some (s.onCompletion process true)
    | _ => none
  | .storeEnvelope isStored => do
    let process ← s.process
    match process.queue with
    | envelope :: queue => some (s.storeEnvelope process envelope queue isStored)
    | [] => none
  | .writeReport isReadable isConvertible =>
    s.process.map fun _ => s.writeReport isReadable isConvertible
  | .crash isReadable isConvertible =>
    s.process.map fun _ => { s.writeReport isReadable isConvertible with process := none }
  | .terminate => s.process.map fun _ => { s with process := none }

/-! ### Where a report is -/

def reportIDs : List Nat := s.reports.map Report.reportID

/-- The event of the report is in an envelope of the running process. -/
def isHeld (id : Nat) : Prop :=
  ∃ process, s.process = some process ∧ (id ∈ process.queue ∨ id ∈ process.notStoredEnvelopes)

/-- The report, or what was made of it, is not lost when the process ends. -/
def isSettled (id : Nat) : Prop := id ∈ s.envelopes ∨ id ∈ s.refused ∨ id ∈ s.pruned

def isSending : Bool := s.process.any fun process => process.pass.isSending

/-- The reports were deleted and an envelope is not stored yet. -/
def isExposed : Bool :=
  s.process.any fun process => process.pass = .finished &&
    (process.queue ≠ [] || process.notStoredEnvelopes ≠ [])

end State

/-- No report is written while reports are sent, and no process ends that has to store the envelope
of a deleted report. -/
def isSafe (s : State) : Input → Bool
  | .writeReport _ _ => !s.isSending
  | .crash _ _ => !s.isExposed
  | .terminate => !s.isExposed
  | _ => true

namespace State

variable {s s' : State} {id : Nat}

/-- The report is on disk or settled. -/
def isDurable (s : State) (id : Nat) : Prop := id ∈ s.reportIDs ∨ s.isSettled id

/-- What is not lost: as long as the reports are not deleted, no report depends on the process. -/
structure Kept (s : State) : Prop where
  accounted : ∀ id < s.written, s.isDurable id ∨ s.isHeld id
  durable : (∀ process, s.process = some process → process.pass ≠ .finished) →
    ∀ id < s.written, s.isDurable id
  handled : ∀ process reports sentReports, s.process = some process →
    process.pass = .sending reports sentReports → ∀ report ∈ s.reports,
      report ∈ reports ∨ s.isSettled report.reportID ∨ s.isHeld report.reportID

theorem isSettled.mono (h : s.isSettled id) (envelopes : ∀ id ∈ s.envelopes, id ∈ s'.envelopes)
    (refused : ∀ id ∈ s.refused, id ∈ s'.refused) (pruned : ∀ id ∈ s.pruned, id ∈ s'.pruned) :
    s'.isSettled id :=
  h.imp (envelopes id) (Or.imp (refused id) (pruned id))

theorem isDurable.settled (h : s.isDurable id) (reports : s'.reports = s.reports)
    (settled : s.isSettled id → s'.isSettled id) : s'.isDurable id := by
  unfold isDurable reportIDs
  rw [reports]
  exact h.imp_right settled

theorem Kept.install (h : Kept s) (hnone : s.process = none) : Kept s.install := by
  have hdurable : ∀ id < s.written, s.install.isDurable id := by
    intro id hid
    have hbefore := h.durable (fun process hprocess => by rw [hnone] at hprocess; cases hprocess)
      id hid
    obtain hmem | hsettled := hbefore
    · obtain ⟨report, hreport, rfl⟩ := List.mem_map.mp hmem
      rw [← List.take_append_drop (s.reports.length - s.maxReportCount) s.reports] at hreport
      cases List.mem_append.mp hreport with
      | inl htake =>
        exact .inr (.inr (.inr (List.mem_append_right _ (List.mem_map_of_mem htake))))
      | inr hdrop => exact .inl (List.mem_map_of_mem hdrop)
    · refine .inr (hsettled.mono (fun _ hmem => hmem) (fun _ hmem => hmem) fun _ hmem => ?_)
      exact List.mem_append_left _ hmem
  refine ⟨fun id hid => .inl (hdurable id hid), fun _ => hdurable, ?_⟩
  intro process reports sentReports hprocess hpass
  cases hprocess
  cases hpass

theorem Kept.onCompletion (h : Kept s) {process : Process} (hprocess : s.process = some process)
    (hall : ∀ report ∈ s.reports, s.isSettled report.reportID ∨ s.isHeld report.reportID)
    (completed : Bool) : Kept (s.onCompletion process completed) := by
  have hheld {id : Nat} (hid : s.isHeld id) : (s.onCompletion process completed).isHeld id := by
    obtain ⟨other, hother, hmem⟩ := hid
    cases hprocess.symm.trans hother
    exact ⟨_, rfl, hmem⟩
  refine ⟨fun id hid => ?_, fun hpass => absurd rfl (hpass _ rfl), ?_⟩
  · obtain (hmem | hsettled) | hid := h.accounted id hid
    · obtain ⟨report, hreport, rfl⟩ := List.mem_map.mp hmem
      exact (hall report hreport).imp .inr hheld
    · exact .inl (.inr hsettled)
    · exact .inr (hheld hid)
  · intro process reports sentReports hprocess hpass
    cases hprocess
    cases hpass

theorem Kept.sendAllReports (h : Kept s) {process : Process} (hprocess : s.process = some process)
    (hpass : process.pass = .notStarted) : Kept (s.sendAllReports process) := by
  -- the reports that cannot be loaded are refused
  have hrefused : Kept { s with
      refused := s.refused ++
        (s.reports.filter fun report => !report.isReadable).map Report.reportID } := by
    have hsettled {id : Nat} (hid : s.isSettled id) : ({ s with
        refused := s.refused ++
          (s.reports.filter fun report => !report.isReadable).map Report.reportID } :
        State).isSettled id :=
      hid.mono (fun _ hmem => hmem) (fun _ hmem => List.mem_append_left _ hmem) fun _ hmem => hmem
    refine ⟨fun id hid => ?_, fun hnot id hid => ?_, ?_⟩
    · exact (h.accounted id hid).imp_left fun hsafe => hsafe.settled rfl hsettled
    · exact (h.durable hnot id hid).settled rfl hsettled
    · intro other reports sentReports hother hsending
      cases hprocess.symm.trans hother
      rw [hpass] at hsending
      cases hsending
  have hunreadable (report : Report) (hreport : report ∈ s.reports)
      (hnot : report.isReadable = false) : report.reportID ∈ s.refused ++
        (s.reports.filter fun report => !report.isReadable).map Report.reportID := by
    refine List.mem_append_right _ (List.mem_map_of_mem ?_)
    exact List.mem_filter.mpr ⟨hreport, by rw [hnot]; rfl⟩
  unfold State.sendAllReports
  dsimp only
  split
  · rename_i hempty
    refine hrefused.onCompletion hprocess (fun report hreport => ?_) true
    refine .inl (.inr (.inl (hunreadable report hreport ?_)))
    exact Bool.eq_false_iff.mpr (List.filter_eq_nil_iff.mp hempty report hreport)
  · have hdurable := hrefused.durable fun other hother => by
      cases hprocess.symm.trans hother
      rw [hpass]
      decide
    refine ⟨fun id hid => .inl (hdurable id hid), fun _ => hdurable, ?_⟩
    intro other reports sentReports hother hsending report hreport
    cases hother
    cases hsending
    cases hreadable : report.isReadable with
    | true => exact .inl (List.mem_filter.mpr ⟨hreport, hreadable⟩)
    | false => exact .inr (.inl (.inr (.inl (hunreadable report hreport hreadable))))

/-- A step of the process that neither deletes a report nor starts or ends the pass. -/
theorem Kept.goes (h : Kept s) {process process' : Process} (hprocess : s.process = some process)
    (hprocess' : s'.process = some process') (reports : s'.reports = s.reports)
    (written : s'.written = s.written) (settled : ∀ id, s.isSettled id → s'.isSettled id)
    (held : ∀ id, s.isHeld id → s'.isSettled id ∨ s'.isHeld id)
    (finished : process'.pass ≠ .finished → process.pass ≠ .finished)
    (handled : ∀ todo' sentReports', process'.pass = .sending todo' sentReports' →
      ∃ todo sentReports, process.pass = .sending todo sentReports ∧ ∀ report ∈ todo,
        report ∈ todo' ∨ s'.isSettled report.reportID ∨ s'.isHeld report.reportID) : Kept s' where
  accounted id hid := by
    obtain hsafe | hheld := h.accounted id (written ▸ hid)
    · exact .inl (hsafe.settled reports (settled id))
    · exact (held id hheld).imp_left .inr
  durable hnot id hid := by
    refine (h.durable (fun other hother => ?_) id (written ▸ hid)).settled reports (settled id)
    cases hprocess.symm.trans hother
    exact finished (hnot process' hprocess')
  handled other todo' sentReports' hother hpass report hreport := by
    cases hprocess'.symm.trans hother
    obtain ⟨todo, sentReports, hbefore, htodo⟩ := handled todo' sentReports' hpass
    obtain hmem | hrest := h.handled process todo sentReports hprocess hbefore report
      (reports ▸ hreport)
    · exact htodo report hmem
    · exact .inr (hrest.elim (fun hsettled => .inl (settled _ hsettled)) (held _))

theorem Kept.sendReport (h : Kept s) {process : Process} (hprocess : s.process = some process)
    {report : Report} {reports sentReports : List Report}
    (hpass : process.pass = .sending (report :: reports) sentReports) (isDropped : Bool) :
    Kept (s.sendReport process report reports sentReports isDropped) := by
  have hheld {id : Nat} (hid : s.isHeld id) :
      id ∈ process.queue ∨ id ∈ process.notStoredEnvelopes := by
    obtain ⟨other, hother, hmem⟩ := hid
    cases hprocess.symm.trans hother
    exact hmem
  -- the report is refused
  have hrefuse (process' : Process) (hqueue : process'.queue = process.queue)
      (hnotStored : process'.notStoredEnvelopes = process.notStoredEnvelopes)
      (sent : List Report) (hpass' : process'.pass = .sending reports sent) :
      Kept { s.withProcess process' with refused := s.refused ++ [report.reportID] } := by
    refine h.goes hprocess rfl rfl rfl ?_ (fun id hid => .inr ⟨process', rfl, ?_⟩) ?_ ?_
    · exact fun id hid => hid.mono (fun _ hmem => hmem)
        (fun _ hmem => List.mem_append_left _ hmem) fun _ hmem => hmem
    · rw [hqueue, hnotStored]
      exact hheld hid
    · intro _
      rw [hpass]
      exact Pass.noConfusion
    · intro todo' sent' hsending
      cases hpass'.symm.trans hsending
      refine ⟨_, _, hpass, fun other hother => ?_⟩
      cases List.mem_cons.mp hother with
      | inl heq =>
        refine .inr (.inl (.inr (.inl (List.mem_append_right _ ?_))))
        rw [heq]
        exact List.mem_cons_self
      | inr hmem => exact .inl hmem
  unfold State.sendReport
  split
  · split
    · exact hrefuse _ rfl rfl _ rfl
    · refine h.goes hprocess rfl rfl rfl (fun id hid => hid) (fun id hid => .inr ⟨_, rfl, ?_⟩) ?_ ?_
      · exact (hheld hid).imp_left (List.mem_append_left _)
      · intro _
        rw [hpass]
        exact Pass.noConfusion
      · intro todo' sent' hsending
        cases hsending
        refine ⟨_, _, hpass, fun other hother => ?_⟩
        cases List.mem_cons.mp hother with
        | inl heq =>
          refine .inr (.inr ⟨_, rfl, .inl (List.mem_append_right _ ?_)⟩)
          rw [heq]
          exact List.mem_cons_self
        | inr hmem => exact .inl hmem
  · exact hrefuse _ rfl rfl _ rfl

theorem Kept.storeEnvelope (h : Kept s) {process : Process} (hprocess : s.process = some process)
    {envelope : Nat} {queue : List Nat} (hqueue : process.queue = envelope :: queue)
    (isStored : Bool) : Kept (s.storeEnvelope process envelope queue isStored) := by
  have hheld {id : Nat} (hid : s.isHeld id) :
      id = envelope ∨ id ∈ queue ∨ id ∈ process.notStoredEnvelopes := by
    obtain ⟨other, hother, hmem⟩ := hid
    cases hprocess.symm.trans hother
    rw [hqueue, List.mem_cons, or_assoc] at hmem
    exact hmem
  unfold State.storeEnvelope
  split
  · refine h.goes hprocess rfl rfl rfl ?_ (fun id hid => ?_) (fun hnot => hnot) ?_
    · exact fun id hid => hid.mono (fun _ hmem => List.mem_append_left _ hmem)
        (fun _ hmem => hmem) fun _ hmem => hmem
    · obtain rfl | hmem := hheld hid
      · exact .inl (.inl (List.mem_append_right _ List.mem_cons_self))
      · exact .inr ⟨_, rfl, hmem⟩
    · exact fun todo' sent' hsending => ⟨todo', sent', hsending, fun _ hmem => .inl hmem⟩
  · refine h.goes hprocess rfl rfl rfl (fun id hid => hid) (fun id hid => .inr ⟨_, rfl, ?_⟩)
      (fun hnot => hnot) ?_
    · obtain rfl | hmem := hheld hid
      · exact .inr (List.mem_append_right _ List.mem_cons_self)
      · exact hmem.imp_right (List.mem_append_left _)
    · exact fun todo' sent' hsending => ⟨todo', sent', hsending, fun _ hmem => .inl hmem⟩

theorem isDurable_writeReport (isReadable isConvertible : Bool) (hid : id < s.written → s.isDurable id)
    (hlt : id < s.written + 1) : (s.writeReport isReadable isConvertible).isDurable id := by
  cases Nat.lt_succ_iff_lt_or_eq.mp hlt with
  | inl hold =>
    refine (hid hold).imp_left fun hmem => ?_
    unfold reportIDs State.writeReport
    rw [List.map_append]
    exact List.mem_append_left _ hmem
  | inr heq =>
    refine .inl (List.mem_map.mpr ⟨⟨s.written, isReadable, isConvertible⟩, ?_, heq.symm⟩)
    exact List.mem_append_right _ List.mem_cons_self

theorem Kept.writeReport (h : Kept s) (hsending : s.isSending = false)
    (isReadable isConvertible : Bool) : Kept (s.writeReport isReadable isConvertible) where
  accounted id hid := by
    cases Nat.lt_succ_iff_lt_or_eq.mp hid with
    | inl hlt =>
      refine (h.accounted id hlt).imp_left fun hsafe => ?_
      exact isDurable_writeReport isReadable isConvertible (fun _ => hsafe) hid
    | inr heq =>
      refine .inl (isDurable_writeReport isReadable isConvertible (fun hlt => ?_) hid)
      exact absurd heq (Nat.ne_of_lt hlt)
  durable hnot id hid := isDurable_writeReport isReadable isConvertible (h.durable hnot id) hid
  handled process reports sentReports hprocess hpass := by
    change s.process = some process at hprocess
    rw [isSending, hprocess, Option.any_some, hpass] at hsending
    cases hsending

/-- When no envelope of a deleted report is held, nothing depends on the process. -/
theorem Kept.safe (h : Kept s) (hexposed : s.isExposed = false) (id : Nat) (hid : id < s.written) :
    s.isDurable id := by
  obtain hsafe | ⟨process, hprocess, hmem⟩ := h.accounted id hid
  · exact hsafe
  · refine h.durable (fun other hother hfinished => ?_) id hid
    cases hprocess.symm.trans hother
    rw [isExposed, hprocess, Option.any_some, hfinished] at hexposed
    have hempty : process.queue = [] ∧ process.notStoredEnvelopes = [] := by
      simpa using hexposed
    rw [hempty.1, hempty.2] at hmem
    exact hmem.elim List.not_mem_nil List.not_mem_nil

theorem Kept.of_safe (hsafe : ∀ id < s.written, s.isDurable id) (hnone : s.process = none) : Kept s where
  accounted id hid := .inl (hsafe id hid)
  durable _ := hsafe
  handled process _ _ hprocess := by
    rw [hnone] at hprocess
    cases hprocess

theorem Kept.step {input : Input} (h : Kept s)
    (hsafe : isSafe s input = true) (hstep : s.step input = some s') :
    Kept s' := by
  cases input with
  | install =>
    change (if s.process = none then some s.install else none) = some s' at hstep
    split at hstep
    · rename_i hnone
      cases hstep
      exact h.install hnone
    · cases hstep
  | setClient hasClient =>
    obtain ⟨process, hprocess, rfl⟩ := Option.map_eq_some_iff.mp hstep
    refine h.goes hprocess rfl rfl rfl (fun id hid => hid) (fun id hid => .inr ?_)
      (fun hnot => hnot) fun todo sent hsending => ⟨todo, sent, hsending, fun _ hmem => .inl hmem⟩
    obtain ⟨other, hother, hmem⟩ := hid
    cases hprocess.symm.trans hother
    exact ⟨_, rfl, hmem⟩
  | sendAllReports =>
    obtain ⟨process, hprocess, hrest⟩ := Option.bind_eq_some_iff.mp hstep
    split at hrest
    · rename_i hpass
      cases hrest
      exact h.sendAllReports hprocess hpass
    · cases hrest
  | sendNext isDropped =>
    obtain ⟨process, hprocess, hrest⟩ := Option.bind_eq_some_iff.mp hstep
    split at hrest
    · rename_i report reports sentReports hpass
      cases hrest
      exact h.sendReport hprocess hpass isDropped
    · cases hrest
  | complete =>
    obtain ⟨process, hprocess, hrest⟩ := Option.bind_eq_some_iff.mp hstep
    split at hrest
    · rename_i sentReports hpass
      cases hrest
      refine h.onCompletion hprocess (fun report hreport => ?_) true
      exact (h.handled process [] sentReports hprocess hpass report hreport).resolve_left
        List.not_mem_nil
    · cases hrest
  | storeEnvelope isStored =>
    obtain ⟨process, hprocess, hrest⟩ := Option.bind_eq_some_iff.mp hstep
    split at hrest
    · rename_i envelope queue hqueue
      cases hrest
      exact h.storeEnvelope hprocess hqueue isStored
    · cases hrest
  | writeReport isReadable isConvertible =>
    obtain ⟨process, hprocess, rfl⟩ := Option.map_eq_some_iff.mp hstep
    exact h.writeReport (by simpa [isSafe] using hsafe) isReadable isConvertible
  | crash isReadable isConvertible =>
    obtain ⟨process, hprocess, rfl⟩ := Option.map_eq_some_iff.mp hstep
    refine Kept.of_safe (fun id hid => ?_) rfl
    exact isDurable_writeReport isReadable isConvertible
      (h.safe (by simpa [isSafe] using hsafe) id) hid
  | terminate =>
    obtain ⟨process, hprocess, rfl⟩ := Option.map_eq_some_iff.mp hstep
    exact Kept.of_safe (h.safe (by simpa [isSafe] using hsafe)) rfl

theorem kept_init (deleteBehavior : DeleteBehavior) (maxReportCount : Nat) :
    Kept (init deleteBehavior maxReportCount) :=
  Kept.of_safe (fun _ hid => absurd hid (Nat.not_lt_zero _)) rfl

end State

/-- Of two crashes, the second before the reports are sent, one report is sent and the other is
not made an event. -/
def twoCrashes : List Input :=
  [.install, .crash true true, .install, .crash true false, .install, .setClient true,
    .sendAllReports, .sendNext false, .sendNext false, .complete, .storeEnvelope true, .terminate]

end SentryCocoa.CrashReportSending
