import SentryCocoa.HubSessions

/-! The session tracker starts and ends sessions as the app comes to the foreground
and leaves it. Every notification is handled to its end before the next one; the
process can be killed between two of them. A launch starts its tracker at most
once, and the tracker gets no notification before. -/
namespace SentryCocoa.SessionTracker
open SentryCocoa.Foundation SentryCocoa.Serialization SentryCocoa.Session SentryCocoa.Hub
open SentryCocoa.Library.Machine SentryCocoa.Library.Journal

structure SentrySessionTracker where
  sessionTrackingIntervalMillis : Nat
  subscribedToNotifications : Bool
  wasDidBecomeActiveCalled : Bool
  lastInForeground : Option NSDate

/-- The tracker with the hub that it drives and the file that it keeps. -/
structure Device where
  app : App
  tracker : SentrySessionTracker
  timestampLastInForeground : Option String

inductive Event where
  | start
  | didBecomeActive (sessionId : NSUUID) (date : NSDate) (environmentString : Option String)
  | willResignActive (date : NSDate)
  | willTerminate (date : NSDate)
  /-- The process is killed; the next launch comes with its own client and options. -/
  | kill (client : SentryClient) (sessionTrackingIntervalMillis : Nat)

def initWithOptions (sessionTrackingIntervalMillis : Nat) : SentrySessionTracker where
  sessionTrackingIntervalMillis := sessionTrackingIntervalMillis
  subscribedToNotifications := false
  wasDidBecomeActiveCalled := false
  lastInForeground := none

/-- The client drops sessions without a release name. -/
def hasReleaseName (session : SentrySession) : Bool :=
  session.releaseName.isSome && session.releaseName != some ""

/-- The session updates that the client sends. -/
def captured (app : App) : List SentrySession :=
  ((app.updates.filter Update.handed).map Update.session).filter hasReleaseName

namespace Device
variable (json : NSJSONSerialization) (dates : NSDateFormatter)

def readTimestampLastInForeground (device : Device) : Option NSDate :=
  device.timestampLastInForeground.bind dates.fromIso8601String

/-- What a call still has to do after the lock, when nothing else runs. -/
def complete (date : NSDate) (app : App) : App :=
  (app.step json dates (.resume 0 true date)).getD app

def startSession (app : App) (sessionId : NSUUID) (date : NSDate)
    (environmentString : Option String) : Option App :=
  (app.step json dates (.startSession sessionId date environmentString)).map
    (complete json dates date)

def endSessionWithTimestamp (app : App) (timestamp : NSDate) : Option App :=
  (app.step json dates (.endSessionWithTimestamp timestamp)).map (complete json dates timestamp)

/-- `endCachedSession`, then the subscription to the notifications. -/
def start (device : Device) : Option Device :=
  let lastInForeground := device.readTimestampLastInForeground dates
  (device.app.step json dates (.closeCachedSessionWithTimestamp lastInForeground)).map fun app =>
    { app := app
      tracker := { device.tracker with subscribedToNotifications := true }
      timestampLastInForeground :=
        if lastInForeground.isSome then none else device.timestampLastInForeground }

def didBecomeActive (device : Device) (sessionId : NSUUID) (date : NSDate)
    (environmentString : Option String) : Option Device :=
  if device.tracker.wasDidBecomeActiveCalled then some device
  else
    let app := match device.readTimestampLastInForeground dates with
      | none => startSession json dates device.app sessionId date environmentString
      | some lastInForeground =>
        let millisInBackground := date.milliseconds - lastInForeground.milliseconds
        if millisInBackground ≥ device.tracker.sessionTrackingIntervalMillis then
          (endSessionWithTimestamp json dates device.app lastInForeground).bind fun app =>
            startSession json dates app sessionId date environmentString
        else some device.app
    app.map fun app =>
      { app := app
        tracker :=
          { device.tracker with wasDidBecomeActiveCalled := true, lastInForeground := none }
        timestampLastInForeground := none }

def willResignActive (device : Device) (date : NSDate) : Device :=
  { device with
    tracker :=
      { device.tracker with lastInForeground := some date, wasDidBecomeActiveCalled := false }
    timestampLastInForeground := some (dates.toIso8601String date) }

def willTerminate (device : Device) (date : NSDate) : Option Device :=
  let sessionEnded := device.tracker.lastInForeground.getD date
  (endSessionWithTimestamp json dates device.app sessionEnded).map fun app =>
    { app := app
      tracker := { device.tracker with wasDidBecomeActiveCalled := false }
      timestampLastInForeground := none }

/-- Without a subscription a notification is lost. -/
def step (device : Device) : Event → Option Device
  | .start =>
    if device.tracker.subscribedToNotifications then none else device.start json dates
  | .didBecomeActive sessionId date environmentString =>
    if device.tracker.subscribedToNotifications then
      device.didBecomeActive json dates sessionId date environmentString
    else some device
  | .willResignActive date =>
    if device.tracker.subscribedToNotifications then some (device.willResignActive dates date)
    else some device
  | .willTerminate date =>
    if device.tracker.subscribedToNotifications then device.willTerminate json dates date
    else some device
  | .kill client sessionTrackingIntervalMillis =>
    (device.app.step json dates (.restart (some client) false)).map fun app =>
      { device with app := app, tracker := initWithOptions sessionTrackingIntervalMillis }

end Device

def firstLaunch (client : SentryClient) (sessionTrackingIntervalMillis : Nat) : Device where
  app := launch (some client) false
  tracker := initWithOptions sessionTrackingIntervalMillis
  timestampLastInForeground := none

/-! The state of the sessions between two notifications. -/

/-- A session that the client knows and that no update has ended. -/
def Open (app : App) (sessionId : NSUUID) : Prop :=
  (∃ update ∈ captured app, update.sessionId = sessionId) ∧
    ∀ update ∈ captured app, update.sessionId = sessionId → ¬ update.status.terminal

section Sessions
variable {json : NSJSONSerialization} {dates : NSDateFormatter}

variable (dates) in
/-- Only the session that is live is open. -/
structure Tidy (app : App) : Prop where
  inv : app.Inv dates
  calls : app.calls = []
  client : app.hub.client.isSome
  crashedLastLaunch : app.hub.crashedLastLaunch = false
  written : ∀ sessionDictionary, app.hub.currentSession = some sessionDictionary →
    ∃ (session : SentrySession) (date : NSDate),
      sessionDictionary = session.serialize dates date
  live : ∀ sessionId, Open app sessionId →
    ∃ session, app.hub.live dates = some session ∧ session.sessionId = sessionId ∧
      hasReleaseName session ∧
      ∀ update ∈ captured app, update.sessionId = sessionId → update.started = session.started

theorem captured_record (app : App) (hub : SentryHub) (session : SentrySession)
    (calls : List Call) :
    captured ({ app with hub := hub }.record [⟨session, true⟩] calls) =
      captured app ++ [session].filter hasReleaseName := by
  simp [captured, App.record, List.filter_append]

theorem open_append {app app' : App} {session : SentrySession}
    (h : captured app' = captured app ++ [session].filter hasReleaseName) {sessionId : NSUUID}
    (hopen : Open app' sessionId) :
    Open app sessionId ∨ session.sessionId = sessionId ∧ hasReleaseName session = true := by
  obtain ⟨⟨update, hupdate, hid⟩, hnone⟩ := hopen
  rw [h] at hupdate hnone
  rcases List.mem_append.mp hupdate with hold | hnew
  · exact .inl ⟨⟨update, hold, hid⟩, fun u hu => hnone u (List.mem_append_left _ hu)⟩
  · obtain ⟨hmem, hrelease⟩ := List.mem_filter.mp hnew
    obtain rfl := List.mem_singleton.mp hmem
    exact .inr ⟨hid, hrelease⟩

theorem not_open_of_terminal {app app' : App} {session : SentrySession}
    (h : captured app' = captured app ++ [session].filter hasReleaseName)
    (terminal : session.status.terminal) (release : hasReleaseName session = true) :
    ¬ Open app' session.sessionId := by
  intro hopen
  apply hopen.2 session _ rfl terminal
  rw [h]
  exact List.mem_append_right _ (List.mem_filter.mpr ⟨List.mem_singleton_self _, release⟩)

theorem Tidy.not_open {app : App} (h : Tidy dates app) (live : app.hub.live dates = none)
    (sessionId : NSUUID) : ¬ Open app sessionId := by
  intro hopen
  obtain ⟨session, hsession, -⟩ := h.live sessionId hopen
  rw [live] at hsession
  cases hsession

/-- The last update of the live session closes everything. -/
theorem Tidy.not_open_ended {app app' : App} (h : Tidy dates app) {session ended : SentrySession}
    (live : app.hub.live dates = some session)
    (hcaptured : captured app' = captured app ++ [ended].filter hasReleaseName)
    (hended : Ended session ended) (terminal : ended.status.terminal)
    (release : ended.releaseName = session.releaseName) (sessionId : NSUUID) :
    ¬ Open app' sessionId := by
  have hrelease : hasReleaseName ended = hasReleaseName session := by
    unfold hasReleaseName
    rw [release]
  intro hopen
  rcases open_append hcaptured hopen with hold | ⟨rfl, hnew⟩
  · obtain ⟨session', hsession', rfl, hrelease', -⟩ := h.live sessionId hold
    obtain rfl : session = session' := Option.some.inj (live.symm.trans hsession')
    rw [← hended.sessionId] at hopen
    exact not_open_of_terminal hcaptured terminal (hrelease.trans hrelease') hopen
  · exact not_open_of_terminal hcaptured terminal hnew hopen

theorem inv_complete {app : App} (h : app.Inv dates) (date : NSDate) :
    (Device.complete json dates date app).Inv dates := by
  unfold Device.complete
  cases hstep : app.step json dates (.resume 0 true date) with
  | none => exact h
  | some app' => exact h.resume json hstep

/-- The session that is ended is the live one. -/
def Settled (dates : NSDateFormatter) (hub : SentryHub) : Prop :=
  hub.session = none → hub.cached dates = none

variable (json dates) in
theorem endSessionWithTimestamp_eq {app : App} (hcalls : app.calls = []) (timestamp : NSDate) :
    Device.endSessionWithTimestamp json dates app timestamp =
      some ({ app with hub := app.hub.endSession.1 }.record
        (Update.ofSession (app.hub.session.map fun session : SentrySession =>
          session.endSessionExitedWithTimestamp timestamp) true)
        []) := by
  cases hsession : app.hub.session <;>
    simp [Device.endSessionWithTimestamp, App.step, Device.complete, App.record, App.resumeCall,
      SentryHub.endSession, Update.ofSession, hsession, hcalls]

variable (json dates) in
theorem startSession_eq {app : App} (hcalls : app.calls = []) (hsession : app.hub.session = none)
    {sessionId : NSUUID} (hfresh : app.fresh sessionId = true) (date : NSDate)
    (environmentString : Option String) :
    Device.startSession json dates app sessionId date environmentString =
      some ({ app with
          hub := (app.hub.startSession dates sessionId date environmentString).1 }.record
        (Update.ofSession (app.hub.startSession dates sessionId date environmentString).2.1 true)
        []) := by
  rcases app.hub.startSession_cases dates sessionId date environmentString with
    ⟨hnone, -⟩ | ⟨hub, begun, hsome, -⟩
  · simp [Device.startSession, App.step, Device.complete, App.record, hfresh, hnone, hcalls,
      Update.ofSession]
  · simp [Device.startSession, App.step, Device.complete, App.record, hfresh, hsome, hcalls,
      Update.ofSession, hsession]

theorem endSession_hub {hub : SentryHub} (hclient : hub.client.isSome) :
    hub.endSession.1 =
      { hub with session := none, errorsBeforeSession := 0, currentSession := none } := by
  obtain ⟨client, hclient⟩ := Option.isSome_iff_exists.mp hclient
  unfold SentryHub.endSession SentryHub.deleteCurrentSession
  simp only [hclient]

theorem inv_endSession {app app' : App} (h : app.Inv dates) {timestamp : NSDate}
    (hend : Device.endSessionWithTimestamp json dates app timestamp = some app') :
    app'.Inv dates := by
  obtain ⟨app₁, hstep, rfl⟩ := Option.map_eq_some_iff.mp hend
  exact inv_complete (h.endSession json hstep) timestamp

theorem inv_startSession {app app' : App} (h : app.Inv dates) {sessionId : NSUUID} {date : NSDate}
    {environmentString : Option String}
    (hstart : Device.startSession json dates app sessionId date environmentString = some app') :
    app'.Inv dates := by
  obtain ⟨app₁, hstep, rfl⟩ := Option.map_eq_some_iff.mp hstart
  exact inv_complete (h.startSession json hstep) date

theorem Tidy.of_not_open {app app' : App} (h : Tidy dates app) (inv : app'.Inv dates)
    (calls : app'.calls = []) (client : app'.hub.client = app.hub.client)
    (crashedLastLaunch : app'.hub.crashedLastLaunch = app.hub.crashedLastLaunch)
    (file : app'.hub.currentSession = none) (closed : ∀ sessionId, ¬ Open app' sessionId) :
    Tidy dates app' where
  inv := inv
  calls := calls
  client := client ▸ h.client
  crashedLastLaunch := crashedLastLaunch ▸ h.crashedLastLaunch
  written _ hwritten := by
    rw [file] at hwritten
    cases hwritten
  live sessionId hopen := absurd hopen (closed sessionId)

variable (json) in
theorem endSession_spec {app : App} (h : Tidy dates app) (settled : Settled dates app.hub)
    (timestamp : NSDate) :
    ∃ app', Device.endSessionWithTimestamp json dates app timestamp = some app' ∧
      Tidy dates app' ∧ app'.hub.session = none ∧ app'.hub.live dates = none := by
  have hend := endSessionWithTimestamp_eq json dates h.calls timestamp
  have hhub := endSession_hub h.client
  rw [hhub] at hend
  refine ⟨_, hend, ?_, rfl, rfl⟩
  refine h.of_not_open (inv_endSession h.inv hend) ?_ rfl rfl rfl ?_
  · exact (List.append_nil _).trans h.calls
  · cases hsession : app.hub.session with
    | none =>
      intro sessionId hopen
      have hlive : app.hub.live dates = none := by
        rw [SentryHub.live, hsession, Option.none_or]
        exact settled hsession
      apply h.not_open hlive sessionId
      simpa [Open, captured, App.record, Update.ofSession, hsession] using hopen
    | some session =>
      exact h.not_open_ended (SentryHub.live_of_session hsession) (captured_record _ _ _ _)
        (ended_exited session timestamp) (show SentrySessionStatus.exited.terminal by decide) rfl

theorem storeCurrentSession_crashedLastLaunch (hub : SentryHub) (session : SentrySession)
    (date : NSDate) :
    (hub.storeCurrentSession dates session date).crashedLastLaunch = hub.crashedLastLaunch := by
  unfold SentryHub.storeCurrentSession
  split <;> rfl

variable (dates) in
theorem startSession_crashedLastLaunch (hub : SentryHub) (sessionId : NSUUID) (date : NSDate)
    (environmentString : Option String) :
    (hub.startSession dates sessionId date environmentString).1.crashedLastLaunch =
      hub.crashedLastLaunch := by
  unfold SentryHub.startSession
  split
  · rfl
  · split
    · rfl
    · exact storeCurrentSession_crashedLastLaunch _ _ _

variable (json) in
theorem startSession_spec {app : App} (h : Tidy dates app) (live : app.hub.live dates = none)
    {sessionId : NSUUID} (hfresh : app.fresh sessionId = true) (date : NSDate)
    (environmentString : Option String) :
    ∃ app', Device.startSession json dates app sessionId date environmentString = some app' ∧
      Tidy dates app' ∧ Settled dates app'.hub := by
  obtain ⟨hsession, hcached⟩ := Option.or_eq_none_iff.mp live
  have hstart := startSession_eq json dates h.calls hsession hfresh date
    environmentString
  have hcrashed := startSession_crashedLastLaunch dates app.hub sessionId date
    environmentString
  refine ⟨_, hstart, ?_⟩
  have hinv := inv_startSession h.inv hstart
  rcases app.hub.startSession_cases dates sessionId date environmentString with
    ⟨hnone, -⟩ | ⟨hub, begun, hsome, hsound, hcurrent, hbegun⟩
  · rw [hnone]
    exact ⟨(App.record_nil app).symm ▸ h, fun _ => hcached⟩
  · rw [hsome] at hinv hcrashed ⊢
    obtain ⟨client, releaseName, hclient, -⟩ := hsound.client begun hcurrent
    obtain ⟨stored, hstored⟩ := hsound.stored begun hcurrent
    refine ⟨⟨hinv, ?_, ?_, ?_, ?_, ?_⟩, ?_⟩
    · exact (List.append_nil _).trans h.calls
    · exact Option.isSome_iff_exists.mpr ⟨client, hclient⟩
    · exact hcrashed.trans h.crashedLastLaunch
    · intro sessionDictionary hwritten
      exact ⟨begun, stored, Option.some.inj (hwritten.symm.trans hstored)⟩
    · intro id hopen
      rcases open_append (captured_record app hub begun []) hopen with hold | ⟨rfl, hrelease⟩
      · exact absurd hold (h.not_open live id)
      · refine ⟨begun, SentryHub.live_of_session hcurrent, rfl, hrelease, ?_⟩
        intro update hupdate hid
        change update ∈ captured ({ app with hub := hub }.record [⟨begun, true⟩] []) at hupdate
        rw [captured_record] at hupdate
        rcases List.mem_append.mp hupdate with hold | hnew
        · refine absurd (hid.trans hbegun.sessionId) (App.fresh_iff hfresh update ?_)
          exact (List.filter_sublist.map _).subset (List.mem_of_mem_filter hold)
        · rw [List.mem_singleton.mp (List.mem_of_mem_filter hnew)]
    · intro hnone
      rw [show hub.session = none from hnone] at hcurrent
      cases hcurrent

theorem cached_of_file {hub : SentryHub} {session : SentrySession} {date : NSDate}
    (h : hub.currentSession = some (session.serialize dates date)) :
    hub.cached dates = if hasReleaseName session then some (session.stored date) else none := by
  unfold SentryHub.cached
  rw [h, Option.bind_some, SentrySession.sessionWithData_serialize]
  unfold hasReleaseName
  cases hrelease : session.releaseName with
  | none => simp
  | some releaseName =>
    by_cases hempty : releaseName = ""
    · simp [hempty]
    · simp [hempty]

variable (json) in
theorem kill_spec {app : App} (h : Tidy dates app) (client : SentryClient) :
    ∃ app', app.step json dates (.restart (some client) false) = some app' ∧ Tidy dates app' ∧
      app'.hub.session = none ∧ captured app' = captured app := by
  have hstep : app.step json dates (.restart (some client) false) = some _ := rfl
  refine ⟨_, hstep, ⟨h.inv.restart json hstep, rfl, rfl, rfl, h.written, ?_⟩, rfl, rfl⟩
  intro sessionId hopen
  obtain ⟨session, hlive, hid, hrelease, hstarted⟩ := h.live sessionId hopen
  cases hsession : app.hub.session with
  | none =>
    rw [SentryHub.live, hsession, Option.none_or] at hlive
    exact ⟨session, hlive, hid, hrelease, hstarted⟩
  | some current =>
    obtain rfl : current = session :=
      Option.some.inj ((SentryHub.live_of_session hsession).symm.trans hlive)
    obtain ⟨date, hdate⟩ := h.inv.sound.stored current hsession
    refine ⟨current.stored date, ?_, hid, hrelease, hstarted⟩
    have hcached := cached_of_file hdate
    rw [if_pos hrelease] at hcached
    exact hcached

theorem readCurrentSession_eq {app : App} (h : Tidy dates app) :
    app.hub.readCurrentSession dates = .ok (app.hub.cached dates) := by
  obtain ⟨client, hclient⟩ := Option.isSome_iff_exists.mp h.client
  unfold SentryHub.readCurrentSession SentryHub.cached
  cases hfile : app.hub.currentSession with
  | none =>
    rw [hclient]
    rfl
  | some sessionDictionary =>
    obtain ⟨session, date, rfl⟩ := h.written _ hfile
    simp only [hclient, Option.bind_some, SentrySession.sessionWithData_serialize]

/-- How an update ends its session: at the time when the app was last seen, or unseen. -/
def EndsAt (lastInForeground : Option NSDate) (started : NSDate) (session : SentrySession) : Prop :=
  match lastInForeground with
  | some date => session.status = .exited ∧ session.timestamp = some date
  | none => session.status = .abnormal ∧ session.timestamp = some started

theorem closeCachedSession_eq {app : App} (h : Tidy dates app) (timestamp : Option NSDate) :
    app.hub.closeCachedSessionWithTimestamp dates timestamp =
      match app.hub.cached dates with
      | none => .ok (app.hub, none)
      | some session => .ok ({ app.hub with currentSession := none }, some (match timestamp with
        | none => session.endSessionAbnormalWithTimestamp session.started
        | some timestamp => session.endSessionExitedWithTimestamp timestamp)) := by
  obtain ⟨client, hclient⟩ := Option.isSome_iff_exists.mp h.client
  unfold SentryHub.closeCachedSessionWithTimestamp
  rw [readCurrentSession_eq h]
  cases app.hub.cached dates with
  | none => rfl
  | some session =>
    simp only [bind, Except.bind, h.crashedLastLaunch, SentryHub.deleteCurrentSession, hclient]
    rfl

variable (json) in
theorem closeCachedSession_spec {app : App} (h : Tidy dates app) (hsession : app.hub.session = none)
    (lastInForeground : Option NSDate) :
    ∃ app', app.step json dates (.closeCachedSessionWithTimestamp lastInForeground) = some app' ∧
      Tidy dates app' ∧ app'.hub.live dates = none ∧
      ∀ update ∈ captured app, Open app update.sessionId → ∃ ended ∈ captured app',
        ended.sessionId = update.sessionId ∧ EndsAt lastInForeground update.started ended := by
  have hclose := closeCachedSession_eq h lastInForeground
  have hlive : app.hub.live dates = app.hub.cached dates := by
    rw [SentryHub.live, hsession, Option.none_or]
  cases hcached : app.hub.cached dates with
  | none =>
    rw [hcached] at hlive hclose
    refine ⟨app, ?_, h, hlive, fun update _ hopen => absurd hopen (h.not_open hlive _)⟩
    simp [App.step, hsession, hclose, Update.ofSession]
  | some session =>
    rw [hcached] at hlive hclose
    obtain ⟨ended, hended, hterminal, hrelease, hends, hclose⟩ : ∃ ended, Ended session ended ∧
        ended.status.terminal ∧ ended.releaseName = session.releaseName ∧
        EndsAt lastInForeground session.started ended ∧
        app.hub.closeCachedSessionWithTimestamp dates lastInForeground =
          .ok ({ app.hub with currentSession := none }, some ended) := by
      cases lastInForeground with
      | none =>
        exact ⟨_, ended_abnormal session session.started,
          show SentrySessionStatus.abnormal.terminal by decide, rfl, ⟨rfl, rfl⟩, hclose⟩
      | some timestamp =>
        exact ⟨_, ended_exited session timestamp,
          show SentrySessionStatus.exited.terminal by decide, rfl, ⟨rfl, rfl⟩, hclose⟩
    have hstep : app.step json dates (.closeCachedSessionWithTimestamp lastInForeground) =
        some ({ app with hub := { app.hub with currentSession := none } }.record
          [⟨ended, true⟩] []) := by
      simp [App.step, hsession, hclose, Update.ofSession]
    have hcaptured := captured_record app { app.hub with currentSession := none } ended []
    have hclosed := h.not_open_ended hlive hcaptured hended hterminal hrelease
    refine ⟨_, hstep, ?_, ?_, ?_⟩
    · refine h.of_not_open (h.inv.closeCachedSession json hstep) ?_ rfl rfl rfl hclosed
      exact (List.append_nil _).trans h.calls
    · change app.hub.session.or none = none
      rw [hsession, Option.none_or]
    · intro update hupdate hopen
      obtain ⟨session', hsession', hid, hrelease', hstarted⟩ := h.live _ hopen
      obtain rfl : session = session' := Option.some.inj (hlive.symm.trans hsession')
      refine ⟨ended, ?_, hended.sessionId.trans hid, hstarted update hupdate rfl ▸ hends⟩
      rw [hcaptured]
      apply List.mem_append_right
      apply List.mem_filter.mpr
      refine ⟨List.mem_singleton_self _, ?_⟩
      unfold hasReleaseName at hrelease' ⊢
      rw [hrelease, hrelease']

theorem startSession_tidy {app app' : App} (h : Tidy dates app) (live : app.hub.live dates = none)
    {sessionId : NSUUID} {date : NSDate} {environmentString : Option String}
    (hstart : Device.startSession json dates app sessionId date environmentString = some app') :
    Tidy dates app' ∧ Settled dates app'.hub := by
  by_cases hfresh : app.fresh sessionId
  · obtain ⟨app₁, hsome, htidy, hsettled⟩ :=
      startSession_spec json h live hfresh date environmentString
    obtain rfl := Option.some.inj (hsome.symm.trans hstart)
    exact ⟨htidy, hsettled⟩
  · simp [Device.startSession, App.step, hfresh] at hstart

end Sessions

/-- The terminal updates of a session. -/
def terminals (app : App) (sessionId : NSUUID) : List SentrySession :=
  (captured app).filter fun session => session.sessionId = sessionId ∧ session.status.terminal

namespace Device
variable (json : NSJSONSerialization) (dates : NSDateFormatter)

structure Inv (device : Device) : Prop where
  tidy : Tidy dates device.app
  unstarted : device.tracker.subscribedToNotifications = false → device.app.hub.session = none
  settled : device.tracker.subscribedToNotifications = true → Settled dates device.app.hub
  /-- A session that lost the focus has left the time in the file. -/
  foreground : device.app.hub.session.isSome → device.tracker.wasDidBecomeActiveCalled = false →
    (device.readTimestampLastInForeground dates).isSome

variable {dates}

theorem inv_firstLaunch (client : SentryClient) (sessionTrackingIntervalMillis : Nat) :
    (firstLaunch client sessionTrackingIntervalMillis).Inv dates where
  tidy :=
    { inv := App.inv_launch _ _
      calls := rfl
      client := rfl
      crashedLastLaunch := rfl
      written := by
        intro sessionDictionary h
        cases h
      live := by
        rintro sessionId ⟨⟨update, hupdate, -⟩, -⟩
        cases hupdate }
  unstarted _ := rfl
  settled h := by cases h
  foreground h := by cases h

theorem Inv.start {device device' : Device} (h : device.Inv dates)
    (hunsubscribed : device.tracker.subscribedToNotifications = false)
    (hstep : device.start json dates = some device') : device'.Inv dates := by
  unfold Device.start at hstep
  obtain ⟨app, hclose, rfl⟩ := Option.map_eq_some_iff.mp hstep
  obtain ⟨app', hclose', htidy, hlive, -⟩ := closeCachedSession_spec json h.tidy
    (h.unstarted hunsubscribed) (device.readTimestampLastInForeground dates)
  obtain rfl := Option.some.inj (hclose'.symm.trans hclose)
  obtain ⟨hsession, hcached⟩ := Option.or_eq_none_iff.mp hlive
  refine ⟨htidy, fun _ => hsession, fun _ _ => hcached, fun hsome => ?_⟩
  rw [hsession] at hsome
  cases hsome

theorem Inv.didBecomeActive {device device' : Device} (h : device.Inv dates)
    (hsubscribed : device.tracker.subscribedToNotifications = true) {sessionId : NSUUID}
    {date : NSDate} {environmentString : Option String}
    (hstep : device.didBecomeActive json dates sessionId date environmentString = some device') :
    device'.Inv dates := by
  unfold Device.didBecomeActive at hstep
  split at hstep
  · obtain rfl := Option.some.inj hstep
    exact h
  · rename_i hflag
    obtain ⟨app, happ, rfl⟩ := Option.map_eq_some_iff.mp hstep
    have hsettled := h.settled hsubscribed
    suffices hspec : Tidy dates app ∧ Settled dates app.hub by
      refine ⟨hspec.1, fun hno => ?_, fun _ => hspec.2, fun _ hno => ?_⟩
      · rw [show device.tracker.subscribedToNotifications = false from hno] at hsubscribed
        cases hsubscribed
      · cases hno
    split at happ
    · rename_i hnone
      have hsession : device.app.hub.session = none := by
        by_contra hsome
        have hstored := h.foreground (Option.isSome_iff_ne_none.mpr hsome)
          (Bool.eq_false_iff.mpr hflag)
        rw [hnone] at hstored
        cases hstored
      apply startSession_tidy h.tidy _ happ
      rw [SentryHub.live, hsession, Option.none_or]
      exact hsettled hsession
    · rename_i lastInForeground hlast
      dsimp only at happ
      split at happ
      · obtain ⟨app₁, hend, htidy, -, hlive⟩ :=
          endSession_spec json h.tidy hsettled lastInForeground
        rw [hend, Option.bind_some] at happ
        exact startSession_tidy htidy hlive happ
      · obtain rfl := Option.some.inj happ
        exact ⟨h.tidy, hsettled⟩

theorem Inv.step {device device' : Device} (h : device.Inv dates) {event : Event}
    (hstep : device.step json dates event = some device') : device'.Inv dates := by
  cases event with
  | start =>
    simp only [Device.step] at hstep
    split at hstep
    · cases hstep
    · rename_i hunsubscribed
      exact h.start json (Bool.eq_false_iff.mpr hunsubscribed) hstep
  | didBecomeActive sessionId date environmentString =>
    simp only [Device.step] at hstep
    split at hstep
    · rename_i hsubscribed
      exact h.didBecomeActive json hsubscribed hstep
    · obtain rfl := Option.some.inj hstep
      exact h
  | willResignActive date =>
    simp only [Device.step] at hstep
    split at hstep
    · obtain rfl := Option.some.inj hstep
      refine ⟨h.tidy, h.unstarted, h.settled, fun _ _ => ?_⟩
      simp [Device.willResignActive, readTimestampLastInForeground,
        dates.fromIso8601String_toIso8601String]
    · obtain rfl := Option.some.inj hstep
      exact h
  | willTerminate date =>
    simp only [Device.step] at hstep
    split at hstep
    · rename_i hsubscribed
      unfold Device.willTerminate at hstep
      obtain ⟨app, hend, rfl⟩ := Option.map_eq_some_iff.mp hstep
      obtain ⟨app', hend', htidy, hsession, hlive⟩ :=
        endSession_spec json h.tidy (h.settled hsubscribed)
          (device.tracker.lastInForeground.getD date)
      obtain rfl := Option.some.inj (hend'.symm.trans hend)
      refine ⟨htidy, fun _ => hsession, fun _ _ => (Option.or_eq_none_iff.mp hlive).2, ?_⟩
      intro hsome
      rw [hsession] at hsome
      cases hsome
    · obtain rfl := Option.some.inj hstep
      exact h
  | kill client sessionTrackingIntervalMillis =>
    simp only [Device.step] at hstep
    obtain ⟨app, hrestart, rfl⟩ := Option.map_eq_some_iff.mp hstep
    obtain ⟨app', hrestart', htidy, hsession, -⟩ := kill_spec json h.tidy client
    obtain rfl := Option.some.inj (hrestart'.symm.trans hrestart)
    refine ⟨htidy, fun _ => hsession, fun hyes => ?_, fun hsome => ?_⟩
    · cases hyes
    · rw [hsession] at hsome
      cases hsome

variable (dates) in
/-- What holds between any two notifications. -/
structure Correct (device : Device) : Prop where
  oneOpen : ∀ id id', Open device.app id → Open device.app id' → id = id'
  oneTerminal : ∀ id, (terminals device.app id).length ≤ 1
  /-- A short absence keeps the current session. -/
  resumed : ∀ session, device.app.hub.session = some session →
    ∀ left back sessionId environmentString,
      back.milliseconds - left.milliseconds <
        (device.tracker.sessionTrackingIntervalMillis : Int) →
      ∃ device', exec (step json dates) device
          [.willResignActive left, .didBecomeActive sessionId back environmentString] =
        some device' ∧ device'.app.hub.session = some session ∧
        captured device'.app = captured device.app
  /-- The next start ends what is open, and every session has been ended once. -/
  closed : device.tracker.subscribedToNotifications = false →
    ∃ device', step json dates device .start = some device' ∧
      (∀ update ∈ captured device.app, Open device.app update.sessionId →
        ∃ ended ∈ captured device'.app, ended.sessionId = update.sessionId ∧
          EndsAt (device.readTimestampLastInForeground dates) update.started ended) ∧
      ∀ update ∈ captured device'.app, (terminals device'.app update.sessionId).length = 1

theorem length_terminals {app : App} (h : Tidy dates app) (id : NSUUID) :
    (terminals app id).length ≤ 1 := by
  have hsub : (terminals app id).Sublist (app.produced id) := by
    have heq : terminals app id = ((captured app).filter fun session => session.sessionId = id).filter
        fun session => session.status.terminal := by
      unfold terminals
      rw [List.filter_filter]
      congr 1
      funext session
      rw [Bool.decide_and, Bool.and_comm]
    have hcaptured : (captured app).Sublist (app.updates.map Update.session) :=
      List.filter_sublist.trans (List.filter_sublist.map Update.session)
    rw [heq]
    exact List.filter_sublist.trans (hcaptured.filter _)
  apply (h.inv.lawful_produced id).length_closing hsub
  intro session hsession
  exact (of_decide_eq_true (List.mem_filter.mp hsession).2).2

theorem terminals_of_not_open {app : App} {update : SentrySession} (hupdate : update ∈ captured app)
    (h : ¬ Open app update.sessionId) : terminals app update.sessionId ≠ [] := by
  intro hnone
  apply h
  refine ⟨⟨update, hupdate, rfl⟩, fun v hv hid hterminal => ?_⟩
  have hmem : v ∈ terminals app update.sessionId :=
    List.mem_filter.mpr ⟨hv, decide_eq_true ⟨hid, hterminal⟩⟩
  rw [hnone] at hmem
  cases hmem

theorem Inv.correct {device : Device} (h : device.Inv dates) : Correct json dates device where
  oneOpen id id' hopen hopen' := by
    obtain ⟨session, hsession, rfl, -⟩ := h.tidy.live id hopen
    obtain ⟨session', hsession', rfl, -⟩ := h.tidy.live id' hopen'
    rw [Option.some.inj (hsession.symm.trans hsession')]
  oneTerminal := length_terminals h.tidy
  resumed session hsession left back sessionId environmentString hinterval := by
    have hsubscribed : device.tracker.subscribedToNotifications = true := by
      by_contra hno
      have hnone := h.unstarted (Bool.eq_false_iff.mpr hno)
      rw [hsession] at hnone
      cases hnone
    have haway : Device.step json dates device (.willResignActive left) =
        some (device.willResignActive dates left) := by
      simp only [Device.step, hsubscribed, if_true]
    have hstored : (device.willResignActive dates left).readTimestampLastInForeground dates =
        some left := dates.fromIso8601String_toIso8601String left
    have hback : ¬ back.milliseconds - left.milliseconds ≥
        ((device.willResignActive dates left).tracker.sessionTrackingIntervalMillis : Int) :=
      Int.not_le.mpr hinterval
    obtain ⟨device', hreturn, happ⟩ : ∃ device', Device.step json dates
        (device.willResignActive dates left) (.didBecomeActive sessionId back environmentString) =
          some device' ∧ device'.app = device.app := by
      simp only [Device.step, Device.didBecomeActive, hstored, if_neg hback]
      have hsubscribed' :
          (device.willResignActive dates left).tracker.subscribedToNotifications = true :=
        hsubscribed
      have hflag : (device.willResignActive dates left).tracker.wasDidBecomeActiveCalled = false :=
        rfl
      simp only [hsubscribed', hflag, if_true, Bool.false_eq_true, if_false, Option.map_some]
      exact ⟨_, rfl, rfl⟩
    refine ⟨device', ?_, by rw [happ, hsession], by rw [happ]⟩
    rw [exec_cons, haway, Option.bind_some, exec_single, hreturn]
  closed hunsubscribed := by
    obtain ⟨app, hclose, htidy, hlive, hends⟩ := closeCachedSession_spec json h.tidy
      (h.unstarted hunsubscribed) (device.readTimestampLastInForeground dates)
    have hstart : Device.step json dates device .start = some
        { app := app
          tracker := { device.tracker with subscribedToNotifications := true }
          timestampLastInForeground :=
            if (device.readTimestampLastInForeground dates).isSome then none
            else device.timestampLastInForeground } := by
      simp only [Device.step, hunsubscribed, Device.start, hclose, Option.map_some]
      rfl
    refine ⟨_, hstart, hends, ?_⟩
    intro update hupdate
    have hsome := terminals_of_not_open hupdate (htidy.not_open hlive _)
    have hone := length_terminals htidy update.sessionId
    exact Nat.le_antisymm hone (List.length_pos_iff.mpr hsome)

/-- In every sequence of launches, notifications and kills. -/
theorem always_correct (client : SentryClient) (sessionTrackingIntervalMillis : Nat)
    (events : List Event) :
    Always (step json dates) (Correct json dates)
      (firstLaunch client sessionTrackingIntervalMillis) events :=
  always_of_invariant (fun _ h => h.correct json) (fun _ _ _ h hstep => h.step json hstep)
    (inv_firstLaunch client sessionTrackingIntervalMillis) events

end Device

end SentryCocoa.SessionTracker
