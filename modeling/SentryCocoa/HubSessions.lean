import SentryCocoa.Hub
import SentryCocoa.Library.Journal

/-! Whatever the order of calls and restarts, the updates of a session form one
lawful history. The session in memory, or else the one in the file, and the
sessions that wait behind the lock to be ended are the holders of their
identifiers; no two of them are the same session. -/
namespace SentryCocoa.Hub
open SentryCocoa.Foundation SentryCocoa.Envelope SentryCocoa.Serialization
open SentryCocoa.Session SentryCocoa.Library.Machine SentryCocoa.Library.Journal

def sessionSchema : Schema SentrySession NSUUID where
  key := SentrySession.sessionId
  version := SentrySession.sequence
  opening session := session.flagInit = some (.bool true)
  closing session := session.status.terminal

def hold (session : SentrySession) : NSUUID × ℕ := (session.sessionId, session.sequence)

/-- The first update of a session. -/
structure Begun (sessionId : NSUUID) (session : SentrySession) : Prop where
  sessionId : session.sessionId = sessionId
  sequence : session.sequence = 1
  flagInit : session.flagInit = some (.bool true)
  status : session.status = .ok

section Journal
variable {journal sessions : List SentrySession} {session : SentrySession}

theorem Begun.held {sessionId : NSUUID} (begun : Begun sessionId session)
    (h : sessionSchema.Held journal (sessions.map hold))
    (fresh : ∀ s ∈ journal, s.sessionId ≠ sessionId) :
    sessionSchema.Held (journal ++ [session]) ((session :: sessions).map hold) := by
  rw [List.map_cons, hold, begun.sequence]
  apply h.begin
  · intro s hs
    change s.sessionId ≠ session.sessionId
    rw [begun.sessionId]
    exact fresh s hs
  · exact begun.sequence
  · exact begun.flagInit
  · exact fun hterminal => hterminal begun.status

/-- The last update of a session. -/
structure Ended (session ended : SentrySession) : Prop where
  sessionId : ended.sessionId = session.sessionId
  sequence : ended.sequence = session.sequence + 1
  flagInit : ended.flagInit = none

theorem Ended.held {ended : SentrySession} (end_ : Ended session ended)
    (h : sessionSchema.Held journal ((session :: sessions).map hold)) :
    sessionSchema.Held (journal ++ [ended]) (sessions.map hold) := by
  rw [List.map_cons, hold, ← end_.sessionId] at h
  apply h.write end_.sequence
  intro hopening
  cases end_.flagInit.symm.trans hopening

theorem held_incrementErrors (ok : session.status = .ok)
    (h : sessionSchema.Held journal ((session :: sessions).map hold)) :
    sessionSchema.Held (journal ++ [session.incrementErrors])
      ((session.incrementErrors :: sessions).map hold) := by
  have hheld : sessionSchema.Held journal
      ((sessionSchema.key session.incrementErrors, session.sequence) :: sessions.map hold) := h
  apply hheld.extend rfl
  · intro hopening
    cases hopening
  · exact fun hterminal => hterminal ok

end Journal

theorem ended_exited (session : SentrySession) (timestamp : NSDate) :
    Ended session (session.endSessionExitedWithTimestamp timestamp) := ⟨rfl, rfl, rfl⟩

theorem ended_crashed (session : SentrySession) (timestamp : NSDate) :
    Ended session (session.endSessionCrashedWithTimestamp timestamp) := ⟨rfl, rfl, rfl⟩

theorem ended_abnormal (session : SentrySession) (timestamp : NSDate) :
    Ended session (session.endSessionAbnormalWithTimestamp timestamp) := ⟨rfl, rfl, rfl⟩

namespace SentryHub
variable (dates : NSDateFormatter)

/-- The session in the file, when it can be read. -/
def cached (hub : SentryHub) : Option SentrySession :=
  hub.currentSession.bind fun sessionDictionary =>
    match SentrySession.sessionWithData dates sessionDictionary with
    | .ok session => session
    | .error _ => none

/-- The session that the hub would continue or close. -/
def live (hub : SentryHub) : Option SentrySession := hub.session.or (hub.cached dates)

/-- The current session is open, belongs to a release and is what the file holds. -/
structure Sound (hub : SentryHub) : Prop where
  client : ∀ session, hub.session = some session →
    ∃ client releaseName, hub.client = some client ∧ client.options.releaseName = some releaseName
  ok : ∀ session, hub.session = some session → session.status = .ok
  stored : ∀ session, hub.session = some session →
    ∃ date, hub.currentSession = some (session.serialize dates date)

variable {dates}

theorem Sound.of_session_eq_none {hub : SentryHub} (h : hub.session = none) : hub.Sound dates where
  client session hsession := by simp [h] at hsession
  ok session hsession := by simp [h] at hsession
  stored session hsession := by simp [h] at hsession

theorem session_sublist_live (hub : SentryHub) :
    hub.session.toList.Sublist (hub.live dates).toList := by
  unfold live
  cases hub.session with
  | none => exact List.nil_sublist _
  | some session => exact List.Sublist.refl _

/-- The file holds nothing newer than the current session. -/
theorem Sound.cached_sublist_live {hub : SentryHub} (h : hub.Sound dates) :
    ((hub.cached dates).toList.map hold).Sublist ((hub.live dates).toList.map hold) := by
  cases hsession : hub.session with
  | none =>
    unfold live
    rw [hsession, Option.none_or]
  | some session =>
    obtain ⟨date, hdate⟩ := h.stored session hsession
    unfold live cached
    rw [hsession, Option.some_or, hdate, Option.bind_some, SentrySession.sessionWithData_serialize]
    by_cases hrelease : session.releaseName = none ∨ session.releaseName = some ""
    · simp only [hrelease, if_true]
      exact List.nil_sublist _
    · simp only [hrelease, if_false]
      exact List.Sublist.refl _

@[simp] theorem storeCurrentSession_session (hub : SentryHub) (session : SentrySession)
    (date : NSDate) : (hub.storeCurrentSession dates session date).session = hub.session := by
  unfold storeCurrentSession
  split <;> rfl

@[simp] theorem storeCurrentSession_client (hub : SentryHub) (session : SentrySession)
    (date : NSDate) : (hub.storeCurrentSession dates session date).client = hub.client := by
  unfold storeCurrentSession
  split <;> rfl

/-- The current session is written as soon as it has changed. -/
theorem sound_storeCurrentSession {hub : SentryHub} {client : SentryClient} {releaseName : String}
    {session : SentrySession} (hclient : hub.client = some client)
    (hrelease : client.options.releaseName = some releaseName)
    (hsession : hub.session = some session) (ok : session.status = .ok) (date : NSDate) :
    (hub.storeCurrentSession dates session date).Sound dates where
  client _ _ := ⟨client, releaseName, by rw [storeCurrentSession_client, hclient], hrelease⟩
  ok session' hsession' := by
    rw [storeCurrentSession_session, hsession] at hsession'
    rw [← Option.some.inj hsession', ok]
  stored session' hsession' := by
    rw [storeCurrentSession_session, hsession] at hsession'
    refine ⟨date, ?_⟩
    rw [storeCurrentSession, hclient, Option.some.inj hsession']

variable (dates) in
/-- Either there is no client with a release, or the new session replaces the current one. -/
theorem startSession_cases (hub : SentryHub) (sessionId : NSUUID) (date : NSDate)
    (environmentString : Option String) :
    (hub.startSession dates sessionId date environmentString = (hub, none, none) ∧
      ∀ client, hub.client = some client → client.options.releaseName = none) ∨
    ∃ hub' session, hub.startSession dates sessionId date environmentString =
        (hub', some session, hub.session) ∧
      hub'.Sound dates ∧ hub'.session = some session ∧ Begun sessionId session := by
  unfold startSession
  cases hclient : hub.client with
  | none => exact .inl ⟨rfl, by simp⟩
  | some client =>
    cases hrelease : client.options.releaseName with
    | none =>
      refine .inl ⟨by simp only [hrelease], fun client' h => ?_⟩
      rw [← Option.some.inj h, hrelease]
    | some releaseName =>
      simp only [hrelease, applyToSession_eq]
      refine .inr ⟨_, _, rfl, ?_, storeCurrentSession_session _ _ _, ⟨rfl, rfl, rfl, rfl⟩⟩
      exact sound_storeCurrentSession rfl hrelease rfl rfl date

theorem incrementSessionErrors_cases {hub : SentryHub} (h : hub.Sound dates) (date : NSDate) :
    (hub.session = none ∧ hub.incrementSessionErrors dates date = (hub, none)) ∨
    ∃ hub' session, hub.session = some session ∧
      hub.incrementSessionErrors dates date = (hub', some session.incrementErrors) ∧
      hub'.Sound dates ∧ hub'.session = some session.incrementErrors := by
  unfold incrementSessionErrors
  cases hsession : hub.session with
  | none => exact .inl ⟨rfl, rfl⟩
  | some session =>
    obtain ⟨client, releaseName, hclient, hrelease⟩ := h.client session hsession
    have hok := h.ok session hsession
    refine .inr ⟨_, session, rfl, rfl, ?_, storeCurrentSession_session _ _ _⟩
    apply sound_storeCurrentSession
    · exact hclient
    · exact hrelease
    · rfl
    · exact hok

theorem live_of_session {hub : SentryHub} {session : SentrySession}
    (h : hub.session = some session) : hub.live dates = some session := by
  rw [live, h, Option.some_or]

/-- The end of the current session leaves nothing to continue. -/
theorem live_endSession {hub : SentryHub} (h : hub.Sound dates) :
    (((hub.endSession).1.live dates).toList ++ hub.session.toList).Sublist
      (hub.live dates).toList := by
  unfold endSession deleteCurrentSession live cached
  cases hsession : hub.session with
  | none =>
    simp only [Option.none_or, Option.toList_none, List.append_nil]
    cases hub.client with
    | none => exact List.Sublist.refl _
    | some client => exact List.nil_sublist _
  | some session =>
    obtain ⟨client, releaseName, hclient, -⟩ := h.client session hsession
    simp only [hclient, Option.some_or, Option.none_or, Option.bind_none, Option.toList_none,
      List.nil_append]
    exact List.Sublist.refl _

theorem cached_of_readCurrentSession {hub : SentryHub} {session : SentrySession}
    (h : hub.readCurrentSession dates = .ok (some session)) :
    ∃ client, hub.client = some client ∧ hub.cached dates = some session := by
  unfold readCurrentSession at h
  split at h
  · rename_i client sessionDictionary hclient hfile
    refine ⟨client, hclient, ?_⟩
    unfold cached
    rw [hfile, Option.bind_some, h]
  · cases h

/-- A session is closed only when no session is current; it leaves the file. -/
theorem closeCachedSession_cases {hub hub' : SentryHub} {timestamp : Option NSDate}
    {captured : Option SentrySession} (hnone : hub.session = none)
    (h : hub.closeCachedSessionWithTimestamp dates timestamp = .ok (hub', captured)) :
    (hub' = hub ∧ captured = none) ∨
    ∃ session, hub.cached dates = some session ∧ hub'.session = none ∧ hub'.live dates = none ∧
      (captured = some (session.endSessionAbnormalWithTimestamp session.started) ∧
          timestamp = none ∨
        ∃ date, captured = some (session.endSessionExitedWithTimestamp date) ∧
          timestamp = some date) := by
  unfold closeCachedSessionWithTimestamp at h
  cases hread : hub.readCurrentSession dates with
  | error fault =>
    rw [hread] at h
    cases h
  | ok read =>
    rw [hread] at h
    cases read with
    | none =>
      cases h
      exact .inl ⟨rfl, rfl⟩
    | some session =>
      obtain ⟨client, hclient, hcached⟩ := cached_of_readCurrentSession hread
      simp only [bind, Except.bind] at h
      split at h
      · cases h
        exact .inl ⟨rfl, rfl⟩
      · cases h
        refine .inr ⟨session, hcached, ?_, ?_, ?_⟩
        · unfold deleteCurrentSession
          rw [hclient]
          exact hnone
        · unfold deleteCurrentSession live cached
          rw [hclient]
          simp only [hnone, Option.none_or, Option.bind_none]
        · cases timestamp with
          | none => exact .inl ⟨rfl, rfl⟩
          | some date => exact .inr ⟨date, rfl, rfl⟩

/-- An unhandled error ends the current session and begins a new one under the same lock. -/
theorem updateSessionState_cases {json : NSJSONSerialization} {hub hub' : SentryHub}
    {items : List SentryEnvelopeItem} {sessionId : NSUUID} {date : NSDate}
    {environmentString : Option String} {current captured : Option SentrySession}
    (sound : hub.Sound dates)
    (h : hub.updateSessionState json dates items true sessionId date environmentString =
      .ok (hub', current, captured)) :
    (hub' = hub ∧ current = none ∧ captured = none) ∨
    ∃ session, hub.session = some session ∧ hub'.Sound dates ∧
      (current = some session.incrementErrors ∧ captured = none ∧
          hub'.session = some session.incrementErrors ∨
        ∃ begun, current = some (session.endSessionCrashedWithTimestamp date) ∧
          captured = some begun ∧ hub'.session = some begun ∧ Begun sessionId begun) := by
  unfold updateSessionState at h
  cases hread : envelopeContainsEventWithErrorOrHigher json items with
  | error fault =>
    rw [hread] at h
    cases h
  | ok read =>
    rw [hread] at h
    simp only [bind, Except.bind, if_true] at h
    split at h
    · cases h
      exact .inl ⟨rfl, rfl, rfl⟩
    · rcases incrementSessionErrors_cases sound date with ⟨-, hnone⟩ | ⟨hub₁, session, hsession, hsome,
        hsound, hcurrent⟩
      · rw [hnone] at h
        cases h
        exact .inl ⟨rfl, rfl, rfl⟩
      · rw [hsome] at h
        cases h
        exact .inr ⟨session, hsession, hsound, .inl ⟨rfl, rfl, hcurrent⟩⟩
    · cases hsession : hub.session with
      | none =>
        rw [hsession] at h
        cases h
        exact .inl ⟨rfl, rfl, rfl⟩
      | some session =>
        simp only [hsession] at h
        rcases startSession_cases dates { hub with session := none } sessionId date
          environmentString with ⟨-, hnone⟩ | ⟨hub₁, begun, hsome, hsound, hcurrent, hbegun⟩
        · obtain ⟨client, releaseName, hclient, hrelease⟩ := sound.client session hsession
          rw [hnone client hclient] at hrelease
          cases hrelease
        · rw [hsome] at h
          cases h
          exact .inr ⟨session, rfl, hsound, .inr ⟨begun, rfl, rfl, hcurrent, hbegun⟩⟩

end SentryHub

namespace Call

/-- The session that a waiting call is going to end. -/
def session : Call → Option SentrySession
  | .captureLastSession lastSession => some lastSession
  | .captureEndedSession currentSession _ => some currentSession
  | .prepareEvent => none
  | .handOver _ => none

end Call

namespace App
variable (json : NSJSONSerialization) (dates : NSDateFormatter)

/-- The sessions that still can be continued or ended. -/
def holders (app : App) : List SentrySession :=
  (app.hub.live dates).toList ++ app.calls.filterMap Call.session

structure Inv (app : App) : Prop where
  sound : app.hub.Sound dates
  held : sessionSchema.Held (app.updates.map Update.session) ((app.holders dates).map hold)
  /-- The first update of a session is handed over under the lock. -/
  handed : ∀ update ∈ app.updates, update.session.flagInit = some (.bool true) → update.handed

variable {dates}

theorem inv_launch (client : Option SentryClient) (crashedLastLaunch : Bool) :
    (launch client crashedLastLaunch).Inv dates where
  sound := .of_session_eq_none rfl
  held := .nil
  handed update h := by simp [launch] at h

/-- What a step has to show: which sessions are left to be held after it wrote its updates. -/
theorem Inv.of_record {app : App} {hub : SentryHub} {updates : List Update} {calls : List Call}
    (h : app.Inv dates) (sound : hub.Sound dates) {holders : List SentrySession}
    (held : sessionSchema.Held (app.updates.map Update.session ++ updates.map Update.session)
      (holders.map hold))
    (sub : ((hub.live dates).toList ++ (app.calls ++ calls).filterMap Call.session).Subperm
      holders)
    (handed : ∀ update ∈ updates, update.session.flagInit = some (.bool true) → update.handed) :
    ({ app with hub := hub }.record updates calls).Inv dates where
  sound := sound
  held := by
    obtain ⟨l, hperm, hsub⟩ := sub
    rw [← List.map_append] at held
    exact held.mono ⟨l.map hold, hperm.map hold, hsub.map hold⟩
  handed update hupdate := by
    rcases List.mem_append.mp hupdate with hold | hnew
    · exact h.handed update hold
    · exact handed update hnew

/-- A step that writes nothing loses sessions at most. -/
theorem Inv.of_sub {app : App} {hub : SentryHub} {calls : List Call} (h : app.Inv dates)
    (sound : hub.Sound dates)
    (sub : ((hub.live dates).toList ++ (app.calls ++ calls).filterMap Call.session).Subperm
      (app.holders dates)) :
    ({ app with hub := hub }.record [] calls).Inv dates := by
  apply h.of_record sound _ sub
  · intro update hupdate
    cases hupdate
  · rw [List.map_nil, List.append_nil]
    exact h.held

@[simp] theorem record_nil (app : App) : app.record [] [] = app := by
  simp [record]

theorem fresh_iff {app : App} {sessionId : NSUUID} (h : app.fresh sessionId = true) :
    ∀ session ∈ app.updates.map Update.session, session.sessionId ≠ sessionId := by
  intro session hsession
  obtain ⟨update, hupdate, rfl⟩ := List.mem_map.mp hsession
  have := List.all_eq_true.mp h update hupdate
  exact bne_iff_ne.mp this

/-- The current session moves behind the lock. -/
theorem holders_moved {app : App} {calls : List Call} (live last : Option SentrySession)
    (hsub : (live.toList ++ last.toList).Sublist (app.hub.live dates).toList)
    (hcalls : calls.filterMap Call.session = last.toList) :
    (live.toList ++ (app.calls ++ calls).filterMap Call.session).Subperm (app.holders dates) := by
  rw [List.filterMap_append, hcalls]
  have hperm : (live.toList ++ (app.calls.filterMap Call.session ++ last.toList)).Perm
      ((live.toList ++ last.toList) ++ app.calls.filterMap Call.session) := by
    rw [List.append_assoc]
    exact List.perm_append_comm.append_left _
  exact hperm.subperm.trans (hsub.append_right _).subperm

theorem holders_handOver (app : App) {session : SentrySession} {update : ℕ} :
    ((some session).toList ++ (app.calls ++ [Call.handOver update]).filterMap Call.session).Subperm
      (session :: app.calls.filterMap Call.session) := by
  rw [List.filterMap_append]
  exact (List.Perm.of_eq (congrArg (session :: ·) (List.append_nil _))).subperm

theorem Inv.startSession {app app' : App} (h : app.Inv dates) {sessionId : NSUUID} {date : NSDate}
    {environmentString : Option String}
    (hstep : app.step json dates (.startSession sessionId date environmentString) = some app') :
    app'.Inv dates := by
  simp only [step] at hstep
  split at hstep
  · rename_i hfresh
    rcases app.hub.startSession_cases dates sessionId date environmentString with
      ⟨hnone, -⟩ | ⟨hub, begun, hsome, hsound, hcurrent, hbegun⟩
    · rw [hnone] at hstep
      obtain rfl := Option.some.inj hstep
      exact (record_nil app).symm ▸ h
    · rw [hsome] at hstep
      obtain rfl := Option.some.inj hstep
      refine h.of_record hsound (hbegun.held h.held (fresh_iff hfresh) :
        sessionSchema.Held _ ((begun :: app.holders dates).map hold)) ?_ ?_
      · rw [SentryHub.live_of_session hcurrent]
        apply (List.subperm_cons begun).mpr
        apply holders_moved none app.hub.session app.hub.session_sublist_live
        cases app.hub.session <;> rfl
      · intro update hupdate _
        rw [List.mem_singleton.mp hupdate]
  · cases hstep

theorem Inv.endSession {app app' : App} (h : app.Inv dates) {timestamp : NSDate}
    (hstep : app.step json dates (.endSessionWithTimestamp timestamp) = some app') :
    app'.Inv dates := by
  obtain rfl := Option.some.inj hstep
  apply h.of_sub
  · apply SentryHub.Sound.of_session_eq_none
    unfold SentryHub.deleteCurrentSession
    split <;> rfl
  · apply holders_moved _ app.hub.session (SentryHub.live_endSession h.sound)
    cases app.hub.session <;> rfl

theorem Inv.captureError {app app' : App} (h : app.Inv dates)
    (hstep : app.step json dates .captureError = some app') : app'.Inv dates := by
  simp only [step] at hstep
  split at hstep
  · obtain rfl := Option.some.inj hstep
    exact h
  · obtain rfl := Option.some.inj hstep
    exact ⟨⟨h.sound.client, h.sound.ok, h.sound.stored⟩, h.held, h.handed⟩
  · obtain rfl := Option.some.inj hstep
    apply h.of_sub h.sound
    apply holders_moved _ none
    · rw [Option.toList_none, List.append_nil]
    · rfl

theorem Inv.captureEnvelope {app app' : App} (h : app.Inv dates)
    {items : List SentryEnvelopeItem} {sessionId : NSUUID} {date : NSDate}
    {environmentString : Option String}
    (hstep : app.step json dates (.captureEnvelope items sessionId date environmentString) =
      some app') : app'.Inv dates := by
  simp only [step] at hstep
  split at hstep
  · split at hstep
    · rename_i hfresh
      split at hstep
      · cases hstep
      · rename_i hub current captured hread
        obtain rfl := Option.some.inj hstep
        rcases SentryHub.updateSessionState_cases h.sound hread with
          ⟨rfl, rfl, rfl⟩ | ⟨session, hsession, hsound, hcases⟩
        · exact (record_nil app).symm ▸ h
        · have hheld := h.held
          unfold holders at hheld
          rw [SentryHub.live_of_session hsession] at hheld
          rcases hcases with ⟨rfl, rfl, hcurrent⟩ | ⟨begun, rfl, rfl, hcurrent, hbegun⟩
          · refine h.of_record hsound
              (held_incrementErrors (h.sound.ok session hsession) hheld) ?_ ?_
            · rw [SentryHub.live_of_session hcurrent]
              exact holders_handOver app
            · intro update hupdate hinit
              obtain rfl := List.mem_singleton.mp hupdate
              cases hinit
          · have hended := (ended_crashed session date).held hheld
            have hfresh' : ∀ s ∈ app.updates.map Update.session ++
                [session.endSessionCrashedWithTimestamp date], s.sessionId ≠ sessionId := by
              intro s hs
              rcases List.mem_append.mp hs with hold | hlast
              · exact fresh_iff hfresh s hold
              · obtain ⟨u, hu, hkey⟩ := hheld.mem List.mem_cons_self
                rw [List.mem_singleton.mp hlast]
                exact hkey ▸ fresh_iff hfresh u hu
            have hbegin := hbegun.held hended hfresh'
            rw [List.append_assoc] at hbegin
            refine h.of_record hsound hbegin ?_ ?_
            · rw [SentryHub.live_of_session hcurrent]
              exact holders_handOver app
            · intro update hupdate hinit
              rcases List.mem_cons.mp hupdate with rfl | hbegun'
              · cases hinit
              · rw [List.mem_singleton.mp hbegun']
    · cases hstep
  · obtain rfl := Option.some.inj hstep
    exact h

theorem Inv.closeCachedSession {app app' : App} (h : app.Inv dates) {timestamp : Option NSDate}
    (hstep : app.step json dates (.closeCachedSessionWithTimestamp timestamp) = some app') :
    app'.Inv dates := by
  simp only [step] at hstep
  split at hstep
  · rename_i hsession
    have hnone := Option.isNone_iff_eq_none.mp hsession
    split at hstep
    · cases hstep
    · rename_i hub captured hclose
      obtain rfl := Option.some.inj hstep
      rcases SentryHub.closeCachedSession_cases hnone hclose with
        ⟨rfl, rfl⟩ | ⟨session, hcached, hnone', hlive, hcases⟩
      · exact (record_nil app).symm ▸ h
      · have hheld := h.held
        unfold holders SentryHub.live at hheld
        rw [hnone, hcached] at hheld
        obtain ⟨ended, rfl, hended⟩ : ∃ ended, captured = some ended ∧ Ended session ended := by
          rcases hcases with ⟨rfl, -⟩ | ⟨date, rfl, -⟩
          · exact ⟨_, rfl, ended_abnormal session session.started⟩
          · exact ⟨_, rfl, ended_exited session date⟩
        refine h.of_record (.of_session_eq_none hnone') (hended.held hheld) ?_ ?_
        · rw [hlive, List.append_nil]
          exact List.Subperm.refl _
        · intro update hupdate _
          rw [List.mem_singleton.mp hupdate]
  · cases hstep

/-- The session of a waiting call may be brought to the front. -/
theorem filterMap_session_eraseIdx {calls : List Call} {i : ℕ} {call : Call}
    (h : calls[i]? = some call) :
    (call.session.toList ++ (calls.eraseIdx i).filterMap Call.session).Perm
      (calls.filterMap Call.session) := by
  obtain ⟨hi, rfl⟩ := List.getElem?_eq_some_iff.mp h
  have hperm := (List.getElem_cons_eraseIdx_perm hi).filterMap Call.session
  rw [List.filterMap_cons] at hperm
  cases hsession : calls[i].session with
  | none =>
    rw [hsession] at hperm
    exact hperm
  | some session =>
    rw [hsession] at hperm
    exact hperm

/-- A waiting call that goes on takes its session along. -/
theorem Inv.take {app : App} (h : app.Inv dates) {i : ℕ} {call : Call}
    (hcall : app.calls[i]? = some call) :
    { app with calls := app.calls.eraseIdx i }.Inv dates ∧
      sessionSchema.Held (app.updates.map Update.session)
        ((call.session.toList ++ ((app.hub.live dates).toList ++
          (app.calls.eraseIdx i).filterMap Call.session)).map hold) := by
  have hperm : (call.session.toList ++ ((app.hub.live dates).toList ++
      (app.calls.eraseIdx i).filterMap Call.session)).Perm (app.holders dates) := by
    refine List.Perm.trans ?_ ((filterMap_session_eraseIdx hcall).append_left _)
    rw [← List.append_assoc, ← List.append_assoc]
    exact List.perm_append_comm.append_right _
  have hfront := h.held.mono (hperm.map hold).subperm
  refine ⟨⟨h.sound, hfront.mono ?_, h.handed⟩, hfront⟩
  exact ((List.sublist_append_right _ _).map hold).subperm

theorem Inv.captureEnded {app : App} (h : app.Inv dates) {session : SentrySession}
    (held : sessionSchema.Held (app.updates.map Update.session)
      ((session :: app.holders dates).map hold)) (timestamp : NSDate) :
    (app.record [⟨session.endSessionExitedWithTimestamp timestamp, true⟩] []).Inv dates := by
  refine h.of_record h.sound ((ended_exited session timestamp).held held) ?_ ?_
  · rw [List.append_nil]
    exact List.Subperm.refl _
  · intro update hupdate _
    rw [List.mem_singleton.mp hupdate]

theorem Inv.prepared {app : App} (h : app.Inv dates) (date : NSDate) :
    (app.resumeCall dates true date .prepareEvent).Inv dates := by
  unfold resumeCall
  rcases SentryHub.incrementSessionErrors_cases h.sound date with
    ⟨-, hnone⟩ | ⟨hub, session, hsession, hsome, hsound, hcurrent⟩
  · rw [hnone]
    exact h
  · rw [hsome]
    have hheld := h.held
    unfold holders at hheld
    rw [SentryHub.live_of_session hsession] at hheld
    refine h.of_record hsound (held_incrementErrors (h.sound.ok session hsession) hheld) ?_ ?_
    · rw [SentryHub.live_of_session hcurrent]
      exact holders_handOver app
    · intro update hupdate hinit
      obtain rfl := List.mem_singleton.mp hupdate
      cases hinit

theorem Inv.handOver {app : App} (h : app.Inv dates) (update : ℕ) :
    { app with updates := app.updates.modify update fun u => { u with handed := true } }.Inv
      dates where
  sound := h.sound
  held := by
    have hsame : (app.updates.modify update fun u => { u with handed := true }).map Update.session =
        app.updates.map Update.session := by
      apply List.ext_getElem?
      intro i
      rw [List.getElem?_map, List.getElem?_map, List.getElem?_modify, Option.map_eq_map,
        Option.map_map]
      congr 1
      funext u
      rw [Function.comp_apply]
      split <;> rfl
    exact hsame ▸ h.held
  handed u hu hinit := by
    obtain ⟨i, hi⟩ := List.mem_iff_getElem?.mp hu
    rw [List.getElem?_modify] at hi
    obtain ⟨v, hv, rfl⟩ := Option.map_eq_some_iff.mp hi
    split
    · rfl
    · rename_i hne
      rw [if_neg hne] at hinit
      exact h.handed v (List.mem_of_getElem? hv) hinit

theorem Inv.resume {app app' : App} (h : app.Inv dates) {call : ℕ} {prepared : Bool} {date : NSDate}
    (hstep : app.step json dates (.resume call prepared date) = some app') : app'.Inv dates := by
  simp only [step] at hstep
  obtain ⟨waiting, hwaiting, rfl⟩ := Option.map_eq_some_iff.mp hstep
  obtain ⟨htaken, hfront⟩ := h.take hwaiting
  cases waiting with
  | captureLastSession lastSession => exact htaken.captureEnded hfront date
  | captureEndedSession currentSession timestamp => exact htaken.captureEnded hfront timestamp
  | prepareEvent =>
    cases prepared with
    | false => exact htaken
    | true => exact htaken.prepared date
  | handOver update => exact htaken.handOver update

theorem Inv.restart {app app' : App} (h : app.Inv dates) {client : Option SentryClient}
    {crashedLastLaunch : Bool}
    (hstep : app.step json dates (.restart client crashedLastLaunch) = some app') :
    app'.Inv dates := by
  obtain rfl := Option.some.inj hstep
  refine ⟨.of_session_eq_none rfl, ?_, h.handed⟩
  apply h.held.mono
  unfold holders
  rw [List.filterMap_nil, List.append_nil, List.map_append]
  exact (h.sound.cached_sublist_live.trans (List.sublist_append_left _ _)).subperm

theorem Inv.step {app app' : App} (h : app.Inv dates) {input : Input}
    (hstep : app.step json dates input = some app') : app'.Inv dates := by
  cases input with
  | startSession => exact h.startSession json hstep
  | endSessionWithTimestamp => exact h.endSession json hstep
  | captureError => exact h.captureError json hstep
  | captureEnvelope => exact h.captureEnvelope json hstep
  | closeCachedSessionWithTimestamp => exact h.closeCachedSession json hstep
  | resume => exact h.resume json hstep
  | restart => exact h.restart json hstep

theorem Inv.lawful_produced {app : App} (h : app.Inv dates) (sessionId : NSUUID) :
    sessionSchema.Lawful (app.produced sessionId) := h.held.lawful sessionId

/-- The first update of a session is among those that the client got. -/
theorem Inv.lawful_handedOver {app : App} (h : app.Inv dates) (sessionId : NSUUID) :
    sessionSchema.Lawful (app.handedOver sessionId) := by
  have hlawful := h.lawful_produced sessionId
  have hproduced : app.produced sessionId =
      (app.updates.filter fun update => update.session.sessionId = sessionId).map Update.session :=
    List.filter_map
  have hhanded : app.handedOver sessionId = ((app.updates.filter fun update =>
      update.session.sessionId = sessionId).filter Update.handed).map Update.session := by
    unfold handedOver
    rw [List.filter_map, List.filter_filter, List.filter_filter]
    simp only [Function.comp_apply, Bool.and_comm]
  apply hlawful.sublist
  · exact (List.filter_sublist.map Update.session).filter _
  · intro first rest hseen
    rw [hhanded] at hseen
    rw [hproduced] at hlawful
    cases hown : app.updates.filter fun update => update.session.sessionId = sessionId with
    | nil =>
      rw [hown] at hseen
      cases hseen
    | cons update others =>
      rw [hown] at hseen hlawful
      have hopening : update.session.flagInit = some (.bool true) := hlawful.opened _ _ rfl
      have hmem : update ∈ app.updates :=
        List.mem_of_mem_filter (hown ▸ List.mem_cons_self)
      rw [List.filter_cons_of_pos (h.handed update hmem hopening)] at hseen
      exact (List.cons.inj hseen).1 ▸ hopening

/-- What the server can rely on for one session. -/
structure UpdatesLawful (app : App) (sessionId : NSUUID) : Prop where
  sequences : ((app.handedOver sessionId).map SentrySession.sequence).Pairwise (· < ·)
  init : ∀ first rest, app.handedOver sessionId = first :: rest →
    first.flagInit = some (.bool true) ∧ first.sequence = 1 ∧
      ∀ later ∈ rest, later.flagInit ≠ some (.bool true) ∧ later.sequence ≠ 1
  /-- Nothing is produced after a terminal update, handed over or not. -/
  terminal : ∀ before update after, app.produced sessionId = before ++ update :: after →
    update.status.terminal → after = []

theorem Inv.updatesLawful {app : App} (h : app.Inv dates) (sessionId : NSUUID) :
    app.UpdatesLawful sessionId where
  sequences := List.pairwise_map.mpr (h.lawful_handedOver sessionId).increasing
  init first rest hseen := by
    have hlawful := h.lawful_handedOver sessionId
    rw [hseen] at hlawful
    have hopening := hlawful.opened first rest rfl
    refine ⟨hopening, (hlawful.opening_iff first List.mem_cons_self).mp hopening, ?_⟩
    intro later hlater
    have hnot := hlawful.not_opening hlater
    refine ⟨hnot, fun hone => hnot ?_⟩
    exact (hlawful.opening_iff later (List.mem_cons_of_mem first hlater)).mpr hone
  terminal before update after hproduced hterminal := by
    have hlawful := h.lawful_produced sessionId
    rw [hproduced] at hlawful
    exact hlawful.closing_last hterminal

end App
end SentryCocoa.Hub
