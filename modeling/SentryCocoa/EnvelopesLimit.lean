import SentryCocoa.MigrateSessionInit

/-! What the removal of the oldest envelopes has to keep, and the condition under
which it does. A removal hands on the flag of one session; the flags of the others
and the other sessions of the file that takes it are lost. -/
namespace SentryCocoa.FileManager
open SentryCocoa.Foundation SentryCocoa.Session

/-- A folder has one file at a path. -/
structure EnvelopeFolder where
  files : Folder
  paths_nodup : (files.map EnvelopeFile.path).Nodup

namespace EnvelopeFile

def updates (file : EnvelopeFile) (sessionId : NSUUID) : List SentrySession :=
  (file.items.filterMap EnvelopeItem.sessionWithData).filter fun session =>
    session.sessionId = sessionId

def mentions (file : EnvelopeFile) (sessionId : NSUUID) : Bool :=
  !(file.updates sessionId).isEmpty

def sessionItems (file : EnvelopeFile) : Nat := file.items.countP EnvelopeItem.isSessionType

end EnvelopeFile

namespace Folder

/-- The updates of a session in the order of the files and of their items. -/
def updates (folder : Folder) (sessionId : NSUUID) : List SentrySession :=
  folder.flatMap fun file => file.updates sessionId

def HasInit (folder : Folder) (sessionId : NSUUID) : Prop :=
  ∃ session ∈ folder.updates sessionId, flagInitValue session = true

def FirstInit (folder : Folder) (sessionId : NSUUID) : Prop :=
  ∀ session ∈ (folder.updates sessionId).head?, flagInitValue session = true

instance (folder : Folder) (sessionId : NSUUID) : Decidable (folder.HasInit sessionId) :=
  inferInstanceAs (Decidable (∃ session ∈ _, _))

instance (folder : Folder) (sessionId : NSUUID) : Decidable (folder.FirstInit sessionId) :=
  inferInstanceAs (Decidable (∀ session ∈ _, _))

/-- The file that takes the flag of the session. -/
def receiver (folder : Folder) (sessionId : NSUUID) : Option EnvelopeFile :=
  folder.find? fun file => file.mentions sessionId

def itemCount (folder : Folder) : Nat := (folder.flatMap EnvelopeFile.items).length

end Folder

/-- The items are still there, but for one session that may have got the init flag. -/
def Kept (items items' : List EnvelopeItem) : Prop :=
  items'.Perm items ∨ ∃ before session after, items = before ++ .session session :: after ∧
    items'.Perm (.session session.setFlagInit :: (before ++ after))

def KeptFile (file file' : EnvelopeFile) : Prop :=
  file'.path = file.path ∧ Kept file.items file'.items

/-- What the removal of the first files has to keep. -/
structure Correct (removed : Nat) (folder remaining : Folder) : Prop where
  flags : ∀ sessionId, folder.HasInit sessionId → remaining.FirstInit sessionId
  files : List.Forall₂ KeptFile (folder.drop removed) remaining

/-! The condition. -/

/-- The session whose flag moves on when an envelope with these items is removed. -/
def handedOn (rest : Folder) (items : List EnvelopeItem) : Option NSUUID :=
  ((items.filterMap EnvelopeItem.sessionWithData).find? fun session =>
    flagInitValue session && !(rest.updates session.sessionId).isEmpty).map SentrySession.sessionId

/-- A flag can still get to the first update that stays, or is there already. -/
def Live (sessionId : NSUUID) (leaving staying : Folder) : Prop :=
  leaving.HasInit sessionId ∨ staying.FirstInit sessionId

/-- The file goes and hands on the flag of one session; the other flags have to stay alive
without it and without the sessions of the file that takes the flag. -/
structure RemovalKeeps (file : EnvelopeFile) (leaving staying : Folder) (sessionId : NSUUID) :
    Prop where
  alone : leaving.updates sessionId = [] →
    ∀ receiver ∈ staying.receiver sessionId, receiver.sessionItems = 1
  others : ∀ other, other ≠ sessionId → Live other (file :: leaving) staying →
    Live other (leaving.eraseP fun file => file.mentions sessionId) staying

def Orderly : Nat → Folder → Prop
  | n + 1, file :: rest =>
    (∀ sessionId ∈ handedOn rest file.items,
      RemovalKeeps file (rest.take n) (rest.drop n) sessionId) ∧
    Orderly n (removeOldest (file :: rest)).1
  | _, _ => True

/-- Every flag is alive at the start, and no removal loses one. -/
structure FlagsSafe (removed : Nat) (folder : Folder) : Prop where
  live : ∀ sessionId, folder.HasInit sessionId →
    Live sessionId (folder.take removed) (folder.drop removed)
  orderly : Orderly removed folder

/-! The updates of a folder. -/

theorem Folder.updates_append (first second : Folder) (sessionId : NSUUID) :
    Folder.updates (first ++ second) sessionId =
      first.updates sessionId ++ second.updates sessionId :=
  List.flatMap_append

theorem Folder.updates_cons (file : EnvelopeFile) (rest : Folder) (sessionId : NSUUID) :
    Folder.updates (file :: rest) sessionId =
      file.updates sessionId ++ rest.updates sessionId :=
  List.flatMap_cons

theorem Folder.HasInit.mono {first second : Folder} {sessionId : NSUUID}
    (h : first.HasInit sessionId) (hsub : first.updates sessionId ⊆ second.updates sessionId) :
    second.HasInit sessionId := by
  obtain ⟨session, hmem, hinit⟩ := h
  exact ⟨session, hsub hmem, hinit⟩

theorem Folder.itemCount_append (first second : Folder) :
    Folder.itemCount (first ++ second) = first.itemCount + second.itemCount := by
  simp [Folder.itemCount]

theorem Folder.itemCount_cons (file : EnvelopeFile) (rest : Folder) :
    Folder.itemCount (file :: rest) = file.items.length + rest.itemCount := by
  simp [Folder.itemCount]

theorem sessionWithId_items (sessionId : NSUUID) (file : EnvelopeFile) :
    sessionWithId sessionId file.items = (file.updates sessionId).head? := by
  unfold sessionWithId EnvelopeFile.updates
  rw [List.head?_filter]

theorem mentions_iff (file : EnvelopeFile) (sessionId : NSUUID) :
    file.mentions sessionId = true ↔ file.updates sessionId ≠ [] := by
  simp [EnvelopeFile.mentions]

theorem sessionWithData_isSessionType {item : EnvelopeItem} (h : item.isSessionType = false) :
    item.sessionWithData = none := by
  cases item with
  | session update => cases h
  | unreadableSession data => rfl
  | other type data => rfl

theorem sessionWithData_eq_some {item : EnvelopeItem} {session : SentrySession}
    (h : item.sessionWithData = some session) :
    item = .session session ∧ ¬(session.releaseName = none ∨ session.releaseName = some "") := by
  cases item with
  | session update =>
    by_cases hrelease : update.releaseName = none ∨ update.releaseName = some ""
    · rw [EnvelopeItem.sessionWithData, if_pos hrelease] at h
      cases h
    · rw [EnvelopeItem.sessionWithData, if_neg hrelease] at h
      exact ⟨congrArg _ (Option.some.inj h), Option.some.inj h ▸ hrelease⟩
  | unreadableSession data => cases h
  | other type data => cases h

theorem filterMap_others {items : List EnvelopeItem}
    (h : ∀ item ∈ items, item.isSessionType = false) :
    items.filterMap EnvelopeItem.sessionWithData = [] := by
  rw [List.filterMap_eq_nil_iff]
  exact fun item hitem => sessionWithData_isSessionType (h item hitem)

theorem sessionWithId_some {sessionId : NSUUID} {items : List EnvelopeItem}
    {session : SentrySession} (h : sessionWithId sessionId items = some session) :
    .session session ∈ items ∧ session.sessionId = sessionId ∧
      (EnvelopeItem.session session.setFlagInit).sessionWithData = some session.setFlagInit := by
  have hid : session.sessionId = sessionId := by simpa using List.find?_some h
  obtain ⟨item, hmem, hitem⟩ := List.mem_filterMap.mp (List.mem_of_find?_eq_some h)
  obtain ⟨rfl, hrelease⟩ := sessionWithData_eq_some hitem
  exact ⟨hmem, hid, if_neg hrelease⟩

theorem takeFlag_updates {sessionId : NSUUID} {file : EnvelopeFile} {session : SentrySession}
    (h : sessionWithId sessionId file.items = some session) (other : NSUUID) :
    (file.takeFlag session).updates other =
      if other = sessionId then [session.setFlagInit] else [] := by
  obtain ⟨-, hid, hread⟩ := sessionWithId_some h
  have hitems : (file.takeFlag session).items.filterMap EnvelopeItem.sessionWithData =
      [session.setFlagInit] := by
    change (replaceSessionEnvelopeItem session.setFlagInit file.items).filterMap _ = _
    unfold replaceSessionEnvelopeItem
    rw [List.filterMap_append, filterMap_others]
    · rw [List.nil_append, List.filterMap_cons_some hread, List.filterMap_nil]
    · intro item hitem
      simpa using (List.mem_filter.mp hitem).2
  have hset : session.setFlagInit.sessionId = sessionId := hid
  unfold EnvelopeFile.updates
  rw [hitems, List.filter_singleton, hset]
  by_cases heq : other = sessionId
  · simp [heq]
  · simp [heq, Ne.symm heq]

theorem updates_of_not_mentions {folder : Folder} {sessionId : NSUUID}
    (h : ∀ file ∈ folder, ¬file.mentions sessionId = true) : folder.updates sessionId = [] := by
  unfold Folder.updates
  rw [List.flatMap_eq_nil_iff]
  intro file hfile
  by_contra hne
  exact h file hfile ((mentions_iff file sessionId).mpr hne)

theorem mentions_of_session {file : EnvelopeFile} {sessionId : NSUUID} {session : SentrySession}
    (h : sessionWithId sessionId file.items = some session) : file.mentions sessionId = true := by
  rw [mentions_iff]
  intro hnil
  rw [sessionWithId_items, hnil] at h
  cases h

theorem receiver_append {before later : Folder} {file : EnvelopeFile} {sessionId : NSUUID}
    (hbefore : ∀ f ∈ before, ¬f.mentions sessionId = true)
    (hfile : file.mentions sessionId = true) :
    Folder.receiver (before ++ file :: later) sessionId = some file := by
  unfold Folder.receiver
  rw [List.find?_append, List.find?_eq_none.mpr hbefore, Option.none_or,
    List.find?_cons_of_pos (by exact hfile)]

/-! The file that takes the flag. -/

theorem receive_spec {sessionId : NSUUID} {folder folder' : Folder}
    (h : receive sessionId folder = some folder') :
    ∃ (before : Folder) (file : EnvelopeFile) (later : Folder) (session : SentrySession),
      folder = before ++ file :: later ∧ (∀ f ∈ before, ¬f.mentions sessionId = true) ∧
      sessionWithId sessionId file.items = some session ∧
      folder' = before ++ file.takeFlag session :: later := by
  induction folder generalizing folder' with
  | nil => cases h
  | cons file rest ih =>
    rw [receive] at h
    split at h
    · next session hsession =>
      exact ⟨[], file, rest, session, rfl, by simp, hsession, (Option.some.inj h).symm⟩
    · next hnone =>
      obtain ⟨rest', hrest, rfl⟩ := Option.map_eq_some_iff.mp h
      obtain ⟨before, receiver, later, session, rfl, hbefore, hsession, rfl⟩ := ih hrest
      refine ⟨file :: before, receiver, later, session, rfl, ?_, hsession, rfl⟩
      rw [sessionWithId_items, List.head?_eq_none_iff] at hnone
      rw [List.forall_mem_cons, mentions_iff, not_not]
      exact ⟨hnone, hbefore⟩

theorem receive_eq_none {sessionId : NSUUID} {folder : Folder} :
    receive sessionId folder = none ↔ folder.updates sessionId = [] := by
  induction folder with
  | nil => exact ⟨fun _ => rfl, fun _ => rfl⟩
  | cons file rest ih =>
    unfold receive
    rw [Folder.updates_cons, List.append_eq_nil_iff, sessionWithId_items, ← ih]
    cases hupdates : file.updates sessionId with
    | nil => simp
    | cons session others => simp

theorem receive_append (sessionId : NSUUID) (leaving staying : Folder) :
    receive sessionId (leaving ++ staying) =
      ((receive sessionId leaving).map (· ++ staying)).or
        ((receive sessionId staying).map (leaving ++ ·)) := by
  induction leaving with
  | nil => simp [receive]
  | cons file rest ih =>
    rw [List.cons_append, receive, receive]
    cases sessionWithId sessionId file.items with
    | some session => rfl
    | none =>
      simp only [ih]
      cases receive sessionId rest with
      | some rest' => rfl
      | none => cases receive sessionId staying <;> rfl

section Receive
variable {sessionId : NSUUID} {folder folder' : Folder} (h : receive sessionId folder = some folder')
include h

theorem receive_length : folder'.length = folder.length := by
  simpa using congrArg List.length (receive_paths h)

theorem receive_updates_self :
    ∃ session others, flagInitValue session = true ∧
      folder'.updates sessionId = session :: others := by
  obtain ⟨before, file, later, session, rfl, hbefore, hsession, rfl⟩ := receive_spec h
  refine ⟨session.setFlagInit, later.updates sessionId, rfl, ?_⟩
  rw [Folder.updates_append, updates_of_not_mentions hbefore, Folder.updates_cons,
    takeFlag_updates hsession, if_pos rfl]
  rfl

theorem receive_hasInit : folder'.HasInit sessionId := by
  obtain ⟨session, others, hinit, hupdates⟩ := receive_updates_self h
  exact ⟨session, hupdates ▸ List.mem_cons_self, hinit⟩

theorem receive_firstInit : folder'.FirstInit sessionId := by
  obtain ⟨first, others, hinit, hupdates⟩ := receive_updates_self h
  intro session hsession
  rw [hupdates, List.head?_cons, Option.mem_some_iff] at hsession
  exact hsession ▸ hinit

/-- The other sessions of the file are gone. -/
theorem receive_updates_other {other : NSUUID} (hne : other ≠ sessionId) :
    folder'.updates other =
      Folder.updates (folder.eraseP fun file => file.mentions sessionId) other := by
  obtain ⟨before, file, later, session, rfl, hbefore, hsession, rfl⟩ := receive_spec h
  rw [List.eraseP_append_right _ hbefore,
    List.eraseP_cons_of_pos (by exact mentions_of_session hsession)]
  simp only [Folder.updates_append, Folder.updates_cons, takeFlag_updates hsession, if_neg hne,
    List.nil_append]

theorem receive_itemCount :
    ∃ file ∈ folder.receiver sessionId, 1 ≤ file.sessionItems ∧
      folder'.itemCount + file.sessionItems = folder.itemCount + 1 := by
  obtain ⟨before, file, later, session, rfl, hbefore, hsession, rfl⟩ := receive_spec h
  have hmem : EnvelopeItem.session session ∈ file.items := (sessionWithId_some hsession).1
  have htake : (file.takeFlag session).items.length + file.sessionItems =
      file.items.length + 1 := by
    change (replaceSessionEnvelopeItem _ file.items).length + _ = _
    unfold replaceSessionEnvelopeItem EnvelopeFile.sessionItems
    rw [List.length_append, ← List.countP_eq_length_filter, List.length_singleton,
      List.length_eq_countP_add_countP EnvelopeItem.isSessionType]
    simp only [Bool.not_eq_true, Bool.decide_eq_false]
    omega
  refine ⟨file, ?_, ?_, ?_⟩
  · exact receiver_append hbefore (mentions_of_session hsession)
  · exact List.countP_pos_iff.mpr ⟨_, hmem, rfl⟩
  · simp only [Folder.itemCount_append, Folder.itemCount_cons]
    omega

end Receive

/-- The file is unchanged, or its only session item has got the flag. -/
def Flagged (file file' : EnvelopeFile) : Prop :=
  file' = file ∨ ∃ first session last, file.items = first ++ .session session :: last ∧
    (∀ item ∈ first ++ last, item.isSessionType = false) ∧ file' = file.takeFlag session

theorem takeFlag_items {file : EnvelopeFile} {session : SentrySession}
    {first last : List EnvelopeItem} (hitems : file.items = first ++ .session session :: last)
    (hothers : ∀ item ∈ first ++ last, item.isSessionType = false) :
    (file.takeFlag session).items = first ++ last ++ [.session session.setFlagInit] := by
  change replaceSessionEnvelopeItem session.setFlagInit file.items = _
  unfold replaceSessionEnvelopeItem
  rw [hitems, List.filter_append, List.filter_cons_of_neg (by simp [EnvelopeItem.isSessionType]),
    ← List.filter_append, List.filter_eq_self.mpr]
  intro item hitem
  rw [hothers item hitem]
  rfl

theorem single_session {items : List EnvelopeItem} {session : SentrySession}
    (hmem : .session session ∈ items) (hcount : items.countP EnvelopeItem.isSessionType = 1) :
    ∃ first last, items = first ++ .session session :: last ∧
      ∀ item ∈ first ++ last, item.isSessionType = false := by
  obtain ⟨first, last, rfl⟩ := List.append_of_mem hmem
  refine ⟨first, last, rfl, ?_⟩
  rw [List.countP_append, List.countP_cons_of_pos (by rfl)] at hcount
  have hothers : (first ++ last).countP EnvelopeItem.isSessionType = 0 := by
    rw [List.countP_append]
    omega
  intro item hitem
  simpa using List.countP_eq_zero.mp hothers item hitem

theorem updates_single {file : EnvelopeFile} {session : SentrySession} {other : NSUUID}
    {first last : List EnvelopeItem} (hitems : file.items = first ++ .session session :: last)
    (hothers : ∀ item ∈ first ++ last, item.isSessionType = false)
    (hne : other ≠ session.sessionId) : file.updates other = [] := by
  unfold EnvelopeFile.updates
  rw [List.filter_eq_nil_iff, hitems]
  intro update hupdate
  obtain ⟨item, hitem, hread⟩ := List.mem_filterMap.mp hupdate
  obtain ⟨rfl, -⟩ := sessionWithData_eq_some hread
  rw [List.mem_append, List.mem_cons, EnvelopeItem.session.injEq] at hitem
  have hsession : update = session := by
    rcases hitem with hfirst | heq | hlast
    · cases hothers _ (List.mem_append_left last hfirst)
    · exact heq
    · cases hothers _ (List.mem_append_right first hlast)
  rw [hsession, decide_eq_true_eq]
  exact hne.symm

section Alone
variable {sessionId : NSUUID} {folder folder' : Folder} (h : receive sessionId folder = some folder')
  (alone : ∀ receiver ∈ folder.receiver sessionId, receiver.sessionItems = 1)
include h alone

/-- With a single session item the file that takes the flag keeps the others. -/
theorem receive_alone :
    ∃ (before : Folder) (file : EnvelopeFile) (later : Folder) (session : SentrySession)
        (first last : List EnvelopeItem),
      folder = before ++ file :: later ∧ folder' = before ++ file.takeFlag session :: later ∧
      session.sessionId = sessionId ∧ file.items = first ++ .session session :: last ∧
      ∀ item ∈ first ++ last, item.isSessionType = false := by
  obtain ⟨before, file, later, session, rfl, hbefore, hsession, rfl⟩ := receive_spec h
  obtain ⟨hmem, hid, -⟩ := sessionWithId_some hsession
  have hcount := alone file (receiver_append hbefore (mentions_of_session hsession))
  obtain ⟨first, last, hitems, hothers⟩ := single_session hmem hcount
  exact ⟨before, file, later, session, first, last, rfl, rfl, hid, hitems, hothers⟩

theorem receive_flagged : List.Forall₂ Flagged folder folder' := by
  obtain ⟨before, file, later, session, first, last, rfl, rfl, -, hitems, hothers⟩ :=
    receive_alone h alone
  have hsame : ∀ files : Folder, List.Forall₂ Flagged files files := fun files =>
    List.forall₂_same.mpr fun f _ => Or.inl rfl
  apply List.rel_append (hsame before)
  exact .cons (Or.inr ⟨first, session, last, hitems, hothers, rfl⟩) (hsame later)

theorem receive_alone_updates {other : NSUUID} (hne : other ≠ sessionId) :
    folder'.updates other = folder.updates other := by
  obtain ⟨before, file, later, session, first, last, rfl, rfl, hsession, hitems, hothers⟩ :=
    receive_alone h alone
  have hfile : file.updates other = [] := updates_single hitems hothers (hsession ▸ hne)
  have htake : (file.takeFlag session).updates other = [] :=
    updates_single (takeFlag_items hitems hothers) (by simpa using hothers) (hsession ▸ hne)
  simp only [Folder.updates_append, Folder.updates_cons, hfile, htake]

end Alone

/-! One removal. -/

theorem handOn_eq (rest : Folder) (items : List EnvelopeItem) :
    handOn rest items = (handedOn rest items).bind fun sessionId => receive sessionId rest := by
  induction items with
  | nil => rfl
  | cons item items ih =>
    unfold handOn handedOn at *
    rw [List.findSome?_cons]
    cases hread : item.sessionWithData with
    | none =>
      rw [List.filterMap_cons_none hread]
      exact ih
    | some session =>
      rw [List.filterMap_cons_some hread, Option.bind_some]
      by_cases hflag : flagInitValue session = true
      · cases hreceive : receive session.sessionId rest with
        | some rest' =>
          have hne : rest.updates session.sessionId ≠ [] := fun hnil => by
            rw [receive_eq_none.mpr hnil] at hreceive
            cases hreceive
          rw [List.find?_cons_of_pos (by simp [hflag, hne])]
          simp [hflag, hreceive]
        | none =>
          rw [List.find?_cons_of_neg (by simp [receive_eq_none.mp hreceive])]
          simpa [hflag, hreceive] using ih
      · rw [List.find?_cons_of_neg (by simp [hflag])]
        simpa [hflag] using ih

theorem hasInit_file {file : EnvelopeFile} {sessionId : NSUUID} :
    Folder.HasInit [file] sessionId ↔
      ∃ session ∈ file.items.filterMap EnvelopeItem.sessionWithData,
        session.sessionId = sessionId ∧ flagInitValue session = true := by
  simp only [Folder.HasInit, Folder.updates, List.flatMap_singleton, EnvelopeFile.updates,
    List.mem_filter, decide_eq_true_eq, and_assoc]

theorem hasInit_append {first second : Folder} {sessionId : NSUUID} :
    Folder.HasInit (first ++ second) sessionId ↔
      first.HasInit sessionId ∨ second.HasInit sessionId := by
  simp only [Folder.HasInit, Folder.updates_append, List.mem_append, or_and_right, exists_or]

theorem hasInit_cons {file : EnvelopeFile} {rest : Folder} {sessionId : NSUUID} :
    Folder.HasInit (file :: rest) sessionId ↔
      Folder.HasInit [file] sessionId ∨ rest.HasInit sessionId := by
  change Folder.HasInit ([file] ++ rest) sessionId ↔ _
  exact hasInit_append

/-- Nothing changes, or the flag of one session is set in a file that stays or leaves later. -/
inductive Removal (file : EnvelopeFile) (leaving staying : Folder) : Folder → Folder → Prop
  | none (handed : handedOn (leaving ++ staying) file.items = none) :
      Removal file leaving staying leaving staying
  | leaving (sessionId : NSUUID) (leaving' : Folder)
      (handed : handedOn (leaving ++ staying) file.items = some sessionId)
      (h : receive sessionId leaving = some leaving') :
      Removal file leaving staying leaving' staying
  | staying (sessionId : NSUUID) (staying' : Folder)
      (handed : handedOn (leaving ++ staying) file.items = some sessionId)
      (absent : leaving.updates sessionId = [])
      (h : receive sessionId staying = some staying') :
      Removal file leaving staying leaving staying'

theorem handedOn_hasInit {rest : Folder} {file : EnvelopeFile} {sessionId : NSUUID}
    (h : handedOn rest file.items = some sessionId) : Folder.HasInit [file] sessionId := by
  obtain ⟨session, hfind, rfl⟩ := Option.map_eq_some_iff.mp h
  have hflag := List.find?_some hfind
  rw [Bool.and_eq_true] at hflag
  exact hasInit_file.mpr ⟨session, List.mem_of_find?_eq_some hfind, rfl, hflag.1⟩

theorem handedOn_none {rest : Folder} {file : EnvelopeFile}
    (h : handedOn rest file.items = none) {sessionId : NSUUID}
    (hinit : Folder.HasInit [file] sessionId) : rest.updates sessionId = [] := by
  obtain ⟨session, hmem, rfl, hflag⟩ := hasInit_file.mp hinit
  have hfind := List.find?_eq_none.mp (Option.map_eq_none_iff.mp h) session hmem
  simpa [hflag] using hfind

theorem removal (file : EnvelopeFile) (leaving staying : Folder) :
    ∃ leaving' staying', (removeOldest (file :: (leaving ++ staying))).1 = leaving' ++ staying' ∧
      leaving'.length = leaving.length ∧ Removal file leaving staying leaving' staying' := by
  have hremove : (removeOldest (file :: (leaving ++ staying))).1 =
      (handOn (leaving ++ staying) file.items).getD (leaving ++ staying) := rfl
  rw [hremove, handOn_eq]
  cases hhanded : handedOn (leaving ++ staying) file.items with
  | none => exact ⟨leaving, staying, rfl, rfl, .none hhanded⟩
  | some sessionId =>
    rw [Option.bind_some, receive_append]
    cases hleaving : receive sessionId leaving with
    | some leaving' =>
      exact ⟨leaving', staying, rfl, receive_length hleaving,
        .leaving sessionId leaving' hhanded hleaving⟩
    | none =>
      have habsent := receive_eq_none.mp hleaving
      cases hstaying : receive sessionId staying with
      | some staying' =>
        exact ⟨leaving, staying', rfl, rfl, .staying sessionId staying' hhanded habsent hstaying⟩
      | none =>
        obtain ⟨session, hfind, rfl⟩ := Option.map_eq_some_iff.mp hhanded
        have hupdates := List.find?_some hfind
        rw [Folder.updates_append, habsent, receive_eq_none.mp hstaying] at hupdates
        simp at hupdates

theorem receive_hasInit_other {sessionId other : NSUUID} {folder folder' : Folder}
    (h : receive sessionId folder = some folder') (hne : other ≠ sessionId) :
    folder'.HasInit other ↔
      Folder.HasInit (folder.eraseP fun file => file.mentions sessionId) other := by
  unfold Folder.HasInit
  rw [receive_updates_other h hne]

theorem hasInit_eraseP {folder : Folder} {other : NSUUID} {p : EnvelopeFile → Bool}
    (h : Folder.HasInit (folder.eraseP p) other) : folder.HasInit other := by
  apply h.mono
  intro session hsession
  obtain ⟨file, hfile, hupdate⟩ := List.mem_flatMap.mp hsession
  exact List.mem_flatMap.mpr ⟨file, List.mem_of_mem_eraseP hfile, hupdate⟩

theorem eraseP_absent {folder : Folder} {sessionId : NSUUID}
    (absent : folder.updates sessionId = []) :
    (folder.eraseP fun file => file.mentions sessionId) = folder := by
  apply List.eraseP_of_forall_not
  intro file hfile
  rw [mentions_iff, not_not]
  exact List.flatMap_eq_nil_iff.mp absent file hfile

theorem receive_firstInit_other {sessionId other : NSUUID} {folder folder' : Folder}
    (h : receive sessionId folder = some folder')
    (alone : ∀ receiver ∈ folder.receiver sessionId, receiver.sessionItems = 1)
    (hne : other ≠ sessionId) : folder'.FirstInit other ↔ folder.FirstInit other := by
  unfold Folder.FirstInit
  rw [receive_alone_updates h alone hne]

theorem Folder.firstInit_absent {folder : Folder} {sessionId : NSUUID}
    (h : folder.updates sessionId = []) : folder.FirstInit sessionId := by
  intro session hsession
  rw [h] at hsession
  cases hsession

/-- The file that takes the flag has no other session item. -/
def Alone (file : EnvelopeFile) (leaving staying : Folder) : Prop :=
  ∀ sessionId ∈ handedOn (leaving ++ staying) file.items, leaving.updates sessionId = [] →
    ∀ receiver ∈ staying.receiver sessionId, receiver.sessionItems = 1

namespace Removal
variable {file : EnvelopeFile} {leaving staying leaving' staying' : Folder}
  (h : Removal file leaving staying leaving' staying')
include h

theorem itemCount_le : staying'.itemCount ≤ staying.itemCount := by
  cases h with
  | none _ => exact le_rfl
  | leaving _ _ _ _ => exact le_rfl
  | staying sessionId _ handed absent hreceive =>
    obtain ⟨receiver, -, hpos, hcount⟩ := receive_itemCount hreceive
    omega

theorem alone (hcount : staying.itemCount ≤ staying'.itemCount) : Alone file leaving staying := by
  intro other hhanded habsent receiver hreceiver
  cases h with
  | none handed =>
    rw [handed] at hhanded
    cases hhanded
  | leaving sessionId _ handed hreceive =>
    obtain rfl : sessionId = other := Option.some.inj (handed.symm.trans hhanded)
    rw [receive_eq_none.mpr habsent] at hreceive
    cases hreceive
  | staying sessionId _ handed absent hreceive =>
    obtain rfl : sessionId = other := Option.some.inj (handed.symm.trans hhanded)
    obtain ⟨taker, htaker, hpos, hsum⟩ := receive_itemCount hreceive
    obtain rfl : taker = receiver := Option.some.inj (htaker.symm.trans hreceiver)
    omega

theorem flagged (alone : Alone file leaving staying) : List.Forall₂ Flagged staying staying' := by
  cases h with
  | none _ => exact List.forall₂_same.mpr fun f _ => Or.inl rfl
  | leaving _ _ _ _ => exact List.forall₂_same.mpr fun f _ => Or.inl rfl
  | staying sessionId _ handed absent hreceive =>
    exact receive_flagged hreceive (alone sessionId handed absent)

/-- No session gets a flag out of nothing. -/
theorem hasInit {sessionId : NSUUID} (hinit : Folder.HasInit (leaving' ++ staying') sessionId) :
    Folder.HasInit (file :: (leaving ++ staying)) sessionId := by
  have hkeep : ∀ (other : NSUUID) (folder folder' : Folder), receive other folder = some folder' →
      sessionId ≠ other → folder'.HasInit sessionId → folder.HasInit sessionId :=
    fun other folder folder' hreceive hne hinit' =>
      hasInit_eraseP ((receive_hasInit_other hreceive hne).mp hinit')
  rw [hasInit_cons]
  rw [hasInit_append] at hinit ⊢
  cases h with
  | none _ => exact Or.inr hinit
  | leaving other _ handed hreceive =>
    by_cases heq : sessionId = other
    · exact Or.inl (heq ▸ handedOn_hasInit handed)
    · exact Or.inr (hinit.imp_left (hkeep other _ _ hreceive heq))
  | staying other _ handed absent hreceive =>
    by_cases heq : sessionId = other
    · exact Or.inl (heq ▸ handedOn_hasInit handed)
    · exact Or.inr (hinit.imp_right (hkeep other _ _ hreceive heq))

theorem live (keeps : ∀ sessionId ∈ handedOn (leaving ++ staying) file.items,
      RemovalKeeps file leaving staying sessionId)
    {sessionId : NSUUID} (hlive : Live sessionId (file :: leaving) staying) :
    Live sessionId leaving' staying' := by
  cases h with
  | none handed =>
    rcases hlive with hinit | hfirst
    · rcases hasInit_cons.mp hinit with hfile | hleaving
      · have habsent := handedOn_none handed hfile
        rw [Folder.updates_append, List.append_eq_nil_iff] at habsent
        exact Or.inr (Folder.firstInit_absent habsent.2)
      · exact Or.inl hleaving
    · exact Or.inr hfirst
  | leaving other _ handed hreceive =>
    by_cases heq : sessionId = other
    · exact Or.inl (heq ▸ receive_hasInit hreceive)
    · exact ((keeps other handed).others sessionId heq hlive).imp_left
        (receive_hasInit_other hreceive heq).mpr
  | staying other _ handed absent hreceive =>
    by_cases heq : sessionId = other
    · exact Or.inr (heq ▸ receive_firstInit hreceive)
    · have hothers := (keeps other handed).others sessionId heq hlive
      rw [eraseP_absent absent] at hothers
      exact hothers.imp_right
        (receive_firstInit_other hreceive ((keeps other handed).alone absent) heq).mpr

/-- The other flags that are alive afterwards did not need what the removal takes away. -/
theorem live_others (alone : Alone file leaving staying) {other sessionId : NSUUID}
    (handed : handedOn (leaving ++ staying) file.items = some other) (hne : sessionId ≠ other)
    (hlive : Live sessionId leaving' staying') :
    Live sessionId (leaving.eraseP fun file => file.mentions other) staying := by
  cases h with
  | none hnone =>
    rw [hnone] at handed
    cases handed
  | leaving taken _ htaken hreceive =>
    obtain rfl : taken = other := Option.some.inj (htaken.symm.trans handed)
    exact hlive.imp_left (receive_hasInit_other hreceive hne).mp
  | staying taken _ htaken absent hreceive =>
    obtain rfl : taken = other := Option.some.inj (htaken.symm.trans handed)
    rw [eraseP_absent absent]
    exact hlive.imp_right (receive_firstInit_other hreceive (alone taken handed absent) hne).mp

theorem live_before (alone : Alone file leaving staying) {sessionId : NSUUID}
    (hlive : Live sessionId leaving' staying') : Live sessionId (file :: leaving) staying := by
  have hcons : Live sessionId leaving staying → Live sessionId (file :: leaving) staying :=
    fun hleaving => hleaving.imp_left fun hinit => hasInit_cons.mpr (Or.inr hinit)
  cases hhanded : handedOn (leaving ++ staying) file.items with
  | none =>
    cases h with
    | none _ => exact hcons hlive
    | leaving _ _ handed _ => cases hhanded.symm.trans handed
    | staying _ _ handed _ _ => cases hhanded.symm.trans handed
  | some other =>
    by_cases heq : sessionId = other
    · exact Or.inl (hasInit_cons.mpr (Or.inl (heq ▸ handedOn_hasInit hhanded)))
    · exact hcons ((h.live_others alone hhanded heq hlive).imp_left hasInit_eraseP)

end Removal

/-! All removals. -/

/-- Run the removals one by one, with the files that leave and the files that stay apart. -/
theorem removals_induction
    {motive : (n : Nat) → (leaving staying : Folder) → leaving.length = n → Prop}
    (zero : ∀ staying, motive 0 [] staying rfl)
    (succ : ∀ n file leaving staying leaving' staying' (hleaving : leaving.length = n)
      (hleaving' : leaving'.length = n),
      (removeOldest (file :: (leaving ++ staying))).1 = leaving' ++ staying' →
      Removal file leaving staying leaving' staying' → motive n leaving' staying' hleaving' →
      motive (n + 1) (file :: leaving) staying (congrArg Nat.succ hleaving))
    (n : Nat) (leaving staying : Folder) (hlength : leaving.length = n) :
    motive n leaving staying hlength := by
  induction n generalizing leaving staying with
  | zero =>
    obtain rfl := List.length_eq_zero_iff.mp hlength
    exact zero staying
  | succ n ih =>
    cases leaving with
    | nil => cases hlength
    | cons file leaving =>
      have hleaving : leaving.length = n := Nat.succ.inj hlength
      obtain ⟨leaving', staying', heq, hsame, hremoval⟩ := removal file leaving staying
      exact succ n file leaving staying leaving' staying' hleaving (hsame.trans hleaving) heq
        hremoval (ih leaving' staying' (hsame.trans hleaving))

theorem removeFiles_succ {n : Nat} {file : EnvelopeFile} {rest rest' : Folder}
    (h : (removeOldest (file :: rest)).1 = rest') :
    (removeFiles (n + 1) (file :: rest)).1 = (removeFiles n rest').1 := by
  rw [← h]
  rfl

theorem orderly_succ {n : Nat} {file : EnvelopeFile} {leaving staying rest' : Folder}
    (hlength : leaving.length = n) (h : (removeOldest (file :: (leaving ++ staying))).1 = rest') :
    Orderly (n + 1) (file :: leaving ++ staying) ↔
      (∀ sessionId ∈ handedOn (leaving ++ staying) file.items,
        RemovalKeeps file leaving staying sessionId) ∧ Orderly n rest' := by
  rw [List.cons_append, Orderly, h, List.take_left' hlength, List.drop_left' hlength]

theorem itemCount_removeFiles {n : Nat} {leaving : Folder} (staying : Folder)
    (hlength : leaving.length = n) :
    (removeFiles n (leaving ++ staying)).1.itemCount ≤ staying.itemCount := by
  induction n, leaving, staying, hlength using removals_induction with
  | zero staying => exact le_rfl
  | succ n file leaving staying leaving' staying' _ _ heq hremoval ih =>
    rw [List.cons_append, removeFiles_succ heq]
    exact ih.trans hremoval.itemCount_le

/-! The condition is enough. -/

theorem Kept.of_flagged {file file' : EnvelopeFile} {items : List EnvelopeItem}
    (hkept : Kept file'.items items) (hflagged : Flagged file file') : Kept file.items items := by
  obtain rfl | ⟨first, session, last, hitems, hothers, rfl⟩ := hflagged
  · exact hkept
  rw [takeFlag_items hitems hothers] at hkept
  have hmove : (first ++ last ++ [EnvelopeItem.session session.setFlagInit]).Perm
      (.session session.setFlagInit :: (first ++ last)) := List.perm_append_singleton _ _
  refine Or.inr ⟨first, session, last, hitems, ?_⟩
  obtain hperm | ⟨before, again, after, hsplit, hperm⟩ := hkept
  · exact hperm.trans hmove
  -- The only session of the file has the flag already.
  have hagain : again = session.setFlagInit := by
    have hmem : EnvelopeItem.session again ∈
        first ++ last ++ [EnvelopeItem.session session.setFlagInit] := by
      rw [hsplit]
      exact List.mem_append_right before List.mem_cons_self
    rcases List.mem_append.mp hmem with hother | hlast
    · cases hothers _ hother
    · exact EnvelopeItem.session.inj (List.mem_singleton.mp hlast)
  have hothers' : (before ++ after).Perm (first ++ last) := by
    rw [← List.perm_cons (EnvelopeItem.session again)]
    rw [hsplit, ← hagain] at hmove
    exact List.perm_middle.symm.trans hmove
  rw [hagain] at hperm
  exact hperm.trans (hothers'.cons _)

theorem Kept.length_eq {items items' : List EnvelopeItem} (h : Kept items items') :
    items'.length = items.length := by
  obtain hperm | ⟨before, session, after, rfl, hperm⟩ := h
  · exact hperm.length_eq
  · rw [hperm.length_eq, List.length_cons, List.length_append, List.length_append,
      List.length_cons, Nat.add_assoc]

theorem kept_of_flagged {folder folder' remaining : Folder}
    (hflagged : List.Forall₂ Flagged folder folder')
    (hkept : List.Forall₂ KeptFile folder' remaining) :
    List.Forall₂ KeptFile folder remaining := by
  induction hflagged generalizing remaining with
  | nil => exact hkept
  | cons hfile _ ih =>
    obtain ⟨file', rest', ⟨hpath, hitems⟩, hrest, rfl⟩ := List.forall₂_cons_left_iff.mp hkept
    refine .cons ⟨hpath.trans ?_, hitems.of_flagged hfile⟩ (ih hrest)
    obtain rfl | ⟨first, session, last, -, -, rfl⟩ := hfile
    · rfl
    · rfl

theorem correct_files {n : Nat} {leaving staying : Folder} (hlength : leaving.length = n)
    (horderly : Orderly n (leaving ++ staying)) :
    List.Forall₂ KeptFile staying (removeFiles n (leaving ++ staying)).1 := by
  induction n, leaving, staying, hlength using removals_induction with
  | zero staying => exact List.forall₂_same.mpr fun file _ => ⟨rfl, Or.inl (List.Perm.refl _)⟩
  | succ n file leaving staying leaving' staying' hleaving _ heq hremoval ih =>
    obtain ⟨hkeeps, hrest⟩ := (orderly_succ hleaving heq).mp horderly
    rw [List.cons_append, removeFiles_succ heq]
    have hflagged := hremoval.flagged fun sessionId handed => (hkeeps sessionId handed).alone
    exact kept_of_flagged hflagged (ih hrest)

theorem correct_flags {n : Nat} {leaving staying : Folder} (hlength : leaving.length = n)
    (horderly : Orderly n (leaving ++ staying)) {sessionId : NSUUID}
    (hlive : Live sessionId leaving staying) :
    Folder.FirstInit (removeFiles n (leaving ++ staying)).1 sessionId := by
  induction n, leaving, staying, hlength using removals_induction with
  | zero staying =>
    rcases hlive with ⟨session, hmem, -⟩ | hfirst
    · cases hmem
    · exact hfirst
  | succ n file leaving staying leaving' staying' hleaving _ heq hremoval ih =>
    obtain ⟨hkeeps, hrest⟩ := (orderly_succ hleaving heq).mp horderly
    rw [List.cons_append, removeFiles_succ heq]
    exact ih hrest (hremoval.live hkeeps hlive)

/-! The condition is needed. -/

section Needed
variable {n : Nat} {leaving staying : Folder} (hlength : leaving.length = n)
  (hcount : staying.itemCount ≤ (removeFiles n (leaving ++ staying)).1.itemCount)
include hlength hcount

/-- A flag that gets to the first update was alive before. -/
theorem live_of_firstInit {sessionId : NSUUID}
    (hfirst : Folder.FirstInit (removeFiles n (leaving ++ staying)).1 sessionId) :
    Live sessionId leaving staying := by
  induction n, leaving, staying, hlength using removals_induction with
  | zero staying => exact Or.inr hfirst
  | succ n file leaving staying leaving' staying' _ hleaving' heq hremoval ih =>
    rw [List.cons_append, removeFiles_succ heq] at hcount hfirst
    have hremaining := itemCount_removeFiles staying' hleaving'
    exact hremoval.live_before (hremoval.alone (hcount.trans hremaining))
      (ih (hremoval.itemCount_le.trans hcount) hfirst)

theorem orderly_of_flags
    (hflags : ∀ sessionId, Folder.HasInit (leaving ++ staying) sessionId →
      Folder.FirstInit (removeFiles n (leaving ++ staying)).1 sessionId) :
    Orderly n (leaving ++ staying) := by
  induction n, leaving, staying, hlength using removals_induction with
  | zero staying => trivial
  | succ n file leaving staying leaving' staying' hleaving hleaving' heq hremoval ih =>
    rw [List.cons_append, removeFiles_succ heq] at hcount hflags
    have hremaining := itemCount_removeFiles staying' hleaving'
    have hcount' := hremoval.itemCount_le.trans hcount
    have halone := hremoval.alone (hcount.trans hremaining)
    rw [orderly_succ hleaving heq]
    constructor
    · intro sessionId handed
      refine ⟨halone sessionId handed, fun other hne hlive => ?_⟩
      rcases hlive with hinit | hstays
      · have hfirst := hflags other (by
          rw [← List.cons_append, hasInit_append]
          exact Or.inl hinit)
        exact hremoval.live_others halone handed hne (live_of_firstInit hleaving' hcount' hfirst)
      · exact Or.inr hstays
    · exact ih hcount' fun sessionId hinit => hflags sessionId (hremoval.hasInit hinit)

end Needed

theorem itemCount_kept {folder folder' : Folder}
    (h : List.Forall₂ KeptFile folder folder') : folder'.itemCount = folder.itemCount := by
  induction h with
  | nil => rfl
  | cons hfile _ ih =>
    rw [Folder.itemCount_cons, Folder.itemCount_cons, ih, hfile.2.length_eq]

def exampleUUID (digit : Fin 10) : NSUUID where
  characters := (List.range 36).map fun position =>
    if position ∈ [8, 13, 18, 23] then '-' else Char.ofNat (48 + digit.val)
  length_eq := by simp
  form := by revert digit; decide

def exampleSession (digit : Fin 10) : SentrySession :=
  .initWithReleaseName (exampleUUID digit) ⟨0⟩ "1.0" "user"

def exampleFileUUID : NSUUID := exampleUUID 0

/-- The first file starts the sessions 1 and 2. The next one updates the session 1, and ends
a session 3 of the past. -/
def exampleFolder : EnvelopeFolder where
  files := [
    ⟨0, some (some [.session (exampleSession 1), .session (exampleSession 2)])⟩,
    ⟨1, some (some [.session (exampleSession 1).changed, .session (exampleSession 3).changed])⟩,
    ⟨2, some (some [.session (exampleSession 2).changed])⟩]
  paths_nodup := by decide

end SentryCocoa.FileManager
