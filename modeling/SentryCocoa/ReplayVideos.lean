import Mathlib.Algebra.Order.Field.Rat
import Mathlib.Data.List.SplitBy
import Mathlib.Data.Rat.Floor

/-! The videos of a session replay. The frames are taken one after the other: a video is written
until the size of the images changes, and the next one starts from there. The writer takes every
frame that it is given. -/
namespace SentryCocoa.ReplayVideos

structure CGSize where
  width : ℚ
  height : ℚ
  deriving DecidableEq

structure SentryReplayFrame where
  imagePath : String
  time : ℚ
  screenName : Option String
  deriving DecidableEq

/-- A time as a fraction. -/
structure CMTime where
  value : Int
  timescale : Int
  deriving DecidableEq

namespace CMTime

def ofSeconds (seconds preferredTimescale : Int) : CMTime :=
  ⟨seconds * preferredTimescale, preferredTimescale⟩

/-- Timescales must be positive. -/
def seconds? (time : CMTime) : Option ℚ :=
  if 0 < time.timescale then some (time.value / time.timescale) else none

end CMTime

structure SentryVideoInfo where
  height : Int
  width : Int
  duration : ℚ
  frameCount : Nat
  frameRate : Int
  start : ℚ
  «end» : ℚ
  screens : List String
  deriving DecidableEq

/-- The frames in the file with the times at which they are presented, and what is said of it. -/
structure Video where
  frames : List (SentryReplayFrame × CMTime)
  info : SentryVideoInfo
  deriving DecidableEq

structure SentryOnDemandReplay where
  frames : List SentryReplayFrame
  videoScale : ℚ
  frameRate : Int

namespace SentryOnDemandReplay

/-! `image` reads the file at a path. -/

variable (replay : SentryOnDemandReplay) (image : String → Option CGSize)

/-- There is no time if the division traps. -/
def presentTime (frameCount : Nat) : Option CMTime :=
  if replay.frameRate = 0 then none
  else some (.ofSeconds frameCount ((1 : Int).tdiv replay.frameRate))

/-- What the callback of the writer leaves: the frames that were appended, and the place of the
next video. -/
structure Written where
  usedFrames : List (SentryReplayFrame × CMTime)
  videoFrames : List SentryReplayFrame
  frameCount : Nat

/-- The calls of the callback. `videoFrames` are those from `frameCount` on. -/
def requestMediaData (lastImageSize : CGSize) : (videoFrames : List SentryReplayFrame) →
    (frameCount : Nat) → (usedFrames : List (SentryReplayFrame × CMTime)) → Option Written
  | [], frameCount, usedFrames => some ⟨usedFrames, [], frameCount⟩
  | frame :: rest, frameCount, usedFrames =>
    match image frame.imagePath with
    | some size =>
      if lastImageSize ≠ size then some ⟨usedFrames, frame :: rest, frameCount⟩
      else do
        let presentTime ← replay.presentTime frameCount
        requestMediaData size rest (frameCount + 1) (usedFrames ++ [(frame, presentTime)])
    | none => requestMediaData lastImageSize rest (frameCount + 1) usedFrames

/-- There is no video without a frame. -/
def finishVideo (usedFrames : List (SentryReplayFrame × CMTime)) (size : CGSize) :
    Option Video :=
  (usedFrames.map fun used => used.1.time).min?.map fun start =>
    let duration : ℚ := (usedFrames.length : Int).tdiv replay.frameRate
    { frames := usedFrames
      info := {
        height := ⌊size.height * replay.videoScale⌋
        width := ⌊size.width * replay.videoScale⌋
        duration := duration
        frameCount := usedFrames.length
        frameRate := replay.frameRate
        start := start
        «end» := start + duration
        screens := usedFrames.filterMap fun used => used.1.screenName } }

/-- A video, if the first image can be read, and what is left. -/
def renderVideo : (videoFrames : List SentryReplayFrame) → (frameCount : Nat) →
    Option (Option Video × List SentryReplayFrame × Nat)
  | [], frameCount => some (none, [], frameCount)
  | frame :: rest, frameCount =>
    match image frame.imagePath with
    | none => some (none, frame :: rest, frameCount)
    | some size =>
      (replay.requestMediaData image size (frame :: rest) frameCount []).map fun written =>
        (replay.finishVideo written.usedFrames size, written.videoFrames, written.frameCount)

variable {image}

theorem length_requestMediaData {lastImageSize : CGSize} {videoFrames : List SentryReplayFrame}
    {frameCount : Nat} {usedFrames : List (SentryReplayFrame × CMTime)} {written : Written}
    (h : replay.requestMediaData image lastImageSize videoFrames frameCount usedFrames =
      some written) :
    written.usedFrames.length + written.videoFrames.length ≤
      usedFrames.length + videoFrames.length := by
  induction videoFrames generalizing lastImageSize frameCount usedFrames with
  | nil =>
    cases h
    exact Nat.le_refl _
  | cons frame rest ih =>
    rw [requestMediaData] at h
    split at h
    · split at h
      · cases h
        exact Nat.le_refl _
      · obtain ⟨presentTime, -, hrest⟩ := Option.bind_eq_some_iff.mp h
        have hless := ih hrest
        rw [List.length_append, List.length_singleton] at hless
        rw [List.length_cons]
        omega
    · have hless := ih h
      rw [List.length_cons]
      omega

/-- A video takes at least one frame. -/
theorem length_renderVideo {videoFrames videoFrames' : List SentryReplayFrame}
    {frameCount frameCount' : Nat} {video : Option Video}
    (h : replay.renderVideo image videoFrames frameCount =
      some (video, videoFrames', frameCount')) :
    videoFrames'.length ≤ videoFrames.length ∧
      (video.isSome = true → videoFrames'.length < videoFrames.length) := by
  cases videoFrames with
  | nil =>
    cases h
    exact ⟨Nat.le_refl _, fun h => nomatch h⟩
  | cons frame rest =>
    rw [renderVideo] at h
    split at h
    · cases h
      exact ⟨Nat.le_refl _, fun h => nomatch h⟩
    · obtain ⟨written, hwritten, heq⟩ := Option.map_eq_some_iff.mp h
      cases heq
      have hless := replay.length_requestMediaData hwritten
      rw [List.length_nil] at hless
      refine ⟨by omega, fun hsome => ?_⟩
      cases hused : written.usedFrames with
      | nil =>
        rw [hused] at hsome
        cases hsome
      | cons used others =>
        rw [hused, List.length_cons] at hless
        omega

variable (image)

/-- The loop over the videos. There is no result if a division traps. -/
def createVideos (videoFrames : List SentryReplayFrame) (frameCount : Nat) :
    Option (List Video) :=
  match videoFrames with
  | [] => some []
  | frame :: rest =>
    match _h : replay.renderVideo image (frame :: rest) frameCount with
    | none => none
    | some (some video, videoFrames', frameCount') =>
      (createVideos videoFrames' frameCount').map (video :: ·)
    | some (none, videoFrames', frameCount') => createVideos videoFrames'.tail (frameCount' + 1)
termination_by videoFrames.length
decreasing_by
  · exact (replay.length_renderVideo _h).2 rfl
  · have hle := (replay.length_renderVideo _h).1
    rw [List.length_cons] at hle
    rw [List.length_tail, List.length_cons]
    omega

def filterFrames (beginning «end» : ℚ) : List SentryReplayFrame :=
  replay.frames.filter fun frame => frame.time ≥ beginning ∧ frame.time ≤ «end»

def createVideoWith (beginning «end» : ℚ) : Option (List Video) :=
  replay.createVideos image (replay.filterFrames beginning «end») 0

/-! ## The frames of the videos -/

def readable (frame : SentryReplayFrame) : Bool := (image frame.imagePath).isSome

def sameSize (frame frame' : SentryReplayFrame) : Bool :=
  image frame.imagePath == image frame'.imagePath

/-- The frames that can be read, with the times that they get from their place in the list. -/
def timed : (videoFrames : List SentryReplayFrame) → (frameCount : Nat) →
    List (SentryReplayFrame × CMTime)
  | [], _ => []
  | frame :: rest, frameCount =>
    if readable image frame then
      (frame, .ofSeconds frameCount ((1 : Int).tdiv replay.frameRate)) ::
        timed rest (frameCount + 1)
    else timed rest (frameCount + 1)

theorem timed_append (videoFrames rest : List SentryReplayFrame) (frameCount : Nat) :
    replay.timed image (videoFrames ++ rest) frameCount =
      replay.timed image videoFrames frameCount ++
        replay.timed image rest (frameCount + videoFrames.length) := by
  induction videoFrames generalizing frameCount with
  | nil => rfl
  | cons frame others ih =>
    rw [List.cons_append, timed, timed, ih, List.length_cons, Nat.add_assoc frameCount 1,
      Nat.add_comm 1]
    split
    · rfl
    · rfl

theorem map_fst_timed (videoFrames : List SentryReplayFrame) (frameCount : Nat) :
    (replay.timed image videoFrames frameCount).map Prod.fst =
      videoFrames.filter (readable image) := by
  induction videoFrames generalizing frameCount with
  | nil => rfl
  | cons frame rest ih =>
    rw [timed, List.filter_cons]
    split
    · rw [List.map_cons, ih]
    · rw [ih]

/-- All images of frames that can be read have a size. -/
def HaveSize (size : CGSize) (videoFrames : List SentryReplayFrame) : Prop :=
  ∀ frame ∈ videoFrames, readable image frame = true → image frame.imagePath = some size

variable {image} {frameCount : Nat}

theorem requestMediaData_eq (hrate : replay.frameRate ≠ 0) (size : CGSize)
    (videoFrames : List SentryReplayFrame) (frameCount : Nat)
    (usedFrames : List (SentryReplayFrame × CMTime)) :
    ∃ taken behind, videoFrames = taken ++ behind ∧ HaveSize image size taken ∧
      (∀ frame ∈ behind.head?, ∃ size', image frame.imagePath = some size' ∧ size' ≠ size) ∧
      replay.requestMediaData image size videoFrames frameCount usedFrames =
        some ⟨usedFrames ++ replay.timed image taken frameCount, behind,
          frameCount + taken.length⟩ := by
  induction videoFrames generalizing frameCount usedFrames with
  | nil =>
    refine ⟨[], [], rfl, List.forall_mem_nil _, ?_, ?_⟩
    · rintro frame ⟨⟩
    · rw [requestMediaData, timed, List.append_nil]
      rfl
  | cons frame rest ih =>
    rw [requestMediaData]
    rcases himage : image frame.imagePath with _ | size'
    · obtain ⟨taken, behind, rfl, hsize, hbehind, heq⟩ := ih (frameCount + 1) usedFrames
      have hunread : readable image frame = false := by
        rw [readable, himage]
        rfl
      refine ⟨frame :: taken, behind, rfl, ?_, hbehind, ?_⟩
      · refine List.forall_mem_cons.mpr ⟨fun h => ?_, hsize⟩
        rw [hunread] at h
        cases h
      · dsimp only
        rw [heq, timed, hunread, List.length_cons, Nat.add_assoc, Nat.add_comm 1]
        rfl
    · dsimp only
      by_cases hsame : size = size'
      · rw [if_neg (not_not.mpr hsame)]
        have hread : readable image frame = true := by
          rw [readable, himage]
          rfl
        have htime : replay.presentTime frameCount =
            some (.ofSeconds frameCount ((1 : Int).tdiv replay.frameRate)) := if_neg hrate
        obtain ⟨taken, behind, rfl, hsize, hbehind, heq⟩ := ih (frameCount + 1)
          (usedFrames ++ [(frame, .ofSeconds frameCount ((1 : Int).tdiv replay.frameRate))])
        refine ⟨frame :: taken, behind, rfl, ?_, hbehind, ?_⟩
        · exact List.forall_mem_cons.mpr ⟨fun _ => by rw [himage, hsame], hsize⟩
        · rw [htime, Option.bind_eq_bind, Option.bind_some, ← hsame, heq, timed, if_pos hread,
            List.append_assoc, List.singleton_append, List.length_cons, Nat.add_assoc,
            Nat.add_comm 1]
      · rw [if_pos hsame]
        refine ⟨[], frame :: rest, rfl, List.forall_mem_nil _, ?_, ?_⟩
        · rintro _ ⟨rfl⟩
          exact ⟨size', himage, fun h => hsame h.symm⟩
        · rw [timed, List.append_nil]
          rfl

theorem finishVideo_eq {usedFrames : List (SentryReplayFrame × CMTime)} (hne : usedFrames ≠ [])
    (size : CGSize) :
    ∃ video, replay.finishVideo usedFrames size = some video ∧ video.frames = usedFrames := by
  obtain ⟨used, others, rfl⟩ := List.exists_cons_of_ne_nil hne
  exact ⟨_, rfl, rfl⟩

theorem createVideos_of_unreadable {frame : SentryReplayFrame}
    (h : image frame.imagePath = none) (rest : List SentryReplayFrame) (frameCount : Nat) :
    replay.createVideos image (frame :: rest) frameCount =
      replay.createVideos image rest (frameCount + 1) := by
  have hrender : replay.renderVideo image (frame :: rest) frameCount =
      some (none, frame :: rest, frameCount) := by
    rw [renderVideo, h]
  rw [createVideos]
  split
  · rename_i hnone
    rw [hrender] at hnone
    cases hnone
  · rename_i hsome
    rw [hrender] at hsome
    cases hsome
  · rename_i hnone
    rw [hrender] at hnone
    cases hnone
    rfl

/-- The first video, when the first image can be read. -/
theorem createVideos_of_readable (hrate : replay.frameRate ≠ 0) {frame : SentryReplayFrame}
    {size : CGSize} (h : image frame.imagePath = some size) (rest : List SentryReplayFrame)
    (frameCount : Nat) :
    ∃ taken behind video, rest = taken ++ behind ∧ HaveSize image size (frame :: taken) ∧
      (∀ frame ∈ behind.head?, ∃ size', image frame.imagePath = some size' ∧ size' ≠ size) ∧
      video.frames = replay.timed image (frame :: taken) frameCount ∧
      replay.createVideos image (frame :: rest) frameCount =
        (replay.createVideos image behind (frameCount + (taken.length + 1))).map (video :: ·) := by
  obtain ⟨all, behind, hsplit, hsize, hbehind, heq⟩ :=
    @requestMediaData_eq replay image hrate size (frame :: rest) frameCount []
  cases all with
  | nil =>
    rw [List.nil_append] at hsplit
    obtain ⟨size', himage, hne⟩ := hbehind frame (by rw [← hsplit]; rfl)
    rw [h] at himage
    exact absurd (Option.some.inj himage).symm hne
  | cons first taken =>
    rw [List.cons_append] at hsplit
    obtain ⟨rfl, rfl⟩ := List.cons.inj hsplit
    have hread : readable image frame = true := by
      rw [readable, h]
      rfl
    have hne : replay.timed image (frame :: taken) frameCount ≠ [] := by
      rw [timed, if_pos hread]
      exact List.cons_ne_nil _ _
    obtain ⟨video, hvideo, hframes⟩ := replay.finishVideo_eq hne size
    refine ⟨taken, behind, video, rfl, hsize, hbehind, hframes, ?_⟩
    have hrender : replay.renderVideo image (frame :: (taken ++ behind)) frameCount =
        some (some video, behind, frameCount + (taken.length + 1)) := by
      rw [renderVideo, h]
      dsimp only
      rw [heq, Option.map_some, List.nil_append, hvideo]
      rfl
    rw [createVideos]
    split
    · rename_i hnone
      rw [hrender] at hnone
      cases hnone
    · rename_i hsome
      rw [hrender] at hsome
      cases hsome
      rfl
    · rename_i hnone
      rw [hrender] at hnone
      cases hnone

theorem isChain_sameSize {size : CGSize} {videoFrames : List SentryReplayFrame}
    (h : ∀ frame ∈ videoFrames, image frame.imagePath = some size) :
    videoFrames.IsChain fun frame frame' => sameSize image frame frame' = true := by
  apply List.Pairwise.isChain
  apply List.pairwise_of_forall_mem_list
  intro frame hframe frame' hframe'
  rw [sameSize, h frame hframe, h frame' hframe', beq_self_eq_true]

/-- Frames of one size that are followed by one of another size are a run of their own. -/
theorem splitBy_readable_append {size : CGSize} {taken behind : List SentryReplayFrame}
    (hsize : HaveSize image size taken) (hne : taken.filter (readable image) ≠ [])
    (hbehind : ∀ frame ∈ behind.head?, ∃ size', image frame.imagePath = some size' ∧
      size' ≠ size) :
    ((taken ++ behind).filter (readable image)).splitBy (sameSize image) =
      taken.filter (readable image) :: (behind.filter (readable image)).splitBy
        (sameSize image) := by
  have htaken : ∀ frame ∈ taken.filter (readable image), image frame.imagePath = some size :=
    fun frame hframe => hsize frame (List.mem_of_mem_filter hframe) (List.of_mem_filter hframe)
  rw [List.filter_append, List.splitBy_append,
    List.splitBy_of_isChain hne (isChain_sameSize htaken)]
  · rfl
  · intro frame hframe frame' hframe'
    cases behind with
    | nil => cases hframe'
    | cons first rest =>
      obtain ⟨size', himage, hother⟩ := hbehind first rfl
      have hread : readable image first = true := by
        rw [readable, himage]
        rfl
      rw [List.filter_cons_of_pos hread, List.head?_cons, Option.mem_some_iff] at hframe'
      rw [sameSize, htaken frame (List.mem_of_mem_getLast? hframe), ← hframe', himage,
        beq_eq_false_iff_ne]
      exact fun h => hother (Option.some.inj h).symm

/-- The videos show the frames that can be read, each run of one size in a video of its own, and
each frame at the time of its place in the list. -/
theorem createVideos_eq (hrate : replay.frameRate ≠ 0) (videoFrames : List SentryReplayFrame)
    (frameCount : Nat) :
    ∃ videos, replay.createVideos image videoFrames frameCount = some videos ∧
      videos.flatMap Video.frames = replay.timed image videoFrames frameCount ∧
      videos.map (fun video => video.frames.map Prod.fst) =
        (videoFrames.filter (readable image)).splitBy (sameSize image) ∧
      ∀ video ∈ videos, video.frames ≠ [] ∧
        ∃ size, ∀ used ∈ video.frames, image used.1.imagePath = some size := by
  induction hn : videoFrames.length using Nat.strongRecOn generalizing videoFrames frameCount with
  | ind n ih =>
    subst hn
    cases videoFrames with
    | nil =>
      refine ⟨[], ?_, rfl, rfl, List.forall_mem_nil _⟩
      rw [createVideos]
    | cons frame rest =>
      rcases himage : image frame.imagePath with _ | size
      · obtain ⟨videos, hvideos, hframes, hruns, hsizes⟩ :=
          ih rest.length (Nat.lt_succ_self _) rest (frameCount + 1) rfl
        have hunread : ¬readable image frame = true := by
          rw [readable, himage]
          exact Bool.false_ne_true
        refine ⟨videos, ?_, ?_, ?_, hsizes⟩
        · rw [replay.createVideos_of_unreadable himage, hvideos]
        · rw [hframes, timed, if_neg hunread]
        · rw [hruns, List.filter_cons_of_neg hunread]
      · obtain ⟨taken, behind, video, rfl, hsize, hbehind, hframes, heq⟩ :=
          replay.createVideos_of_readable hrate himage rest frameCount
        have hread : readable image frame = true := by
          rw [readable, himage]
          rfl
        have hne : (frame :: taken).filter (readable image) ≠ [] := by
          rw [List.filter_cons_of_pos hread]
          exact List.cons_ne_nil _ _
        obtain ⟨videos, hvideos, hothers, hruns, hsizes⟩ := ih behind.length
          (by rw [List.length_cons, List.length_append]; omega) behind
          (frameCount + (taken.length + 1)) rfl
        refine ⟨video :: videos, ?_, ?_, ?_, List.forall_mem_cons.mpr ⟨⟨?_, size, ?_⟩, hsizes⟩⟩
        · rw [heq, hvideos]
          rfl
        · rw [List.flatMap_cons, hframes, hothers, ← List.cons_append, timed_append]
          rfl
        · rw [List.map_cons, hframes, map_fst_timed, hruns, ← List.cons_append,
            splitBy_readable_append hsize hne hbehind]
        · intro hnil
          rw [hframes] at hnil
          rw [← replay.map_fst_timed image _ frameCount, hnil] at hne
          exact hne rfl
        · intro used hused
          rw [hframes] at hused
          have hmem := List.mem_map_of_mem (f := Prod.fst) hused
          rw [map_fst_timed] at hmem
          exact hsize _ (List.mem_of_mem_filter hmem) (List.of_mem_filter hmem)

theorem createVideos_of_all_unreadable {videoFrames : List SentryReplayFrame}
    (h : ∀ frame ∈ videoFrames, image frame.imagePath = none) (frameCount : Nat) :
    replay.createVideos image videoFrames frameCount = some [] := by
  induction videoFrames generalizing frameCount with
  | nil => rw [createVideos]
  | cons frame rest ih =>
    obtain ⟨hframe, hrest⟩ := List.forall_mem_cons.mp h
    rw [replay.createVideos_of_unreadable hframe, ih hrest]

theorem createVideos_of_trap (hrate : replay.frameRate = 0) {videoFrames : List SentryReplayFrame}
    (h : ∃ frame ∈ videoFrames, readable image frame = true) (frameCount : Nat) :
    replay.createVideos image videoFrames frameCount = none := by
  induction videoFrames generalizing frameCount with
  | nil =>
    obtain ⟨frame, hframe, -⟩ := h
    cases hframe
  | cons frame rest ih =>
    rcases himage : image frame.imagePath with _ | size
    · rw [replay.createVideos_of_unreadable himage]
      obtain ⟨other, hmem, hread⟩ := h
      rcases List.mem_cons.mp hmem with rfl | hmem
      · rw [readable, himage] at hread
        cases hread
      · exact ih ⟨other, hmem, hread⟩ _
    · have hrender : replay.renderVideo image (frame :: rest) frameCount = none := by
        have htime : replay.presentTime frameCount = none := if_pos hrate
        rw [renderVideo, himage]
        dsimp only
        rw [requestMediaData, himage]
        dsimp only
        rw [if_neg (not_not.mpr rfl), htime]
        rfl
      rw [createVideos]
      split
      · rfl
      · rename_i hsome
        rw [hrender] at hsome
        cases hsome
      · rename_i hsome
        rw [hrender] at hsome
        cases hsome

/-! ## When the videos are right -/

variable (image)

/-- The frames that can be read, in order, in videos that are the runs of frames of one size;
and the k-th frame of a video is presented at the time `k / frameRate`. -/
structure Rendered (videoFrames : List SentryReplayFrame) (videos : List Video) : Prop where
  runs : videos.map (fun video => video.frames.map Prod.fst) =
    (videoFrames.filter (readable image)).splitBy (sameSize image)
  times : ∀ video ∈ videos, ∀ (k : Nat) (used : SentryReplayFrame × CMTime),
    video.frames[k]? = some used → used.2.seconds? = some ((k : ℚ) / replay.frameRate)

def RendersRight (beginning «end» : ℚ) : Prop :=
  ∃ videos, replay.createVideoWith image beginning «end» = some videos ∧
    replay.Rendered image (replay.filterFrames beginning «end») videos

variable {image}

theorem seconds?_ofSeconds_one (n : Int) : (CMTime.ofSeconds n 1).seconds? = some (n : ℚ) := by
  unfold CMTime.ofSeconds CMTime.seconds?
  simp

/-- The times of a list of frames are those of their places. -/
theorem mem_timed {videoFrames : List SentryReplayFrame} {frameCount : Nat}
    {used : SentryReplayFrame × CMTime} (h : used ∈ replay.timed image videoFrames frameCount) :
    ∃ n : Nat, frameCount ≤ n ∧
      used.2 = .ofSeconds n ((1 : Int).tdiv replay.frameRate) := by
  induction videoFrames generalizing frameCount with
  | nil => cases h
  | cons frame rest ih =>
    rw [timed] at h
    split at h
    · rcases List.mem_cons.mp h with rfl | hrest
      · exact ⟨frameCount, Nat.le_refl _, rfl⟩
      · obtain ⟨n, hn, heq⟩ := ih hrest
        exact ⟨n, by omega, heq⟩
    · obtain ⟨n, hn, heq⟩ := ih h
      exact ⟨n, by omega, heq⟩

theorem timed_eq_nil_iff {videoFrames : List SentryReplayFrame} {frameCount : Nat} :
    replay.timed image videoFrames frameCount = [] ↔
      ∀ frame ∈ videoFrames, image frame.imagePath = none := by
  have hfilter := replay.map_fst_timed image videoFrames frameCount
  have hnil : replay.timed image videoFrames frameCount = [] ↔
      videoFrames.filter (readable image) = [] := by
    rw [← hfilter, List.map_eq_nil_iff]
  rw [hnil, List.filter_eq_nil_iff]
  unfold readable
  simp only [Bool.not_eq_true, Option.isSome_eq_false_iff, Option.isNone_iff_eq_none]

section FrameRate

variable (hrate : replay.frameRate = 1)
include hrate

theorem timed_pairwise (videoFrames : List SentryReplayFrame) (frameCount : Nat) :
    (replay.timed image videoFrames frameCount).Pairwise fun used used' =>
      used.2.value < used'.2.value := by
  induction videoFrames generalizing frameCount with
  | nil => exact .nil
  | cons frame rest ih =>
    rw [timed]
    split
    · refine List.pairwise_cons.mpr ⟨fun used hused => ?_, ih _⟩
      obtain ⟨n, hn, heq⟩ := replay.mem_timed hused
      rw [heq, hrate]
      show (frameCount : Int) * 1 < (n : Int) * 1
      omega
    · exact ih _

/-- The first frames can be read and no other. -/
theorem timed_of_take {videoFrames : List SentryReplayFrame}
    (hread : ∀ frame ∈ videoFrames, readable image frame = true) {frameCount k : Nat}
    {used : SentryReplayFrame × CMTime}
    (h : (replay.timed image videoFrames frameCount)[k]? = some used) :
    used.2.seconds? = some ((frameCount + k : Nat) : ℚ) := by
  induction videoFrames generalizing frameCount k with
  | nil => cases h
  | cons frame rest ih =>
    obtain ⟨hframe, hrest⟩ := List.forall_mem_cons.mp hread
    rw [timed, if_pos hframe] at h
    cases k with
    | zero =>
      cases h
      rw [hrate]
      exact seconds?_ofSeconds_one _
    | succ k =>
      rw [List.getElem?_cons_succ] at h
      rw [ih hrest h, show frameCount + 1 + k = frameCount + (k + 1) by omega]

theorem take_of_timed {videoFrames : List SentryReplayFrame} {frameCount : Nat}
    (h : ∀ (k : Nat) used, (replay.timed image videoFrames frameCount)[k]? = some used →
      used.2.seconds? = some ((frameCount + k : Nat) : ℚ)) :
    ∃ n, (∀ frame ∈ videoFrames.take n, readable image frame = true) ∧
      ∀ frame ∈ videoFrames.drop n, image frame.imagePath = none := by
  induction videoFrames generalizing frameCount with
  | nil => exact ⟨0, List.forall_mem_nil _, List.forall_mem_nil _⟩
  | cons frame rest ih =>
    by_cases hread : readable image frame = true
    · rw [timed, if_pos hread] at h
      obtain ⟨n, htake, hdrop⟩ := ih fun k used hused => by
        rw [h (k + 1) used hused, show frameCount + (k + 1) = frameCount + 1 + k by omega]
      exact ⟨n + 1, List.forall_mem_cons.mpr ⟨hread, htake⟩, hdrop⟩
    · refine ⟨0, List.forall_mem_nil _, ?_⟩
      rw [timed, if_neg hread] at h
      have hnil : replay.timed image rest (frameCount + 1) = [] := by
        by_contra hne
        obtain ⟨used, others, heq⟩ := List.exists_cons_of_ne_nil hne
        have hmem : used ∈ replay.timed image rest (frameCount + 1) := by
          rw [heq]
          exact List.mem_cons_self
        obtain ⟨n, hn, htime⟩ := replay.mem_timed hmem
        have hseconds := h 0 used (by rw [heq]; rfl)
        rw [htime, hrate] at hseconds
        rw [show (1 : Int).tdiv 1 = 1 from rfl, seconds?_ofSeconds_one, Option.some_inj] at hseconds
        have hsame : (n : ℚ) = (frameCount : ℚ) := by exact_mod_cast hseconds
        have := Nat.cast_inj.mp hsame
        omega
      refine List.forall_mem_cons.mpr ⟨?_, replay.timed_eq_nil_iff.mp hnil⟩
      unfold readable at hread
      rwa [Bool.not_eq_true, Option.isSome_eq_false_iff, Option.isNone_iff_eq_none] at hread

end FrameRate

/-- A frame can only be presented if the rate is 1. -/
theorem frameRate_eq_one {time : CMTime} {n : Nat} {seconds : ℚ}
    (htime : time = .ofSeconds n ((1 : Int).tdiv replay.frameRate))
    (h : time.seconds? = some seconds) : replay.frameRate = 1 := by
  rw [htime] at h
  unfold CMTime.seconds? at h
  split at h
  · rename_i hpositive
    have hscale : 0 < (1 : Int).tdiv replay.frameRate := hpositive
    by_contra hne
    have hzero : (1 : Int).tdiv replay.frameRate ≤ 0 := by
      rcases Int.lt_trichotomy replay.frameRate 0 with hneg | hzero | hpos
      · exact Int.tdiv_nonpos_of_nonneg_of_nonpos (by omega) (by omega)
      · rw [hzero]
        decide
      · rw [Int.tdiv_eq_ediv_of_nonneg (by omega), Int.ediv_eq_zero_of_lt (by omega) (by omega)]
    omega
  · cases h

/-- The first frame of each video is presented at its start, so there is one video only. -/
theorem single_video {video : Video} {others : List Video} {videoFrames : List SentryReplayFrame}
    (hframes : (video :: others).flatMap Video.frames = replay.timed image videoFrames 0)
    (htimes : ∀ v ∈ video :: others, ∀ (k : Nat) used, v.frames[k]? = some used →
      used.2.seconds? = some ((k : ℚ) / replay.frameRate))
    (hne : video.frames ≠ []) (hothers : ∀ v ∈ others, v.frames ≠ []) :
    replay.frameRate = 1 ∧ video :: others = [video] := by
  have hfirst {v : Video} (hv : v ∈ video :: others) (hv' : v.frames ≠ []) :
      ∃ used ∈ v.frames, replay.frameRate = 1 ∧ used.2.value = 0 := by
    obtain ⟨used, rest, heq⟩ := List.exists_cons_of_ne_nil hv'
    have hused : used ∈ v.frames := by
      rw [heq]
      exact List.mem_cons_self
    have hmem : used ∈ replay.timed image videoFrames 0 := by
      rw [← hframes]
      exact List.mem_flatMap.mpr ⟨v, hv, hused⟩
    obtain ⟨n, -, htime⟩ := replay.mem_timed hmem
    have hseconds := htimes v hv 0 used (by rw [heq]; rfl)
    have hone := replay.frameRate_eq_one htime hseconds
    refine ⟨used, hused, hone, ?_⟩
    rw [hone] at htime
    rw [htime, show (1 : Int).tdiv 1 = 1 from rfl, seconds?_ofSeconds_one, Option.some_inj,
      Nat.cast_zero, zero_div] at hseconds
    rw [htime]
    have hzero : (n : Int) = 0 := by exact_mod_cast hseconds
    show (n : Int) * 1 = 0
    omega
  obtain ⟨used, hused, hone, hvalue⟩ := hfirst List.mem_cons_self hne
  refine ⟨hone, ?_⟩
  rcases others with _ | ⟨next, rest⟩
  · rfl
  · obtain ⟨used', hused', -, hvalue'⟩ :=
      hfirst (List.mem_cons_of_mem _ List.mem_cons_self) (hothers next List.mem_cons_self)
    have hpairwise := @timed_pairwise replay image hone videoFrames 0
    rw [← hframes, List.flatMap_cons, List.pairwise_append] at hpairwise
    have hless := hpairwise.2.2 used hused used'
      (List.mem_flatMap.mpr ⟨next, List.mem_cons_self, hused'⟩)
    rw [hvalue, hvalue'] at hless
    exact absurd hless (lt_irrefl 0)

theorem length_splitBy_le_one {size : CGSize} {videoFrames : List SentryReplayFrame}
    (h : ∀ frame ∈ videoFrames, image frame.imagePath = some size) :
    (videoFrames.splitBy (sameSize image)).length ≤ 1 := by
  by_cases hne : videoFrames = []
  · rw [hne]
    exact Nat.zero_le 1
  · rw [List.splitBy_of_isChain hne (isChain_sameSize h)]
    exact Nat.le_refl 1

/-- No frame can be read; or the rate is one frame per second, and the frames that can be read
are the first ones and have the same size. -/
theorem rendersRight_iff (beginning «end» : ℚ) :
    replay.RendersRight image beginning «end» ↔
      (∀ frame ∈ replay.filterFrames beginning «end», image frame.imagePath = none) ∨
        replay.frameRate = 1 ∧ ∃ n size,
          (∀ frame ∈ (replay.filterFrames beginning «end»).take n,
            image frame.imagePath = some size) ∧
          ∀ frame ∈ (replay.filterFrames beginning «end»).drop n,
            image frame.imagePath = none := by
  unfold RendersRight createVideoWith
  generalize replay.filterFrames beginning «end» = videoFrames
  constructor
  · rintro ⟨videos, hvideos, hruns, htimes⟩
    by_cases hnone : ∀ frame ∈ videoFrames, image frame.imagePath = none
    · exact Or.inl hnone
    · right
      have hrate : replay.frameRate ≠ 0 := by
        intro hzero
        push Not at hnone
        obtain ⟨frame, hframe, hread⟩ := hnone
        rw [replay.createVideos_of_trap hzero
          ⟨frame, hframe, Option.isSome_iff_ne_none.mpr hread⟩] at hvideos
        cases hvideos
      obtain ⟨videos', hvideos', hframes, -, hsizes⟩ :=
        @createVideos_eq replay image hrate videoFrames 0
      rw [hvideos, Option.some_inj] at hvideos'
      subst hvideos'
      rcases videos with _ | ⟨video, others⟩
      · exact absurd (replay.timed_eq_nil_iff.mp hframes.symm) hnone
      · obtain ⟨hvideo, hothers⟩ := List.forall_mem_cons.mp hsizes
        obtain ⟨hne, size, hsize⟩ := hvideo
        obtain ⟨hone, hsingle⟩ := replay.single_video hframes htimes hne fun w hw => (hothers w hw).1
        refine ⟨hone, ?_⟩
        rw [hsingle, List.flatMap_singleton] at hframes
        obtain ⟨n, htake, hdrop⟩ := replay.take_of_timed hone fun k used hused => by
          rw [← hframes] at hused
          rw [htimes video List.mem_cons_self k used hused, hone, Int.cast_one, div_one,
            Nat.zero_add]
        refine ⟨n, size, fun frame hframe => ?_, hdrop⟩
        have hread := htake frame hframe
        have hmem : frame ∈ videoFrames.filter (readable image) :=
          List.mem_filter.mpr ⟨List.mem_of_mem_take hframe, hread⟩
        rw [← replay.map_fst_timed image videoFrames 0, ← hframes] at hmem
        obtain ⟨used, hused, rfl⟩ := List.mem_map.mp hmem
        exact hsize used hused
  · rintro (hnone | ⟨hone, n, size, htake, hdrop⟩)
    · refine ⟨[], replay.createVideos_of_all_unreadable hnone 0, ?_, List.forall_mem_nil _⟩
      rw [← replay.map_fst_timed image videoFrames 0, replay.timed_eq_nil_iff.mpr hnone]
      rfl
    · have hrate : replay.frameRate ≠ 0 := by
        rw [hone]
        decide
      obtain ⟨videos, hvideos, hframes, hruns, -⟩ :=
        @createVideos_eq replay image hrate videoFrames 0
      refine ⟨videos, hvideos, hruns, ?_⟩
      have hread : ∀ frame ∈ videoFrames.take n, readable image frame = true := by
        intro frame hframe
        rw [readable, htake frame hframe]
        rfl
      have htimed : replay.timed image videoFrames 0 =
          replay.timed image (videoFrames.take n) 0 := by
        conv_lhs => rw [← List.take_append_drop n videoFrames]
        rw [timed_append, replay.timed_eq_nil_iff.mpr hdrop, List.append_nil]
      have hsingle : videos.length ≤ 1 := by
        have hlength := congrArg List.length hruns
        rw [List.length_map] at hlength
        rw [hlength, ← replay.map_fst_timed image videoFrames 0, htimed, map_fst_timed]
        exact length_splitBy_le_one fun frame hframe => htake frame (List.mem_of_mem_filter hframe)
      intro video hvideo k used hused
      obtain ⟨other, rfl⟩ : ∃ other, videos = [other] := by
        rcases videos with _ | ⟨other, _ | ⟨another, rest⟩⟩
        · cases hvideo
        · exact ⟨other, rfl⟩
        · simp at hsingle
      obtain rfl := List.mem_singleton.mp hvideo
      rw [List.flatMap_singleton, htimed] at hframes
      rw [hframes] at hused
      rw [replay.timed_of_take hone hread hused, hone, Int.cast_one, div_one, Nat.zero_add]

/-- Two frames with images of different sizes. -/
def twoSizes : SentryOnDemandReplay where
  frames := [⟨"a.png", 0, none⟩, ⟨"b.png", 1, none⟩]
  videoScale := 1
  frameRate := 1

def twoImages (path : String) : Option CGSize := some ⟨if path = "a.png" then 20 else 30, 20⟩

/-- The first frame of the second video is presented a second after its start. -/
theorem twoSizes_not_rendersRight : ¬twoSizes.RendersRight twoImages 0 5 := by
  have hfilter : twoSizes.filterFrames 0 5 = twoSizes.frames := by decide
  unfold RendersRight createVideoWith
  rw [hfilter]
  rintro ⟨videos, hvideos, hruns, htimes⟩
  obtain ⟨videos', hvideos', hframes, -, hsizes⟩ :=
    @createVideos_eq twoSizes twoImages (by decide) twoSizes.frames 0
  rw [hvideos, Option.some_inj] at hvideos'
  subst hvideos'
  have hcount : videos.length = 2 := by
    rw [← List.length_map (f := fun video : Video => video.frames.map Prod.fst), hruns]
    decide
  rcases videos with _ | ⟨video, others⟩
  · cases hcount
  · obtain ⟨hvideo, hothers⟩ := List.forall_mem_cons.mp hsizes
    have hsingle := (twoSizes.single_video hframes htimes hvideo.1 fun w hw => (hothers w hw).1).2
    rw [hsingle] at hcount
    cases hcount

end SentryOnDemandReplay

end SentryCocoa.ReplayVideos
