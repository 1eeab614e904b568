import SentryCocoa.SessionReplay
import SentryCocoa.Library.Timeline

/-! The frames of the segments. The end of a video is computed from the number of its frames. Each
frame is in one segment as long as the frames of a video are older than that end and all later
frames are not. -/
namespace SentryCocoa.SessionReplay
open SentryCocoa.Library.Machine SentryCocoa.Library.Timeline

def Creation.videos : Creation → List SentryVideoInfo
  | .announcing videos => videos
  | _ => []

def WorkBlock.isFilter : WorkBlock → Bool
  | .filterFrames _ _ => true
  | _ => false

def WorkBlock.isAddFrame : WorkBlock → Bool
  | .addFrame _ _ => true
  | _ => false

def WorkBlock.releaseDate : WorkBlock → Option ℚ
  | .releaseFramesUntil date => some date
  | _ => none

namespace SentrySessionReplay

/-- The videos of the segments, and those that are about to be announced. -/
def rendered (s : SentrySessionReplay) : List SentryVideoInfo :=
  s.segments.map Segment.video ++ s.creation.videos

structure Correct (s : SentrySessionReplay) : Prop where
  ids : s.segments.map Segment.segmentId = List.range s.segments.length
  disjoint : s.segments.Pairwise fun segment later => segment.video.end ≤ later.video.start
  once : ∀ last ∈ s.segments.getLast?, ∀ frame ∈ s.captured, frame.time < last.video.end →
    s.segments.countP (fun segment => frame ∈ segment.video.usedFrames) = 1

/-! The condition. -/

/-- A frame in the cache is older than the end of a video exactly if it is in the video or in one
before it. -/
def Fits (cached : List SentryReplayFrame) :
    List SentryReplayFrame → List SentryVideoInfo → Prop
  | _, [] => True
  | earlier, video :: videos =>
    (∀ frame ∈ cached, frame.time < video.end ↔ frame ∈ earlier ++ video.usedFrames) ∧
      Fits cached (earlier ++ video.usedFrames) videos

instance decidableFits (cached : List SentryReplayFrame) :
    ∀ earlier videos, Decidable (Fits cached earlier videos)
  | _, [] => .isTrue trivial
  | earlier, video :: videos =>
    have : Decidable (Fits cached (earlier ++ video.usedFrames) videos) :=
      decidableFits cached _ videos
    inferInstanceAs (Decidable (_ ∧ _))

/-- A new frame finds room in the cache and is not older than the end of a video that has been
rendered; the frames of new videos fit. -/
def BlockInTime (s : SentrySessionReplay) (date : ℚ) : List WorkBlock → Prop
  | .addFrame _ _ :: _ => s.replayMaker.frames.length < s.replayMaker.cacheMaxSize ∧
      ∀ video ∈ s.rendered, video.end ≤ date
  | .filterFrames beginning «end» :: _ => Fits s.replayMaker.frames []
      (s.replayMaker.createVideoWith (s.replayMaker.filterFrames beginning «end»))
  | _ => True

instance (s : SentrySessionReplay) (date : ℚ) : ∀ blocks, Decidable (s.BlockInTime date blocks)
  | .addFrame _ _ :: _ => inferInstanceAs (Decidable (_ ∧ _))
  | .filterFrames _ _ :: _ => decidableFits _ _ _
  | .releaseFramesUntil _ :: _ => .isTrue trivial
  | [] => .isTrue trivial

def InTime (s : SentrySessionReplay) : ℚ × Call → Prop
  | (date, .work) => s.BlockInTime date s.workingQueue
  | _ => True

instance (s : SentrySessionReplay) : ∀ input, Decidable (s.InTime input)
  | (_, .work) => inferInstanceAs (Decidable (s.BlockInTime _ _))
  | (_, .newFrame) | (_, .newImage _ _) | (_, .pause) | (_, .resume) | (_, .pauseSessionMode)
  | (_, .createVideo) | (_, .newSegmentAvailable) => .isTrue trivial

/-! Videos. -/

theorem finishVideo_spec {maker : SentryOnDemandReplay} {usedFrames : List SentryReplayFrame}
    {video : SentryVideoInfo} (h : maker.finishVideo usedFrames = some video) :
    video.usedFrames = usedFrames ∧ ∃ frame ∈ usedFrames, frame.time = video.start := by
  obtain ⟨start, hstart, rfl⟩ := Option.map_eq_some_iff.mp h
  obtain ⟨frame, hframe, htime⟩ := List.mem_map.mp (List.min?_mem hstart)
  exact ⟨rfl, frame, hframe, htime⟩

theorem finishVideo_isSome (maker : SentryOnDemandReplay) {usedFrames : List SentryReplayFrame}
    (h : usedFrames ≠ []) : ∃ video, maker.finishVideo usedFrames = some video := by
  cases usedFrames with
  | nil => exact absurd rfl h
  | cons frame rest => exact ⟨_, rfl⟩

theorem finishVideos_usedFrames (maker : SentryOnDemandReplay)
    {groups : List (List SentryReplayFrame)} (h : [] ∉ groups) :
    (groups.filterMap maker.finishVideo).flatMap SentryVideoInfo.usedFrames = groups.flatten := by
  induction groups with
  | nil => rfl
  | cons group rest ih =>
    have hgroup : group ≠ [] := fun hnil => h (hnil ▸ List.mem_cons_self)
    obtain ⟨video, hvideo⟩ := finishVideo_isSome maker hgroup
    rw [List.filterMap_cons_some hvideo, List.flatMap_cons, (finishVideo_spec hvideo).1,
      List.flatten_cons, ih fun hnil => h (List.mem_cons_of_mem _ hnil)]

/-- Every frame is in one of the videos. -/
theorem createVideoWith_usedFrames (maker : SentryOnDemandReplay)
    (videoFrames : List SentryReplayFrame) :
    (maker.createVideoWith videoFrames).flatMap SentryVideoInfo.usedFrames = videoFrames := by
  rw [SentryOnDemandReplay.createVideoWith,
    finishVideos_usedFrames maker (List.nil_notMem_splitBy _ _), List.flatten_splitBy]

theorem createVideoWith_start {maker : SentryOnDemandReplay}
    {videoFrames : List SentryReplayFrame} {video : SentryVideoInfo}
    (h : video ∈ maker.createVideoWith videoFrames) :
    ∃ frame ∈ video.usedFrames, frame.time = video.start := by
  obtain ⟨group, -, hgroup⟩ := List.mem_filterMap.mp h
  obtain ⟨hused, hstart⟩ := finishVideo_spec hgroup
  rw [hused]
  exact hstart

/-! The invariant. -/

/-- Each frame of a video is older than its end; the frames of the later videos and the frames
that are kept are not. -/
inductive Covered : List SentryVideoInfo → List SentryReplayFrame → List SentryReplayFrame → Prop
  | nil (kept : List SentryReplayFrame) : Covered [] kept kept
  | cons (video : SentryVideoInfo) (videos : List SentryVideoInfo)
      (captured kept : List SentryReplayFrame)
      (own : ∀ frame ∈ video.usedFrames, frame.time < video.end)
      (later : ∀ frame ∈ captured, video.end ≤ frame.time) (covered : Covered videos captured kept) :
      Covered (video :: videos) (video.usedFrames ++ captured) kept

theorem Covered.append {videos : List SentryVideoInfo} {captured kept : List SentryReplayFrame}
    (h : Covered videos captured kept) {more : List SentryVideoInfo}
    {rest : List SentryReplayFrame} (hmore : Covered more kept rest) :
    Covered (videos ++ more) captured rest := by
  induction h with
  | nil kept => exact hmore
  | cons video videos captured kept own later covered ih =>
    exact .cons video _ captured rest own later (ih hmore)

theorem Covered.concat {videos : List SentryVideoInfo} {captured kept : List SentryReplayFrame}
    (h : Covered videos captured kept) {frame : SentryReplayFrame}
    (hframe : ∀ video ∈ videos, video.end ≤ frame.time) :
    Covered videos (captured ++ [frame]) (kept ++ [frame]) := by
  induction h with
  | nil kept => exact .nil _
  | cons video videos captured kept own later covered ih =>
    rw [List.forall_mem_cons] at hframe
    rw [List.append_assoc]
    refine .cons video videos _ _ own ?_ (ih hframe.2)
    rw [List.forall_mem_append, List.forall_mem_singleton]
    exact ⟨later, hframe.1⟩

theorem Covered.eq {videos : List SentryVideoInfo} {captured kept : List SentryReplayFrame}
    (h : Covered videos captured kept) :
    captured = videos.flatMap SentryVideoInfo.usedFrames ++ kept := by
  induction h with
  | nil kept => rfl
  | cons video videos captured kept own later covered ih =>
    rw [List.flatMap_cons, List.append_assoc, ← ih]

/-- What is kept are the frames that no end has passed. -/
theorem Covered.filter {videos : List SentryVideoInfo} {captured kept : List SentryReplayFrame}
    (h : Covered videos captured kept) :
    captured.filter (fun frame => ∀ video ∈ videos, video.end ≤ frame.time) = kept := by
  induction h with
  | nil kept => exact List.filter_eq_self.mpr fun _ _ => by simp
  | cons video videos captured kept own later covered ih =>
    rw [List.filter_append, List.filter_eq_nil_iff.mpr, List.nil_append]
    · refine Eq.trans (List.filter_congr fun frame hframe => ?_) ih
      simp [later frame hframe]
    · intro frame hframe hall
      have hend := of_decide_eq_true hall video List.mem_cons_self
      exact absurd hend (not_le.mpr (own frame hframe))

/-- A frame that the end of a video has passed is in this video or in one before it. -/
theorem Covered.mem {before after : List SentryVideoInfo} {video : SentryVideoInfo}
    {captured kept : List SentryReplayFrame} (h : Covered (before ++ video :: after) captured kept)
    {frame : SentryReplayFrame} (hframe : frame ∈ captured) (hend : frame.time < video.end) :
    frame ∈ (before ++ [video]).flatMap SentryVideoInfo.usedFrames := by
  induction before generalizing captured with
  | nil =>
    cases h with
    | cons _ _ captured _ own later covered =>
      rcases List.mem_append.mp hframe with hused | hlater
      · simpa using hused
      · exact absurd (later frame hlater) (not_le.mpr hend)
  | cons first before ih =>
    cases h with
    | cons _ _ captured _ own later covered =>
      rw [List.cons_append, List.flatMap_cons, List.mem_append]
      rcases List.mem_append.mp hframe with hused | hlater
      · exact Or.inl hused
      · exact Or.inr (ih covered hlater)

theorem Covered.pairwise {videos : List SentryVideoInfo} {captured kept : List SentryReplayFrame}
    (h : Covered videos captured kept)
    (starts : ∀ video ∈ videos, ∃ frame ∈ video.usedFrames, frame.time = video.start) :
    videos.Pairwise fun video later => video.end ≤ later.start := by
  induction h with
  | nil kept => exact .nil
  | cons video videos captured kept own later covered ih =>
    rw [List.forall_mem_cons] at starts
    refine .cons (fun next hnext => ?_) (ih starts.2)
    obtain ⟨frame, hframe, hstart⟩ := starts.2 next hnext
    rw [← hstart]
    apply later
    rw [covered.eq]
    exact List.mem_append_left _ (List.mem_flatMap.mpr ⟨next, hnext, hframe⟩)

/-- New videos that fit cover what is left in the cache. -/
theorem Covered.of_fits {cached : List SentryReplayFrame} {videos : List SentryVideoInfo}
    {earlier left : List SentryReplayFrame} (fits : Fits cached earlier videos)
    (hleft : ∀ frame ∈ left, frame ∈ cached ∧ frame ∉ earlier)
    (ascending : Ascending SentryReplayFrame.time left) (p : SentryReplayFrame → Bool)
    (used : videos.flatMap SentryVideoInfo.usedFrames = left.filter p) :
    ∃ kept, Covered videos left kept := by
  induction videos generalizing earlier left with
  | nil => exact ⟨left, .nil left⟩
  | cons video videos ih =>
    have hfirst : ∀ frame ∈ left, frame.time < video.end ↔ frame ∈ video.usedFrames := by
      intro frame hframe
      obtain ⟨hcached, hearlier⟩ := hleft frame hframe
      simpa [hearlier] using fits.1 frame hcached
    rw [List.flatMap_cons] at used
    have hsublist : video.usedFrames.Sublist left :=
      (used ▸ List.sublist_append_left _ _ : video.usedFrames.Sublist (left.filter p)).trans
        List.filter_sublist
    have hbefore : left.filter (fun frame => frame.time < video.end) = video.usedFrames := by
      have hsame : (left.filter fun frame => frame.time < video.end).Perm video.usedFrames := by
        rw [List.perm_ext_iff_of_nodup (ascending.nodup.filter _) (ascending.nodup.sublist hsublist)]
        intro frame
        rw [List.mem_filter, decide_eq_true_eq]
        constructor
        · intro hframe
          exact (hfirst frame hframe.1).mp hframe.2
        · intro hframe
          exact ⟨hsublist.subset hframe, (hfirst frame (hsublist.subset hframe)).mpr hframe⟩
      have hown : video.usedFrames.filter (fun frame => frame.time < video.end) =
          video.usedFrames := by
        apply List.filter_eq_self.mpr
        intro frame hframe
        exact decide_eq_true ((hfirst frame (hsublist.subset hframe)).mpr hframe)
      have hfilter := hsublist.filter fun frame => frame.time < video.end
      rw [hown] at hfilter
      exact (hfilter.eq_of_length hsame.length_eq.symm).symm
    have hsplit := ascending.split video.end
    rw [hbefore] at hsplit
    have hall : video.usedFrames.filter p = video.usedFrames := by
      apply List.filter_eq_self.mpr
      intro frame hframe
      have hmem : frame ∈ left.filter p := used ▸ List.mem_append_left _ hframe
      exact (List.mem_filter.mp hmem).2
    have hrest : videos.flatMap SentryVideoInfo.usedFrames =
        (left.filter fun frame => video.end ≤ frame.time).filter p := by
      rw [hsplit, List.filter_append, hall] at used
      exact List.append_cancel_left used
    have hlater : ∀ frame ∈ left.filter (fun frame => video.end ≤ frame.time),
        frame ∈ cached ∧ frame ∉ earlier ++ video.usedFrames := by
      intro frame hframe
      obtain ⟨hmem, hlate⟩ := List.mem_filter.mp hframe
      obtain ⟨hcached, hearlier⟩ := hleft frame hmem
      refine ⟨hcached, fun hused => ?_⟩
      rcases List.mem_append.mp hused with hused | hused
      · exact hearlier hused
      · exact absurd ((hfirst frame hmem).mpr hused) (not_lt.mpr (of_decide_eq_true hlate))
    obtain ⟨kept, hkept⟩ := ih fits.2 hlater (ascending.sublist List.filter_sublist) hrest
    refine ⟨kept, ?_⟩
    rw [hsplit]
    refine .cons video videos _ kept (fun frame hframe => ?_) (fun frame hframe => ?_) hkept
    · exact (hfirst frame (hsublist.subset hframe)).mpr hframe
    · exact of_decide_eq_true (List.mem_filter.mp hframe).2

/-! The queue of the video maker. -/

/-- The request for frames is behind all releases. -/
def Queued : Creation → List WorkBlock → Prop
  | .filtering, queue => ∃ before beginning «end» after,
      queue = before ++ .filterFrames beginning «end» :: after ∧
        (∀ block ∈ before, block.isFilter = false) ∧ ∀ block ∈ after, block.isAddFrame = true
  | _, queue => ∀ block ∈ queue, block.isFilter = false

theorem Queued.tail {creation : Creation} {block : WorkBlock} {queue : List WorkBlock}
    (h : Queued creation (block :: queue)) (hblock : block.isFilter = false) :
    Queued creation queue := by
  cases creation with
  | filtering =>
    obtain ⟨before, beginning, «end», after, heq, hbefore, hafter⟩ := h
    cases before with
    | nil =>
      cases heq
      cases hblock
    | cons first before =>
      cases heq
      exact ⟨before, beginning, «end», after, rfl, (List.forall_mem_cons.mp hbefore).2, hafter⟩
  | idle => exact (List.forall_mem_cons.mp h).2
  | announcing videos => exact (List.forall_mem_cons.mp h).2

theorem Queued.addFrame {creation : Creation} {queue : List WorkBlock} (h : Queued creation queue)
    (imageSize : Nat × Nat) (screen : Option String) :
    Queued creation (queue ++ [.addFrame imageSize screen]) := by
  cases creation with
  | filtering =>
    obtain ⟨before, beginning, «end», after, rfl, hbefore, hafter⟩ := h
    refine ⟨before, beginning, «end», after ++ [.addFrame imageSize screen], by simp, hbefore, ?_⟩
    rw [List.forall_mem_append, List.forall_mem_singleton]
    exact ⟨hafter, rfl⟩
  | idle => exact List.forall_mem_append.mpr ⟨h, List.forall_mem_singleton.mpr rfl⟩
  | announcing videos => exact List.forall_mem_append.mpr ⟨h, List.forall_mem_singleton.mpr rfl⟩

theorem Queued.filterFrames {creation : Creation} {beginning «end» : ℚ} {queue : List WorkBlock}
    (h : Queued creation (.filterFrames beginning «end» :: queue)) :
    creation = .filtering ∧ ∀ block ∈ queue, block.isAddFrame = true := by
  cases creation with
  | filtering =>
    obtain ⟨before, _, _, after, heq, hbefore, hafter⟩ := h
    cases before with
    | nil =>
      cases heq
      exact ⟨rfl, hafter⟩
    | cons first before =>
      cases heq
      cases hbefore _ List.mem_cons_self
  | idle => cases h _ List.mem_cons_self
  | announcing videos => cases h _ List.mem_cons_self

/-! The invariant. -/

/-- The cache holds the frames that no release has reached. The ends of the videos are released
one after the other: some are already, others wait in the queue or with their videos. -/
structure Inv (s : SentrySessionReplay) : Prop where
  ids : s.segments.map Segment.segmentId = List.range s.segments.length
  currentSegmentId : s.currentSegmentId = s.segments.length
  ascending : Ascending SentryReplayFrame.time s.captured
  covered : ∃ kept, Covered s.rendered s.captured kept
  starts : ∀ video ∈ s.rendered, ∃ frame ∈ video.usedFrames, frame.time = video.start
  queued : Queued s.creation s.workingQueue
  cache : ∃ released, s.rendered.map SentryVideoInfo.end =
      released ++ s.workingQueue.filterMap WorkBlock.releaseDate ++
        s.creation.videos.map SentryVideoInfo.end ∧
    s.replayMaker.frames = s.captured.filter fun frame => ∀ date ∈ released, date ≤ frame.time

theorem Inv.correct {s : SentrySessionReplay} (inv : s.Inv) : s.Correct where
  ids := inv.ids
  disjoint := by
    obtain ⟨kept, hcovered⟩ := inv.covered
    have hpairwise := hcovered.pairwise inv.starts
    exact List.pairwise_map.mp (hpairwise.sublist (List.sublist_append_left _ _))
  once := by
    intro last hlast frame hframe hend
    obtain ⟨kept, hcovered⟩ := inv.covered
    obtain ⟨segments, hsegments⟩ := List.getLast?_eq_some_iff.mp hlast
    have hvideos : s.rendered =
        segments.map Segment.video ++ last.video :: s.creation.videos := by
      rw [rendered, hsegments]
      simp
    have hnodup := inv.ascending.nodup
    have hall := hcovered.eq
    rw [hvideos] at hcovered
    have hmem := hcovered.mem hframe hend
    have hparts : (segments.map Segment.video ++ [last.video]).flatMap SentryVideoInfo.usedFrames =
        s.segments.flatMap fun segment => segment.video.usedFrames := by
      rw [hsegments]
      simp [List.flatMap_map]
    rw [hparts] at hmem
    apply countP_mem_eq_one _ hmem
    rw [hall, rendered, List.flatMap_append, List.append_assoc, List.flatMap_map] at hnodup
    exact (List.nodup_append.mp hnodup).1

theorem Inv.start (frameRate makerFrameRate cacheMaxSize : Nat) (date : ℚ) :
    (start frameRate makerFrameRate cacheMaxSize date).Inv where
  ids := rfl
  currentSegmentId := rfl
  ascending := .nil
  covered := ⟨[], .nil []⟩
  starts := fun _ hvideo => nomatch hvideo
  queued := fun _ hblock => nomatch hblock
  cache := ⟨[], rfl, rfl⟩

/-- The calls of the main thread leave frames, videos and segments alone. -/
structure SameFrames (s s' : SentrySessionReplay) : Prop where
  segments : s'.segments = s.segments
  currentSegmentId : s'.currentSegmentId = s.currentSegmentId
  captured : s'.captured = s.captured
  creation : s'.creation = s.creation
  workingQueue : s'.workingQueue = s.workingQueue
  replayMaker : s'.replayMaker = s.replayMaker

theorem SameFrames.inv {s s' : SentrySessionReplay} (same : SameFrames s s') (inv : s.Inv) :
    s'.Inv := by
  have hrendered : s'.rendered = s.rendered := by
    rw [rendered, same.segments, same.creation]
    rfl
  constructor
  · rw [same.segments]
    exact inv.ids
  · rw [same.segments, same.currentSegmentId]
    exact inv.currentSegmentId
  · rw [same.captured]
    exact inv.ascending
  · rw [hrendered, same.captured]
    exact inv.covered
  · rw [hrendered]
    exact inv.starts
  · rw [same.creation, same.workingQueue]
    exact inv.queued
  · rw [hrendered, same.creation, same.workingQueue, same.replayMaker, same.captured]
    exact inv.cache

theorem resume_sameFrames (s : SentrySessionReplay) : SameFrames s s.resume := by
  unfold resume
  split
  · exact ⟨rfl, rfl, rfl, rfl, rfl, rfl⟩
  · split
    · exact ⟨rfl, rfl, rfl, rfl, rfl, rfl⟩
    · exact ⟨rfl, rfl, rfl, rfl, rfl, rfl⟩

theorem takeScreenshot_sameFrames (s : SentrySessionReplay) : SameFrames s s.takeScreenshot := by
  unfold takeScreenshot
  split
  · exact ⟨rfl, rfl, rfl, rfl, rfl, rfl⟩
  · exact ⟨rfl, rfl, rfl, rfl, rfl, rfl⟩

theorem newFrame_sameFrames (s : SentrySessionReplay) : SameFrames s s.newFrame := by
  have hscreenshot := s.takeScreenshot_sameFrames
  unfold newFrame
  split
  · exact ⟨rfl, rfl, rfl, rfl, rfl, rfl⟩
  · split
    · exact ⟨rfl, rfl, rfl, rfl, rfl, rfl⟩
    · split
      · dsimp only
        split
        · exact ⟨hscreenshot.1, hscreenshot.2, hscreenshot.3, hscreenshot.4, hscreenshot.5,
            hscreenshot.6⟩
        · split
          · exact ⟨hscreenshot.1, hscreenshot.2, hscreenshot.3, hscreenshot.4, hscreenshot.5,
              hscreenshot.6⟩
          · exact ⟨hscreenshot.1, hscreenshot.2, hscreenshot.3, hscreenshot.4, hscreenshot.5,
              hscreenshot.6⟩
      · exact ⟨rfl, rfl, rfl, rfl, rfl, rfl⟩

/-! Steps. -/

section Steps
variable {s s' : SentrySessionReplay}

theorem Inv.newImage (inv : s.Inv) (imageSize : Nat × Nat) (screen : Option String) :
    (s.newImage imageSize screen).Inv where
  ids := inv.ids
  currentSegmentId := inv.currentSegmentId
  ascending := inv.ascending
  covered := inv.covered
  starts := inv.starts
  queued := inv.queued.addFrame imageSize screen
  cache := by
    obtain ⟨released, hends, hframes⟩ := inv.cache
    refine ⟨released, ?_, hframes⟩
    change _ = released ++ (s.workingQueue ++ [WorkBlock.addFrame imageSize screen]).filterMap
      WorkBlock.releaseDate ++ _
    rw [List.filterMap_append]
    exact hends.trans (by simp [WorkBlock.releaseDate]; rfl)

theorem Inv.createVideo (inv : s.Inv) (h : s.createVideo = some s') : s'.Inv := by
  unfold SentrySessionReplay.createVideo at h
  split at h
  · rename_i startedAt captures hcreation hcaptures
    cases h
    have hrendered : s.rendered = s.segments.map Segment.video := by
      rw [rendered, hcreation]
      exact List.append_nil _
    have hqueued := inv.queued
    rw [hcreation] at hqueued
    obtain ⟨released, hends, hframes⟩ := inv.cache
    constructor
    · exact inv.ids
    · exact inv.currentSegmentId
    · exact inv.ascending
    · obtain ⟨kept, hcovered⟩ := inv.covered
      rw [hrendered] at hcovered
      exact ⟨kept, by rw [rendered]; simpa [Creation.videos] using hcovered⟩
    · have hstarts := inv.starts
      rw [hrendered] at hstarts
      rw [rendered]
      simpa [Creation.videos] using hstarts
    · exact ⟨s.workingQueue, startedAt, s.date, [], rfl, hqueued, fun _ hblock => nomatch hblock⟩
    · refine ⟨released, ?_, hframes⟩
      rw [hrendered, hcreation] at hends
      rw [rendered]
      simpa [Creation.videos, WorkBlock.releaseDate, List.filterMap_cons] using hends
  · cases h

/-- A frame is added behind all the ends. -/
theorem Inv.addFrame (inv : s.Inv) {imageSize : Nat × Nat} {screen : Option String}
    {workingQueue : List WorkBlock}
    (hqueue : s.workingQueue = .addFrame imageSize screen :: workingQueue)
    (hroom : s.replayMaker.frames.length < s.replayMaker.cacheMaxSize)
    (hlate : ∀ video ∈ s.rendered, video.end ≤ s.date)
    (hlast : ∀ frame ∈ s.captured, frame.time < s.date) :
    Inv { s with
      workingQueue := workingQueue
      replayMaker := s.replayMaker.addFrame ⟨s.date, imageSize, screen⟩
      captured := s.captured ++ [⟨s.date, imageSize, screen⟩] } := by
  have hqueued := inv.queued
  rw [hqueue] at hqueued
  obtain ⟨kept, hcovered⟩ := inv.covered
  obtain ⟨released, hends, hframes⟩ := inv.cache
  constructor
  · exact inv.ids
  · exact inv.currentSegmentId
  · exact inv.ascending.concat hlast
  · exact ⟨_, hcovered.concat hlate⟩
  · exact inv.starts
  · exact hqueued.tail rfl
  · refine ⟨released, ?_, ?_⟩
    · rw [hqueue] at hends
      exact hends
    · change (s.replayMaker.frames ++ [_]).drop _ = _
      rw [List.length_append, List.length_singleton, Nat.sub_eq_zero_of_le hroom, List.drop_zero,
        hframes, List.filter_append, List.filter_cons_of_pos, List.filter_nil]
      rw [decide_eq_true_eq]
      intro date hdate
      have hmem : date ∈ s.rendered.map SentryVideoInfo.end := by
        rw [hends, List.append_assoc]
        exact List.mem_append_left _ hdate
      obtain ⟨video, hvideo, rfl⟩ := List.mem_map.mp hmem
      exact hlate video hvideo

theorem Inv.releaseFramesUntil (inv : s.Inv) {date : ℚ} {workingQueue : List WorkBlock}
    (hqueue : s.workingQueue = .releaseFramesUntil date :: workingQueue) :
    Inv { s with
      workingQueue := workingQueue
      replayMaker := s.replayMaker.releaseFramesUntil date } := by
  have hqueued := inv.queued
  rw [hqueue] at hqueued
  obtain ⟨released, hends, hframes⟩ := inv.cache
  constructor
  · exact inv.ids
  · exact inv.currentSegmentId
  · exact inv.ascending
  · exact inv.covered
  · exact inv.starts
  · exact hqueued.tail rfl
  · refine ⟨released ++ [date], ?_, ?_⟩
    · rw [hqueue] at hends
      refine Eq.trans hends ?_
      rw [List.append_assoc released [date]]
      rfl
    · change s.replayMaker.frames.dropWhile _ = _
      have hascending : Ascending SentryReplayFrame.time s.replayMaker.frames :=
        hframes ▸ inv.ascending.sublist List.filter_sublist
      rw [hascending.dropWhile_eq, hframes, List.filter_filter]
      apply List.filter_congr
      intro frame _
      simp [or_imp, forall_and, and_comm]

/-- The videos are rendered from all that is kept. -/
theorem Inv.filterFrames (inv : s.Inv) {beginning «end» : ℚ} {workingQueue : List WorkBlock}
    (hqueue : s.workingQueue = .filterFrames beginning «end» :: workingQueue)
    (fits : Fits s.replayMaker.frames []
      (s.replayMaker.createVideoWith (s.replayMaker.filterFrames beginning «end»))) :
    Inv { s with
      workingQueue := workingQueue
      creation := .announcing
        (s.replayMaker.createVideoWith (s.replayMaker.filterFrames beginning «end»)) } := by
  have hqueued := inv.queued
  rw [hqueue] at hqueued
  obtain ⟨hcreation, hframesOnly⟩ := hqueued.filterFrames
  obtain ⟨kept, hcovered⟩ := inv.covered
  obtain ⟨released, hends, hframes⟩ := inv.cache
  have hnone : workingQueue.filterMap WorkBlock.releaseDate = [] := by
    apply List.filterMap_eq_nil_iff.mpr
    intro block hblock
    have hadd := hframesOnly block hblock
    cases block with
    | addFrame imageSize screen => rfl
    | releaseFramesUntil date => cases hadd
    | filterFrames beginning «end» => cases hadd
  have hsegments : s.rendered = s.segments.map Segment.video := by
    rw [rendered, hcreation]
    exact List.append_nil _
  have hreleased : released = s.rendered.map SentryVideoInfo.end := by
    rw [hends, hqueue, hcreation]
    simpa [WorkBlock.releaseDate, Creation.videos] using hnone
  have hcache : s.replayMaker.frames = kept := by
    rw [hframes, hreleased, ← hcovered.filter]
    apply List.filter_congr
    intro frame _
    simp
  have hascending : Ascending SentryReplayFrame.time s.replayMaker.frames :=
    hframes ▸ inv.ascending.sublist List.filter_sublist
  obtain ⟨rest, hnew⟩ := Covered.of_fits fits
    (fun frame hframe => ⟨hframe, List.not_mem_nil⟩) hascending _
    (createVideoWith_usedFrames s.replayMaker _)
  rw [hcache] at hnew
  rw [hsegments] at hcovered
  constructor
  · exact inv.ids
  · exact inv.currentSegmentId
  · exact inv.ascending
  · rw [← hcache] at hnew
    rw [← hcache] at hcovered
    exact ⟨rest, hcovered.append hnew⟩
  · intro video hvideo
    rcases List.mem_append.mp hvideo with hold | hfresh
    · exact inv.starts video (hsegments ▸ hold)
    · exact createVideoWith_start hfresh
  · intro block hblock
    have hadd := hframesOnly block hblock
    cases block with
    | addFrame imageSize screen => rfl
    | releaseFramesUntil date => cases hadd
    | filterFrames beginning «end» => cases hadd
  · refine ⟨released, ?_, hframes⟩
    rw [hreleased, hnone, List.append_nil, hsegments]
    exact List.map_append

theorem Inv.newSegmentAvailable (inv : s.Inv) (h : s.newSegmentAvailable = some s') : s'.Inv := by
  obtain ⟨released, hends, hframes⟩ := inv.cache
  have hqueued := inv.queued
  unfold SentrySessionReplay.newSegmentAvailable at h
  split at h
  · rename_i hcreation
    cases h
    have hrendered : rendered { s with creation := .idle } = s.rendered := by
      rw [rendered, rendered, hcreation]
      rfl
    rw [hcreation] at hqueued hends
    refine ⟨inv.ids, inv.currentSegmentId, inv.ascending, ?_, ?_, hqueued, released, ?_, hframes⟩
    · rw [hrendered]
      exact inv.covered
    · rw [hrendered]
      exact inv.starts
    · rw [hrendered]
      exact hends
  · rename_i videoInfo videos hcreation
    cases h
    have hrendered : (s.segments ++ [(⟨s.currentSegmentId, videoInfo⟩ : Segment)]).map
        Segment.video ++ videos = s.rendered := by
      rw [rendered, hcreation, List.map_append, List.append_assoc]
      rfl
    rw [hcreation] at hqueued hends
    refine ⟨?_, ?_, inv.ascending, ?_, ?_, ?_, released, ?_, hframes⟩
    · rw [List.map_append, inv.ids, List.length_append, List.length_singleton, List.range_succ,
        inv.currentSegmentId]
      rfl
    · rw [List.length_append, inv.currentSegmentId]
      rfl
    · change ∃ kept, Covered (_ ++ videos) s.captured kept
      rw [hrendered]
      exact inv.covered
    · change ∀ video ∈ _ ++ videos, _
      rw [hrendered]
      exact inv.starts
    · exact List.forall_mem_append.mpr ⟨hqueued, List.forall_mem_singleton.mpr rfl⟩
    · change (_ ++ videos).map SentryVideoInfo.end = _
      rw [hrendered, hends, List.filterMap_append]
      simp [WorkBlock.releaseDate, Creation.videos]
  · cases h

theorem Inv.step (inv : s.Inv) {input : ℚ × Call} (inTime : s.InTime input)
    (h : s.step input = some s') : s'.Inv := by
  obtain ⟨date, call⟩ := input
  unfold SentrySessionReplay.step at h
  dsimp only at h
  split at h
  · cases h
  · have same : SameFrames s { s with date := date } := ⟨rfl, rfl, rfl, rfl, rfl, rfl⟩
    have inv := same.inv inv
    cases call with
    | newFrame =>
      cases h
      exact (newFrame_sameFrames _).inv inv
    | newImage imageSize screen =>
      dsimp only at h
      split at h
      · cases h
        exact inv.newImage imageSize screen
      · cases h
    | pause =>
      cases h
      have same : SameFrames { s with date := date } { s with date := date }.pause :=
        ⟨rfl, rfl, rfl, rfl, rfl, rfl⟩
      exact same.inv inv
    | resume =>
      cases h
      exact (resume_sameFrames _).inv inv
    | pauseSessionMode =>
      cases h
      have same : SameFrames { s with date := date } { s with date := date }.pauseSessionMode :=
        ⟨rfl, rfl, rfl, rfl, rfl, rfl⟩
      exact same.inv inv
    | createVideo => exact inv.createVideo h
    | newSegmentAvailable => exact inv.newSegmentAvailable h
    | work =>
      unfold InTime at inTime
      dsimp only at inTime
      dsimp only [SentrySessionReplay.work] at h
      cases hqueue : s.workingQueue with
      | nil =>
        rw [hqueue] at h
        cases h
      | cons block workingQueue =>
        rw [hqueue] at h inTime
        cases block with
        | addFrame imageSize screen =>
          dsimp only at h
          split at h
          · rename_i hlast
            cases h
            refine inv.addFrame hqueue inTime.1 inTime.2 fun frame hframe => ?_
            exact of_decide_eq_true (List.all_eq_true.mp hlast frame hframe)
          · cases h
        | releaseFramesUntil date =>
          cases h
          exact inv.releaseFramesUntil hqueue
        | filterFrames beginning «end» =>
          cases h
          exact inv.filterFrames hqueue inTime

end Steps

/-- A frame at each of the times. -/
def exampleFrames (times : List ℚ) : List (ℚ × Call) :=
  times.flatMap fun time => [(time, .newFrame), (time, .newImage (100, 200) none), (time, .work)]

/-- The block that makes a video runs to its end. -/
def exampleVideo (time : ℚ) : List (ℚ × Call) :=
  [(time, .createVideo), (time, .work), (time, .newSegmentAvailable),
    (time, .newSegmentAvailable), (time, .work)]

end SentrySessionReplay

end SentryCocoa.SessionReplay
