import SentryCocoa.RedactionDrawing

/-! What is masked. A view is painted inside the clips of its ancestors, and hides what is behind
it only when it and all of its ancestors are opaque. A view to redact that shows at a pixel
has to be filled there. -/
namespace SentryCocoa.Redaction

/-! The picture. -/

structure Painted where
  rect : CGRect
  /-- The frames of the ancestors that clip. -/
  clips : List CGRect
  /-- The view and its ancestors are opaque. -/
  solid : Bool
  /-- The view or an ancestor is to be redacted. -/
  secret : Bool

def Painted.shows (view : Painted) (point : CGPoint) : Bool :=
  view.rect.contains point && view.clips.all fun clip => clip.contains point

def Painted.hides (view : Painted) (point : CGPoint) : Bool := view.solid && view.shows point

/-- A background without transparency, as far as the view itself is concerned. -/
def Properties.covers (view : Properties) : Bool :=
  view.alpha == 1 && view.backgroundColor == some 1

section Picture
variable (builder : UIRedactBuilder)

def UIRedactBuilder.mustRedact (view : Properties) : Bool :=
  !builder.shouldIgnore view && (builder.shouldRedact view || view.shouldRedactSwiftUI)

mutual

/-- The views from back to front. -/
def painted (origin : CGPoint) (clips : List CGRect) (solid secret : Bool) :
    UIView → List Painted
  | .mk view subviews =>
    if view.drawn then
      ⟨view.rect origin, clips, solid && view.covers, secret || builder.mustRedact view⟩ ::
        paintedAll (view.origin origin)
          (if view.clipsToBounds then view.rect origin :: clips else clips)
          (solid && view.alpha == 1) (secret || builder.mustRedact view) subviews
    else []

def paintedAll (origin : CGPoint) (clips : List CGRect) (solid secret : Bool) :
    List UIView → List Painted
  | [] => []
  | view :: views =>
    painted origin clips solid secret view ++ paintedAll origin clips solid secret views

end

/-- Some view to redact shows at the point, and nothing in front of it hides it there. -/
def exposed (point : CGPoint) : List Painted → Bool
  | [] => false
  | view :: views =>
    (view.secret && view.shows point && views.all fun front => !front.hides point) ||
      exposed point views

/-- The point that the image shows at a pixel. -/
def UIView.shownAt (view : UIView) (pixel : CGPoint) : CGPoint :=
  ⟨view.properties.frame.x + pixel.x - view.properties.boundsOrigin.x,
    view.properties.frame.y + pixel.y - view.properties.boundsOrigin.y⟩

/-- What is exposed at the pixel is filled. -/
def Masked (view : UIView) (pixel : CGPoint) : Prop :=
  view.imageRect.contains pixel = true →
    exposed (view.shownAt pixel) (painted builder ⟨0, 0⟩ [] true false (inOrder view)) = true →
    (image builder view).filled pixel = true

/-! The condition. -/

mutual

/-- A view that is taken for opaque hides what is behind it where its frame has the point. -/
def Truthful (point : CGPoint) (origin : CGPoint) (clips : List CGRect) (solid : Bool) :
    UIView → Prop
  | .mk view subviews => view.drawn = true → builder.mustRedact view = false →
    (UIRedactBuilder.isOpaque view = true → (view.rect origin).contains point = true →
      (solid && view.covers) = true ∧ ∀ clip ∈ clips, clip.contains point = true) ∧
    TruthfulAll point (view.origin origin)
      (if view.clipsToBounds then view.rect origin :: clips else clips)
      (solid && view.alpha == 1) subviews

def TruthfulAll (point : CGPoint) (origin : CGPoint) (clips : List CGRect) (solid : Bool) :
    List UIView → Prop
  | [] => True
  | view :: views =>
    Truthful point origin clips solid view ∧ TruthfulAll point origin clips solid views

end

mutual

/-- The frames of the clipping views that are not inside of other ones. -/
def outermostClips (origin : CGPoint) : UIView → List CGRect
  | .mk view subviews =>
    if view.drawn && !builder.mustRedact view then
      if view.clipsToBounds && !subviews.isEmpty then [view.rect origin]
      else outermostClipsAll (view.origin origin) subviews
    else []

def outermostClipsAll (origin : CGPoint) : List UIView → List CGRect
  | [] => []
  | view :: views => outermostClips origin view ++ outermostClipsAll origin views

end

/-- A clipping view with subviews that has no region but the markers of its clip. -/
def UIRedactBuilder.onlyClips : UIView → Bool
  | .mk view subviews => !builder.mustRedact view && !isOpaque view && view.clipsToBounds &&
    !subviews.isEmpty

mutual

/-- When the frame of a clipping view on the image is also the one of the next clipping view
inside of it, then nothing else is drawn inside of it but that view. -/
def Apart (imageRect : CGRect) (origin : CGPoint) : UIView → Prop
  | .mk view subviews => view.drawn = true → builder.mustRedact view = false →
    (view.clipsToBounds = true → imageRect.intersects (view.rect origin) = true →
      view.rect origin ∈ outermostClipsAll builder (view.origin origin) subviews →
      ∃ inner, subviews.filter (fun subview => subview.properties.drawn) = [inner] ∧
        builder.onlyClips inner = true) ∧
    ApartAll imageRect (view.origin origin) subviews

def ApartAll (imageRect : CGRect) (origin : CGPoint) : List UIView → Prop
  | [] => True
  | view :: views => Apart imageRect origin view ∧ ApartAll imageRect origin views

end

structure CanMask (view : UIView) (pixel : CGPoint) : Prop where
  /-- There is a class to redact. -/
  classes : builder.redactClassesIdentifiers ≠ []
  /-- The view fills its window, without being scrolled. -/
  aligned : view.properties.frame.x = 0 ∧ view.properties.frame.y = 0 ∧
    view.properties.boundsOrigin.x = 0 ∧ view.properties.boundsOrigin.y = 0
  truthful : Truthful builder pixel ⟨0, 0⟩ [] true (inOrder view)
  apart : Apart builder view.imageRect ⟨0, 0⟩ (inOrder view)

end Picture

/-! The regions of a view. -/

section Regions
variable {builder : UIRedactBuilder} (hclasses : builder.redactClassesIdentifiers ≠ [])
  (rootFrame : CGRect)

/-- The region of a view that is redacted. -/
def redaction (view : Properties) (origin : CGPoint) (place : List Nat) : RedactRegion :=
  ⟨view.rect origin, if view.shouldRedactSwiftUI then .redactSwiftUI else .redact, place⟩

theorem redaction_type (view : Properties) (origin : CGPoint) (place : List Nat) :
    (redaction view origin place).type = .redact ∨
      (redaction view origin place).type = .redactSwiftUI := by
  unfold redaction
  cases view.shouldRedactSwiftUI <;> simp

/-- The list after a view that is not redacted, without its clip and its subviews. -/
def background (view : Properties) (origin : CGPoint) (place : List Nat)
    (redacting : List RedactRegion) : List RedactRegion :=
  if UIRedactBuilder.isOpaque view then
    if view.rect origin = rootFrame then []
    else redacting ++ [⟨view.rect origin, .clipOut, place⟩]
  else redacting

theorem mapRedactRegion_hidden {view : Properties} (h : view.drawn = false) (origin : CGPoint)
    (forceRedact : Bool) (place : List Nat) (subviews : List UIView)
    (redacting : List RedactRegion) :
    builder.mapRedactRegion rootFrame origin forceRedact place (.mk view subviews) redacting =
      redacting := by
  simp [UIRedactBuilder.mapRedactRegion, h]

theorem redacts_iff {view : Properties} (forceRedact : Bool) :
    (!(!forceRedact && builder.shouldIgnore view) &&
      (forceRedact || builder.shouldRedact view || view.shouldRedactSwiftUI)) =
      (forceRedact || builder.mustRedact view) := by
  unfold UIRedactBuilder.mustRedact
  cases forceRedact <;> cases builder.shouldIgnore view <;> simp

include hclasses

theorem mapRedactRegion_redact {view : Properties} (h : view.drawn = true) (origin : CGPoint)
    {forceRedact : Bool} (hredact : (forceRedact || builder.mustRedact view) = true)
    (place : List Nat) (subviews : List UIView) (redacting : List RedactRegion) :
    builder.mapRedactRegion rootFrame origin forceRedact place (.mk view subviews) redacting =
      if view.clipsToBounds then redacting ++ [redaction view origin place]
      else builder.mapRedactRegions rootFrame (view.origin origin) true place 0 subviews
        (redacting ++ [redaction view origin place]) := by
  have hempty : builder.redactClassesIdentifiers.isEmpty = false := by simpa using hclasses
  have hguard : ¬(builder.redactClassesIdentifiers.isEmpty || !view.drawn) = true := by
    simp [hempty, h]
  rw [← redacts_iff] at hredact
  rw [UIRedactBuilder.mapRedactRegion, if_neg hguard]
  dsimp only
  rw [if_pos hredact]
  rfl

theorem mapRedactRegion_other {view : Properties} (h : view.drawn = true) (origin : CGPoint)
    (hother : builder.mustRedact view = false) (place : List Nat) (subviews : List UIView)
    (redacting : List RedactRegion) :
    builder.mapRedactRegion rootFrame origin false place (.mk view subviews) redacting =
      if view.clipsToBounds && !subviews.isEmpty then
        builder.mapRedactRegions rootFrame (view.origin origin) false place 0 subviews
            (background rootFrame view origin place redacting ++
              [⟨view.rect origin, .clipEnd, place⟩]) ++
          [⟨view.rect origin, .clipBegin, place⟩]
      else builder.mapRedactRegions rootFrame (view.origin origin) false place 0 subviews
        (background rootFrame view origin place redacting) := by
  have hempty : builder.redactClassesIdentifiers.isEmpty = false := by simpa using hclasses
  have hguard : ¬(builder.redactClassesIdentifiers.isEmpty || !view.drawn) = true := by
    simp [hempty, h]
  have hredact : (!(!false && builder.shouldIgnore view) && _) = _ := redacts_iff false
  rw [hother] at hredact
  rw [UIRedactBuilder.mapRedactRegion, if_neg hguard]
  dsimp only
  rw [if_neg (Bool.eq_false_iff.mp hredact)]
  rfl

omit hclasses in
theorem mapRedactRegions_cons (origin : CGPoint) (forceRedact : Bool) (place : List Nat)
    (index : Nat) (view : UIView) (views : List UIView) (redacting : List RedactRegion) :
    builder.mapRedactRegions rootFrame origin forceRedact place index (view :: views) redacting =
      builder.mapRedactRegions rootFrame origin forceRedact place (index + 1) views
        (builder.mapRedactRegion rootFrame origin forceRedact (index :: place) view redacting) := by
  rw [UIRedactBuilder.mapRedactRegions]

omit hclasses in
theorem mapRedactRegions_nil (origin : CGPoint) (forceRedact : Bool) (place : List Nat)
    (index : Nat) (redacting : List RedactRegion) :
    builder.mapRedactRegions rootFrame origin forceRedact place index [] redacting =
      redacting := by
  rw [UIRedactBuilder.mapRedactRegions]

/-! What is kept of the list. -/

omit hclasses in
theorem background_append (view : Properties) (origin : CGPoint) (place : List Nat)
    (earlier redacting : List RedactRegion) :
    ∃ kept, background rootFrame view origin place (earlier ++ redacting) =
      kept ++ background rootFrame view origin place redacting := by
  unfold background
  split
  · split
    · exact ⟨[], rfl⟩
    · exact ⟨earlier, List.append_assoc _ _ _⟩
  · exact ⟨earlier, rfl⟩

omit hclasses in
theorem mapRedactRegions_append {views : List UIView} {forceRedact : Bool}
    (h : ∀ view ∈ views, ∀ origin place earlier redacting, ∃ kept,
      builder.mapRedactRegion rootFrame origin forceRedact place view (earlier ++ redacting) =
        kept ++ builder.mapRedactRegion rootFrame origin forceRedact place view redacting)
    (origin : CGPoint) (place : List Nat) (index : Nat) (earlier redacting : List RedactRegion) :
    ∃ kept, builder.mapRedactRegions rootFrame origin forceRedact place index views
        (earlier ++ redacting) =
      kept ++ builder.mapRedactRegions rootFrame origin forceRedact place index views
        redacting := by
  induction views generalizing index earlier redacting with
  | nil => exact ⟨earlier, by simp only [mapRedactRegions_nil]⟩
  | cons view views ih =>
    rw [List.forall_mem_cons] at h
    obtain ⟨kept, hkept⟩ := h.1 origin (index :: place) earlier redacting
    simp only [mapRedactRegions_cons, hkept]
    exact ih h.2 (index + 1) kept _

/-- The regions of a view come last. Those before it are kept or cleared. -/
theorem mapRedactRegion_append (view : UIView) (forceRedact : Bool) (origin : CGPoint)
    (place : List Nat) (earlier redacting : List RedactRegion) :
    ∃ kept, builder.mapRedactRegion rootFrame origin forceRedact place view
        (earlier ++ redacting) =
      kept ++ builder.mapRedactRegion rootFrame origin forceRedact place view redacting := by
  induction view using UIView.induct generalizing forceRedact origin place earlier redacting with
  | step view subviews ih =>
    cases hdrawn : view.drawn with
    | false =>
      simp only [mapRedactRegion_hidden rootFrame hdrawn]
      exact ⟨earlier, rfl⟩
    | true =>
      cases hredact : forceRedact || builder.mustRedact view with
      | true =>
        simp only [mapRedactRegion_redact hclasses rootFrame hdrawn _ hredact]
        split
        · exact ⟨earlier, List.append_assoc _ _ _⟩
        · rw [List.append_assoc]
          exact mapRedactRegions_append rootFrame
            (fun subview hsubview origin place earlier redacting =>
              ih subview hsubview true origin place earlier redacting) _ _ _ _ _
      | false =>
        rw [Bool.or_eq_false_iff] at hredact
        obtain ⟨rfl, hother⟩ := hredact
        have hsubviews := mapRedactRegions_append rootFrame
          (fun subview hsubview origin place earlier redacting =>
            ih subview hsubview false origin place earlier redacting) (view.origin origin) place 0
        obtain ⟨before, hbefore⟩ := background_append rootFrame view origin place earlier redacting
        simp only [mapRedactRegion_other hclasses rootFrame hdrawn _ hother, hbefore]
        split
        · rw [List.append_assoc before]
          obtain ⟨kept, hkept⟩ := hsubviews before (background rootFrame view origin place
            redacting ++ [⟨view.rect origin, .clipEnd, place⟩])
          exact ⟨kept, by rw [hkept, List.append_assoc]⟩
        · exact hsubviews before _

omit hclasses in
theorem mapRedactRegions_eq {views : List UIView} {origin : CGPoint} {forceRedact : Bool}
    (h : ∀ view ∈ views, ∀ place redacting,
      builder.mapRedactRegion rootFrame origin forceRedact place view redacting =
        redacting ++ builder.mapRedactRegion rootFrame origin forceRedact place view [])
    (place : List Nat) (index : Nat) (redacting : List RedactRegion) :
    builder.mapRedactRegions rootFrame origin forceRedact place index views redacting =
      redacting ++ builder.mapRedactRegions rootFrame origin forceRedact place index views [] := by
  induction views generalizing index redacting with
  | nil => simp only [mapRedactRegions_nil, List.append_nil]
  | cons view views ih =>
    rw [List.forall_mem_cons] at h
    rw [mapRedactRegions_cons, mapRedactRegions_cons, h.1, ih h.2,
      ih h.2 (index + 1) (builder.mapRedactRegion rootFrame origin forceRedact (index :: place)
        view []), List.append_assoc]

/-! Views that are redacted, and those inside of them. -/

theorem mapRedactRegion_forced (view : UIView) (origin : CGPoint) (place : List Nat)
    (redacting : List RedactRegion) :
    builder.mapRedactRegion rootFrame origin true place view redacting =
      redacting ++ builder.mapRedactRegion rootFrame origin true place view [] := by
  induction view using UIView.induct generalizing origin place redacting with
  | step view subviews ih =>
    cases hdrawn : view.drawn with
    | false =>
      simp only [mapRedactRegion_hidden rootFrame hdrawn, List.append_nil]
    | true =>
      simp only [mapRedactRegion_redact hclasses rootFrame hdrawn _ (Bool.true_or _)]
      split
      · rfl
      · have hsubviews := mapRedactRegions_eq rootFrame fun subview hsubview place redacting =>
          ih subview hsubview (view.origin origin) place redacting
        rw [hsubviews, hsubviews place 0 ([] ++ _), List.nil_append, List.append_assoc]

theorem mapRedactRegions_forced (views : List UIView) (origin : CGPoint) (place : List Nat)
    (index : Nat) (redacting : List RedactRegion) :
    builder.mapRedactRegions rootFrame origin true place index views redacting =
      redacting ++ builder.mapRedactRegions rootFrame origin true place index views [] :=
  mapRedactRegions_eq rootFrame
    (fun view _ place redacting => mapRedactRegion_forced hclasses rootFrame view origin place
      redacting) place index redacting

/-- The regions of the views one by one. -/
theorem mem_mapRedactRegions_forced {views : List UIView} {origin : CGPoint} {place : List Nat}
    {index : Nat} {region : RedactRegion} :
    region ∈ builder.mapRedactRegions rootFrame origin true place index views [] ↔
      ∃ view ∈ views.zipIdx index,
        region ∈ builder.mapRedactRegion rootFrame origin true (view.2 :: place) view.1 [] := by
  induction views generalizing index with
  | nil => simp [mapRedactRegions_nil]
  | cons view views ih =>
    rw [mapRedactRegions_cons, mapRedactRegions_forced hclasses, List.mem_append, ih,
      List.zipIdx_cons]
    simp

omit hclasses in
theorem mem_paintedAll {views : List UIView} {origin : CGPoint} {clips : List CGRect}
    {solid secret : Bool} {front : Painted} :
    front ∈ paintedAll builder origin clips solid secret views ↔
      ∃ view ∈ views, front ∈ painted builder origin clips solid secret view := by
  induction views with
  | nil => simp [paintedAll]
  | cons view views ih => simp [paintedAll, ih]

omit hclasses in
theorem clips_painted (view : UIView) {origin : CGPoint} {clips : List CGRect} {solid secret : Bool}
    {front : Painted} (h : front ∈ painted builder origin clips solid secret view) :
    clips ⊆ front.clips := by
  induction view using UIView.induct generalizing origin clips solid secret with
  | step view subviews ih =>
    rw [painted] at h
    split at h
    · rcases List.mem_cons.mp h with rfl | hmem
      · exact List.Subset.refl clips
      · obtain ⟨subview, hsubview, hpainted⟩ := mem_paintedAll.mp hmem
        have hsub := ih subview hsubview hpainted
        split at hsub
        · exact List.Subset.trans (List.subset_cons_self _ _) hsub
        · exact hsub
    · cases h

omit hclasses in
theorem Painted.clips_of_shows {front : Painted} {point : CGPoint} (h : front.shows point = true)
    {clip : CGRect} (hclip : clip ∈ front.clips) : clip.contains point = true := by
  rw [Painted.shows, Bool.and_eq_true, List.all_eq_true] at h
  exact h.2 clip hclip

/-- A redacted view yields redactions only, and one of them where a view inside of it shows. -/
theorem redactions (view : UIView) (origin : CGPoint) (place : List Nat) {forceRedact : Bool}
    (hredact : (forceRedact || builder.mustRedact view.properties) = true) :
    (∀ region ∈ builder.mapRedactRegion rootFrame origin forceRedact place view [],
      region.type = .redact ∨ region.type = .redactSwiftUI) ∧
    ∀ clips solid secret, ∀ front ∈ painted builder origin clips solid secret view, ∀ point,
      front.shows point = true →
      ∃ region ∈ builder.mapRedactRegion rootFrame origin forceRedact place view [],
        region.rect.contains point = true := by
  induction view using UIView.induct generalizing origin place forceRedact with
  | step view subviews ih =>
    cases hdrawn : view.drawn with
    | false =>
      rw [mapRedactRegion_hidden rootFrame hdrawn]
      simp [painted, hdrawn]
    | true =>
      rw [mapRedactRegion_redact hclasses rootFrame hdrawn _ hredact, List.nil_append]
      have hforced : ∀ subview : UIView, (true || builder.mustRedact subview.properties) = true :=
        fun _ => rfl
      cases hclips : view.clipsToBounds with
      | true =>
        constructor
        · intro region hregion
          rw [List.mem_singleton.mp hregion]
          exact redaction_type view origin place
        · intro clips solid secret front hfront point hshows
          refine ⟨_, List.mem_singleton_self _, ?_⟩
          change (view.rect origin).contains point = true
          simp only [painted, hdrawn, hclips, if_true] at hfront
          rcases List.mem_cons.mp hfront with rfl | hmem
          · exact (Bool.and_eq_true_iff.mp hshows).1
          · obtain ⟨subview, -, hpainted⟩ := mem_paintedAll.mp hmem
            exact Painted.clips_of_shows hshows (clips_painted subview hpainted List.mem_cons_self)
      | false =>
        simp only [Bool.false_eq_true, if_false]
        rw [mapRedactRegions_forced hclasses]
        constructor
        · intro region hregion
          rcases List.mem_append.mp hregion with hown | hsub
          · rw [List.mem_singleton.mp hown]
            exact redaction_type view origin place
          · obtain ⟨subview, hsubview, hmem⟩ := (mem_mapRedactRegions_forced hclasses rootFrame).mp hsub
            exact (ih subview.1 (List.fst_mem_of_mem_zipIdx hsubview) _ _ (hforced _)).1 region hmem
        · intro clips solid secret front hfront point hshows
          simp only [painted, hdrawn, hclips, if_true] at hfront
          rcases List.mem_cons.mp hfront with rfl | hmem
          · refine ⟨_, List.mem_append_left _ (List.mem_singleton_self _), ?_⟩
            exact (Bool.and_eq_true_iff.mp hshows).1
          · obtain ⟨subview, hsubview, hpainted⟩ := mem_paintedAll.mp hmem
            obtain ⟨index, hget⟩ := List.mem_iff_getElem?.mp hsubview
            have hindex := List.mk_mem_zipIdx_iff_getElem?.mpr hget
            obtain ⟨region, hregion, hcontains⟩ :=
              (ih subview hsubview (view.origin origin) (index :: place) (hforced _)).2 _ _ _ front
                hpainted point hshows
            exact ⟨region, List.mem_append_right _ ((mem_mapRedactRegions_forced hclasses
              rootFrame).mpr ⟨(subview, index), hindex, hregion⟩), hcontains⟩

/-! Views that hide nothing. -/

/-- The regions without those of SwiftUI. -/
def others (regions : List RedactRegion) : List RedactRegion :=
  regions.filter fun region => region.type ≠ .redactSwiftUI

omit hclasses in
theorem others_append (regions regions' : List RedactRegion) :
    others (regions ++ regions') = others regions ++ others regions' := List.filter_append _ _

omit hclasses in
theorem others_cons {region : RedactRegion} (h : region.type ≠ .redactSwiftUI)
    (regions : List RedactRegion) : others (region :: regions) = region :: others regions := by
  simp [others, h]

omit hclasses in
theorem others_clipped (rect : CGRect) (view : List Nat) (regions : List RedactRegion) :
    others (clipped rect view regions) = clipped rect view (others regions) := by
  simp [others, clipped]

omit hclasses in
/-- Redactions are a block. -/
theorem block_of_redactions {imageRect : CGRect} {pixel : CGPoint} {regions : List RedactRegion}
    (h : ∀ region ∈ regions, region.type = .redact ∨ region.type = .redactSwiftUI) :
    Block imageRect pixel (others regions) := by
  induction regions with
  | nil => exact .nil
  | cons region regions ih =>
    rw [List.forall_mem_cons] at h
    rcases h.1 with htype | htype
    · rw [others_cons (by simp [htype])]
      exact .redact htype (ih h.2)
    · have hskip : others (region :: regions) = others regions := by simp [others, htype]
      rw [hskip]
      exact ih h.2

/-- Nothing that was found before is cleared, and the regions are a block whose first and last
clips are outermost ones. -/
structure Harmless (imageRect : CGRect) (pixel : CGPoint) (outermost : List CGRect)
    (found : List RedactRegion → List RedactRegion) : Prop where
  append : ∀ redacting, found redacting = redacting ++ found []
  block : Block imageRect pixel (others (found []))
  first : ∀ rect, startsWith .clipEnd rect (others (found [])).head? = true → rect ∈ outermost
  last : ∀ rect, startsWith .clipBegin rect (others (found [])).getLast? = true →
    rect ∈ outermost

variable {imageRect : CGRect} {pixel : CGPoint}

omit hclasses in
theorem Harmless.id : Harmless imageRect pixel [] id :=
  ⟨fun redacting => (List.append_nil redacting).symm, .nil, fun _ h => (nomatch h),
    fun _ h => (nomatch h)⟩

omit hclasses in
theorem Harmless.comp {outermost outermost' : List CGRect}
    {found found' : List RedactRegion → List RedactRegion}
    (h : Harmless imageRect pixel outermost found)
    (h' : Harmless imageRect pixel outermost' found') :
    Harmless imageRect pixel (outermost ++ outermost') fun redacting =>
      found' (found redacting) := by
  have hfound : ∀ redacting, found' (found redacting) = redacting ++ (found [] ++ found' []) := by
    intro redacting
    rw [h'.append, h.append, List.append_assoc]
  have hothers : others (found' (found [])) = others (found []) ++ others (found' []) := by
    rw [hfound, List.nil_append, others_append]
  constructor
  · intro redacting
    rw [hfound, hfound []]
    rfl
  · rw [hothers]
    exact h.block.append h'.block
  · intro rect hfirst
    rw [hothers, List.head?_append] at hfirst
    have hone := h.first rect
    have htwo := h'.first rect
    cases hhead : (others (found [])).head? with
    | none =>
      rw [hhead] at hfirst
      exact List.mem_append_right _ (htwo hfirst)
    | some region =>
      rw [hhead] at hfirst hone
      exact List.mem_append_left _ (hone hfirst)
  · intro rect hlast
    rw [hothers, List.getLast?_append] at hlast
    have hone := h.last rect
    have htwo := h'.last rect
    cases hend : (others (found' [])).getLast? with
    | none =>
      rw [hend] at hlast
      exact List.mem_append_left _ (hone hlast)
    | some region =>
      rw [hend] at hlast htwo
      exact List.mem_append_right _ (htwo hlast)

omit hclasses in
theorem harmless_of_redactions {found : List RedactRegion → List RedactRegion}
    (append : ∀ redacting, found redacting = redacting ++ found [])
    (h : ∀ region ∈ found [], region.type = .redact ∨ region.type = .redactSwiftUI) :
    Harmless imageRect pixel [] found := by
  have hother : ∀ (type : RedactRegionType) (rect : CGRect) (region : Option RedactRegion),
      type ≠ .redact → type ≠ .redactSwiftUI → (∀ r ∈ region, r ∈ others (found [])) →
      startsWith type rect region = false := by
    intro type rect region htype htype' hmem
    cases region with
    | none => rfl
    | some region =>
      have hregion := h region (List.mem_filter.mp (hmem region rfl)).1
      rcases hregion with hregion | hregion
      · simp [startsWith, hregion, htype.symm]
      · simp [startsWith, hregion, htype'.symm]
  refine ⟨append, block_of_redactions h, fun rect hfirst => ?_, fun rect hlast => ?_⟩
  · rw [hother .clipEnd rect _ (by decide) (by decide) fun r hr => List.mem_of_mem_head? hr] at hfirst
    cases hfirst
  · rw [hother .clipBegin rect _ (by decide) (by decide) fun r hr =>
      List.mem_of_mem_getLast? hr] at hlast
    cases hlast

omit hclasses in
theorem harmless_clipOut {rect : CGRect} (outside : rect.contains pixel = false) (place : List Nat) :
    Harmless imageRect pixel [] fun redacting => redacting ++ [⟨rect, .clipOut, place⟩] := by
  have htype : (⟨rect, .clipOut, place⟩ : RedactRegion).type ≠ .redactSwiftUI := by simp
  have hothers : others ([] ++ [⟨rect, .clipOut, place⟩]) = [⟨rect, .clipOut, place⟩] :=
    others_cons htype []
  refine ⟨fun redacting => rfl, ?_, fun other h => ?_, fun other h => ?_⟩
  · rw [hothers]
    exact .clipOut rfl outside .nil
  · rw [hothers] at h
    simp [startsWith] at h
  · rw [hothers] at h
    simp [startsWith] at h

omit hclasses in
theorem clip_eq {outermost : List CGRect} {found : List RedactRegion → List RedactRegion}
    (h : Harmless imageRect pixel outermost found) (rect : CGRect) (place : List Nat)
    (redacting : List RedactRegion) :
    found (redacting ++ [⟨rect, .clipEnd, place⟩]) ++ [⟨rect, .clipBegin, place⟩] =
      redacting ++ clipped rect place (found []) := by
  rw [h.append, clipped]
  simp

omit hclasses in
theorem harmless_clip {outermost : List CGRect} {found : List RedactRegion → List RedactRegion}
    (h : Harmless imageRect pixel outermost found) (rect : CGRect) (place : List Nat)
    (markers : imageRect.intersects rect = true →
      startsWith .clipEnd rect (others (found [])).head? =
        startsWith .clipBegin rect (others (found [])).getLast?) :
    Harmless imageRect pixel [rect] fun redacting =>
      found (redacting ++ [⟨rect, .clipEnd, place⟩]) ++ [⟨rect, .clipBegin, place⟩] := by
  have hothers : others (found ([] ++ [⟨rect, .clipEnd, place⟩]) ++ [⟨rect, .clipBegin, place⟩]) =
      clipped rect place (others (found [])) := by
    rw [clip_eq h, List.nil_append, others_clipped]
  refine ⟨fun redacting => ?_, ?_, fun other hfirst => ?_, fun other hlast => ?_⟩
  · rw [clip_eq h, clip_eq h, List.nil_append]
  · rw [hothers, ← List.append_nil (clipped _ _ _)]
    exact .clip h.block markers .nil
  · rw [hothers] at hfirst
    simp [startsWith, clipped] at hfirst
    simp [hfirst]
  · rw [hothers, clipped, ← List.cons_append, List.getLast?_concat] at hlast
    simp [startsWith] at hlast
    simp [hlast]

omit hclasses in
theorem mapRedactRegions_single {views : List UIView} {inner : UIView} (origin : CGPoint)
    (place : List Nat) (index : Nat) (redacting : List RedactRegion)
    (h : views.filter (fun view => view.properties.drawn) = [inner]) :
    ∃ place', builder.mapRedactRegions rootFrame origin false place index views redacting =
      builder.mapRedactRegion rootFrame origin false place' inner redacting := by
  have hnone : ∀ (views : List UIView) (index : Nat) (redacting : List RedactRegion),
      views.filter (fun view => view.properties.drawn) = [] →
      builder.mapRedactRegions rootFrame origin false place index views redacting =
        redacting := by
    intro views
    induction views with
    | nil => exact fun index redacting _ => mapRedactRegions_nil rootFrame _ _ _ _ _
    | cons view views ih =>
      intro index redacting hviews
      cases view with
      | mk view subviews =>
        cases hdrawn : view.drawn with
        | true => simp [UIView.properties, hdrawn] at hviews
        | false =>
          rw [mapRedactRegions_cons, mapRedactRegion_hidden rootFrame hdrawn]
          apply ih
          simpa [UIView.properties, hdrawn] using hviews
  induction views generalizing index with
  | nil => cases h
  | cons view views ih =>
    cases view with
    | mk view subviews =>
      rw [mapRedactRegions_cons]
      cases hdrawn : view.drawn with
      | true =>
        rw [List.filter_cons_of_pos (by exact hdrawn), List.cons.injEq] at h
        rw [hnone views _ _ h.2, h.1]
        exact ⟨_, rfl⟩
      | false =>
        rw [List.filter_cons_of_neg (by simp [UIView.properties, hdrawn])] at h
        rw [mapRedactRegion_hidden rootFrame hdrawn]
        exact ih (index + 1) h

omit hclasses in
theorem truthful_of_mem {views : List UIView} {point origin : CGPoint} {clips : List CGRect}
    {solid : Bool} (h : TruthfulAll builder point origin clips solid views) {view : UIView}
    (hview : view ∈ views) : Truthful builder point origin clips solid view := by
  induction views with
  | nil => cases hview
  | cons first views ih =>
    rw [TruthfulAll] at h
    rcases List.mem_cons.mp hview with rfl | hmem
    · exact h.1
    · exact ih h.2 hmem

omit hclasses in
theorem apart_of_mem {views : List UIView} {origin : CGPoint}
    (h : ApartAll builder imageRect origin views) {view : UIView} (hview : view ∈ views) :
    Apart builder imageRect origin view := by
  induction views with
  | nil => cases hview
  | cons first views ih =>
    rw [ApartAll] at h
    rcases List.mem_cons.mp hview with rfl | hmem
    · exact h.1
    · exact ih h.2 hmem

omit hclasses in
theorem harmless_views {views : List UIView} {origin : CGPoint}
    (h : ∀ view ∈ views, ∀ place, Harmless imageRect pixel (outermostClips builder origin view)
      (builder.mapRedactRegion rootFrame origin false place view))
    (place : List Nat) (index : Nat) :
    Harmless imageRect pixel (outermostClipsAll builder origin views)
      (builder.mapRedactRegions rootFrame origin false place index views) := by
  induction views generalizing index with
  | nil =>
    have hid : builder.mapRedactRegions rootFrame origin false place index [] = id := by
      funext redacting
      exact mapRedactRegions_nil rootFrame _ _ _ _ _
    rw [hid, outermostClipsAll]
    exact Harmless.id
  | cons view views ih =>
    rw [List.forall_mem_cons] at h
    have hcomp : builder.mapRedactRegions rootFrame origin false place index (view :: views) =
        fun redacting => builder.mapRedactRegions rootFrame origin false place (index + 1) views
          (builder.mapRedactRegion rootFrame origin false (index :: place) view redacting) := by
      funext redacting
      exact mapRedactRegions_cons rootFrame _ _ _ _ _ _ _
    rw [hcomp, outermostClipsAll]
    exact (h.1 (index :: place)).comp (ih h.2 (index + 1))

omit hclasses in
/-- A view that is taken for opaque is not at the pixel, when it is truthful and hides nothing. -/
theorem harmless_background (hroot : rootFrame.contains pixel = true) {view : Properties}
    {origin : CGPoint} {place : List Nat}
    (h : UIRedactBuilder.isOpaque view = true → (view.rect origin).contains pixel = false) :
    Harmless imageRect pixel [] (background rootFrame view origin place) := by
  cases hcovering : UIRedactBuilder.isOpaque view with
  | false =>
    have hid : background rootFrame view origin place = id := by
      funext redacting
      simp [background, hcovering]
    rw [hid]
    exact Harmless.id
  | true =>
    have hne : view.rect origin ≠ rootFrame := by
      intro heq
      rw [← heq, h hcovering] at hroot
      cases hroot
    have hclipOut : background rootFrame view origin place = fun redacting =>
        redacting ++ [⟨view.rect origin, .clipOut, place⟩] := by
      funext redacting
      simp [background, hcovering, hne]
    rw [hclipOut]
    exact harmless_clipOut (h hcovering) place

omit hclasses in
/-- A frame with which the regions of the subviews start or end is that of one clip around all. -/
theorem ends_alike {views : List UIView} {origin : CGPoint} {place : List Nat} {rect : CGRect}
    (hinner : Harmless imageRect pixel (outermostClipsAll builder origin views)
      (builder.mapRedactRegions rootFrame origin false place 0 views))
    (hsingle : rect ∈ outermostClipsAll builder origin views →
      ∃ inner, views.filter (fun view => view.properties.drawn) = [inner] ∧
        builder.onlyClips inner = true)
    (hclipped : ∀ inner ∈ views, ∀ place, inner.properties.drawn = true →
      builder.onlyClips inner = true → ∃ rect regions,
        others (builder.mapRedactRegion rootFrame origin false place inner []) =
          clipped rect place regions) :
    startsWith .clipEnd rect
        (others (builder.mapRedactRegions rootFrame origin false place 0 views [])).head? =
      startsWith .clipBegin rect
        (others (builder.mapRedactRegions rootFrame origin false place 0 views [])).getLast? := by
  by_cases hsame : rect ∈ outermostClipsAll builder origin views
  · obtain ⟨inner, hfilter, honly⟩ := hsingle hsame
    have hmem : inner ∈ views ∧ inner.properties.drawn = true := by
      apply List.mem_filter.mp
      rw [hfilter]
      exact List.mem_singleton_self inner
    obtain ⟨place', hmap⟩ := mapRedactRegions_single rootFrame origin place 0 [] hfilter
    obtain ⟨rect', regions, hregions⟩ := hclipped inner hmem.1 place' hmem.2 honly
    rw [hmap, hregions, clipped, ← List.cons_append, List.getLast?_concat]
    simp [startsWith]
  · have hfirst := mt (hinner.first rect) hsame
    have hlast := mt (hinner.last rect) hsame
    rw [Bool.not_eq_true] at hfirst hlast
    rw [hfirst, hlast]

/-- A view that is truthful and hides nothing is harmless. -/
theorem harmless_view (hroot : rootFrame.contains pixel = true) (view : UIView) (origin : CGPoint)
    (clips : List CGRect) (solid secret : Bool) (place : List Nat)
    (truthful : Truthful builder pixel origin clips solid view)
    (apart : Apart builder rootFrame origin view)
    (hides : ∀ front ∈ painted builder origin clips solid secret view,
      front.hides pixel = false) :
    Harmless rootFrame pixel (outermostClips builder origin view)
        (builder.mapRedactRegion rootFrame origin false place view) ∧
      (view.properties.drawn = true → builder.onlyClips view = true →
        ∃ rect inner, others (builder.mapRedactRegion rootFrame origin false place view []) =
          clipped rect place inner) := by
  induction view using UIView.induct generalizing origin clips solid secret place with
  | step view subviews ih =>
    cases hdrawn : view.drawn with
    | false =>
      have hid : builder.mapRedactRegion rootFrame origin false place (.mk view subviews) = id := by
        funext redacting
        exact mapRedactRegion_hidden rootFrame hdrawn _ _ _ _ _
      have hnone : outermostClips builder origin (.mk view subviews) = [] := by
        simp [outermostClips, hdrawn]
      rw [hid, hnone]
      exact ⟨Harmless.id, fun h => by simp [UIView.properties, hdrawn] at h⟩
    | true =>
      cases hredact : builder.mustRedact view with
      | true =>
        have hnone : outermostClips builder origin (.mk view subviews) = [] := by
          simp [outermostClips, hredact]
        have hforce : (false || builder.mustRedact view) = true := hredact
        rw [hnone]
        constructor
        · apply harmless_of_redactions
          · intro redacting
            simp only [mapRedactRegion_redact hclasses rootFrame hdrawn origin hforce]
            split
            · rfl
            · rw [mapRedactRegions_forced hclasses,
                mapRedactRegions_forced hclasses _ _ _ _ _ ([] ++ _), List.nil_append,
                List.append_assoc]
          · exact (redactions hclasses rootFrame (.mk view subviews) origin place hforce).1
        · intro _ honly
          simp [UIRedactBuilder.onlyClips, hredact] at honly
      | false =>
        rw [Truthful] at truthful
        rw [Apart] at apart
        obtain ⟨hcovering, hsubviews⟩ := truthful hdrawn hredact
        obtain ⟨hmarkers, hapart⟩ := apart hdrawn hredact
        simp only [painted, hdrawn, if_true, List.forall_mem_cons] at hides
        have houtside : UIRedactBuilder.isOpaque view = true →
            (view.rect origin).contains pixel = false := by
          intro htaken
          by_contra hinside
          rw [Bool.not_eq_false] at hinside
          obtain ⟨hsolid, hclips⟩ := hcovering htaken hinside
          have hown := hides.1
          simp only [Painted.hides, Painted.shows, hsolid, hinside, Bool.true_and] at hown
          rw [List.all_eq_true.mpr hclips] at hown
          cases hown
        have hback : Harmless rootFrame pixel [] (background rootFrame view origin place) :=
          harmless_background rootFrame hroot houtside
        have hall : ∀ subview ∈ subviews, ∀ place, _ := fun subview hsubview place =>
          ih subview hsubview _ _ _ _ place (truthful_of_mem hsubviews hsubview)
            (apart_of_mem hapart hsubview)
            (fun front hfront => hides.2 front (mem_paintedAll.mpr ⟨subview, hsubview, hfront⟩))
        have hinner : Harmless rootFrame pixel
            (outermostClipsAll builder (view.origin origin) subviews)
            (builder.mapRedactRegions rootFrame (view.origin origin) false place 0 subviews) :=
          harmless_views rootFrame (fun subview hsubview place =>
            (hall subview hsubview place).1) place 0
        cases hclip : view.clipsToBounds && !subviews.isEmpty with
        | false =>
          have hmap : builder.mapRedactRegion rootFrame origin false place (.mk view subviews) =
              fun redacting => builder.mapRedactRegions rootFrame (view.origin origin) false place 0
                subviews (background rootFrame view origin place redacting) := by
            funext redacting
            rw [mapRedactRegion_other hclasses rootFrame hdrawn origin hredact, hclip]
            rfl
          have houter : outermostClips builder origin (.mk view subviews) =
              [] ++ outermostClipsAll builder (view.origin origin) subviews := by
            simp [outermostClips, hdrawn, hredact, hclip]
          rw [hmap, houter]
          refine ⟨hback.comp hinner, fun _ honly => ?_⟩
          rw [UIRedactBuilder.onlyClips, Bool.and_assoc, hclip, Bool.and_false] at honly
          cases honly
        | true =>
          have hmap : builder.mapRedactRegion rootFrame origin false place (.mk view subviews) =
              fun redacting => builder.mapRedactRegions rootFrame (view.origin origin) false place 0
                  subviews (background rootFrame view origin place redacting ++
                    [⟨view.rect origin, .clipEnd, place⟩]) ++
                [⟨view.rect origin, .clipBegin, place⟩] := by
            funext redacting
            rw [mapRedactRegion_other hclasses rootFrame hdrawn origin hredact, hclip]
            rfl
          have houter : outermostClips builder origin (.mk view subviews) =
              [] ++ [view.rect origin] := by
            simp [outermostClips, hdrawn, hredact, hclip]
          have hclips : view.clipsToBounds = true := (Bool.and_eq_true_iff.mp hclip).1
          have hends := fun hintersects => ends_alike rootFrame hinner (hmarkers hclips hintersects)
            fun inner hmem place => (hall inner hmem place).2
          rw [hmap, houter]
          refine ⟨hback.comp (harmless_clip hinner _ place hends), fun _ honly => ?_⟩
          have hnot : UIRedactBuilder.isOpaque view = false := by
            simp [UIRedactBuilder.onlyClips, hredact] at honly
            exact honly.1.1
          have hempty : background rootFrame view origin place [] = [] := by
            simp [background, hnot]
          refine ⟨view.rect origin, others (builder.mapRedactRegions rootFrame
            (view.origin origin) false place 0 subviews []), ?_⟩
          dsimp only
          rw [hempty, clip_eq hinner, List.nil_append, others_clipped]

/-! What is exposed. -/

/-- A redaction with the pixel, behind which nothing takes the clip away. -/
def Reveals (imageRect : CGRect) (pixel : CGPoint) (regions : List RedactRegion) : Prop :=
  ∃ before region front, regions = before ++ region :: front ∧
    (region.type = .redact ∨ region.type = .redactSwiftUI) ∧
    region.rect.contains pixel = true ∧
    ∀ rest, ((behind imageRect rest).inside pixel).Clear →
      ((behind imageRect (others front ++ rest)).inside pixel).Clear

omit hclasses in
theorem Reveals.append_left {regions : List RedactRegion} (h : Reveals imageRect pixel regions)
    (earlier : List RedactRegion) : Reveals imageRect pixel (earlier ++ regions) := by
  obtain ⟨before, region, front, rfl, htype, hrect, hclear⟩ := h
  exact ⟨earlier ++ before, region, front, (List.append_assoc _ _ _).symm, htype, hrect, hclear⟩

omit hclasses in
theorem Reveals.append_right {regions later : List RedactRegion}
    (h : Reveals imageRect pixel regions)
    (hlater : ∀ rest, ((behind imageRect rest).inside pixel).Clear →
      ((behind imageRect (others later ++ rest)).inside pixel).Clear) :
    Reveals imageRect pixel (regions ++ later) := by
  obtain ⟨before, region, front, rfl, htype, hrect, hclear⟩ := h
  refine ⟨before, region, front ++ later, by simp, htype, hrect, fun rest hrest => ?_⟩
  rw [others_append, List.append_assoc]
  exact hclear _ (hlater rest hrest)

omit hclasses in
theorem exposed_append {point : CGPoint} {views later : List Painted}
    (h : exposed point (views ++ later) = true) :
    (exposed point views = true ∧ ∀ front ∈ later, front.hides point = false) ∨
      exposed point later = true := by
  induction views with
  | nil => exact Or.inr h
  | cons view views ih =>
    rw [List.cons_append, exposed, List.all_append] at h
    simp only [Bool.or_eq_true, Bool.and_eq_true] at h
    rcases h with ⟨⟨hsecret, hshows⟩, hviews, hlater⟩ | h
    · refine Or.inl ⟨by simp [exposed, hsecret, hshows, hviews], fun front hfront => ?_⟩
      simpa using List.all_eq_true.mp hlater front hfront
    · rcases ih h with ⟨hexposed, hlater⟩ | hexposed
      · exact Or.inl ⟨by simp [exposed, hexposed], hlater⟩
      · exact Or.inr hexposed

omit hclasses in
theorem exists_of_exposed {point : CGPoint} {views : List Painted}
    (h : exposed point views = true) : ∃ view ∈ views, view.shows point = true := by
  induction views with
  | nil => cases h
  | cons view views ih =>
    simp only [exposed, Bool.or_eq_true, Bool.and_eq_true] at h
    rcases h with ⟨⟨-, hshows⟩, -⟩ | h
    · exact ⟨view, List.mem_cons_self, hshows⟩
    · obtain ⟨front, hfront, hshows⟩ := ih h
      exact ⟨front, List.mem_cons_of_mem _ hfront, hshows⟩

omit hclasses in
/-- What is redacted covers everything that shows inside of it. -/
theorem reveals_of_redactions {regions : List RedactRegion}
    (h : ∀ region ∈ regions, region.type = .redact ∨ region.type = .redactSwiftUI)
    {region : RedactRegion} (hregion : region ∈ regions)
    (hrect : region.rect.contains pixel = true) : Reveals imageRect pixel regions := by
  obtain ⟨before, front, rfl⟩ := List.append_of_mem hregion
  refine ⟨before, region, front, rfl, h region hregion, hrect, fun rest hrest => ?_⟩
  have hfront : ∀ r ∈ front, r.type = .redact ∨ r.type = .redactSwiftUI := fun r hr =>
    h r (List.mem_append_right _ (List.mem_cons_of_mem _ hr))
  exact (block_of_redactions hfront).clear hrest

omit hclasses in
theorem reveals_views {views : List UIView}
    {origin : CGPoint} {clips : List CGRect} {solid : Bool}
    (happend : ∀ view ∈ views, ∀ origin place earlier redacting, ∃ kept,
      builder.mapRedactRegion rootFrame origin false place view (earlier ++ redacting) =
        kept ++ builder.mapRedactRegion rootFrame origin false place view redacting)
    (hreveals : ∀ view ∈ views, ∀ place,
      exposed pixel (painted builder origin clips solid false view) = true →
      Reveals rootFrame pixel (builder.mapRedactRegion rootFrame origin false place view []))
    (hharmless : ∀ view ∈ views, ∀ place,
      (∀ front ∈ painted builder origin clips solid false view, front.hides pixel = false) →
      Harmless rootFrame pixel (outermostClips builder origin view)
        (builder.mapRedactRegion rootFrame origin false place view))
    (place : List Nat) (index : Nat)
    (hexposed : exposed pixel (paintedAll builder origin clips solid false views) = true) :
    Reveals rootFrame pixel
      (builder.mapRedactRegions rootFrame origin false place index views []) := by
  induction views generalizing index with
  | nil => cases hexposed
  | cons view views ih =>
    rw [List.forall_mem_cons] at happend hreveals hharmless
    rw [paintedAll] at hexposed
    rw [mapRedactRegions_cons]
    rcases exposed_append hexposed with ⟨hview, hlater⟩ | hlater
    · have hblock := harmless_views rootFrame (fun later hmem place =>
        hharmless.2 later hmem place fun front hfront =>
          hlater front (mem_paintedAll.mpr ⟨later, hmem, hfront⟩)) place (index + 1)
      rw [hblock.append]
      exact (hreveals.1 _ hview).append_right fun rest hrest => hblock.block.clear hrest
    · obtain ⟨kept, hkept⟩ := mapRedactRegions_append rootFrame happend.2 origin place (index + 1)
        (builder.mapRedactRegion rootFrame origin false (index :: place) view []) []
      rw [List.append_nil] at hkept
      rw [hkept]
      exact (ih happend.2 hreveals.2 hharmless.2 (index + 1) hlater).append_left kept

/-- Where a view is exposed, there is a redaction that nothing takes away. -/
theorem reveals_view (hroot : rootFrame.contains pixel = true) (view : UIView) (origin : CGPoint)
    (clips : List CGRect) (solid : Bool) (place : List Nat)
    (truthful : Truthful builder pixel origin clips solid view)
    (apart : Apart builder rootFrame origin view)
    (hexposed : exposed pixel (painted builder origin clips solid false view) = true) :
    Reveals rootFrame pixel (builder.mapRedactRegion rootFrame origin false place view []) := by
  induction view using UIView.induct generalizing origin clips solid place with
  | step view subviews ih =>
    cases hdrawn : view.drawn with
    | false => simp [painted, hdrawn, exposed] at hexposed
    | true =>
      cases hredact : builder.mustRedact view with
      | true =>
        have hforce : (false || builder.mustRedact view) = true := hredact
        obtain ⟨honly, hcovers⟩ :=
          redactions hclasses rootFrame (.mk view subviews) origin place hforce
        obtain ⟨front, hfront, hshows⟩ := exists_of_exposed hexposed
        obtain ⟨region, hregion, hrect⟩ := hcovers clips solid false front hfront pixel hshows
        exact reveals_of_redactions honly hregion hrect
      | false =>
        rw [Truthful] at truthful
        rw [Apart] at apart
        obtain ⟨-, hsubviews⟩ := truthful hdrawn hredact
        obtain ⟨-, hapart⟩ := apart hdrawn hredact
        simp only [painted, hdrawn, if_true, exposed, hredact, Bool.or_false, Bool.false_and,
          Bool.false_or] at hexposed
        have happend : ∀ subview ∈ subviews, ∀ origin place earlier redacting, ∃ kept,
            builder.mapRedactRegion rootFrame origin false place subview (earlier ++ redacting) =
              kept ++ builder.mapRedactRegion rootFrame origin false place subview redacting :=
          fun subview _ origin place earlier redacting =>
            mapRedactRegion_append hclasses rootFrame subview false origin place earlier redacting
        have hviews : Reveals rootFrame pixel (builder.mapRedactRegions rootFrame
            (view.origin origin) false place 0 subviews []) := by
          apply reveals_views rootFrame happend ?_ ?_ place 0 hexposed
          · intro subview hsubview place hexposed
            exact ih subview hsubview _ _ _ place (truthful_of_mem hsubviews hsubview)
              (apart_of_mem hapart hsubview) hexposed
          · intro subview hsubview place hides
            exact (harmless_view hclasses rootFrame hroot subview _ _ _ _ place
              (truthful_of_mem hsubviews hsubview) (apart_of_mem hapart hsubview) hides).1
        have hkept : ∀ redacting, Reveals rootFrame pixel (builder.mapRedactRegions rootFrame
            (view.origin origin) false place 0 subviews redacting) := by
          intro redacting
          obtain ⟨kept, hkept⟩ := mapRedactRegions_append rootFrame happend (view.origin origin)
            place 0 redacting []
          rw [List.append_nil] at hkept
          rw [hkept]
          exact hviews.append_left kept
        rw [mapRedactRegion_other hclasses rootFrame hdrawn origin hredact]
        split
        · next hclip =>
          have hclips : view.clipsToBounds = true := (Bool.and_eq_true_iff.mp hclip).1
          have hrect : (view.rect origin).contains pixel = true := by
            obtain ⟨front, hfront, hshows⟩ := exists_of_exposed hexposed
            obtain ⟨subview, -, hpainted⟩ := mem_paintedAll.mp hfront
            have hsub := clips_painted subview hpainted
            rw [if_pos hclips] at hsub
            exact Painted.clips_of_shows hshows (hsub List.mem_cons_self)
          apply (hkept _).append_right
          intro rest hrest
          rw [others_cons (by simp)]
          exact clear_clipBegin place hroot hrect hrest
        · exact hkept _

omit hclasses in
/-- The regions of SwiftUI, which are drawn first, only fill. -/
theorem clear_swiftUI (himage : imageRect.contains pixel = true) {regions : List RedactRegion}
    (h : ∀ region ∈ regions, region.type = .redactSwiftUI) :
    ((behind imageRect regions).inside pixel).Clear := by
  induction regions with
  | nil => exact ⟨himage, List.forall_mem_nil _⟩
  | cons region regions ih =>
    rw [List.forall_mem_cons] at h
    rw [inside_behind_cons (inside_draw_fill (Or.inr h.1))]
    exact ih h.2

end Regions

def labels : UIRedactBuilder := ⟨[], ["UILabel"]⟩

/-- A view of a class with a frame, an opacity and a background. -/
def plainView (name : String) (frame : CGRect) (alpha : ℚ) (backgroundColor : Option ℚ) :
    Properties :=
  ⟨frame, ⟨0, 0⟩, false, alpha, backgroundColor, false, 0, [name, "UIView"], none, false, false,
    false, false⟩

def screen : CGRect := ⟨0, 0, 100, 100⟩

def label : UIView := .mk (plainView "UILabel" ⟨10, 10, 50, 20⟩ 1 none) []

/-- A label in a window. -/
def labelled : UIView := .mk (plainView "UIWindow" screen 1 (some 1)) [label]

/-- The cover is opaque, but fades in with the overlay. -/
def fading : UIView :=
  .mk (plainView "UIWindow" screen 1 (some 1))
    [label, .mk (plainView "UITransitionView" screen (1 / 2) none)
      [.mk (plainView "UIView" screen 1 (some 1)) []]]

end SentryCocoa.Redaction
