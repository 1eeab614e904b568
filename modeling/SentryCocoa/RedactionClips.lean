import SentryCocoa.RedactionMasking

/-! The clips that are in force while the regions are drawn. Each clip that begins should be ended
by the marker of its view, and a region should be drawn in the clips of all views above its own. -/
namespace SentryCocoa.Redaction

/-! The law. -/

/-- The clip without what is clipped out. For each clip that has begun there is its view, and the
clip from before. -/
structure Nesting where
  clip : CGPoint → Bool
  opened : List (List Nat × (CGPoint → Bool))

/-- The frames of the ancestors that clip, for the view at the end of a path. -/
def UIView.clipsAbove : UIView → CGPoint → List Nat → List CGRect
  | _, _, [] => []
  | .mk view subviews, origin, index :: path =>
    match subviews[index]? with
    | none => []
    | some subview =>
      (if view.clipsToBounds then [view.rect origin] else []) ++
        subview.clipsAbove (view.origin origin) path

section Law
variable (imageRect : CGRect)

def Nesting.draw (nesting : Nesting) (region : RedactRegion) : Nesting :=
  match region.type with
  | .clipBegin =>
    ⟨fun pixel => imageRect.contains pixel && region.rect.contains pixel,
      (region.view, nesting.clip) :: nesting.opened⟩
  | .clipEnd =>
    match nesting.opened with
    | [] => nesting
    | (_, clip) :: opened => ⟨clip, opened⟩
  | _ => nesting

def noClips : Nesting := ⟨imageRect.contains, []⟩

/-- The regions that are drawn. -/
def drawnRegions : List RedactRegion → Option RedactRegion → List RedactRegion
  | [], _ => []
  | region :: regions, latestRegion =>
    if isDrawn imageRect latestRegion region then region :: drawnRegions regions (some region)
    else drawnRegions regions (some region)

/-- The marker at the end of a clip is that of the view whose clip began last, and what is filled
or clipped out is so in the clips of the ancestors of its view. -/
def Nesting.Allows (root : UIView) (nesting : Nesting) (region : RedactRegion) : Prop :=
  match region.type with
  | .clipBegin => True
  | .clipEnd => nesting.opened.head?.map Prod.fst = some region.view
  | _ => ∀ pixel, nesting.clip pixel = (imageRect.contains pixel &&
      (root.clipsAbove ⟨0, 0⟩ region.view.reverse).all fun clip => clip.contains pixel)

end Law

structure WellNested (builder : UIRedactBuilder) (view : UIView) : Prop where
  allowed : ∀ before region after,
    drawnRegions view.imageRect (builder.redactRegionsFor view) none =
      before ++ region :: after →
    (before.foldl (Nesting.draw view.imageRect) (noClips view.imageRect)).Allows view.imageRect
      (inOrder view) region
  ended : ((drawnRegions view.imageRect (builder.redactRegionsFor view) none).foldl
    (Nesting.draw view.imageRect) (noClips view.imageRect)).opened = []
  restored : (image builder view).saved = []

/-! The condition. -/

section Condition
variable (builder : UIRedactBuilder)

mutual

/-- Some view is taken for one that covers the whole window. -/
def covers (rootFrame : CGRect) (origin : CGPoint) (forceRedact : Bool) : UIView → Bool
  | .mk view subviews => view.drawn && !(forceRedact || builder.mustRedact view) &&
    (UIRedactBuilder.isOpaque view && view.rect origin = rootFrame ||
      coversAll rootFrame (view.origin origin) forceRedact subviews)

def coversAll (rootFrame : CGRect) (origin : CGPoint) (forceRedact : Bool) : List UIView → Bool
  | [] => false
  | view :: views =>
    covers rootFrame origin forceRedact view || coversAll rootFrame origin forceRedact views

end

mutual

/-- What there is to draw from back to front: a clip with its frame, or something else. -/
def outline (origin : CGPoint) (forceRedact : Bool) : UIView → List (Option CGRect)
  | .mk view subviews =>
    if !view.drawn then []
    else if forceRedact || builder.mustRedact view then
      (if view.shouldRedactSwiftUI then [] else [none]) ++
        if view.clipsToBounds then [] else outlineAll (view.origin origin) true subviews
    else
      (if UIRedactBuilder.isOpaque view then [none] else []) ++
        if view.clipsToBounds && !subviews.isEmpty then [some (view.rect origin)]
        else outlineAll (view.origin origin) forceRedact subviews

def outlineAll (origin : CGPoint) (forceRedact : Bool) : List UIView → List (Option CGRect)
  | [] => []
  | view :: views => outline origin forceRedact view ++ outlineAll origin forceRedact views

end

/-- On the image the nearest clip is inside of all clips. -/
def Fits (imageRect : CGRect) (nearest : Option CGRect) (clips : List CGRect) : Prop :=
  ∀ pixel, imageRect.contains pixel = true →
    (∀ clip ∈ nearest, clip.contains pixel = true) → ∀ clip ∈ clips, clip.contains pixel = true

mutual

/-- What is drawn of a view fits the clips around it, of which the nearest one on the image is in
force. A clip on the image has no cover inside, and neither the first nor the last thing inside of
it is a clip with the same frame. -/
def Tidy (imageRect rootFrame : CGRect) (origin : CGPoint) (clips : List CGRect)
    (nearest : Option CGRect) (forceRedact : Bool) : UIView → Prop
  | .mk view subviews => view.drawn = true →
    if forceRedact || builder.mustRedact view then
      (imageRect.intersects (view.rect origin) = true →
        Fits imageRect (if view.shouldRedactSwiftUI then none else nearest) clips) ∧
      (view.clipsToBounds = false →
        TidyAll imageRect rootFrame (view.origin origin) clips nearest true subviews)
    else
      (UIRedactBuilder.isOpaque view = true → view.rect origin ≠ rootFrame →
        coversAll builder rootFrame (view.origin origin) forceRedact subviews = false →
        imageRect.intersects (view.rect origin) = true → Fits imageRect nearest clips) ∧
      if view.clipsToBounds && !subviews.isEmpty then
        if imageRect.intersects (view.rect origin) then
          coversAll builder rootFrame (view.origin origin) forceRedact subviews = false ∧
          (outlineAll builder (view.origin origin) forceRedact subviews).head? ≠
            some (some (view.rect origin)) ∧
          (outlineAll builder (view.origin origin) forceRedact subviews).getLast? ≠
            some (some (view.rect origin)) ∧
          TidyAll imageRect rootFrame (view.origin origin) (clips ++ [view.rect origin])
            (some (view.rect origin)) forceRedact subviews
        else TidyAll imageRect rootFrame (view.origin origin) (clips ++ [view.rect origin]) nearest
          forceRedact subviews
      else TidyAll imageRect rootFrame (view.origin origin) clips nearest forceRedact subviews

/-- What is behind a cover is not drawn. -/
def TidyAll (imageRect rootFrame : CGRect) (origin : CGPoint) (clips : List CGRect)
    (nearest : Option CGRect) (forceRedact : Bool) : List UIView → Prop
  | [] => True
  | view :: views =>
    (coversAll builder rootFrame origin forceRedact views = false →
      Tidy imageRect rootFrame origin clips nearest forceRedact view) ∧
    TidyAll imageRect rootFrame origin clips nearest forceRedact views

end

end Condition

/-! The order in which the regions are found. -/

section Behind
variable (imageRect : CGRect)

/-- The regions of a list that are drawn, when the last of the list is drawn first. -/
def drawnBehind : List RedactRegion → List RedactRegion
  | [] => []
  | region :: regions =>
    if isDrawn imageRect regions.head? region then region :: drawnBehind regions
    else drawnBehind regions

def nestingAfter (drawn : List RedactRegion) : Nesting :=
  drawn.foldr (fun region nesting => nesting.draw imageRect region) (noClips imageRect)

def nestingBehind (regions : List RedactRegion) : Nesting :=
  nestingAfter imageRect (drawnBehind imageRect regions)

def Lawful (root : UIView) : List RedactRegion → Prop
  | [] => True
  | region :: regions =>
    (nestingAfter imageRect regions).Allows imageRect root region ∧ Lawful root regions

theorem drawnRegions_append (regions : List RedactRegion) (region : RedactRegion)
    (latestRegion : Option RedactRegion) :
    drawnRegions imageRect (regions ++ [region]) latestRegion =
      drawnRegions imageRect regions latestRegion ++
        if isDrawn imageRect (regions.getLast?.or latestRegion) region then [region] else [] := by
  induction regions generalizing latestRegion with
  | nil => rfl
  | cons first regions ih =>
    have hlast : (first :: regions).getLast?.or latestRegion = regions.getLast?.or (some first) := by
      rw [List.getLast?_cons]
      cases regions.getLast? <;> simp
    rw [List.cons_append, drawnRegions, ih, hlast, drawnRegions]
    split
    · rw [List.cons_append]
    · rfl

theorem drawnRegions_reverse (regions : List RedactRegion) :
    drawnRegions imageRect regions.reverse none = (drawnBehind imageRect regions).reverse := by
  induction regions with
  | nil => rfl
  | cons region regions ih =>
    rw [List.reverse_cons, drawnRegions_append, ih, List.getLast?_reverse, Option.or_none,
      drawnBehind]
    split
    · rw [List.reverse_cons]
    · rw [List.append_nil]

theorem foldl_draw_reverse (drawn : List RedactRegion) :
    drawn.reverse.foldl (Nesting.draw imageRect) (noClips imageRect) =
      nestingAfter imageRect drawn := List.foldl_reverse

theorem Lawful.allows {imageRect : CGRect} {root : UIView} {drawn : List RedactRegion}
    (h : Lawful imageRect root drawn) {before after : List RedactRegion} {region : RedactRegion}
    (hsplit : drawn.reverse = before ++ region :: after) :
    (before.foldl (Nesting.draw imageRect) (noClips imageRect)).Allows imageRect root region := by
  have hdrawn : drawn = after.reverse ++ region :: before.reverse := by
    rw [← List.reverse_reverse drawn, hsplit]
    simp
  rw [← List.reverse_reverse before, foldl_draw_reverse]
  rw [hdrawn] at h
  generalize after.reverse = later at h
  clear hdrawn
  induction later with
  | nil => exact h.1
  | cons last later ih => exact ih h.2

/-- The saved clips are those of the clips that have begun. -/
theorem saved_length (regions : List RedactRegion) (latestRegion : Option RedactRegion)
    (context : Context) (nesting : Nesting)
    (h : context.saved.length = nesting.opened.length) :
    (drawRegions imageRect regions latestRegion context).saved.length =
      ((drawnRegions imageRect regions latestRegion).foldl (Nesting.draw imageRect)
        nesting).opened.length := by
  induction regions generalizing latestRegion context nesting with
  | nil => exact h
  | cons region regions ih =>
    rw [drawRegions, drawnRegions]
    split
    · rw [List.foldl_cons]
      apply ih
      obtain ⟨clip, saved, filled⟩ := context
      obtain ⟨clip', opened⟩ := nesting
      cases htype : region.type <;> simp only [Context.draw, Nesting.draw, htype]
      · exact h
      · exact h
      · simpa using h
      · cases saved <;> cases opened <;> simp at h ⊢
        exact h
      · exact h
    · exact ih _ _ _ h

theorem nestingBehind_cons (region : RedactRegion) (regions : List RedactRegion) :
    nestingBehind imageRect (region :: regions) =
      if isDrawn imageRect regions.head? region then
        (nestingBehind imageRect regions).draw imageRect region
      else nestingBehind imageRect regions := by
  unfold nestingBehind
  rw [drawnBehind]
  split
  · rfl
  · rfl

theorem lawful_cons {root : UIView} {region : RedactRegion} {regions : List RedactRegion} :
    Lawful imageRect root (drawnBehind imageRect (region :: regions)) ↔
      (isDrawn imageRect regions.head? region = true →
        (nestingBehind imageRect regions).Allows imageRect root region) ∧
      Lawful imageRect root (drawnBehind imageRect regions) := by
  rw [drawnBehind]
  split
  · next h => simp [Lawful, h, nestingBehind]
  · next h => simp [h]

end Behind

/-! Regions that are drawn in the clip in force. -/

/-- The regions that are drawn behind others leave the nesting as it was, and are drawn as the law
asks, when the clip is the one given and the first of them does not repeat a marker. -/
structure Framed (imageRect : CGRect) (root : UIView) (clip : CGPoint → Bool)
    (regions : List RedactRegion) : Prop where
  head : ∀ rect, imageRect.intersects rect = true →
    startsWith .clipBegin rect regions.head? = false
  run : ∀ rest, (nestingBehind imageRect rest).clip = clip →
    Lawful imageRect root (drawnBehind imageRect rest) →
    (∀ rect, imageRect.intersects rect = true →
      startsWith .clipBegin rect regions.getLast? = true →
      startsWith .clipBegin rect rest.head? = false) →
    Lawful imageRect root (drawnBehind imageRect (regions ++ rest)) ∧
      nestingBehind imageRect (regions ++ rest) = nestingBehind imageRect rest

section Framed
variable {imageRect : CGRect} {root : UIView} {clip : CGPoint → Bool}

theorem Framed.nil : Framed imageRect root clip [] :=
  ⟨fun _ _ => rfl, fun _ _ hrest _ => ⟨hrest, rfl⟩⟩

theorem Framed.append {regions others : List RedactRegion} (h : Framed imageRect root clip regions)
    (h' : Framed imageRect root clip others) : Framed imageRect root clip (regions ++ others) := by
  constructor
  · intro rect hrect
    rw [List.head?_append]
    have hone := h.head rect hrect
    have htwo := h'.head rect hrect
    cases hhead : regions.head? with
    | none => exact htwo
    | some region =>
      rw [hhead] at hone
      exact hone
  · intro rest hclip hrest hlast
    rw [List.append_assoc]
    have hothers := h'.run rest hclip hrest fun rect hrect hbegin => hlast rect hrect (by
      rw [List.getLast?_append]
      cases hend : others.getLast? with
      | none => rw [hend] at hbegin; cases hbegin
      | some region => rwa [hend] at hbegin)
    have hclip' : (nestingBehind imageRect (others ++ rest)).clip = clip := by
      rw [hothers.2, hclip]
    have hregions := h.run (others ++ rest) hclip' hothers.1 fun rect hrect hbegin => by
      cases others with
      | nil =>
        rw [List.append_nil] at hlast
        exact hlast rect hrect hbegin
      | cons other others => exact h'.head rect hrect
    exact ⟨hregions.1, hregions.2.trans hothers.2⟩

/-- A region outside the image is not drawn. -/
theorem Framed.outside {region : RedactRegion} (h : imageRect.intersects region.rect = false) :
    Framed imageRect root clip [region] := by
  constructor
  · intro rect hrect
    by_contra hbegin
    simp [startsWith] at hbegin
    rw [hbegin.1, hrect] at h
    cases h
  · intro rest hclip hrest _
    have hskip : isDrawn imageRect rest.head? region = false := by simp [isDrawn, h]
    rw [List.singleton_append, lawful_cons, nestingBehind_cons, hskip]
    simp [hrest]

/-- What is filled or clipped out, in the clip in force. -/
theorem Framed.region {region : RedactRegion} (hbegin : region.type ≠ .clipBegin)
    (hend : region.type ≠ .clipEnd)
    (h : imageRect.intersects region.rect = true → ∀ pixel, clip pixel =
      (imageRect.contains pixel &&
        (root.clipsAbove ⟨0, 0⟩ region.view.reverse).all fun clip => clip.contains pixel)) :
    Framed imageRect root clip [region] := by
  cases hintersects : imageRect.intersects region.rect with
  | false => exact Framed.outside hintersects
  | true =>
    constructor
    · intro rect _
      simp [startsWith, hbegin]
    · intro rest hclip hrest _
      have hdraw : (nestingBehind imageRect rest).draw imageRect region =
          nestingBehind imageRect rest := by
        unfold Nesting.draw
        split <;> simp_all
      have hallows : (nestingBehind imageRect rest).Allows imageRect root region := by
        have hpixels := h hintersects
        rw [← hclip] at hpixels
        unfold Nesting.Allows
        split
        · trivial
        · next htype => exact absurd htype hend
        · exact hpixels
      rw [List.singleton_append, lawful_cons, nestingBehind_cons, hdraw, ite_self]
      exact ⟨⟨fun _ => hallows, hrest⟩, rfl⟩

/-- A clip on the image, of which no marker is skipped. -/
theorem Framed.clipped {rect : CGRect} (view : List Nat) {inner : List RedactRegion}
    (h : Framed imageRect root (fun pixel => imageRect.contains pixel && rect.contains pixel) inner)
    (hintersects : imageRect.intersects rect = true)
    (hhead : startsWith .clipEnd rect inner.head? = false)
    (hlast : startsWith .clipBegin rect inner.getLast? = false) :
    Framed imageRect root clip (clipped rect view inner) := by
  constructor
  · intro rect _
    simp [Redaction.clipped, startsWith]
  · intro rest hclip hrest hrepeat
    have hbegin : isDrawn imageRect rest.head? ⟨rect, .clipBegin, view⟩ = true := by
      have hlast' : startsWith .clipBegin rect (Redaction.clipped rect view inner).getLast? = true := by
        rw [Redaction.clipped, ← List.cons_append, List.getLast?_concat]
        simp [startsWith]
      simp [isDrawn_eq, hrepeat rect hintersects hlast', hintersects]
    have hopened : nestingBehind imageRect (⟨rect, .clipBegin, view⟩ :: rest) =
        ⟨fun pixel => imageRect.contains pixel && rect.contains pixel,
          (view, (nestingBehind imageRect rest).clip) ::
            (nestingBehind imageRect rest).opened⟩ := by
      rw [nestingBehind_cons, hbegin]
      rfl
    have hbegun : Lawful imageRect root
        (drawnBehind imageRect (⟨rect, .clipBegin, view⟩ :: rest)) := by
      rw [lawful_cons]
      exact ⟨fun _ => trivial, hrest⟩
    have hinner := h.run (⟨rect, .clipBegin, view⟩ :: rest) (by rw [hopened]) hbegun (by
      intro other _ hother
      by_contra hsame
      simp [startsWith] at hsame
      rw [← hsame, hlast] at hother
      cases hother)
    have hend : isDrawn imageRect (inner ++ ⟨rect, .clipBegin, view⟩ :: rest).head?
        ⟨rect, .clipEnd, view⟩ = true := by
      rw [isDrawn_eq, hintersects, Bool.and_true, Bool.not_eq_true', List.head?_append]
      cases hfirst : inner.head? with
      | none => simp [startsWith]
      | some first =>
        rw [hfirst] at hhead
        exact hhead
    have happend : Redaction.clipped rect view inner ++ rest =
        ⟨rect, .clipEnd, view⟩ :: (inner ++ ⟨rect, .clipBegin, view⟩ :: rest) := by
      simp [Redaction.clipped]
    rw [happend, lawful_cons, nestingBehind_cons, hend, hinner.2, hopened]
    exact ⟨⟨fun _ => rfl, hinner.1⟩, rfl⟩

end Framed

/-! What is found of a tree. -/

section Found
variable {builder : UIRedactBuilder} (rootFrame : CGRect)

theorem coversAll_eq_false {views : List UIView} {origin : CGPoint} {forceRedact : Bool} :
    coversAll builder rootFrame origin forceRedact views = false ↔
      ∀ view ∈ views, covers builder rootFrame origin forceRedact view = false := by
  induction views with
  | nil => simp [coversAll]
  | cons view views ih => simp [coversAll, ih]

theorem clears_views {views : List UIView} {origin : CGPoint} {forceRedact : Bool}
    (h : ∀ view ∈ views, covers builder rootFrame origin forceRedact view = true →
      ∀ place redacting, builder.mapRedactRegion rootFrame origin forceRedact place view redacting =
        builder.mapRedactRegion rootFrame origin forceRedact place view [])
    (hcovers : coversAll builder rootFrame origin forceRedact views = true)
    (place : List Nat) (index : Nat) (redacting : List RedactRegion) :
    builder.mapRedactRegions rootFrame origin forceRedact place index views redacting =
      builder.mapRedactRegions rootFrame origin forceRedact place index views [] := by
  induction views generalizing index redacting with
  | nil => cases hcovers
  | cons view views ih =>
    rw [List.forall_mem_cons] at h
    rw [mapRedactRegions_cons, mapRedactRegions_cons]
    cases hlater : coversAll builder rootFrame origin forceRedact views with
    | true => rw [ih h.2 hlater, ih h.2 hlater (index + 1) (builder.mapRedactRegion _ _ _ _ _ [])]
    | false =>
      rw [coversAll, hlater, Bool.or_false] at hcovers
      rw [h.1 hcovers]

variable (hclasses : builder.redactClassesIdentifiers ≠ [])
include hclasses

/-- A cover leaves nothing of what was found before. -/
theorem clears_view (view : UIView) (origin : CGPoint) (forceRedact : Bool)
    (hcovers : covers builder rootFrame origin forceRedact view = true) (place : List Nat)
    (redacting : List RedactRegion) :
    builder.mapRedactRegion rootFrame origin forceRedact place view redacting =
      builder.mapRedactRegion rootFrame origin forceRedact place view [] := by
  induction view using UIView.induct generalizing origin forceRedact place redacting with
  | step view subviews ih =>
    simp only [covers, Bool.and_eq_true, Bool.or_eq_true, Bool.not_eq_true', decide_eq_true_eq,
      Bool.or_eq_false_iff] at hcovers
    obtain ⟨⟨hdrawn, rfl, hother⟩, hcover⟩ := hcovers
    simp only [mapRedactRegion_other hclasses rootFrame hdrawn origin hother]
    rcases hcover with ⟨hcovering, hroot⟩ | hinside
    · simp [background, hcovering, hroot]
    · have hviews : ∀ redacting, builder.mapRedactRegions rootFrame (view.origin origin) false place
          0 subviews redacting = builder.mapRedactRegions rootFrame (view.origin origin) false place
          0 subviews [] := clears_views rootFrame (fun subview hsubview hcovers place redacting =>
            ih subview hsubview _ false hcovers place redacting) hinside place 0
      rw [hviews, hviews (background _ _ _ _ _),
        hviews (background rootFrame view origin place [] ++ _),
        hviews (background rootFrame view origin place [])]

theorem keeps_view (view : UIView) (origin : CGPoint) (forceRedact : Bool)
    (hkeeps : covers builder rootFrame origin forceRedact view = false) (place : List Nat)
    (redacting : List RedactRegion) :
    builder.mapRedactRegion rootFrame origin forceRedact place view redacting =
      redacting ++ builder.mapRedactRegion rootFrame origin forceRedact place view [] := by
  induction view using UIView.induct generalizing origin forceRedact place redacting with
  | step view subviews ih =>
    cases hdrawn : view.drawn with
    | false => simp [mapRedactRegion_hidden rootFrame hdrawn]
    | true =>
      cases hredact : forceRedact || builder.mustRedact view with
      | true =>
        simp only [mapRedactRegion_redact hclasses rootFrame hdrawn _ hredact]
        split
        · rfl
        · rw [mapRedactRegions_forced hclasses,
            mapRedactRegions_forced hclasses _ _ _ _ _ ([] ++ _), List.nil_append,
            List.append_assoc]
      | false =>
        rw [covers, hdrawn, hredact, Bool.not_false, Bool.and_self, Bool.true_and,
          Bool.or_eq_false_iff, coversAll_eq_false] at hkeeps
        obtain ⟨hroot, hinside⟩ := hkeeps
        rw [Bool.or_eq_false_iff] at hredact
        obtain ⟨rfl, hother⟩ := hredact
        have hviews : ∀ redacting, builder.mapRedactRegions rootFrame (view.origin origin) false
            place 0 subviews redacting = redacting ++ builder.mapRedactRegions rootFrame
            (view.origin origin) false place 0 subviews [] :=
          mapRedactRegions_eq rootFrame (fun subview hsubview place redacting =>
            ih subview hsubview _ false (hinside subview hsubview) place redacting) place 0
        have hback : background rootFrame view origin place redacting =
            redacting ++ background rootFrame view origin place [] := by
          unfold background
          split
          · next hcovering =>
            rw [hcovering, Bool.true_and, decide_eq_false_iff_not] at hroot
            simp [hroot]
          · rw [List.append_nil]
        simp only [mapRedactRegion_other hclasses rootFrame hdrawn origin hother]
        split
        · rw [hviews, hviews (background rootFrame view origin place [] ++ _), hback]
          simp
        · rw [hviews, hviews (background rootFrame view origin place []), hback]
          simp

theorem mapRedactRegions_cases {views : List UIView} {origin : CGPoint} {forceRedact : Bool}
    (place : List Nat) (index : Nat) (redacting : List RedactRegion) :
    builder.mapRedactRegions rootFrame origin forceRedact place index views redacting =
      if coversAll builder rootFrame origin forceRedact views then
        builder.mapRedactRegions rootFrame origin forceRedact place index views []
      else redacting ++
        builder.mapRedactRegions rootFrame origin forceRedact place index views [] := by
  split
  · next hcovers =>
    exact clears_views rootFrame (fun view _ hcovers place redacting =>
      clears_view rootFrame hclasses view _ _ hcovers place redacting) hcovers place index redacting
  · next hcovers =>
    rw [Bool.not_eq_true, coversAll_eq_false] at hcovers
    exact mapRedactRegions_eq rootFrame (fun view hview place redacting =>
      keeps_view rootFrame hclasses view _ _ (hcovers view hview) place redacting) place index
      redacting

theorem mapRedactRegion_uncovered {view : Properties} {origin : CGPoint} {place : List Nat}
    {subviews : List UIView} (hdrawn : view.drawn = true) (hother : builder.mustRedact view = false)
    (hinside : coversAll builder rootFrame (view.origin origin) false subviews = false) :
    builder.mapRedactRegion rootFrame origin false place (.mk view subviews) [] =
      background rootFrame view origin place [] ++
        if view.clipsToBounds && !subviews.isEmpty then
          clipped (view.rect origin) place
            (builder.mapRedactRegions rootFrame (view.origin origin) false place 0 subviews [])
        else builder.mapRedactRegions rootFrame (view.origin origin) false place 0 subviews [] := by
  rw [mapRedactRegion_other hclasses rootFrame hdrawn origin hother]
  split
  · rw [mapRedactRegions_cases rootFrame hclasses, hinside]
    simp [clipped]
  · rw [mapRedactRegions_cases rootFrame hclasses, hinside]
    simp

/-! The first and the last region. -/

/-- The frame of a marker. -/
def markerFrame (type : RedactRegionType) (region : RedactRegion) : Option CGRect :=
  if region.type = type then some region.rect else none

/-- The ends of the regions are those of the outline. -/
structure Outlined (outline : List (Option CGRect)) (regions : List RedactRegion) : Prop where
  first : regions.head?.map (markerFrame .clipEnd) = outline.head?
  last : regions.getLast?.map (markerFrame .clipBegin) = outline.getLast?

omit hclasses in
theorem Outlined.append {outline outline' : List (Option CGRect)}
    {regions regions' : List RedactRegion} (h : Outlined outline regions)
    (h' : Outlined outline' regions') : Outlined (outline ++ outline') (regions ++ regions') := by
  constructor
  · rw [List.head?_append, List.head?_append, Option.map_or, h.first, h'.first]
  · rw [List.getLast?_append, List.getLast?_append, Option.map_or, h.last, h'.last]

omit hclasses in
theorem Outlined.single {region : RedactRegion} (hbegin : region.type ≠ .clipBegin)
    (hend : region.type ≠ .clipEnd) : Outlined [none] [region] := by
  constructor
  · simp [markerFrame, hend]
  · simp [markerFrame, hbegin]

omit hclasses in
theorem Outlined.clipped (rect : CGRect) (view : List Nat) (inner : List RedactRegion) :
    Outlined [some rect] (clipped rect view inner) := by
  constructor
  · simp [Redaction.clipped, markerFrame]
  · rw [Redaction.clipped, ← List.cons_append, List.getLast?_concat]
    simp [markerFrame]

omit hclasses in
theorem startsWith_of_marker {type : RedactRegionType} {rect : CGRect}
    {region : Option RedactRegion} {frame : Option (Option CGRect)}
    (hmarker : region.map (markerFrame type) = frame) (h : frame ≠ some (some rect)) :
    startsWith type rect region = false := by
  rw [← hmarker] at h
  cases region with
  | none => rfl
  | some region =>
    by_contra hstarts
    simp [startsWith] at hstarts
    simp [markerFrame, hstarts] at h

omit hclasses in
theorem outlined_redaction (view : Properties) (origin : CGPoint) (place : List Nat) :
    Outlined (if view.shouldRedactSwiftUI then [] else [none])
      (others [redaction view origin place]) := by
  cases hswiftUI : view.shouldRedactSwiftUI with
  | true =>
    have hnone : others [redaction view origin place] = [] := by simp [others, redaction, hswiftUI]
    rw [hnone]
    exact ⟨rfl, rfl⟩
  | false =>
    have hone : others [redaction view origin place] = [redaction view origin place] := by
      simp [others, redaction, hswiftUI]
    rw [hone]
    apply Outlined.single <;> simp [redaction, hswiftUI]

omit hclasses in
theorem outlined_views {views : List UIView} {origin : CGPoint} {forceRedact : Bool}
    (hkeeps : ∀ view ∈ views, ∀ place redacting,
      builder.mapRedactRegion rootFrame origin forceRedact place view redacting =
        redacting ++ builder.mapRedactRegion rootFrame origin forceRedact place view [])
    (h : ∀ view ∈ views, ∀ place, Outlined (outline builder origin forceRedact view)
      (others (builder.mapRedactRegion rootFrame origin forceRedact place view [])))
    (place : List Nat) (index : Nat) :
    Outlined (outlineAll builder origin forceRedact views)
      (others (builder.mapRedactRegions rootFrame origin forceRedact place index views [])) := by
  induction views generalizing index with
  | nil =>
    rw [mapRedactRegions_nil]
    exact ⟨rfl, rfl⟩
  | cons view views ih =>
    rw [mapRedactRegions_cons, mapRedactRegions_eq rootFrame fun view hview =>
      hkeeps view (List.mem_cons_of_mem _ hview), others_append, outlineAll]
    rw [List.forall_mem_cons] at hkeeps h
    exact (h.1 (index :: place)).append (ih hkeeps.2 h.2 (index + 1))

/-- Without a cover the outline has the first and the last region that are found. -/
theorem outlined_view (view : UIView) (origin : CGPoint) (forceRedact : Bool)
    (hkeeps : covers builder rootFrame origin forceRedact view = false) (place : List Nat) :
    Outlined (outline builder origin forceRedact view)
      (others (builder.mapRedactRegion rootFrame origin forceRedact place view [])) := by
  induction view using UIView.induct generalizing origin forceRedact place with
  | step view subviews ih =>
    cases hdrawn : view.drawn with
    | false =>
      rw [mapRedactRegion_hidden rootFrame hdrawn]
      simp only [outline, hdrawn]
      exact ⟨rfl, rfl⟩
    | true =>
      cases hredact : forceRedact || builder.mustRedact view with
      | true =>
        have hforced : ∀ subview, covers builder rootFrame (view.origin origin) true subview =
            false := by
          intro subview
          cases subview
          simp [covers]
        rw [mapRedactRegion_redact hclasses rootFrame hdrawn _ hredact]
        simp only [outline, hdrawn, hredact, Bool.not_true, Bool.false_eq_true, if_false, if_true]
        cases view.clipsToBounds with
        | true =>
          simp only [if_true, List.append_nil, List.nil_append]
          exact outlined_redaction view origin place
        | false =>
          simp only [Bool.false_eq_true, if_false]
          rw [mapRedactRegions_forced hclasses, others_append, List.nil_append]
          apply (outlined_redaction view origin place).append
          exact outlined_views rootFrame (fun subview _ place redacting =>
            keeps_view rootFrame hclasses subview _ _ (hforced subview) place redacting)
            (fun subview hsubview place => ih subview hsubview _ _ (hforced subview) place) place 0
      | false =>
        rw [covers, hdrawn, hredact, Bool.not_false, Bool.and_self, Bool.true_and,
          Bool.or_eq_false_iff] at hkeeps
        obtain ⟨hroot, hinside⟩ := hkeeps
        have hnone := (coversAll_eq_false rootFrame).mp hinside
        rw [Bool.or_eq_false_iff] at hredact
        obtain ⟨rfl, hother⟩ := hredact
        have hviews := outlined_views rootFrame (fun subview hsubview place redacting =>
            keeps_view rootFrame hclasses subview _ _ (hnone subview hsubview) place redacting)
          (fun subview hsubview place => ih subview hsubview _ _ (hnone subview hsubview) place)
          place 0
        have hback : Outlined (if UIRedactBuilder.isOpaque view then [none] else [])
            (others (background rootFrame view origin place [])) := by
          unfold background
          cases hcovering : UIRedactBuilder.isOpaque view with
          | false => exact ⟨rfl, rfl⟩
          | true =>
            rw [hcovering, Bool.true_and, decide_eq_false_iff_not] at hroot
            rw [if_pos rfl, if_pos rfl, if_neg hroot, List.nil_append,
              others_cons (by simp)]
            apply Outlined.single <;> simp
        rw [mapRedactRegion_uncovered rootFrame hclasses hdrawn hother hinside, others_append]
        simp only [outline, hdrawn, hother, Bool.not_true, Bool.false_eq_true, if_false,
          Bool.or_self]
        apply hback.append
        cases view.clipsToBounds && !subviews.isEmpty with
        | true =>
          simp only [if_true]
          rw [others_clipped]
          exact Outlined.clipped _ _ _
        | false =>
          simp only [Bool.false_eq_true, if_false]
          exact hviews

/-! Where a view is. -/

/-- The view at a place of the tree, and the clips above it. -/
def Placed (root : UIView) (place : List Nat) (view : UIView) (origin : CGPoint)
    (clips : List CGRect) : Prop :=
  ∀ path, root.clipsAbove ⟨0, 0⟩ (place.reverse ++ path) = clips ++ view.clipsAbove origin path

omit hclasses in
theorem clipsAbove_nil (view : UIView) (origin : CGPoint) : view.clipsAbove origin [] = [] := by
  rw [UIView.clipsAbove]

omit hclasses in
theorem Placed.clips {root view : UIView} {place : List Nat} {origin : CGPoint}
    {clips : List CGRect} (h : Placed root place view origin clips) :
    root.clipsAbove ⟨0, 0⟩ place.reverse = clips := by
  have hend := h []
  rwa [clipsAbove_nil, List.append_nil, List.append_nil] at hend

omit hclasses in
theorem Placed.subview {root : UIView} {place : List Nat} {view : Properties}
    {subviews : List UIView} {origin : CGPoint} {clips : List CGRect}
    (h : Placed root place (.mk view subviews) origin clips) {index : Nat} {subview : UIView}
    (hget : subviews[index]? = some subview) :
    Placed root (index :: place) subview (view.origin origin)
      (clips ++ if view.clipsToBounds then [view.rect origin] else []) := by
  intro path
  rw [List.reverse_cons, List.append_assoc, List.singleton_append, h, UIView.clipsAbove, hget,
    List.append_assoc]

/-! What is drawn of a tree. -/

/-- The clip in force. -/
def inForce (imageRect : CGRect) (nearest : Option CGRect) (pixel : CGPoint) : Bool :=
  imageRect.contains pixel && nearest.all fun clip => clip.contains pixel

omit hclasses in
theorem inForce_eq {imageRect : CGRect} {nearest : Option CGRect} {clips : List CGRect}
    (hnearest : ∀ clip ∈ nearest, clip ∈ clips) (hfits : Fits imageRect nearest clips)
    (pixel : CGPoint) : inForce imageRect nearest pixel =
      (imageRect.contains pixel && clips.all fun clip => clip.contains pixel) := by
  unfold inForce
  cases himage : imageRect.contains pixel with
  | false => rfl
  | true =>
    rw [Bool.true_and, Bool.true_and, Bool.eq_iff_iff, List.all_eq_true]
    cases nearest with
    | none => exact ⟨fun _ => hfits pixel himage (by simp), fun _ => rfl⟩
    | some rect =>
      refine ⟨fun hrect => hfits pixel himage ?_, fun h => h rect (hnearest rect rfl)⟩
      intro clip hclip
      rwa [← Option.some.inj hclip]

/-- The regions are drawn as the law asks, also those of SwiftUI which are moved to the front. -/
structure Sound (imageRect : CGRect) (root : UIView) (nearest : Option CGRect)
    (found : List RedactRegion) : Prop where
  framed : Framed imageRect root (inForce imageRect nearest) (others found)
  swiftUI : ∀ region ∈ found, region.type = .redactSwiftUI →
    imageRect.intersects region.rect = true → ∀ pixel, imageRect.contains pixel =
      (imageRect.contains pixel &&
        (root.clipsAbove ⟨0, 0⟩ region.view.reverse).all fun clip => clip.contains pixel)

section Sound
variable {imageRect : CGRect} {root : UIView} {nearest : Option CGRect}

omit hclasses in
theorem Sound.nil : Sound imageRect root nearest [] :=
  ⟨Framed.nil, fun _ h => (nomatch h)⟩

omit hclasses in
theorem Sound.append {found found' : List RedactRegion} (h : Sound imageRect root nearest found)
    (h' : Sound imageRect root nearest found') : Sound imageRect root nearest (found ++ found') := by
  constructor
  · rw [others_append]
    exact h.framed.append h'.framed
  · intro region hregion
    rcases List.mem_append.mp hregion with hmem | hmem
    · exact h.swiftUI region hmem
    · exact h'.swiftUI region hmem

omit hclasses in
theorem Sound.single {region : RedactRegion} (h : Framed imageRect root (inForce imageRect nearest)
    [region]) (htype : region.type ≠ .redactSwiftUI) : Sound imageRect root nearest [region] := by
  constructor
  · rw [others_cons htype]
    exact h
  · intro other hother hswiftUI
    rw [List.mem_singleton.mp hother] at hswiftUI
    exact absurd hswiftUI htype

omit hclasses in
theorem Sound.clipped {rect : CGRect} {found : List RedactRegion}
    (h : Sound imageRect root (some rect) found) (place : List Nat)
    (hintersects : imageRect.intersects rect = true)
    (hhead : startsWith .clipEnd rect (others found).head? = false)
    (hlast : startsWith .clipBegin rect (others found).getLast? = false) :
    Sound imageRect root nearest (clipped rect place found) := by
  constructor
  · rw [others_clipped]
    exact h.framed.clipped place hintersects hhead hlast
  · intro region hregion hswiftUI
    simp only [Redaction.clipped, List.mem_cons, List.mem_append, List.not_mem_nil, or_false]
      at hregion
    rcases hregion with rfl | hmem | rfl
    · cases hswiftUI
    · exact h.swiftUI region hmem hswiftUI
    · cases hswiftUI

variable {view : Properties} {subviews : List UIView} {origin : CGPoint} {place : List Nat}
  {clips : List CGRect}

omit hclasses in
theorem sound_redaction (hplace : Placed root place (.mk view subviews) origin clips)
    (hnearest : ∀ clip ∈ nearest, clip ∈ clips)
    (hfits : imageRect.intersects (view.rect origin) = true →
      Fits imageRect (if view.shouldRedactSwiftUI then none else nearest) clips) :
    Sound imageRect root nearest [redaction view origin place] := by
  cases hswiftUI : view.shouldRedactSwiftUI with
  | true =>
    rw [hswiftUI, if_pos rfl] at hfits
    constructor
    · have hnone : others [redaction view origin place] = [] := by
        simp [others, redaction, hswiftUI]
      rw [hnone]
      exact Framed.nil
    · intro region hregion _ hintersects pixel
      rw [List.mem_singleton.mp hregion] at hintersects ⊢
      change _ = (_ && (root.clipsAbove ⟨0, 0⟩ place.reverse).all _)
      have hforce := inForce_eq (by simp) (hfits hintersects) pixel
      rw [hplace.clips, ← hforce]
      exact (Bool.and_true _).symm
  | false =>
    rw [hswiftUI, if_neg Bool.false_ne_true] at hfits
    have htype : (redaction view origin place).type = .redact := by simp [redaction, hswiftUI]
    apply Sound.single
    · apply Framed.region
      · simp [htype]
      · simp [htype]
      · intro hintersects pixel
        change _ = (_ && (root.clipsAbove ⟨0, 0⟩ place.reverse).all _)
        rw [hplace.clips]
        exact inForce_eq hnearest (hfits hintersects) pixel
    · simp [htype]

omit hclasses in
theorem sound_background (hplace : Placed root place (.mk view subviews) origin clips)
    (hnearest : ∀ clip ∈ nearest, clip ∈ clips)
    (hfits : UIRedactBuilder.isOpaque view = true → view.rect origin ≠ rootFrame →
      imageRect.intersects (view.rect origin) = true → Fits imageRect nearest clips) :
    Sound imageRect root nearest (background rootFrame view origin place []) := by
  unfold background
  split
  · next hcovering =>
    split
    · exact Sound.nil
    · next hroot =>
      apply Sound.single
      · apply Framed.region
        · simp
        · simp
        · intro hintersects pixel
          change _ = (_ && (root.clipsAbove ⟨0, 0⟩ place.reverse).all _)
          rw [hplace.clips]
          exact inForce_eq hnearest (hfits hcovering hroot hintersects) pixel
      · simp
  · exact Sound.nil

theorem sound_views {views : List UIView} {forceRedact : Bool} (place : List Nat) (index : Nat)
    (h : ∀ view ∈ views.zipIdx index,
      Tidy builder imageRect rootFrame origin clips nearest forceRedact view.1 →
      Sound imageRect root nearest
        (builder.mapRedactRegion rootFrame origin forceRedact (view.2 :: place) view.1 []))
    (tidy : TidyAll builder imageRect rootFrame origin clips nearest forceRedact views) :
    Sound imageRect root nearest
      (builder.mapRedactRegions rootFrame origin forceRedact place index views []) := by
  induction views generalizing index with
  | nil =>
    rw [mapRedactRegions_nil]
    exact Sound.nil
  | cons view views ih =>
    rw [TidyAll] at tidy
    rw [List.zipIdx_cons, List.forall_mem_cons] at h
    have hviews := ih (index + 1) h.2 tidy.2
    rw [mapRedactRegions_cons, mapRedactRegions_cases rootFrame hclasses]
    split
    · exact hviews
    · next hcovers =>
      rw [Bool.not_eq_true] at hcovers
      exact (h.1 (tidy.1 hcovers)).append hviews

theorem sound_view (view : UIView) (origin : CGPoint) (clips : List CGRect)
    (nearest : Option CGRect) (forceRedact : Bool) (place : List Nat)
    (hplace : Placed root place view origin clips) (hnearest : ∀ clip ∈ nearest, clip ∈ clips)
    (tidy : Tidy builder imageRect rootFrame origin clips nearest forceRedact view) :
    Sound imageRect root nearest
      (builder.mapRedactRegion rootFrame origin forceRedact place view []) := by
  induction view using UIView.induct generalizing origin clips nearest forceRedact place with
  | step view subviews ih =>
    cases hdrawn : view.drawn with
    | false =>
      rw [mapRedactRegion_hidden rootFrame hdrawn]
      exact Sound.nil
    | true =>
      rw [Tidy] at tidy
      have htidy := tidy hdrawn
      have hviews : ∀ (nearest' : Option CGRect) (forceRedact : Bool),
          (∀ clip ∈ nearest', clip ∈
            clips ++ if view.clipsToBounds then [view.rect origin] else []) →
          TidyAll builder imageRect rootFrame (view.origin origin)
            (clips ++ if view.clipsToBounds then [view.rect origin] else []) nearest' forceRedact
            subviews →
          Sound imageRect root nearest' (builder.mapRedactRegions rootFrame (view.origin origin)
            forceRedact place 0 subviews []) := by
        intro nearest' forceRedact hnearest' htidy'
        apply sound_views rootFrame hclasses place 0 ?_ htidy'
        intro subview hsubview htidy''
        exact ih subview.1 (List.fst_mem_of_mem_zipIdx hsubview) _ _ nearest' forceRedact _
          (hplace.subview (List.mk_mem_zipIdx_iff_getElem?.mp hsubview)) hnearest' htidy''
      cases hredact : forceRedact || builder.mustRedact view with
      | true =>
        rw [hredact, if_pos rfl] at htidy
        have hown := sound_redaction hplace hnearest htidy.1
        rw [mapRedactRegion_redact hclasses rootFrame hdrawn _ hredact, List.nil_append]
        cases hclips : view.clipsToBounds with
        | true => exact hown
        | false =>
          rw [hclips] at hviews
          simp only [Bool.false_eq_true, if_false, List.append_nil] at hviews ⊢
          rw [mapRedactRegions_forced hclasses]
          exact hown.append (hviews nearest true hnearest (htidy.2 hclips))
      | false =>
        rw [hredact, if_neg Bool.false_ne_true] at htidy
        rw [Bool.or_eq_false_iff] at hredact
        obtain ⟨rfl, hother⟩ := hredact
        obtain ⟨hcovering, hinside⟩ := htidy
        have hempty : subviews.isEmpty = true → ∀ redacting, builder.mapRedactRegions rootFrame
            (view.origin origin) false place 0 subviews redacting = redacting := by
          intro hempty redacting
          rw [List.isEmpty_iff.mp hempty, mapRedactRegions_nil]
        cases hclip : view.clipsToBounds && !subviews.isEmpty with
        | true =>
          have hclips : view.clipsToBounds = true := (Bool.and_eq_true_iff.mp hclip).1
          rw [hclips, if_pos rfl] at hviews
          rw [hclip, if_pos rfl] at hinside
          cases hintersects : imageRect.intersects (view.rect origin) with
          | true =>
            rw [hintersects, if_pos rfl] at hinside
            obtain ⟨hcovers, hhead, hlast, htidy⟩ := hinside
            have hnone := (coversAll_eq_false rootFrame).mp hcovers
            have hinner := hviews (some (view.rect origin)) false
              (fun clip hmem => List.mem_append_right _ (by simp [← Option.some.inj hmem])) htidy
            have houtline := outlined_views rootFrame (fun subview hsubview place redacting =>
                keeps_view rootFrame hclasses subview _ _ (hnone subview hsubview) place redacting)
              (fun subview hsubview place =>
                outlined_view rootFrame hclasses subview _ _ (hnone subview hsubview) place) place 0
            rw [mapRedactRegion_uncovered rootFrame hclasses hdrawn hother hcovers, hclip, if_pos rfl]
            apply (sound_background rootFrame hplace hnearest
              fun htaken hroot => hcovering htaken hroot hcovers).append
            exact hinner.clipped place hintersects (startsWith_of_marker houtline.first hhead)
              (startsWith_of_marker houtline.last hlast)
          | false =>
            rw [hintersects, if_neg Bool.false_ne_true] at hinside
            have hinner := hviews nearest false
              (fun clip hmem => List.mem_append_left _ (hnearest clip hmem)) hinside
            have hbegin : Sound imageRect root nearest [⟨view.rect origin, .clipBegin, place⟩] :=
              Sound.single (Framed.outside hintersects) (by simp)
            have hend : Sound imageRect root nearest [⟨view.rect origin, .clipEnd, place⟩] :=
              Sound.single (Framed.outside hintersects) (by simp)
            cases hcovers : coversAll builder rootFrame (view.origin origin) false subviews with
            | true =>
              rw [mapRedactRegion_other hclasses rootFrame hdrawn origin hother, hclip, if_pos rfl,
                mapRedactRegions_cases rootFrame hclasses, hcovers, if_pos rfl]
              exact hinner.append hbegin
            | false =>
              rw [mapRedactRegion_uncovered rootFrame hclasses hdrawn hother hcovers, hclip,
                if_pos rfl]
              apply (sound_background rootFrame hplace hnearest
                fun htaken hroot => hcovering htaken hroot hcovers).append
              exact hend.append (hinner.append hbegin)
        | false =>
          rw [hclip, if_neg Bool.false_ne_true] at hinside
          have hinner : Sound imageRect root nearest (builder.mapRedactRegions rootFrame
              (view.origin origin) false place 0 subviews []) := by
            cases hclips : view.clipsToBounds with
            | true =>
              rw [hclips, Bool.true_and, Bool.not_eq_false'] at hclip
              rw [hempty hclip]
              exact Sound.nil
            | false =>
              rw [hclips, if_neg Bool.false_ne_true, List.append_nil] at hviews
              exact hviews nearest false hnearest hinside
          cases hcovers : coversAll builder rootFrame (view.origin origin) false subviews with
          | true =>
            rw [mapRedactRegion_other hclasses rootFrame hdrawn origin hother, hclip,
              if_neg Bool.false_ne_true, mapRedactRegions_cases rootFrame hclasses, hcovers,
              if_pos rfl]
            exact hinner
          | false =>
            rw [mapRedactRegion_uncovered rootFrame hclasses hdrawn hother hcovers, hclip,
              if_neg Bool.false_ne_true]
            exact (sound_background rootFrame hplace hnearest
              fun htaken hroot => hcovering htaken hroot hcovers).append hinner

end Sound

end Found

theorem framed_swiftUI {imageRect : CGRect} {root : UIView} {regions : List RedactRegion}
    (h : ∀ region ∈ regions, region.type = .redactSwiftUI ∧
      (imageRect.intersects region.rect = true → ∀ pixel, imageRect.contains pixel =
        (imageRect.contains pixel &&
          (root.clipsAbove ⟨0, 0⟩ region.view.reverse).all fun clip => clip.contains pixel))) :
    Framed imageRect root imageRect.contains regions := by
  induction regions with
  | nil => exact Framed.nil
  | cons region regions ih =>
    rw [List.forall_mem_cons] at h
    obtain ⟨⟨htype, hpixels⟩, hregions⟩ := h
    rw [← List.singleton_append]
    exact (Framed.region (by simp [htype]) (by simp [htype]) hpixels).append (ih hregions)

theorem lawful_redactRegionsFor {builder : UIRedactBuilder} {view : UIView}
    (h : Sound view.imageRect (inOrder view) none
      (builder.mapRedactRegion view.properties.frame ⟨0, 0⟩ false [] (inOrder view) [])) :
    ∃ found, builder.redactRegionsFor view = found.reverse ∧
      Lawful view.imageRect (inOrder view) (drawnBehind view.imageRect found) ∧
      nestingBehind view.imageRect found = noClips view.imageRect := by
  refine ⟨_, rfl, ?_⟩
  generalize builder.mapRedactRegion view.properties.frame ⟨0, 0⟩ false [] (inOrder view) [] =
    found at h
  have hswiftUI : Framed view.imageRect (inOrder view) view.imageRect.contains
      (found.filter fun region => region.type = .redactSwiftUI) := by
    apply framed_swiftUI
    intro region hregion
    obtain ⟨hmem, htype⟩ := List.mem_filter.mp hregion
    rw [decide_eq_true_eq] at htype
    exact ⟨htype, h.swiftUI region hmem htype⟩
  have hstart := hswiftUI.run [] rfl trivial fun _ _ _ => rfl
  rw [List.append_nil] at hstart
  have hclip : (nestingBehind view.imageRect (found.filter fun region =>
      region.type = .redactSwiftUI)).clip = inForce view.imageRect none := by
    rw [hstart.2]
    funext pixel
    exact (Bool.and_true _).symm
  have hothers := h.framed.run _ hclip hstart.1 fun rect hrect _ => hswiftUI.head rect hrect
  exact ⟨hothers.1, hothers.2.trans hstart.2⟩

/-- The clips are well nested when all that is drawn fits the clips around it. -/
theorem wellNested_of_tidy {builder : UIRedactBuilder} {view : UIView}
    (tidy : builder.redactClassesIdentifiers ≠ [] →
      Tidy builder view.imageRect view.properties.frame ⟨0, 0⟩ [] none false (inOrder view)) :
    WellNested builder view := by
  have hsound : Sound view.imageRect (inOrder view) none
      (builder.mapRedactRegion view.properties.frame ⟨0, 0⟩ false [] (inOrder view) []) := by
    by_cases hclasses : builder.redactClassesIdentifiers = []
    · have hnone : builder.mapRedactRegion view.properties.frame ⟨0, 0⟩ false [] (inOrder view)
          [] = [] := by
        cases inOrder view
        simp [UIRedactBuilder.mapRedactRegion, hclasses]
      rw [hnone]
      exact Sound.nil
    · exact sound_view _ hclasses _ _ _ none false [] (fun path => rfl) (by simp) (tidy hclasses)
  obtain ⟨found, hfound, hlawful, hnesting⟩ := lawful_redactRegionsFor hsound
  have hended : ((drawnRegions view.imageRect (builder.redactRegionsFor view) none).foldl
      (Nesting.draw view.imageRect) (noClips view.imageRect)).opened = [] := by
    rw [hfound, drawnRegions_reverse, foldl_draw_reverse]
    change (nestingBehind view.imageRect found).opened = []
    rw [hnesting]
    rfl
  constructor
  · intro before region after hsplit
    rw [hfound, drawnRegions_reverse] at hsplit
    exact hlawful.allows hsplit
  · exact hended
  · have hlength := saved_length view.imageRect (builder.redactRegionsFor view) none
      (emptyContext view.imageRect) (noClips view.imageRect) rfl
    rw [hended] at hlength
    exact List.length_eq_zero_iff.mp hlength

def clippingView (frame : CGRect) : Properties :=
  { plainView "UIView" frame 1 none with clipsToBounds := true }

/-- A label in a clipping view. -/
def clippedLabel : UIView :=
  .mk (plainView "UIWindow" screen 1 (some 1)) [.mk (clippingView ⟨0, 0, 50, 50⟩) [label]]

/-- A label behind a clipping view, both inside of a clipping view with the same frame. -/
def sameFrames : UIView :=
  .mk (plainView "UIWindow" screen 1 (some 1))
    [.mk (clippingView ⟨0, 0, 50, 50⟩) [label, .mk (clippingView ⟨0, 0, 50, 50⟩) [label]]]

theorem wellNested_of_tidy_example : WellNested labels clippedLabel := by
  have hinOrder : inOrder clippedLabel = clippedLabel := rfl
  have hwindow : labels.mustRedact (plainView "UIWindow" screen 1 (some 1)) = false := by
    decide +kernel
  have hroot : (plainView "UIWindow" screen 1 (some 1)).rect ⟨0, 0⟩ = screen := by decide +kernel
  have hclipping : labels.mustRedact (clippingView ⟨0, 0, 50, 50⟩) = false := by decide +kernel
  have hclips : ((clippingView ⟨0, 0, 50, 50⟩).clipsToBounds && !List.isEmpty [label]) = true :=
    rfl
  have hintersects : screen.intersects ((clippingView ⟨0, 0, 50, 50⟩).rect
      ((plainView "UIWindow" screen 1 (some 1)).origin ⟨0, 0⟩)) = true := by decide +kernel
  have hlabel : (false || labels.mustRedact label.properties) = true := by decide +kernel
  apply wellNested_of_tidy
  intro _
  rw [hinOrder]
  intro _
  rw [hwindow]
  refine ⟨fun _ hne => absurd hroot hne, ⟨fun _ _ => ?_, trivial⟩⟩
  rw [hclipping]
  refine ⟨fun hcovering => absurd hcovering (by decide +kernel), ?_⟩
  rw [if_pos hclips]
  refine (if_pos hintersects).mpr ⟨by decide +kernel, by decide +kernel, by decide +kernel,
    ⟨fun _ _ => ?_, trivial⟩⟩
  refine (if_pos hlabel).mpr ⟨fun _ pixel _ hnearest clip hclip => ?_, fun _ => trivial⟩
  rw [List.mem_singleton.mp hclip]
  exact hnearest _ rfl

theorem inner_marker_ends_outer_clip : ¬ WellNested labels sameFrames := by
  intro h
  have hends : some [0] = some [1, 0] := h.allowed
    [⟨⟨0, 0, 50, 50⟩, .clipBegin, [0]⟩, ⟨⟨10, 10, 50, 20⟩, .redact, [0, 1, 0]⟩]
    ⟨⟨0, 0, 50, 50⟩, .clipEnd, [1, 0]⟩
    [⟨⟨10, 10, 50, 20⟩, .redact, [0, 0]⟩, ⟨⟨0, 0, 50, 50⟩, .clipEnd, [0]⟩] (by decide +kernel)
  cases hends

end SentryCocoa.Redaction
