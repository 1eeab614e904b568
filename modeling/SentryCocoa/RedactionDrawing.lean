import SentryCocoa.UIRedactBuilder

/-! The drawing of regions at one pixel. Regions that were found one after the other are drawn in
the opposite order, and a block of them between the markers of a clip leaves the clip as it
was, when both markers are drawn or neither is. -/
namespace SentryCocoa.Redaction

/-- A property of all views follows from a step from the subviews of a view to the view. -/
theorem UIView.induct {motive : UIView → Prop}
    (step : ∀ view subviews, (∀ subview ∈ subviews, motive subview) → motive (.mk view subviews))
    (view : UIView) : motive view :=
  @UIView.rec motive (fun views => ∀ view ∈ views, motive view)
    step (fun _ h => (nomatch h))
    (fun _ _ hhead htail => List.forall_mem_cons.mpr ⟨hhead, htail⟩) view

section Behind
variable (imageRect : CGRect)

/-- The context after all regions of a list, of which the last is drawn first. -/
def behind : List RedactRegion → Context
  | [] => emptyContext imageRect
  | region :: regions =>
    if isDrawn imageRect regions.head? region then (behind regions).draw imageRect region
    else behind regions

theorem drawRegions_append (regions : List RedactRegion) (region : RedactRegion)
    (latestRegion : Option RedactRegion) (context : Context) :
    drawRegions imageRect (regions ++ [region]) latestRegion context =
      if isDrawn imageRect (regions.getLast?.or latestRegion) region then
        (drawRegions imageRect regions latestRegion context).draw imageRect region
      else drawRegions imageRect regions latestRegion context := by
  induction regions generalizing latestRegion context with
  | nil => rfl
  | cons first regions ih =>
    have hlast : (first :: regions).getLast?.or latestRegion = regions.getLast?.or (some first) := by
      rw [List.getLast?_cons]
      cases regions.getLast? <;> simp
    rw [List.cons_append, drawRegions, ih, hlast, drawRegions]

theorem drawRegions_reverse (regions : List RedactRegion) :
    drawRegions imageRect regions.reverse none (emptyContext imageRect) =
      behind imageRect regions := by
  induction regions with
  | nil => rfl
  | cons region regions ih =>
    rw [List.reverse_cons, drawRegions_append, ih, List.getLast?_reverse, Option.or_none, behind]

end Behind

/-! One pixel. -/

/-- Whether the pixel is in the clip, and in the saved ones. -/
structure Inside where
  clip : Bool
  saved : List Bool

def Inside.pop : Inside → Inside
  | ⟨clip, []⟩ => ⟨clip, []⟩
  | ⟨_, clip :: saved⟩ => ⟨clip, saved⟩

def Context.inside (context : Context) (pixel : CGPoint) : Inside :=
  ⟨context.clip pixel, context.saved.map fun clip => clip pixel⟩

section Draw
variable {imageRect : CGRect} {context : Context} {region : RedactRegion} {pixel : CGPoint}

theorem inside_draw_fill (h : region.type = .redact ∨ region.type = .redactSwiftUI) :
    (context.draw imageRect region).inside pixel = context.inside pixel := by
  rcases h with h | h <;> simp [Context.draw, h, Context.inside]

theorem inside_draw_clipOut (h : region.type = .clipOut)
    (hpixel : region.rect.contains pixel = false) :
    (context.draw imageRect region).inside pixel = context.inside pixel := by
  simp [Context.draw, h, Context.inside, hpixel]

theorem inside_draw_clipBegin (h : region.type = .clipBegin) :
    (context.draw imageRect region).inside pixel =
      ⟨imageRect.contains pixel && region.rect.contains pixel,
        context.clip pixel :: (context.inside pixel).saved⟩ := by
  simp [Context.draw, h, Context.inside]

theorem inside_draw_clipEnd (h : region.type = .clipEnd) :
    (context.draw imageRect region).inside pixel = (context.inside pixel).pop := by
  obtain ⟨clip, saved, filled⟩ := context
  cases saved <;> simp [Context.draw, h, Context.inside, Inside.pop]

theorem filled_draw (h : context.filled pixel = true) :
    (context.draw imageRect region).filled pixel = true := by
  unfold Context.draw
  split
  · simp [h]
  · simp [h]
  · exact h
  · exact h
  · split
    · exact h
    · exact h

end Draw

/-! Blocks. -/

/-- The markers of a clip, around the regions that were found inside. -/
def clipped (rect : CGRect) (view : List Nat) (regions : List RedactRegion) : List RedactRegion :=
  ⟨rect, .clipEnd, view⟩ :: (regions ++ [⟨rect, .clipBegin, view⟩])

def startsWith (type : RedactRegionType) (rect : CGRect) (region : Option RedactRegion) : Bool :=
  region.any fun region => region.rect = rect && region.type = type

section Block
variable (imageRect : CGRect) (pixel : CGPoint)

/-- Regions that leave the clip at the pixel as it was. Inside of a clip on the image, there is an
end marker with its frame at the start if and only if there is a begin marker with its frame
at the end. -/
inductive Block : List RedactRegion → Prop where
  | nil : Block []
  | redact {region : RedactRegion} {regions : List RedactRegion}
      (type : region.type = .redact) (rest : Block regions) : Block (region :: regions)
  | clipOut {region : RedactRegion} {regions : List RedactRegion}
      (type : region.type = .clipOut) (outside : region.rect.contains pixel = false)
      (rest : Block regions) : Block (region :: regions)
  | clip {rect : CGRect} {view : List Nat} {inner regions : List RedactRegion}
      (block : Block inner)
      (markers : imageRect.intersects rect = true →
        startsWith .clipEnd rect inner.head? = startsWith .clipBegin rect inner.getLast?)
      (rest : Block regions) : Block (clipped rect view inner ++ regions)

variable {imageRect pixel} {regions rest : List RedactRegion}

theorem Block.append {others : List RedactRegion} (h : Block imageRect pixel regions)
    (h' : Block imageRect pixel others) : Block imageRect pixel (regions ++ others) := by
  induction h with
  | nil => exact h'
  | redact type rest ih => exact .redact type ih
  | clipOut type outside rest ih => exact .clipOut type outside ih
  | clip block markers rest ihInner ihRest =>
    rw [List.append_assoc]
    exact .clip block markers ihRest

/-- A block does not start with the beginning of a clip. -/
theorem Block.head (h : Block imageRect pixel regions) (rect : CGRect) :
    startsWith .clipBegin rect regions.head? = false := by
  cases h with
  | nil => rfl
  | redact type rest => simp [startsWith, type]
  | clipOut type outside rest => simp [startsWith, type]
  | clip block markers rest => simp [startsWith, clipped]

/-- The last region of a block is the marker of a clip that has begun already. -/
def rejoins (imageRect : CGRect) (regions rest : List RedactRegion) : Bool :=
  regions.getLast?.any fun region => region.type = .clipBegin &&
    imageRect.intersects region.rect && startsWith .clipBegin region.rect rest.head?

theorem isDrawn_eq (latestRegion : Option RedactRegion) (region : RedactRegion) :
    isDrawn imageRect latestRegion region =
      (!startsWith region.type region.rect latestRegion && imageRect.intersects region.rect) := rfl

theorem behind_cons (region : RedactRegion) (regions : List RedactRegion) :
    behind imageRect (region :: regions) =
      if !startsWith region.type region.rect regions.head? && imageRect.intersects region.rect then
        (behind imageRect regions).draw imageRect region
      else behind imageRect regions := by
  rw [behind, isDrawn_eq]

theorem pop_push (clip : Bool) (context : Context) :
    (⟨clip, context.clip pixel :: (context.inside pixel).saved⟩ : Inside).pop =
      context.inside pixel := rfl

/-- One of the two ends of a clip is skipped with its beginning. -/
theorem inside_clipped {rect : CGRect} {inner : List RedactRegion} (view : List Nat)
    (hinner : ∀ rest, (behind imageRect (inner ++ rest)).inside pixel =
      if rejoins imageRect inner rest then ((behind imageRect rest).inside pixel).pop
      else (behind imageRect rest).inside pixel)
    (markers : imageRect.intersects rect = true →
      startsWith .clipEnd rect inner.head? = startsWith .clipBegin rect inner.getLast?)
    (rest : List RedactRegion) :
    (behind imageRect (clipped rect view inner ++ rest)).inside pixel =
      if imageRect.intersects rect && startsWith .clipBegin rect rest.head? then
        ((behind imageRect rest).inside pixel).pop
      else (behind imageRect rest).inside pixel := by
  have happend : clipped rect view inner ++ rest =
      ⟨rect, .clipEnd, view⟩ :: (inner ++ ⟨rect, .clipBegin, view⟩ :: rest) := by
    simp [clipped]
  have hbegin : behind imageRect (⟨rect, .clipBegin, view⟩ :: rest) = _ := behind_cons _ _
  have hrejoins : rejoins imageRect inner (⟨rect, .clipBegin, view⟩ :: rest) =
      (imageRect.intersects rect && startsWith .clipBegin rect inner.getLast?) := by
    unfold rejoins startsWith
    cases inner.getLast? with
    | none => simp
    | some last =>
      by_cases hrect : last.rect = rect
      · simp [hrect, Bool.and_comm]
      · simp [hrect, Ne.symm hrect]
  have hhead : startsWith .clipEnd rect (inner ++ ⟨rect, .clipBegin, view⟩ :: rest).head? =
      startsWith .clipEnd rect inner.head? := by
    cases inner with
    | nil => simp [startsWith]
    | cons first inner => rfl
  rw [happend, behind_cons, hhead]
  have hend := hinner (⟨rect, .clipBegin, view⟩ :: rest)
  rw [hrejoins] at hend
  cases hintersects : imageRect.intersects rect with
  | false =>
    rw [hintersects, Bool.and_false] at hbegin
    rw [hintersects, Bool.false_and] at hend
    simp [hend, hbegin]
  | true =>
    rw [hintersects, Bool.and_true] at hbegin
    rw [hintersects, Bool.true_and] at hend
    rw [markers hintersects, Bool.and_true, Bool.true_and]
    have hpopped : (behind imageRect (⟨rect, .clipBegin, view⟩ :: rest)).inside pixel =
        if startsWith .clipBegin rect rest.head? then (behind imageRect rest).inside pixel
        else ⟨imageRect.contains pixel && rect.contains pixel,
          (behind imageRect rest).clip pixel :: ((behind imageRect rest).inside pixel).saved⟩ := by
      rw [hbegin]
      cases startsWith .clipBegin rect rest.head? with
      | true => rfl
      | false =>
        have htype : (⟨rect, .clipBegin, view⟩ : RedactRegion).type = .clipBegin := rfl
        exact inside_draw_clipBegin htype
    have hone : (if startsWith .clipBegin rect inner.getLast? = true then
          behind imageRect (inner ++ ⟨rect, .clipBegin, view⟩ :: rest)
        else (behind imageRect (inner ++ ⟨rect, .clipBegin, view⟩ :: rest)).draw imageRect
          ⟨rect, .clipEnd, view⟩).inside pixel =
        ((behind imageRect (⟨rect, .clipBegin, view⟩ :: rest)).inside pixel).pop := by
      cases hlast : startsWith .clipBegin rect inner.getLast? with
      | true => simp [hend, hlast]
      | false => simp [inside_draw_clipEnd, hend, hlast]
    have hswap : ∀ c : Bool, ∀ first second : Context,
        (if (!c) = true then first else second) = if c = true then second else first := by
      intro c first second
      cases c <;> rfl
    rw [hswap, hone, hpopped]
    cases startsWith .clipBegin rect rest.head? with
    | true => rfl
    | false => exact pop_push _ _

theorem rejoins_cons {region : RedactRegion} (h : region.type ≠ .clipBegin) :
    rejoins imageRect (region :: regions) rest = rejoins imageRect regions rest := by
  unfold rejoins
  rw [List.getLast?_cons]
  cases regions.getLast? with
  | none => simp [h]
  | some last => simp

theorem rejoins_append {others : List RedactRegion} (h : others ≠ []) :
    rejoins imageRect (regions ++ others) rest = rejoins imageRect others rest := by
  unfold rejoins
  rw [List.getLast?_append]
  cases hlast : others.getLast? with
  | none => exact absurd (List.getLast?_eq_none_iff.mp hlast) h
  | some last => simp

theorem rejoins_clipped (rect : CGRect) (view : List Nat) :
    rejoins imageRect (clipped rect view regions) rest =
      (imageRect.intersects rect && startsWith .clipBegin rect rest.head?) := by
  have hlast : (clipped rect view regions).getLast? = some ⟨rect, .clipBegin, view⟩ := by
    rw [clipped, ← List.cons_append, List.getLast?_concat]
  rw [rejoins, hlast]
  simp

theorem inside_behind_cons {region : RedactRegion}
    (h : ((behind imageRect regions).draw imageRect region).inside pixel =
      (behind imageRect regions).inside pixel) :
    (behind imageRect (region :: regions)).inside pixel =
      (behind imageRect regions).inside pixel := by
  rw [behind_cons]
  split
  · exact h
  · rfl

theorem Block.inside (h : Block imageRect pixel regions) (rest : List RedactRegion) :
    (behind imageRect (regions ++ rest)).inside pixel =
      if rejoins imageRect regions rest then ((behind imageRect rest).inside pixel).pop
      else (behind imageRect rest).inside pixel := by
  induction h generalizing rest with
  | nil => rfl
  | redact type block ih =>
    rw [List.cons_append, inside_behind_cons (inside_draw_fill (Or.inl type)),
      rejoins_cons (by simp [type])]
    exact ih rest
  | clipOut type outside block ih =>
    rw [List.cons_append, inside_behind_cons (inside_draw_clipOut type outside),
      rejoins_cons (by simp [type])]
    exact ih rest
  | @clip rect view inner others block markers blockRest ihInner ihRest =>
    rw [List.append_assoc, inside_clipped view ihInner markers]
    cases others with
    | nil =>
      rw [List.nil_append, List.append_nil, rejoins_clipped]
    | cons first others =>
      have hhead : startsWith .clipBegin rect (first :: others ++ rest).head? = false :=
        blockRest.head rect
      rw [hhead, Bool.and_false, rejoins_append (by simp)]
      exact ihRest rest

/-- Inside the clip and all that are saved. -/
def Inside.Clear (inside : Inside) : Prop := inside.clip = true ∧ ∀ clip ∈ inside.saved, clip = true

theorem Inside.Clear.pop {inside : Inside} (h : inside.Clear) : inside.pop.Clear := by
  obtain ⟨clip, saved⟩ := inside
  cases saved with
  | nil => exact h
  | cons first saved => exact List.forall_mem_cons.mp h.2

theorem Block.clear (h : Block imageRect pixel regions)
    (hclear : ((behind imageRect rest).inside pixel).Clear) :
    ((behind imageRect (regions ++ rest)).inside pixel).Clear := by
  rw [h.inside rest]
  split
  · exact hclear.pop
  · exact hclear

/-- A clip begins around the pixel. -/
theorem clear_clipBegin {rect : CGRect} (view : List Nat) (himage : imageRect.contains pixel = true)
    (hrect : rect.contains pixel = true)
    (hclear : ((behind imageRect rest).inside pixel).Clear) :
    ((behind imageRect (⟨rect, .clipBegin, view⟩ :: rest)).inside pixel).Clear := by
  have htype : (⟨rect, .clipBegin, view⟩ : RedactRegion).type = .clipBegin := rfl
  rw [behind_cons]
  split
  · rw [inside_draw_clipBegin htype, himage, hrect]
    exact ⟨rfl, List.forall_mem_cons.mpr hclear⟩
  · exact hclear

theorem filled_append (h : (behind imageRect rest).filled pixel = true) :
    (behind imageRect (regions ++ rest)).filled pixel = true := by
  induction regions with
  | nil => exact h
  | cons region regions ih =>
    rw [List.cons_append, behind_cons]
    split
    · exact filled_draw ih
    · exact ih

/-- A redaction that repeats the one before it would fill the same pixels. -/
theorem filled_cons {region : RedactRegion}
    (htype : region.type = .redact ∨ region.type = .redactSwiftUI)
    (himage : imageRect.contains pixel = true) (hrect : region.rect.contains pixel = true)
    (hclip : (behind imageRect regions).clip pixel = true) :
    (behind imageRect (region :: regions)).filled pixel = true := by
  have hintersects : imageRect.intersects region.rect = true :=
    CGRect.intersects_of_contains himage hrect
  have hfill : ((behind imageRect regions).draw imageRect region).filled pixel = true := by
    rcases htype with htype | htype <;> simp [Context.draw, htype, hclip, hrect]
  rw [behind_cons, hintersects, Bool.and_true]
  cases hrepeats : startsWith region.type region.rect regions.head? with
  | false => exact hfill
  | true =>
    change (behind imageRect regions).filled pixel = true
    induction regions generalizing region with
    | nil => cases hrepeats
    | cons latest regions ih =>
      simp [startsWith] at hrepeats
      rw [← hrepeats.1] at hrect hintersects
      rw [← hrepeats.2] at htype
      have hsame : (behind imageRect (latest :: regions)).inside pixel =
          (behind imageRect regions).inside pixel := inside_behind_cons (inside_draw_fill htype)
      have hclip' : (behind imageRect regions).clip pixel = true := by
        rw [← hclip]
        exact (congrArg Inside.clip hsame).symm
      have hfill' : ((behind imageRect regions).draw imageRect latest).filled pixel = true := by
        rcases htype with htype | htype <;> simp [Context.draw, htype, hclip', hrect]
      rw [behind_cons, hintersects, Bool.and_true]
      cases hlatest : startsWith latest.type latest.rect regions.head? with
      | false => exact hfill'
      | true => exact ih htype hrect hclip' hintersects hfill' hlatest

end Block

end SentryCocoa.Redaction
