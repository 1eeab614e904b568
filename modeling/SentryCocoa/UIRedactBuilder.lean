import Mathlib.Algebra.Order.Ring.Rat
import Mathlib.Data.List.Sort

/-! The masking of screenshots. A tree of views becomes a list of regions, and the photographer
draws them over the image. The layers have no transforms, so that regions are rectangles. -/
namespace SentryCocoa.Redaction

structure CGPoint where
  x : ℚ
  y : ℚ

structure CGRect where
  x : ℚ
  y : ℚ
  width : ℚ
  height : ℚ
  deriving DecidableEq

namespace CGRect

def contains (rect : CGRect) (point : CGPoint) : Bool :=
  rect.x ≤ point.x && point.x < rect.x + rect.width &&
    rect.y ≤ point.y && point.y < rect.y + rect.height

def intersects (rect other : CGRect) : Bool :=
  rect.x < other.x + other.width && other.x < rect.x + rect.width &&
    rect.y < other.y + other.height && other.y < rect.y + rect.height

theorem intersects_of_contains {rect other : CGRect} {point : CGPoint}
    (h : rect.contains point = true) (h' : other.contains point = true) :
    rect.intersects other = true := by
  simp only [contains, Bool.and_eq_true, decide_eq_true_eq] at h h'
  simp only [intersects, Bool.and_eq_true, decide_eq_true_eq]
  obtain ⟨⟨⟨hleft, hright⟩, htop⟩, hbottom⟩ := h
  obtain ⟨⟨⟨hleft', hright'⟩, htop'⟩, hbottom'⟩ := h'
  exact ⟨⟨⟨hleft.trans_lt hright', hleft'.trans_lt hright⟩, htop.trans_lt hbottom'⟩,
    htop'.trans_lt hbottom⟩

end CGRect

/-! Views. -/

structure UIImage where
  width : ℚ
  height : ℚ
  /-- The image is part of a bundle. -/
  containingBundle : Bool

/-- What is read of a view and its layer. The frame is in the coordinates of the superview, of a
color only the alpha is kept, and the classes are the one of the view and those above it. -/
structure Properties where
  frame : CGRect
  boundsOrigin : CGPoint
  isHidden : Bool
  alpha : ℚ
  backgroundColor : Option ℚ
  clipsToBounds : Bool
  zPosition : ℚ
  classes : List String
  image : Option UIImage
  shouldMaskView : Bool
  shouldUnmask : Bool
  shouldClipOut : Bool
  shouldRedactSwiftUI : Bool

inductive UIView where
  | mk (properties : Properties) (subviews : List UIView)

def UIView.properties : UIView → Properties
  | mk properties _ => properties

/-- Where a view is in the window, when the bounds of its superview start at the origin. -/
def Properties.rect (view : Properties) (origin : CGPoint) : CGRect :=
  ⟨origin.x + view.frame.x, origin.y + view.frame.y, view.frame.width, view.frame.height⟩

/-- Where the coordinates of the subviews start. -/
def Properties.origin (view : Properties) (origin : CGPoint) : CGPoint :=
  ⟨(view.rect origin).x - view.boundsOrigin.x, (view.rect origin).y - view.boundsOrigin.y⟩

/-- A view that is drawn with its subviews. -/
def Properties.drawn (view : Properties) : Bool := !view.isHidden && view.alpha != 0

mutual

/-- The subviews at all levels in the order in which they are drawn and visited. -/
def inOrder : UIView → UIView
  | .mk view subviews => .mk view ((inOrderAll subviews).insertionSort fun first second =>
      first.properties.zPosition ≤ second.properties.zPosition)

def inOrderAll : List UIView → List UIView
  | [] => []
  | view :: views => inOrder view :: inOrderAll views

end

/-! `UIRedactBuilder`. -/

inductive RedactRegionType where
  | redact | clipOut | clipBegin | clipEnd | redactSwiftUI
  deriving DecidableEq

/-- The place of the view in the tree is not part of a region in the program. It tells apart
regions that look the same, and nothing below reads it. -/
structure RedactRegion where
  rect : CGRect
  type : RedactRegionType
  view : List Nat
  deriving DecidableEq

def RedactRegion.canReplace (region other : RedactRegion) : Bool :=
  region.rect = other.rect && region.type = other.type

structure UIRedactBuilder where
  ignoreClassesIdentifiers : List String
  redactClassesIdentifiers : List String

namespace UIRedactBuilder
variable (builder : UIRedactBuilder)

def containsIgnoreClass (ignoreClass : String) : Bool :=
  builder.ignoreClassesIdentifiers.contains ignoreClass

/-- The classes below `UIView` are looked up. -/
def containsRedactClass (classes : List String) : Bool :=
  (classes.takeWhile (· != "UIView")).any builder.redactClassesIdentifiers.contains

def shouldIgnore (view : Properties) : Bool :=
  view.shouldUnmask || view.classes.head?.any builder.containsIgnoreClass

/-- Small images, and those of bundles, are not redacted. -/
def shouldRedactImage (image : Option UIImage) : Bool :=
  image.any fun image => 10 < image.width && 10 < image.height && !image.containingBundle

def shouldRedact (view : Properties) : Bool :=
  if view.shouldMaskView then true
  else if view.classes.contains "UIImageView" &&
      builder.containsRedactClass ["UIImageView", "UIView"] then shouldRedactImage view.image
  else builder.containsRedactClass view.classes

def isOpaque (view : Properties) : Bool :=
  view.shouldClipOut || (view.alpha == 1 && view.backgroundColor == some 1)

variable (rootFrame : CGRect)

mutual

/-- The regions are found from back to front, so that the end of a clip comes first. -/
def mapRedactRegion (origin : CGPoint) (forceRedact : Bool) (place : List Nat) :
    UIView → List RedactRegion → List RedactRegion
  | .mk view subviews, redacting =>
    if builder.redactClassesIdentifiers.isEmpty || !view.drawn then redacting
    else
      let rect := view.rect origin
      let ignore := !forceRedact && builder.shouldIgnore view
      let redact := forceRedact || builder.shouldRedact view || view.shouldRedactSwiftUI
      if !ignore && redact then
        let type := if view.shouldRedactSwiftUI then .redactSwiftUI else .redact
        let redacting := redacting ++ [⟨rect, type, place⟩]
        if view.clipsToBounds then redacting
        else mapRedactRegions (view.origin origin) true place 0 subviews redacting
      else
        let redacting :=
          if isOpaque view then
            if rect = rootFrame then [] else redacting ++ [⟨rect, .clipOut, place⟩]
          else redacting
        if view.clipsToBounds && !subviews.isEmpty then
          mapRedactRegions (view.origin origin) forceRedact place 0 subviews
              (redacting ++ [⟨rect, .clipEnd, place⟩]) ++
            [⟨rect, .clipBegin, place⟩]
        else mapRedactRegions (view.origin origin) forceRedact place 0 subviews redacting

def mapRedactRegions (origin : CGPoint) (forceRedact : Bool) (place : List Nat) (index : Nat) :
    List UIView → List RedactRegion → List RedactRegion
  | [], redacting => redacting
  | view :: views, redacting =>
    mapRedactRegions origin forceRedact place (index + 1) views
      (mapRedactRegion origin forceRedact (index :: place) view redacting)

end

/-- The regions of SwiftUI come first, so that they are always masked. -/
def redactRegionsFor (view : UIView) : List RedactRegion :=
  let redactingRegions :=
    mapRedactRegion builder view.properties.frame ⟨0, 0⟩ false [] (inOrder view) []
  let swiftUIRedact := redactingRegions.filter fun region => region.type = .redactSwiftUI
  let otherRegions := redactingRegions.filter fun region => region.type ≠ .redactSwiftUI
  (otherRegions ++ swiftUIRedact).reverse

end UIRedactBuilder

/-! `SentryViewPhotographer`. -/

/-- The drawing context: the pixels inside the clip, the saved clips, and the pixels that are
filled by a redaction. -/
structure Context where
  clip : CGPoint → Bool
  saved : List (CGPoint → Bool)
  filled : CGPoint → Bool

section Draw
variable (imageRect : CGRect)

/-- By the even-odd rule the box around the clip loses the pixels of a clip-out. The clip is reset
when one begins, and there may be nothing to restore when it ends. -/
def Context.draw (context : Context) (region : RedactRegion) : Context :=
  match region.type with
  | .redact | .redactSwiftUI =>
    { context with
      filled := fun pixel =>
        context.filled pixel || (context.clip pixel && region.rect.contains pixel) }
  | .clipOut =>
    { context with clip := fun pixel => context.clip pixel && !region.rect.contains pixel }
  | .clipBegin =>
    { context with
      saved := context.clip :: context.saved
      clip := fun pixel => imageRect.contains pixel && region.rect.contains pixel }
  | .clipEnd =>
    match context.saved with
    | [] => context
    | clip :: saved => { context with clip := clip, saved := saved }

/-- A region that repeats the one before it, or is outside the image, is not drawn. -/
def isDrawn (latestRegion : Option RedactRegion) (region : RedactRegion) : Bool :=
  !latestRegion.any (fun latest => latest.canReplace region) && imageRect.intersects region.rect

def drawRegions : List RedactRegion → Option RedactRegion → Context → Context
  | [], _, context => context
  | region :: regions, latestRegion, context =>
    drawRegions regions (some region)
      (if isDrawn imageRect latestRegion region then context.draw imageRect region else context)

def emptyContext : Context := ⟨imageRect.contains, [], fun _ => false⟩

end Draw

/-- The image of a view has the size of its bounds. -/
def UIView.imageRect (view : UIView) : CGRect :=
  ⟨0, 0, view.properties.frame.width, view.properties.frame.height⟩

def image (builder : UIRedactBuilder) (view : UIView) : Context :=
  drawRegions view.imageRect (builder.redactRegionsFor view) none (emptyContext view.imageRect)

end SentryCocoa.Redaction
