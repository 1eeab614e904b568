import SentryCocoa.Library.Machine
import SentryCocoa.Library.Tombstones
import Mathlib.Data.List.Nodup

/-! The binary images that are loaded, as the dynamic linker tells of them. A crash handler goes
through the list without locks, so a node is never taken out of it. -/
namespace SentryCocoa.BinaryImageCache
open SentryCocoa.Library.Machine SentryCocoa.Library.Tombstones

/-- The address of an image, which is that of its header. It is not zero like that of the root
node. -/
abbrev Address := { address : UInt64 // address ≠ 0 }

/-- `SentryCrashBinaryImage`. -/
structure BinaryImage (ι : Type) where
  address : Address
  info : ι

variable {ι : Type}

/-- The nodes behind the root node, which is never available. The cache is started when there is
a tail node. -/
structure Cache (ι : Type) where
  nodes : List (Slot (BinaryImage ι))
  started : Bool

def hasAddress (header : Address) (image : BinaryImage ι) : Bool :=
  decide (image.address = header)

/-- What is found of the image, if there is anything: the name of its file, and what its header
says. -/
def binaryImageAdded (cache : Cache ι) (header : Address) (found : Option ι) : Cache ι :=
  if cache.started then
    match found with
    | none => cache
    | some info => { cache with nodes := cache.nodes ++ [⟨⟨header, info⟩, true⟩] }
  else cache

def binaryImageRemoved (cache : Cache ι) (header : Address) : Cache ι :=
  { cache with nodes := bury (hasAddress header) cache.nodes }

def iterateOverImages (cache : Cache ι) : List (BinaryImage ι) :=
  if cache.started then visible cache.nodes else []

def startCache (cache : Cache ι) : Cache ι :=
  if cache.started then cache else ⟨[], true⟩

def stopCache (cache : Cache ι) : Cache ι :=
  if cache.started then ⟨[], false⟩ else cache

/-! What the dynamic linker has told. -/

inductive Event (ι : Type) where
  | added (header : Address) (found : Option ι)
  | removed (header : Address)
  | start
  | stop

/-- The images that were added and not removed since, and the addresses from which an image was
removed. Neither is in the source. -/
structure Linker (ι : Type) where
  cache : Cache ι
  loaded : List (BinaryImage ι)
  unloaded : List Address

def Linker.init (ι : Type) : Linker ι := ⟨⟨[], false⟩, [], []⟩

def Linker.Loaded (linker : Linker ι) (header : Address) : Prop :=
  header ∈ linker.loaded.map BinaryImage.address

instance (linker : Linker ι) (header : Address) : Decidable (linker.Loaded header) :=
  inferInstanceAs (Decidable (header ∈ linker.loaded.map BinaryImage.address))

def without (header : Address) (images : List (BinaryImage ι)) : List (BinaryImage ι) :=
  images.filter fun image => !hasAddress header image

def tell (linker : Linker ι) : Event ι → Option (Linker ι)
  | .added header found => some
    { cache := binaryImageAdded linker.cache header found
      loaded :=
        if linker.cache.started then
          match found with
          | none => linker.loaded
          | some info => without header linker.loaded ++ [⟨header, info⟩]
        else linker.loaded
      unloaded := linker.unloaded }
  | .removed header => some
    { cache := binaryImageRemoved linker.cache header
      loaded := without header linker.loaded
      unloaded := if linker.Loaded header then header :: linker.unloaded else linker.unloaded }
  | .start => some { linker with cache := startCache linker.cache }
  | .stop => some ⟨stopCache linker.cache, [], []⟩

/-- Each image that is loaded is visited once, and no other. -/
def Linker.Exact (linker : Linker ι) : Prop :=
  (iterateOverImages linker.cache).Nodup ∧
    ∀ image, image ∈ iterateOverImages linker.cache ↔ image ∈ linker.loaded

/-- No image is added where one is loaded, and none is removed from where one was removed
before. -/
def Event.Fresh (linker : Linker ι) : Event ι → Prop
  | .added header found => linker.cache.started = true → found.isSome = true →
      ¬linker.Loaded header
  | .removed header => linker.Loaded header → header ∉ linker.unloaded
  | _ => True

/-! The images. -/

theorem mem_without {header : Address} {images : List (BinaryImage ι)} {image : BinaryImage ι} :
    image ∈ without header images ↔ image ∈ images ∧ image.address ≠ header := by
  simp [without, hasAddress]

theorem without_eq_self {header : Address} {images : List (BinaryImage ι)}
    (h : header ∉ images.map BinaryImage.address) : without header images = images := by
  apply List.filter_eq_self.mpr
  intro image himage
  have hne : image.address ≠ header := by
    rintro rfl
    exact h (List.mem_map_of_mem himage)
  simpa [hasAddress] using hne

theorem eraseP_hasAddress {header : Address} {images : List (BinaryImage ι)}
    (h : (images.map BinaryImage.address).Nodup) :
    images.eraseP (hasAddress header) = without header images := by
  induction images with
  | nil => rfl
  | cons image rest ih =>
    rw [List.map_cons, List.nodup_cons] at h
    by_cases haddress : image.address = header
    · have hthis : hasAddress header image = true := by simp [hasAddress, haddress]
      have hrest : without header rest = rest := without_eq_self (haddress ▸ h.1)
      rw [List.eraseP_cons_of_pos hthis, without, List.filter_cons_of_neg (by simp [hthis])]
      exact hrest.symm
    · have hother : ¬hasAddress header image = true := by simpa [hasAddress] using haddress
      rw [List.eraseP_cons_of_neg hother, ih h.2, without, without,
        List.filter_cons_of_pos (by simpa using hother)]

/-- The nodes say what is loaded. Behind an address from which an image was removed the first
node is not available. -/
structure Invariant (linker : Linker ι) : Prop where
  loaded : visible linker.cache.nodes = linker.loaded
  addresses : (linker.loaded.map BinaryImage.address).Nodup
  unloaded : ∀ header, first (hasAddress header) linker.cache.nodes = some false ↔
    header ∈ linker.unloaded
  stopped : linker.cache.started = false → linker.cache.nodes = []

theorem invariant_init : Invariant (Linker.init ι) :=
  ⟨rfl, List.nodup_nil, fun _ => by simp [Linker.init, first], fun _ => rfl⟩

theorem Invariant.iterate {linker : Linker ι} (h : Invariant linker) :
    iterateOverImages linker.cache = linker.loaded := by
  unfold iterateOverImages
  split
  · exact h.loaded
  · rename_i hstopped
    have hnodes := h.stopped (Bool.eq_false_iff.mpr hstopped)
    rw [← h.loaded, hnodes]
    rfl

theorem Invariant.exact {linker : Linker ι} (h : Invariant linker) : linker.Exact := by
  refine ⟨?_, fun image => ?_⟩
  · rw [h.iterate]
    exact h.addresses.of_map
  · rw [h.iterate]

theorem Invariant.added {linker : Linker ι} (h : Invariant linker) {header : Address} {info : ι}
    (hstarted : linker.cache.started = true) (hfresh : ¬linker.Loaded header) :
    Invariant
      { cache := binaryImageAdded linker.cache header (some info)
        loaded := without header linker.loaded ++ [⟨header, info⟩]
        unloaded := linker.unloaded } := by
  have hsame : without header linker.loaded = linker.loaded := without_eq_self hfresh
  rw [binaryImageAdded, if_pos hstarted]
  refine ⟨?_, ?_, fun other => ?_, fun hstopped => ?_⟩
  · dsimp only
    rw [visible_append, h.loaded, hsame]
    rfl
  · dsimp only
    rw [hsame, List.map_append, List.nodup_append]
    refine ⟨h.addresses, List.nodup_singleton header, ?_⟩
    rintro address haddress _ hheader rfl
    rw [List.map_singleton, List.mem_singleton] at hheader
    rw [hheader] at haddress
    exact hfresh haddress
  · dsimp only
    rw [← h.unloaded other, first_append]
    cases first (hasAddress other) linker.cache.nodes with
    | some live => rfl
    | none =>
      have hnew : first (hasAddress other) [(⟨⟨header, info⟩, true⟩ : Slot (BinaryImage ι))] ≠
          some false := by
        unfold first
        split
        · simp
        · simp [first]
      simpa using hnew
  · dsimp only at hstopped
    rw [hstarted] at hstopped
    cases hstopped

/-- Which node is the first behind another address does not change. -/
theorem first_binaryImageRemoved (cache : Cache ι) (header other : Address) :
    first (hasAddress other) (binaryImageRemoved cache header).nodes =
      if other = header then (first (hasAddress header) cache.nodes).map fun _ => false
      else first (hasAddress other) cache.nodes := by
  unfold binaryImageRemoved
  dsimp only
  split
  · rename_i hsame
    rw [hsame, first_bury_self]
  · rename_i hother
    apply first_bury_other
    intro image himage
    have haddress : image.address = header := of_decide_eq_true himage
    exact decide_eq_false fun hsame => hother (hsame.symm.trans haddress)

theorem Invariant.first_of_loaded {linker : Linker ι} (h : Invariant linker) {header : Address}
    (hloaded : linker.Loaded header) (hfresh : header ∉ linker.unloaded) :
    first (hasAddress header) linker.cache.nodes = some true := by
  obtain ⟨image, himage, haddress⟩ := List.mem_map.mp hloaded
  rw [← h.loaded] at himage
  have himage' : hasAddress header image = true := decide_eq_true haddress
  have hsome := first_ne_none himage himage'
  have hnot := fun hfalse => hfresh ((h.unloaded header).mp hfalse)
  cases hfirst : first (hasAddress header) linker.cache.nodes with
  | none => exact absurd hfirst hsome
  | some live =>
    cases live with
    | true => rfl
    | false => exact absurd hfirst hnot

theorem Invariant.removed {linker : Linker ι} (h : Invariant linker) {header : Address}
    (hloaded : linker.Loaded header) (hfresh : header ∉ linker.unloaded) :
    Invariant
      { cache := binaryImageRemoved linker.cache header
        loaded := without header linker.loaded
        unloaded := header :: linker.unloaded } := by
  have hfirst := h.first_of_loaded hloaded hfresh
  refine ⟨?_, ?_, fun other => ?_, fun hstopped => ?_⟩
  · change visible (bury (hasAddress header) linker.cache.nodes) = _
    rw [visible_bury_live hfirst, h.loaded]
    exact eraseP_hasAddress h.addresses
  · exact h.addresses.sublist (List.filter_sublist.map _)
  · dsimp only
    rw [first_binaryImageRemoved, List.mem_cons]
    split
    · rename_i hsame
      simp [hsame, hfirst]
    · rename_i hother
      simp [hother, h.unloaded other]
  · have hnodes := h.stopped hstopped
    rw [hnodes] at hfirst
    cases hfirst

/-- Where nothing is loaded, the removal changes nothing that is seen. -/
theorem Invariant.removed_unloaded {linker : Linker ι} (h : Invariant linker) {header : Address}
    (hloaded : ¬linker.Loaded header) :
    Invariant
      { cache := binaryImageRemoved linker.cache header
        loaded := without header linker.loaded
        unloaded := linker.unloaded } := by
  have hsame : without header linker.loaded = linker.loaded := without_eq_self hloaded
  have hfirst : first (hasAddress header) linker.cache.nodes ≠ some true := by
    intro hlive
    obtain ⟨image, himage, haddress⟩ := exists_of_first hlive
    rw [h.loaded] at himage
    have heq : image.address = header := of_decide_eq_true haddress
    exact hloaded (heq ▸ List.mem_map_of_mem himage)
  refine ⟨?_, ?_, fun other => ?_, fun hstopped => ?_⟩
  · change visible (bury (hasAddress header) linker.cache.nodes) = _
    rw [visible_bury_of_ne hfirst, h.loaded, hsame]
  · dsimp only
    rw [hsame]
    exact h.addresses
  · dsimp only
    rw [← h.unloaded other, first_binaryImageRemoved]
    split
    · rename_i hother
      rw [hother]
      cases hlive : first (hasAddress header) linker.cache.nodes with
      | none => rfl
      | some live =>
        cases live with
        | true => exact absurd hlive hfirst
        | false => rfl
    · rfl
  · change bury (hasAddress header) linker.cache.nodes = []
    rw [h.stopped hstopped]
    rfl

theorem invariant_tell (linker : Linker ι) (event : Event ι) (linker' : Linker ι)
    (h : Invariant linker) (hfresh : event.Fresh linker)
    (hstep : tell linker event = some linker') : Invariant linker' := by
  cases event with
  | added header found =>
    cases hstep
    by_cases hstarted : linker.cache.started = true
    · rw [if_pos hstarted]
      cases found with
      | none =>
        have hsame : binaryImageAdded linker.cache header none = linker.cache := if_pos hstarted
        rw [hsame]
        exact h
      | some info => exact h.added hstarted (hfresh hstarted rfl)
    · have hsame : binaryImageAdded linker.cache header found = linker.cache := if_neg hstarted
      rw [hsame, if_neg hstarted]
      exact h
  | removed header =>
    cases hstep
    split
    · rename_i hloaded
      exact h.removed hloaded (hfresh hloaded)
    · rename_i hloaded
      exact h.removed_unloaded hloaded
  | start =>
    cases hstep
    unfold startCache
    split
    · exact h
    · rename_i hstopped
      have hnodes := h.stopped (Bool.eq_false_iff.mpr hstopped)
      have hloaded := h.loaded
      have hunloaded := h.unloaded
      rw [hnodes] at hloaded hunloaded
      exact ⟨hloaded, h.addresses, hunloaded, fun _ => rfl⟩
  | stop =>
    cases hstep
    have hnodes : (stopCache linker.cache).nodes = [] := by
      unfold stopCache
      split
      · rfl
      · rename_i hstopped
        exact h.stopped (Bool.eq_false_iff.mpr hstopped)
    refine ⟨?_, List.nodup_nil, fun header => ?_, fun _ => hnodes⟩
    · dsimp only
      rw [hnodes]
      rfl
    · dsimp only
      rw [hnodes]
      simp [first]

/-- An image that is added where one is loaded is seen beside it, and one that is removed from
where one was removed before is still seen. -/
theorem not_exact (linker : Linker ι) (event : Event ι) (linker' : Linker ι)
    (h : Invariant linker) (hstale : ¬event.Fresh linker)
    (hstep : tell linker event = some linker') : ¬linker'.Exact := by
  cases event with
  | added header found =>
    unfold Event.Fresh at hstale
    dsimp only at hstale
    push Not at hstale
    obtain ⟨hstarted, hfound, hloaded⟩ := hstale
    obtain ⟨info, rfl⟩ := Option.isSome_iff_exists.mp hfound
    obtain ⟨image, himage, haddress⟩ := List.mem_map.mp hloaded
    cases hstep
    have hvisible : iterateOverImages (binaryImageAdded linker.cache header (some info)) =
        linker.loaded ++ [⟨header, info⟩] := by
      rw [binaryImageAdded, if_pos hstarted, iterateOverImages, if_pos hstarted]
      dsimp only
      rw [visible_append, h.loaded]
      rfl
    rintro ⟨hnodup, hexact⟩
    rw [hvisible, List.nodup_append] at hnodup
    have hseen := (hexact image).mp (by
      rw [hvisible]
      exact List.mem_append_left _ himage)
    rw [if_pos hstarted] at hseen
    rcases List.mem_append.mp hseen with hother | hnew
    · exact (mem_without.mp hother).2 haddress
    · exact hnodup.2.2 image himage _ hnew rfl
  | removed header =>
    obtain ⟨hloaded, hunloaded⟩ := Classical.not_imp.mp hstale
    rw [not_not] at hunloaded
    have hfirst := (h.unloaded header).mpr hunloaded
    obtain ⟨image, himage, haddress⟩ := List.mem_map.mp hloaded
    cases hstep
    intro hexact
    have hstarted : linker.cache.started = true := by
      by_contra hstopped
      have hnodes := h.stopped (Bool.eq_false_iff.mpr hstopped)
      rw [hnodes] at hfirst
      cases hfirst
    have hvisible : iterateOverImages (binaryImageRemoved linker.cache header) =
        linker.loaded := by
      rw [← h.loaded, iterateOverImages]
      refine (if_pos hstarted).trans (visible_bury_of_ne ?_)
      rw [hfirst]
      exact fun hlive => nomatch hlive
    have hseen := (hexact.2 image).mp (hvisible ▸ himage)
    exact (mem_without.mp hseen).2 haddress
  | start => exact absurd trivial hstale
  | stop => exact absurd trivial hstale

/-- After every sequence of images that are added and removed, and of starts and stops of the
cache, exactly the loaded images are visited, if and only if none was added where one was loaded
and none was removed from where one had been removed before. -/
theorem always_visits_iff (events : List (Event ι)) :
    Always tell Linker.Exact (Linker.init ι) events ↔
      Allowed tell (fun linker event => event.Fresh linker) (Linker.init ι) events :=
  always_iff_allowed (fun _ h => h.exact) invariant_tell not_exact invariant_init events

/-- The second removal of an image marks the node of the first. -/
theorem removed_twice_is_visited :
    ¬Always tell Linker.Exact (Linker.init Unit)
      [.start, .added ⟨1, by decide⟩ (some ()), .removed ⟨1, by decide⟩,
        .added ⟨1, by decide⟩ (some ()), .removed ⟨1, by decide⟩] := by
  intro h
  have hrun : exec tell (Linker.init Unit)
      [.start, .added ⟨1, by decide⟩ (some ()), .removed ⟨1, by decide⟩,
        .added ⟨1, by decide⟩ (some ()), .removed ⟨1, by decide⟩] =
      some ⟨⟨[⟨⟨⟨1, by decide⟩, ()⟩, false⟩, ⟨⟨⟨1, by decide⟩, ()⟩, true⟩], true⟩, [],
        [⟨1, by decide⟩, ⟨1, by decide⟩]⟩ := rfl
  have hvisited := ((h.exec hrun).2 ⟨⟨1, by decide⟩, ()⟩).mp List.mem_cons_self
  cases hvisited

end SentryCocoa.BinaryImageCache
