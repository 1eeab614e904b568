import Mathlib
import SentryCocoa.Library.Bisection
import SentryCocoa.Library.Machine
import SentryCocoa.Library.PartitionPoint

/-! The infos of the loaded images, sorted by address, in which the image of a frame is looked
up. -/
namespace SentryCocoa.BinaryImageInfos
open SentryCocoa.Library.Bisection SentryCocoa.Library.Machine SentryCocoa.Library.PartitionPoint

/-- `SentryCrashBinaryImage`, with what its pointers point to. -/
structure SentryCrashBinaryImage where
  address : UInt64
  vmAddress : UInt64
  size : UInt64
  name : Option ByteArray
  uuid : Option (Vector UInt8 16)
deriving DecidableEq

structure SentryBinaryImageInfo where
  name : String
  UUID : Option String
  vmAddress : UInt64
  address : UInt64
  size : UInt64
deriving DecidableEq

/-- `g_hexNybbles`. -/
def hexNybble (n : Nat) : Char := "0123456789ABCDEF".toList.getD n '0'

def hexNybbles (bytes : List UInt8) : List Char :=
  bytes.flatMap fun byte => [hexNybble (byte.toNat / 16), hexNybble (byte.toNat % 16)]

/-- `sentrycrashdl_convertBinaryImageUUID`. -/
def convertBinaryImageUUID (src : Vector UInt8 16) : String :=
  let bytes := src.toList
  String.ofList (hexNybbles (bytes.take 4) ++ '-' :: hexNybbles ((bytes.drop 4).take 2) ++
    '-' :: hexNybbles ((bytes.drop 6).take 2) ++ '-' :: hexNybbles ((bytes.drop 8).take 2) ++
    '-' :: hexNybbles (bytes.drop 10))

def convertUUID (value : Option (Vector UInt8 16)) : Option String :=
  value.map convertBinaryImageUUID

/-- What `binaryImageAdded:` makes of an image, if its name is text. -/
def newImage (image : SentryCrashBinaryImage) : Option SentryBinaryImageInfo :=
  (image.name.bind String.fromUTF8?).map fun imageName =>
    { name := imageName
      UUID := convertUUID image.uuid
      vmAddress := image.vmAddress
      address := image.address
      size := image.size }

/-- `_cache`, which is nil when it is stopped. -/
abbrev Cache := Option (List SentryBinaryImageInfo)

def insert (cache : List SentryBinaryImageInfo) (newImage : SentryBinaryImageInfo) :
    List SentryBinaryImageInfo :=
  cache.insertIdx
    (partitionPoint (fun compareImage => newImage.address < compareImage.address) cache 0
      cache.length)
    newImage

def binaryImageAdded (cache : Cache) (image : Option SentryCrashBinaryImage) : Cache :=
  match image.bind newImage with
  | none => cache
  | some newImage => cache.map fun infos => insert infos newImage

/-- Where an address lies, seen from an image. -/
def position (address : UInt64) (image : SentryBinaryImageInfo) : Ordering :=
  if address ≥ image.address ∧ address < image.address + image.size then .eq
  else if address < image.address then .lt
  else .gt

def indexOfImage (cache : Cache) (address : UInt64) : Int :=
  match cache with
  | none => -1
  | some infos => bisect (position address) infos 0 (infos.length - 1)

def binaryImageRemoved (cache : Cache) (image : Option SentryCrashBinaryImage) : Cache :=
  match image with
  | none => cache
  | some image =>
    let index := indexOfImage cache image.address
    if index ≥ 0 then cache.map fun infos => infos.eraseIdx index.toNat else cache

def imageByAddress (cache : Cache) (address : UInt64) : Option SentryBinaryImageInfo :=
  let index := indexOfImage cache address
  if index ≥ 0 then cache.bind fun infos => infos[index.toNat]? else none

/-! What the loader tells. -/

inductive Event where
  | start
  | stop
  | binaryImageAdded (image : Option SentryCrashBinaryImage)
  | binaryImageRemoved (image : Option SentryCrashBinaryImage)

/-- The images that were added since the start and not removed. They are not in the source. -/
structure Loader where
  cache : Cache
  loaded : List SentryCrashBinaryImage

def Loader.init : Loader := ⟨none, []⟩

def step (loader : Loader) : Event → Option Loader
  | .start => some ⟨some [], []⟩
  | .stop => some ⟨none, []⟩
  | .binaryImageAdded image => some
    { cache := binaryImageAdded loader.cache image
      loaded :=
        if loader.cache.isSome then loader.loaded ++ image.toList else loader.loaded }
  | .binaryImageRemoved image => some
    { cache := binaryImageRemoved loader.cache image
      loaded := image.elim loader.loaded loader.loaded.erase }

namespace SentryCrashBinaryImage

/-- It is not empty, and its end is an address. -/
def Fits (image : SentryCrashBinaryImage) : Prop :=
  0 < image.size.toNat ∧ image.address.toNat + image.size.toNat < 2 ^ 64

def Disjoint (image other : SentryCrashBinaryImage) : Prop :=
  image.address.toNat + image.size.toNat ≤ other.address.toNat ∨
    other.address.toNat + other.size.toNat ≤ image.address.toNat

def Contains (image : SentryCrashBinaryImage) (address : UInt64) : Prop :=
  image.address.toNat ≤ address.toNat ∧
    address.toNat < image.address.toNat + image.size.toNat

instance (image : SentryCrashBinaryImage) : Decidable image.Fits :=
  inferInstanceAs (Decidable (_ ∧ _))

instance (image other : SentryCrashBinaryImage) : Decidable (image.Disjoint other) :=
  inferInstanceAs (Decidable (_ ∨ _))

end SentryCrashBinaryImage

/-- What a loader promises: an image that it adds does not overlap with what is loaded, and one
that it removes overlaps with no other image. -/
def Promised (loader : Loader) : Event → Prop
  | .start => True
  | .stop => True
  | .binaryImageAdded image =>
    ∀ added ∈ image, added.Fits ∧ ∀ other ∈ loader.loaded, added.Disjoint other
  | .binaryImageRemoved image =>
    ∀ removed ∈ image, removed.Fits ∧
      (removed ∈ loader.loaded ∨ ∀ other ∈ loader.loaded, removed.Disjoint other)

/-- The cache is sorted without duplicates, has the infos of what is loaded and of nothing else,
and an address is looked up to the image whose range contains it. -/
structure Correct (loader : Loader) : Prop where
  sorted : (loader.cache.getD []).Pairwise fun a b => a.address < b.address
  infos : (loader.cache.getD []).Perm (loader.loaded.filterMap newImage)
  found : ∀ address info, imageByAddress loader.cache address = some info ↔
    ∃ image ∈ loader.loaded, image.Contains address ∧ newImage image = some info

/-! ## The sorted infos -/

/-- The first image ends before the second one starts. -/
def Before (image other : SentryBinaryImageInfo) : Prop :=
  image.address.toNat + image.size.toNat ≤ other.address.toNat

/-- Its end is an address behind its start. -/
def SentryBinaryImageInfo.Fits (image : SentryBinaryImageInfo) : Prop :=
  0 < image.size.toNat ∧ image.address.toNat + image.size.toNat < 2 ^ 64

/-- The images are not empty and follow each other. -/
structure Arranged (infos : List SentryBinaryImageInfo) : Prop where
  fits : ∀ info ∈ infos, info.Fits
  before : infos.Pairwise Before

variable {infos : List SentryBinaryImageInfo} {info : SentryBinaryImageInfo} {address : UInt64}

theorem position_eq (h : info.Fits) : position address info =
    if info.address.toNat ≤ address.toNat then
      if address.toNat < info.address.toNat + info.size.toNat then .eq else .gt
    else .lt := by
  have hend : (info.address + info.size).toNat = info.address.toNat + info.size.toNat := by
    rw [UInt64.toNat_add, Nat.mod_eq_of_lt h.2]
  simp only [position, ge_iff_le, UInt64.le_iff_toNat_le, UInt64.lt_iff_toNat_lt, hend]
  by_cases hstart : info.address.toNat ≤ address.toNat
  · by_cases hpast : address.toNat < info.address.toNat + info.size.toNat
    · simp [hstart, hpast]
    · simp [hstart, hpast]
  · simp [hstart]

theorem position_eq_eq (h : info.Fits) : position address info = .eq ↔
    info.address.toNat ≤ address.toNat ∧
      address.toNat < info.address.toNat + info.size.toNat := by
  rw [position_eq h]
  by_cases hstart : info.address.toNat ≤ address.toNat
  · by_cases hpast : address.toNat < info.address.toNat + info.size.toNat
    · simp [hstart, hpast]
    · simp [hstart, hpast]
  · simp [hstart]

theorem Arranged.ordered (h : Arranged infos) (address : UInt64) :
    Ordered (position address) infos := by
  apply h.before.imp_of_mem
  intro a b ha hb hbefore hne
  rw [position_eq (h.fits a ha)] at hne
  rw [position_eq (h.fits b hb), if_neg]
  unfold Before at hbefore
  split at hne
  · split at hne
    · omega
    · exact absurd rfl hne
  · omega

theorem Arranged.sorted (h : Arranged infos) :
    infos.Pairwise fun a b => a.address < b.address := by
  apply h.before.imp_of_mem
  intro a b ha hb hbefore
  have hfits := (h.fits a ha).1
  unfold Before at hbefore
  rw [UInt64.lt_iff_toNat_lt]
  omega

/-- The search ends at the one info that the address lies in. -/
theorem Arranged.indexOfImage_eq (h : Arranged infos) {i : Nat} (hi : infos[i]? = some info)
    (heq : position address info = .eq) : indexOfImage (some infos) address = i := by
  have hlength := (List.getElem?_eq_some_iff.mp hi).1
  exact bisect_eq (h.ordered address) hi heq (Int.le_refl 0) (by omega) (by omega) (by omega)

theorem indexOfImage_eq_neg_one (h : ∀ info ∈ infos, position address info ≠ .eq) :
    indexOfImage (some infos) address = -1 :=
  bisect_eq_neg_one h _ _

theorem Arranged.imageByAddress_eq_some_iff (h : Arranged infos) :
    imageByAddress (some infos) address = some info ↔
      info ∈ infos ∧ position address info = .eq := by
  constructor
  · intro hfound
    by_cases hsome : ∃ other ∈ infos, position address other = .eq
    · obtain ⟨other, hother, heq⟩ := hsome
      obtain ⟨i, hi⟩ := List.mem_iff_getElem?.mp hother
      simp only [imageByAddress, h.indexOfImage_eq hi heq, Int.natCast_nonneg, ge_iff_le,
        if_true, Int.toNat_natCast, Option.bind_some, hi, Option.some.injEq] at hfound
      exact hfound ▸ ⟨hother, heq⟩
    · push Not at hsome
      simp [imageByAddress, indexOfImage_eq_neg_one hsome] at hfound
  · rintro ⟨hmem, heq⟩
    obtain ⟨i, hi⟩ := List.mem_iff_getElem?.mp hmem
    simp [imageByAddress, h.indexOfImage_eq hi heq, hi]

theorem Arranged.divided (h : Arranged infos) (address : UInt64) :
    Divided (fun compareImage => decide (address < compareImage.address)) infos := by
  apply h.sorted.imp
  intro a b hlt ha
  simp only [decide_eq_true_eq] at ha ⊢
  exact UInt64.lt_trans ha hlt

/-- An info is inserted between those that lie before it and those that lie behind it. -/
theorem Arranged.insert (h : Arranged infos) (hfits : info.Fits)
    (hdisjoint : ∀ other ∈ infos, Before info other ∨ Before other info) :
    Arranged (insert infos info) ∧ (insert infos info).Perm (info :: infos) := by
  have hle := (partitionPoint_mem (fun compareImage : SentryBinaryImageInfo =>
    decide (info.address < compareImage.address)) infos (Nat.zero_le infos.length)).2
  have hperm : (BinaryImageInfos.insert infos info).Perm (info :: infos) :=
    List.perm_insertIdx info infos hle
  refine ⟨⟨fun other hother => ?_, ?_⟩, hperm⟩
  · rcases List.mem_cons.mp (hperm.mem_iff.mp hother) with rfl | hmem
    · exact hfits
    · exact h.fits other hmem
  · apply (h.divided info.address).pairwise_insertIdx h.before
    · intro other hother hkeep
      apply (hdisjoint other hother).resolve_right
      intro hbefore
      simp only [decide_eq_true_eq, UInt64.lt_iff_toNat_lt] at hkeep
      unfold Before at hbefore
      omega
    · intro other hother hdrop
      apply (hdisjoint other hother).resolve_left
      intro hbefore
      have hsize := hfits.1
      simp only [decide_eq_false_iff_not, UInt64.lt_iff_toNat_lt] at hdrop
      unfold Before at hbefore
      omega

theorem Arranged.sublist {rest : List SentryBinaryImageInfo} (h : Arranged infos)
    (hrest : rest.Sublist infos) : Arranged rest :=
  ⟨fun info hinfo => h.fits info (hrest.subset hinfo), h.before.sublist hrest⟩

/-! ## Runs of the loader -/

variable {loader : Loader} {image other : SentryCrashBinaryImage}

theorem newImage_range (h : newImage image = some info) :
    info.address = image.address ∧ info.size = image.size := by
  obtain ⟨name, hname, rfl⟩ := Option.map_eq_some_iff.mp h
  exact ⟨rfl, rfl⟩

instance : Std.Symm SentryCrashBinaryImage.Disjoint := ⟨fun _ _ h => Or.symm h⟩

/-- The loaded images do not overlap, and the cache has their infos in order. -/
structure Inv (loader : Loader) : Prop where
  fits : ∀ image ∈ loader.loaded, image.Fits
  disjoint : loader.loaded.Pairwise SentryCrashBinaryImage.Disjoint
  arranged : Arranged (loader.cache.getD [])
  infos : (loader.cache.getD []).Perm (loader.loaded.filterMap newImage)

theorem Inv.init : Inv Loader.init :=
  ⟨nofun, .nil, ⟨nofun, .nil⟩, .refl _⟩

theorem Inv.mem_infos (h : Inv loader) :
    info ∈ loader.cache.getD [] ↔ ∃ image ∈ loader.loaded, newImage image = some info := by
  rw [h.infos.mem_iff, List.mem_filterMap]

/-- The info of an added image, if it has one, takes its place in the cache. -/
theorem Inv.added_infos (h : Inv loader) (hcache : loader.cache = some infos)
    (hfits : image.Fits) (hdisjoint : ∀ other ∈ loader.loaded, image.Disjoint other) :
    Arranged ((binaryImageAdded (some infos) (some image)).getD []) ∧
      ((binaryImageAdded (some infos) (some image)).getD []).Perm
        ((loader.loaded ++ [image]).filterMap newImage) := by
  have harranged := h.arranged
  have hinfos := h.infos
  rw [hcache, Option.getD_some] at harranged hinfos
  rw [List.filterMap_append]
  cases hnew : newImage image with
  | none => simpa [binaryImageAdded, hnew] using ⟨harranged, hinfos⟩
  | some info =>
    obtain ⟨haddress, hsize⟩ := newImage_range hnew
    have hinfo : info.Fits := by rwa [SentryBinaryImageInfo.Fits, haddress, hsize]
    have hranges : ∀ other ∈ infos, Before info other ∨ Before other info := by
      intro other hother
      obtain ⟨loaded, hmem, hloaded⟩ := List.mem_filterMap.mp (hinfos.mem_iff.mp hother)
      have hrange := newImage_range hloaded
      unfold Before
      rw [haddress, hsize, hrange.1, hrange.2]
      exact hdisjoint loaded hmem
    have hinsert := harranged.insert hinfo hranges
    simp only [binaryImageAdded, hnew, Option.bind_some, Option.map_some, Option.getD_some,
      List.filterMap_cons, List.filterMap_nil]
    refine ⟨hinsert.1, hinsert.2.trans ?_⟩
    exact (hinfos.cons info).trans (List.perm_append_singleton _ _).symm

theorem Inv.added (h : Inv loader) (hcache : loader.cache = some infos) (hfits : image.Fits)
    (hdisjoint : ∀ other ∈ loader.loaded, image.Disjoint other) :
    Inv ⟨binaryImageAdded (some infos) (some image), loader.loaded ++ [image]⟩ := by
  have hadded := h.added_infos hcache hfits hdisjoint
  refine ⟨fun other hother => ?_, List.pairwise_append.mpr
    ⟨h.disjoint, List.pairwise_singleton _ _, fun other hother added hmem => ?_⟩,
    hadded.1, hadded.2⟩
  · rcases List.mem_append.mp hother with hother | hmem
    · exact h.fits other hother
    · exact List.mem_singleton.mp hmem ▸ hfits
  · exact List.mem_singleton.mp hmem ▸ Or.symm (hdisjoint other hother)

/-- The image that is removed is the only one that its address can lie in. -/
theorem Inv.eq_of_contains (h : Inv loader) (hfits : image.Fits)
    (hpromised : image ∈ loader.loaded ∨ ∀ other ∈ loader.loaded, image.Disjoint other)
    (hother : other ∈ loader.loaded) (hcontains : other.Contains image.address) :
    image = other := by
  by_contra hne
  have hranges : image.Disjoint other := by
    rcases hpromised with hloaded | hdisjoint
    · exact h.disjoint.forall hloaded hother hne
    · exact hdisjoint other hother
  have hsize := hfits.1
  unfold SentryCrashBinaryImage.Disjoint at hranges
  unfold SentryCrashBinaryImage.Contains at hcontains
  omega

theorem Inv.removed_found (h : Inv loader) (hcache : loader.cache = some infos)
    (hfits : image.Fits)
    (hpromised : image ∈ loader.loaded ∨ ∀ other ∈ loader.loaded, image.Disjoint other)
    (hinfo : info ∈ infos) (heq : position image.address info = .eq) :
    image ∈ loader.loaded ∧ newImage image = some info := by
  obtain ⟨other, hother, hnew⟩ := h.mem_infos.mp (show info ∈ loader.cache.getD [] by rwa [hcache])
  have hcontains : other.Contains image.address := by
    rw [position_eq_eq (h.arranged.fits info (by rwa [hcache])), (newImage_range hnew).1,
      (newImage_range hnew).2] at heq
    exact heq
  have hsame := h.eq_of_contains hfits hpromised hother hcontains
  exact hsame ▸ ⟨hother, hnew⟩

/-- The info of a removed image leaves the cache, and no other info does. -/
theorem Inv.removed_infos (h : Inv loader) (hcache : loader.cache = some infos)
    (hfits : image.Fits)
    (hpromised : image ∈ loader.loaded ∨ ∀ other ∈ loader.loaded, image.Disjoint other) :
    ∃ rest, binaryImageRemoved (some infos) (some image) = some rest ∧ rest.Sublist infos ∧
      rest.Perm ((loader.loaded.erase image).filterMap newImage) := by
  have harranged := h.arranged
  have hinfos := h.infos
  rw [hcache, Option.getD_some] at harranged hinfos
  by_cases hfound : ∃ info ∈ infos, position image.address info = .eq
  · obtain ⟨info, hinfo, heq⟩ := hfound
    obtain ⟨hloaded, hnew⟩ := h.removed_found hcache hfits hpromised hinfo heq
    obtain ⟨i, hi⟩ := List.mem_iff_getElem?.mp hinfo
    obtain ⟨hlt, rfl⟩ := List.getElem?_eq_some_iff.mp hi
    refine ⟨infos.eraseIdx i, ?_, List.eraseIdx_sublist infos i, ?_⟩
    · simp [binaryImageRemoved, harranged.indexOfImage_eq hi heq]
    · have hwith := (List.perm_cons_erase hloaded).filterMap newImage
      rw [List.filterMap_cons_some hnew] at hwith
      exact ((List.getElem_cons_eraseIdx_perm hlt).trans (hinfos.trans hwith)).cons_inv
  · push Not at hfound
    refine ⟨infos, ?_, List.Sublist.refl infos, ?_⟩
    · simp [binaryImageRemoved, indexOfImage_eq_neg_one hfound]
    · by_cases hloaded : image ∈ loader.loaded
      · have hwith := (List.perm_cons_erase hloaded).filterMap newImage
        cases hnew : newImage image with
        | none =>
          rw [List.filterMap_cons_none hnew] at hwith
          exact hinfos.trans hwith
        | some info =>
          have hinfo : info ∈ infos := hinfos.mem_iff.mpr (List.mem_filterMap.mpr ⟨image, hloaded, hnew⟩)
          refine absurd ?_ (hfound info hinfo)
          rw [position_eq_eq (harranged.fits info hinfo), (newImage_range hnew).1,
            (newImage_range hnew).2]
          exact ⟨Nat.le_refl _, by have := hfits.1; omega⟩
      · rw [List.erase_of_not_mem hloaded]
        exact hinfos

theorem Inv.removed (h : Inv loader) (hcache : loader.cache = some infos) (hfits : image.Fits)
    (hpromised : image ∈ loader.loaded ∨ ∀ other ∈ loader.loaded, image.Disjoint other) :
    Inv ⟨binaryImageRemoved (some infos) (some image), loader.loaded.erase image⟩ := by
  obtain ⟨rest, hrest, hsublist, hperm⟩ := h.removed_infos hcache hfits hpromised
  have harranged := h.arranged
  rw [hcache, Option.getD_some] at harranged
  rw [hrest]
  exact ⟨fun other hother => h.fits other (List.mem_of_mem_erase hother),
    h.disjoint.sublist List.erase_sublist, harranged.sublist hsublist, hperm⟩

theorem binaryImageRemoved_none (image : Option SentryCrashBinaryImage) :
    binaryImageRemoved none image = none := by
  cases image with
  | none => rfl
  | some image => simp [binaryImageRemoved]

theorem binaryImageAdded_none (image : Option SentryCrashBinaryImage) :
    binaryImageAdded none image = none := by
  unfold binaryImageAdded
  cases image.bind newImage <;> rfl

theorem Inv.stopped {rest : List SentryCrashBinaryImage} (h : Inv loader)
    (hcache : loader.cache = none) (hrest : rest.Sublist loader.loaded) : Inv ⟨none, rest⟩ := by
  have hinfos := h.infos
  rw [hcache, Option.getD_none, List.nil_perm] at hinfos
  have hnone : rest.filterMap newImage = [] :=
    List.sublist_nil.mp (hinfos ▸ hrest.filterMap newImage)
  refine ⟨fun other hother => h.fits other (hrest.subset hother), h.disjoint.sublist hrest,
    ⟨nofun, .nil⟩, ?_⟩
  rw [hnone]
  exact List.Perm.refl _

/-- Nothing that the loader tells breaks the order. -/
theorem Inv.step {loader' : Loader} {event : Event} (h : Inv loader)
    (hpromised : Promised loader event) (hstep : step loader event = some loader') :
    Inv loader' := by
  cases event with
  | start =>
    cases hstep
    exact ⟨nofun, .nil, ⟨nofun, .nil⟩, .refl _⟩
  | stop =>
    cases hstep
    exact Inv.init
  | binaryImageAdded image =>
    cases hstep
    cases image with
    | none => simpa [binaryImageAdded] using h
    | some image =>
      obtain ⟨hfits, hdisjoint⟩ := hpromised image rfl
      cases hcache : loader.cache with
      | none =>
        rw [binaryImageAdded_none]
        exact h.stopped hcache (List.Sublist.refl _)
      | some infos => exact h.added hcache hfits hdisjoint
  | binaryImageRemoved image =>
    cases hstep
    cases image with
    | none => exact h
    | some image =>
      obtain ⟨hfits, hloaded⟩ := hpromised image rfl
      cases hcache : loader.cache with
      | none =>
        rw [binaryImageRemoved_none]
        exact h.stopped hcache List.erase_sublist
      | some infos => exact h.removed hcache hfits hloaded

theorem Inv.correct (h : Inv loader) : Correct loader where
  sorted := h.arranged.sorted
  infos := h.infos
  found := by
    intro address info
    have hfound : imageByAddress loader.cache address = some info ↔
        info ∈ loader.cache.getD [] ∧ position address info = .eq := by
      have harranged := h.arranged
      cases hcache : loader.cache with
      | none => simp [imageByAddress, indexOfImage]
      | some infos =>
        rw [hcache] at harranged
        exact harranged.imageByAddress_eq_some_iff
    rw [hfound, h.mem_infos]
    constructor
    · rintro ⟨⟨image, himage, hnew⟩, heq⟩
      rw [position_eq_eq (h.arranged.fits info (h.mem_infos.mpr ⟨image, himage, hnew⟩)),
        (newImage_range hnew).1, (newImage_range hnew).2] at heq
      exact ⟨image, himage, heq, hnew⟩
    · rintro ⟨image, himage, hcontains, hnew⟩
      refine ⟨⟨image, himage, hnew⟩, ?_⟩
      rw [position_eq_eq (h.arranged.fits info (h.mem_infos.mpr ⟨image, himage, hnew⟩)),
        (newImage_range hnew).1, (newImage_range hnew).2]
      exact hcontains

/-- As long as the loader keeps what it promises, the cache is sorted, it has what is loaded, and
an address is looked up to the image whose range contains it. -/
theorem infos_of_loaded (events : List Event) (h : Allowed step Promised Loader.init events) :
    Always step Correct Loader.init events :=
  always_of_allowed (fun _ hinv => hinv.correct)
    (fun _ _ _ hinv hpromised hstep => hinv.step hpromised hstep) Inv.init h

instance (loader : Loader) (event : Event) : Decidable (Promised loader event) :=
  match event with
  | .start => inferInstanceAs (Decidable True)
  | .stop => inferInstanceAs (Decidable True)
  | .binaryImageAdded _ => inferInstanceAs (Decidable (∀ added ∈ (_ : Option _), _))
  | .binaryImageRemoved _ => inferInstanceAs (Decidable (∀ removed ∈ (_ : Option _), _))

def exampleImage (address size : UInt64) (name : Option ByteArray) : SentryCrashBinaryImage where
  address := address
  vmAddress := 0
  size := size
  name := name
  uuid := none

/-- Two images that touch each other and one without a name; the lower one goes first. -/
def exampleEvents : List Event :=
  let upper := exampleImage 0x2000 0x1000 (some ⟨#[66]⟩)
  let lower := exampleImage 0x1000 0x1000 (some ⟨#[65]⟩)
  [.start, .binaryImageAdded (some upper), .binaryImageAdded (some lower),
    .binaryImageAdded (some (exampleImage 0x4000 1 none)), .binaryImageRemoved (some lower)]

theorem infos_of_loaded_example :
    (exec step Loader.init exampleEvents).map (fun loader =>
      [0x1fff, 0x2000, 0x2fff, 0x4000].map fun address =>
        (imageByAddress loader.cache address).map SentryBinaryImageInfo.name) =
          some [none, some "B", some "B", none] ∧
      Always step Correct Loader.init exampleEvents :=
  ⟨by decide +kernel, infos_of_loaded exampleEvents (by decide +kernel)⟩

end SentryCocoa.BinaryImageInfos
