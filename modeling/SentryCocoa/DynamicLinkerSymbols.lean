import SentryCocoa.DynamicLinker

/-! Which symbol the lookup finds. -/
namespace SentryCocoa.DynamicLinker

/-- The symbol is in the image and starts at the address or before it. -/
def Precedes (addressWithSlide : UIntPtr) (symbol : NList) : Prop :=
  symbol.value ≠ 0 ∧ symbol.value ≤ addressWithSlide

/-- Of the first symbols of a table that precede the address, this one starts last; of those that
start there, it is the last in the table. -/
def IsClosest (symbols : Nat → NList) (count : Nat) (addressWithSlide : UIntPtr) (symbol : NList) :
    Prop :=
  ∃ i < count, symbols i = symbol ∧ Precedes addressWithSlide symbol ∧
    ∀ j < count, Precedes addressWithSlide (symbols j) →
      (symbols j).value < symbol.value ∨ ((symbols j).value = symbol.value ∧ j ≤ i)

variable {symbols : Nat → NList} {count : Nat} {addressWithSlide : UIntPtr} {symbol : NList}

theorem IsClosest.unique {other : NList} (h : IsClosest symbols count addressWithSlide symbol)
    (hother : IsClosest symbols count addressWithSlide other) : symbol = other := by
  obtain ⟨i, hi, hsymbol, hprecedes, hlast⟩ := h
  obtain ⟨j, hj, rfl, hprecedes', hlast'⟩ := hother
  have hij := hlast j hj hprecedes'
  have hji := hlast' i hi (hsymbol ▸ hprecedes)
  rw [hsymbol] at hji
  obtain hlt | ⟨heq, hle⟩ := hij
  · obtain hlt' | ⟨heq', -⟩ := hji
    · exact absurd (BitVec.lt_trans hlt hlt') (BitVec.lt_irrefl _)
    · rw [heq'] at hlt
      exact absurd hlt (BitVec.lt_irrefl _)
  · obtain hlt' | ⟨-, hle'⟩ := hji
    · rw [heq] at hlt'
      exact absurd hlt' (BitVec.lt_irrefl _)
    · rw [← hsymbol, Nat.le_antisymm hle hle']

/-- What the search has after some symbols. -/
def Best.After (best : Best) (symbols : Nat → NList) (count : Nat) (addressWithSlide : UIntPtr) :
    Prop :=
  (best = ⟨none, ulongMax⟩ ∧ ∀ j < count, ¬Precedes addressWithSlide (symbols j)) ∨
    ∃ symbol, best = ⟨some symbol, addressWithSlide - symbol.value⟩ ∧
      IsClosest symbols count addressWithSlide symbol

/-- The distances are compared as the starts are. -/
theorem sub_le_sub_iff {value other : UIntPtr} (h : value ≤ addressWithSlide)
    (hother : other ≤ addressWithSlide) :
    addressWithSlide - value ≤ addressWithSlide - other ↔ other ≤ value := by
  rw [BitVec.le_def, BitVec.toNat_sub_of_le h, BitVec.toNat_sub_of_le hother, BitVec.le_def]
  rw [BitVec.le_def] at h hother
  omega

theorem Best.After.next {best : Best} (h : best.After symbols count addressWithSlide) :
    (best.next addressWithSlide (symbols count)).After symbols (count + 1) addressWithSlide := by
  unfold Best.next
  by_cases hprecedes : Precedes addressWithSlide (symbols count)
  · obtain ⟨rfl, hnone⟩ | ⟨symbol, rfl, i, hi, rfl, hbest, hlast⟩ := h
    · have hmax : addressWithSlide - (symbols count).value ≤ ulongMax := by
        rw [BitVec.le_def, ulongMax, BitVec.toNat_allOnes]
        exact Nat.le_sub_one_of_lt (BitVec.isLt _)
      rw [if_pos ⟨hprecedes.1, hprecedes.2, hmax⟩]
      refine .inr ⟨_, rfl, count, Nat.lt_succ_self count, rfl, hprecedes, fun j hj hbefore => ?_⟩
      cases Nat.lt_succ_iff_lt_or_eq.mp hj with
      | inl hlt => exact absurd hbefore (hnone j hlt)
      | inr heq => exact .inr ⟨by rw [heq], Nat.le_of_eq heq⟩
    · by_cases hle : (symbols i).value ≤ (symbols count).value
      · rw [if_pos ⟨hprecedes.1, hprecedes.2, (sub_le_sub_iff hprecedes.2 hbest.2).mpr hle⟩]
        refine .inr ⟨_, rfl, count, Nat.lt_succ_self count, rfl, hprecedes, fun j hj hbefore => ?_⟩
        cases Nat.lt_succ_iff_lt_or_eq.mp hj with
        | inl hlt =>
          have hvalue : (symbols j).value ≤ (symbols count).value := by
            obtain hlt' | ⟨heq, -⟩ := hlast j hlt hbefore
            · exact BitVec.le_trans (BitVec.le_of_lt hlt') hle
            · exact heq ▸ hle
          by_cases heq : (symbols j).value = (symbols count).value
          · exact .inr ⟨heq, Nat.le_of_lt hlt⟩
          · refine .inl (BitVec.lt_def.mpr ?_)
            exact Nat.lt_of_le_of_ne (BitVec.le_def.mp hvalue) fun h => heq (BitVec.eq_of_toNat_eq h)
        | inr heq => exact .inr ⟨by rw [heq], Nat.le_of_eq heq⟩
      · rw [if_neg fun hall => hle ((sub_le_sub_iff hprecedes.2 hbest.2).mp hall.2.2)]
        refine .inr ⟨_, rfl, i, Nat.lt_succ_of_lt hi, rfl, hbest, fun j hj hbefore => ?_⟩
        cases Nat.lt_succ_iff_lt_or_eq.mp hj with
        | inl hlt => exact hlast j hlt hbefore
        | inr heq => exact .inl (heq ▸ BitVec.not_le.mp hle)
  · rw [if_neg fun hall => hprecedes ⟨hall.1, hall.2.1⟩]
    obtain ⟨rfl, hnone⟩ | ⟨symbol, rfl, i, hi, hsymbol, hbest, hlast⟩ := h
    · refine .inl ⟨rfl, fun j hj => ?_⟩
      cases Nat.lt_succ_iff_lt_or_eq.mp hj with
      | inl hlt => exact hnone j hlt
      | inr heq => exact heq ▸ hprecedes
    · refine .inr ⟨_, rfl, i, Nat.lt_succ_of_lt hi, hsymbol, hbest, fun j hj hbefore => ?_⟩
      cases Nat.lt_succ_iff_lt_or_eq.mp hj with
      | inl hlt => exact hlast j hlt hbefore
      | inr heq => exact absurd (heq ▸ hbefore) hprecedes

theorem after_foldl (symbols : Nat → NList) (count : Nat) (addressWithSlide : UIntPtr) :
    ((List.range count).foldl (fun (best : Best) i => best.next addressWithSlide (symbols i))
      ⟨none, ulongMax⟩).After symbols count addressWithSlide := by
  induction count with
  | zero => exact .inl ⟨rfl, fun j hj => absurd hj (Nat.not_lt_zero j)⟩
  | succ count ih =>
    rw [List.range_succ, List.foldl_append]
    exact ih.next

section Closest

variable (memory : Memory) (symbolTable : UIntPtr) (nsyms : Nat) (addressWithSlide : UIntPtr)

theorem closest_after : (closest memory symbolTable nsyms addressWithSlide).After
    (symbolAt memory symbolTable) nsyms addressWithSlide :=
  after_foldl (symbolAt memory symbolTable) nsyms addressWithSlide

theorem bestMatch_eq_some_iff (symbol : NList) :
    (closest memory symbolTable nsyms addressWithSlide).bestMatch = some symbol ↔
      IsClosest (symbolAt memory symbolTable) nsyms addressWithSlide symbol := by
  have hafter := closest_after memory symbolTable nsyms addressWithSlide
  obtain ⟨heq, hnone⟩ | ⟨best, heq, hbest⟩ := hafter
  · rw [heq]
    constructor
    · intro h
      cases h
    · intro ⟨i, hi, hsymbol, hprecedes, _⟩
      exact absurd (hsymbol ▸ hprecedes) (hnone i hi)
  · rw [heq]
    constructor
    · intro h
      cases h
      exact hbest
    · intro h
      rw [h.unique hbest]

theorem bestMatch_eq_none_iff :
    (closest memory symbolTable nsyms addressWithSlide).bestMatch = none ↔
      ∀ j < nsyms, ¬Precedes addressWithSlide (symbolAt memory symbolTable j) := by
  have hafter := closest_after memory symbolTable nsyms addressWithSlide
  obtain ⟨heq, hnone⟩ | ⟨best, heq, i, hi, hsymbol, hprecedes, -⟩ := hafter
  · rw [heq]
    exact ⟨fun _ => hnone, fun _ => rfl⟩
  · rw [heq]
    constructor
    · intro h
      cases h
    · intro hnone
      exact absurd (hsymbol ▸ hprecedes) (hnone i hi)

end Closest

/-- The symbol that the first table with a preceding symbol has, and its name. -/
def IsSymbolOf (memory : Memory) (segmentBase addressWithSlide : UIntPtr)
    (commands : List LoadCommand) (symbol : NList) (sname : Option String) : Prop :=
  ∃ before symoff nsyms stroff after,
    commands = before ++ .symtab symoff nsyms stroff :: after ∧
      (∀ symoff' nsyms' stroff', .symtab symoff' nsyms' stroff' ∈ before →
        ∀ j < nsyms'.toNat, ¬Precedes addressWithSlide
          (symbolAt memory (segmentBase + symoff'.setWidth 64) j)) ∧
      IsClosest (symbolAt memory (segmentBase + symoff.setWidth 64)) nsyms.toNat addressWithSlide
        symbol ∧
      sname = symbolName memory (segmentBase + stroff.setWidth 64) symbol

section Tables

variable {memory : Memory} {segmentBase addressWithSlide : UIntPtr} {commands : List LoadCommand}
  {symbol : NList} {sname : Option String}

theorem isSymbolOf_symtab {symoff nsyms stroff : BitVec 32} :
    IsSymbolOf memory segmentBase addressWithSlide (.symtab symoff nsyms stroff :: commands)
        symbol sname ↔
      (IsClosest (symbolAt memory (segmentBase + symoff.setWidth 64)) nsyms.toNat addressWithSlide
          symbol ∧ sname = symbolName memory (segmentBase + stroff.setWidth 64) symbol) ∨
        ((∀ j < nsyms.toNat, ¬Precedes addressWithSlide
            (symbolAt memory (segmentBase + symoff.setWidth 64) j)) ∧
          IsSymbolOf memory segmentBase addressWithSlide commands symbol sname) := by
  constructor
  · intro ⟨before, symoff', nsyms', stroff', after, hcommands, hbefore, hclosest, hname⟩
    cases before with
    | nil =>
      cases hcommands
      exact .inl ⟨hclosest, hname⟩
    | cons first before =>
      obtain ⟨rfl, htail⟩ := List.cons.inj hcommands
      refine .inr ⟨hbefore symoff nsyms stroff List.mem_cons_self, ?_⟩
      refine ⟨before, symoff', nsyms', stroff', after, htail, ?_, hclosest, hname⟩
      intro symoff nsyms stroff hmem
      exact hbefore symoff nsyms stroff (List.mem_cons_of_mem _ hmem)
  · intro h
    obtain ⟨hclosest, hname⟩ | ⟨hnone, before, symoff', nsyms', stroff', after, rfl, hrest⟩ := h
    · refine ⟨[], symoff, nsyms, stroff, commands, rfl, ?_, hclosest, hname⟩
      exact fun _ _ _ hmem => absurd hmem List.not_mem_nil
    · refine ⟨.symtab symoff nsyms stroff :: before, symoff', nsyms', stroff', after, rfl, ?_,
        hrest.2⟩
      intro symoff'' nsyms'' stroff'' hmem
      cases List.mem_cons.mp hmem with
      | inl heq =>
        cases heq
        exact hnone
      | inr hold => exact hrest.1 symoff'' nsyms'' stroff'' hold

theorem isSymbolOf_cons {command : LoadCommand}
    (h : ∀ symoff nsyms stroff, command ≠ .symtab symoff nsyms stroff) :
    IsSymbolOf memory segmentBase addressWithSlide (command :: commands) symbol sname ↔
      IsSymbolOf memory segmentBase addressWithSlide commands symbol sname := by
  constructor
  · intro ⟨before, symoff, nsyms, stroff, after, hcommands, hbefore, hrest⟩
    cases before with
    | nil => exact absurd (List.cons.inj hcommands).1 (h symoff nsyms stroff)
    | cons first before =>
      refine ⟨before, symoff, nsyms, stroff, after, (List.cons.inj hcommands).2, ?_, hrest⟩
      intro symoff nsyms stroff hmem
      exact hbefore symoff nsyms stroff (List.mem_cons_of_mem first hmem)
  · intro ⟨before, symoff, nsyms, stroff, after, hcommands, hbefore, hrest⟩
    refine ⟨command :: before, symoff, nsyms, stroff, after, by rw [hcommands]; rfl, ?_, hrest⟩
    intro symoff nsyms stroff hmem
    cases List.mem_cons.mp hmem with
    | inl heq => exact absurd heq.symm (h symoff nsyms stroff)
    | inr hold => exact hbefore symoff nsyms stroff hold

theorem findSymbol_symtab {symoff nsyms stroff : BitVec 32} :
    findSymbol memory segmentBase addressWithSlide (.symtab symoff nsyms stroff :: commands) =
      (((closest memory (segmentBase + symoff.setWidth 64) nsyms.toNat
          addressWithSlide).bestMatch).map fun symbol =>
        (symbol, symbolName memory (segmentBase + stroff.setWidth 64) symbol)).or
      (findSymbol memory segmentBase addressWithSlide commands) := by
  rw [findSymbol]
  cases (closest memory (segmentBase + symoff.setWidth 64) nsyms.toNat
    addressWithSlide).bestMatch <;> rfl

theorem findSymbol_eq_some_iff :
    findSymbol memory segmentBase addressWithSlide commands = some (symbol, sname) ↔
      IsSymbolOf memory segmentBase addressWithSlide commands symbol sname := by
  induction commands with
  | nil =>
    constructor
    · intro h
      cases h
    · intro ⟨before, symoff, nsyms, stroff, after, hcommands, _⟩
      exact absurd hcommands.symm (by simp)
  | cons command commands ih =>
    cases command with
    | symtab symoff nsyms stroff =>
      rw [findSymbol_symtab, isSymbolOf_symtab, Option.or_eq_some_iff, Option.map_eq_some_iff,
        Option.map_eq_none_iff, bestMatch_eq_none_iff, ih]
      refine or_congr_left ?_
      constructor
      · intro ⟨best, hbest, heq⟩
        cases heq
        exact ⟨(bestMatch_eq_some_iff _ _ _ _ _).mp hbest, rfl⟩
      · intro ⟨hclosest, hname⟩
        exact ⟨symbol, (bestMatch_eq_some_iff _ _ _ _ _).mpr hclosest, by rw [hname]⟩
    | segment segname vmaddr vmsize fileoff => exact ih.trans (isSymbolOf_cons (by simp)).symm
    | segment64 segname vmaddr vmsize fileoff => exact ih.trans (isSymbolOf_cons (by simp)).symm
    | other => exact ih.trans (isSymbolOf_cons (by simp)).symm

end Tables

/-- What an address that is in no image gives. -/
theorem dladdr_of_none {memory : Memory} {images : List Image} {address : UIntPtr}
    (h : imageContainingAddress images address = none) :
    dladdr memory images address = (false, ⟨none, none, none, none⟩) := by
  rw [dladdr, h]

/-- An image that contains an address has a header that is not corrupt. -/
theorem commands_of_contains {address : UIntPtr} {image : Image}
    (h : image.contains address = true) :
    ∃ header commands, image.header = some header ∧ firstCmdAfterHeader header = some commands := by
  unfold Image.contains at h
  cases hbind : image.header.bind firstCmdAfterHeader with
  | none =>
    rw [hbind] at h
    cases h
  | some commands =>
    obtain ⟨header, hheader, hcommands⟩ := Option.bind_eq_some_iff.mp hbind
    exact ⟨header, commands, hheader, hcommands⟩

theorem dladdr_of_some {memory : Memory} {images : List Image} {address : UIntPtr} {image : Image}
    {header : MachHeader} {commands : List LoadCommand}
    (himage : imageContainingAddress images address = some image)
    (hheader : image.header = some header) (hcommands : firstCmdAfterHeader header = some commands) :
    dladdr memory images address =
      let segmentBase := segmentBaseOfImage header + image.vmaddrSlide
      if segmentBase = 0 then (false, ⟨none, none, none, none⟩)
      else
        let found := findSymbol memory segmentBase (address - image.vmaddrSlide) commands
        (true, ⟨some image.name, some header.address, found.bind Prod.snd,
          found.map fun found => found.1.value + image.vmaddrSlide⟩) := by
  rw [dladdr, himage]
  simp only [hheader, hcommands]
  split
  · rfl
  · cases findSymbol memory (segmentBaseOfImage header + image.vmaddrSlide)
      (address - image.vmaddrSlide) commands <;> rfl

/-- The symbol of an address is that of the first image that has the address in a segment. -/
theorem dladdr_symbol_iff (memory : Memory) (images : List Image) (address saddr : UIntPtr)
    (sname : Option String) :
    ((dladdr memory images address).2.saddr = some saddr ∧
        (dladdr memory images address).2.sname = sname) ↔
      ∃ image header commands symbol, imageContainingAddress images address = some image ∧
        image.header = some header ∧ firstCmdAfterHeader header = some commands ∧
        segmentBaseOfImage header + image.vmaddrSlide ≠ 0 ∧
        IsSymbolOf memory (segmentBaseOfImage header + image.vmaddrSlide)
          (address - image.vmaddrSlide) commands symbol sname ∧
        saddr = symbol.value + image.vmaddrSlide := by
  cases himage : imageContainingAddress images address with
  | none =>
    rw [dladdr_of_none himage]
    simp
  | some image =>
    obtain ⟨header, commands, hheader, hcommands⟩ := commands_of_contains (List.find?_some himage)
    rw [dladdr_of_some himage hheader hcommands]
    by_cases hbase : segmentBaseOfImage header + image.vmaddrSlide = 0
    · simp [hbase, hheader]
    · simp only [if_neg hbase, Option.map_eq_some_iff]
      constructor
      · intro ⟨⟨⟨symbol, found⟩, hfound, hsaddr⟩, hname⟩
        rw [hfound, Option.bind_some] at hname
        subst hname
        exact ⟨image, header, commands, symbol, rfl, hheader, hcommands, hbase,
          findSymbol_eq_some_iff.mp hfound, hsaddr.symm⟩
      · intro ⟨image', header', commands', symbol, himage', hheader', hcommands', _, hsymbol, hsaddr⟩
        cases himage'
        cases hheader.symm.trans hheader'
        cases hcommands.symm.trans hcommands'
        have hfound := findSymbol_eq_some_iff.mpr hsymbol
        rw [hfound]
        exact ⟨⟨_, rfl, hsaddr.symm⟩, rfl⟩

/-- A symbol is found only with its image. -/
theorem dladdr_of_false {memory : Memory} {images : List Image} {address : UIntPtr}
    (h : (dladdr memory images address).1 = false) :
    (dladdr memory images address).2.saddr = none ∧
      (dladdr memory images address).2.sname = none := by
  cases himage : imageContainingAddress images address with
  | none =>
    rw [dladdr_of_none himage]
    exact ⟨rfl, rfl⟩
  | some image =>
    obtain ⟨header, commands, hheader, hcommands⟩ := commands_of_contains (List.find?_some himage)
    rw [dladdr_of_some himage hheader hcommands] at h ⊢
    dsimp only at h ⊢
    split at h
    · rename_i hbase
      rw [if_pos hbase]
      exact ⟨rfl, rfl⟩
    · cases h

theorem symbolicate_eq {memory : Memory} {images : List Image} {entry : StackEntry}
    (marker : entry.address ≠ asyncMarker) :
    (symbolicate memory images entry).2.symbolAddress =
        ((dladdr memory images (callInstructionFromReturnAddress entry.address)).2.saddr).getD 0 ∧
      (symbolicate memory images entry).2.symbolName =
        (dladdr memory images (callInstructionFromReturnAddress entry.address)).2.sname := by
  rw [symbolicate, if_neg marker]
  cases hfound : dladdr memory images (callInstructionFromReturnAddress entry.address) with
  | mk found info =>
    cases found with
    | true => exact ⟨rfl, rfl⟩
    | false =>
      have hnone := @dladdr_of_false memory images
        (callInstructionFromReturnAddress entry.address) (by rw [hfound])
      rw [hfound] at hnone
      rw [hnone.1, hnone.2]
      exact ⟨rfl, rfl⟩

/-- A return address is given the symbol that starts last before the call, of the first table that
has a symbol before it, of the first image that has the call in a segment. A symbol that starts
behind the call, at the return address, is not taken. -/
theorem symbolicate_symbol_iff (memory : Memory) (images : List Image) (entry : StackEntry)
    (marker : entry.address ≠ asyncMarker) (symbolAddress : UIntPtr) (found : symbolAddress ≠ 0)
    (symbolName : Option String) :
    ((symbolicate memory images entry).2.symbolAddress = symbolAddress ∧
        (symbolicate memory images entry).2.symbolName = symbolName) ↔
      ∃ image header commands symbol,
        imageContainingAddress images (callInstructionFromReturnAddress entry.address) =
          some image ∧
        image.header = some header ∧ firstCmdAfterHeader header = some commands ∧
        segmentBaseOfImage header + image.vmaddrSlide ≠ 0 ∧
        IsSymbolOf memory (segmentBaseOfImage header + image.vmaddrSlide)
          (callInstructionFromReturnAddress entry.address - image.vmaddrSlide) commands symbol
          symbolName ∧
        symbolAddress = symbol.value + image.vmaddrSlide := by
  obtain ⟨haddress, hname⟩ := @symbolicate_eq memory images entry marker
  rw [haddress, hname, ← dladdr_symbol_iff]
  refine and_congr_left fun _ => ?_
  cases hsaddr : (dladdr memory images (callInstructionFromReturnAddress entry.address)).2.saddr with
  | none => exact ⟨fun hzero => absurd hzero.symm found, fun hnone => by cases hnone⟩
  | some saddr => simp

/-- One image, with a function at 256 and one at 272 that is not called. -/
def exampleMemory : Memory where
  nlist address :=
    if address = 4352 then ⟨8, 0, 256⟩ else if address = 4368 then ⟨16, 0, 272⟩ else ⟨0, 0, 0⟩
  string address := if address = 5128 then "_main" else "_other"

def exampleImage : Image where
  name := "app"
  vmaddrSlide := 4096
  header := some ⟨4096, mhMagic64,
    [.segment64 "__TEXT" 256 64 0, .segment64 segLinkedit 256 1024 256, .symtab 256 2 1024]⟩

theorem symbolicate_symbol_iff_exampleImage :
    ((symbolicate exampleMemory [exampleImage] ⟨4368, none, 0, none, 0⟩).2.symbolAddress = 4352 ∧
        (symbolicate exampleMemory [exampleImage] ⟨4368, none, 0, none, 0⟩).2.symbolName =
          some "main") ↔
      ∃ image header commands symbol,
        imageContainingAddress [exampleImage] (callInstructionFromReturnAddress 4368) =
          some image ∧
        image.header = some header ∧ firstCmdAfterHeader header = some commands ∧
        segmentBaseOfImage header + image.vmaddrSlide ≠ 0 ∧
        IsSymbolOf exampleMemory (segmentBaseOfImage header + image.vmaddrSlide)
          (callInstructionFromReturnAddress 4368 - image.vmaddrSlide) commands symbol
          (some "main") ∧
        (4352 : UIntPtr) = symbol.value + image.vmaddrSlide :=
  symbolicate_symbol_iff exampleMemory [exampleImage] ⟨4368, none, 0, none, 0⟩ (by decide) 4352
    (by decide) (some "main")

end SentryCocoa.DynamicLinker
