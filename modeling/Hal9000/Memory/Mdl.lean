import Hal9000.Memory.PagingCorrect

/-!
# Memory descriptor lists

`MdlAllocateEx` looks up the physical address of every page of a buffer, twice: once to count the
pairs of the list and once to fill them. Pages whose frames follow each other share a pair.
-/

namespace Hal9000

structure MdlTranslationPair where
  address : Nat
  numberOfBytes : Nat
  deriving DecidableEq, Repr

structure MemoryDescriptorList where
  byteCount : Nat
  startVa : Nat
  byteOffset : Nat
  translations : List MdlTranslationPair
  deriving DecidableEq, Repr

/-- `0` is `NULL`. The offset in the page is added to the result whatever this is. -/
def mmuGetPhysicalAddressEx (memory : PhysicalMemory) (pagingData : PagingData)
    (virtualAddress : Nat) : Option Nat := do
  if virtualAddress = 0 then return 0
  let pa ← vmmGetPhysicalAddress memory ⟨pagingData.basePhysicalAddress⟩
    (alignAddressLower virtualAddress pageSize)
  return ptrOffset pa (addressOffset virtualAddress pageSize)

section Loops

variable (memory : PhysicalMemory) (pagingData : PagingData) (alignedAddress : Nat)

/-- The first loop: the pair at hand and the number of pairs. -/
def countPairs : Nat → Nat → MdlTranslationPair → Nat → Option (MdlTranslationPair × Nat)
  | 0, _, pair, noOfPairs => some (pair,noOfPairs)
  | count + 1, offset, pair, noOfPairs => do
    let pa ← mmuGetPhysicalAddressEx memory pagingData (ptrOffset alignedAddress offset)
    assert (pa != 0)
    if ptrOffset pair.address pair.numberOfBytes = pa then
      countPairs count (offset + pageSize) ⟨pair.address,pair.numberOfBytes + pageSize⟩ noOfPairs
    else countPairs count (offset + pageSize) ⟨pa,pageSize⟩ (noOfPairs + 1)

/-- The second loop: the pair at hand, and those in front of it. -/
def fillPairs : Nat → Nat → MdlTranslationPair → List MdlTranslationPair →
    Option (MdlTranslationPair × List MdlTranslationPair)
  | 0, _, pair, translations => some (pair,translations)
  | count + 1, offset, pair, translations => do
    let pa ← mmuGetPhysicalAddressEx memory pagingData (ptrOffset alignedAddress offset)
    assert (pa != 0)
    if ptrOffset pair.address pair.numberOfBytes = pa then
      fillPairs count (offset + pageSize) ⟨pair.address,pair.numberOfBytes + pageSize⟩ translations
    else fillPairs count (offset + pageSize) ⟨pa,pageSize⟩ (translations ++ [pair])

end Loops

/-- The size of the pages looked up, kept in 32 bits. -/
def mdlAlignedSize (virtualAddress length : Nat) : Nat :=
  alignAddressUpper ((length + addressOffset virtualAddress pageSize) % 2 ^ 32) pageSize % 2 ^ 32

/-- Called with paging data; memory of the kernel is as it is after it is probed. The outer `none`
is a failed assertion, the inner one `NULL`. -/
def mdlAllocateEx (memory : PhysicalMemory) (pagingData : PagingData) (heapAvailable : Bool)
    (virtualAddress length : Nat) : Option (Option MemoryDescriptorList) := do
  assert (virtualAddress != 0)
  assert (length != 0)
  let alignedAddress := alignAddressLower virtualAddress pageSize
  let alignmentDifferences := addressOffset virtualAddress pageSize
  -- the loops start at the second page
  let count := mdlAlignedSize virtualAddress length / pageSize - 1
  let address ← mmuGetPhysicalAddressEx memory pagingData virtualAddress
  if address = 0 then
    assert (!pagingData.kernelSpace)
    return none
  let (_,noOfPairs) ← countPairs memory pagingData alignedAddress count pageSize
    ⟨address,pageSize - alignmentDifferences⟩ 1
  if !heapAvailable then return none
  let address ← mmuGetPhysicalAddressEx memory pagingData virtualAddress
  assert (address != 0)
  let (pair,translations) ← fillPairs memory pagingData alignedAddress count pageSize
    ⟨address,pageSize - alignmentDifferences⟩ []
  let translations := translations ++ [pair]
  assert (translations.length == noOfPairs)
  return some ⟨length,alignedAddress,alignmentDifferences,translations⟩

/-- What `_VmmMapDescribedRegion` maps of a pair. -/
def MdlTranslationPair.alignedPa (pair : MdlTranslationPair) : Nat :=
  alignAddressLower pair.address pageSize

def MdlTranslationPair.alignedPaSize (pair : MdlTranslationPair) : Nat :=
  alignAddressUpper (pair.numberOfBytes + addressOffset pair.address pageSize) pageSize

def MdlTranslationPair.frames (pair : MdlTranslationPair) : List Nat :=
  (List.range (pair.alignedPaSize / pageSize)).map fun i => pair.alignedPa + i * pageSize

def MemoryDescriptorList.frames (mdl : MemoryDescriptorList) : List Nat :=
  mdl.translations.flatMap MdlTranslationPair.frames

/-- The pair ends with a page. -/
structure MdlTranslationPair.Whole (pair : MdlTranslationPair) : Prop where
  nonempty : pair.numberOfBytes ≠ 0
  aligned : (pair.address + pair.numberOfBytes) % pageSize = 0
  bounded : pair.address + pair.numberOfBytes < 2 ^ 63

section Pairs

variable {pair : MdlTranslationPair} {pa offset : Nat}

theorem MdlTranslationPair.Whole.alignedPaSize_eq (h : pair.Whole) :
    pair.alignedPaSize = pair.numberOfBytes + addressOffset pair.address pageSize := by
  obtain ⟨_,haligned,hbounded⟩ := h
  simp only [MdlTranslationPair.alignedPaSize,alignAddressUpper,alignAddressLower,addressOffset,
    pageSize,qwordModulus] at *
  omega

theorem frames_single (hpa : pa % pageSize = 0) (hoffset : offset < pageSize)
    (hbound : pa < 2 ^ 53) :
    (MdlTranslationPair.mk (pa + offset) (pageSize - offset)).Whole ∧
      (MdlTranslationPair.mk (pa + offset) (pageSize - offset)).frames = [pa] := by
  have hwhole : (MdlTranslationPair.mk (pa + offset) (pageSize - offset)).Whole := by
    simp only [pageSize] at hpa hoffset
    constructor <;> simp only [pageSize] <;> omega
  refine ⟨hwhole,?_⟩
  have hlower : alignAddressLower (pa + offset) pageSize = pa := by
    simp only [alignAddressLower,pageSize] at *
    omega
  have hone : (pageSize - offset + (pa + offset) % pageSize) / pageSize = 1 := by
    simp only [pageSize] at *
    omega
  rw [MdlTranslationPair.frames,hwhole.alignedPaSize_eq]
  simp only [addressOffset,MdlTranslationPair.alignedPa,hone,hlower,List.range_one,List.map_cons,
    List.map_nil,Nat.zero_mul,Nat.add_zero]

theorem frames_extend (h : pair.Whole) (hpa : pair.address + pair.numberOfBytes = pa)
    (hbound : pa < 2 ^ 53) :
    (MdlTranslationPair.mk pair.address (pair.numberOfBytes + pageSize)).Whole ∧
      (MdlTranslationPair.mk pair.address (pair.numberOfBytes + pageSize)).frames =
        pair.frames ++ [pa] := by
  obtain ⟨hnonempty,haligned,_⟩ := id h
  have hwhole : (MdlTranslationPair.mk pair.address (pair.numberOfBytes + pageSize)).Whole := by
    simp only [pageSize] at haligned
    constructor <;> simp only [pageSize] <;> omega
  refine ⟨hwhole,?_⟩
  have hcount : (pair.numberOfBytes + pageSize + addressOffset pair.address pageSize) / pageSize =
      (pair.numberOfBytes + addressOffset pair.address pageSize) / pageSize + 1 := by
    simp only [addressOffset,pageSize] at *
    omega
  have hlast : alignAddressLower pair.address pageSize +
      (pair.numberOfBytes + addressOffset pair.address pageSize) / pageSize * pageSize = pa := by
    simp only [alignAddressLower,addressOffset,pageSize] at *
    omega
  rw [MdlTranslationPair.frames,MdlTranslationPair.frames,hwhole.alignedPaSize_eq,
    h.alignedPaSize_eq]
  simp only [MdlTranslationPair.alignedPa,hcount,List.range_succ,List.map_append,List.map_cons,
    List.map_nil,hlast]

end Pairs

/-- A lookup finds a frame. -/
def FindsFrame (memory : PhysicalMemory) (pagingData : PagingData) (virtualAddress : Nat) : Prop :=
  ∃ pa, mmuGetPhysicalAddressEx memory pagingData virtualAddress = some pa ∧ pa ≠ 0

/-- The entries hold the addresses of frames, which have 40 bits and 12 zeros. -/
def HoldsFrames (memory : PhysicalMemory) : Prop :=
  ∀ table offset, (memory table offset).physicalAddress % pageSize = 0 ∧
    (memory table offset).physicalAddress < 2 ^ 52

/-- The frame of a page. -/
def pageFrame (memory : PhysicalMemory) (pagingData : PagingData) (virtualAddress : Nat) : Nat :=
  (mmuGetPhysicalAddressEx memory pagingData virtualAddress).getD 0

section Lookups

variable {memory : PhysicalMemory} {pagingData : PagingData} {alignedAddress offset count : Nat}
  {pair : MdlTranslationPair} {translations : List MdlTranslationPair}

private theorem leafAt_entry {root : Nat} {path : List (Fin 512)} {entry : PtEntry} {levels : Nat}
    (h : memory.leafAt root path = some (entry,levels)) :
    ∃ table offset, memory table offset = entry := by
  induction path generalizing root with
  | nil => cases h
  | cons index path ih =>
    cases hslot : (memory root index).slot with
    | empty =>
      rw [PhysicalMemory.leafAt,RadixTree.leafAt_empty hslot] at h
      cases h
    | leaf =>
      cases path with
      | nil =>
        simp only [PhysicalMemory.leafAt,RadixTree.leafAt,hslot] at h
        exact ⟨root,index,(Prod.mk.inj (Option.some.inj h)).1⟩
      | cons =>
        simp only [PhysicalMemory.leafAt,RadixTree.leafAt,hslot] at h
        exact ⟨root,index,(Prod.mk.inj (Option.some.inj h)).1⟩
    | table next =>
      cases path with
      | nil =>
        simp only [PhysicalMemory.leafAt,RadixTree.leafAt,hslot] at h
        exact ⟨root,index,(Prod.mk.inj (Option.some.inj h)).1⟩
      | cons =>
        simp only [PhysicalMemory.leafAt,RadixTree.leafAt,hslot] at h
        exact ih h

theorem leafAddress_frame (hentries : HoldsFrames memory) {root virtualAddress pa : Nat}
    (haligned : virtualAddress % pageSize = 0)
    (h : leafAddress virtualAddress (memory.leafAt root (tableOffsets virtualAddress)) = some pa) :
    pa % pageSize = 0 ∧ pa < 2 ^ 53 := by
  cases hleaf : memory.leafAt root (tableOffsets virtualAddress) with
  | none =>
    rw [hleaf] at h
    cases h
    decide
  | some leaf =>
    obtain ⟨entry,levels⟩ := leaf
    obtain ⟨table,index,rfl⟩ := leafAt_entry hleaf
    obtain ⟨hframe,hbound⟩ := hentries table index
    rw [hleaf] at h
    match levels with
    | 0 =>
      obtain rfl := Option.some.inj h
      exact ⟨hframe,by omega⟩
    | 1 =>
      obtain rfl := Option.some.inj h
      simp only [ptrOffset,pteLargePageGetPhysicalAddress,alignAddressLower,addressOffset,
        page2MbSize,pageSize,qwordModulus] at *
      omega
    | levels + 2 => cases h

private theorem lookup_frame (hentries : HoldsFrames memory) {virtualAddress pa : Nat}
    (haligned : virtualAddress % pageSize = 0) (hword : virtualAddress < qwordModulus)
    (h : mmuGetPhysicalAddressEx memory pagingData virtualAddress = some pa) :
    pa % pageSize = 0 ∧ pa < 2 ^ 53 := by
  by_cases hnull : virtualAddress = 0
  · rw [mmuGetPhysicalAddressEx,if_pos hnull] at h
    obtain rfl := Option.some.inj h
    decide
  · simp only [mmuGetPhysicalAddressEx,if_neg hnull,Option.bind_eq_bind,Option.bind_eq_some_iff,
      Option.pure_def,Option.some.injEq] at h
    obtain ⟨frame,hframe,rfl⟩ := h
    have hlower : alignAddressLower virtualAddress pageSize = virtualAddress := by
      simp only [alignAddressLower,pageSize] at *
      omega
    have haligned' : isAddressAligned virtualAddress pageSize = true := beq_iff_eq.mpr haligned
    rw [hlower,vmmGetPhysicalAddress_eq memory _ hnull haligned' hword] at hframe
    obtain ⟨hframe,hbound⟩ := leafAddress_frame hentries haligned hframe
    simp only [ptrOffset,addressOffset,pageSize,qwordModulus] at *
    omega

private theorem pageOffset_succ (offset i : Nat) :
    offset + (i + 1) * pageSize = offset + pageSize + i * pageSize := by
  ring

private theorem pageOffset_next (h : offset % pageSize = 0) : (offset + pageSize) % pageSize = 0 := by
  rw [Nat.add_mod_right,h]

private theorem lookup_offset (hentries : HoldsFrames memory) {pa : Nat}
    (haligned : alignedAddress % pageSize = 0) (hoffset : offset % pageSize = 0)
    (h : mmuGetPhysicalAddressEx memory pagingData (ptrOffset alignedAddress offset) = some pa) :
    pa % pageSize = 0 ∧ pa < 2 ^ 53 := by
  have hword : ptrOffset alignedAddress offset < qwordModulus := Nat.mod_lt _ (by decide)
  have hpage : ptrOffset alignedAddress offset % pageSize = 0 := by
    simp only [ptrOffset,pageSize,qwordModulus] at *
    omega
  exact lookup_frame hentries hpage hword h

private theorem pageFrame_offset {pa : Nat}
    (h : mmuGetPhysicalAddressEx memory pagingData (ptrOffset alignedAddress offset) = some pa) :
    pageFrame memory pagingData (ptrOffset alignedAddress (offset + 0 * pageSize)) = pa := by
  rw [Nat.zero_mul,Nat.add_zero,pageFrame,h]
  rfl

private theorem fillPairs_spec (hentries : HoldsFrames memory)
    (haligned : alignedAddress % pageSize = 0) (hoffset : offset % pageSize = 0)
    (hwhole : pair.Whole) (hall : ∀ p ∈ translations, p.Whole)
    (hfound : ∀ i < count,
      FindsFrame memory pagingData (ptrOffset alignedAddress (offset + i * pageSize))) :
    ∃ pair' translations',
      fillPairs memory pagingData alignedAddress count offset pair translations =
        some (pair',translations') ∧
      countPairs memory pagingData alignedAddress count offset pair (translations.length + 1) =
        some (pair',translations'.length + 1) ∧
      (∀ p ∈ translations' ++ [pair'], p.Whole) ∧
      (translations' ++ [pair']).head?.map MdlTranslationPair.address =
        (translations ++ [pair]).head?.map MdlTranslationPair.address ∧
      (translations' ++ [pair']).flatMap MdlTranslationPair.frames =
        (translations ++ [pair]).flatMap MdlTranslationPair.frames ++ (List.range count).map fun i =>
          pageFrame memory pagingData (ptrOffset alignedAddress (offset + i * pageSize)) := by
  induction count generalizing offset pair translations with
  | zero =>
    refine ⟨pair,translations,rfl,rfl,?_,rfl,by simp⟩
    intro p hp
    rcases List.mem_append.mp hp with hp | hp
    · exact hall p hp
    · obtain rfl := List.mem_singleton.mp hp
      exact hwhole
  | succ count ih =>
    obtain ⟨pa,hpa,hne⟩ := hfound 0 (Nat.succ_pos count)
    rw [Nat.zero_mul,Nat.add_zero] at hpa
    have hassert : assert (pa != 0) = some () := assert_eq_some.mpr (bne_iff_ne.mpr hne)
    obtain ⟨hframe,hbound⟩ := lookup_offset hentries haligned hoffset hpa
    have hnext : (offset + pageSize) % pageSize = 0 := pageOffset_next hoffset
    have hfound' : ∀ i < count, FindsFrame memory pagingData
        (ptrOffset alignedAddress (offset + pageSize + i * pageSize)) := by
      intro i hi
      rw [← pageOffset_succ offset i]
      exact hfound (i + 1) (Nat.succ_lt_succ hi)
    have hframes : (List.range (count + 1)).map (fun i =>
        pageFrame memory pagingData (ptrOffset alignedAddress (offset + i * pageSize))) =
        pa :: (List.range count).map fun i =>
          pageFrame memory pagingData (ptrOffset alignedAddress (offset + pageSize + i * pageSize)) := by
      rw [List.range_succ_eq_map,List.map_cons,List.map_map,pageFrame_offset hpa]
      refine congrArg (List.cons pa) ?_
      apply List.map_congr_left
      intro i _
      rw [← pageOffset_succ offset i]
      rfl
    have hsum : ptrOffset pair.address pair.numberOfBytes = pair.address + pair.numberOfBytes := by
      have hlt := hwhole.bounded
      simp only [ptrOffset,qwordModulus]
      omega
    simp only [fillPairs,countPairs,hpa,hassert,Option.bind_eq_bind,Option.bind_some]
    rw [hframes]
    by_cases hsame : ptrOffset pair.address pair.numberOfBytes = pa
    · simp only [if_pos hsame]
      obtain ⟨hwhole',hextend⟩ := frames_extend hwhole (hsum.symm.trans hsame) hbound
      obtain ⟨pair',translations',hfill,hcount,hwholes,hhead,hlist⟩ := ih hnext hwhole' hall hfound'
      refine ⟨pair',translations',hfill,hcount,hwholes,?_,?_⟩
      · rw [hhead]
        cases translations with
        | nil => rfl
        | cons => rfl
      · rw [hlist,List.flatMap_append,List.flatMap_append,List.flatMap_singleton,
          List.flatMap_singleton,hextend]
        simp only [List.append_assoc,List.cons_append,List.nil_append]
    · simp only [if_neg hsame]
      obtain ⟨hwhole',hsingle⟩ := frames_single hframe (show 0 < pageSize by decide) hbound
      simp only [Nat.add_zero,Nat.sub_zero] at hwhole' hsingle
      have hall' : ∀ p ∈ translations ++ [pair], p.Whole := by
        intro p hp
        rcases List.mem_append.mp hp with hp | hp
        · exact hall p hp
        · obtain rfl := List.mem_singleton.mp hp
          exact hwhole
      obtain ⟨pair',translations',hfill,hcount,hwholes,hhead,hlist⟩ := ih hnext hwhole' hall' hfound'
      rw [List.length_append,List.length_singleton] at hcount
      refine ⟨pair',translations',hfill,hcount,hwholes,?_,?_⟩
      · rw [hhead]
        cases translations with
        | nil => rfl
        | cons => rfl
      · rw [hlist,List.flatMap_append,List.flatMap_singleton,hsingle]
        simp only [List.append_assoc,List.cons_append,List.nil_append]

private theorem countPairs_found {noOfPairs : Nat} {result : MdlTranslationPair × Nat}
    (h : countPairs memory pagingData alignedAddress count offset pair noOfPairs = some result) :
    ∀ i < count, FindsFrame memory pagingData (ptrOffset alignedAddress (offset + i * pageSize)) := by
  induction count generalizing offset pair noOfPairs with
  | zero => exact fun i hi => absurd hi (Nat.not_lt_zero i)
  | succ count ih =>
    simp only [countPairs,Option.bind_eq_bind,Option.bind_eq_some_iff] at h
    obtain ⟨pa,hpa,_,hne,h⟩ := h
    intro i hi
    cases i with
    | zero =>
      rw [Nat.zero_mul,Nat.add_zero]
      exact ⟨pa,hpa,bne_iff_ne.mp (assert_eq_some.mp hne)⟩
    | succ i =>
      rw [pageOffset_succ]
      split at h
      · exact ih h i (Nat.lt_of_succ_lt_succ hi)
      · exact ih h i (Nat.lt_of_succ_lt_succ hi)

end Lookups

/-- The number of pages with a byte of the buffer. -/
def pageCount (virtualAddress length : Nat) : Nat :=
  (addressOffset virtualAddress pageSize + length + (pageSize - 1)) / pageSize

/-- The page with a number, counted from the first of the buffer. -/
def bufferPage (virtualAddress k : Nat) : Nat :=
  ptrOffset (alignAddressLower virtualAddress pageSize) (k * pageSize)

theorem bufferPage_succ (virtualAddress k : Nat) : bufferPage virtualAddress (k + 1) =
    ptrOffset (alignAddressLower virtualAddress pageSize) (pageSize + k * pageSize) := by
  rw [bufferPage,Nat.succ_mul,Nat.add_comm]

/-- Every page of the buffer is mapped. -/
def BufferMapped (memory : PhysicalMemory) (pagingData : PagingData) (virtualAddress length : Nat) :
    Prop :=
  ∀ k < pageCount virtualAddress length, IsMapped memory pagingData (bufferPage virtualAddress k)

/-- The number of pages behind the first one that are looked up. -/
def laterPages (virtualAddress length : Nat) : Nat :=
  mdlAlignedSize virtualAddress length / pageSize - 1

/-- The pages behind the first one that are looked up are found. -/
def LaterPagesFound (memory : PhysicalMemory) (pagingData : PagingData)
    (virtualAddress length : Nat) : Prop :=
  ∀ i < laterPages virtualAddress length,
    FindsFrame memory pagingData (bufferPage virtualAddress (i + 1))

/-- The list holds the frames of the buffer's pages in order, and starts at its first byte. -/
structure MemoryDescriptorList.Describes (mdl : MemoryDescriptorList) (memory : PhysicalMemory)
    (pagingData : PagingData) (virtualAddress length : Nat) : Prop where
  byteCount : mdl.byteCount = length
  startVa : mdl.startVa = alignAddressLower virtualAddress pageSize
  byteOffset : mdl.byteOffset = addressOffset virtualAddress pageSize
  frames : mdl.frames.map some = (List.range (pageCount virtualAddress length)).map fun k =>
    translate memory pagingData (bufferPage virtualAddress k)
  first : ∃ pair rest, mdl.translations = pair :: rest ∧
    addressOffset pair.address pageSize = mdl.byteOffset
  whole : ∀ pair ∈ mdl.translations, pair.Whole

section Call

variable {memory : PhysicalMemory} {pagingData : PagingData} {virtualAddress length : Nat}

theorem laterPages_eq (hlength : length < 2 ^ 32) (hcount : pageCount virtualAddress length < 2 ^ 20) :
    laterPages virtualAddress length = pageCount virtualAddress length - 1 := by
  simp only [pageCount,laterPages,mdlAlignedSize,alignAddressUpper,alignAddressLower,addressOffset,
    pageSize,qwordModulus] at *
  omega

theorem laterPages_wrapped (hlength : length < 2 ^ 32)
    (hcount : ¬ pageCount virtualAddress length < 2 ^ 20) : laterPages virtualAddress length = 0 := by
  simp only [pageCount,laterPages,mdlAlignedSize,alignAddressUpper,alignAddressLower,addressOffset,
    pageSize,qwordModulus] at *
  omega

private theorem lookup_first {address : Nat} (hentries : HoldsFrames memory)
    (hva : virtualAddress < qwordModulus) (hne : virtualAddress ≠ 0)
    (h : mmuGetPhysicalAddressEx memory pagingData virtualAddress = some address) :
    alignAddressLower virtualAddress pageSize ≠ 0 ∧ ∃ frame,
      translate memory pagingData (bufferPage virtualAddress 0) = some frame ∧
      pageFrame memory pagingData (bufferPage virtualAddress 0) = frame ∧
      frame % pageSize = 0 ∧ frame < 2 ^ 53 ∧
      address = frame + addressOffset virtualAddress pageSize := by
  have hbuffer : bufferPage virtualAddress 0 = alignAddressLower virtualAddress pageSize := by
    simp only [bufferPage,ptrOffset,alignAddressLower,pageSize,qwordModulus] at *
    omega
  simp only [mmuGetPhysicalAddressEx,if_neg hne,Option.bind_eq_bind,Option.bind_eq_some_iff,
    Option.pure_def,Option.some.injEq] at h
  obtain ⟨frame,hframe,rfl⟩ := h
  have hbase : alignAddressLower virtualAddress pageSize ≠ 0 := by
    intro hzero
    rw [hzero] at hframe
    cases hframe
  have haligned : alignAddressLower virtualAddress pageSize % pageSize = 0 := by
    simp only [alignAddressLower,pageSize]
    omega
  have hword : alignAddressLower virtualAddress pageSize < qwordModulus := by
    simp only [alignAddressLower,pageSize] at *
    omega
  have htranslate := hframe
  rw [vmmGetPhysicalAddress_eq memory _ hbase (beq_iff_eq.mpr haligned) hword] at htranslate
  obtain ⟨hzeros,hbound⟩ := leafAddress_frame hentries haligned htranslate
  have hlower : alignAddressLower (alignAddressLower virtualAddress pageSize) pageSize =
      alignAddressLower virtualAddress pageSize := by
    simp only [alignAddressLower,pageSize]
    omega
  refine ⟨hbase,frame,by rw [hbuffer]; exact hframe,?_,hzeros,hbound,?_⟩
  · rw [hbuffer,pageFrame,mmuGetPhysicalAddressEx,if_neg hbase,hlower,hframe,addressOffset,haligned]
    exact Nat.mod_eq_of_lt (by simp only [qwordModulus]; omega)
  · simp only [ptrOffset,addressOffset,pageSize,qwordModulus] at *
    omega

theorem mdlAllocateEx_found {address : Nat} (hentries : HoldsFrames memory)
    (hva : virtualAddress < qwordModulus) (hne : virtualAddress ≠ 0) (hlength : length ≠ 0)
    (haddress : mmuGetPhysicalAddressEx memory pagingData virtualAddress = some address)
    (hnonzero : address ≠ 0) (hfound : LaterPagesFound memory pagingData virtualAddress length) :
    ∃ mdl : MemoryDescriptorList,
      (∀ heapAvailable, mdlAllocateEx memory pagingData heapAvailable virtualAddress length =
        some (if heapAvailable then some mdl else none)) ∧
      mdl.byteCount = length ∧ mdl.startVa = alignAddressLower virtualAddress pageSize ∧
      mdl.byteOffset = addressOffset virtualAddress pageSize ∧
      mdl.frames = (List.range (laterPages virtualAddress length + 1)).map (fun k =>
        pageFrame memory pagingData (bufferPage virtualAddress k)) ∧
      (∃ pair rest, mdl.translations = pair :: rest ∧
        addressOffset pair.address pageSize = mdl.byteOffset) ∧
      ∀ pair ∈ mdl.translations, pair.Whole := by
  obtain ⟨hbase,frame,-,hpage,hzeros,hbound,rfl⟩ := lookup_first hentries hva hne haddress
  have hoffset : addressOffset virtualAddress pageSize < pageSize := Nat.mod_lt _ (by decide)
  obtain ⟨hwhole,hsingle⟩ := frames_single hzeros hoffset hbound
  have haligned : alignAddressLower virtualAddress pageSize % pageSize = 0 := by
    simp only [alignAddressLower,pageSize]
    omega
  have hpages : ∀ i < laterPages virtualAddress length, FindsFrame memory pagingData
      (ptrOffset (alignAddressLower virtualAddress pageSize) (pageSize + i * pageSize)) := by
    intro i hi
    rw [← bufferPage_succ]
    exact hfound i hi
  have hnone : ∀ pair ∈ ([] : List MdlTranslationPair), pair.Whole :=
    fun _ hp => absurd hp List.not_mem_nil
  obtain ⟨pair,translations,hfill,hcount,hwholes,hhead,hlist⟩ :=
    fillPairs_spec hentries haligned (Nat.mod_self _) hwhole hnone hpages
  refine ⟨⟨length,_,_,translations ++ [pair]⟩,?_,rfl,rfl,rfl,?_,?_,hwholes⟩
  · intro heapAvailable
    have hassert : assert (virtualAddress != 0) = some () := assert_eq_some.mpr (bne_iff_ne.mpr hne)
    have hassert' : assert (length != 0) = some () := assert_eq_some.mpr (bne_iff_ne.mpr hlength)
    have hassert'' : assert (frame + addressOffset virtualAddress pageSize != 0) = some () :=
      assert_eq_some.mpr (bne_iff_ne.mpr hnonzero)
    rw [laterPages] at hfill hcount
    rw [mdlAllocateEx,hassert,hassert']
    simp only [Option.bind_eq_bind,Option.bind_some,haddress,if_neg hnonzero]
    rw [List.length_nil,Nat.zero_add] at hcount
    simp only [hcount,Option.bind_some]
    cases heapAvailable with
    | false => rfl
    | true =>
      simp only [Bool.not_true,hassert'',hfill,Option.bind_some,List.length_append,
        List.length_singleton,beq_self_eq_true,assert_true]
      rfl
  · rw [MemoryDescriptorList.frames,hlist,List.nil_append,List.flatMap_singleton,hsingle,
      List.range_succ_eq_map,List.map_cons,List.map_map,hpage,List.singleton_append]
    refine congrArg (List.cons frame) (List.map_congr_left ?_)
    intro i _
    exact congrArg _ (bufferPage_succ virtualAddress i).symm
  · cases htranslations : translations ++ [pair] with
    | nil => simp at htranslations
    | cons first rest =>
      rw [htranslations] at hhead
      refine ⟨first,rest,rfl,?_⟩
      have hfirst : first.address = frame + addressOffset virtualAddress pageSize :=
        Option.some.inj hhead
      rw [hfirst]
      simp only [addressOffset,pageSize] at *
      omega

/-- What a list of `MdlAllocateEx` is like. -/
structure MemoryDescriptorList.Valid (mdl : MemoryDescriptorList) : Prop where
  whole : ∀ pair ∈ mdl.translations, pair.Whole
  length_le : mdl.frames.length ≤ 2 ^ 20

theorem translate_of_findsFrame (hentries : HoldsFrames memory) {page : Nat}
    (haligned : page % pageSize = 0) (hword : page < qwordModulus)
    (h : FindsFrame memory pagingData page) :
    translate memory pagingData page = some (pageFrame memory pagingData page) := by
  obtain ⟨pa,hpa,hne⟩ := h
  obtain ⟨hzeros,hbound⟩ := lookup_frame hentries haligned hword hpa
  rw [pageFrame,hpa]
  have hnonzero : page ≠ 0 := by
    rintro rfl
    cases hpa
    exact hne rfl
  have hlower : alignAddressLower page pageSize = page := by
    simp only [alignAddressLower,pageSize] at *
    omega
  simp only [mmuGetPhysicalAddressEx,if_neg hnonzero,hlower,addressOffset,haligned,
    Option.bind_eq_bind,Option.bind_eq_some_iff,Option.pure_def,Option.some.injEq] at hpa
  obtain ⟨frame,hframe,rfl⟩ := hpa
  have htranslate := hframe
  rw [vmmGetPhysicalAddress_eq memory _ hnonzero (beq_iff_eq.mpr haligned) hword] at htranslate
  obtain ⟨-,hbound'⟩ := leafAddress_frame hentries haligned htranslate
  have hsame : ptrOffset frame 0 = frame := Nat.mod_eq_of_lt (by simp only [qwordModulus]; omega)
  rw [hsame]
  exact hframe

theorem bufferPage_page (virtualAddress k : Nat) :
    bufferPage virtualAddress k % pageSize = 0 ∧ bufferPage virtualAddress k < qwordModulus := by
  simp only [bufferPage,ptrOffset,alignAddressLower,pageSize,qwordModulus]
  omega

private theorem mdlAllocateEx_eq_some {heapAvailable : Bool} {result : Option MemoryDescriptorList}
    (h : mdlAllocateEx memory pagingData heapAvailable virtualAddress length = some result) :
    ∃ address, mmuGetPhysicalAddressEx memory pagingData virtualAddress = some address ∧
      (address = 0 ∧ result = none ∨
        address ≠ 0 ∧ LaterPagesFound memory pagingData virtualAddress length) := by
  simp only [mdlAllocateEx,Option.bind_eq_bind,Option.bind_eq_some_iff] at h
  obtain ⟨_,_,_,_,address,haddress,h⟩ := h
  refine ⟨address,haddress,?_⟩
  by_cases hzero : address = 0
  · rw [if_pos hzero] at h
    obtain ⟨_,_,h⟩ := Option.bind_eq_some_iff.mp h
    exact Or.inl ⟨hzero,(Option.some.inj h).symm⟩
  · rw [if_neg hzero] at h
    obtain ⟨⟨pair,noOfPairs⟩,hcount,-⟩ := Option.bind_eq_some_iff.mp h
    refine Or.inr ⟨hzero,?_⟩
    intro i hi
    rw [bufferPage_succ]
    exact countPairs_found hcount i hi

theorem mdlAllocateEx_frames (hentries : HoldsFrames memory) (hva : virtualAddress < qwordModulus)
    {heapAvailable : Bool} {mdl : MemoryDescriptorList}
    (h : mdlAllocateEx memory pagingData heapAvailable virtualAddress length = some (some mdl)) :
    alignAddressLower virtualAddress pageSize ≠ 0 ∧
      mdl.frames.map some = (List.range (laterPages virtualAddress length + 1)).map fun k =>
        translate memory pagingData (bufferPage virtualAddress k) := by
  have hasserts := h
  simp only [mdlAllocateEx,Option.bind_eq_bind,Option.bind_eq_some_iff] at hasserts
  obtain ⟨_,hne,_,hlength,-⟩ := hasserts
  have hne := bne_iff_ne.mp (assert_eq_some.mp hne)
  have hlength := bne_iff_ne.mp (assert_eq_some.mp hlength)
  obtain ⟨address,haddress,⟨-,hnone⟩ | ⟨hnonzero,hfound⟩⟩ := mdlAllocateEx_eq_some h
  · cases hnone
  obtain ⟨mdl',hmdl,-,-,-,hframes,-⟩ :=
    mdlAllocateEx_found hentries hva hne hlength haddress hnonzero hfound
  rw [hmdl heapAvailable] at h
  cases heapAvailable with
  | false => cases h
  | true =>
    obtain rfl := Option.some.inj (Option.some.inj h)
    obtain ⟨hbase,frame,htranslate,hpage,-⟩ := lookup_first hentries hva hne haddress
    refine ⟨hbase,?_⟩
    rw [hframes,List.map_map]
    apply List.map_congr_left
    intro k hk
    cases k with
    | zero => rw [Function.comp_apply,hpage,htranslate]
    | succ k =>
      obtain ⟨haligned,hword⟩ := bufferPage_page virtualAddress (k + 1)
      exact (translate_of_findsFrame hentries haligned hword
        (hfound k (by simpa using hk))).symm

theorem mdlAllocateEx_valid (hentries : HoldsFrames memory) (hva : virtualAddress < qwordModulus)
    {heapAvailable : Bool} {mdl : MemoryDescriptorList}
    (h : mdlAllocateEx memory pagingData heapAvailable virtualAddress length = some (some mdl)) :
    mdl.Valid := by
  have hasserts := h
  simp only [mdlAllocateEx,Option.bind_eq_bind,Option.bind_eq_some_iff] at hasserts
  obtain ⟨_,hne,_,hlength,-⟩ := hasserts
  have hne := bne_iff_ne.mp (assert_eq_some.mp hne)
  have hlength := bne_iff_ne.mp (assert_eq_some.mp hlength)
  obtain ⟨address,haddress,⟨-,hnone⟩ | ⟨hnonzero,hfound⟩⟩ := mdlAllocateEx_eq_some h
  · cases hnone
  · obtain ⟨mdl',hmdl,-,-,-,hframes,-,hwhole⟩ :=
      mdlAllocateEx_found hentries hva hne hlength haddress hnonzero hfound
    rw [hmdl heapAvailable] at h
    cases heapAvailable with
    | false => cases h
    | true =>
      obtain rfl := Option.some.inj (Option.some.inj h)
      refine ⟨hwhole,?_⟩
      rw [hframes,List.length_map,List.length_range]
      simp only [laterPages,mdlAlignedSize,pageSize]
      omega

end Call

/-- There is a list that describes the buffer if all of it is mapped and there is memory for the
list, and `NULL` is returned else. -/
def MdlFollowsMapping (memory : PhysicalMemory) (pagingData : PagingData) (heapAvailable : Bool)
    (virtualAddress length : Nat) : Prop :=
  (BufferMapped memory pagingData virtualAddress length ∧ heapAvailable = true →
    ∃ mdl, mdlAllocateEx memory pagingData heapAvailable virtualAddress length = some (some mdl) ∧
      mdl.Describes memory pagingData virtualAddress length) ∧
  (¬ (BufferMapped memory pagingData virtualAddress length ∧ heapAvailable = true) →
    mdlAllocateEx memory pagingData heapAvailable virtualAddress length = some none)

section Claim

variable {memory : PhysicalMemory} {pagingData : PagingData} {virtualAddress length : Nat}

private theorem mdlAllocateEx_unmapped (huser : pagingData.kernelSpace = false)
    (hne : virtualAddress ≠ 0) (hlength : length ≠ 0)
    (haddress : mmuGetPhysicalAddressEx memory pagingData virtualAddress = some 0)
    (heapAvailable : Bool) :
    mdlAllocateEx memory pagingData heapAvailable virtualAddress length = some none := by
  have hassert : assert (virtualAddress != 0) = some () := assert_eq_some.mpr (bne_iff_ne.mpr hne)
  have hassert' : assert (length != 0) = some () := assert_eq_some.mpr (bne_iff_ne.mpr hlength)
  rw [mdlAllocateEx,hassert,hassert']
  simp only [Option.bind_eq_bind,Option.bind_some,haddress,if_true,huser,Bool.not_false,assert_true]
  rfl

private theorem laterPages_follow {address : Nat} (hentries : HoldsFrames memory)
    (hva : virtualAddress < qwordModulus) (hdword : length < 2 ^ 32) (hne : virtualAddress ≠ 0)
    (hlength : length ≠ 0)
    (haddress : mmuGetPhysicalAddressEx memory pagingData virtualAddress = some address)
    (hfound : LaterPagesFound memory pagingData virtualAddress length)
    (hshort : pageCount virtualAddress length < 2 ^ 20) :
    ((List.range (laterPages virtualAddress length + 1)).map fun k =>
        pageFrame memory pagingData (bufferPage virtualAddress k)).map some =
      (List.range (pageCount virtualAddress length)).map fun k =>
        translate memory pagingData (bufferPage virtualAddress k) := by
  have hone : 1 ≤ pageCount virtualAddress length := by
    simp only [pageCount,pageSize]
    omega
  rw [laterPages_eq hdword hshort,Nat.sub_add_cancel hone,List.map_map]
  apply List.map_congr_left
  intro k hk
  cases k with
  | zero =>
    obtain ⟨-,frame,htranslate,hpage,-⟩ := lookup_first hentries hva hne haddress
    rw [Function.comp_apply,hpage,htranslate]
  | succ k =>
    obtain ⟨haligned,hword⟩ := bufferPage_page virtualAddress (k + 1)
    refine (translate_of_findsFrame hentries haligned hword (hfound k ?_)).symm
    rw [laterPages_eq hdword hshort]
    have hlt := List.mem_range.mp hk
    omega

/-- A list of user memory is right if and only if the first byte is looked up as `NULL` and not
all of the buffer is mapped, or else the later pages are found, and all of the buffer is mapped and
ends before 4 GB, counted from its first page, unless there is no memory for the list. -/
theorem mdl_follows_mapping_iff (huser : pagingData.kernelSpace = false)
    (hentries : HoldsFrames memory) (hva : virtualAddress < qwordModulus)
    (hlength : length ≤ maxDword) (heapAvailable : Bool) :
    MdlFollowsMapping memory pagingData heapAvailable virtualAddress length ↔
      virtualAddress ≠ 0 ∧ length ≠ 0 ∧ ∃ address,
        mmuGetPhysicalAddressEx memory pagingData virtualAddress = some address ∧
        (address = 0 ∧ (heapAvailable = true →
            ¬ BufferMapped memory pagingData virtualAddress length) ∨
          address ≠ 0 ∧ LaterPagesFound memory pagingData virtualAddress length ∧
            (heapAvailable = true → BufferMapped memory pagingData virtualAddress length ∧
              pageCount virtualAddress length < 2 ^ 20)) := by
  have hdword : length < 2 ^ 32 := by
    simp only [maxDword] at hlength
    omega
  constructor
  · rintro ⟨hmapped,hunmapped⟩
    have hreturns : ∃ result,
        mdlAllocateEx memory pagingData heapAvailable virtualAddress length = some result := by
      by_cases hboth : BufferMapped memory pagingData virtualAddress length ∧ heapAvailable = true
      · obtain ⟨mdl,hmdl,-⟩ := hmapped hboth
        exact ⟨_,hmdl⟩
      · exact ⟨_,hunmapped hboth⟩
    obtain ⟨result,hresult⟩ := hreturns
    have hne : virtualAddress ≠ 0 := by
      rintro rfl
      cases hresult
    have hpositive : length ≠ 0 := by
      rintro rfl
      simp only [mdlAllocateEx,Option.bind_eq_bind,Option.bind_eq_some_iff] at hresult
      obtain ⟨_,_,_,hzero,_⟩ := hresult
      simp at hzero
    refine ⟨hne,hpositive,?_⟩
    obtain ⟨address,haddress,⟨hzero,rfl⟩ | ⟨hnonzero,hfound⟩⟩ :=
      mdlAllocateEx_eq_some hresult
    · refine ⟨address,haddress,Or.inl ⟨hzero,?_⟩⟩
      intro hheap hbuffer
      obtain ⟨mdl,hmdl,-⟩ := hmapped ⟨hbuffer,hheap⟩
      rw [hresult] at hmdl
      cases hmdl
    · refine ⟨address,haddress,Or.inr ⟨hnonzero,hfound,?_⟩⟩
      rintro rfl
      obtain ⟨mdl,hmdl,-,-,-,hframes,-⟩ :=
        mdlAllocateEx_found hentries hva hne hpositive haddress hnonzero hfound
      have hbuffer : BufferMapped memory pagingData virtualAddress length := by
        by_contra hnot
        have hnull := hunmapped fun hboth => hnot hboth.1
        rw [hmdl true] at hnull
        cases hnull
      refine ⟨hbuffer,?_⟩
      by_contra hlong
      obtain ⟨mdl',hmdl',hdescribes⟩ := hmapped ⟨hbuffer,rfl⟩
      rw [hmdl true] at hmdl'
      obtain rfl := Option.some.inj (Option.some.inj hmdl')
      have hcount := congrArg List.length hdescribes.frames
      rw [hframes,laterPages_wrapped hdword hlong] at hcount
      simp only [List.length_map,List.length_range] at hcount
      omega
  · rintro ⟨hne,hpositive,address,haddress,⟨hzero,hnot⟩ | ⟨hnonzero,hfound,hheap⟩⟩
    · subst address
      have hnull := mdlAllocateEx_unmapped huser hne hpositive haddress heapAvailable
      exact ⟨fun hboth => absurd hboth.1 (hnot hboth.2),fun _ => hnull⟩
    · obtain ⟨mdl,hmdl,hbytes,hstart,hoffset,hframes,hfirst,hwhole⟩ :=
        mdlAllocateEx_found hentries hva hne hpositive haddress hnonzero hfound
      constructor
      · rintro ⟨-,rfl⟩
        obtain ⟨-,hshort⟩ := hheap rfl
        refine ⟨mdl,hmdl true,hbytes,hstart,hoffset,?_,hfirst,hwhole⟩
        rw [hframes]
        exact laterPages_follow hentries hva hdword hne hpositive haddress hfound hshort
      · intro hnot
        rw [hmdl heapAvailable]
        cases heapAvailable with
        | false => rfl
        | true => exact absurd ⟨(hheap rfl).1,rfl⟩ hnot

end Claim

/-- An entry of the present page or table at an address. -/
def presentEntry (physicalAddress : Nat) : PtEntry :=
  { ptEntryZero with
    present := true
    physicalAddress := physicalAddress }

/-- The tables of a process with two pages at `0x200000`, mapped to frames that do not follow each
other. -/
def twoPageTables : PhysicalMemory := fun table offset =>
  if table = 0x100000 ∧ offset = 0 then presentEntry 0x101000
  else if table = 0x101000 ∧ offset = 0 then presentEntry 0x102000
  else if table = 0x102000 ∧ offset = 1 then presentEntry 0x103000
  else if table = 0x103000 ∧ offset = 0 then presentEntry 0x500000
  else if table = 0x103000 ∧ offset = 1 then presentEntry 0x400000
  else ptEntryZero

/-- Paging data of a process with its root at 1 MB. -/
def userPaging : PagingData := ⟨0x100000,16,4,false⟩

theorem twoPageTables_frames : HoldsFrames twoPageTables := by
  intro table offset
  unfold twoPageTables
  repeat' split
  all_goals decide

/-- A buffer in the middle of the two pages gets a list of two pairs. -/
theorem mdl_follows_mapping_two : MdlFollowsMapping twoPageTables userPaging true 0x200800 0x1000 := by
  have hmapped : BufferMapped twoPageTables userPaging 0x200800 0x1000 := by
    unfold BufferMapped
    decide +kernel
  refine (mdl_follows_mapping_iff rfl twoPageTables_frames (by decide) (by decide) true).mpr
    ⟨by decide,by decide,0x500800,by decide +kernel,
      Or.inr ⟨by decide,?_,fun _ => ⟨hmapped,by decide⟩⟩⟩
  intro i hi
  have hone : laterPages 0x200800 0x1000 = 1 := by decide
  rw [hone,Nat.lt_one_iff] at hi
  subst hi
  exact ⟨0x400000,by decide +kernel,by decide⟩

/-- A buffer behind the first byte of a page that is not mapped: the offset in the page is taken for
a physical address. -/
theorem unmapped_buffer_described :
    ¬ BufferMapped emptyTables userPaging 0x200010 0x10 ∧
      mdlAllocateEx emptyTables userPaging true 0x200010 0x10 =
        some (some ⟨0x10,0x200000,0x10,[⟨0x10,0xFF0⟩]⟩) := by
  unfold BufferMapped
  decide +kernel

/-- The physical addresses of the bytes of a pair. -/
def MdlTranslationPair.bytes (pair : MdlTranslationPair) : List Nat :=
  (List.range pair.numberOfBytes).map (pair.address + ·)

def MemoryDescriptorList.bytes (mdl : MemoryDescriptorList) : List Nat :=
  mdl.translations.flatMap MdlTranslationPair.bytes

/-- The second pair does not start where the first one ends. -/
def Separate (first second : MdlTranslationPair) : Prop :=
  first.address + first.numberOfBytes ≠ second.address

/-- The bytes of the list are those of the buffer's pages, from the first byte of the buffer on,
each pair is as long as it can be, and there are as many pairs as were counted. -/
structure MemoryDescriptorList.Expands (mdl : MemoryDescriptorList) (memory : PhysicalMemory)
    (pagingData : PagingData) (virtualAddress length : Nat) : Prop where
  counted : ∃ address pair, mmuGetPhysicalAddressEx memory pagingData virtualAddress = some address ∧
    countPairs memory pagingData (alignAddressLower virtualAddress pageSize)
      (laterPages virtualAddress length) pageSize
      ⟨address,pageSize - addressOffset virtualAddress pageSize⟩ 1 =
        some (pair,mdl.translations.length)
  size : mdl.bytes.length + addressOffset virtualAddress pageSize =
    pageCount virtualAddress length * pageSize
  long : length ≤ mdl.bytes.length
  bytes : ∀ i < mdl.bytes.length, ∃ frame,
    translate memory pagingData (bufferPage virtualAddress
      ((addressOffset virtualAddress pageSize + i) / pageSize)) = some frame ∧
    mdl.bytes[i]? = some (frame + (addressOffset virtualAddress pageSize + i) % pageSize)
  separate : mdl.translations.IsChain Separate

/-- The bytes of the pages, one page after another. -/
def pageBytes (frame : Nat → Nat) (count : Nat) : List Nat :=
  (List.range count).flatMap fun k => (List.range pageSize).map (frame k + ·)

theorem pageBytes_succ (frame : Nat → Nat) (count : Nat) :
    pageBytes frame (count + 1) =
      pageBytes frame count ++ (List.range pageSize).map (frame count + ·) := by
  rw [pageBytes,List.range_succ,List.flatMap_append,List.flatMap_singleton]
  rfl

theorem pageBytes_cons (frame : Nat → Nat) (count : Nat) :
    pageBytes frame (count + 1) =
      (List.range pageSize).map (frame 0 + ·) ++ pageBytes (fun k => frame (k + 1)) count := by
  rw [pageBytes,List.range_succ_eq_map,List.flatMap_cons,List.flatMap_map]
  rfl

theorem pageBytes_length (frame : Nat → Nat) (count : Nat) :
    (pageBytes frame count).length = count * pageSize := by
  induction count with
  | zero => rw [Nat.zero_mul]; rfl
  | succ count ih =>
    rw [pageBytes_succ,List.length_append,ih,List.length_map,List.length_range,Nat.succ_mul]

theorem pageBytes_getElem? (frame : Nat → Nat) {count i : Nat} (hi : i < count * pageSize) :
    (pageBytes frame count)[i]? = some (frame (i / pageSize) + i % pageSize) := by
  induction count with
  | zero =>
    rw [Nat.zero_mul] at hi
    exact absurd hi (Nat.not_lt_zero i)
  | succ count ih =>
    rw [pageBytes_succ]
    by_cases hlast : i < count * pageSize
    · rw [List.getElem?_append_left (by rwa [pageBytes_length])]
      exact ih hlast
    · have hpage : i / pageSize = count ∧ i % pageSize = i - count * pageSize := by
        simp only [pageSize] at *
        omega
      rw [List.getElem?_append_right (by rw [pageBytes_length]; omega),pageBytes_length,hpage.1,
        hpage.2,List.getElem?_map,List.getElem?_range (by simp only [pageSize] at *; omega)]
      rfl

theorem bytes_extend (address numberOfBytes : Nat) :
    (MdlTranslationPair.mk address (numberOfBytes + pageSize)).bytes =
      (MdlTranslationPair.mk address numberOfBytes).bytes ++
        (List.range pageSize).map (address + numberOfBytes + ·) := by
  rw [MdlTranslationPair.bytes,MdlTranslationPair.bytes,List.range_add,List.map_append,
    List.map_map]
  refine congrArg _ (List.map_congr_left (fun i _ => ?_))
  rw [Function.comp_apply,Nat.add_assoc]

theorem isChain_separate_extend {translations : List MdlTranslationPair}
    {address numberOfBytes numberOfBytes' : Nat}
    (h : (translations ++ [MdlTranslationPair.mk address numberOfBytes]).IsChain Separate) :
    (translations ++ [MdlTranslationPair.mk address numberOfBytes']).IsChain Separate := by
  rw [List.isChain_append] at h ⊢
  refine ⟨h.1,List.isChain_singleton _,fun last hlast next hnext => ?_⟩
  cases hnext
  exact h.2.2 last hlast ⟨address,numberOfBytes⟩ rfl

section Expansion

variable {memory : PhysicalMemory} {pagingData : PagingData} {alignedAddress offset count : Nat}
  {pair : MdlTranslationPair} {translations : List MdlTranslationPair}

private theorem fillPairs_expands (hentries : HoldsFrames memory)
    (haligned : alignedAddress % pageSize = 0) (hoffset : offset % pageSize = 0)
    (hbound : pair.address + pair.numberOfBytes < 2 ^ 63)
    (hchain : (translations ++ [pair]).IsChain Separate)
    {result : MdlTranslationPair × List MdlTranslationPair}
    (h : fillPairs memory pagingData alignedAddress count offset pair translations =
      some result) :
    (result.2 ++ [result.1]).IsChain Separate ∧
      (result.2 ++ [result.1]).flatMap MdlTranslationPair.bytes =
        (translations ++ [pair]).flatMap MdlTranslationPair.bytes ++ pageBytes (fun i =>
          pageFrame memory pagingData (ptrOffset alignedAddress (offset + i * pageSize))) count := by
  induction count generalizing offset pair translations with
  | zero =>
    cases h
    exact ⟨hchain,(List.append_nil _).symm⟩
  | succ count ih =>
    simp only [fillPairs,Option.bind_eq_bind,Option.bind_eq_some_iff] at h
    obtain ⟨pa,hpa,_,_,h⟩ := h
    obtain ⟨_,hframe⟩ := lookup_offset hentries haligned hoffset hpa
    have hnext : (offset + pageSize) % pageSize = 0 := pageOffset_next hoffset
    have hsum : ptrOffset pair.address pair.numberOfBytes = pair.address + pair.numberOfBytes := by
      simp only [ptrOffset,qwordModulus]
      omega
    rw [pageBytes_cons,pageFrame_offset hpa]
    simp only [pageOffset_succ]
    by_cases hsame : ptrOffset pair.address pair.numberOfBytes = pa
    · rw [if_pos hsame] at h
      rw [hsum] at hsame
      obtain ⟨hchain',hbytes⟩ := ih hnext (by simp only [pageSize]; omega)
        (isChain_separate_extend hchain) h
      refine ⟨hchain',hbytes.trans ?_⟩
      rw [List.flatMap_append,List.flatMap_append,List.flatMap_singleton,List.flatMap_singleton,
        bytes_extend,hsame]
      simp only [List.append_assoc]
    · rw [if_neg hsame] at h
      rw [hsum] at hsame
      have hchain' : (translations ++ [pair] ++ [MdlTranslationPair.mk pa pageSize]).IsChain Separate := by
        rw [List.isChain_append]
        refine ⟨hchain,List.isChain_singleton _,fun last hlast next hnext => ?_⟩
        rw [List.getLast?_append] at hlast
        cases hlast
        cases hnext
        exact hsame
      obtain ⟨hchain'',hbytes⟩ := ih hnext (by simp only [pageSize]; omega) hchain' h
      refine ⟨hchain'',hbytes.trans ?_⟩
      rw [List.flatMap_append,List.flatMap_singleton,MdlTranslationPair.bytes]
      simp only [List.append_assoc]

variable {virtualAddress length : Nat} {mdl : MemoryDescriptorList}

theorem bytes_first (frame : Nat) {byteOffset : Nat} (h : byteOffset < pageSize) :
    (MdlTranslationPair.mk (frame + byteOffset) (pageSize - byteOffset)).bytes =
      ((List.range pageSize).map (frame + ·)).drop byteOffset := by
  apply List.ext_getElem?
  intro i
  rw [MdlTranslationPair.bytes,List.getElem?_drop,List.getElem?_map,List.getElem?_map]
  dsimp only
  by_cases hi : i < pageSize - byteOffset
  · rw [List.getElem?_range hi,List.getElem?_range (by omega),Option.map_some,Option.map_some,
      Nat.add_assoc]
  · rw [List.getElem?_eq_none (by rw [List.length_range]; omega),
      List.getElem?_eq_none (by rw [List.length_range]; omega)]
    rfl

theorem mdlAllocateEx_bytes (hentries : HoldsFrames memory) (hva : virtualAddress < qwordModulus)
    (h : mdlAllocateEx memory pagingData true virtualAddress length = some (some mdl)) :
    FindsFrame memory pagingData virtualAddress ∧
    (∃ address pair,
      mmuGetPhysicalAddressEx memory pagingData virtualAddress = some address ∧
      countPairs memory pagingData (alignAddressLower virtualAddress pageSize)
        (laterPages virtualAddress length) pageSize
        ⟨address,pageSize - addressOffset virtualAddress pageSize⟩ 1 =
          some (pair,mdl.translations.length)) ∧
    mdl.bytes = (pageBytes (fun k => pageFrame memory pagingData (bufferPage virtualAddress k))
      (laterPages virtualAddress length + 1)).drop (addressOffset virtualAddress pageSize) ∧
    mdl.translations.IsChain Separate := by
  simp only [mdlAllocateEx,Option.bind_eq_bind,Option.bind_eq_some_iff] at h
  obtain ⟨_,hne,_,_,address,haddress,h⟩ := h
  have hne := bne_iff_ne.mp (assert_eq_some.mp hne)
  by_cases hzero : address = 0
  · rw [if_pos hzero] at h
    obtain ⟨_,_,h⟩ := Option.bind_eq_some_iff.mp h
    cases h
  · rw [if_neg hzero] at h
    obtain ⟨⟨counted,noOfPairs⟩,hcount,h⟩ := Option.bind_eq_some_iff.mp h
    simp only [Bool.not_true,Bool.false_eq_true,if_false,haddress,Option.bind_some] at h
    obtain ⟨_,_,h⟩ := Option.bind_eq_some_iff.mp h
    obtain ⟨⟨pair,translations⟩,hfill,h⟩ := Option.bind_eq_some_iff.mp h
    obtain ⟨_,hpairs,h⟩ := Option.bind_eq_some_iff.mp h
    cases h
    have hpairs := beq_iff_eq.mp (assert_eq_some.mp hpairs)
    obtain ⟨_,frame,_,hpage,_,hbound,rfl⟩ := lookup_first hentries hva hne haddress
    have hoffset : addressOffset virtualAddress pageSize < pageSize := Nat.mod_lt _ (by decide)
    have haligned : alignAddressLower virtualAddress pageSize % pageSize = 0 := by
      simp only [alignAddressLower,pageSize]
      omega
    obtain ⟨hchain,hbytes⟩ := fillPairs_expands hentries haligned (Nat.mod_self _)
      (by simp only [pageSize] at hoffset ⊢; omega) (List.isChain_singleton _) hfill
    refine ⟨⟨_,haddress,hzero⟩,⟨_,counted,haddress,hpairs ▸ hcount⟩,?_,hchain⟩
    simp only [← bufferPage_succ] at hbytes
    rw [pageBytes_cons,hpage,List.drop_append_of_le_length
      (by rw [List.length_map,List.length_range]; exact Nat.le_of_lt hoffset),
      ← bytes_first frame hoffset]
    rw [List.nil_append,List.flatMap_singleton] at hbytes
    exact hbytes

theorem mdlAllocateEx_expands_iff (hentries : HoldsFrames memory)
    (hva : virtualAddress < qwordModulus) (hdword : length < 2 ^ 32) (hpositive : length ≠ 0)
    (h : mdlAllocateEx memory pagingData true virtualAddress length = some (some mdl)) :
    mdl.Expands memory pagingData virtualAddress length ↔
      pageCount virtualAddress length < 2 ^ 20 := by
  obtain ⟨hfirst,hcounted,hbytes,hchain⟩ := mdlAllocateEx_bytes hentries hva h
  have hoffset : addressOffset virtualAddress pageSize < pageSize := Nat.mod_lt _ (by decide)
  have hsize : mdl.bytes.length + addressOffset virtualAddress pageSize =
      (laterPages virtualAddress length + 1) * pageSize := by
    rw [hbytes,List.length_drop,pageBytes_length,Nat.succ_mul]
    omega
  have hone : 1 ≤ pageCount virtualAddress length := by
    simp only [pageCount,pageSize]
    omega
  constructor
  · intro hexpands
    by_contra hlong
    have hcount := hexpands.size
    rw [hsize,laterPages_wrapped hdword hlong] at hcount
    simp only [pageSize] at hcount
    omega
  · intro hshort
    have hlater := laterPages_eq hdword hshort
    rw [hlater,Nat.sub_add_cancel hone] at hsize
    refine ⟨hcounted,hsize,?_,?_,hchain⟩
    · simp only [pageCount,pageSize] at hsize
      omega
    · intro i hi
      have hpage : addressOffset virtualAddress pageSize + i <
          (laterPages virtualAddress length + 1) * pageSize := by
        rw [hlater,Nat.sub_add_cancel hone,← hsize]
        omega
      refine ⟨pageFrame memory pagingData (bufferPage virtualAddress
        ((addressOffset virtualAddress pageSize + i) / pageSize)),?_,?_⟩
      · obtain ⟨address,haddress,hnonzero⟩ := hfirst
        have hresult := mdlAllocateEx_eq_some h
        obtain ⟨address',haddress',⟨_,hnone⟩ | ⟨_,hfound⟩⟩ := hresult
        · cases hnone
        · cases hk : (addressOffset virtualAddress pageSize + i) / pageSize with
          | zero =>
            have hne : virtualAddress ≠ 0 := by
              rintro rfl
              cases haddress
              exact hnonzero rfl
            obtain ⟨_,frame,htranslate,hframe,_⟩ := lookup_first hentries hva hne haddress
            rw [hframe]
            exact htranslate
          | succ k =>
            obtain ⟨haligned,hword⟩ := bufferPage_page virtualAddress (k + 1)
            refine translate_of_findsFrame hentries haligned hword (hfound k ?_)
            have hlt := Nat.div_lt_of_lt_mul (Nat.mul_comm _ pageSize ▸ hpage)
            omega
      · rw [hbytes,List.getElem?_drop]
        exact pageBytes_getElem? _ hpage

/-- There is a list with the bytes of the buffer exactly when every page of it is looked up as an
address other than 0 and it ends, rounded up, before 4 GB, counted from its first page. -/
theorem mdl_expands_iff (hentries : HoldsFrames memory) (hva : virtualAddress < qwordModulus)
    (hpositive : length ≠ 0) (hlength : length ≤ maxDword) :
    (∃ mdl, mdlAllocateEx memory pagingData true virtualAddress length = some (some mdl) ∧
      mdl.Expands memory pagingData virtualAddress length) ↔
      FindsFrame memory pagingData virtualAddress ∧
      (∀ k, k + 1 < pageCount virtualAddress length →
        FindsFrame memory pagingData (bufferPage virtualAddress (k + 1))) ∧
      pageCount virtualAddress length < 2 ^ 20 := by
  have hdword : length < 2 ^ 32 := by
    simp only [maxDword] at hlength
    omega
  constructor
  · rintro ⟨mdl,hmdl,hexpands⟩
    have hshort := (mdlAllocateEx_expands_iff hentries hva hdword hpositive hmdl).mp hexpands
    refine ⟨(mdlAllocateEx_bytes hentries hva hmdl).1,fun k hk => ?_,hshort⟩
    obtain ⟨_,_,⟨_,hnone⟩ | ⟨_,hfound⟩⟩ := mdlAllocateEx_eq_some hmdl
    · cases hnone
    · refine hfound k ?_
      rw [laterPages_eq hdword hshort]
      omega
  · rintro ⟨⟨address,haddress,hnonzero⟩,hfound,hshort⟩
    have hne : virtualAddress ≠ 0 := by
      rintro rfl
      cases haddress
      exact hnonzero rfl
    have hlater : LaterPagesFound memory pagingData virtualAddress length := by
      intro i hi
      rw [laterPages_eq hdword hshort] at hi
      exact hfound i (by omega)
    obtain ⟨mdl,hmdl,_⟩ :=
      mdlAllocateEx_found hentries hva hne hpositive haddress hnonzero hlater
    exact ⟨mdl,hmdl true,
      (mdlAllocateEx_expands_iff hentries hva hdword hpositive (hmdl true)).mpr hshort⟩

end Expansion

/-- The buffer in the middle of the two pages. -/
theorem mdl_expands_two : ∃ mdl,
    mdlAllocateEx twoPageTables userPaging true 0x200800 0x1000 = some (some mdl) ∧
      mdl.Expands twoPageTables userPaging 0x200800 0x1000 := by
  refine (mdl_expands_iff twoPageTables_frames (by decide) (by decide) (by decide)).mpr
    ⟨⟨0x500800,by decide +kernel,by decide⟩,fun k hk => ?_,by decide⟩
  have hcount : pageCount 0x200800 0x1000 = 2 := by decide
  obtain rfl : k = 0 := by omega
  exact ⟨0x400000,by decide +kernel,by decide⟩

/-- Tables that map every page to the frame at `0x1000`. -/
def oneFrameTables : PhysicalMemory := fun _ _ => presentEntry 0x1000

/-- The list of a buffer of 4 GB less a byte, mapped in full, has one page. -/
theorem mdl_expands_wrapped :
    BufferMapped oneFrameTables userPaging 0x200000 0xFFFFFFFF ∧
    mdlAllocateEx oneFrameTables userPaging true 0x200000 0xFFFFFFFF =
      some (some ⟨0xFFFFFFFF,0x200000,0,[⟨0x1000,0x1000⟩]⟩) ∧
    ¬ ∃ mdl, mdlAllocateEx oneFrameTables userPaging true 0x200000 0xFFFFFFFF = some (some mdl) ∧
      mdl.Expands oneFrameTables userPaging 0x200000 0xFFFFFFFF := by
  have hbuilt : mdlAllocateEx oneFrameTables userPaging true 0x200000 0xFFFFFFFF =
      some (some ⟨0xFFFFFFFF,0x200000,0,[⟨0x1000,0x1000⟩]⟩) := by decide +kernel
  refine ⟨fun k _ => rfl,hbuilt,?_⟩
  intro ⟨mdl,hmdl,hexpands⟩
  rw [hbuilt] at hmdl
  cases hmdl
  have hlong := hexpands.long
  rw [MemoryDescriptorList.bytes,List.flatMap_singleton,MdlTranslationPair.bytes,List.length_map,
    List.length_range] at hlong
  exact absurd hlong (by decide)

end Hal9000
