import Hal9000.Memory.CommittedPages
import Hal9000.Memory.Mdl
import Hal9000.Memory.PageFault

/-!
# Concurrent regions

`VmmSolvePageFault`, `VmmAllocRegionEx` and `VmmFreeRegionEx` on any number of processors, in one
address space. A step ends with each lock that is left: what a function has read under the
reservation lock it uses under the paging lock without looking again.
-/

namespace Hal9000

/-- The pages that the walk of a range visits. -/
def walkedPages (baseAddress size : Nat) : List Nat :=
  (List.range ((size + (pageSize - 1)) / pageSize)).map fun k => ptrOffset baseAddress (k * pageSize)

/-- `MmuMapMemoryInternal`, on what the tables translate. -/
def mapPages (translation : Nat → Option Nat) (physicalAddress size virtualAddress : Nat)
    (invalidate : Bool) : Option (Nat → Option Nat) := do
  assert (size != 0)
  assert (isAddressAligned size pageSize)
  assert (virtualAddress != 0)
  assert (isAddressAligned virtualAddress pageSize)
  assert (isAddressAligned physicalAddress pageSize)
  let pages := walkedPages virtualAddress size
  -- `_VmMapPage` asserts that it is given no `NULL` page
  assert (!decide (0 ∈ pages))
  return fun page =>
    if page ∈ pages ∧ ((translation page).isNone ∨ invalidate = true) then
      some (ptrOffset physicalAddress (ptrDiff page virtualAddress))
    else translation page

/-- `MmuUnmapMemoryEx`. The aligned size is a 32-bit word. -/
def unmapPages (translation : Nat → Option Nat) (virtualAddress size : Nat) :
    Option (Nat → Option Nat) := do
  assert (virtualAddress != 0)
  assert (size != 0)
  let alignedVirtualAddress := alignAddressLower virtualAddress pageSize
  let alignmentDifferences := (virtualAddress - alignedVirtualAddress) % 2 ^ 32
  let alignedSize :=
    alignAddressUpper ((size + alignmentDifferences) % qwordModulus) pageSize % 2 ^ 32
  if alignedVirtualAddress = 0 then return translation
  let pages := walkedPages alignedVirtualAddress alignedSize
  assert (!decide (0 ∈ pages))
  return fun page => if page ∈ pages then none else translation page

/-- The arguments of `VmmAllocRegionEx`; the allocation type has two flags more than those the
reservation space looks at. -/
structure RegionArguments where
  request : AllocRequest
  notLazy : Bool
  zero : Bool
  mdl : Option MemoryDescriptorList

/-- Where a processor is, and the locals that are still in use. -/
inductive RegionPc
  | idle
  -- `VmmSolvePageFault`
  | checkAccess (faultingAddress : Nat) (rightsRequested : PageRights)
  | reserveFrame (page : Nat) (grant : AccessGrant)
  | mapPage (page : Nat) (grant : AccessGrant) (pa : Nat)
  | readPage (page file fileOffset : Nat)
  | zeroPage (page bytesReadFromFile : Nat)
  -- `VmmAllocRegionEx`
  | changeRange (arguments : RegionArguments) (range : Nat × Nat)
  | populate (arguments : RegionArguments) (range : Nat × Nat)
  | reserveFrames (arguments : RegionArguments) (range : Nat × Nat)
  | mapRegion (arguments : RegionArguments) (range : Nat × Nat) (pa : Nat)
  | mapDescribed (rights : PageRights) (address : Nat) (pairs : List MdlTranslationPair)
  | readRegion (range : Nat × Nat) (file : Nat)
  | freeFailed (range : Nat × Nat)
  -- `VmmFreeRegionEx`; a failed allocation knows the base address it expects
  | freeRegion (address : Nat) (freeType : VmmFreeType)
  | unmapBitmap (reservation : VmmReservation) (baseAddress : Option Nat)
  | closeFile (reservation : VmmReservation) (baseAddress : Option Nat)
  | unmapRegion (range : Nat × Nat) (released : Bool)

def RegionPc.isIdle : RegionPc → Bool
  | .idle => true
  | _ => false

theorem RegionPc.eq_idle {pc : RegionPc} (h : pc.isIdle = true) : pc = .idle := by
  cases pc with
  | idle => rfl
  | _ => cases h

structure RegionState (Cpu : Type) where
  space : VmmReservationSpace
  /-- The frames of the pages that handlers and allocations have mapped. -/
  translation : Nat → Option Nat
  /-- The files that `_VmUninitializeReservation` has closed. -/
  closedFiles : List Nat
  pc : Cpu → RegionPc

/-- What a processor is called with, and what it is given by the functions it calls. -/
inductive RaceAction (Cpu : Type)
  | fault (cpu : Cpu) (faultingAddress : Nat) (rightsRequested : PageRights)
  | allocRegion (cpu : Cpu) (arguments : RegionArguments)
  | freeRegion (cpu : Cpu) (address : Nat) (freeType : VmmFreeType)
  | checkAccess (cpu : Cpu) (metadataAccess : Bool)
  /-- The frames are `0` for `NULL`. -/
  | reserveFrames (cpu : Cpu) (pa : Nat)
  /-- The number of bytes read, or that the file could not be read. -/
  | readFile (cpu : Cpu) (result : Option Nat)
  | continue (cpu : Cpu)

section Functions

variable {Cpu : Type} [DecidableEq Cpu]

namespace RegionState

def setPc (s : RegionState Cpu) (cpu : Cpu) (pc : RegionPc) : RegionState Cpu :=
  { s with pc := Function.update s.pc cpu pc }

def setSpace (s : RegionState Cpu) (space : VmmReservationSpace) : RegionState Cpu :=
  { s with space := space }

def setTranslation (s : RegionState Cpu) (translation : Nat → Option Nat) : RegionState Cpu :=
  { s with translation := translation }

end RegionState

variable (reservationSize : Nat) (kernelSpace : Bool)

def faultCall (s : RegionState Cpu) (cpu : Cpu) (faultingAddress : Nat)
    (rightsRequested : PageRights) : Option (RegionState Cpu) :=
  if ¬ faultingAddress < qwordModulus then none
  else if alignAddressLower faultingAddress pageSize = 0 then some s
  else if vmIsKernelAddress faultingAddress ≠ kernelSpace then some s
  else some (s.setPc cpu (.checkAccess faultingAddress rightsRequested))

/-- A base address is `0` for `NULL`. The range is determined without a lock. -/
def allocRegionCall (s : RegionState Cpu) (cpu : Cpu) (arguments : RegionArguments) :
    Option (RegionState Cpu) := do
  let request := arguments.request
  assert (decide (request.baseAddress < qwordModulus))
  assert (request.size != 0)
  assert (request.allocType.commit || request.allocType.reserve)
  assert (arguments.mdl.isNone || arguments.notLazy)
  assert (!arguments.zero)
  assert (arguments.mdl.isNone || request.fileObject.isNone)
  match allocRange s.space request.baseAddress request.size with
  | (none, space) => return s.setSpace space
  | (some range, space) => return (s.setSpace space).setPc cpu (.changeRange arguments range)

/-- One pair of `_VmmMapDescribedRegion`, with the size it maps. -/
def mapPair (translation : Nat → Option Nat) (address : Nat) (pair : MdlTranslationPair) :
    Option (Nat × (Nat → Option Nat)) := do
  let translation ← mapPages translation pair.alignedPa pair.alignedPaSize address false
  return (pair.alignedPaSize, translation)

/-- The steps that are given nothing. -/
def continueStep (s : RegionState Cpu) (cpu : Cpu) : Option (RegionState Cpu) :=
  match s.pc cpu with
  | .mapPage page grant pa => do
    let translation ← mapPages s.translation pa pageSize page true
    return (s.setTranslation translation).setPc cpu (match grant.backingFile with
      | some file => .readPage page file grant.fileOffset
      | none => .zeroPage page 0)
  | .zeroPage _ _ => some (s.setPc cpu .idle)
  | .changeRange arguments range => do
    match ← vmReservationSpaceChangeRange reservationSize s.space arguments.request range with
    | (_, none, space) => return (s.setSpace space).setPc cpu .idle
    | (_, some range, space) => return (s.setSpace space).setPc cpu (.populate arguments range)
  | .populate arguments range => do
    assert (range.1 != 0)
    if !arguments.notLazy then return s.setPc cpu .idle
    assert arguments.request.allocType.commit
    match arguments.mdl with
    | some mdl =>
      assert (decide (mdl.byteCount ≤ range.2))
      return s.setPc cpu (.mapDescribed arguments.request.rights range.1 mdl.translations)
    | none =>
      assert (decide (range.2 / pageSize ≤ maxDword))
      return s.setPc cpu (.reserveFrames arguments range)
  | .mapRegion arguments range pa => do
    let translation ← mapPages s.translation pa range.2 range.1 true
    return (s.setTranslation translation).setPc cpu (match arguments.request.fileObject with
      | some file => .readRegion range file
      | none => .idle)
  | .mapDescribed _ _ [] => some (s.setPc cpu .idle)
  | .mapDescribed rights address (pair :: pairs) => do
    let (alignedPaSize, translation) ← mapPair s.translation address pair
    return (s.setTranslation translation).setPc cpu
      (.mapDescribed rights (ptrOffset address alignedPaSize) pairs)
  | .freeFailed range => do
    match ← vmReservationSpaceFreeRegion reservationSize s.space range.1 .release with
    | (_, some reservation, space) =>
      return (s.setSpace space).setPc cpu (.unmapBitmap reservation (some range.1))
    | (range, none, space) => return (s.setSpace space).setPc cpu (.unmapRegion range false)
  | .freeRegion address freeType => do
    match ← vmReservationSpaceFreeRegion reservationSize s.space address freeType with
    | (_, some reservation, space) =>
      return (s.setSpace space).setPc cpu (.unmapBitmap reservation none)
    | (range, none, space) => return (s.setSpace space).setPc cpu (.unmapRegion range false)
  | .unmapBitmap reservation baseAddress => do
    let bitmap := reservation.commitBitmap
    -- the bitmap is unmapped in the kernel's tables
    let translation ← if kernelSpace then
        unmapPages s.translation bitmap.bitmapBuffer bitmap.bufferSize
      else some s.translation
    return (s.setTranslation translation).setPc cpu (.closeFile reservation baseAddress)
  | .closeFile reservation baseAddress => do
    let s : RegionState Cpu := { s with
      closedFiles := reservation.backingFile.toList ++ s.closedFiles }
    match baseAddress with
    | some baseAddress =>
      assert (reservation.startVa == baseAddress)
      return s.setPc cpu (.unmapRegion (reservation.startVa,reservation.size % 2 ^ 32) true)
    | none => return s.setPc cpu (.unmapRegion (reservation.startVa,reservation.size) true)
  | .unmapRegion range _ => do
    let translation ← unmapPages s.translation range.1 range.2
    return (s.setTranslation translation).setPc cpu .idle
  | _ => none

def raceStep (s : RegionState Cpu) : RaceAction Cpu → Option (RegionState Cpu)
  | .fault cpu faultingAddress rightsRequested =>
    match s.pc cpu with
    | .idle => faultCall kernelSpace s cpu faultingAddress rightsRequested
    | _ => none
  | .allocRegion cpu arguments =>
    match s.pc cpu with
    | .idle => allocRegionCall s cpu arguments
    | _ => none
  | .freeRegion cpu address freeType =>
    match s.pc cpu with
    | .idle => some (s.setPc cpu (.freeRegion address freeType))
    | _ => none
  | .checkAccess cpu metadataAccess =>
    match s.pc cpu with
    | .checkAccess faultingAddress rightsRequested => do
      match ← vmReservationCanAddressBeAccessed reservationSize s.space metadataAccess
          faultingAddress rightsRequested with
      | none => return s.setPc cpu .idle
      | some grant =>
        return s.setPc cpu (.reserveFrame (alignAddressLower faultingAddress pageSize) grant)
    | _ => none
  | .reserveFrames cpu pa =>
    match s.pc cpu with
    | .reserveFrame page grant => do
      assert (pa != 0)
      return s.setPc cpu (.mapPage page grant pa)
    | .reserveFrames arguments range =>
      -- without frames the region is there, and nothing is mapped
      if pa = 0 then some (s.setPc cpu .idle)
      else some (s.setPc cpu (.mapRegion arguments range pa))
    | _ => none
  | .readFile cpu result =>
    match s.pc cpu, result with
    | .readPage _ _ _, none => some (s.setPc cpu .idle)
    | .readPage page _ _, some bytesReadFromFile => do
      assert (decide (bytesReadFromFile ≤ pageSize))
      return s.setPc cpu (.zeroPage page bytesReadFromFile)
    | .readRegion range _, none => some (s.setPc cpu (.freeFailed range))
    | .readRegion range _, some bytesRead => do
      assert (decide (ptrDiff range.2 bytesRead ≤ maxDword))
      return s.setPc cpu .idle
    | _, _ => none
  | .continue cpu => continueStep reservationSize kernelSpace s cpu

/-- An address space from its initialization on. -/
def raceSystem : TransitionSystem (RegionState Cpu) (RaceAction Cpu) where
  init s := (∃ metadataBaseAddress reservationBaseAddress metadataSize created,
      reservationBaseAddress < qwordModulus ∧ vmReservationSpaceInit metadataBaseAddress
        reservationBaseAddress metadataSize = some created ∧
      s.space = vmReservationSpaceFinishInit created) ∧
    s.translation = (fun _ => none) ∧ s.closedFiles = [] ∧ ∀ cpu, s.pc cpu = .idle
  step := raceStep reservationSize kernelSpace

end Functions

namespace RegionPc

/-- The range of a reservation that is released, until its pages are unmapped. -/
def releasing : RegionPc → Option (Nat × Nat)
  | .unmapBitmap r _ | .closeFile r _ => some (r.startVa,r.size)
  | .unmapRegion range true => some range
  | _ => none

/-- The file a handler reads the page from. -/
def readsFrom : RegionPc → Option Nat
  | .reserveFrame _ grant | .mapPage _ grant _ => grant.backingFile
  | .readPage _ file _ => some file
  | _ => none

end RegionPc

section Undisturbed

variable {Cpu : Type} [DecidableEq Cpu] (kernelSpace : Bool)

/-- The range of a new reservation lies inside every live range it meets, and meets none that is
being released. The metadata of the kernel's space is in the space itself. -/
def ReservesApart (s : RegionState Cpu) (request : AllocRequest) (range : Nat × Nat) : Prop :=
  (∀ r ∈ s.space.entries, r.state = .used →
    checkBounds range.1 range.2 r.startVa r.size = true ∨ RangesApart range (r.startVa,r.size)) ∧
  (∀ cpu, ∀ released ∈ (s.pc cpu).releasing, RangesApart range released) ∧
  (∀ file ∈ request.fileObject, file ∉ s.closedFiles) ∧
  (kernelSpace = true → RangesApart range (s.space.reservationList,s.space.reservedAreaSize))

/-- What a processor finds unchanged since it last held a lock. -/
def PcUndisturbed (s : RegionState Cpu) : RegionPc → Prop
  | .mapPage page _ _ => ∀ walked ∈ walkedPages page pageSize, s.space.Committed walked
  | .mapRegion _ range _ => ∀ page ∈ walkedPages range.1 range.2, s.space.Committed page
  | .mapDescribed _ address (pair :: _) => ∀ mapped ∈ mapPair s.translation address pair,
    ∀ page ∈ walkedPages address mapped.1, s.space.Committed page
  | .changeRange arguments range => arguments.request.allocType.reserve = true →
    ReservesApart kernelSpace s arguments.request range
  | .closeFile reservation _ => reservation.size < 2 ^ 32 ∧
    ∀ file ∈ reservation.backingFile, (∀ cpu, (s.pc cpu).readsFrom ≠ some file) ∧
      ∀ r ∈ s.space.entries, r.state = .used → r.backingFile ≠ some file
  | .unmapRegion range _ => range.2 < 2 ^ 32
  | _ => True

/-- No step is taken on what another processor has changed in the meantime. -/
def Undisturbed (s : RegionState Cpu) : RaceAction Cpu → Prop
  | .fault _ faultingAddress _ =>
    checkBounds faultingAddress 1 s.space.reservationList s.space.reservedAreaSize = false
  | .continue cpu => PcUndisturbed kernelSpace s (s.pc cpu)
  | _ => True

end Undisturbed

section Translation

variable {translation translation' : Nat → Option Nat} {page base size : Nat}

theorem mem_walkedPages : page ∈ walkedPages base size ↔
    ∃ k < (size + (pageSize - 1)) / pageSize, ptrOffset base (k * pageSize) = page := by
  simp [walkedPages]

theorem walkedPages_noWrap (hword : base < qwordModulus) (haligned : base % pageSize = 0)
    (hzero : 0 ∉ walkedPages base size) {k : Nat} (hk : k < (size + (pageSize - 1)) / pageSize) :
    base + k * pageSize < qwordModulus := by
  by_contra hge
  apply hzero
  refine mem_walkedPages.mpr ⟨(qwordModulus - base) / pageSize,?_,?_⟩
  · refine Nat.lt_of_le_of_lt ?_ hk
    unfold qwordModulus pageSize at *
    omega
  · have hend : base + (qwordModulus - base) / pageSize * pageSize = qwordModulus := by
      unfold qwordModulus pageSize at *
      omega
    rw [ptrOffset,hend,Nat.mod_self]

theorem mem_walkedPages_of_inside (hword : page < qwordModulus) (hpage : page % pageSize = 0)
    (haligned : base % pageSize = 0) (hin : checkBounds page 1 base size = true) :
    page ∈ walkedPages base size := by
  rw [checkBounds_eq_true] at hin
  refine mem_walkedPages.mpr ⟨(page - base) / pageSize,?_,?_⟩
  · unfold pageSize at *
    omega
  · have hpage' : base + (page - base) / pageSize * pageSize = page := by
      unfold pageSize at *
      omega
    rw [ptrOffset,hpage',Nat.mod_eq_of_lt hword]

theorem walkedPages_address (haligned : base % pageSize = 0) (h : page ∈ walkedPages base size) :
    page < qwordModulus ∧ page % pageSize = 0 := by
  obtain ⟨k,_,rfl⟩ := mem_walkedPages.mp h
  constructor
  · exact Nat.mod_lt _ (by decide)
  · unfold ptrOffset qwordModulus pageSize at *
    omega

theorem mapPages_mapped {pa : Nat} {invalidate : Bool}
    (h : mapPages translation pa size base invalidate = some translation')
    (hmapped : (translation' page).isSome = true) :
    (translation page).isSome = true ∨
      page ∈ walkedPages base size ∧ page < qwordModulus ∧ page % pageSize = 0 := by
  simp only [mapPages,Option.bind_eq_bind,Option.bind_eq_some_iff,Option.pure_def,
    Option.some.injEq,assert_eq_some,isAddressAligned,beq_iff_eq] at h
  obtain ⟨_,_,_,_,_,_,_,haligned,_,_,_,_,rfl⟩ := h
  dsimp only at hmapped
  split at hmapped
  · rename_i hwalked
    exact Or.inr ⟨hwalked.1,walkedPages_address haligned hwalked.1⟩
  · exact Or.inl hmapped

theorem unmapPages_eq (h : unmapPages translation base size = some translation')
    (haligned : base % pageSize = 0) : ∃ alignedSize,
    alignedSize = alignAddressUpper (size % qwordModulus) pageSize % 2 ^ 32 ∧
      0 ∉ walkedPages base alignedSize ∧
      translation' = fun page =>
        if page ∈ walkedPages base alignedSize then none else translation page := by
  have hlower : alignAddressLower base pageSize = base := by
    unfold alignAddressLower pageSize at *
    omega
  simp only [unmapPages,Option.bind_eq_bind,Option.bind_eq_some_iff,assert_eq_some,bne_iff_ne,
    hlower,Nat.sub_self,Nat.zero_mod,Nat.add_zero] at h
  obtain ⟨_,hbase,_,_,h⟩ := h
  rw [if_neg hbase] at h
  simp only [Option.bind_eq_some_iff,assert_eq_some,Bool.not_eq_true',decide_eq_false_iff_not]
    at h
  obtain ⟨_,hzero,h⟩ := h
  exact ⟨_,rfl,hzero,(Option.some.inj h).symm⟩

theorem unmapPages_mapped (h : unmapPages translation base size = some translation')
    (haligned : base % pageSize = 0) (hmapped : (translation' page).isSome = true) :
    (translation page).isSome = true := by
  obtain ⟨_,_,_,rfl⟩ := unmapPages_eq h haligned
  dsimp only at hmapped
  split at hmapped
  · cases hmapped
  · exact hmapped

theorem unmapPages_inside (h : unmapPages translation base size = some translation')
    (haligned : base % pageSize = 0) (hsize : size % pageSize = 0) (hlt : size < 2 ^ 32)
    (hword : page < qwordModulus) (hpage : page % pageSize = 0)
    (hin : checkBounds page 1 base size = true) : translation' page = none := by
  obtain ⟨alignedSize,hsame,_,rfl⟩ := unmapPages_eq h haligned
  have hsame : alignedSize = size := by
    rw [hsame]
    unfold alignAddressUpper alignAddressLower qwordModulus pageSize at *
    omega
  rw [hsame]
  exact if_pos (mem_walkedPages_of_inside hword hpage haligned hin)

theorem unmapPages_changed (h : unmapPages translation base size = some translation')
    (hbase : base < qwordModulus) (haligned : base % pageSize = 0)
    (hchanged : translation' page ≠ translation page) :
    base ≤ page ∧ page < base + (size + (pageSize - 1)) / pageSize * pageSize := by
  obtain ⟨alignedSize,hsize,hzero,rfl⟩ := unmapPages_eq h haligned
  have hwalked : page ∈ walkedPages base alignedSize := by
    by_contra hout
    exact hchanged (if_neg hout)
  obtain ⟨k,hk,rfl⟩ := mem_walkedPages.mp hwalked
  have hword := walkedPages_noWrap hbase haligned hzero hk
  rw [ptrOffset,Nat.mod_eq_of_lt hword]
  have hle : alignedSize ≤ (size + (pageSize - 1)) / pageSize * pageSize := by
    rw [hsize]
    unfold alignAddressUpper alignAddressLower qwordModulus pageSize
    omega
  unfold pageSize at *
  omega

end Translation

namespace RegionPc

/-- The range that is about to be unmapped. -/
def unmapping : RegionPc → Option (Nat × Nat)
  | .unmapBitmap r _ | .closeFile r _ => some (r.startVa,r.size)
  | .unmapRegion range _ => some range
  | _ => none

/-- The range that is about to be reserved or committed. -/
def requests : RegionPc → Option (Nat × Nat)
  | .changeRange _ range => some range
  | _ => none

/-- The reservation whose bitmap is about to be unmapped. -/
def unmapsBitmap : RegionPc → Option VmmReservation
  | .unmapBitmap r _ => some r
  | _ => none

def Unmaps (pc : RegionPc) (page : Nat) : Prop :=
  ∃ range ∈ pc.unmapping, checkBounds page 1 range.1 range.2 = true

theorem unmapping_of_releasing {pc : RegionPc} {range : Nat × Nat}
    (h : range ∈ pc.releasing) : range ∈ pc.unmapping := by
  cases pc with
  | unmapBitmap => exact h
  | closeFile => exact h
  | unmapRegion other released =>
    cases released with
    | false => cases h
    | true => exact h
  | _ => cases h

end RegionPc

/-- What a processor relies on where it is. -/
structure PcOk (closedFiles : List Nat) (space : VmmReservationSpace) (pc : RegionPc) : Prop where
  reads : ∀ file ∈ pc.readsFrom, file ∉ closedFiles
  requested : ∀ range ∈ pc.requests, range.1 < qwordModulus
  bitmap : ∀ r ∈ pc.unmapsBitmap, BitmapPlaced space r
  aligned : ∀ range ∈ pc.unmapping, range.1 % pageSize = 0 ∧ range.2 % pageSize = 0
  word : ∀ range ∈ pc.releasing, range.1 < qwordModulus
  apart : ∀ range ∈ pc.releasing, ∀ i r, space.Live i r → RangesApart range (r.startVa,r.size)

structure RaceInv (reservationSize : Nat) (kernelSpace : Bool) {Cpu : Type} (s : RegionState Cpu) :
    Prop where
  space : SpaceInv reservationSize kernelSpace s.space
  files : ∀ i r file, s.space.Live i r → r.backingFile = some file → file ∉ s.closedFiles
  pc : ∀ cpu, PcOk s.closedFiles s.space (s.pc cpu)
  address : ∀ page, (s.translation page).isSome = true → page < qwordModulus ∧ page % pageSize = 0
  mapped : ∀ page, (s.translation page).isSome = true →
    s.space.Committed page ∨ ∃ cpu, (s.pc cpu).Unmaps page

theorem PcOk.of_none {closedFiles : List Nat} {space : VmmReservationSpace} {pc : RegionPc}
    (hunmapping : pc.unmapping = none) (hreads : ∀ file ∈ pc.readsFrom, file ∉ closedFiles)
    (hrequested : ∀ range ∈ pc.requests, range.1 < qwordModulus) :
    PcOk closedFiles space pc := by
  have hreleasing : ∀ range, range ∉ pc.releasing := by
    intro range hrange
    have := RegionPc.unmapping_of_releasing hrange
    rw [hunmapping] at this
    cases this
  refine ⟨hreads,hrequested,?_,?_,?_,?_⟩
  · intro r hr
    cases pc with
    | unmapBitmap => cases hunmapping
    | _ => cases hr
  · intro range hrange
    rw [hunmapping] at hrange
    cases hrange
  · intro range hrange
    exact absurd hrange (hreleasing range)
  · intro range hrange
    exact absurd hrange (hreleasing range)

theorem PcOk.of_nothing {closedFiles : List Nat} {space : VmmReservationSpace} {pc : RegionPc}
    (hunmapping : pc.unmapping = none) (hreads : pc.readsFrom = none)
    (hrequests : pc.requests = none) : PcOk closedFiles space pc := by
  refine .of_none hunmapping ?_ ?_
  · rw [hreads]
    intro file hfile
    cases hfile
  · rw [hrequests]
    intro range hrange
    cases hrange

section Invariant

variable {Cpu : Type} [DecidableEq Cpu] {reservationSize : Nat} {kernelSpace : Bool}
variable {s s' : RegionState Cpu}

private theorem RaceInv.setPc (h : RaceInv reservationSize kernelSpace s) (cpu : Cpu)
    (pc : RegionPc) (hpc : PcOk s.closedFiles s.space pc)
    (hunmaps : ∀ page, (s.translation page).isSome = true → (s.pc cpu).Unmaps page →
      pc.Unmaps page) : RaceInv reservationSize kernelSpace (s.setPc cpu pc) := by
  refine ⟨h.space,h.files,?_,h.address,?_⟩
  · intro other
    by_cases hcpu : other = cpu
    · subst other
      simp only [RegionState.setPc,Function.update_self]
      exact hpc
    · simp only [RegionState.setPc,Function.update_of_ne hcpu]
      exact h.pc other
  · intro page hpage
    rcases h.mapped page hpage with hcommitted | ⟨other,hother⟩
    · exact Or.inl hcommitted
    · right
      by_cases hcpu : other = cpu
      · subst other
        refine ⟨cpu,?_⟩
        simp only [RegionState.setPc,Function.update_self]
        exact hunmaps page hpage hother
      · refine ⟨other,?_⟩
        simp only [RegionState.setPc,Function.update_of_ne hcpu]
        exact hother

omit [DecidableEq Cpu] in
private theorem RaceInv.setTranslation (h : RaceInv reservationSize kernelSpace s)
    (translation : Nat → Option Nat)
    (hmapped : ∀ page, (translation page).isSome = true → (s.translation page).isSome = true ∨
      s.space.Committed page ∧ page < qwordModulus ∧ page % pageSize = 0) :
    RaceInv reservationSize kernelSpace (s.setTranslation translation) := by
  refine ⟨h.space,h.files,h.pc,?_,?_⟩
  · intro page hpage
    rcases hmapped page hpage with hold | ⟨_,haddress⟩
    · exact h.address page hold
    · exact haddress
  · intro page hpage
    rcases hmapped page hpage with hold | ⟨hcommitted,_⟩
    · exact h.mapped page hold
    · exact Or.inl hcommitted

private theorem RaceInv.setSpace (h : RaceInv reservationSize kernelSpace s) (cpu : Cpu)
    (pc : RegionPc) {space : VmmReservationSpace} (hspace : SpaceInv reservationSize kernelSpace space)
    (hlist : space.reservationList = s.space.reservationList)
    (harea : space.reservedAreaSize = s.space.reservedAreaSize)
    (hfiles : ∀ i r file, space.Live i r → r.backingFile = some file → file ∉ s.closedFiles)
    (hapart : ∀ other, ∀ range ∈ (s.pc other).releasing, ∀ i r, space.Live i r →
      RangesApart range (r.startVa,r.size))
    (hpc : PcOk s.closedFiles space pc)
    (hcommitted : ∀ page, s.space.Committed page → space.Committed page ∨ pc.Unmaps page)
    (hunmaps : ∀ page, (s.pc cpu).Unmaps page → pc.Unmaps page) :
    RaceInv reservationSize kernelSpace ((s.setSpace space).setPc cpu pc) := by
  have hself : ((s.setSpace space).setPc cpu pc).pc cpu = pc := Function.update_self ..
  refine ⟨hspace,hfiles,?_,h.address,?_⟩
  · intro other
    by_cases hcpu : other = cpu
    · subst other
      rw [hself]
      exact hpc
    · have hok := h.pc other
      simp only [RegionState.setPc,RegionState.setSpace,Function.update_of_ne hcpu]
      refine ⟨hok.reads,hok.requested,?_,hok.aligned,hok.word,hapart other⟩
      intro r hr
      exact (hok.bitmap r hr).same (.refl r) hlist harea
  · intro page hpage
    rcases h.mapped page hpage with hold | ⟨other,hother⟩
    · rcases hcommitted page hold with hnew | hnew
      · exact Or.inl hnew
      · exact Or.inr ⟨cpu,by rw [hself]; exact hnew⟩
    · right
      by_cases hcpu : other = cpu
      · subst other
        exact ⟨cpu,by rw [hself]; exact hunmaps page hother⟩
      · refine ⟨other,?_⟩
        simp only [RegionState.setPc,RegionState.setSpace,Function.update_of_ne hcpu]
        exact hother

private theorem RaceInv.quiet (h : RaceInv reservationSize kernelSpace s) (cpu : Cpu)
    (pc : RegionPc) (hold : (s.pc cpu).unmapping = none)
    (hpc : PcOk s.closedFiles s.space pc) :
    RaceInv reservationSize kernelSpace (s.setPc cpu pc) := by
  refine h.setPc cpu pc hpc ?_
  rintro page _ ⟨range,hrange,_⟩
  rw [hold] at hrange
  cases hrange

private theorem RaceInv.idle (h : RaceInv reservationSize kernelSpace s) (cpu : Cpu)
    (hold : (s.pc cpu).unmapping = none) :
    RaceInv reservationSize kernelSpace (s.setPc cpu .idle) :=
  h.quiet cpu .idle hold (.of_nothing rfl rfl rfl)

omit [DecidableEq Cpu] in
private theorem RaceInv.mapPages (h : RaceInv reservationSize kernelSpace s)
    {pa size base : Nat} {invalidate : Bool} {translation : Nat → Option Nat}
    (hmap : mapPages s.translation pa size base invalidate = some translation)
    (hguard : ∀ page ∈ walkedPages base size, s.space.Committed page) :
    RaceInv reservationSize kernelSpace (s.setTranslation translation) := by
  apply h.setTranslation
  intro page hpage
  rcases mapPages_mapped hmap hpage with hold | ⟨hwalked,haddress⟩
  · exact Or.inl hold
  · exact Or.inr ⟨hguard page hwalked,haddress⟩

private theorem RaceInv.allocRegion (h : RaceInv reservationSize kernelSpace s) {cpu : Cpu}
    {arguments : RegionArguments} (hpc : s.pc cpu = .idle)
    (hstep : allocRegionCall s cpu arguments = some s') :
    RaceInv reservationSize kernelSpace s' := by
  simp only [allocRegionCall,Option.bind_eq_bind,Option.bind_eq_some_iff,assert_eq_some,
    decide_eq_true_eq] at hstep
  obtain ⟨_,hbase,_,_,_,_,_,_,_,_,_,_,hstep⟩ := hstep
  obtain ⟨hpointer,hrange⟩ : (allocRange s.space arguments.request.baseAddress
      arguments.request.size).2.freeVirtualAddressPointer < qwordModulus ∧ _ :=
    allocRange_words hbase h.space.pointer
  obtain ⟨pointer,hmoved⟩ := allocRange_moved s.space arguments.request.baseAddress
    arguments.request.size
  generalize allocRange s.space arguments.request.baseAddress arguments.request.size = moved
    at hpointer hrange hmoved hstep
  obtain ⟨range,space⟩ := moved
  simp only at hpointer hrange hmoved
  subst hmoved
  have hspace : SpaceInv reservationSize kernelSpace
      { s.space with freeVirtualAddressPointer := pointer } :=
    ⟨h.space.shape.of_entries rfl rfl rfl,hpointer,h.space.bitmap_pointer,h.space.apart,
      fun i r hr => (h.space.region i r hr).same (.refl r) rfl rfl⟩
  have hnext : RaceInv reservationSize kernelSpace
      (s.setSpace { s.space with freeVirtualAddressPointer := pointer }) := by
    refine ⟨hspace,h.files,?_,h.address,h.mapped⟩
    intro other
    have hok := h.pc other
    refine ⟨hok.reads,hok.requested,?_,hok.aligned,hok.word,hok.apart⟩
    intro r hr
    exact (hok.bitmap r hr).same (.refl r) rfl rfl
  cases range with
  | none =>
    obtain rfl := Option.some.inj hstep
    exact hnext
  | some range =>
    obtain rfl := Option.some.inj hstep
    refine hnext.quiet cpu (.changeRange arguments range) ?_
      (.of_none rfl (fun _ hnone => by cases hnone) ?_)
    · simp only [RegionState.setSpace,hpc]
      rfl
    · rintro _ ⟨⟩
      exact hrange _ rfl

private theorem RaceInv.changeRange (h : RaceInv reservationSize kernelSpace s) {cpu : Cpu}
    {arguments : RegionArguments} {range : Nat × Nat} (hpc : s.pc cpu = .changeRange arguments range)
    (hguard : PcUndisturbed kernelSpace s (.changeRange arguments range)) {status : Status}
    {mapped : Option (Nat × Nat)} {space : VmmReservationSpace}
    (hcall : vmReservationSpaceChangeRange reservationSize s.space arguments.request range =
      some (status,mapped,space)) {pc : RegionPc}
    (hok : PcOk s.closedFiles space pc) :
    RaceInv reservationSize kernelSpace ((s.setSpace space).setPc cpu pc) := by
  have hword := (h.pc cpu).requested range (by rw [hpc]; rfl)
  have hgrows := vmReservationSpaceChangeRange_grows h.space hword
    (fun hflag => (hguard hflag).1) (fun hflag => (hguard hflag).2.2.2) hcall
  refine h.setSpace cpu pc hgrows.inv hgrows.list hgrows.area ?_ ?_ hok ?_ ?_
  · intro i r file hr hfile
    rcases hgrows.live i r hr with ⟨old,hold,hsame⟩ | ⟨hflag,_,_,hbacking⟩
    · exact h.files i old file hold (hsame.backingFile ▸ hfile)
    · exact (hguard hflag).2.2.1 file (hbacking.symm.trans hfile)
  · intro other released hreleased i r hr
    rcases hgrows.live i r hr with ⟨old,hold,hsame⟩ | ⟨hflag,hstart,hsize,_⟩
    · rw [hsame.startVa,hsame.size]
      exact (h.pc other).apart released hreleased i old hold
    · rw [hstart,hsize]
      exact Or.symm ((hguard hflag).2.1 other released hreleased)
  · intro page hpage
    exact Or.inl (hgrows.committed page hpage)
  · rintro page ⟨_,hrange,_⟩
    rw [hpc] at hrange
    cases hrange

private theorem RaceInv.freeRegion (h : RaceInv reservationSize kernelSpace s) {cpu : Cpu}
    (hold : (s.pc cpu).unmapping = none) {address : Nat} {freeType : VmmFreeType}
    {range : Nat × Nat} {copy : Option VmmReservation} {space : VmmReservationSpace}
    (hcall : vmReservationSpaceFreeRegion reservationSize s.space address freeType =
      some (range,copy,space)) (baseAddress : Option Nat) :
    RaceInv reservationSize kernelSpace ((s.setSpace space).setPc cpu (match copy with
      | some reservation => .unmapBitmap reservation baseAddress
      | none => .unmapRegion range false)) := by
  obtain ⟨hcontinues,hfrees⟩ := vmReservationSpaceFreeRegion_frees h.space hcall
  have hspace := h.space.continues hcontinues
  have hlist : space.reservationList = s.space.reservationList := by rw [hcontinues.same]
  have harea : space.reservedAreaSize = s.space.reservedAreaSize := by rw [hcontinues.same]
  have hfiles : ∀ i r file, space.Live i r → r.backingFile = some file →
      file ∉ s.closedFiles := by
    intro i r file hr hfile
    obtain ⟨old,hlive,hsame⟩ := hcontinues.live i r hr
    exact h.files i old file hlive (hsame.backingFile ▸ hfile)
  have hapart : ∀ other, ∀ released ∈ (s.pc other).releasing, ∀ i r, space.Live i r →
      RangesApart released (r.startVa,r.size) := by
    intro other released hreleased i r hr
    obtain ⟨old,hlive,hsame⟩ := hcontinues.live i r hr
    rw [hsame.startVa,hsame.size]
    exact (h.pc other).apart released hreleased i old hlive
  have hunmaps (pc : RegionPc) (page : Nat) (hpage : (s.pc cpu).Unmaps page) : pc.Unmaps page := by
    obtain ⟨_,hrange,_⟩ := hpage
    rw [hold] at hrange
    cases hrange
  cases copy with
  | none =>
    obtain ⟨haligned,hcommitted⟩ := hfrees
    refine h.setSpace cpu _ hspace hlist harea hfiles hapart ?_ ?_ (hunmaps _)
    · refine ⟨nofun,nofun,nofun,?_,nofun,nofun⟩
      rintro _ ⟨⟩
      exact haligned
    · intro page hpage
      rcases hcommitted page hpage with hkept | hin
      · exact Or.inl hkept
      · exact Or.inr ⟨range,rfl,hin⟩
  | some r =>
    obtain ⟨⟨k,hr⟩,hother,hcommitted⟩ := hfrees
    have hregion := h.space.region k r hr
    refine h.setSpace cpu _ hspace hlist harea hfiles hapart ?_ ?_ (hunmaps _)
    · refine ⟨nofun,nofun,?_,?_,?_,?_⟩
      · rintro _ ⟨⟩
        exact hregion.bitmap.same (.refl r) hlist harea
      · rintro _ ⟨⟩
        exact ⟨hregion.arguments.base_aligned,hregion.arguments.size_aligned⟩
      · rintro _ ⟨⟩
        exact hregion.word
      · rintro _ ⟨⟩
        exact hother
    · intro page hpage
      rcases hcommitted page hpage with hkept | hin
      · exact Or.inl hkept
      · exact Or.inr ⟨(r.startVa,r.size),rfl,hin⟩

private theorem RaceInv.unmapBitmap (h : RaceInv reservationSize kernelSpace s) {cpu : Cpu}
    {r : VmmReservation} {baseAddress : Option Nat} (hpc : s.pc cpu = .unmapBitmap r baseAddress)
    {translation : Nat → Option Nat}
    (hshrinks : ∀ page, (translation page).isSome = true → (s.translation page).isSome = true) :
    RaceInv reservationSize kernelSpace
      ((s.setTranslation translation).setPc cpu (.closeFile r baseAddress)) := by
  have hok := h.pc cpu
  rw [hpc] at hok
  refine (h.setTranslation translation fun page hpage => Or.inl (hshrinks page hpage)).setPc cpu _
    ⟨nofun,nofun,nofun,hok.aligned,hok.word,hok.apart⟩ ?_
  intro page _ hunmaps
  have hunmaps : (s.pc cpu).Unmaps page := hunmaps
  rw [hpc] at hunmaps
  exact hunmaps

private theorem RaceInv.closeFile (h : RaceInv reservationSize kernelSpace s) {cpu : Cpu}
    {r : VmmReservation} {baseAddress : Option Nat} (hpc : s.pc cpu = .closeFile r baseAddress)
    (hguard : PcUndisturbed kernelSpace s (.closeFile r baseAddress)) (range : Nat × Nat)
    (hrange : range = (r.startVa,r.size)) :
    RaceInv reservationSize kernelSpace (RegionState.setPc { s with
      closedFiles := r.backingFile.toList ++ s.closedFiles } cpu (.unmapRegion range true)) := by
  obtain ⟨_,hunread⟩ := hguard
  have hclosed {file : Nat} (hopen : file ∉ s.closedFiles) (hne : r.backingFile ≠ some file) :
      file ∉ r.backingFile.toList ++ s.closedFiles := by
    rw [List.mem_append,Option.mem_toList]
    rintro (hfile | hfile)
    · exact hne hfile
    · exact hopen hfile
  have hnext : RaceInv reservationSize kernelSpace ({ s with
      closedFiles := r.backingFile.toList ++ s.closedFiles } : RegionState Cpu) := by
    refine ⟨h.space,?_,?_,h.address,h.mapped⟩
    · intro i r' file hr' hfile
      refine hclosed (h.files i r' file hr' hfile) fun heq => ?_
      exact (hunread file heq).2 r' (List.mem_of_getElem? hr'.1) hr'.2 hfile
    · intro other
      have hok := h.pc other
      refine ⟨?_,hok.requested,hok.bitmap,hok.aligned,hok.word,hok.apart⟩
      intro file hfile
      refine hclosed (hok.reads file hfile) fun heq => ?_
      exact (hunread file heq).1 other hfile
  have hok := hnext.pc cpu
  have hpc' : ({ s with closedFiles := r.backingFile.toList ++ s.closedFiles } :
      RegionState Cpu).pc cpu = .closeFile r baseAddress := hpc
  rw [hpc'] at hok
  subst hrange
  refine hnext.setPc cpu _ ⟨nofun,nofun,nofun,hok.aligned,hok.word,hok.apart⟩ ?_
  intro page _ hunmaps
  rw [hpc'] at hunmaps
  exact hunmaps

private theorem RaceInv.unmapRegion (h : RaceInv reservationSize kernelSpace s) {cpu : Cpu}
    {range : Nat × Nat} {released : Bool} (hpc : s.pc cpu = .unmapRegion range released)
    (hguard : PcUndisturbed kernelSpace s (.unmapRegion range released))
    {translation : Nat → Option Nat}
    (hunmap : unmapPages s.translation range.1 range.2 = some translation) :
    RaceInv reservationSize kernelSpace ((s.setTranslation translation).setPc cpu .idle) := by
  have haligned : range.1 % pageSize = 0 ∧ range.2 % pageSize = 0 := by
    have hok := h.pc cpu
    rw [hpc] at hok
    exact hok.aligned range rfl
  have hshrinks (page : Nat) (hpage : (translation page).isSome = true) :=
    unmapPages_mapped hunmap haligned.1 hpage
  refine (h.setTranslation translation fun page hpage => Or.inl (hshrinks page hpage)).setPc cpu _
    (.of_nothing rfl rfl rfl) ?_
  intro page hpage hunmaps
  have hunmaps : (s.pc cpu).Unmaps page := hunmaps
  rw [hpc] at hunmaps
  obtain ⟨_,⟨⟩,hin⟩ := hunmaps
  have haddress := h.address page (hshrinks page hpage)
  have hnone := unmapPages_inside hunmap haligned.1 haligned.2 hguard haddress.1 haddress.2 hin
  have hpage : (translation page).isSome = true := hpage
  rw [hnone] at hpage
  cases hpage

private theorem RaceInv.mapDescribed (h : RaceInv reservationSize kernelSpace s) {cpu : Cpu}
    {rights : PageRights} {address : Nat} {pair : MdlTranslationPair} {pairs : List MdlTranslationPair}
    (hpc : s.pc cpu = .mapDescribed rights address (pair :: pairs))
    (hguard : PcUndisturbed kernelSpace s (.mapDescribed rights address (pair :: pairs)))
    {alignedPaSize : Nat} {translation : Nat → Option Nat}
    (hpair : mapPair s.translation address pair = some (alignedPaSize,translation))
    (next : Nat) : RaceInv reservationSize kernelSpace
      ((s.setTranslation translation).setPc cpu (.mapDescribed rights next pairs)) := by
  have hcommitted : ∀ page ∈ walkedPages address alignedPaSize, s.space.Committed page :=
    hguard _ hpair
  simp only [mapPair,Option.bind_eq_bind,Option.bind_eq_some_iff,Option.pure_def,
    Option.some.injEq] at hpair
  obtain ⟨translation',hmap,heq⟩ := hpair
  obtain ⟨hsize,rfl⟩ := Prod.mk.inj heq
  rw [hsize] at hmap
  have hold : (s.pc cpu).unmapping = none := by rw [hpc]; rfl
  exact (h.mapPages hmap hcommitted).quiet cpu _ hold (.of_nothing rfl rfl rfl)

private theorem RaceInv.continueStep (h : RaceInv reservationSize kernelSpace s) {cpu : Cpu}
    (hguard : PcUndisturbed kernelSpace s (s.pc cpu))
    (hstep : continueStep reservationSize kernelSpace s cpu = some s') :
    RaceInv reservationSize kernelSpace s' := by
  have hok := h.pc cpu
  cases hpc : s.pc cpu <;> rw [hpc] at hguard hok <;>
    simp only [Hal9000.continueStep,hpc,reduceCtorEq,Option.bind_eq_bind,Option.bind_eq_some_iff,
      Option.pure_def,Option.some.injEq] at hstep
  case mapPage page grant pa =>
    obtain ⟨translation,hmap,rfl⟩ := hstep
    refine (h.mapPages hmap hguard).quiet cpu _ (by simp only [RegionState.setTranslation,hpc]; rfl) ?_
    cases hfile : grant.backingFile with
    | none => exact .of_nothing rfl rfl rfl
    | some file =>
      refine .of_none rfl ?_ (fun _ hnone => by cases hnone)
      rintro _ ⟨⟩
      exact hok.reads file hfile
  case zeroPage =>
    obtain rfl := hstep
    exact h.idle cpu (by rw [hpc]; rfl)
  case changeRange arguments range =>
    obtain ⟨⟨status,mapped,space⟩,hcall,hstep⟩ := hstep
    cases mapped with
    | none =>
      obtain rfl := Option.some.inj hstep
      exact h.changeRange hpc hguard hcall (.of_nothing rfl rfl rfl)
    | some range' =>
      obtain rfl := Option.some.inj hstep
      exact h.changeRange hpc hguard hcall (.of_nothing rfl rfl rfl)
  case populate arguments range =>
    obtain ⟨_,_,hstep⟩ := hstep
    split at hstep
    · obtain rfl := Option.some.inj hstep
      exact h.idle cpu (by rw [hpc]; rfl)
    · obtain ⟨_,_,hstep⟩ := Option.bind_eq_some_iff.mp hstep
      split at hstep <;>
      · obtain ⟨_,_,hstep⟩ := Option.bind_eq_some_iff.mp hstep
        obtain rfl := Option.some.inj hstep
        exact h.quiet cpu _ (by rw [hpc]; rfl) (.of_nothing rfl rfl rfl)
  case mapRegion arguments range pa =>
    obtain ⟨translation,hmap,rfl⟩ := hstep
    refine (h.mapPages hmap hguard).quiet cpu _ (by simp only [RegionState.setTranslation,hpc]; rfl) ?_
    cases arguments.request.fileObject <;> exact .of_nothing rfl rfl rfl
  case mapDescribed rights address pairs =>
    cases pairs with
    | nil =>
      obtain rfl := Option.some.inj hstep
      exact h.idle cpu (by rw [hpc]; rfl)
    | cons pair pairs =>
      obtain ⟨⟨alignedPaSize,translation⟩,hpair,hstep⟩ := Option.bind_eq_some_iff.mp hstep
      obtain rfl := Option.some.inj hstep
      exact h.mapDescribed hpc hguard hpair _
  case freeFailed range =>
    obtain ⟨⟨unmapped,copy,space⟩,hcall,hstep⟩ := hstep
    have hnext := h.freeRegion (by rw [hpc]; rfl) hcall (some range.1)
    cases copy <;> exact Option.some.inj hstep ▸ hnext
  case freeRegion address freeType =>
    obtain ⟨⟨unmapped,copy,space⟩,hcall,hstep⟩ := hstep
    have hnext := h.freeRegion (by rw [hpc]; rfl) hcall none
    cases copy <;> exact Option.some.inj hstep ▸ hnext
  case unmapBitmap r baseAddress =>
    split at hstep
    · obtain ⟨translation,hunmap,hstep⟩ := Option.bind_eq_some_iff.mp hstep
      obtain rfl := Option.some.inj hstep
      exact h.unmapBitmap hpc fun page hpage =>
        unmapPages_mapped hunmap (hok.bitmap r rfl).aligned hpage
    · obtain ⟨translation,hsame,hstep⟩ := Option.bind_eq_some_iff.mp hstep
      obtain rfl := Option.some.inj hstep
      obtain rfl := Option.some.inj hsame
      exact h.unmapBitmap hpc fun page hpage => hpage
  case closeFile r baseAddress =>
    cases baseAddress with
    | none =>
      obtain rfl := Option.some.inj hstep
      exact h.closeFile hpc hguard _ rfl
    | some base =>
      obtain ⟨_,_,hstep⟩ := Option.bind_eq_some_iff.mp hstep
      obtain rfl := Option.some.inj hstep
      exact h.closeFile hpc hguard _ (by rw [Nat.mod_eq_of_lt hguard.1])
  case unmapRegion range released =>
    obtain ⟨translation,hunmap,rfl⟩ := hstep
    exact h.unmapRegion hpc hguard hunmap

omit [DecidableEq Cpu] in
private theorem RaceInv.checkAccess (h : RaceInv reservationSize kernelSpace s)
    {metadataAccess : Bool} {faultingAddress : Nat} {rightsRequested : PageRights}
    {grant : AccessGrant}
    (hcall : vmReservationCanAddressBeAccessed reservationSize s.space metadataAccess
      faultingAddress rightsRequested = some (some grant)) :
    ∀ file ∈ grant.backingFile, file ∉ s.closedFiles := by
  intro file hfile
  unfold vmReservationCanAddressBeAccessed at hcall
  split at hcall
  · cases hcall
  · split at hcall
    · split at hcall
      · obtain rfl := Option.some.inj (Option.some.inj hcall)
        cases hfile
      · cases hcall
    · obtain ⟨found,hfound,hcall⟩ := Option.bind_eq_some_iff.mp hcall
      cases found with
      | none => cases hcall
      | some k =>
        obtain ⟨r,hr,hcall⟩ := Option.bind_eq_some_iff.mp hcall
        obtain ⟨_,_,hcall⟩ := Option.bind_eq_some_iff.mp hcall
        obtain ⟨r',hlive,_⟩ := (vmFindReservation_spec h.space.shape hfound).1 k rfl
        have heq : r' = r := Option.some.inj (hlive.1.symm.trans hr)
        subst r'
        dsimp only at hcall
        split at hcall
        · obtain rfl := Option.some.inj (Option.some.inj hcall)
          exact h.files k r file hlive hfile
        · cases hcall

private theorem RaceInv.step (h : RaceInv reservationSize kernelSpace s) {action : RaceAction Cpu}
    (hguard : Undisturbed kernelSpace s action)
    (hstep : raceStep reservationSize kernelSpace s action = some s') :
    RaceInv reservationSize kernelSpace s' := by
  cases action with
  | fault cpu faultingAddress rightsRequested =>
    cases hpc : s.pc cpu <;> simp only [raceStep,hpc,reduceCtorEq] at hstep
    unfold faultCall at hstep
    split_ifs at hstep
    · exact Option.some.inj hstep ▸ h
    · exact Option.some.inj hstep ▸ h
    · obtain rfl := Option.some.inj hstep
      exact h.quiet cpu _ (by rw [hpc]; rfl) (.of_nothing rfl rfl rfl)
  | allocRegion cpu arguments =>
    cases hpc : s.pc cpu <;> simp only [raceStep,hpc,reduceCtorEq] at hstep
    exact h.allocRegion hpc hstep
  | freeRegion cpu address freeType =>
    cases hpc : s.pc cpu <;> simp only [raceStep,hpc,reduceCtorEq] at hstep
    obtain rfl := Option.some.inj hstep
    exact h.quiet cpu _ (by rw [hpc]; rfl) (.of_nothing rfl rfl rfl)
  | checkAccess cpu metadataAccess =>
    cases hpc : s.pc cpu <;> simp only [raceStep,hpc,reduceCtorEq] at hstep
    obtain ⟨access,haccess,hstep⟩ := Option.bind_eq_some_iff.mp hstep
    cases access with
    | none =>
      obtain rfl := Option.some.inj hstep
      exact h.idle cpu (by rw [hpc]; rfl)
    | some grant =>
      obtain rfl := Option.some.inj hstep
      exact h.quiet cpu _ (by rw [hpc]; rfl)
        (.of_none rfl (h.checkAccess haccess) (fun _ hnone => by cases hnone))
  | reserveFrames cpu pa =>
    have hok := h.pc cpu
    cases hpc : s.pc cpu <;> simp only [raceStep,hpc,reduceCtorEq] at hstep
    case reserveFrame page grant =>
      obtain ⟨_,_,hstep⟩ := Option.bind_eq_some_iff.mp hstep
      obtain rfl := Option.some.inj hstep
      rw [hpc] at hok
      exact h.quiet cpu _ (by rw [hpc]; rfl) (.of_none rfl hok.reads (fun _ hnone => by cases hnone))
    case reserveFrames arguments range =>
      split at hstep
      · obtain rfl := Option.some.inj hstep
        exact h.idle cpu (by rw [hpc]; rfl)
      · obtain rfl := Option.some.inj hstep
        exact h.quiet cpu _ (by rw [hpc]; rfl) (.of_nothing rfl rfl rfl)
  | readFile cpu result =>
    cases hpc : s.pc cpu <;> cases result <;> simp only [raceStep,hpc,reduceCtorEq] at hstep
    case readPage.none =>
      obtain rfl := Option.some.inj hstep
      exact h.idle cpu (by rw [hpc]; rfl)
    case readPage.some =>
      obtain ⟨_,_,hstep⟩ := Option.bind_eq_some_iff.mp hstep
      obtain rfl := Option.some.inj hstep
      exact h.quiet cpu _ (by rw [hpc]; rfl) (.of_nothing rfl rfl rfl)
    case readRegion.none =>
      obtain rfl := Option.some.inj hstep
      exact h.quiet cpu _ (by rw [hpc]; rfl) (.of_nothing rfl rfl rfl)
    case readRegion.some =>
      obtain ⟨_,_,hstep⟩ := Option.bind_eq_some_iff.mp hstep
      obtain rfl := Option.some.inj hstep
      exact h.idle cpu (by rw [hpc]; rfl)
  | «continue» cpu => exact h.continueStep hguard hstep

private theorem raceInv {s : RegionState Cpu}
    (h : (raceSystem reservationSize kernelSpace).ReachableUnder (Undisturbed kernelSpace) s) :
    RaceInv reservationSize kernelSpace s := by
  refine h.invariant ?_ fun s action s' _ hinv hguard hstep => hinv.step hguard hstep
  rintro s ⟨⟨base,start,size,created,hstart,hinit,hspace⟩,htranslation,_,hidle⟩
  have hnone : ∀ i r, ¬ s.space.Live i r := by
    rw [hspace]
    exact not_live_finishInit created
  have hwords : s.space.freeVirtualAddressPointer < qwordModulus ∧
      s.space.freeBitmapAddress < qwordModulus := by
    simp only [vmReservationSpaceInit,Option.bind_eq_bind,Option.bind_eq_some_iff,
      Option.pure_def,Option.some.injEq] at hinit
    obtain ⟨_,_,_,_,_,_,rfl⟩ := hinit
    rw [hspace]
    refine ⟨?_,Nat.mod_lt _ (by decide)⟩
    simp only [vmReservationSpaceFinishInit]
    split
    · exact Nat.mod_lt _ (by decide)
    · exact hstart
  refine ⟨⟨?_,hwords.1,hwords.2,?_,?_⟩,?_,?_,?_,?_⟩
  · rw [hspace]
    exact ⟨[],_,rfl,rfl,trivial⟩
  · intro i j r r' hr
    exact absurd hr (hnone i r)
  · intro i r hr
    exact absurd hr (hnone i r)
  · intro i r file hr
    exact absurd hr (hnone i r)
  · intro cpu
    rw [hidle cpu]
    exact .of_nothing rfl rfl rfl
  · intro page hpage
    rw [htranslation] at hpage
    cases hpage
  · intro page hpage
    rw [htranslation] at hpage
    cases hpage

private theorem RaceInv.release_apart (h : RaceInv reservationSize kernelSpace s) {cpu : Cpu}
    (hreleases : (s.pc cpu).releasing.isSome = true)
    (hstep : raceStep reservationSize kernelSpace s (.continue cpu) = some s') {page : Nat}
    (hchanged : s'.translation page ≠ s.translation page) :
    ∀ i r, s.space.Live i r → checkBounds page 1 r.startVa r.size = false := by
  have hok := h.pc cpu
  intro i r hr
  rw [Bool.eq_false_iff,ne_eq,checkBounds_eq_true]
  simp only [raceStep] at hstep
  cases hpc : s.pc cpu <;> rw [hpc] at hreleases hok <;>
    simp only [RegionPc.releasing,Option.isSome_none,Bool.false_eq_true] at hreleases <;>
    simp only [Hal9000.continueStep,hpc,Option.bind_eq_bind,Option.pure_def] at hstep
  case unmapBitmap released baseAddress =>
    split at hstep
    · rename_i hkernel
      obtain ⟨translation,hunmap,hstep⟩ := Option.bind_eq_some_iff.mp hstep
      obtain rfl := Option.some.inj hstep
      have hbitmap := hok.bitmap released rfl
      have hwalked := unmapPages_changed hunmap hbitmap.word hbitmap.aligned hchanged
      have hinside := checkBounds_eq_true.mp hbitmap.inside
      have hsmall := hbitmap.small
      have houtside := (h.space.region i r hr).outside hkernel
      unfold RangesApart at houtside
      unfold alignAddressUpper alignAddressLower at hinside
      unfold maxDword at hsmall
      unfold qwordModulus pageSize at *
      omega
    · obtain ⟨translation,hsame,hstep⟩ := Option.bind_eq_some_iff.mp hstep
      obtain rfl := Option.some.inj hstep
      obtain rfl := Option.some.inj hsame
      exact absurd rfl hchanged
  case closeFile released baseAddress =>
    exfalso
    apply hchanged
    cases baseAddress with
    | none => exact Option.some.inj hstep ▸ rfl
    | some base =>
      obtain ⟨_,_,hstep⟩ := Option.bind_eq_some_iff.mp hstep
      exact Option.some.inj hstep ▸ rfl
  case unmapRegion range released =>
    cases released with
    | false => cases hreleases
    | true =>
      obtain ⟨translation,hunmap,hstep⟩ := Option.bind_eq_some_iff.mp hstep
      obtain rfl := Option.some.inj hstep
      have haligned := hok.aligned range rfl
      have hwalked := unmapPages_changed hunmap (hok.word range rfl) haligned.1 hchanged
      have hapart := hok.apart range rfl i r hr
      unfold RangesApart at hapart
      unfold pageSize at *
      omega

/-- In an undisturbed run no handler reads from a file that was closed, a release unmaps pages of
no live reservation, and at rest every page that is mapped is committed in one. -/
theorem regions_consistent {s : RegionState Cpu}
    (h : (raceSystem reservationSize kernelSpace).ReachableUnder (Undisturbed kernelSpace) s) :
    ((∀ cpu, s.pc cpu = .idle) → ∀ page, (s.translation page).isSome = true →
      s.space.Committed page) ∧
    (∀ cpu s', (s.pc cpu).releasing.isSome = true →
      raceStep reservationSize kernelSpace s (.continue cpu) = some s' →
      ∀ page, s'.translation page ≠ s.translation page →
        ∀ i r, s.space.Live i r → checkBounds page 1 r.startVa r.size = false) ∧
    ∀ cpu page file fileOffset, s.pc cpu = .readPage page file fileOffset →
      file ∉ s.closedFiles := by
  have hinv := raceInv h
  refine ⟨?_,?_,?_⟩
  · intro hidle page hpage
    rcases hinv.mapped page hpage with hcommitted | ⟨cpu,_,hrange,_⟩
    · exact hcommitted
    · rw [hidle cpu] at hrange
      cases hrange
  · intro cpu s' hreleases hstep page hchanged
    exact hinv.release_apart hreleases hstep hchanged
  · intro cpu page file fileOffset hpc
    apply (hinv.pc cpu).reads
    rw [hpc]
    rfl

end Invariant

section Runs

variable {n : Nat}

instance (kernelSpace : Bool) (s : RegionState (Fin n)) (request : AllocRequest)
    (range : Nat × Nat) : Decidable (ReservesApart kernelSpace s request range) :=
  inferInstanceAs (Decidable ((∀ r ∈ s.space.entries, _) ∧
    (∀ cpu, ∀ released ∈ (s.pc cpu).releasing, RangesApart range released) ∧ _))

instance (kernelSpace : Bool) (s : RegionState (Fin n)) :
    ∀ pc, Decidable (PcUndisturbed kernelSpace s pc)
  | .mapPage page _ _ => inferInstanceAs (Decidable (∀ walked ∈ walkedPages page pageSize, _))
  | .mapRegion _ range _ => inferInstanceAs (Decidable (∀ page ∈ walkedPages range.1 range.2, _))
  | .mapDescribed _ address (pair :: _) => inferInstanceAs (Decidable
    (∀ mapped ∈ mapPair s.translation address pair, ∀ page ∈ walkedPages address mapped.1, _))
  | .changeRange arguments range =>
    inferInstanceAs (Decidable (_ → ReservesApart kernelSpace s arguments.request range))
  | .closeFile reservation _ => inferInstanceAs (Decidable (_ ∧
    ∀ file ∈ reservation.backingFile, (∀ cpu, (s.pc cpu).readsFrom ≠ some file) ∧
      ∀ r ∈ s.space.entries, _))
  | .unmapRegion range _ => inferInstanceAs (Decidable (range.2 < 2 ^ 32))
  | .idle | .checkAccess _ _ | .reserveFrame _ _ | .readPage _ _ _ | .zeroPage _ _ | .populate _ _
  | .reserveFrames _ _ | .mapDescribed _ _ [] | .readRegion _ _ | .freeFailed _ | .freeRegion _ _
  | .unmapBitmap _ _ => .isTrue trivial

instance (kernelSpace : Bool) (s : RegionState (Fin n)) :
    ∀ action, Decidable (Undisturbed kernelSpace s action)
  | .fault _ _ _ => inferInstanceAs (Decidable (_ = false))
  | .continue cpu => inferInstanceAs (Decidable (PcUndisturbed kernelSpace s (s.pc cpu)))
  | .allocRegion _ _ | .freeRegion _ _ _ | .checkAccess _ _ | .reserveFrames _ _ | .readFile _ _ =>
    .isTrue trivial

/-- A process and its space, nothing of which is reserved yet. -/
def exampleAddressSpace : RegionState (Fin 2) := ⟨exampleSpace,fun _ => none,[],fun _ => .idle⟩

private theorem exampleAddressSpace_init : (raceSystem 56 false).init exampleAddressSpace :=
  ⟨⟨0x10000,0x1000000,0x50000,_,by decide,rfl,rfl⟩,rfl,rfl,fun _ => rfl⟩

/-- A region that is reserved and committed, lazily or not. -/
def regionArguments (baseAddress size : Nat) (notLazy : Bool) (file : Option Nat) :
    RegionArguments :=
  ⟨⟨baseAddress,size,⟨true,true⟩,pageRightsReadWrite,false,file⟩,notLazy,false,none⟩

def continues (cpu : Fin 2) (count : Nat) : List (RaceAction (Fin 2)) :=
  List.replicate count (.continue cpu)

/-- A fault up to the mapping of its page. -/
def faultUpToMapping (cpu : Fin 2) (faultingAddress pa : Nat) : List (RaceAction (Fin 2)) :=
  [.fault cpu faultingAddress ⟨true,false,false⟩,.checkAccess cpu false,.reserveFrames cpu pa]

/-- A page is mapped beside a release, a file is read, and a range is used again. -/
theorem regions_consistent_two : ∃ s : RegionState (Fin 2),
    (raceSystem 56 false).ReachableUnder (Undisturbed false) s ∧ (∀ cpu, s.pc cpu = .idle) ∧
    (s.translation 0x2000000 = some 0x7000 ∧ s.space.Committed 0x2000000) ∧
    s.translation 0x1000000 = none ∧ s.closedFiles = [3] := by
  obtain ⟨s,hreach,hstate⟩ := TransitionSystem.exists_reachable (raceSystem 56 false)
    (Undisturbed false) exampleAddressSpace exampleAddressSpace_init
    ([.allocRegion 0 (regionArguments 0 0x1000 false (some 3))] ++ continues 0 2 ++
      [.allocRegion 1 (regionArguments 0x2000000 0x1000 true none)] ++ continues 1 2 ++
      faultUpToMapping 0 0x1000010 0x5000 ++ continues 0 1 ++
      [.readFile 0 (some 0x1000),.reserveFrames 1 0x6000] ++ continues 0 1 ++
      [.freeRegion 0 0x1000000 .release] ++ continues 0 3 ++ continues 1 1 ++ continues 0 1 ++
      [.freeRegion 1 0x2000000 .release] ++ continues 1 4 ++
      [.allocRegion 0 (regionArguments 0x2000000 0x1000 false none)] ++ continues 0 2 ++
      faultUpToMapping 1 0x2000020 0x7000 ++ continues 1 2)
    (fun s => decide ((∀ cpu, (s.pc cpu).isIdle = true) ∧ s.translation 0x2000000 = some 0x7000 ∧
      s.translation 0x1000000 = none ∧ s.closedFiles = [3]))
    (by decide +kernel) (by decide +kernel)
  obtain ⟨hidle,hmapped,hunmapped,hclosed⟩ := of_decide_eq_true hstate
  have hidle (cpu : Fin 2) : s.pc cpu = .idle := RegionPc.eq_idle (hidle cpu)
  have hcommitted := (regions_consistent hreach).1 hidle 0x2000000 (by rw [hmapped]; rfl)
  exact ⟨s,hreach,hidle,⟨hmapped,hcommitted⟩,hunmapped,hclosed⟩

/-- A page is committed when the access is checked and mapped after it was released; a release
unmaps a page of the reservation that came after it; a handler reads from a file that a release
has closed. -/
theorem regions_inconsistent :
    (∃ s : RegionState (Fin 2), (raceSystem 56 false).Reachable s ∧ (∀ cpu, s.pc cpu = .idle) ∧
      (s.translation 0x1000000).isSome = true ∧ ¬ s.space.Committed 0x1000000) ∧
    (∃ s s' : RegionState (Fin 2), (raceSystem 56 false).Reachable s ∧
      (s.pc 0).releasing = some (0x2000000,0x1000) ∧
      raceStep 56 false s (.continue 0) = some s' ∧ s.space.Committed 0x2000000 ∧
      s.translation 0x2000000 = some 0x6000 ∧ s'.translation 0x2000000 = none) ∧
    ∃ s : RegionState (Fin 2), (raceSystem 56 false).Reachable s ∧
      s.pc 1 = .readPage 0x1000000 3 0 ∧ 3 ∈ s.closedFiles := by
  have hguard (as : List (RaceAction (Fin 2))) : (raceSystem 56 false).RunSatisfies
      (fun _ _ => True) exampleAddressSpace as :=
    TransitionSystem.runSatisfies_of_forall (fun _ _ => trivial) _ _
  refine ⟨?_,?_,?_⟩
  · obtain ⟨s,hreach,hstate⟩ := TransitionSystem.exists_reachable (raceSystem 56 false)
      (fun _ _ => True) exampleAddressSpace exampleAddressSpace_init
      ([.allocRegion 0 (regionArguments 0 0x1000 false none)] ++ continues 0 2 ++
        faultUpToMapping 1 0x1000010 0x5000 ++ [.freeRegion 0 0x1000000 .release] ++
        continues 0 4 ++ continues 1 2)
      (fun s => decide ((∀ cpu, (s.pc cpu).isIdle = true) ∧
        (s.translation 0x1000000).isSome = true ∧ ¬ s.space.Committed 0x1000000))
      (hguard _) (by decide +kernel)
    obtain ⟨hidle,hmapped,huncommitted⟩ := of_decide_eq_true hstate
    exact ⟨s,hreach,fun cpu => RegionPc.eq_idle (hidle cpu),hmapped,huncommitted⟩
  · obtain ⟨s,hreach,hstate⟩ := TransitionSystem.exists_reachable (raceSystem 56 false)
      (fun _ _ => True) exampleAddressSpace exampleAddressSpace_init
      ([.allocRegion 0 (regionArguments 0x2000000 0x1000 true none)] ++ continues 0 2 ++
        [.reserveFrames 0 0x5000] ++ continues 0 1 ++ [.freeRegion 0 0x2000000 .release] ++
        continues 0 3 ++ [.allocRegion 1 (regionArguments 0x2000000 0x1000 true none)] ++
        continues 1 2 ++ [.reserveFrames 1 0x6000] ++ continues 1 1)
      (fun s => decide ((s.pc 0).releasing = some (0x2000000,0x1000) ∧
        s.space.Committed 0x2000000 ∧ s.translation 0x2000000 = some 0x6000) &&
        (raceStep 56 false s (.continue 0)).any fun next : RegionState (Fin 2) =>
          decide (next.translation 0x2000000 = none))
      (hguard _) (by decide +kernel)
    obtain ⟨hbefore,hafter⟩ := (Bool.and_eq_true _ _).mp hstate
    obtain ⟨hreleasing,hcommitted,hmapped⟩ := of_decide_eq_true hbefore
    obtain ⟨s',hstep,hunmapped⟩ := (Option.any_eq_true _ _).mp hafter
    exact ⟨s,s',hreach,hreleasing,hstep,hcommitted,hmapped,of_decide_eq_true hunmapped⟩
  · obtain ⟨s,hreach,hstate⟩ := TransitionSystem.exists_reachable (raceSystem 56 false)
      (fun _ _ => True) exampleAddressSpace exampleAddressSpace_init
      ([.allocRegion 0 (regionArguments 0 0x1000 false (some 3))] ++ continues 0 2 ++
        faultUpToMapping 1 0x1000010 0x5000 ++ continues 1 1 ++
        [.freeRegion 0 0x1000000 .release] ++ continues 0 3)
      (fun s => (match s.pc 1 with
        | .readPage 0x1000000 3 0 => true
        | _ => false) && decide (3 ∈ s.closedFiles))
      (hguard _) (by decide +kernel)
    obtain ⟨hpc,hclosed⟩ := (Bool.and_eq_true _ _).mp hstate
    refine ⟨s,hreach,?_,of_decide_eq_true hclosed⟩
    split at hpc
    · assumption
    · cases hpc

end Runs

end Hal9000
