import Hal9000.Memory.PageFault
import Hal9000.Memory.PagingForest
import Hal9000.Memory.PagingPool
import Hal9000.Memory.PhysicalFrames
import Hal9000.Memory.ReservationHistory
import Hal9000.Memory.ZeroWorker

/-!
# Memory regions and the frames behind them

`VmmAllocRegionEx`, `VmmFreeRegionEx`, `VmmSolvePageFault` and one round of the page-zeroing
worker, run one at a time. They move frames between the bitmap of the physical memory manager,
the entries of the page tables and the list of pages to zero.
-/

namespace Hal9000

/-- The address spaces, and what they share. The kernel's is `none`, which the functions are
given as `NULL`. -/
structure MemoryManager (Process : Type) (Space : Type := VmmReservationSpace) where
  memory : PhysicalMemory
  pagingData : Option Process → PagingData
  space : Option Process → Space
  allocationBitmap : Bitmap
  pagesToZeroList : List MmuZeroWorkerItem

/-- An allocation that neither a file nor a list of frames is behind. -/
structure RegionRequest where
  baseAddress : Nat
  size : Nat
  allocType : VmmAllocType
  notLazy : Bool
  rights : PageRights
  uncacheable : Bool
  base_lt : baseAddress < qwordModulus

theorem null_lt : 0 < qwordModulus := by decide

def RegionRequest.allocRequest (request : RegionRequest) : AllocRequest :=
  ⟨request.baseAddress,request.size,request.allocType,request.rights,request.uncacheable,none⟩

/-- The frames an item of the list stands for. -/
def MmuZeroWorkerItem.frames (item : MmuZeroWorkerItem) : List Nat :=
  List.range' (item.physicalAddress / pageSize) item.numberOfFrames

/-- `MmuReleaseMemory` of one frame. -/
def mmuReleaseMemory (pagesToZeroList : List MmuZeroWorkerItem) (physicalAddr : Nat) :
    Option (List MmuZeroWorkerItem) := do
  assert (isAddressAligned physicalAddr pageSize)
  return pagesToZeroList ++ [⟨physicalAddr,1⟩]

namespace MemoryManager

variable {Process Space : Type} [DecidableEq Process]

def setSpace (s : MemoryManager Process Space) (process : Option Process) (space : Space) :
    MemoryManager Process Space :=
  { s with space := Function.update s.space process space }

/-- The tables after an address space maps pages. -/
def setMapped (s : MemoryManager Process) (process : Option Process)
    (mapped : WalkState PagingData) : MemoryManager Process :=
  { s with
    memory := mapped.memory
    pagingData := Function.update s.pagingData process mapped.context }

/-- What the mappings of the kernel change. -/
def kernel (s : MemoryManager Process) : KernelMemory :=
  ⟨s.memory,s.pagingData none,s.space none⟩

def setKernel (s : MemoryManager Process) (m : KernelMemory) : MemoryManager Process :=
  { s with
    memory := m.memory
    pagingData := Function.update s.pagingData none m.pagingData
    space := Function.update s.space none m.space }

/-- `MmuUnmapMemoryEx`, which queues the frames for zeroing. -/
def unmap (s : MemoryManager Process Space) (process : Option Process)
    (virtualAddress size : Nat) (releaseMemory : Bool) : Option (MemoryManager Process Space) := do
  let unmapped ← mmuUnmapMemoryEx s.memory (s.pagingData process) virtualAddress size releaseMemory
  let pagesToZeroList ← unmapped.context.foldlM mmuReleaseMemory s.pagesToZeroList
  return { s with memory := unmapped.memory, pagesToZeroList := pagesToZeroList }

end MemoryManager

section Functions

variable {Process : Type} [DecidableEq Process]
variable (vmmData : VmmData) (reservationSize highestPhysicalAddress : Nat)

/-- The base address is `0` for `NULL`. The address space and the tables are those of one process, as
they are in every call. -/
def vmmAllocRegionEx (s : MemoryManager Process) (process : Option Process)
    (request : RegionRequest) : Option (Nat × MemoryManager Process) := do
  assert (request.size != 0)
  assert (request.allocType.commit || request.allocType.reserve)
  match ← vmReservationSpaceAllocRegion reservationSize (s.space process) request.allocRequest with
  | (.success, some (base, alignedSize), space) =>
    let s := s.setSpace process space
    assert (base != 0)
    if request.notLazy then
      assert request.allocType.commit
      let noOfFrames := alignedSize / pageSize
      assert (noOfFrames ≤ maxDword)
      let (pa, bitmap) := pmmReserveMemory s.allocationBitmap noOfFrames
      let s := { s with allocationBitmap := bitmap }
      -- without frames the region is there, and nothing is mapped
      if pa = 0 then return (base, s)
      let mapped ← mmuMapMemoryInternal vmmData s.memory (s.pagingData process) pa alignedSize
        request.rights base true request.uncacheable
      return (base, s.setMapped process mapped)
    else return (base, s)
  | (_, _, space) => return (0, s.setSpace process space)

/-- The bitmap of a released reservation is unmapped in the kernel, before its pages are. -/
def vmmFreeRegionEx (s : MemoryManager Process) (process : Option Process) (address : Nat)
    (freeType : VmmFreeType) (release : Bool) : Option (MemoryManager Process) := do
  let ((alignedAddress, alignedSize), uninitialized, space) ←
    vmReservationSpaceFreeRegion reservationSize (s.space process) address freeType
  let s := s.setSpace process space
  let s ← match uninitialized with
    | none => pure s
    | some reservation =>
      let bitmap := reservation.commitBitmap
      s.unmap none bitmap.bitmapBuffer bitmap.bufferSize true
  assert (alignedAddress != 0)
  assert (alignedSize != 0)
  s.unmap process alignedAddress alignedSize release

/-- The reservations of the kernel for kernel addresses, and those of the process for others. -/
def vmmRetrieveReservationSpaceForAddress (s : MemoryManager Process) (process : Option Process)
    (virtualAddress : Nat) : VmmReservationSpace :=
  if vmIsKernelAddress virtualAddress then s.space none else s.space process

/-- Whether the fault is solved. The page is populated before its contents are read or zeroed. -/
def vmmSolvePageFault (s : MemoryManager Process) (process : Option Process)
    (faultingAddress : Nat) (rightsRequested : PageRights) (metadataAccess : Bool) :
    Option (Bool × MemoryManager Process) := do
  let alignedAddress := alignAddressLower faultingAddress pageSize
  if alignedAddress = 0 then return (false, s)
  else if vmIsKernelAddress faultingAddress && !(s.pagingData process).kernelSpace then
    return (false, s)
  else if !vmIsKernelAddress faultingAddress && (s.pagingData process).kernelSpace then
    return (false, s)
  else
    match ← vmReservationCanAddressBeAccessed reservationSize
        (vmmRetrieveReservationSpaceForAddress s process faultingAddress) metadataAccess
        faultingAddress rightsRequested with
    | none => return (false, s)
    | some grant =>
      let (pa, bitmap) := pmmReserveMemory s.allocationBitmap 1
      assert (pa != 0)
      let s := { s with allocationBitmap := bitmap }
      let mapped ← mmuMapMemoryInternal vmmData s.memory (s.pagingData process) pa pageSize
        grant.memoryRights alignedAddress true grant.uncacheable
      return (true, s.setMapped process mapped)

/-- `NumberOfFrames * PAGE_SIZE`, kept in 32 bits. -/
def MmuZeroWorkerItem.noOfBytes (item : MmuZeroWorkerItem) : Nat :=
  item.numberOfFrames * pageSize % 2 ^ 32

/-- The mapping of an item's frames while they are zeroed. -/
def MmuZeroWorkerItem.mapRequest (item : MmuZeroWorkerItem) : MmuMapRequest :=
  ⟨item.physicalAddress,item.noOfBytes,pageRightsReadWrite,false,false⟩

/-- One round of `_MmuZeroWorkerThreadFunction`. -/
def mmuZeroWorkerRound (s : MemoryManager Process) : Option (MemoryManager Process) :=
  match s.pagesToZeroList with
  | [] => some s
  | item :: rest => do
    let (pAddr, m) ← mmuMapMemoryEx vmmData highestPhysicalAddress s.kernel item.mapRequest
    assert (pAddr != 0)
    let bitmap ← pmmReleaseMemory s.allocationBitmap item.physicalAddress item.numberOfFrames
    let m ← mmuUnmapSystemMemory m pAddr item.noOfBytes
    return { s.setKernel m with allocationBitmap := bitmap, pagesToZeroList := rest }

inductive RegionAction (Process : Type)
  | allocRegion (process : Option Process) (request : RegionRequest)
  | freeRegion (process : Option Process) (address : Nat) (freeType : VmmFreeType)
  | pageFault (process : Option Process) (faultingAddress : Nat) (rightsRequested : PageRights)
      (metadataAccess : Bool)
  | zeroWorker

def regionStep (s : MemoryManager Process) :
    RegionAction Process → Option (MemoryManager Process)
  | .allocRegion process request =>
    (vmmAllocRegionEx vmmData reservationSize s process request).map Prod.snd
  | .freeRegion process address freeType =>
    vmmFreeRegionEx reservationSize s process address freeType true
  | .pageFault process faultingAddress rightsRequested metadataAccess =>
    if ¬ faultingAddress < qwordModulus then none
    else (vmmSolvePageFault vmmData reservationSize s process faultingAddress rightsRequested
      metadataAccess).map Prod.snd
  | .zeroWorker => mmuZeroWorkerRound vmmData highestPhysicalAddress s

end Functions

section Reservations

variable {reservationSize : Nat} {space space' : VmmReservationSpace}

private theorem vmChangeVaReservationState_pointer {base size : Nat} {change : VaReservationChange}
    {rights : PageRights} {uncacheable : Bool} {file : Option Nat} {status : Status}
    (h : vmChangeVaReservationState reservationSize space base size change rights uncacheable file =
      some (status,space')) :
    space'.freeVirtualAddressPointer = space.freeVirtualAddressPointer := by
  simp only [vmChangeVaReservationState,Option.bind_eq_bind,Option.bind_eq_some_iff] at h
  obtain ⟨_,_,_,_,_,_,_,_,found,_,h⟩ := h
  cases change with
  | reserve =>
    cases found with
    | some index => rw [← (Prod.mk.inj (Option.some.inj h)).2]
    | none =>
      simp only [Option.bind_eq_some_iff] at h
      obtain ⟨⟨index,space₁⟩,hfree,space₂,hinit,h⟩ := h
      obtain ⟨found,_,hfound⟩ := Option.map_eq_some_iff.mp hfree
      obtain ⟨_,_,_,hspace₂⟩ := vmInitializeReservation_eq_some.mp hinit
      rw [← (Prod.mk.inj (Option.some.inj h)).2,hspace₂,← (Prod.mk.inj hfound).2]
  | commit =>
    cases found with
    | none => rw [← (Prod.mk.inj (Option.some.inj h)).2]
    | some index =>
      simp only [Option.bind_eq_some_iff] at h
      obtain ⟨r,_,h⟩ := h
      split at h
      · rw [← (Prod.mk.inj (Option.some.inj h)).2]
      · split at h
        · rw [← (Prod.mk.inj (Option.some.inj h)).2]
        · obtain ⟨r',_,h⟩ := Option.bind_eq_some_iff.mp h
          rw [← (Prod.mk.inj (Option.some.inj h)).2]

private theorem changeIfFlagged_pointer {range : Nat × Nat} {request : AllocRequest} {flag : Bool}
    {change : VaReservationChange} {status : Status}
    (h : changeIfFlagged reservationSize space range request flag change = some (status,space')) :
    space'.freeVirtualAddressPointer = space.freeVirtualAddressPointer := by
  cases flag with
  | false => rw [← (Prod.mk.inj (Option.some.inj h)).2]
  | true => exact vmChangeVaReservationState_pointer h

theorem vmReservationSpaceAllocRegion_range {request : AllocRequest} {status : Status}
    {range : Option (Nat × Nat)} (hbase : request.baseAddress < qwordModulus)
    (hpointer : space.freeVirtualAddressPointer < qwordModulus)
    (h : vmReservationSpaceAllocRegion reservationSize space request =
      some (status,range,space')) :
    space'.freeVirtualAddressPointer < qwordModulus ∧ ∀ r, range = some r →
      (allocRange space request.baseAddress request.size).1 = some r ∧ r.1 < qwordModulus := by
  have hwords : (allocRange space request.baseAddress request.size).2.freeVirtualAddressPointer <
      qwordModulus ∧ ∀ range, (allocRange space request.baseAddress request.size).1 = some range →
        range.1 < qwordModulus := allocRange_words hbase hpointer
  obtain ⟨hmoved,hword⟩ := hwords
  simp only [vmReservationSpaceAllocRegion,vmReservationSpaceChangeRange,Option.bind_eq_bind,
    Option.bind_eq_some_iff] at h
  obtain ⟨_,_,_,_,h⟩ := h
  cases hrange : allocRange space request.baseAddress request.size with
  | mk found space₁ =>
    rw [hrange] at h hmoved hword
    cases found with
    | none =>
      obtain ⟨_,rfl,rfl⟩ := Prod.mk.inj (Option.some.inj h) |>.imp id Prod.mk.inj
      exact ⟨hmoved,by simp⟩
    | some r =>
      simp only [Option.bind_eq_some_iff] at h
      obtain ⟨⟨reserved,space₂⟩,hreserve,h⟩ := h
      have hpointer₂ := changeIfFlagged_pointer hreserve
      split at h
      · obtain ⟨_,rfl,rfl⟩ := Prod.mk.inj (Option.some.inj h) |>.imp id Prod.mk.inj
        exact ⟨by rw [hpointer₂]; exact hmoved,by simp⟩
      · obtain ⟨⟨committed,space₃⟩,hcommit,h⟩ := Option.bind_eq_some_iff.mp h
        have hpointer₃ := changeIfFlagged_pointer hcommit
        have hlast : space₃.freeVirtualAddressPointer < qwordModulus := by
          rw [hpointer₃,hpointer₂]
          exact hmoved
        split at h
        · obtain ⟨_,rfl,rfl⟩ := Prod.mk.inj (Option.some.inj h) |>.imp id Prod.mk.inj
          exact ⟨hlast,by simp⟩
        · obtain ⟨_,rfl,rfl⟩ := Prod.mk.inj (Option.some.inj h) |>.imp id Prod.mk.inj
          refine ⟨hlast,?_⟩
          rintro r' heq
          exact ⟨heq,hword r' heq⟩

theorem vmReservationSpaceAllocRegion_pointer {request : AllocRequest} {range : Nat × Nat}
    (h : vmReservationSpaceAllocRegion reservationSize space request =
      some (.success,some range,space')) : space'.freeVirtualAddressPointer =
        (allocRange space request.baseAddress request.size).2.freeVirtualAddressPointer := by
  simp only [vmReservationSpaceAllocRegion,vmReservationSpaceChangeRange,Option.bind_eq_bind,
    Option.bind_eq_some_iff] at h
  obtain ⟨_,_,_,_,h⟩ := h
  cases hrange : allocRange space request.baseAddress request.size with
  | mk found space₁ =>
    rw [hrange] at h
    cases found with
    | none => cases h
    | some r =>
      simp only [Option.bind_eq_some_iff] at h
      obtain ⟨⟨reserved,space₂⟩,hreserve,h⟩ := h
      split at h
      · cases h
      · obtain ⟨⟨committed,space₃⟩,hcommit,h⟩ := Option.bind_eq_some_iff.mp h
        split at h
        · cases h
        · obtain ⟨_,-,rfl⟩ := Prod.mk.inj (Option.some.inj h) |>.imp id Prod.mk.inj
          rw [changeIfFlagged_pointer hcommit,changeIfFlagged_pointer hreserve]

theorem vmReservationSpaceFreeRegion_pointer {address : Nat} {freeType : VmmFreeType}
    {range : Nat × Nat} {uninitialized : Option VmmReservation}
    (h : vmReservationSpaceFreeRegion reservationSize space address freeType =
      some (range,uninitialized,space')) :
    space'.freeVirtualAddressPointer = space.freeVirtualAddressPointer := by
  simp only [vmReservationSpaceFreeRegion,Option.bind_eq_bind,Option.bind_eq_some_iff] at h
  obtain ⟨_,_,_,_,_,_,r,_,h⟩ := h
  cases freeType with
  | release =>
    obtain ⟨_,_,h⟩ := Option.bind_eq_some_iff.mp h
    rw [← (Prod.mk.inj (Prod.mk.inj (Option.some.inj h)).2).2]
  | decommit size =>
    simp only [Option.bind_eq_some_iff] at h
    obtain ⟨_,_,r',_,h⟩ := h
    rw [← (Prod.mk.inj (Prod.mk.inj (Option.some.inj h)).2).2]

end Reservations

section Calls

variable {Process : Type} [DecidableEq Process] {vmmData : VmmData} {reservationSize : Nat}
  {s s' : MemoryManager Process} {process : Option Process}

/-- The state after frames are reserved and mapped. -/
def MemoryManager.setReserved (s : MemoryManager Process) (process : Option Process)
    (bitmap : Bitmap) (mapped : WalkState PagingData) : MemoryManager Process :=
  { s with allocationBitmap := bitmap }.setMapped process mapped

theorem vmmAllocRegionEx_cases {request : RegionRequest} {base : Nat}
    (hpointer : (s.space process).freeVirtualAddressPointer < qwordModulus)
    (h : vmmAllocRegionEx vmmData reservationSize s process request = some (base,s')) :
    ∃ space, space.freeVirtualAddressPointer < qwordModulus ∧
      (s' = s.setSpace process space ∨
        request.notLazy = true ∧ ∃ size, base < qwordModulus ∧ size / pageSize ≤ maxDword ∧
          (allocRange (s.space process) request.baseAddress request.size).1 = some (base,size) ∧
          ∃ pa bitmap, pmmReserveMemory s.allocationBitmap (size / pageSize) = (pa,bitmap) ∧
            (pa = 0 ∧ s' = { s.setSpace process space with allocationBitmap := bitmap } ∨
              pa ≠ 0 ∧ ∃ mapped, mmuMapMemoryInternal vmmData s.memory (s.pagingData process) pa size
                request.rights base true request.uncacheable = some mapped ∧
                s' = (s.setSpace process space).setReserved process bitmap mapped)) := by
  simp only [vmmAllocRegionEx,Option.bind_eq_bind,Option.bind_eq_some_iff] at h
  obtain ⟨_,_,_,_,⟨status,range,space⟩,halloc,h⟩ := h
  obtain ⟨hpointer',hrange⟩ := vmReservationSpaceAllocRegion_range request.base_lt hpointer halloc
  refine ⟨space,hpointer',?_⟩
  rcases range with _ | ⟨base',size⟩
  · cases status <;> exact Or.inl (Prod.mk.inj (Option.some.inj h)).2.symm
  · cases status
    case success =>
      obtain ⟨hsame,hword⟩ := hrange _ rfl
      obtain ⟨_,_,h⟩ := Option.bind_eq_some_iff.mp h
      cases hlazy : request.notLazy with
      | false =>
        rw [hlazy] at h
        exact Or.inl (Prod.mk.inj (Option.some.inj h)).2.symm
      | true =>
        simp only [hlazy,if_true,Option.bind_eq_some_iff] at h
        obtain ⟨_,_,_,hframes,h⟩ := h
        have hframes : size / pageSize ≤ maxDword := by simpa using hframes
        right
        cases hreserve : pmmReserveMemory s.allocationBitmap (size / pageSize) with
        | mk pa bitmap =>
          have hreserve' : pmmReserveMemory (s.setSpace process space).allocationBitmap
              (size / pageSize) = (pa,bitmap) := hreserve
          rw [hreserve'] at h
          split at h
          · rename_i hpa
            obtain ⟨rfl,rfl⟩ := Prod.mk.inj (Option.some.inj h)
            exact ⟨rfl,size,hword,hframes,hsame,pa,bitmap,hreserve,Or.inl ⟨hpa,rfl⟩⟩
          · rename_i hpa
            obtain ⟨mapped,hmap,h⟩ := Option.bind_eq_some_iff.mp h
            obtain ⟨rfl,rfl⟩ := Prod.mk.inj (Option.some.inj h)
            exact ⟨rfl,size,hword,hframes,hsame,pa,bitmap,hreserve,Or.inr ⟨hpa,mapped,hmap,rfl⟩⟩
    all_goals exact Or.inl (Prod.mk.inj (Option.some.inj h)).2.symm

theorem vmmSolvePageFault_cases {faultingAddress : Nat} {rightsRequested : PageRights}
    {metadataAccess solved : Bool}
    (h : vmmSolvePageFault vmmData reservationSize s process faultingAddress rightsRequested
      metadataAccess = some (solved,s')) :
    solved = false ∧ s' = s ∨ solved = true ∧ ∃ (grant : AccessGrant) (pa : Nat) (bitmap : Bitmap)
        (mapped : WalkState PagingData), pmmReserveMemory s.allocationBitmap 1 = (pa,bitmap) ∧ pa ≠ 0 ∧
      mmuMapMemoryInternal vmmData s.memory (s.pagingData process) pa pageSize grant.memoryRights
        (alignAddressLower faultingAddress pageSize) true grant.uncacheable = some mapped ∧
      s' = s.setReserved process bitmap mapped := by
  simp only [vmmSolvePageFault] at h
  split at h
  · exact Or.inl ⟨(Prod.mk.inj (Option.some.inj h)).1.symm,(Prod.mk.inj (Option.some.inj h)).2.symm⟩
  · split at h
    · exact Or.inl ⟨(Prod.mk.inj (Option.some.inj h)).1.symm,
        (Prod.mk.inj (Option.some.inj h)).2.symm⟩
    · split at h
      · exact Or.inl ⟨(Prod.mk.inj (Option.some.inj h)).1.symm,
          (Prod.mk.inj (Option.some.inj h)).2.symm⟩
      · obtain ⟨access,_,h⟩ := Option.bind_eq_some_iff.mp h
        cases access with
        | none =>
          exact Or.inl ⟨(Prod.mk.inj (Option.some.inj h)).1.symm,
            (Prod.mk.inj (Option.some.inj h)).2.symm⟩
        | some grant =>
          cases hreserve : pmmReserveMemory s.allocationBitmap 1 with
          | mk pa bitmap =>
            simp only [hreserve,Option.bind_eq_bind,Option.bind_eq_some_iff] at h
            obtain ⟨_,hpa,mapped,hmap,h⟩ := h
            obtain ⟨rfl,rfl⟩ := Prod.mk.inj (Option.some.inj h)
            exact Or.inr ⟨rfl,grant,pa,bitmap,mapped,rfl,by simpa using hpa,hmap,rfl⟩

end Calls

end Hal9000
