import Hal9000.Framework.BumpAllocation
import Hal9000.Framework.TransitionSystem
import Hal9000.Memory.Mdl
import Hal9000.Memory.PagingPool

/-!
# The mappings of the kernel

`MmuMapMemoryEx` and `MmuUnmapMemoryEx` on the kernel's tables. Each holds the lock of the tables
throughout, so whatever CPUs call them, a run is a sequence of calls; what is mapped at a time is
any part of what has been mapped so far. `VmmAllocRegionEx` takes its regions from the same pointer,
and the pages of a region are mapped and unmapped at any time.
-/

namespace Hal9000

structure MappingState where
  kernel : KernelMemory
  /-- What has been asked for at each pointer that was returned and not given back. -/
  live : Nat → Option MmuMapRequest
  /-- The sizes of the regions of `VmmAllocRegionEx`. -/
  regions : Nat → Option Nat

inductive MappingAction
  | mmuMapMemoryEx (request : MmuMapRequest)
  /-- The pointer and the size of a mapping are given back. -/
  | mmuUnmapMemoryEx (pointer : Nat)
  | vmmAllocRegion (size : Nat)
  /-- `MmuMapMemoryInternal` of pages of a region, at once or by a page fault. -/
  | mapRegionPages (region physicalAddress size baseAddress : Nat) (pageRights : PageRights)
      (invalidate uncacheable : Bool)
  | unmapRegionPages (region baseAddress size : Nat) (releaseMemory : Bool)

section Mappings

variable (vmmData : VmmData) (highestPhysicalAddress : Nat)

def mappingStep (s : MappingState) : MappingAction → Option MappingState
  | .mmuMapMemoryEx request => do
    let (pointer,kernel) ← mmuMapMemoryEx vmmData highestPhysicalAddress s.kernel request
    return { s with
      kernel
      live := if pointer = 0 then s.live else Function.update s.live pointer (some request) }
  | .mmuUnmapMemoryEx pointer => do
    let request ← s.live pointer
    let kernel ← mmuUnmapSystemMemory s.kernel pointer request.size
    return { s with kernel, live := Function.update s.live pointer none }
  | .vmmAllocRegion size =>
    let (pointer,space) := vmReservationSpaceDetermineNextFreeVirtualAddress s.kernel.space size
    some { s with
      kernel := { s.kernel with space }
      regions := Function.update s.regions pointer (some size) }
  | .mapRegionPages _ physicalAddress size baseAddress pageRights invalidate uncacheable => do
    let mapped ← vmmMapMemoryInternal vmmData s.kernel.memory s.kernel.pagingData physicalAddress
      size baseAddress pageRights invalidate uncacheable
    return { s with
      kernel := { s.kernel with memory := mapped.memory, pagingData := mapped.context } }
  | .unmapRegionPages _ baseAddress size releaseMemory => do
    let unmapped ← vmmUnmapMemoryEx s.kernel.memory ⟨s.kernel.pagingData.basePhysicalAddress⟩
      baseAddress size releaseMemory
    return { s with kernel := { s.kernel with memory := unmapped.memory } }

def mappingSystem (start : KernelMemory) : TransitionSystem MappingState MappingAction where
  init s := s = ⟨start,fun _ => none,fun _ => none⟩
  step := mappingStep vmmData highestPhysicalAddress

/-- Whole pages of a region. -/
def MappingState.InRegion (s : MappingState) (region baseAddress size : Nat) : Prop :=
  isAddressAligned baseAddress pageSize = true ∧ isAddressAligned size pageSize = true ∧
    size ≠ 0 ∧ region ≤ baseAddress ∧
    ∃ regionSize ∈ s.regions region, baseAddress + size ≤ region + regionSize

/-- A call that stays on the addresses below `last`, and whose mapping a 32-bit size covers; pages
of regions are mapped and unmapped in their region. -/
def StaysBelow (last : Nat) (s : MappingState) : MappingAction → Prop
  | .mmuMapMemoryEx request => request.Valid highestPhysicalAddress ∧
    request.alignedSize < 2 ^ 32 ∧
    s.kernel.space.freeVirtualAddressPointer + request.alignedSize ≤ last
  | .mmuUnmapMemoryEx pointer => (s.live pointer).isSome = true
  | .vmmAllocRegion size => isAddressAligned size pageSize = true ∧ size ≠ 0 ∧
    s.kernel.space.freeVirtualAddressPointer + size ≤ last
  | .mapRegionPages region physicalAddress size baseAddress _ _ _ =>
    isAddressAligned physicalAddress pageSize = true ∧ s.InRegion region baseAddress size
  | .unmapRegionPages region baseAddress size _ => s.InRegion region baseAddress size

/-- A window of kernel addresses from the pointer on: nothing is mapped in it, and there are frames
for the tables it lacks. -/
structure MappingWindow (start : KernelMemory) (size : Nat) : Prop where
  tree : PagingTree start.memory start.pagingData
  range : PageRange start.space.freeVirtualAddressPointer size
  no_wrap : start.space.freeVirtualAddressPointer + size < qwordModulus
  small : RangeHasNoLargePages start.memory start.pagingData
    start.space.freeVirtualAddressPointer size
  enough : EnoughFrames start.memory start.pagingData start.space.freeVirtualAddressPointer size
  empty : ∀ k, k < size / pageSize → start.memory.leafAt start.pagingData.basePhysicalAddress
    (tableOffsets (pageAt start.space.freeVirtualAddressPointer k)) = none

def MmuMapRequest.pages (request : MmuMapRequest) : Nat := request.alignedSize / pageSize

/-- The pages of a mapping, counted from the start of the window. -/
def mappedPages (base pointer : Nat) (request : MmuMapRequest) : Nat × Nat :=
  ((pointer - base) / pageSize,request.pages)

def livePages (live : Nat → Option MmuMapRequest) (base pointer : Nat) : Option (Nat × Nat) :=
  (live pointer).map (mappedPages base pointer)

def regionPages (regions : Nat → Option Nat) (base pointer : Nat) : Option (Nat × Nat) :=
  (regions pointer).map fun size => ((pointer - base) / pageSize,size / pageSize)

/-- The pages that are handed out, to a mapping or to a region. -/
def MappingState.handed (s : MappingState) (base : Nat) : Nat ⊕ Nat → Option (Nat × Nat) :=
  Sum.elim (livePages s.live base) (regionPages s.regions base)

/-- The entry of the page that is `k` pages from the start of the window. -/
def requestedEntry (kernelSpace : Bool) (base first : Nat) (request : MmuMapRequest) (k : Nat) :
    PtEntry :=
  mapEntry vmmData ⟨alignAddressLower request.physicalAddress pageSize,pageAt base first,
    request.pageRights,request.invalidate,request.uncacheable⟩ kernelSpace (pageAt base k)

/-- What holds after `done` pages of the window have been handed out. -/
structure MappingInv (start : KernelMemory) (size done : Nat) (s : MappingState) : Prop where
  walk : WalkInv (rangePaths start.space.freeVirtualAddressPointer (size / pageSize))
    s.kernel.memory s.kernel.pagingData
  pool : start.pagingData.SamePool s.kernel.pagingData
  enough : EnoughFrames s.kernel.memory s.kernel.pagingData start.space.freeVirtualAddressPointer
    size
  pointer : s.kernel.space.freeVirtualAddressPointer =
    pageAt start.space.freeVirtualAddressPointer done
  done_le : done ≤ size / pageSize
  handed : HandedOut (s.handed start.space.freeVirtualAddressPointer) done
  live : ∀ pointer request, s.live pointer = some request →
    request.Valid highestPhysicalAddress ∧ request.alignedSize < 2 ^ 32 ∧
    ∃ first, pointer = pageAt start.space.freeVirtualAddressPointer first +
        addressOffset request.physicalAddress pageSize ∧
      ∀ k, first ≤ k → k < first + request.pages →
        s.kernel.memory.leafAt start.pagingData.basePhysicalAddress
          (tableOffsets (pageAt start.space.freeVirtualAddressPointer k)) =
            some (requestedEntry vmmData start.pagingData.kernelSpace
              start.space.freeVirtualAddressPointer first request k,0)
  regions : ∀ pointer regionSize, s.regions pointer = some regionSize →
    ∃ first count, pointer = pageAt start.space.freeVirtualAddressPointer first ∧
      regionSize = count * pageSize ∧ 0 < count
  empty : ∀ k, k < size / pageSize →
    (∀ owner first count, s.handed start.space.freeVirtualAddressPointer owner =
      some (first,count) → ¬(first ≤ k ∧ k < first + count)) →
    s.kernel.memory.leafAt start.pagingData.basePhysicalAddress
      (tableOffsets (pageAt start.space.freeVirtualAddressPointer k)) = none
  others : ∀ path, path.length = 4 →
    (∀ k, k < size / pageSize →
      path ≠ tableOffsets (pageAt start.space.freeVirtualAddressPointer k)) →
    s.kernel.memory.leafAt start.pagingData.basePhysicalAddress path =
      start.memory.leafAt start.pagingData.basePhysicalAddress path

end Mappings

section Window

variable {vmmData : VmmData} {highestPhysicalAddress : Nat} {start : KernelMemory}
  {size done base : Nat} {s : MappingState} {request : MmuMapRequest}

theorem pageAt_pageAt (base first k : Nat) :
    pageAt (pageAt base first) k = pageAt base (first + k) := by
  simp only [pageAt]
  ring

theorem MmuMapRequest.Valid.pages_eq (h : request.Valid highestPhysicalAddress) :
    request.alignedSize = request.pages * pageSize ∧ 0 < request.pages := by
  obtain ⟨hne,haligned⟩ := h.alignedSize_eq
  simp only [MmuMapRequest.pages,pageSize] at haligned ⊢
  omega

theorem mappedPages_eq (base first : Nat) (request : MmuMapRequest) :
    mappedPages base (pageAt base first + addressOffset request.physicalAddress pageSize) request =
      (first,request.pages) := by
  have hoffset : request.physicalAddress % 4096 < 4096 := Nat.mod_lt _ (by decide)
  simp only [mappedPages,pageAt,addressOffset,pageSize,Prod.mk.injEq,and_true]
  omega

theorem PageRange.part (h : PageRange base size) {first count : Nat} (hcount : 0 < count)
    (hle : first + count ≤ size / pageSize) :
    PageRange (pageAt base first) (count * pageSize) := by
  obtain ⟨haligned,hsize,hne,hwrap,hzero,hwithin⟩ := h
  simp only [isAddressAligned,beq_iff_eq,pageSize,pageAt] at *
  refine ⟨?_,?_,by omega,by omega,by omega,by omega⟩
  · simp only [isAddressAligned,beq_iff_eq,pageSize]
    omega
  · simp only [isAddressAligned,beq_iff_eq,pageSize]
    omega

theorem rangePaths_part {first count total : Nat} (hle : first + count ≤ total) :
    rangePaths (pageAt base first) count ⊆ rangePaths base total := by
  intro path hpath
  rw [← Nat.add_sub_cancel' hle,rangePaths_append,rangePaths_append]
  exact Finset.mem_union_left _ (Finset.mem_union_right _ hpath)

theorem window_page_ne (h : PageRange base size) {first count k : Nat}
    (hle : first + count ≤ size / pageSize) (hk : k < size / pageSize)
    (hout : ¬(first ≤ k ∧ k < first + count)) :
    ∀ j, j < count →
      tableOffsets (pageAt base k) ≠ tableOffsets (pageAt (pageAt base first) j) := by
  intro j hj heq
  rw [pageAt_pageAt] at heq
  have hpage := tableOffsets_injective h hk (by omega) heq
  omega

theorem window_path_ne {first count : Nat} {path : List (Fin 512)}
    (hle : first + count ≤ size / pageSize)
    (hpath : ∀ k, k < size / pageSize → path ≠ tableOffsets (pageAt base k)) :
    ∀ j, j < count → path ≠ tableOffsets (pageAt (pageAt base first) j) := by
  intro j hj
  rw [pageAt_pageAt]
  exact hpath (first + j) (by omega)

theorem livePages_update (live : Nat → Option MmuMapRequest) (base pointer : Nat)
    (mapped : Option MmuMapRequest) : livePages (Function.update live pointer mapped) base =
      Function.update (livePages live base) pointer (mapped.map (mappedPages base pointer)) := by
  funext pointer'
  by_cases heq : pointer' = pointer
  · rw [heq]
    simp [livePages]
  · simp [livePages,Function.update_of_ne heq]

theorem MappingInv.pages_of_live (h : MappingInv vmmData highestPhysicalAddress start size done s)
    {pointer : Nat} (hlive : s.live pointer = some request) :
    ∃ first, pointer = pageAt start.space.freeVirtualAddressPointer first +
        addressOffset request.physicalAddress pageSize ∧
      livePages s.live start.space.freeVirtualAddressPointer pointer =
        some (first,request.pages) ∧ first + request.pages ≤ done := by
  obtain ⟨_,_,first,hpointer,_⟩ := h.live pointer request hlive
  have hpages : livePages s.live start.space.freeVirtualAddressPointer pointer =
      some (first,request.pages) := by
    rw [livePages,hlive,Option.map_some,hpointer,mappedPages_eq]
  exact ⟨first,hpointer,hpages,h.handed.below (.inl pointer) first request.pages hpages⟩

theorem MappingInv.base_eq (h : MappingInv vmmData highestPhysicalAddress start size done s) :
    s.kernel.pagingData.basePhysicalAddress = start.pagingData.basePhysicalAddress ∧
      s.kernel.pagingData.kernelSpace = start.pagingData.kernelSpace := by
  rw [h.pool]
  exact ⟨rfl,rfl⟩

theorem MappingInv.fresh (h : MappingInv vmmData highestPhysicalAddress start size done s)
    (physicalAddress : Nat) :
    s.live (pageAt start.space.freeVirtualAddressPointer done +
      addressOffset physicalAddress pageSize) = none := by
  cases hlive : s.live (pageAt start.space.freeVirtualAddressPointer done +
      addressOffset physicalAddress pageSize) with
  | none => rfl
  | some other =>
    obtain ⟨first,hpointer,_,hbelow⟩ := h.pages_of_live hlive
    have hpos := (h.live _ other hlive).1.pages_eq.2
    have hoffset : physicalAddress % 4096 < 4096 := Nat.mod_lt _ (by decide)
    have hoffset' : other.physicalAddress % 4096 < 4096 := Nat.mod_lt _ (by decide)
    simp only [pageAt,addressOffset,pageSize] at hpointer
    omega

theorem MappingInv.map_some (hw : MappingWindow start size)
    (h : MappingInv vmmData highestPhysicalAddress start size done s) {first count : Nat}
    (hcount : 0 < count) (hfits : first + count ≤ size / pageSize) {physicalAddress : Nat}
    (hphysical : isAddressAligned physicalAddress pageSize = true) (pageRights : PageRights)
    (invalidate uncacheable : Bool) :
    ∃ m, vmmMapMemoryInternal vmmData s.kernel.memory s.kernel.pagingData physicalAddress
        (count * pageSize) (pageAt start.space.freeVirtualAddressPointer first) pageRights
        invalidate uncacheable = some m ∧
      WalkInv (rangePaths start.space.freeVirtualAddressPointer (size / pageSize)) m.memory
        m.context ∧
      start.pagingData.SamePool m.context ∧
      EnoughFrames m.memory m.context start.space.freeVirtualAddressPointer size ∧
      (∀ j, j < count → m.memory.leafAt start.pagingData.basePhysicalAddress
        (tableOffsets (pageAt (pageAt start.space.freeVirtualAddressPointer first) j)) =
          mapLeaf invalidate (mapEntry vmmData
            ⟨physicalAddress,pageAt start.space.freeVirtualAddressPointer first,pageRights,
              invalidate,uncacheable⟩ start.pagingData.kernelSpace
            (pageAt (pageAt start.space.freeVirtualAddressPointer first) j))
            (s.kernel.memory.leafAt start.pagingData.basePhysicalAddress
              (tableOffsets (pageAt (pageAt start.space.freeVirtualAddressPointer first) j)))) ∧
      ∀ path, path.length = 4 → (∀ j, j < count → path ≠ tableOffsets
          (pageAt (pageAt start.space.freeVirtualAddressPointer first) j)) →
        m.memory.leafAt start.pagingData.basePhysicalAddress path =
          s.kernel.memory.leafAt start.pagingData.basePhysicalAddress path := by
  obtain ⟨hbase,hkernel⟩ := h.base_eq
  have hrange := hw.range.part hcount hfits
  have hpages : count * pageSize / pageSize = count := Nat.mul_div_cancel count (by decide)
  have hsub : rangePaths (pageAt start.space.freeVirtualAddressPointer first)
      (count * pageSize / pageSize) ⊆
        rangePaths start.space.freeVirtualAddressPointer (size / pageSize) := by
    rw [hpages]
    exact rangePaths_part hfits
  have hsmall : RangeHasNoLargePages s.kernel.memory s.kernel.pagingData
      (pageAt start.space.freeVirtualAddressPointer first) (count * pageSize) :=
    fun path offset table hin => h.walk.small path offset table (hsub hin)
  have henough : EnoughFrames s.kernel.memory s.kernel.pagingData
      (pageAt start.space.freeVirtualAddressPointer first) (count * pageSize) := by
    have hmissing := Finset.card_le_card (Finset.filter_subset_filter (fun path =>
      s.kernel.memory.tableAt s.kernel.pagingData.basePhysicalAddress path = none) hsub)
    have hall := h.enough
    simp only [EnoughFrames,missingTables] at hall ⊢
    omega
  obtain ⟨m,hmap,_,hpool,_,hleaf,hothers⟩ := vmmMapMemoryInternal_spec vmmData h.walk.tree
    hrange hsmall henough hphysical pageRights invalidate uncacheable
  have hbalanced := vmmMapMemoryInternal_balanced (s := ⟨s.kernel.memory,s.kernel.pagingData⟩)
    rangePaths_length hrange hsub h.walk hmap
  rw [hbase,hpages] at hleaf hothers
  rw [hkernel] at hleaf
  refine ⟨m,hmap,hbalanced.walk,?_,?_,hleaf,hothers⟩
  · have hold := h.pool
    rw [PagingData.SamePool] at hold hpool ⊢
    rw [hpool,hold]
  · have hbalance := hbalanced.balance
    have hall := h.enough
    have hframes : m.context.numberOfFrames = s.kernel.pagingData.numberOfFrames := by rw [hpool]
    simp only [WalkState.missing,EnoughFrames] at hbalance hall ⊢
    omega

theorem MappingInv.unmap_some (hw : MappingWindow start size)
    (h : MappingInv vmmData highestPhysicalAddress start size done s) {first count : Nat}
    (hcount : 0 < count) (hfits : first + count ≤ size / pageSize) (releaseMemory : Bool) :
    ∃ m, vmmUnmapMemoryEx s.kernel.memory ⟨s.kernel.pagingData.basePhysicalAddress⟩
        (pageAt start.space.freeVirtualAddressPointer first) (count * pageSize) releaseMemory =
          some m ∧
      WalkInv (rangePaths start.space.freeVirtualAddressPointer (size / pageSize)) m.memory
        s.kernel.pagingData ∧
      EnoughFrames m.memory s.kernel.pagingData start.space.freeVirtualAddressPointer size ∧
      (∀ j, j < count → m.memory.leafAt start.pagingData.basePhysicalAddress
        (tableOffsets (pageAt (pageAt start.space.freeVirtualAddressPointer first) j)) = none) ∧
      ∀ path, path.length = 4 → (∀ j, j < count → path ≠ tableOffsets
          (pageAt (pageAt start.space.freeVirtualAddressPointer first) j)) →
        m.memory.leafAt start.pagingData.basePhysicalAddress path =
          s.kernel.memory.leafAt start.pagingData.basePhysicalAddress path := by
  have hrange := hw.range.part hcount hfits
  have hpages : count * pageSize / pageSize = count := Nat.mul_div_cancel count (by decide)
  have hsub : rangePaths (pageAt start.space.freeVirtualAddressPointer first)
      (count * pageSize / pageSize) ⊆
        rangePaths start.space.freeVirtualAddressPointer (size / pageSize) := by
    rw [hpages]
    exact rangePaths_part hfits
  have hsmall : RangeHasNoLargePages s.kernel.memory s.kernel.pagingData
      (pageAt start.space.freeVirtualAddressPointer first) (count * pageSize) :=
    fun path offset table hin => h.walk.small path offset table (hsub hin)
  obtain ⟨m,hunmap,_,_,hleaf,hothers⟩ := vmmUnmapMemoryEx_spec h.walk.tree hrange hsmall
    h.walk.tree.wellFormed.cr3_table releaseMemory
  obtain ⟨hwalk,htables⟩ := vmmUnmapMemoryEx_tables rangePaths_length h.walk
    h.walk.tree.wellFormed.cr3_table hunmap
  rw [h.base_eq.1,hpages] at hleaf hothers
  refine ⟨m,hunmap,hwalk,?_,hleaf,hothers⟩
  have hmissing : missingTables m.memory s.kernel.pagingData.basePhysicalAddress
      (rangePaths start.space.freeVirtualAddressPointer (size / pageSize)) =
        missingTables s.kernel.memory s.kernel.pagingData.basePhysicalAddress
          (rangePaths start.space.freeVirtualAddressPointer (size / pageSize)) := by
    apply Finset.filter_congr
    intro path hpath
    rw [htables path (rangePaths_length path hpath)]
  rw [EnoughFrames,hmissing]
  exact h.enough

theorem MappingInv.map_pages (hw : MappingWindow start size)
    (h : MappingInv vmmData highestPhysicalAddress start size done s)
    (hvalid : request.Valid highestPhysicalAddress)
    (hfits : done + request.pages ≤ size / pageSize) :
    PageRange (pageAt start.space.freeVirtualAddressPointer done) request.alignedSize ∧
    ∃ m, vmmMapMemoryInternal vmmData s.kernel.memory s.kernel.pagingData
        (alignAddressLower request.physicalAddress pageSize) request.alignedSize
        (pageAt start.space.freeVirtualAddressPointer done) request.pageRights request.invalidate
        request.uncacheable = some m ∧
      WalkInv (rangePaths start.space.freeVirtualAddressPointer (size / pageSize)) m.memory
        m.context ∧
      start.pagingData.SamePool m.context ∧
      EnoughFrames m.memory m.context start.space.freeVirtualAddressPointer size ∧
      (∀ k, done ≤ k → k < done + request.pages →
        m.memory.leafAt start.pagingData.basePhysicalAddress
          (tableOffsets (pageAt start.space.freeVirtualAddressPointer k)) =
            some (requestedEntry vmmData start.pagingData.kernelSpace
              start.space.freeVirtualAddressPointer done request k,0)) ∧
      ∀ path, path.length = 4 → (∀ j, j < request.pages → path ≠ tableOffsets
          (pageAt (pageAt start.space.freeVirtualAddressPointer done) j)) →
        m.memory.leafAt start.pagingData.basePhysicalAddress path =
          s.kernel.memory.leafAt start.pagingData.basePhysicalAddress path := by
  obtain ⟨hsize,hpos⟩ := hvalid.pages_eq
  have hphysical : isAddressAligned (alignAddressLower request.physicalAddress pageSize)
      pageSize = true := by
    simp [isAddressAligned,alignAddressLower]
  obtain ⟨m,hmap,hwalk,hpool,henough,hleaf,hothers⟩ := h.map_some hw hpos hfits hphysical
    request.pageRights request.invalidate request.uncacheable
  rw [hsize]
  refine ⟨hw.range.part hpos hfits,m,hmap,hwalk,hpool,henough,?_,hothers⟩
  intro k hfirst hlast
  have hpage : pageAt (pageAt start.space.freeVirtualAddressPointer done) (k - done) =
      pageAt start.space.freeVirtualAddressPointer k := by
    rw [pageAt_pageAt,Nat.add_sub_cancel' hfirst]
  have hempty := h.empty k (by omega) fun owner first count hheld hin => by
    have hbelow := h.handed.below owner first count hheld
    omega
  rw [← hpage] at hempty ⊢
  rw [hleaf (k - done) (by omega),hempty,requestedEntry,hpage]
  simp [mapLeaf]

theorem MappingInv.map (hw : MappingWindow start size)
    (h : MappingInv vmmData highestPhysicalAddress start size done s)
    (hvalid : request.Valid highestPhysicalAddress) (hlt : request.alignedSize < 2 ^ 32)
    (hfits : done + request.pages ≤ size / pageSize) :
    ∃ pointer kernel, pointer ≠ 0 ∧
      mmuMapMemoryEx vmmData highestPhysicalAddress s.kernel request = some (pointer,kernel) ∧
      MappingInv vmmData highestPhysicalAddress start size (done + request.pages)
        { s with kernel, live := Function.update s.live pointer (some request) } := by
  obtain ⟨hrange,m,hmap,hwalk,hpool,henough,hleaf,hothers⟩ := h.map_pages hw hvalid hfits
  have hfresh := h.fresh request.physicalAddress
  have hpages := livePages_update s.live start.space.freeVirtualAddressPointer
    (pageAt start.space.freeVirtualAddressPointer done +
      addressOffset request.physicalAddress pageSize) (some request)
  rw [Option.map_some,mappedPages_eq] at hpages
  have hhanded : ∀ kernel, MappingState.handed { s with
      kernel
      live := Function.update s.live (pageAt start.space.freeVirtualAddressPointer done +
        addressOffset request.physicalAddress pageSize) (some request) }
      start.space.freeVirtualAddressPointer = Function.update
        (s.handed start.space.freeVirtualAddressPointer)
        (.inl (pageAt start.space.freeVirtualAddressPointer done +
          addressOffset request.physicalAddress pageSize)) (some (done,request.pages)) := by
    intro kernel
    rw [MappingState.handed,MappingState.handed,hpages,Sum.update_elim_inl]
  have hzero := hrange.not_page_zero
  refine ⟨_,_,?_,by rw [mmuMapMemoryEx_eq hrange hvalid h.pointer,hmap]; rfl,hwalk,hpool,henough,
    ?_,hfits,?_,?_,h.regions,?_,?_⟩
  · omega
  · have hwrap := hw.no_wrap
    rw [hvalid.pages_eq.1]
    simp only [ptrOffset,pageAt,pageSize,qwordModulus] at hwrap hfits ⊢
    rw [Nat.mod_eq_of_lt (by omega)]
    ring
  · rw [hhanded]
    exact h.handed.take _ _
  · intro pointer request' hlive
    change Function.update s.live _ (some request) pointer = some request' at hlive
    by_cases heq : pointer = pageAt start.space.freeVirtualAddressPointer done +
        addressOffset request.physicalAddress pageSize
    · rw [heq,Function.update_self] at hlive
      obtain rfl := Option.some.inj hlive
      exact ⟨hvalid,hlt,done,heq,hleaf⟩
    · rw [Function.update_of_ne heq] at hlive
      obtain ⟨hvalid',hlt',first,hpointer,hentry⟩ := h.live pointer request' hlive
      obtain ⟨first',hpointer',_,hbelow⟩ := h.pages_of_live hlive
      have hfirst : first = first' := by
        rw [hpointer] at hpointer'
        simp only [pageAt,pageSize] at hpointer'
        omega
      rw [← hfirst] at hbelow
      refine ⟨hvalid',hlt',first,hpointer,?_⟩
      intro k hk hk'
      rw [← hentry k hk hk']
      apply hothers _ rfl
      exact window_page_ne hw.range hfits (by omega) (by omega)
  · intro k hk hout
    have hnot : ¬(done ≤ k ∧ k < done + request.pages) := by
      apply hout (.inl (pageAt start.space.freeVirtualAddressPointer done +
        addressOffset request.physicalAddress pageSize))
      rw [hhanded,Function.update_self]
    rw [hothers _ rfl (window_page_ne hw.range hfits hk hnot)]
    apply h.empty k hk
    intro owner first count hheld
    apply hout owner
    rw [hhanded,Function.update_of_ne _]
    · exact hheld
    · rintro rfl
      simp [MappingState.handed,livePages,hfresh] at hheld
  · intro path hpath hout
    rw [← h.others path hpath hout]
    exact hothers path hpath (window_path_ne hfits hout)

theorem MappingInv.unmap (hw : MappingWindow start size)
    (h : MappingInv vmmData highestPhysicalAddress start size done s) {pointer : Nat}
    (hlive : s.live pointer = some request) :
    ∃ memory, mmuUnmapSystemMemory s.kernel pointer request.size =
        some { s.kernel with memory } ∧
      MappingInv vmmData highestPhysicalAddress start size done
        { s with kernel := { s.kernel with memory }, live := Function.update s.live pointer none } := by
  obtain ⟨hvalid,hlt,_⟩ := h.live pointer request hlive
  obtain ⟨first,hpointer,hheld,hbelow⟩ := h.pages_of_live hlive
  obtain ⟨hsize,hpos⟩ := hvalid.pages_eq
  have hfits : first + request.pages ≤ size / pageSize := hbelow.trans h.done_le
  obtain ⟨m,hunmap,hwalk,henough,hleaf,hothers⟩ := h.unmap_some hw hpos hfits false
  have hrange := hw.range.part hpos hfits
  rw [← hsize] at hunmap hrange
  have hpages := livePages_update s.live start.space.freeVirtualAddressPointer pointer none
  rw [Option.map_none] at hpages
  have hhanded : ∀ kernel, MappingState.handed { s with
      kernel, live := Function.update s.live pointer none }
      start.space.freeVirtualAddressPointer = Function.update
        (s.handed start.space.freeVirtualAddressPointer) (.inl pointer) none := by
    intro kernel
    rw [MappingState.handed,MappingState.handed,hpages,Sum.update_elim_inl]
  refine ⟨m.memory,?_,hwalk,h.pool,henough,h.pointer,h.done_le,?_,?_,h.regions,?_,?_⟩
  · rw [hpointer,mmuUnmapSystemMemory_eq hrange hvalid,Nat.mod_eq_of_lt hlt,hunmap]
    rfl
  · rw [hhanded]
    exact h.handed.giveBack _
  · intro pointer' request' hlive'
    change Function.update s.live pointer none pointer' = some request' at hlive'
    have hne : pointer' ≠ pointer := by
      rintro rfl
      simp at hlive'
    rw [Function.update_of_ne hne] at hlive'
    obtain ⟨hvalid',hlt',first',hpointer',hentry⟩ := h.live pointer' request' hlive'
    obtain ⟨first'',hpointer'',hheld',hbelow'⟩ := h.pages_of_live hlive'
    have hfirst : first' = first'' := by
      rw [hpointer'] at hpointer''
      simp only [pageAt,pageSize] at hpointer''
      omega
    rw [← hfirst] at hheld' hbelow'
    refine ⟨hvalid',hlt',first',hpointer',?_⟩
    intro k hk hk'
    rw [← hentry k hk hk']
    apply hothers _ rfl
    apply window_page_ne hw.range hfits (hk'.trans_le (hbelow'.trans h.done_le))
    intro hin
    have howner := h.handed.owner_eq
      (show s.handed start.space.freeVirtualAddressPointer (.inl pointer') = _ from hheld') ⟨hk,hk'⟩
      (show s.handed start.space.freeVirtualAddressPointer (.inl pointer) = _ from hheld) hin
    exact hne (Sum.inl.inj howner)
  · intro k hk hout
    by_cases hin : first ≤ k ∧ k < first + request.pages
    · have hpage : pageAt (pageAt start.space.freeVirtualAddressPointer first) (k - first) =
          pageAt start.space.freeVirtualAddressPointer k := by
        rw [pageAt_pageAt,Nat.add_sub_cancel' hin.1]
      rw [← hpage]
      exact hleaf (k - first) (by omega)
    · rw [hothers _ rfl (window_page_ne hw.range hfits hk hin)]
      apply h.empty k hk
      intro owner first' count hheld'
      by_cases heq : owner = .inl pointer
      · rw [heq] at hheld'
        obtain ⟨rfl,rfl⟩ := Prod.mk.inj (Option.some.inj (hheld.symm.trans hheld'))
        exact hin
      · apply hout owner
        rw [hhanded,Function.update_of_ne heq]
        exact hheld'
  · intro path hpath hout
    rw [← h.others path hpath hout]
    exact hothers path hpath (window_path_ne hfits hout)

theorem MappingInv.pages_of_region (h : MappingInv vmmData highestPhysicalAddress start size done s)
    {pointer regionSize : Nat} (hregion : s.regions pointer = some regionSize) :
    ∃ first count, pointer = pageAt start.space.freeVirtualAddressPointer first ∧
      regionSize = count * pageSize ∧ 0 < count ∧
      s.handed start.space.freeVirtualAddressPointer (.inr pointer) = some (first,count) ∧
      first + count ≤ done := by
  obtain ⟨first,count,hpointer,hsize,hpos⟩ := h.regions pointer regionSize hregion
  have hpages : s.handed start.space.freeVirtualAddressPointer (.inr pointer) =
      some (first,count) := by
    have hfirst : (pointer - start.space.freeVirtualAddressPointer) / pageSize = first := by
      rw [hpointer]
      simp [pageAt,pageSize]
    have hcount : regionSize / pageSize = count := by
      rw [hsize]
      exact Nat.mul_div_cancel count (by decide)
    rw [MappingState.handed,Sum.elim_inr,regionPages,hregion,Option.map_some,hfirst,hcount]
  exact ⟨first,count,hpointer,hsize,hpos,hpages,h.handed.below _ first count hpages⟩

theorem MappingInv.allocRegion (hw : MappingWindow start size)
    (h : MappingInv vmmData highestPhysicalAddress start size done s) {count : Nat}
    (hcount : 0 < count) (hfits : done + count ≤ size / pageSize) :
    MappingInv vmmData highestPhysicalAddress start size (done + count) { s with
      kernel := { s.kernel with space := (vmReservationSpaceDetermineNextFreeVirtualAddress
        s.kernel.space (count * pageSize)).2 }
      regions := Function.update s.regions (pageAt start.space.freeVirtualAddressPointer done)
        (some (count * pageSize)) } := by
  have hpages : regionPages (Function.update s.regions
      (pageAt start.space.freeVirtualAddressPointer done) (some (count * pageSize)))
      start.space.freeVirtualAddressPointer = Function.update
        (regionPages s.regions start.space.freeVirtualAddressPointer)
        (pageAt start.space.freeVirtualAddressPointer done) (some (done,count)) := by
    funext pointer
    by_cases heq : pointer = pageAt start.space.freeVirtualAddressPointer done
    · rw [heq,Function.update_self]
      simp [regionPages,pageAt,pageSize]
    · simp [regionPages,Function.update_of_ne heq]
  have hhanded : ∀ kernel, MappingState.handed { s with
      kernel
      regions := Function.update s.regions (pageAt start.space.freeVirtualAddressPointer done)
        (some (count * pageSize)) } start.space.freeVirtualAddressPointer = Function.update
        (s.handed start.space.freeVirtualAddressPointer)
        (.inr (pageAt start.space.freeVirtualAddressPointer done)) (some (done,count)) := by
    intro kernel
    rw [MappingState.handed,MappingState.handed,hpages,Sum.update_elim_inr]
  have hfresh : s.regions (pageAt start.space.freeVirtualAddressPointer done) = none := by
    rw [Option.eq_none_iff_forall_ne_some]
    intro regionSize hregion
    obtain ⟨first,count',hpointer,_,hpos,_,hbelow⟩ := h.pages_of_region hregion
    simp only [pageAt,pageSize] at hpointer
    omega
  refine ⟨h.walk,h.pool,h.enough,?_,hfits,?_,h.live,?_,?_,h.others⟩
  · have hwrap := hw.no_wrap
    simp only [vmReservationSpaceDetermineNextFreeVirtualAddress,h.pointer,ptrOffset,pageAt,
      pageSize,qwordModulus] at hwrap hfits ⊢
    rw [Nat.mod_eq_of_lt (by omega)]
    ring
  · rw [hhanded]
    exact h.handed.take _ _
  · intro pointer regionSize hregion
    change Function.update s.regions _ _ pointer = some regionSize at hregion
    by_cases heq : pointer = pageAt start.space.freeVirtualAddressPointer done
    · rw [heq,Function.update_self] at hregion
      exact ⟨done,count,heq,(Option.some.inj hregion).symm,hcount⟩
    · rw [Function.update_of_ne heq] at hregion
      exact h.regions pointer regionSize hregion
  · intro k hk hout
    apply h.empty k hk
    intro owner first count' hheld
    apply hout owner
    rw [hhanded,Function.update_of_ne _]
    · exact hheld
    · rintro rfl
      simp [MappingState.handed,regionPages,hfresh] at hheld

theorem MappingInv.changeRegion (hw : MappingWindow start size)
    (h : MappingInv vmmData highestPhysicalAddress start size done s) {region : Nat}
    {first count first' count' : Nat}
    (hheld : s.handed start.space.freeVirtualAddressPointer (.inr region) = some (first,count))
    (hfirst : first ≤ first') (hlast : first' + count' ≤ first + count) {kernel : KernelMemory}
    (hspace : kernel.space = s.kernel.space)
    (hwalk : WalkInv (rangePaths start.space.freeVirtualAddressPointer (size / pageSize))
      kernel.memory kernel.pagingData)
    (hpool : start.pagingData.SamePool kernel.pagingData)
    (henough : EnoughFrames kernel.memory kernel.pagingData start.space.freeVirtualAddressPointer
      size)
    (hothers : ∀ path, path.length = 4 → (∀ j, j < count' → path ≠ tableOffsets
        (pageAt (pageAt start.space.freeVirtualAddressPointer first') j)) →
      kernel.memory.leafAt start.pagingData.basePhysicalAddress path =
        s.kernel.memory.leafAt start.pagingData.basePhysicalAddress path) :
    MappingInv vmmData highestPhysicalAddress start size done { s with kernel } := by
  have hbelow := h.handed.below _ first count hheld
  have hdone := h.done_le
  have hfits : first' + count' ≤ size / pageSize := by omega
  refine ⟨hwalk,hpool,henough,?_,h.done_le,h.handed,?_,h.regions,?_,?_⟩
  · rw [hspace]
    exact h.pointer
  · intro pointer request hlive
    obtain ⟨hvalid,hlt,first₁,hpointer,hentry⟩ := h.live pointer request hlive
    obtain ⟨first₂,hpointer',hheld',hbelow'⟩ := h.pages_of_live hlive
    have heq : first₁ = first₂ := by
      rw [hpointer] at hpointer'
      simp only [pageAt,pageSize] at hpointer'
      omega
    rw [← heq] at hheld' hbelow'
    refine ⟨hvalid,hlt,first₁,hpointer,?_⟩
    intro k hk hk'
    rw [← hentry k hk hk']
    apply hothers _ rfl
    apply window_page_ne hw.range hfits (by omega)
    intro hin
    have howner := h.handed.owner_eq
      (show s.handed start.space.freeVirtualAddressPointer (.inl pointer) = _ from hheld') ⟨hk,hk'⟩
      hheld (by omega)
    cases howner
  · intro k hk hout
    have hnot := hout (.inr region) first count hheld
    rw [hothers _ rfl (window_page_ne hw.range hfits hk (by omega))]
    exact h.empty k hk hout
  · intro path hpath hout
    rw [← h.others path hpath hout]
    exact hothers path hpath (window_path_ne hfits hout)

theorem MappingInv.inRegion (h : MappingInv vmmData highestPhysicalAddress start size done s)
    (hw : MappingWindow start size) {region baseAddress part : Nat}
    (hin : s.InRegion region baseAddress part) : ∃ first count first' count',
      s.handed start.space.freeVirtualAddressPointer (.inr region) = some (first,count) ∧
      first ≤ first' ∧ first' + count' ≤ first + count ∧ 0 < count' ∧
      first' + count' ≤ size / pageSize ∧
      baseAddress = pageAt start.space.freeVirtualAddressPointer first' ∧
      part = count' * pageSize := by
  obtain ⟨hbase,hsize,hne,hle,regionSize,hregion,hend⟩ := hin
  obtain ⟨first,count,hpointer,hregionSize,_,hheld,hbelow⟩ := h.pages_of_region hregion
  have hstart : start.space.freeVirtualAddressPointer % 4096 = 0 := by
    simpa [isAddressAligned,pageSize] using hw.range.aligned
  have hdone := h.done_le
  simp only [isAddressAligned,beq_iff_eq,pageAt,pageSize] at *
  refine ⟨first,count,(baseAddress - start.space.freeVirtualAddressPointer) / 4096,part / 4096,
    hheld,?_,?_,?_,?_,?_,?_⟩ <;> omega

theorem MappingInv.mapRegionPages (hw : MappingWindow start size)
    (h : MappingInv vmmData highestPhysicalAddress start size done s)
    {region physicalAddress baseAddress part : Nat}
    (hphysical : isAddressAligned physicalAddress pageSize = true)
    (hin : s.InRegion region baseAddress part) (pageRights : PageRights)
    (invalidate uncacheable : Bool) :
    ∃ s', mappingStep vmmData highestPhysicalAddress s (.mapRegionPages region physicalAddress part
        baseAddress pageRights invalidate uncacheable) = some s' ∧
      MappingInv vmmData highestPhysicalAddress start size done s' := by
  obtain ⟨first,count,first',count',hheld,hfirst,hlast,hpos,hfits,hbase,hpart⟩ := h.inRegion hw hin
  obtain ⟨m,hmap,hwalk,hpool,henough,_,hothers⟩ := h.map_some hw hpos hfits hphysical pageRights
    invalidate uncacheable
  refine ⟨{ s with kernel := { s.kernel with memory := m.memory, pagingData := m.context } },?_,
    h.changeRegion hw hheld hfirst hlast rfl hwalk hpool henough hothers⟩
  rw [mappingStep,hbase,hpart,hmap]
  rfl

theorem MappingInv.unmapRegionPages (hw : MappingWindow start size)
    (h : MappingInv vmmData highestPhysicalAddress start size done s)
    {region baseAddress part : Nat} (hin : s.InRegion region baseAddress part)
    (releaseMemory : Bool) :
    ∃ s', mappingStep vmmData highestPhysicalAddress s (.unmapRegionPages region baseAddress part
        releaseMemory) = some s' ∧
      MappingInv vmmData highestPhysicalAddress start size done s' := by
  obtain ⟨first,count,first',count',hheld,hfirst,hlast,hpos,hfits,hbase,hpart⟩ := h.inRegion hw hin
  obtain ⟨m,hunmap,hwalk,henough,_,hothers⟩ := h.unmap_some hw hpos hfits releaseMemory
  refine ⟨{ s with kernel := { s.kernel with memory := m.memory } },?_,
    h.changeRegion hw hheld hfirst hlast rfl hwalk h.pool henough hothers⟩
  rw [mappingStep,hbase,hpart,hunmap]
  rfl

theorem MappingInv.init (hw : MappingWindow start size) :
    MappingInv vmmData highestPhysicalAddress start size 0
      ⟨start,fun _ => none,fun _ => none⟩ where
  walk := ⟨hw.tree,hw.small⟩
  pool := rfl
  enough := hw.enough
  pointer := by simp [pageAt]
  done_le := Nat.zero_le _
  handed := .init fun owner => by cases owner <;> rfl
  live pointer request hlive := by cases hlive
  regions pointer regionSize hregion := by cases hregion
  empty k hk _ := hw.empty k hk
  others path _ _ := rfl

/-- Every call that stays in the window returns. -/
theorem MappingInv.step (hw : MappingWindow start size)
    (h : MappingInv vmmData highestPhysicalAddress start size done s) {action : MappingAction}
    (hbelow : StaysBelow highestPhysicalAddress (start.space.freeVirtualAddressPointer + size) s
      action) :
    ∃ s' done', mappingStep vmmData highestPhysicalAddress s action = some s' ∧
      MappingInv vmmData highestPhysicalAddress start size done' s' := by
  have hpointer := h.pointer
  cases action with
  | mmuMapMemoryEx request =>
    obtain ⟨hvalid,hlt,hlast⟩ := hbelow
    have hfits : done + request.pages ≤ size / pageSize := by
      have hsize := hvalid.pages_eq.1
      simp only [pageAt,pageSize] at hpointer hsize ⊢
      omega
    obtain ⟨pointer,kernel,hne,hmap,hinv⟩ := h.map hw hvalid hlt hfits
    refine ⟨_,_,?_,hinv⟩
    rw [mappingStep,hmap]
    simp [hne]
  | mmuUnmapMemoryEx pointer =>
    obtain ⟨request,hlive⟩ := Option.isSome_iff_exists.mp hbelow
    obtain ⟨memory,hunmap,hinv⟩ := h.unmap hw hlive
    refine ⟨_,_,?_,hinv⟩
    simp [mappingStep,hlive,hunmap]
  | mapRegionPages region physicalAddress part baseAddress pageRights invalidate uncacheable =>
    obtain ⟨s',hstep,hinv⟩ := h.mapRegionPages hw hbelow.1 hbelow.2 pageRights invalidate uncacheable
    exact ⟨s',done,hstep,hinv⟩
  | unmapRegionPages region baseAddress part releaseMemory =>
    obtain ⟨s',hstep,hinv⟩ := h.unmapRegionPages hw hbelow releaseMemory
    exact ⟨s',done,hstep,hinv⟩
  | vmmAllocRegion taken =>
    obtain ⟨haligned,hne,hlast⟩ := hbelow
    have hcount : taken / pageSize * pageSize = taken := by
      simp only [isAddressAligned,beq_iff_eq,pageSize] at haligned ⊢
      omega
    have hfits : done + taken / pageSize ≤ size / pageSize := by
      simp only [pageAt,pageSize] at hpointer hcount ⊢
      omega
    have hpos : 0 < taken / pageSize := by
      simp only [pageSize] at hcount ⊢
      omega
    have hinv := h.allocRegion hw hpos hfits
    rw [hcount,← hpointer] at hinv
    exact ⟨_,_,rfl,hinv⟩

theorem reachable_mappings (hw : MappingWindow start size)
    (hs : (mappingSystem vmmData highestPhysicalAddress start).ReachableUnder
      (StaysBelow highestPhysicalAddress (start.space.freeVirtualAddressPointer + size)) s) :
    ∃ done, MappingInv vmmData highestPhysicalAddress start size done s := by
  apply hs.invariant
  · intro s hinit
    obtain rfl := hinit
    exact ⟨0,.init hw⟩
  · intro s action s' _ hinv hbelow hstep
    obtain ⟨done,hinv⟩ := hinv
    obtain ⟨s₁,done',hstep₁,hinv'⟩ := hinv.step hw hbelow
    rw [Option.some.inj (hstep.symm.trans hstep₁)]
    exact ⟨done',hinv'⟩

theorem MmuMapRequest.Valid.size_le (h : request.Valid highestPhysicalAddress) :
    request.size + addressOffset request.physicalAddress pageSize ≤ request.pages * pageSize := by
  have hword := h.size_word
  have hoffset : request.physicalAddress % 4096 < 4096 := Nat.mod_lt _ (by decide)
  rw [← h.pages_eq.1]
  simp only [MmuMapRequest.alignedSize,alignAddressUpper,alignAddressLower,addressOffset,pageSize,
    qwordModulus] at hword ⊢
  omega

theorem byte_page (hbase : base % pageSize = 0) (hvalid : request.Valid highestPhysicalAddress)
    (first : Nat) {i : Nat} (hi : i < request.size) :
    ∃ k, first ≤ k ∧ k < first + request.pages ∧
      alignAddressLower (pageAt base first + addressOffset request.physicalAddress pageSize + i)
        pageSize = pageAt base k ∧
      (k - first) * pageSize + addressOffset
        (pageAt base first + addressOffset request.physicalAddress pageSize + i) pageSize =
          addressOffset request.physicalAddress pageSize + i := by
  have hsize := hvalid.size_le
  refine ⟨first + (addressOffset request.physicalAddress pageSize + i) / pageSize,?_,?_,?_,?_⟩ <;>
    simp only [alignAddressLower,addressOffset,pageAt,pageSize] at * <;> omega

theorem MappingInv.byte (hw : MappingWindow start size)
    (h : MappingInv vmmData highestPhysicalAddress start size done s) {pointer : Nat}
    (hlive : s.live pointer = some request) {i : Nat} (hi : i < request.size) :
    mmuGetPhysicalAddressEx s.kernel.memory s.kernel.pagingData (pointer + i) =
        some (ptrOffset request.physicalAddress i) ∧
      ∃ entry, s.kernel.memory.leafAt start.pagingData.basePhysicalAddress
          (tableOffsets (alignAddressLower (pointer + i) pageSize)) = some (entry,0) ∧
        entry.writable = request.pageRights.write ∧
        entry.executable = request.pageRights.execute ∧
        entry.patIndex =
          if request.uncacheable then vmmData.uncacheableIndex else vmmData.writeBackIndex := by
  obtain ⟨hvalid,_,first,hpointer,hentry⟩ := h.live pointer request hlive
  obtain ⟨first',hpointer',_,hbelow⟩ := h.pages_of_live hlive
  have hfirst : first = first' := by
    rw [hpointer] at hpointer'
    simp only [pageAt,pageSize] at hpointer'
    omega
  rw [← hfirst] at hbelow
  have haligned : start.space.freeVirtualAddressPointer % pageSize = 0 := by
    simpa [isAddressAligned] using hw.range.aligned
  have hwrap := hw.no_wrap
  have hdone := h.done_le
  obtain ⟨k,hk,hk',hpage,hsum⟩ := byte_page haligned hvalid first hi
  rw [← hpointer] at hpage hsum
  have hleaf := hentry k hk hk'
  obtain ⟨hword,hzero,hpageAligned,_⟩ := pageAt_word hw.range (hk'.trans_le (hbelow.trans hdone))
  have htranslate : translate s.kernel.memory s.kernel.pagingData
      (pageAt start.space.freeVirtualAddressPointer k) = _ :=
    translate_eq h.walk.tree.wellFormed ⟨hzero,hpageAligned,hword⟩
  rw [h.base_eq.1,hleaf] at htranslate
  have hne : pointer + i ≠ 0 := by
    have hstart := hw.range.not_page_zero
    rw [hpointer]
    simp only [pageAt]
    omega
  constructor
  · have hdiff : ptrDiff (pageAt start.space.freeVirtualAddressPointer k)
        (pageAt start.space.freeVirtualAddressPointer first) = (k - first) * pageSize := by
      simp only [ptrDiff,pageAt,pageSize,qwordModulus] at hwrap hdone hbelow ⊢
      omega
    simp only [translate,leafAddress,requestedEntry,mapEntry,pteMap,hdiff] at htranslate
    have hbytes : ptrOffset (ptrOffset (alignAddressLower request.physicalAddress pageSize)
        ((k - first) * pageSize)) (addressOffset (pointer + i) pageSize) =
          ptrOffset request.physicalAddress i := by
      have hphysical : alignAddressLower request.physicalAddress pageSize +
          (addressOffset request.physicalAddress pageSize + i) = request.physicalAddress + i := by
        simp only [alignAddressLower,addressOffset,pageSize]
        omega
      rw [ptrOffset,ptrOffset,Nat.mod_add_mod,Nat.add_assoc,hsum,hphysical,ptrOffset]
    rw [mmuGetPhysicalAddressEx,if_neg hne,hpage,htranslate]
    exact congrArg some hbytes
  · rw [hpage]
    exact ⟨_,hleaf,rfl,rfl,rfl⟩

theorem MappingInv.apart (h : MappingInv vmmData highestPhysicalAddress start size done s)
    {pointer pointer' : Nat} {request' : MmuMapRequest} (hlive : s.live pointer = some request)
    (hlive' : s.live pointer' = some request') (hne : pointer ≠ pointer') :
    pointer + request.size ≤ pointer' ∨ pointer' + request'.size ≤ pointer := by
  obtain ⟨first,hpointer,hheld,_⟩ := h.pages_of_live hlive
  obtain ⟨first',hpointer',hheld',_⟩ := h.pages_of_live hlive'
  have hapart := h.handed.disjoint (.inl pointer) (.inl pointer') _ _ _ _ hheld hheld' (by simpa)
  have hsize := (h.live pointer request hlive).1.size_le
  have hsize' := (h.live pointer' request' hlive').1.size_le
  simp only [pageAt,pageSize] at hpointer hpointer' hsize hsize'
  omega

theorem MappingInv.apart_region (h : MappingInv vmmData highestPhysicalAddress start size done s)
    {pointer region regionSize : Nat} (hlive : s.live pointer = some request)
    (hregion : s.regions region = some regionSize) :
    pointer + request.size ≤ region ∨ region + regionSize ≤ pointer := by
  obtain ⟨first,hpointer,hheld,_⟩ := h.pages_of_live hlive
  obtain ⟨first',count,hpointer',hregionSize,_,hheld',_⟩ := h.pages_of_region hregion
  have hapart := h.handed.disjoint (.inl pointer) (.inr region) _ _ _ _ hheld hheld' (by simp)
  have hsize := (h.live pointer request hlive).1.size_le
  simp only [pageAt,pageSize] at hpointer hpointer' hsize hregionSize
  omega

theorem MappingInv.unmapped (hw : MappingWindow start size)
    (h : MappingInv vmmData highestPhysicalAddress start size done s) {k : Nat}
    (hk : k < size / pageSize) (hout : ∀ pointer request, s.live pointer = some request →
      ∀ i, i < request.alignedSize → alignAddressLower pointer pageSize + i ≠
        pageAt start.space.freeVirtualAddressPointer k)
    (hregions : ∀ region regionSize, s.regions region = some regionSize →
      ∀ i, i < regionSize → region + i ≠ pageAt start.space.freeVirtualAddressPointer k) :
    translate s.kernel.memory s.kernel.pagingData
      (pageAt start.space.freeVirtualAddressPointer k) = some 0 := by
  have hbase : start.space.freeVirtualAddressPointer % 4096 = 0 := by
    simpa [isAddressAligned,pageSize] using hw.range.aligned
  obtain ⟨hword,hzero,haligned,_⟩ := pageAt_word hw.range hk
  rw [translate_eq h.walk.tree.wellFormed ⟨hzero,haligned,hword⟩,h.base_eq.1,h.empty k hk]
  · rfl
  · intro owner first count hheld hin
    cases owner with
    | inl pointer =>
      obtain ⟨request,hlive,_⟩ := Option.map_eq_some_iff.mp hheld
      obtain ⟨first',hpointer,hheld',_⟩ := h.pages_of_live hlive
      obtain ⟨rfl,rfl⟩ := Prod.mk.inj (Option.some.inj (hheld.symm.trans hheld'))
      have hsize := (h.live pointer request hlive).1.pages_eq.1
      apply hout pointer request hlive ((k - first) * pageSize)
      · rw [hsize]
        simp only [pageSize]
        omega
      · rw [hpointer]
        simp only [alignAddressLower,pageAt,addressOffset,pageSize]
        omega
    | inr region =>
      obtain ⟨regionSize,hregion,_⟩ := Option.map_eq_some_iff.mp hheld
      obtain ⟨first',count',hpointer,hsize,_,hheld',_⟩ := h.pages_of_region hregion
      obtain ⟨rfl,rfl⟩ := Prod.mk.inj (Option.some.inj (hheld.symm.trans hheld'))
      apply hregions region regionSize hregion ((k - first) * pageSize)
      · rw [hsize]
        simp only [pageSize]
        omega
      · rw [hpointer]
        simp only [pageAt,pageSize]
        omega

theorem MappingInv.translate_outside (hw : MappingWindow start size)
    (h : MappingInv vmmData highestPhysicalAddress start size done s) {va : Nat}
    (hva : PageAddress va) (hout : OutsideRange start.space.freeVirtualAddressPointer size va) :
    translate s.kernel.memory s.kernel.pagingData va =
      translate start.memory start.pagingData va := by
  rw [translate_eq h.walk.tree.wellFormed hva,translate_eq hw.tree.wellFormed hva,h.base_eq.1,
    h.others _ rfl (tableOffsets_of_outside hw.range hva hout)]

/-- Whatever calls map and unmap kernel memory, in whatever order, and whatever is mapped and unmapped
in the regions of `VmmAllocRegionEx`: each mapping that has not been unmapped translates byte for
byte to what was asked for, with the rights and the caching asked for; no two of them meet, and none
meets a region; nothing else of the window is mapped, and no other translation has changed; and no
call that stays in the window halts. -/
theorem kernel_mappings (hw : MappingWindow start size)
    (hs : (mappingSystem vmmData highestPhysicalAddress start).ReachableUnder
      (StaysBelow highestPhysicalAddress (start.space.freeVirtualAddressPointer + size)) s) :
    (∀ pointer request, s.live pointer = some request → ∀ i, i < request.size →
      mmuGetPhysicalAddressEx s.kernel.memory s.kernel.pagingData (pointer + i) =
          some (ptrOffset request.physicalAddress i) ∧
        ∃ entry, s.kernel.memory.leafAt start.pagingData.basePhysicalAddress
            (tableOffsets (alignAddressLower (pointer + i) pageSize)) = some (entry,0) ∧
          entry.writable = request.pageRights.write ∧
          entry.executable = request.pageRights.execute ∧
          entry.patIndex =
            if request.uncacheable then vmmData.uncacheableIndex else vmmData.writeBackIndex) ∧
    (∀ pointer request pointer' request', s.live pointer = some request →
      s.live pointer' = some request' → pointer ≠ pointer' →
        pointer + request.size ≤ pointer' ∨ pointer' + request'.size ≤ pointer) ∧
    (∀ pointer request region regionSize, s.live pointer = some request →
      s.regions region = some regionSize →
        pointer + request.size ≤ region ∨ region + regionSize ≤ pointer) ∧
    (∀ k, k < size / pageSize →
      (∀ pointer request, s.live pointer = some request → ∀ i, i < request.alignedSize →
        alignAddressLower pointer pageSize + i ≠
          pageAt start.space.freeVirtualAddressPointer k) →
      (∀ region regionSize, s.regions region = some regionSize → ∀ i, i < regionSize →
        region + i ≠ pageAt start.space.freeVirtualAddressPointer k) →
      translate s.kernel.memory s.kernel.pagingData
        (pageAt start.space.freeVirtualAddressPointer k) = some 0) ∧
    (∀ va, PageAddress va → OutsideRange start.space.freeVirtualAddressPointer size va →
      translate s.kernel.memory s.kernel.pagingData va =
        translate start.memory start.pagingData va) ∧
    ∀ action, StaysBelow highestPhysicalAddress (start.space.freeVirtualAddressPointer + size) s
      action → (mappingStep vmmData highestPhysicalAddress s action).isSome = true := by
  obtain ⟨done,h⟩ := reachable_mappings hw hs
  refine ⟨?_,?_,?_,?_,?_,?_⟩
  · exact fun pointer request hlive i hi => h.byte hw hlive hi
  · exact fun pointer request pointer' request' hlive hlive' hne => h.apart hlive hlive' hne
  · exact fun pointer request region regionSize hlive hregion => h.apart_region hlive hregion
  · exact fun k hk hout hregions => h.unmapped hw hk hout hregions
  · exact fun va hva hout => h.translate_outside hw hva hout
  · intro action hbelow
    obtain ⟨s',_,hstep,_⟩ := h.step hw hbelow
    rw [hstep]
    rfl

end Window

instance (highestPhysicalAddress : Nat) (request : MmuMapRequest) :
    Decidable (request.Valid highestPhysicalAddress) :=
  decidable_of_iff (request.size ≠ 0 ∧ request.size + 2 * pageSize < qwordModulus ∧
      alignAddressLower request.physicalAddress pageSize <
        ptrDiff highestPhysicalAddress request.alignedSize)
    ⟨fun h => ⟨h.1,h.2.1,h.2.2⟩,fun h => ⟨h.size_pos,h.size_word,h.present⟩⟩

instance (s : MappingState) (region baseAddress size : Nat) :
    Decidable (s.InRegion region baseAddress size) :=
  inferInstanceAs (Decidable (_ ∧ _ ∧ _ ∧ _ ∧ ∃ regionSize ∈ s.regions region, _))

instance (highestPhysicalAddress last : Nat) (s : MappingState) :
    ∀ action, Decidable (StaysBelow highestPhysicalAddress last s action)
  | .mmuMapMemoryEx _ => inferInstanceAs (Decidable (_ ∧ _ ∧ _))
  | .mmuUnmapMemoryEx _ => inferInstanceAs (Decidable (_ = true))
  | .vmmAllocRegion _ => inferInstanceAs (Decidable (_ ∧ _ ∧ _))
  | .mapRegionPages _ _ _ _ _ _ _ => inferInstanceAs (Decidable (_ ∧ _))
  | .unmapRegionPages _ _ _ _ => inferInstanceAs (Decidable (MappingState.InRegion _ _ _ _))

/-- Bytes on three pages. -/
def threePages : MmuMapRequest := ⟨0x3000FFE,0x1004,pageRightsReadWrite,false,true⟩

theorem smallKernel_window : MappingWindow (smallKernel 8) 0x10000 where
  tree := smallKernel_tree (by decide) (by decide)
  range := ⟨by decide,by decide,by decide,by decide,by decide,by decide⟩
  no_wrap := by decide
  small := smallKernel_small _ _
  enough := by
    unfold EnoughFrames
    decide +kernel
  empty k _ := emptyTables_leafAt _ _

/-- The second of two mappings keeps its bytes when the first is unmapped, and can be unmapped. -/
theorem kernel_mappings_second : ∃ s : MappingState,
    (mappingSystem ⟨0,3⟩ 0x10000000 (smallKernel 8)).ReachableUnder
      (StaysBelow 0x10000000 (0xFFFF850000000000 + 0x10000)) s ∧
    mmuGetPhysicalAddressEx s.kernel.memory s.kernel.pagingData 0xFFFF850000003001 =
      some 0x3002001 ∧
    (mappingStep ⟨0,3⟩ 0x10000000 s (.mmuUnmapMemoryEx 0xFFFF850000001FFE)).isSome = true := by
  obtain ⟨s,hreach,hs⟩ := TransitionSystem.exists_reachable
    (mappingSystem ⟨0,3⟩ 0x10000000 (smallKernel 8))
    (StaysBelow 0x10000000 (0xFFFF850000000000 + 0x10000))
    ⟨smallKernel 8,fun _ => none,fun _ => none⟩ rfl
    [.mmuMapMemoryEx oneFrame,.mmuMapMemoryEx threePages,.vmmAllocRegion 0x2000,
      .mapRegionPages 0xFFFF850000004000 0x40000 0x1000 0xFFFF850000005000 pageRightsReadWrite true
        false,.mmuUnmapMemoryEx 0xFFFF850000000000]
    (fun s => (s.live 0xFFFF850000001FFE).any fun request =>
      request.physicalAddress == 0x3000FFE && request.size == 0x1004)
    (by decide +kernel) (by decide +kernel)
  obtain ⟨request,hlive,hrequest⟩ := (Option.any_eq_true _ _).mp hs
  simp only [Bool.and_eq_true,beq_iff_eq] at hrequest
  obtain ⟨hbytes,_,_,_,_,hreturns⟩ := kernel_mappings smallKernel_window hreach
  have hbyte := (hbytes _ request hlive 0x1003 (by rw [hrequest.2]; decide)).1
  rw [hrequest.1] at hbyte
  refine ⟨s,hreach,hbyte,hreturns _ ?_⟩
  change (s.live _).isSome = true
  rw [hlive]
  rfl

end Hal9000
