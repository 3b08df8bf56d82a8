import Hal9000.Memory.MappedPages

/-!
# The lower memory

What the application processors run on before they are in the kernel: the page with the code, the
page with their configuration and a stack for each, at the physical addresses that are their virtual
ones.
-/

namespace Hal9000

def lowMemoryConfigStart : Nat := 0x1000
def lowMemoryConfigSize : Nat := 0x1000
def lowMemoryCodeStart : Nat := 0x2000
def lowMemoryCodeSize : Nat := 0x1000
def lowMemoryStackStart : Nat := 0x3000
def lowMemoryStackSize : Nat := 0x1000
def predefinedSystemConfigSize : Nat := 0x1C
def predefinedApConfigEntrySize : Nat := 0x10
def segmentDescriptorSize : Nat := 8
def pageRightsAll : PageRights := ⟨true,true,true⟩

structure Pcpu where
  apicId : Nat
  bspProcessor : Bool
  stackTop : Nat
  deriving DecidableEq

structure ApConfigEntry where
  stackPhysicalAddress : Nat
  stackVirtualAddress : Nat
  deriving DecidableEq

/-- How much there is to copy. -/
structure TrampolineImage where
  initialCodeSize : Nat
  placeholderCodeSize : Nat
  lowGdtSize : Nat

/-- The mappings of the kernel, and the entries that have been written to the configuration. -/
structure LowerMemory where
  kernel : KernelMemory
  apConfig : Nat → Option ApConfigEntry

section Setup

variable (vmmData : VmmData) (highestPhysicalAddress virtualToPhysicalOffset : Nat)

/-- `MmuMapMemoryInternal` of one page in the tables of the kernel. -/
def mmuMapKernelPage (kernel : KernelMemory) (physicalAddress : Nat) (pageRights : PageRights)
    (virtualAddress : Nat) : Option KernelMemory := do
  let s ← mmuMapMemoryInternal vmmData kernel.memory kernel.pagingData physicalAddress pageSize
    pageRights virtualAddress true false
  return { kernel with memory := s.memory, pagingData := s.context }

def apStackPhysicalAddress (apicId : Nat) : Nat := lowMemoryStackStart + lowMemoryStackSize * apicId

/-- The page below the end of the stack. -/
def apStackPage (apicId : Nat) : Nat := apStackPhysicalAddress apicId - lowMemoryStackSize

/-- One round of the loop over the CPUs. An entry that leaves the mapped page faults. -/
def apTrampSetupCpu (m : LowerMemory) (cpu : Pcpu) : Option LowerMemory :=
  if cpu.bspProcessor then some m
  else do
    assert (decide (predefinedSystemConfigSize + predefinedApConfigEntrySize * (cpu.apicId + 1) ≤
      lowMemoryConfigSize))
    let kernel ← mmuMapKernelPage vmmData m.kernel (apStackPage cpu.apicId) pageRightsReadWrite
      (apStackPage cpu.apicId)
    return ⟨kernel,Function.update m.apConfig cpu.apicId
      (some ⟨apStackPhysicalAddress cpu.apicId,cpu.stackTop⟩)⟩

/-- `false` for `STATUS_MEMORY_CANNOT_BE_MAPPED`. -/
def apTrampSetupLowerMemory (image : TrampolineImage) (m : LowerMemory) (cpuList : List Pcpu) :
    Option (Bool × LowerMemory) := do
  let kernel ← mmuMapKernelPage vmmData m.kernel lowMemoryCodeStart pageRightsAll lowMemoryCodeStart
  let kernel ← mmuMapKernelPage vmmData kernel lowMemoryCodeStart pageRightsAll
    (pa2va virtualToPhysicalOffset lowMemoryCodeStart)
  assert (decide (image.initialCodeSize ≤ lowMemoryCodeSize))
  assert (decide (image.initialCodeSize + image.placeholderCodeSize ≤ lowMemoryCodeSize))
  let (config,kernel) ← mmuMapMemoryEx vmmData highestPhysicalAddress kernel
    ⟨lowMemoryConfigStart,lowMemoryConfigSize,pageRightsReadWrite,false,false⟩
  if config = 0 then return (false,{ m with kernel })
  assert (isAddressAligned image.lowGdtSize segmentDescriptorSize)
  assert (decide (image.lowGdtSize ≤ 2 ^ 16))
  assert (decide (image.initialCodeSize + image.placeholderCodeSize + image.lowGdtSize ≤
    lowMemoryCodeSize))
  -- the processor takes the tables from a 32-bit register
  assert (decide (kernel.pagingData.basePhysicalAddress ≤ maxDword))
  let m ← cpuList.foldlM (apTrampSetupCpu vmmData) { m with kernel }
  return (true,m)

def apTrampCleanupCpu (kernel : KernelMemory) (cpu : Pcpu) : Option KernelMemory :=
  if cpu.bspProcessor then some kernel
  else mmuUnmapSystemMemory kernel (apStackPage cpu.apicId) lowMemoryStackSize

/-- The page with the configuration stays mapped. -/
def apTrampCleanupLowerMemory (kernel : KernelMemory) (cpuList : List Pcpu) :
    Option KernelMemory := do
  let kernel ← mmuUnmapSystemMemory kernel lowMemoryCodeStart lowMemoryCodeSize
  let kernel ← mmuUnmapSystemMemory kernel (pa2va virtualToPhysicalOffset lowMemoryCodeStart)
    lowMemoryCodeSize
  cpuList.foldlM apTrampCleanupCpu kernel

end Setup

def KernelMemory.leaf (kernel : KernelMemory) (virtualAddress : Nat) : Option (PtEntry × Nat) :=
  kernel.memory.leafAt kernel.pagingData.basePhysicalAddress (tableOffsets virtualAddress)

/-- The APIC identifiers of the application processors. -/
def apicIds (cpuList : List Pcpu) : List Nat :=
  (cpuList.filter fun cpu => !cpu.bspProcessor).map Pcpu.apicId

/-- The pages that are mapped for the time of the start-up. -/
def lowerPages (virtualToPhysicalOffset : Nat) (aps : List Nat) : List Nat :=
  lowMemoryCodeStart :: pa2va virtualToPhysicalOffset lowMemoryCodeStart :: aps.map apStackPage

/-- Every table that the start-up may need is among `paths`, and the second mapping of the code is
in the half of the kernel. -/
structure LowerMemoryPlan (paths : Finset (List (Fin 512))) (virtualToPhysicalOffset : Nat)
    (aps : List Nat) : Prop where
  lengths : ∀ path ∈ paths, path.length ≤ 3
  nodup : aps.Nodup
  entries : ∀ apicId ∈ aps, apicId < 254
  tables : ∀ page ∈ lowerPages virtualToPhysicalOffset aps, rangePaths page 1 ⊆ paths
  range : PageRange (pa2va virtualToPhysicalOffset lowMemoryCodeStart) pageSize
  half : IsKernelIndex (tableOffset (pa2va virtualToPhysicalOffset lowMemoryCodeStart) 1)

/-- The page of the configuration does not meet the lower memory. -/
structure ConfigPage (paths : Finset (List (Fin 512))) (virtualToPhysicalOffset pointer : Nat) :
    Prop where
  range : PageRange pointer pageSize
  tables : rangePaths pointer 1 ⊆ paths
  half : IsKernelIndex (tableOffset pointer 1)
  apart : tableOffsets pointer ≠
    tableOffsets (pa2va virtualToPhysicalOffset lowMemoryCodeStart)

section Pages

variable {paths : Finset (List (Fin 512))} {virtualToPhysicalOffset : Nat} {aps : List Nat}

theorem apStackPage_eq (apicId : Nat) : apStackPage apicId = 0x2000 + 0x1000 * apicId := by
  simp only [apStackPage,apStackPhysicalAddress,lowMemoryStackStart,lowMemoryStackSize]
  omega

theorem apStackPage_zero : apStackPage 0 = lowMemoryCodeStart := rfl

theorem lowPage_range {apicId : Nat} (hlt : apicId < 254) :
    PageRange (apStackPage apicId) pageSize := by
  rw [apStackPage_eq]
  refine ⟨?_,by decide,by decide,?_,by omega,by decide⟩
  · simp only [isAddressAligned,beq_iff_eq,pageSize]
    omega
  · simp only [pageSize,qwordModulus]
    omega

theorem apStackPage_injective {apicId apicId' : Nat} (hlt : apicId < 254) (hlt' : apicId' < 254)
    (heq : tableOffsets (apStackPage apicId) = tableOffsets (apStackPage apicId')) :
    apicId = apicId' := by
  have hpages := pageNumber_of_tableOffsets heq
  rw [apStackPage_eq,apStackPage_eq] at hpages
  simp only [pageSize] at hpages
  omega

theorem half_ne {virtualAddress apicId : Nat} (hhalf : IsKernelIndex (tableOffset virtualAddress 1))
    (hlt : apicId < 254) : tableOffsets virtualAddress ≠ tableOffsets (apStackPage apicId) := by
  intro heq
  have hfirst := (List.cons.inj heq).1
  rw [hfirst,apStackPage_eq] at hhalf
  simp only [IsKernelIndex,tableOffset,pagingTablesLastLevel,Fin.ofNat] at hhalf
  omega

theorem half_ne_code {virtualAddress : Nat} (hhalf : IsKernelIndex (tableOffset virtualAddress 1)) :
    tableOffsets lowMemoryCodeStart ≠ tableOffsets virtualAddress := by
  rw [← apStackPage_zero]
  exact (half_ne hhalf (by decide : 0 < 254)).symm

theorem codePage_range : PageRange lowMemoryCodeStart pageSize := by
  rw [← apStackPage_zero]
  exact lowPage_range (by decide : 0 < 254)

end Pages

/-- What is left of the tables of the kernel when only the leaves of some pages change. -/
structure KernelChange (paths : Finset (List (Fin 512))) (pages : Set Nat)
    (kernel kernel' : KernelMemory) : Prop where
  inv : MapInv paths kernel'.memory kernel'.pagingData
  pool : kernel.pagingData.SamePool kernel'.pagingData
  others : ∀ virtualAddress, (∀ page ∈ pages, tableOffsets virtualAddress ≠ tableOffsets page) →
    kernel'.leaf virtualAddress = kernel.leaf virtualAddress

/-- The page leads to the frame, with the rights that are given. -/
def KernelMemory.MapsPage (kernel : KernelMemory) (virtualAddress physicalAddress : Nat)
    (rights : PageRights) : Prop :=
  ∃ entry, kernel.leaf virtualAddress = some (entry,0) ∧ entry.physicalAddress = physicalAddress ∧
    entry.writable = rights.write ∧ entry.executable = rights.execute

section Mapping

variable {paths : Finset (List (Fin 512))} {pages pages' : Set Nat}
  {kernel kernel₁ kernel' : KernelMemory} {vmmData : VmmData} {virtualAddress : Nat}

theorem KernelChange.refl (h : MapInv paths kernel.memory kernel.pagingData) :
    KernelChange paths ∅ kernel kernel := ⟨h,rfl,fun _ _ => rfl⟩

theorem KernelChange.trans (h : KernelChange paths pages kernel kernel₁)
    (h' : KernelChange paths pages' kernel₁ kernel') :
    KernelChange paths (pages ∪ pages') kernel kernel' where
  inv := h'.inv
  pool := by
    have hpool := h'.pool
    rw [h.pool] at hpool
    exact hpool
  others virtualAddress hout := by
    rw [h'.others virtualAddress fun page hpage => hout page (Or.inr hpage)]
    exact h.others virtualAddress fun page hpage => hout page (Or.inl hpage)

theorem KernelChange.mono (h : KernelChange paths pages kernel kernel') (hsub : pages ⊆ pages') :
    KernelChange paths pages' kernel kernel' :=
  { h with others := fun virtualAddress hout =>
      h.others virtualAddress fun page hpage => hout page (hsub hpage) }

theorem KernelChange.base_eq (h : KernelChange paths pages kernel kernel') :
    kernel'.pagingData.basePhysicalAddress = kernel.pagingData.basePhysicalAddress := by
  rw [h.pool]

theorem KernelChange.mapsPage (h : KernelChange paths pages kernel kernel')
    {physicalAddress : Nat} {rights : PageRights}
    (hmaps : kernel.MapsPage virtualAddress physicalAddress rights)
    (hout : ∀ page ∈ pages, tableOffsets virtualAddress ≠ tableOffsets page) :
    kernel'.MapsPage virtualAddress physicalAddress rights := by
  obtain ⟨entry,hleaf,hentry⟩ := hmaps
  exact ⟨entry,(h.others virtualAddress hout).trans hleaf,hentry⟩

theorem mmuMapKernelPage_spec (vmmData : VmmData)
    (h : MapInv paths kernel.memory kernel.pagingData)
    (hpaths : ∀ path ∈ paths, path.length ≤ 3) (hrange : PageRange virtualAddress pageSize)
    (hsub : rangePaths virtualAddress 1 ⊆ paths) {physicalAddress : Nat}
    (hphysical : PageRange physicalAddress pageSize) (rights : PageRights) :
    ∃ kernel', mmuMapKernelPage vmmData kernel physicalAddress rights virtualAddress =
        some kernel' ∧
      KernelChange paths {virtualAddress} kernel kernel' ∧ kernel'.space = kernel.space ∧
      kernel'.MapsPage virtualAddress physicalAddress rights := by
  have hword : physicalAddress < qwordModulus := by
    have hwrap := hphysical.no_wrap
    simp only [pageSize] at hwrap
    omega
  obtain ⟨s,hmap,hinv,hpool,hleaf,hothers⟩ := h.map_page vmmData hpaths hrange hsub
    hphysical.aligned hword rights false
  have hbase : s.context.basePhysicalAddress = kernel.pagingData.basePhysicalAddress := by
    rw [hpool]
  have hroot : KernelMemory.leaf { kernel with memory := s.memory, pagingData := s.context } =
      fun va => s.memory.leafAt kernel.pagingData.basePhysicalAddress (tableOffsets va) := by
    funext va
    rw [KernelMemory.leaf,hbase]
  refine ⟨{ kernel with memory := s.memory, pagingData := s.context },?_,⟨hinv,hpool,?_⟩,rfl,?_⟩
  · rw [mmuMapKernelPage,hmap]
    rfl
  · intro other hother
    rw [hroot]
    exact hothers _ rfl (hother virtualAddress rfl)
  · exact ⟨_,(congrFun hroot virtualAddress).trans hleaf,rfl,rfl,rfl⟩

theorem mmuUnmapPage_spec (h : MapInv paths kernel.memory kernel.pagingData)
    (hpaths : ∀ path ∈ paths, path.length ≤ 3) (hrange : PageRange virtualAddress pageSize)
    (hsub : rangePaths virtualAddress 1 ⊆ paths) :
    ∃ kernel', mmuUnmapSystemMemory kernel virtualAddress pageSize = some kernel' ∧
      KernelChange paths {virtualAddress} kernel kernel' ∧
      kernel'.leaf virtualAddress = none := by
  obtain ⟨memory,hunmap,hinv,hleaf,hothers⟩ := h.unmap_page hpaths hrange hsub
  refine ⟨_,hunmap,⟨hinv,rfl,?_⟩,hleaf⟩
  intro other hother
  exact hothers _ rfl (hother virtualAddress rfl)

theorem mmuMapConfig_spec (vmmData : VmmData) {highestPhysicalAddress virtualToPhysicalOffset : Nat}
    (h : MapInv paths kernel.memory kernel.pagingData)
    (hpaths : ∀ path ∈ paths, path.length ≤ 3)
    (hconfig : ConfigPage paths virtualToPhysicalOffset kernel.space.freeVirtualAddressPointer)
    (hhighest : 0x2000 < highestPhysicalAddress ∧ highestPhysicalAddress < qwordModulus) :
    ∃ pointer kernel', mmuMapMemoryEx vmmData highestPhysicalAddress kernel
        ⟨lowMemoryConfigStart,lowMemoryConfigSize,pageRightsReadWrite,false,false⟩ =
          some (pointer,kernel') ∧ pointer ≠ 0 ∧
      KernelChange paths {kernel.space.freeVirtualAddressPointer} kernel kernel' := by
  have hvalid : MmuMapRequest.Valid highestPhysicalAddress
      ⟨lowMemoryConfigStart,lowMemoryConfigSize,pageRightsReadWrite,false,false⟩ := by
    refine ⟨by decide,by decide,?_⟩
    change 0x1000 < (highestPhysicalAddress + qwordModulus - 0x1000) % qwordModulus
    simp only [qwordModulus] at hhighest ⊢
    omega
  have hrange := hconfig.range
  obtain ⟨s,hmap,hinv,hpool,_,hothers⟩ := h.map_range vmmData hpaths hrange
    (by simpa [pageSize] using hconfig.tables)
    (by decide : isAddressAligned lowMemoryConfigStart pageSize = true) pageRightsReadWrite false
    false
  have hcall : mmuMapMemoryEx vmmData highestPhysicalAddress kernel
      ⟨lowMemoryConfigStart,lowMemoryConfigSize,pageRightsReadWrite,false,false⟩ = _ :=
    mmuMapMemoryEx_eq hrange hvalid rfl
  have hmapped : vmmMapMemoryInternal vmmData kernel.memory kernel.pagingData
      (alignAddressLower lowMemoryConfigStart pageSize) (MmuMapRequest.alignedSize
        ⟨lowMemoryConfigStart,lowMemoryConfigSize,pageRightsReadWrite,false,false⟩)
      kernel.space.freeVirtualAddressPointer pageRightsReadWrite false false = some s := hmap
  rw [hmapped,Option.map_some] at hcall
  refine ⟨_,_,hcall,?_,hinv,hpool,?_⟩
  · exact hrange.not_page_zero
  · intro other hother
    have hbase : s.context.basePhysicalAddress = kernel.pagingData.basePhysicalAddress := by
      rw [hpool]
    change s.memory.leafAt s.context.basePhysicalAddress _ = _
    rw [hbase]
    apply hothers _ rfl
    intro k hk
    rw [(onePage k).mp hk,pageAt_zero]
    exact hother _ rfl

end Mapping

/-- What the trampolines run on. The stack of APIC identifier `0` is the page with the code. -/
structure LowerMemoryMapped (kernel : KernelMemory) (virtualToPhysicalOffset : Nat)
    (aps : List Nat) : Prop where
  code : kernel.MapsPage lowMemoryCodeStart lowMemoryCodeStart
    (if 0 ∈ aps then pageRightsReadWrite else pageRightsAll)
  high : kernel.MapsPage (pa2va virtualToPhysicalOffset lowMemoryCodeStart) lowMemoryCodeStart
    pageRightsAll
  stack : ∀ apicId ∈ aps,
    kernel.MapsPage (apStackPage apicId) (apStackPage apicId) pageRightsReadWrite

/-- The copied parts fit in the page of the code. -/
structure TrampolineImage.Fits (image : TrampolineImage) : Prop where
  table : isAddressAligned image.lowGdtSize segmentDescriptorSize = true
  page : image.initialCodeSize + image.placeholderCodeSize + image.lowGdtSize ≤ lowMemoryCodeSize

section Cpus

variable {paths : Finset (List (Fin 512))} {vmmData : VmmData} {virtualToPhysicalOffset : Nat}
  {cpuList : List Pcpu} {kernel kernel' : KernelMemory} {m : LowerMemory}

/-- The pages of the stacks of some CPUs. -/
def stackPages (aps : List Nat) : Set Nat := {page | page ∈ aps.map apStackPage}

theorem stackPages_cons (apicId : Nat) (aps : List Nat) :
    {apStackPage apicId} ∪ stackPages aps ⊆ stackPages (apicId :: aps) := by
  intro page hpage
  simpa only [stackPages,List.map_cons,List.mem_cons,Set.mem_union,Set.mem_singleton_iff,
    Set.mem_ofPred_eq] using hpage

theorem stackPages_out {aps : List Nat} (hentries : ∀ apicId ∈ aps, apicId < 254) {apicId : Nat}
    (hlt : apicId < 254) (hnot : apicId ∉ aps) :
    ∀ page ∈ stackPages aps, tableOffsets (apStackPage apicId) ≠ tableOffsets page := by
  intro page hpage heq
  obtain ⟨apicId',hmem,hpage⟩ := List.mem_map.mp hpage
  rw [← hpage] at heq
  rw [apStackPage_injective hlt (hentries apicId' hmem) heq] at hnot
  exact hnot hmem

theorem stackPages_out_code {aps : List Nat} (hentries : ∀ apicId ∈ aps, apicId < 254)
    (hzero : 0 ∉ aps) :
    ∀ page ∈ stackPages aps, tableOffsets lowMemoryCodeStart ≠ tableOffsets page := by
  rw [← apStackPage_zero]
  exact stackPages_out hentries (by decide : 0 < 254) hzero

theorem apicIds_cons_bsp {cpu : Pcpu} (hbsp : cpu.bspProcessor = true) :
    apicIds (cpu :: cpuList) = apicIds cpuList := by
  simp [apicIds,hbsp]

theorem apicIds_cons_ap {cpu : Pcpu} (hap : cpu.bspProcessor = false) :
    apicIds (cpu :: cpuList) = cpu.apicId :: apicIds cpuList := by
  simp [apicIds,hap]

theorem apTrampSetupCpus_spec (vmmData : VmmData) (hpaths : ∀ path ∈ paths, path.length ≤ 3)
    (hnodup : (apicIds cpuList).Nodup) (hentries : ∀ apicId ∈ apicIds cpuList, apicId < 254)
    (htables : ∀ apicId ∈ apicIds cpuList, rangePaths (apStackPage apicId) 1 ⊆ paths)
    (h : MapInv paths m.kernel.memory m.kernel.pagingData) :
    ∃ m', cpuList.foldlM (apTrampSetupCpu vmmData) m = some m' ∧
      KernelChange paths (stackPages (apicIds cpuList)) m.kernel m'.kernel ∧
      (∀ apicId ∈ apicIds cpuList,
        m'.kernel.MapsPage (apStackPage apicId) (apStackPage apicId) pageRightsReadWrite) ∧
      (∀ cpu ∈ cpuList, cpu.bspProcessor = false →
        m'.apConfig cpu.apicId = some ⟨apStackPhysicalAddress cpu.apicId,cpu.stackTop⟩) ∧
      ∀ apicId ∉ apicIds cpuList, m'.apConfig apicId = m.apConfig apicId := by
  induction cpuList generalizing m with
  | nil =>
    refine ⟨m,rfl,(KernelChange.refl h).mono (Set.empty_subset _),?_,?_,fun _ _ => rfl⟩
    · intro apicId hmem
      cases hmem
    · intro cpu hmem
      cases hmem
  | cons cpu cpuList ih =>
    cases hbsp : cpu.bspProcessor with
    | true =>
      rw [apicIds_cons_bsp hbsp] at hnodup hentries htables ⊢
      obtain ⟨m',hrun,hchange,hstack,hconfig,hothers⟩ := ih hnodup hentries htables h
      refine ⟨m',?_,hchange,hstack,?_,hothers⟩
      · rw [List.foldlM_cons,apTrampSetupCpu,if_pos hbsp]
        exact hrun
      · intro cpu' hmem hap
        cases hmem with
        | head =>
          rw [hbsp] at hap
          cases hap
        | tail _ hmem => exact hconfig cpu' hmem hap
    | false =>
      rw [apicIds_cons_ap hbsp] at hnodup hentries htables ⊢
      have hlt := hentries cpu.apicId List.mem_cons_self
      have hnot := (List.nodup_cons.mp hnodup).1
      have hrest := fun apicId hmem => hentries apicId (List.mem_cons_of_mem cpu.apicId hmem)
      have hrange := lowPage_range hlt
      obtain ⟨kernel,hmap,hfirst,_,hpage⟩ := mmuMapKernelPage_spec vmmData h hpaths hrange
        (htables cpu.apicId List.mem_cons_self) hrange pageRightsReadWrite
      obtain ⟨m',hrun,hchange,hstack,hconfig,hothers⟩ :=
        ih (m := ⟨kernel,Function.update m.apConfig cpu.apicId
            (some ⟨apStackPhysicalAddress cpu.apicId,cpu.stackTop⟩)⟩)
          (List.nodup_cons.mp hnodup).2 hrest
          (fun apicId hmem => htables apicId (List.mem_cons_of_mem _ hmem)) hfirst.inv
      refine ⟨m',?_,(hfirst.trans hchange).mono (stackPages_cons _ _),?_,?_,?_⟩
      · have hentry : decide (predefinedSystemConfigSize + predefinedApConfigEntrySize *
            (cpu.apicId + 1) ≤ lowMemoryConfigSize) = true := by
          apply decide_eq_true
          simp only [predefinedSystemConfigSize,predefinedApConfigEntrySize,lowMemoryConfigSize]
          omega
        rw [List.foldlM_cons,apTrampSetupCpu,if_neg (by simp [hbsp]),hentry,assert_true,hmap]
        exact hrun
      · intro apicId hmem
        cases hmem with
        | head => exact hchange.mapsPage hpage (stackPages_out hrest hlt hnot)
        | tail _ hmem => exact hstack apicId hmem
      · intro cpu' hmem hap
        cases hmem with
        | head =>
          rw [hothers cpu.apicId hnot]
          simp
        | tail _ hmem => exact hconfig cpu' hmem hap
      · intro apicId hmem
        rw [hothers apicId fun hin => hmem (List.mem_cons_of_mem _ hin)]
        apply Function.update_of_ne
        intro heq
        rw [heq] at hmem
        exact hmem List.mem_cons_self

theorem apTrampCleanupCpus_spec (hpaths : ∀ path ∈ paths, path.length ≤ 3)
    (hentries : ∀ apicId ∈ apicIds cpuList, apicId < 254)
    (htables : ∀ apicId ∈ apicIds cpuList, rangePaths (apStackPage apicId) 1 ⊆ paths)
    (h : MapInv paths kernel.memory kernel.pagingData) :
    ∃ kernel', cpuList.foldlM apTrampCleanupCpu kernel = some kernel' ∧
      KernelChange paths (stackPages (apicIds cpuList)) kernel kernel' ∧
      ∀ apicId ∈ apicIds cpuList, kernel'.leaf (apStackPage apicId) = none := by
  induction cpuList generalizing kernel with
  | nil =>
    refine ⟨kernel,rfl,(KernelChange.refl h).mono (Set.empty_subset _),?_⟩
    intro apicId hmem
    cases hmem
  | cons cpu cpuList ih =>
    cases hbsp : cpu.bspProcessor with
    | true =>
      rw [apicIds_cons_bsp hbsp] at hentries htables ⊢
      obtain ⟨kernel',hrun,hchange,hstack⟩ := ih hentries htables h
      refine ⟨kernel',?_,hchange,hstack⟩
      rw [List.foldlM_cons,apTrampCleanupCpu,if_pos hbsp]
      exact hrun
    | false =>
      rw [apicIds_cons_ap hbsp] at hentries htables ⊢
      have hlt := hentries cpu.apicId List.mem_cons_self
      have hrest := fun apicId hmem => hentries apicId (List.mem_cons_of_mem cpu.apicId hmem)
      obtain ⟨kernel₁,hunmap,hfirst,hpage⟩ := mmuUnmapPage_spec h hpaths (lowPage_range hlt)
        (htables cpu.apicId List.mem_cons_self)
      obtain ⟨kernel',hrun,hchange,hstack⟩ := ih hrest
        (fun apicId hmem => htables apicId (List.mem_cons_of_mem _ hmem)) hfirst.inv
      refine ⟨kernel',?_,(hfirst.trans hchange).mono (stackPages_cons _ _),?_⟩
      · have hcall : mmuUnmapSystemMemory kernel (apStackPage cpu.apicId) lowMemoryStackSize =
            some kernel₁ := hunmap
        rw [List.foldlM_cons,apTrampCleanupCpu,if_neg (by simp [hbsp]),hcall]
        exact hrun
      · intro apicId hmem
        by_cases hin : apicId ∈ apicIds cpuList
        · exact hstack apicId hin
        · obtain rfl := (List.mem_cons.mp hmem).resolve_right hin
          rw [hchange.others _ (stackPages_out hrest hlt hin)]
          exact hpage

variable {highestPhysicalAddress : Nat} {image : TrampolineImage}

/-- The pages that the set-up maps. -/
def setupPages (virtualToPhysicalOffset pointer : Nat) (aps : List Nat) : Set Nat :=
  {page | page ∈ pointer :: lowerPages virtualToPhysicalOffset aps}

theorem LowerMemoryPlan.high_out {aps : List Nat}
    (plan : LowerMemoryPlan paths virtualToPhysicalOffset aps) :
    ∀ page ∈ stackPages aps,
      tableOffsets (pa2va virtualToPhysicalOffset lowMemoryCodeStart) ≠ tableOffsets page := by
  intro page hpage
  obtain ⟨apicId,hmem,hpage⟩ := List.mem_map.mp hpage
  rw [← hpage]
  exact half_ne plan.half (plan.entries apicId hmem)

theorem apTrampSetupLowerMemory_spec (vmmData : VmmData)
    (plan : LowerMemoryPlan paths virtualToPhysicalOffset (apicIds cpuList))
    (hconfig : ConfigPage paths virtualToPhysicalOffset m.kernel.space.freeVirtualAddressPointer)
    (hhighest : 0x2000 < highestPhysicalAddress ∧ highestPhysicalAddress < qwordModulus)
    (himage : image.Fits) (hbase : m.kernel.pagingData.basePhysicalAddress ≤ maxDword)
    (h : MapInv paths m.kernel.memory m.kernel.pagingData) :
    ∃ m', apTrampSetupLowerMemory vmmData highestPhysicalAddress virtualToPhysicalOffset image m
        cpuList = some (true,m') ∧
      KernelChange paths (setupPages virtualToPhysicalOffset
        m.kernel.space.freeVirtualAddressPointer (apicIds cpuList)) m.kernel m'.kernel ∧
      LowerMemoryMapped m'.kernel virtualToPhysicalOffset (apicIds cpuList) ∧
      ∀ cpu ∈ cpuList, cpu.bspProcessor = false →
        m'.apConfig cpu.apicId = some ⟨apStackPhysicalAddress cpu.apicId,cpu.stackTop⟩ := by
  obtain ⟨kernel₁,hmap₁,hchange₁,hspace₁,hcode⟩ := mmuMapKernelPage_spec vmmData h plan.lengths
    codePage_range (plan.tables _ List.mem_cons_self) codePage_range pageRightsAll
  obtain ⟨kernel₂,hmap₂,hchange₂,hspace₂,hhigh⟩ := mmuMapKernelPage_spec vmmData hchange₁.inv
    plan.lengths plan.range (plan.tables _ (List.mem_cons_of_mem _ List.mem_cons_self))
    codePage_range pageRightsAll
  rw [← hspace₁,← hspace₂] at hconfig
  obtain ⟨pointer,kernel₃,hmap₃,hpointer,hchange₃⟩ := mmuMapConfig_spec vmmData hchange₂.inv
    plan.lengths hconfig hhighest
  rw [hspace₂,hspace₁] at hchange₃ hconfig
  obtain ⟨m',hrun,hchange₄,hstack,hentry,_⟩ := apTrampSetupCpus_spec (m := ⟨kernel₃,m.apConfig⟩)
    vmmData plan.lengths plan.nodup plan.entries
    (fun apicId hmem => plan.tables _ (List.mem_cons_of_mem _ (List.mem_cons_of_mem _
      (List.mem_map_of_mem hmem)))) hchange₃.inv
  have hlowHigh : ∀ page ∈ ({pa2va virtualToPhysicalOffset lowMemoryCodeStart} : Set Nat),
      tableOffsets lowMemoryCodeStart ≠ tableOffsets page := by
    intro page hpage
    rw [hpage]
    exact half_ne_code plan.half
  have hlowConfig : ∀ page ∈ ({m.kernel.space.freeVirtualAddressPointer} : Set Nat),
      tableOffsets lowMemoryCodeStart ≠ tableOffsets page := by
    intro page hpage
    rw [hpage]
    exact half_ne_code hconfig.half
  have hhighConfig : ∀ page ∈ ({m.kernel.space.freeVirtualAddressPointer} : Set Nat),
      tableOffsets (pa2va virtualToPhysicalOffset lowMemoryCodeStart) ≠ tableOffsets page := by
    intro page hpage
    rw [hpage]
    exact hconfig.apart.symm
  refine ⟨m',?_,?_,⟨?_,?_,hstack⟩,hentry⟩
  · have hsizes := himage.page
    have hbase₃ : kernel₃.pagingData.basePhysicalAddress ≤ maxDword := by
      rw [hchange₃.base_eq,hchange₂.base_eq,hchange₁.base_eq]
      exact hbase
    have hcode : decide (image.initialCodeSize ≤ lowMemoryCodeSize) = true := by
      apply decide_eq_true
      omega
    have hplaceholder : decide (image.initialCodeSize + image.placeholderCodeSize ≤
        lowMemoryCodeSize) = true := by
      apply decide_eq_true
      omega
    have hlimit : decide (image.lowGdtSize ≤ 2 ^ 16) = true := by
      apply decide_eq_true
      simp only [lowMemoryCodeSize] at hsizes
      omega
    rw [apTrampSetupLowerMemory,hmap₁,Option.bind_eq_bind,Option.bind_some,hmap₂,
      Option.bind_eq_bind,Option.bind_some,hcode,assert_true,Option.bind_some,hplaceholder,
      assert_true,Option.bind_some,hmap₃,Option.bind_eq_bind,Option.bind_some]
    dsimp only
    rw [if_neg hpointer,himage.table,assert_true,Option.bind_some,hlimit,assert_true,
      Option.bind_some,decide_eq_true himage.page,assert_true,Option.bind_some,
      decide_eq_true hbase₃,assert_true,Option.bind_some,hrun]
    rfl
  · apply (((hchange₁.trans hchange₂).trans hchange₃).trans hchange₄).mono
    intro page hpage
    simp only [Set.mem_union,Set.mem_singleton_iff] at hpage
    change page ∈ _ :: _ :: _ :: _
    simp only [List.mem_cons]
    rcases hpage with ((hpage | hpage) | hpage) | hpage
    · exact Or.inr (Or.inl hpage)
    · exact Or.inr (Or.inr (Or.inl hpage))
    · exact Or.inl hpage
    · exact Or.inr (Or.inr (Or.inr hpage))
  · by_cases hzero : 0 ∈ apicIds cpuList
    · rw [if_pos hzero,← apStackPage_zero]
      exact hstack 0 hzero
    · rw [if_neg hzero]
      apply hchange₄.mapsPage _ (stackPages_out_code plan.entries hzero)
      apply hchange₃.mapsPage _ hlowConfig
      exact hchange₂.mapsPage hcode hlowHigh
  · apply hchange₄.mapsPage _ plan.high_out
    exact hchange₃.mapsPage hhigh hhighConfig

theorem apTrampCleanupLowerMemory_spec
    (plan : LowerMemoryPlan paths virtualToPhysicalOffset (apicIds cpuList))
    (h : MapInv paths kernel.memory kernel.pagingData) :
    ∃ kernel', apTrampCleanupLowerMemory virtualToPhysicalOffset kernel cpuList = some kernel' ∧
      KernelChange paths {page | page ∈ lowerPages virtualToPhysicalOffset (apicIds cpuList)} kernel
        kernel' ∧
      ∀ page ∈ lowerPages virtualToPhysicalOffset (apicIds cpuList), kernel'.leaf page = none := by
  obtain ⟨kernel₁,hunmap₁,hchange₁,hcode⟩ := mmuUnmapPage_spec h plan.lengths codePage_range
    (plan.tables _ List.mem_cons_self)
  obtain ⟨kernel₂,hunmap₂,hchange₂,hhigh⟩ := mmuUnmapPage_spec hchange₁.inv plan.lengths plan.range
    (plan.tables _ (List.mem_cons_of_mem _ List.mem_cons_self))
  obtain ⟨kernel',hrun,hchange₃,hstack⟩ := apTrampCleanupCpus_spec plan.lengths plan.entries
    (fun apicId hmem => plan.tables _ (List.mem_cons_of_mem _ (List.mem_cons_of_mem _
      (List.mem_map_of_mem hmem)))) hchange₂.inv
  refine ⟨kernel',?_,?_,?_⟩
  · have hcall₁ : mmuUnmapSystemMemory kernel lowMemoryCodeStart lowMemoryCodeSize =
        some kernel₁ := hunmap₁
    have hcall₂ : mmuUnmapSystemMemory kernel₁
        (pa2va virtualToPhysicalOffset lowMemoryCodeStart) lowMemoryCodeSize =
          some kernel₂ := hunmap₂
    simp only [apTrampCleanupLowerMemory,hcall₁,hcall₂,Option.bind_eq_bind,Option.bind_some,hrun]
  · apply ((hchange₁.trans hchange₂).trans hchange₃).mono
    intro page hpage
    simp only [Set.mem_union,Set.mem_singleton_iff] at hpage
    change page ∈ _ :: _ :: _
    simp only [List.mem_cons]
    rcases hpage with (hpage | hpage) | hpage
    · exact Or.inl hpage
    · exact Or.inr (Or.inl hpage)
    · exact Or.inr (Or.inr hpage)
  · intro page hpage
    simp only [lowerPages,List.mem_cons,List.mem_map] at hpage
    rcases hpage with hpage | hpage | ⟨apicId,hmem,hpage⟩
    · rw [hpage]
      by_cases hzero : 0 ∈ apicIds cpuList
      · rw [← apStackPage_zero]
        exact hstack 0 hzero
      · rw [hchange₃.others _ (stackPages_out_code plan.entries hzero),hchange₂.others _ _]
        · exact hcode
        · intro page hpage
          rw [hpage]
          exact half_ne_code plan.half
    · rw [hpage,hchange₃.others _ plan.high_out]
      exact hhigh
    · rw [← hpage]
      exact hstack apicId hmem

end Cpus

end Hal9000
