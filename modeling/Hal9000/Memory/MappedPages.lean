import Hal9000.Memory.KernelHalf
import Hal9000.Memory.PageFault
import Hal9000.Memory.PagingPool

/-!
# Pages among many

Ranges are mapped and unmapped one after the other, and the pool has a frame for every table that
all of them may need.
-/

namespace Hal9000

section MappedPages

variable {paths : Finset (List (Fin 512))} {memory : PhysicalMemory} {pagingData : PagingData}
  {baseAddress size : Nat}

theorem MapInv.range_small (h : MapInv paths memory pagingData)
    (hsub : rangePaths baseAddress (size / pageSize) ⊆ paths) :
    RangeHasNoLargePages memory pagingData baseAddress size :=
  fun path offset table hin => h.small path offset table (hsub hin)

theorem MapInv.map_range (vmmData : VmmData) (h : MapInv paths memory pagingData)
    (hpaths : ∀ path ∈ paths, path.length ≤ 3) (hrange : PageRange baseAddress size)
    (hsub : rangePaths baseAddress (size / pageSize) ⊆ paths) {physicalAddress : Nat}
    (hphysical : isAddressAligned physicalAddress pageSize = true) (rights : PageRights)
    (invalidate uncacheable : Bool) :
    ∃ s, vmmMapMemoryInternal vmmData memory pagingData physicalAddress size baseAddress rights
        invalidate uncacheable = some s ∧
      MapInv paths s.memory s.context ∧ pagingData.SamePool s.context ∧
      (∀ k, k < size / pageSize →
        s.memory.leafAt pagingData.basePhysicalAddress (tableOffsets (pageAt baseAddress k)) =
          mapLeaf invalidate (mapEntry vmmData
            ⟨physicalAddress,baseAddress,rights,invalidate,uncacheable⟩ pagingData.kernelSpace
            (pageAt baseAddress k))
            (memory.leafAt pagingData.basePhysicalAddress
              (tableOffsets (pageAt baseAddress k)))) ∧
      ∀ path, path.length = 4 →
        (∀ k, k < size / pageSize → path ≠ tableOffsets (pageAt baseAddress k)) →
        s.memory.leafAt pagingData.basePhysicalAddress path =
          memory.leafAt pagingData.basePhysicalAddress path := by
  have henough : EnoughFrames memory pagingData baseAddress size := by
    have hmissing := Finset.card_le_card (Finset.filter_subset_filter (fun path =>
      memory.tableAt pagingData.basePhysicalAddress path = none) hsub)
    have hall := h.enough
    simp only [EnoughFrames,missingTables] at hall ⊢
    omega
  obtain ⟨s,hmap,_,hpool,_,hleaf,hothers⟩ := vmmMapMemoryInternal_spec vmmData h.tree hrange
    (h.range_small hsub) henough hphysical rights invalidate uncacheable
  have hbalanced := vmmMapMemoryInternal_balanced (s := ⟨memory,pagingData⟩) hpaths hrange hsub
    h.toWalkInv hmap
  refine ⟨s,hmap,⟨hbalanced.walk,?_⟩,hpool,hleaf,hothers⟩
  have hbalance := hbalanced.balance
  have hall := h.enough
  have hframes : s.context.numberOfFrames = pagingData.numberOfFrames := by rw [hpool]
  simp only [WalkState.missing] at hbalance hall ⊢
  omega

theorem MapInv.unmap_range (h : MapInv paths memory pagingData)
    (hpaths : ∀ path ∈ paths, path.length ≤ 3) (hrange : PageRange baseAddress size)
    (hsub : rangePaths baseAddress (size / pageSize) ⊆ paths) (releaseMemory : Bool) :
    ∃ s, vmmUnmapMemoryEx memory ⟨pagingData.basePhysicalAddress⟩ baseAddress size releaseMemory =
        some s ∧
      MapInv paths s.memory pagingData ∧
      (∀ k, k < size / pageSize →
        s.memory.leafAt pagingData.basePhysicalAddress (tableOffsets (pageAt baseAddress k)) =
          none) ∧
      ∀ path, path.length = 4 →
        (∀ k, k < size / pageSize → path ≠ tableOffsets (pageAt baseAddress k)) →
        s.memory.leafAt pagingData.basePhysicalAddress path =
          memory.leafAt pagingData.basePhysicalAddress path := by
  obtain ⟨s,hunmap,_,_,hleaf,hothers⟩ := vmmUnmapMemoryEx_spec h.tree hrange
    (h.range_small hsub) h.tree.wellFormed.cr3_table releaseMemory
  obtain ⟨hwalk,htables⟩ := vmmUnmapMemoryEx_tables hpaths h.toWalkInv
    h.tree.wellFormed.cr3_table hunmap
  refine ⟨s,hunmap,⟨hwalk,?_⟩,hleaf,hothers⟩
  have hmissing : missingTables s.memory pagingData.basePhysicalAddress paths =
      missingTables memory pagingData.basePhysicalAddress paths := by
    apply Finset.filter_congr
    intro path hpath
    rw [htables path (hpaths path hpath)]
  rw [hmissing]
  exact h.enough

variable {virtualAddress : Nat}

theorem pageAt_zero (virtualAddress : Nat) : pageAt virtualAddress 0 = virtualAddress := by
  simp [pageAt]

theorem onePage (k : Nat) : k < pageSize / pageSize ↔ k = 0 := by
  simp [pageSize]

theorem MapInv.map_page (vmmData : VmmData) (h : MapInv paths memory pagingData)
    (hpaths : ∀ path ∈ paths, path.length ≤ 3) (hrange : PageRange virtualAddress pageSize)
    (hsub : rangePaths virtualAddress 1 ⊆ paths) {physicalAddress : Nat}
    (hphysical : isAddressAligned physicalAddress pageSize = true)
    (hword : physicalAddress < qwordModulus) (rights : PageRights) (uncacheable : Bool) :
    ∃ s, mmuMapMemoryInternal vmmData memory pagingData physicalAddress pageSize rights
        virtualAddress true uncacheable = some s ∧
      MapInv paths s.memory s.context ∧ pagingData.SamePool s.context ∧
      s.memory.leafAt pagingData.basePhysicalAddress (tableOffsets virtualAddress) =
        some (pteMap physicalAddress (mapFlags vmmData
          ⟨physicalAddress,virtualAddress,rights,true,uncacheable⟩ pagingData.kernelSpace),0) ∧
      ∀ path, path.length = 4 → path ≠ tableOffsets virtualAddress →
        s.memory.leafAt pagingData.basePhysicalAddress path =
          memory.leafAt pagingData.basePhysicalAddress path := by
  obtain ⟨s,hmap,hinv,hpool,hleaf,hothers⟩ := h.map_range vmmData hpaths hrange
    (by simpa [pageSize] using hsub) hphysical rights true uncacheable
  refine ⟨s,?_,hinv,hpool,?_,?_⟩
  · simp only [mmuMapMemoryInternal,bne_iff_ne.mpr hrange.nonempty,hrange.size_aligned,
      bne_iff_ne.mpr hrange.not_page_zero,hrange.aligned,assert_true,Option.bind_eq_bind,
      Option.bind_some]
    exact hmap
  · have hpage := hleaf 0 ((onePage 0).mpr rfl)
    rw [pageAt_zero] at hpage
    rw [hpage]
    simp [mapLeaf,mapEntry,ptrDiff,ptrOffset,Nat.mod_eq_of_lt hword]
  · intro path hpath hne
    apply hothers path hpath
    intro k hk
    rw [(onePage k).mp hk,pageAt_zero]
    exact hne

theorem MapInv.unmap_page {kernel : KernelMemory}
    (h : MapInv paths kernel.memory kernel.pagingData)
    (hpaths : ∀ path ∈ paths, path.length ≤ 3) (hrange : PageRange virtualAddress pageSize)
    (hsub : rangePaths virtualAddress 1 ⊆ paths) :
    ∃ memory, mmuUnmapSystemMemory kernel virtualAddress pageSize = some { kernel with memory } ∧
      MapInv paths memory kernel.pagingData ∧
      memory.leafAt kernel.pagingData.basePhysicalAddress (tableOffsets virtualAddress) = none ∧
      ∀ path, path.length = 4 → path ≠ tableOffsets virtualAddress →
        memory.leafAt kernel.pagingData.basePhysicalAddress path =
          kernel.memory.leafAt kernel.pagingData.basePhysicalAddress path := by
  obtain ⟨s,hunmap,hinv,hleaf,hothers⟩ := h.unmap_range hpaths hrange
    (by simpa [pageSize] using hsub) false
  have hlower : alignAddressLower virtualAddress pageSize = virtualAddress := by
    have haligned := hrange.aligned
    simp only [isAddressAligned,beq_iff_eq,alignAddressLower,pageSize] at haligned ⊢
    omega
  have hsize : alignAddressUpper ((pageSize + (virtualAddress - virtualAddress)) % qwordModulus)
      pageSize % 2 ^ 32 = pageSize := by
    rw [Nat.sub_self]
    decide
  refine ⟨s.memory,?_,hinv,?_,?_⟩
  · simp only [mmuUnmapSystemMemory,bne_iff_ne.mpr hrange.not_page_zero,hlower,hsize,
      bne_iff_ne.mpr hrange.nonempty,assert_true,Option.bind_eq_bind,Option.bind_some,hunmap]
    rfl
  · have hpage := hleaf 0 ((onePage 0).mpr rfl)
    rwa [pageAt_zero] at hpage
  · intro path hpath hne
    apply hothers path hpath
    intro k hk
    rw [(onePage k).mp hk,pageAt_zero]
    exact hne

end MappedPages

end Hal9000
