import Hal9000.Memory.ConcurrentRegions
import Hal9000.Memory.RegionBacking

/-!
# The translation of the page tables

On pages with entries of their own, `mapPages` and `unmapPages` of the concurrent regions are what
the walks of `MmuMapMemoryInternal` and `MmuUnmapMemoryEx` do to the tables.
-/

namespace Hal9000

/-- The translation is that of the tables, on pages no two of which share an entry. -/
structure Translates (pages : Set Nat) (memory : PhysicalMemory) (root : Nat)
    (translation : Nat → Option Nat) : Prop where
  injective : Set.InjOn tableOffsets pages
  agrees : ∀ page ∈ pages, translation page = mappedTo memory root page

/-- The page tables ignore the upper 16 bits of an address. -/
theorem tableOffsets_injOn (base : Nat) : Set.InjOn tableOffsets
    {page | base ≤ page ∧ page < base + 2 ^ 48 ∧ page % pageSize = 0} := by
  intro page hpage page' hpage' heq
  have hnumbers := pageNumber_of_tableOffsets heq
  obtain ⟨hle,hlt,haligned⟩ := hpage
  obtain ⟨hle',hlt',haligned'⟩ := hpage'
  simp only [pageSize] at *
  omega

theorem translates_mappedTo (base : Nat) (memory : PhysicalMemory) (root : Nat) :
    Translates {page | base ≤ page ∧ page < base + 2 ^ 48 ∧ page % pageSize = 0} memory root
      (mappedTo memory root) :=
  ⟨tableOffsets_injOn base,fun _ _ => rfl⟩

section Walks

variable {pages : Set Nat} {paths : Finset (List (Fin 512))} {translation : Nat → Option Nat}
  {virtualAddress size : Nat}

theorem mem_walkedPages_iff (haligned : size % pageSize = 0) {page : Nat} :
    page ∈ walkedPages virtualAddress size ↔
      ∃ k < size / pageSize, walkAddress virtualAddress k = page := by
  have hcount : (size + (pageSize - 1)) / pageSize = size / pageSize := by
    simp only [pageSize] at *
    omega
  rw [mem_walkedPages,hcount]
  exact Iff.rfl

theorem walkAddress_mem (haligned : size % pageSize = 0) {k : Nat} (hk : k < size / pageSize) :
    walkAddress virtualAddress k ∈ walkedPages virtualAddress size :=
  (mem_walkedPages_iff haligned).mpr ⟨k,hk,rfl⟩

/-- A walk that changes the entries of its pages changes the translation of no other page. -/
theorem Translates.of_walk {memory memory' : PhysicalMemory} {root : Nat}
    {translation' : Nat → Option Nat} (h : Translates pages memory root translation)
    (hsize : size % pageSize = 0) (hwalked : ∀ page ∈ walkedPages virtualAddress size, page ∈ pages)
    (hin : ∀ k < size / pageSize, translation' (walkAddress virtualAddress k) =
      mappedTo memory' root (walkAddress virtualAddress k))
    (hout : ∀ page ∉ walkedPages virtualAddress size, translation' page = translation page)
    (hothers : ∀ path, path.length = 4 →
      (∀ k < size / pageSize, path ≠ tableOffsets (walkAddress virtualAddress k)) →
      memory'.leafAt root path = memory.leafAt root path) :
    Translates pages memory' root translation' := by
  refine ⟨h.injective,fun page hpage => ?_⟩
  by_cases hmem : page ∈ walkedPages virtualAddress size
  · obtain ⟨k,hk,rfl⟩ := (mem_walkedPages_iff hsize).mp hmem
    exact hin k hk
  · rw [hout page hmem,h.agrees page hpage,mappedTo,mappedTo,hothers _ rfl]
    intro k hk heq
    have hwalk : walkAddress virtualAddress k ∈ walkedPages virtualAddress size :=
      walkAddress_mem hsize hk
    apply hmem
    rw [h.injective hpage (hwalked _ hwalk) heq]
    exact hwalk

theorem mapPages_refines {vmmData : VmmData} {s s' : WalkState PagingData} {physicalAddress : Nat}
    {rights : PageRights} {invalidate uncacheable : Bool} (hpaths : ∀ path ∈ paths, path.length ≤ 3)
    (hva : virtualAddress < qwordModulus) (hlarge : size ≤ 2 ^ 48)
    (hsub : rangePaths virtualAddress (size / pageSize) ⊆ paths)
    (hwalk : WalkInv paths s.memory s.context)
    (h : Translates pages s.memory s.context.basePhysicalAddress translation)
    (hwalked : ∀ page ∈ walkedPages virtualAddress size, page ∈ pages)
    (hmap : mmuMapMemoryInternal vmmData s.memory s.context physicalAddress size rights
      virtualAddress invalidate uncacheable = some s') :
    ∃ translation', mapPages translation physicalAddress size virtualAddress invalidate =
        some translation' ∧
      Translates pages s'.memory s'.context.basePhysicalAddress translation' := by
  obtain ⟨hrange,hphysical⟩ := mmuMapMemoryInternal_range hva hlarge hmap
  have hput := mmuMapMemoryInternal_put hpaths hva hlarge hsub hwalk hmap
  have hwhole : size % pageSize = 0 := beq_iff_eq.mp hrange.size_aligned
  have hword (k : Nat) (hk : k < size / pageSize) :
      walkAddress virtualAddress k = virtualAddress + k * pageSize := by
    have hend := hrange.no_wrap
    have hlt : k * pageSize < size := by
      simp only [pageSize] at *
      omega
    have hpositive := hrange.nonempty
    rw [walkAddress,ptrOffset,Nat.mod_eq_of_lt (by omega)]
  have hnull : 0 ∉ walkedPages virtualAddress size := by
    intro hmem
    obtain ⟨k,hk,hzero⟩ := (mem_walkedPages_iff hwhole).mp hmem
    rw [hword k hk] at hzero
    exact hrange.not_page_zero (Nat.eq_zero_of_add_eq_zero_right hzero)
  refine ⟨fun page =>
    if page ∈ walkedPages virtualAddress size ∧ ((translation page).isNone ∨ invalidate = true) then
      some (ptrOffset physicalAddress (ptrDiff page virtualAddress))
    else translation page,?_,?_⟩
  · have hframe : isAddressAligned physicalAddress pageSize := beq_iff_eq.mpr hphysical
    simp only [mapPages,assert,bne_iff_ne.mpr hrange.nonempty,hrange.size_aligned,
      bne_iff_ne.mpr hrange.not_page_zero,hrange.aligned,hframe,hnull,decide_false,Bool.not_false,
      if_true,Option.bind_eq_bind,Option.bind_some]
    rfl
  · rw [hput.pool]
    refine h.of_walk hwhole hwalked ?_ (fun page hpage => if_neg fun hmem => hpage hmem.1)
      hput.others
    intro k hk
    have hmem : walkAddress virtualAddress k ∈ walkedPages virtualAddress size :=
      walkAddress_mem hwhole hk
    have hdiff : ptrDiff (walkAddress virtualAddress k) virtualAddress = k * pageSize := by
      have hbound : k * pageSize < qwordModulus := by
        have hlt : walkAddress virtualAddress k < qwordModulus := Nat.mod_lt _ (by decide)
        rw [hword k hk] at hlt
        omega
      rw [hword k hk,ptrDiff]
      simp only [qwordModulus] at *
      omega
    rw [hput.pages k hk,← h.agrees _ (hwalked _ hmem)]
    simp only [hmem,true_and,hdiff]
    cases invalidate
    · cases translation (walkAddress virtualAddress k) <;> simp
    · simp

theorem unmapPages_refines {memory : PhysicalMemory} {pagingData : PagingData}
    {releaseMemory : Bool} {s' : WalkState (List Nat)} (htree : PagingTree memory pagingData)
    (hva : virtualAddress < qwordModulus)
    (hsmall : RangeHasNoLargePages memory pagingData (alignAddressLower virtualAddress pageSize)
      (pagesWalked virtualAddress size * pageSize))
    (h : Translates pages memory pagingData.basePhysicalAddress translation)
    (hwalked : ∀ page ∈ walkedPages (alignAddressLower virtualAddress pageSize)
      (pagesWalked virtualAddress size * pageSize), page ∈ pages)
    (hunmap : mmuUnmapMemoryEx memory pagingData virtualAddress size releaseMemory = some s') :
    ∃ translation', unmapPages translation virtualAddress size = some translation' ∧
      Translates pages s'.memory pagingData.basePhysicalAddress translation' := by
  obtain ⟨hne,hends⟩ := mmuUnmapMemoryEx_ends hva hunmap
  have hsize : size ≠ 0 := by
    rintro rfl
    simp [mmuUnmapMemoryEx,assert] at hunmap
  obtain ⟨s₁,hs₁,hpages⟩ := mmuUnmapMemoryEx_walked htree hne hsize hends hsmall releaseMemory
  obtain rfl := Option.some.inj (hunmap.symm.trans hs₁)
  have hwhole : pagesWalked virtualAddress size * pageSize % pageSize = 0 := Nat.mul_mod_left _ _
  have hcount : pagesWalked virtualAddress size * pageSize / pageSize =
      pagesWalked virtualAddress size := Nat.mul_div_cancel _ (by decide)
  simp only [unmapPages,alignedSize_eq,assert,bne_iff_ne.mpr hne,bne_iff_ne.mpr hsize,if_true,
    Option.bind_eq_bind,Option.bind_some]
  by_cases hbase : alignAddressLower virtualAddress pageSize = 0
  · refine ⟨translation,by rw [if_pos hbase]; rfl,h.injective,fun page hpage => ?_⟩
    have hnone : coveredPages virtualAddress size = [] := if_pos hbase
    rw [h.agrees page hpage,mappedTo,mappedTo,hpages.others _ rfl (by rw [hnone]; exact List.not_mem_nil)]
  · have hcovered : ∀ path, path ∈ coveredPages virtualAddress size ↔
        ∃ k < pagesWalked virtualAddress size * pageSize / pageSize,
          path = tableOffsets (walkAddress (alignAddressLower virtualAddress pageSize) k) := by
      intro path
      rw [coveredPages,if_neg hbase,List.mem_map,hcount]
      simp only [List.mem_range,tableOffsets_walkAddress,eq_comm (a := path)]
    have hnull : 0 ∉ walkedPages (alignAddressLower virtualAddress pageSize)
        (pagesWalked virtualAddress size * pageSize) := by
      intro hmem
      obtain ⟨k,hk,hzero⟩ := (mem_walkedPages_iff hwhole).mp hmem
      have hend := hends hbase
      rw [hcount] at hk
      simp only [walkAddress,ptrOffset,pageSize,qwordModulus] at *
      omega
    refine ⟨fun page =>
      if page ∈ walkedPages (alignAddressLower virtualAddress pageSize)
        (pagesWalked virtualAddress size * pageSize) then none else translation page,?_,?_⟩
    · rw [if_neg hbase]
      simp only [hnull,decide_false,Bool.not_false,if_true,Option.bind_some]
      rfl
    · refine h.of_walk hwhole hwalked ?_ (fun page hpage => if_neg hpage) ?_
      · intro k hk
        have hmem : walkAddress (alignAddressLower virtualAddress pageSize) k ∈ walkedPages
            (alignAddressLower virtualAddress pageSize) (pagesWalked virtualAddress size * pageSize) :=
          walkAddress_mem hwhole hk
        rw [if_pos hmem,mappedTo,hpages.unmapped _ ((hcovered _).mpr ⟨k,hk,rfl⟩)]
        rfl
      · intro path hlength hnot
        refine hpages.others path hlength fun hmem => ?_
        obtain ⟨k,hk,hpath⟩ := (hcovered path).mp hmem
        exact hnot k hk hpath

end Walks

end Hal9000
