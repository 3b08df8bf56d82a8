import Hal9000.Memory.KernelHalf
import Hal9000.Memory.PagingForest
import Hal9000.Memory.PagingPool

/-!
# Unmapping a range of bytes

`MmuUnmapMemoryEx` rounds a range of bytes to pages and keeps the rounded size in 32 bits. The
pages that are walked are those of the range up to a multiple of 4 GB.
-/

namespace Hal9000

variable {memory : PhysicalMemory} {pagingData : PagingData} {virtualAddress size : Nat}

private theorem walkStructures_released (releaseMemory : Bool) (hva : virtualAddress ≠ 0)
    (level : Nat) (offsets : List (Fin 512)) (hlevel : 1 ≤ level)
    (hlen : level + offsets.length = 5) (hne : offsets ≠ []) (table : Nat)
    {s s' : WalkState (List Nat)}
    (hwalk : walkStructures (vmUnmapPage releaseMemory) virtualAddress level offsets table s =
      some s') :
    s'.context = s.context ++ if releaseMemory then
      ((s.memory.leafAt table offsets).map fun leaf => leaf.1.physicalAddress).toList else [] := by
  induction offsets generalizing level table with
  | nil => exact absurd rfl hne
  | cons offset rest ih =>
    simp only [List.length_cons] at hlen
    have hassert := assertCallback_eq hva level hlevel (by omega)
    cases hpresent : (s.memory table offset).present with
    | false =>
      have hstep : vmUnmapPage releaseMemory s table offset virtualAddress level =
          some (false,s) := by
        simp [vmUnmapPage,hassert,hpresent]
      rw [walkStructures_stop rest hstep] at hwalk
      cases hwalk
      rw [PhysicalMemory.leafAt,RadixTree.leafAt_empty (slot_of_not_present hpresent)]
      cases releaseMemory with
      | false => exact (List.append_nil _).symm
      | true => exact (List.append_nil _).symm
    | true =>
      cases rest with
      | nil =>
        obtain rfl : level = 4 := by simpa using hlen
        have hslot := slot_of_present hpresent
        have hstep : vmUnmapPage releaseMemory s table offset virtualAddress 4 =
            some (true,⟨s.memory.writeEntry table offset ptEntryZero,
              if releaseMemory then s.context ++ [(s.memory table offset).physicalAddress]
              else s.context⟩) := by
          simp [vmUnmapPage,hassert,hpresent,pagingTablesLastLevel]
        rw [walkStructures_next [] hstep (Or.inl rfl)] at hwalk
        cases hwalk
        rw [PhysicalMemory.leafAt,RadixTree.leafAt_last hslot]
        cases releaseMemory with
        | false => exact (List.append_nil _).symm
        | true => rfl
      | cons offset' rest =>
        simp only [List.length_cons] at hlen
        have hlast : level ≠ pagingTablesLastLevel := by
          unfold pagingTablesLastLevel
          omega
        have hstep : vmUnmapPage releaseMemory s table offset virtualAddress level =
            some (true,s) := by
          simp [vmUnmapPage,hassert,hpresent,hlast]
        cases hlarge : (s.memory table offset).pageSize with
        | false =>
          rw [walkStructures_next _ hstep (Or.inr hlarge)] at hwalk
          rw [PhysicalMemory.leafAt,
            RadixTree.leafAt_table (target_of_present hpresent hlarge) (by simp)]
          exact ih (level + 1) (by omega) (by simp only [List.length_cons]; omega) (by simp) _ hwalk
        | true =>
          simp [walkStructures,hstep,hlast,hlarge,assert] at hwalk

private theorem walkPages_released {releaseMemory : Bool} {cr3 : Pml4} {bytes : Nat}
    (hrange : PageRange virtualAddress bytes)
    (hcr3 : cr3.physicalAddress * pageSize = pagingData.basePhysicalAddress)
    (count first : Nat) (hcount : first + count = bytes / pageSize) {s s' : WalkState (List Nat)}
    (h : WalkInv (rangePaths virtualAddress (bytes / pageSize)) s.memory pagingData)
    (hwalk : walkPages (vmUnmapPage releaseMemory) cr3 virtualAddress count (first * pageSize) s =
      some s') :
    s'.context = s.context ++ if releaseMemory then
      (List.range' first count).filterMap fun k =>
        mappedTo s.memory pagingData.basePhysicalAddress (pageAt virtualAddress k) else [] := by
  induction count generalizing first s with
  | zero =>
    cases hwalk
    cases releaseMemory with
    | false => exact (List.append_nil _).symm
    | true => exact (List.append_nil _).symm
  | succ count ih =>
    have hfirst : first < bytes / pageSize := by omega
    obtain ⟨hword,hnonzero,-,hva⟩ := pageAt_word hrange hfirst
    have hoffset : first * pageSize + pageSize = (first + 1) * pageSize := by ring
    simp only [walkPages,hva,hcr3,hoffset,pagingTablesFirstLevel] at hwalk
    obtain ⟨s₁,hpage,hrest⟩ := Option.bind_eq_some_iff.mp hwalk
    obtain ⟨s₁',hpage',hunmapped⟩ := unmapPage_spec releaseMemory rangePaths_length hnonzero
      (fun _ => mem_rangePaths hfirst) h
    rw [hpage] at hpage'
    obtain rfl := Option.some.inj hpage'
    have hcontext := walkStructures_released releaseMemory hnonzero 1 _ le_rfl rfl
      (List.ne_nil_of_length_eq_add_one (tableOffsets_length _)) _ hpage
    rw [ih (first + 1) (by omega) hunmapped.inv hrest,hcontext,List.append_assoc]
    cases releaseMemory with
    | false => rfl
    | true =>
      have hsame : (List.range' (first + 1) count).filterMap (fun k =>
          mappedTo s₁.memory pagingData.basePhysicalAddress (pageAt virtualAddress k)) =
          (List.range' (first + 1) count).filterMap fun k =>
            mappedTo s.memory pagingData.basePhysicalAddress (pageAt virtualAddress k) := by
        apply List.filterMap_congr
        intro k hk
        obtain ⟨hle,hlt⟩ := List.mem_range'_1.mp hk
        rw [mappedTo,mappedTo,hunmapped.others _ rfl]
        intro heq
        have hindex := tableOffsets_injective hrange (by omega) hfirst heq
        omega
      rw [if_pos rfl,if_pos rfl,if_pos rfl,hsame,List.range'_succ,List.filterMap_cons]
      change _ ++ ((mappedTo s.memory pagingData.basePhysicalAddress
        (pageAt virtualAddress first)).toList ++ _) = _
      cases mappedTo s.memory pagingData.basePhysicalAddress (pageAt virtualAddress first) with
      | none => rfl
      | some frame => rfl

theorem walkPages_nonzero {Context : Type} {walkCallback : PageWalkCallback Context}
    (hnull : ∀ s table offset, walkCallback s table offset 0 pagingTablesFirstLevel = none)
    {cr3 : Pml4} {baseAddress count offset : Nat} {s s' : WalkState Context}
    (hwalk : walkPages walkCallback cr3 baseAddress count offset s = some s') :
    ∀ k < count, ptrOffset baseAddress (offset + k * pageSize) ≠ 0 := by
  induction count generalizing offset s with
  | zero => exact fun k hk => absurd hk (Nat.not_lt_zero k)
  | succ count ih =>
    obtain ⟨s₁,hpage,hrest⟩ := Option.bind_eq_some_iff.mp hwalk
    intro k hk hzero
    cases k with
    | zero =>
      rw [Nat.zero_mul,Nat.add_zero] at hzero
      rw [hzero,tableOffsets,walkStructures,hnull] at hpage
      cases hpage
    | succ k =>
      have hoffset : offset + (k + 1) * pageSize = offset + pageSize + k * pageSize := by ring
      rw [hoffset] at hzero
      exact ih hrest k (Nat.lt_of_succ_lt_succ hk) hzero

/-- The pages with a byte of the range; addresses wrap around as the processor's do. -/
def pagesOf (virtualAddress size : Nat) : Set (List (Fin 512)) :=
  {path | ∃ j < size, path = tableOffsets (ptrOffset virtualAddress j)}

/-- The number of pages that are walked. -/
def pagesWalked (virtualAddress size : Nat) : Nat :=
  (addressOffset virtualAddress pageSize + size + (pageSize - 1)) / pageSize % 2 ^ 20

/-- The pages that are walked; a range that starts in page 0 is refused. -/
def coveredPages (virtualAddress size : Nat) : List (List (Fin 512)) :=
  if alignAddressLower virtualAddress pageSize = 0 then []
  else (List.range (pagesWalked virtualAddress size)).map fun k =>
    tableOffsets (pageAt (alignAddressLower virtualAddress pageSize) k)

/-- The walk does not run over the end of the address space. -/
def WalkEnds (virtualAddress size : Nat) : Prop :=
  alignAddressLower virtualAddress pageSize ≠ 0 →
    alignAddressLower virtualAddress pageSize + pagesWalked virtualAddress size * pageSize ≤
      qwordModulus

def frameAt (memory : PhysicalMemory) (root : Nat) (path : List (Fin 512)) : Option Nat :=
  (memory.leafAt root path).map fun leaf => leaf.1.physicalAddress

/-- The pages with a byte of the range are unmapped and no others; each of them that was mapped
has its frame released once. -/
structure RangeUnmapped (memory : PhysicalMemory) (root virtualAddress size : Nat)
    (releaseMemory : Bool) (s' : WalkState (List Nat)) : Prop where
  unmapped : ∀ path ∈ pagesOf virtualAddress size, s'.memory.leafAt root path = none
  others : ∀ path, path.length = 4 → path ∉ pagesOf virtualAddress size →
    s'.memory.leafAt root path = memory.leafAt root path
  released : ∃ pages : List (List (Fin 512)), pages.Nodup ∧
    (∀ path, path ∈ pages ↔
      path ∈ pagesOf virtualAddress size ∧ (memory.leafAt root path).isSome) ∧
    s'.context = if releaseMemory then pages.filterMap (frameAt memory root) else []

theorem alignedSize_eq (virtualAddress size : Nat) :
    alignAddressUpper ((size +
      (virtualAddress - alignAddressLower virtualAddress pageSize) % 2 ^ 32) % qwordModulus)
        pageSize % 2 ^ 32 = pagesWalked virtualAddress size * pageSize := by
  simp only [alignAddressUpper,alignAddressLower,pagesWalked,addressOffset,pageSize,qwordModulus]
  omega

theorem tableOffsets_congr {virtualAddress' : Nat}
    (h : virtualAddress / pageSize = virtualAddress' / pageSize) :
    tableOffsets virtualAddress = tableOffsets virtualAddress' := by
  simp only [pageSize] at h
  simp only [tableOffsets,tableOffset,pagingTablesLastLevel,List.cons.injEq,Fin.ext_iff,Fin.ofNat,
    and_true]
  refine ⟨?_,?_,?_,?_⟩ <;> omega

theorem coveredPages_subset (hva : virtualAddress < qwordModulus) (hsize : 0 < size)
    (hends : WalkEnds virtualAddress size) :
    ∀ path ∈ coveredPages virtualAddress size, path ∈ pagesOf virtualAddress size := by
  intro path hpath
  rw [coveredPages] at hpath
  by_cases hbase : alignAddressLower virtualAddress pageSize = 0
  · rw [if_pos hbase] at hpath
    cases hpath
  · rw [if_neg hbase] at hpath
    obtain ⟨k,hk,rfl⟩ := List.mem_map.mp hpath
    have hroom := hends hbase
    rw [List.mem_range,pagesWalked] at hk
    simp only [pagesWalked,addressOffset,alignAddressLower,pageSize,qwordModulus] at hk hroom hva
    refine ⟨k * pageSize - addressOffset virtualAddress pageSize,?_,?_⟩
    · simp only [addressOffset,pageSize]
      omega
    · apply tableOffsets_congr
      simp only [pageAt,ptrOffset,alignAddressLower,addressOffset,pageSize,qwordModulus]
      omega

theorem coveredPages_nodup (virtualAddress size : Nat) :
    (coveredPages virtualAddress size).Nodup := by
  rw [coveredPages]
  by_cases hbase : alignAddressLower virtualAddress pageSize = 0
  · rw [if_pos hbase]
    exact List.nodup_nil
  · rw [if_neg hbase]
    refine List.Nodup.map_on ?_ List.nodup_range
    intro j hj k hk heq
    have hpages := pageNumber_of_tableOffsets heq
    rw [List.mem_range] at hj hk
    have hbound : pagesWalked virtualAddress size < 2 ^ 20 := Nat.mod_lt _ (Nat.two_pow_pos 20)
    simp only [pageAt,alignAddressLower,pageSize] at hpages
    omega

private theorem walkedRange (hends : WalkEnds virtualAddress size)
    (hbase : alignAddressLower virtualAddress pageSize ≠ 0) (hcount : pagesWalked virtualAddress size ≠ 0) :
    PageRange (alignAddressLower virtualAddress pageSize)
      (pagesWalked virtualAddress size * pageSize) where
  aligned := by
    simp only [isAddressAligned,alignAddressLower,beq_iff_eq,pageSize]
    omega
  size_aligned := by
    simp only [isAddressAligned,beq_iff_eq,pageSize]
    omega
  nonempty := by
    simp only [pageSize]
    omega
  no_wrap := hends hbase
  not_page_zero := hbase
  within := by
    have hbound : pagesWalked virtualAddress size < 2 ^ 20 := Nat.mod_lt _ (Nat.two_pow_pos 20)
    simp only [pageSize]
    omega

/-- The pages of a list are unmapped, and their frames released in order. -/
structure PagesUnmapped (memory : PhysicalMemory) (root : Nat) (pages : List (List (Fin 512)))
    (releaseMemory : Bool) (s' : WalkState (List Nat)) : Prop where
  unmapped : ∀ path ∈ pages, s'.memory.leafAt root path = none
  others : ∀ path, path.length = 4 → path ∉ pages →
    s'.memory.leafAt root path = memory.leafAt root path
  released : s'.context = if releaseMemory then pages.filterMap (frameAt memory root) else []

private theorem PagesUnmapped.nil (memory : PhysicalMemory) (root : Nat) (releaseMemory : Bool) :
    PagesUnmapped memory root [] releaseMemory ⟨memory,[]⟩ where
  unmapped _ hpath := (List.not_mem_nil hpath).elim
  others _ _ _ := rfl
  released := by
    cases releaseMemory with
    | false => rfl
    | true => rfl

theorem mmuUnmapMemoryEx_walked (h : PagingTree memory pagingData) (hne : virtualAddress ≠ 0)
    (hsize : size ≠ 0) (hends : WalkEnds virtualAddress size)
    (hsmall : RangeHasNoLargePages memory pagingData (alignAddressLower virtualAddress pageSize)
      (pagesWalked virtualAddress size * pageSize)) (releaseMemory : Bool) :
    ∃ s', mmuUnmapMemoryEx memory pagingData virtualAddress size releaseMemory = some s' ∧
      PagesUnmapped memory pagingData.basePhysicalAddress (coveredPages virtualAddress size)
        releaseMemory s' := by
  have hassert : assert (virtualAddress != 0) = some () := assert_eq_some.mpr (bne_iff_ne.mpr hne)
  have hassert' : assert (size != 0) = some () := assert_eq_some.mpr (bne_iff_ne.mpr hsize)
  rw [mmuUnmapMemoryEx,hassert,hassert']
  simp only [Option.bind_eq_bind,Option.bind_some,alignedSize_eq]
  have haligned : isAddressAligned (alignAddressLower virtualAddress pageSize) pageSize = true := by
    simp only [isAddressAligned,alignAddressLower,beq_iff_eq,pageSize]
    omega
  by_cases hbase : alignAddressLower virtualAddress pageSize = 0
  · rw [vmmUnmapMemoryEx,if_pos (Or.inl hbase),coveredPages,if_pos hbase]
    exact ⟨_,rfl,PagesUnmapped.nil _ _ _⟩
  · have haccepted : ¬(alignAddressLower virtualAddress pageSize = 0 ∨
        isAddressAligned (alignAddressLower virtualAddress pageSize) pageSize = false) := by
      rw [haligned]
      exact fun hor => hor.elim hbase Bool.noConfusion
    by_cases hcount : pagesWalked virtualAddress size = 0
    · rw [vmmUnmapMemoryEx,if_neg haccepted,if_pos (Or.inl (by rw [hcount,Nat.zero_mul])),
        coveredPages,if_neg hbase,hcount]
      exact ⟨_,rfl,PagesUnmapped.nil _ _ _⟩
    · have hrange := walkedRange hends hbase hcount
      have hpages : pagesWalked virtualAddress size * pageSize / pageSize =
          pagesWalked virtualAddress size := Nat.mul_div_cancel _ (by decide)
      obtain ⟨s',hrun,-,-,hleaves,hothers⟩ := vmmUnmapMemoryEx_spec h hrange hsmall
        h.wellFormed.cr3_table releaseMemory
      rw [hpages] at hleaves hothers
      rw [coveredPages,if_neg hbase]
      refine ⟨s',hrun,?_,?_,?_⟩
      · intro path hpath
        obtain ⟨k,hk,rfl⟩ := List.mem_map.mp hpath
        exact hleaves k (List.mem_range.mp hk)
      · intro path hpath hnot
        refine hothers path hpath ?_
        rintro k hk rfl
        exact hnot (List.mem_map.mpr ⟨k,List.mem_range.mpr hk,rfl⟩)
      · have hsizes : ¬(pagesWalked virtualAddress size * pageSize = 0 ∨
            isAddressAligned (pagesWalked virtualAddress size * pageSize) pageSize = false) := by
          rw [hrange.size_aligned]
          exact fun hor => hor.elim hrange.nonempty Bool.noConfusion
        rw [vmmUnmapMemoryEx,if_neg haccepted,if_neg hsizes,vmWalkPagingTables] at hrun
        have hcounted : (pagesWalked virtualAddress size * pageSize + (pageSize - 1)) / pageSize =
            pagesWalked virtualAddress size := by
          simp only [pageSize]
          omega
        have hstart : 0 = 0 * pageSize := (Nat.zero_mul _).symm
        rw [hcounted,hstart] at hrun
        have hwalk : WalkInv (rangePaths (alignAddressLower virtualAddress pageSize)
            (pagesWalked virtualAddress size * pageSize / pageSize)) memory pagingData := ⟨h,hsmall⟩
        have hreleased := walkPages_released hrange h.wellFormed.cr3_table
          (pagesWalked virtualAddress size) 0 (by rw [hpages,Nat.zero_add]) hwalk hrun
        rw [hreleased,List.nil_append,List.filterMap_map,List.range_eq_range']
        rfl

theorem mmuUnmapMemoryEx_ends {releaseMemory : Bool} {s' : WalkState (List Nat)}
    (hva : virtualAddress < qwordModulus)
    (hrun : mmuUnmapMemoryEx memory pagingData virtualAddress size releaseMemory = some s') :
    virtualAddress ≠ 0 ∧ WalkEnds virtualAddress size := by
  simp only [mmuUnmapMemoryEx,alignedSize_eq,Option.bind_eq_bind,Option.bind_eq_some_iff] at hrun
  obtain ⟨_,hne,_,_,hrun⟩ := hrun
  refine ⟨bne_iff_ne.mp (assert_eq_some.mp hne),?_⟩
  intro hbase
  by_contra hover
  have haligned : isAddressAligned (alignAddressLower virtualAddress pageSize) pageSize = true := by
    simp only [isAddressAligned,alignAddressLower,beq_iff_eq,pageSize]
    omega
  have hbelow : alignAddressLower virtualAddress pageSize < qwordModulus := by
    simp only [alignAddressLower,pageSize,qwordModulus] at hva ⊢
    omega
  have hsizes : ¬(pagesWalked virtualAddress size * pageSize = 0 ∨
      isAddressAligned (pagesWalked virtualAddress size * pageSize) pageSize = false) := by
    rintro (hzero | hodd)
    · omega
    · simp only [isAddressAligned,pageSize,Nat.mul_mod_left] at hodd
      cases hodd
  rw [vmmUnmapMemoryEx,if_neg (by rw [haligned]; exact fun hor => hor.elim hbase Bool.noConfusion),
    if_neg hsizes,vmWalkPagingTables] at hrun
  -- the page behind the last one of the address space is page 0
  refine walkPages_nonzero (fun _ _ _ => rfl) hrun
    ((qwordModulus - alignAddressLower virtualAddress pageSize) / pageSize) ?_ ?_
  · simp only [alignAddressLower,pageSize,qwordModulus] at hover hbelow ⊢
    omega
  · simp only [alignAddressLower,ptrOffset,pageSize,qwordModulus] at hbelow ⊢
    omega

/-- A range is unmapped as its bytes say, if and only if it does not start at `NULL`, the pages
walked do not run over the end of the address space, and the mapped pages of the range are all
among those walked: none of them in a range that starts in page 0, and those before a multiple
of 4 GB else. -/
theorem unmap_range_iff (h : PagingTree memory pagingData) (hva : virtualAddress < qwordModulus)
    (hsize : 0 < size) (hsmall : RangeHasNoLargePages memory pagingData
      (alignAddressLower virtualAddress pageSize) (pagesWalked virtualAddress size * pageSize))
    (releaseMemory : Bool) :
    (∃ s', mmuUnmapMemoryEx memory pagingData virtualAddress size releaseMemory = some s' ∧
        RangeUnmapped memory pagingData.basePhysicalAddress virtualAddress size releaseMemory s') ↔
      virtualAddress ≠ 0 ∧ WalkEnds virtualAddress size ∧
        ∀ path ∈ pagesOf virtualAddress size,
          (memory.leafAt pagingData.basePhysicalAddress path).isSome →
            path ∈ coveredPages virtualAddress size := by
  constructor
  · rintro ⟨s',hrun,hunmapped⟩
    obtain ⟨hne,hends⟩ := mmuUnmapMemoryEx_ends hva hrun
    refine ⟨hne,hends,?_⟩
    intro path hpath hmapped
    by_contra hnot
    obtain ⟨s₁,hrun₁,hwalked⟩ := mmuUnmapMemoryEx_walked h hne hsize.ne' hends hsmall releaseMemory
    rw [hrun] at hrun₁
    obtain rfl := Option.some.inj hrun₁
    have hlength : path.length = 4 := by
      obtain ⟨j,-,rfl⟩ := hpath
      rfl
    rw [← hwalked.others path hlength hnot,hunmapped.unmapped path hpath] at hmapped
    cases hmapped
  · rintro ⟨hne,hends,hcovered⟩
    obtain ⟨s',hrun,hwalked⟩ := mmuUnmapMemoryEx_walked h hne hsize.ne' hends hsmall releaseMemory
    have hsubset := coveredPages_subset hva hsize hends
    refine ⟨s',hrun,?_,?_,?_⟩
    · intro path hpath
      by_cases hin : path ∈ coveredPages virtualAddress size
      · exact hwalked.unmapped path hin
      · have hlength : path.length = 4 := by
          obtain ⟨j,-,rfl⟩ := hpath
          rfl
        rw [hwalked.others path hlength hin]
        exact Option.not_isSome_iff_eq_none.mp fun hmapped => hin (hcovered path hpath hmapped)
    · intro path hlength hnot
      exact hwalked.others path hlength fun hin => hnot (hsubset path hin)
    · refine ⟨(coveredPages virtualAddress size).filter fun path =>
        (memory.leafAt pagingData.basePhysicalAddress path).isSome,
        (coveredPages_nodup virtualAddress size).filter _,?_,?_⟩
      · intro path
        rw [List.mem_filter]
        constructor
        · exact fun hin => ⟨hsubset path hin.1,hin.2⟩
        · exact fun hin => ⟨hcovered path hin.1 hin.2,hin.2⟩
      · rw [hwalked.released]
        cases releaseMemory with
        | false => rfl
        | true =>
          rw [if_pos rfl,if_pos rfl,List.filterMap_filter]
          apply List.filterMap_congr
          intro path _
          rw [frameAt]
          cases memory.leafAt pagingData.basePhysicalAddress path with
          | none => rfl
          | some leaf => rfl

private theorem threePages_mapped :
    ∃ s, vmmMapMemoryInternal ⟨0,3⟩ emptyTables examplePaging 0x500000 0x3000 0x200000
        pageRightsReadWrite false false = some s ∧
      WalkInv (rangePaths 0x200000 3) s.memory s.context ∧
      (s.memory.leafAt s.context.basePhysicalAddress (tableOffsets 0x200000)).isSome := by
  have hrange : PageRange 0x200000 0x3000 := ⟨rfl,rfl,by decide,by decide,by decide,by decide⟩
  have htree : PagingTree emptyTables examplePaging :=
    (emptyTables_treeCondition ⟨rfl,by decide,by decide,by decide,by decide⟩ rfl).toPagingTree
  have hsmall : RangeHasNoLargePages emptyTables examplePaging 0x200000 0x3000 := by
    intro path offset table _ _ hpresent
    cases hpresent
  obtain ⟨s,hmap,-,hpool,-,hleaves,-⟩ := vmmMapMemoryInternal_spec ⟨0,3⟩ htree hrange hsmall
    (by unfold EnoughFrames; decide +kernel)
    (show isAddressAligned 0x500000 pageSize = true from rfl) pageRightsReadWrite false false
  have hbalanced := vmmMapMemoryInternal_balanced (s := ⟨emptyTables,examplePaging⟩)
    rangePaths_length hrange subset_rfl ⟨htree,hsmall⟩ hmap
  refine ⟨s,hmap,hbalanced.walk,?_⟩
  have hbase : s.context.basePhysicalAddress = examplePaging.basePhysicalAddress := by rw [hpool]
  have hleaf := hleaves 0 (by decide)
  rw [pageAt,Nat.zero_mul,Nat.add_zero] at hleaf
  rw [hbase,hleaf]
  rfl

/-- The three pages at `0x200000`, and a range that begins in the first and ends in the second. -/
theorem unmap_range_two :
    ∃ s s', vmmMapMemoryInternal ⟨0,3⟩ emptyTables examplePaging 0x500000 0x3000 0x200000
        pageRightsReadWrite false false = some s ∧
      mmuUnmapMemoryEx s.memory s.context 0x200800 0x1000 true = some s' ∧
      RangeUnmapped s.memory s.context.basePhysicalAddress 0x200800 0x1000 true s' := by
  obtain ⟨s,hmap,hwalk,-⟩ := threePages_mapped
  have hsub : rangePaths (alignAddressLower 0x200800 pageSize)
      (pagesWalked 0x200800 0x1000 * pageSize / pageSize) ⊆ rangePaths 0x200000 3 := by
    decide +kernel
  have hsmall : RangeHasNoLargePages s.memory s.context (alignAddressLower 0x200800 pageSize)
      (pagesWalked 0x200800 0x1000 * pageSize) :=
    fun path offset table hin => hwalk.small path offset table (hsub hin)
  have hcovered : ∀ path ∈ pagesOf 0x200800 0x1000, path ∈ coveredPages 0x200800 0x1000 := by
    rintro path ⟨j,hj,rfl⟩
    have hwalked : coveredPages 0x200800 0x1000 =
        [tableOffsets 0x200000,tableOffsets 0x201000] := by decide
    rw [hwalked,List.mem_cons,List.mem_singleton]
    by_cases hfirst : j < 0x800
    · refine Or.inl (tableOffsets_congr ?_)
      simp only [ptrOffset,pageSize,qwordModulus]
      omega
    · refine Or.inr (tableOffsets_congr ?_)
      simp only [ptrOffset,pageSize,qwordModulus]
      omega
  obtain ⟨s',hrun,hunmapped⟩ := (unmap_range_iff hwalk.tree (by decide) (by decide) hsmall
    true).mpr ⟨by decide,fun _ => by decide,fun path hpath _ => hcovered path hpath⟩
  exact ⟨s,s',hmap,hrun,hunmapped⟩

/-- A range of 4 GB is not unmapped at all. -/
theorem four_gigabytes_left :
    ∃ s s', vmmMapMemoryInternal ⟨0,3⟩ emptyTables examplePaging 0x500000 0x3000 0x200000
        pageRightsReadWrite false false = some s ∧
      mmuUnmapMemoryEx s.memory s.context 0x200000 (2 ^ 32) true = some s' ∧
      tableOffsets 0x200000 ∈ pagesOf 0x200000 (2 ^ 32) ∧
      (s'.memory.leafAt s.context.basePhysicalAddress (tableOffsets 0x200000)).isSome := by
  obtain ⟨s,hmap,hwalk,hmapped⟩ := threePages_mapped
  have hnone : rangePaths (alignAddressLower 0x200000 pageSize)
      (pagesWalked 0x200000 (2 ^ 32) * pageSize / pageSize) ⊆ rangePaths 0x200000 3 := by
    decide +kernel
  have hwalked : coveredPages 0x200000 (2 ^ 32) = [] := by decide
  have hsmall : RangeHasNoLargePages s.memory s.context (alignAddressLower 0x200000 pageSize)
      (pagesWalked 0x200000 (2 ^ 32) * pageSize) :=
    fun path offset table hin => hwalk.small path offset table (hnone hin)
  obtain ⟨s',hrun,hunmapped⟩ := mmuUnmapMemoryEx_walked hwalk.tree (by decide) (by decide)
    (fun _ => by decide) hsmall true
  refine ⟨s,s',hmap,hrun,⟨0,by decide,rfl⟩,?_⟩
  rw [hunmapped.others _ rfl (by rw [hwalked]; exact List.not_mem_nil)]
  exact hmapped

end Hal9000
