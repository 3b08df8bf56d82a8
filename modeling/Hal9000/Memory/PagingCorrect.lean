import Hal9000.Memory.PagingWalk

/-!
# Mapping and unmapping ranges of pages

The page loop over the one-page results. Translations see the 36 page-number bits of an
address only, so pages are told apart by those.
-/

namespace Hal9000

open RadixTree

def pageAt (baseAddress k : Nat) : Nat := baseAddress + k * pageSize

/-- A page-aligned range that neither wraps nor contains page 0, and whose pages differ in
the bits that are translated. -/
structure PageRange (baseAddress size : Nat) : Prop where
  aligned : isAddressAligned baseAddress pageSize = true
  size_aligned : isAddressAligned size pageSize = true
  nonempty : size ≠ 0
  no_wrap : baseAddress + size ≤ qwordModulus
  not_page_zero : baseAddress ≠ 0
  within : size ≤ 2 ^ 48

/-- The paths of the tables the walk of a range passes below the root. -/
def rangePaths (baseAddress count : Nat) : Finset (List (Fin 512)) :=
  (Finset.range count).biUnion fun k =>
    (Finset.Icc 1 3).image fun n => (tableOffsets (pageAt baseAddress k)).take n

theorem rangePaths_length {baseAddress count : Nat} :
    ∀ path ∈ rangePaths baseAddress count, path.length ≤ 3 := by
  intro path hpath
  simp only [rangePaths,Finset.mem_biUnion,Finset.mem_image,Finset.mem_Icc] at hpath
  obtain ⟨k,_,n,⟨_,hn⟩,rfl⟩ := hpath
  simp
  omega

theorem mem_rangePaths {baseAddress count k : Nat} (hk : k < count) {path : List (Fin 512)}
    (hne : path ≠ []) (hlen : path.length ≤ 3)
    (hinit : path <+: tableOffsets (pageAt baseAddress k)) :
    path ∈ rangePaths baseAddress count := by
  simp only [rangePaths,Finset.mem_biUnion,Finset.mem_image,Finset.mem_Icc,Finset.mem_range]
  have hpos := List.length_pos_of_ne_nil hne
  exact ⟨k,hk,path.length,⟨hpos,hlen⟩,(List.prefix_iff_eq_take.mp hinit).symm⟩

theorem pageNumber_of_tableOffsets {va va' : Nat} (h : tableOffsets va = tableOffsets va') :
    va / pageSize % 2 ^ 36 = va' / pageSize % 2 ^ 36 := by
  simp only [tableOffsets,List.cons.injEq,tableOffset,pagingTablesLastLevel,Fin.ext_iff,
    Fin.ofNat,and_true] at h
  simp only [pageSize]
  omega

theorem pageAt_word {baseAddress size k : Nat} (h : PageRange baseAddress size)
    (hk : k < size / pageSize) :
    pageAt baseAddress k < qwordModulus ∧ pageAt baseAddress k ≠ 0 ∧
      isAddressAligned (pageAt baseAddress k) pageSize = true ∧
      ptrOffset baseAddress (k * pageSize) = pageAt baseAddress k := by
  have hwrap := h.no_wrap
  have haligned := h.aligned
  have hzero := h.not_page_zero
  simp only [isAddressAligned,beq_iff_eq,pageSize,pageAt,ptrOffset,qwordModulus]
    at haligned hwrap hk ⊢
  have hlt : baseAddress + k * 4096 < 2 ^ 64 := by omega
  exact ⟨hlt,by omega,by omega,Nat.mod_eq_of_lt hlt⟩

theorem tableOffsets_injective {baseAddress size j k : Nat} (h : PageRange baseAddress size)
    (hj : j < size / pageSize) (hk : k < size / pageSize)
    (heq : tableOffsets (pageAt baseAddress j) = tableOffsets (pageAt baseAddress k)) :
    j = k := by
  have hpages := pageNumber_of_tableOffsets heq
  have hwithin := h.within
  have haligned := h.aligned
  simp only [isAddressAligned,beq_iff_eq,pageAt,pageSize] at hpages hj hk haligned
  omega

section Loop

variable {Context : Type} {walkCallback : PageWalkCallback Context} {cr3 : Pml4}
  {baseAddress size : Nat} {root : Nat}

/-- The walk of a page keeps an invariant and changes the leaf of the page only. -/
def ChangesPage (walkCallback : PageWalkCallback Context) (root : Nat)
    (inv : WalkState Context → Prop)
    (change : Nat → Option (PtEntry × Nat) → Option (PtEntry × Nat)) (va : Nat) : Prop :=
  ∀ s, inv s → ∃ s', walkStructures walkCallback va 1 (tableOffsets va) root s = some s' ∧
    inv s' ∧
    s'.memory.leafAt root (tableOffsets va) =
      change va (s.memory.leafAt root (tableOffsets va)) ∧
    ∀ path, path.length = 4 → path ≠ tableOffsets va →
      s'.memory.leafAt root path = s.memory.leafAt root path

variable {inv : WalkState Context → Prop}
  {change : Nat → Option (PtEntry × Nat) → Option (PtEntry × Nat)}

private theorem walkPages_spec (hrange : PageRange baseAddress size)
    (hroot : cr3.physicalAddress * pageSize = root)
    (hpage : ∀ k, k < size / pageSize →
      ChangesPage walkCallback root inv change (pageAt baseAddress k))
    (count first : Nat) (hcount : first + count = size / pageSize) {s : WalkState Context}
    (hs : inv s) :
    ∃ s', walkPages walkCallback cr3 baseAddress count (first * pageSize) s = some s' ∧ inv s' ∧
      (∀ k, first ≤ k → k < size / pageSize →
        s'.memory.leafAt root (tableOffsets (pageAt baseAddress k)) =
          change (pageAt baseAddress k)
            (s.memory.leafAt root (tableOffsets (pageAt baseAddress k)))) ∧
      ∀ path, path.length = 4 →
        (∀ k, first ≤ k → k < size / pageSize → path ≠ tableOffsets (pageAt baseAddress k)) →
        s'.memory.leafAt root path = s.memory.leafAt root path := by
  induction count generalizing first s with
  | zero =>
    refine ⟨s,rfl,hs,?_,fun _ _ _ => rfl⟩
    intro k hle hlt
    omega
  | succ count ih =>
    have hfirst : first < size / pageSize := by omega
    obtain ⟨s₁,hwalk,hinv₁,hleaf₁,hothers₁⟩ := hpage first hfirst s hs
    obtain ⟨s',hrest,hinv',hleaf',hothers'⟩ := ih (first + 1) (by omega) hinv₁
    have hdistinct : ∀ k, first + 1 ≤ k → k < size / pageSize →
        tableOffsets (pageAt baseAddress k) ≠ tableOffsets (pageAt baseAddress first) := by
      intro k hle hlt heq
      have hk := tableOffsets_injective hrange hlt hfirst heq
      omega
    refine ⟨s',?_,hinv',?_,?_⟩
    · have hva := (pageAt_word hrange hfirst).2.2.2
      have hoffset : first * pageSize + pageSize = (first + 1) * pageSize := by ring
      rw [walkPages]
      simp only [hva,hroot,hoffset,pagingTablesFirstLevel,hwalk]
      exact hrest
    · intro k hle hlt
      by_cases hk : k = first
      · subst k
        rw [hothers' _ rfl fun k hle hlt => (hdistinct k hle hlt).symm,hleaf₁]
      · rw [hleaf' k (by omega) hlt,hothers₁ _ rfl (hdistinct k (by omega) hlt)]
    · intro path hpath hnot
      rw [hothers' path hpath fun k hle hlt => hnot k (by omega) hlt,
        hothers₁ path hpath (hnot first le_rfl hfirst)]

theorem pageCount_of_aligned (haligned : isAddressAligned size pageSize = true) :
    (size + (pageSize - 1)) / pageSize = size / pageSize := by
  simp only [isAddressAligned,beq_iff_eq,pageSize] at haligned ⊢
  omega

theorem vmWalkPagingTables_spec (hrange : PageRange baseAddress size)
    (hroot : cr3.physicalAddress * pageSize = root)
    (hpage : ∀ k, k < size / pageSize →
      ChangesPage walkCallback root inv change (pageAt baseAddress k))
    {s : WalkState Context} (hs : inv s) :
    ∃ s', vmWalkPagingTables walkCallback cr3 baseAddress size s = some s' ∧ inv s' ∧
      (∀ k, k < size / pageSize →
        s'.memory.leafAt root (tableOffsets (pageAt baseAddress k)) =
          change (pageAt baseAddress k)
            (s.memory.leafAt root (tableOffsets (pageAt baseAddress k)))) ∧
      ∀ path, path.length = 4 →
        (∀ k, k < size / pageSize → path ≠ tableOffsets (pageAt baseAddress k)) →
        s'.memory.leafAt root path = s.memory.leafAt root path := by
  have hcount := pageCount_of_aligned hrange.size_aligned
  obtain ⟨s',hwalk,hinv,hleaf,hothers⟩ := walkPages_spec hrange hroot hpage
    (size / pageSize) 0 (by omega) hs
  refine ⟨s',?_,hinv,fun k => hleaf k (Nat.zero_le k),fun path hpath hnot =>
    hothers path hpath fun k _ => hnot k⟩
  unfold vmWalkPagingTables
  rw [hcount]
  simpa using hwalk

end Loop

section Ranges

variable {memory : PhysicalMemory} {pagingData : PagingData} {baseAddress size : Nat}

/-- The pool has the tables the range still needs. -/
def EnoughFrames (memory : PhysicalMemory) (pagingData : PagingData) (baseAddress size : Nat) :
    Prop :=
  pagingData.currentIndex + (missingTables memory pagingData.basePhysicalAddress
    (rangePaths baseAddress (size / pageSize))).card ≤ pagingData.numberOfFrames

/-- No walk of the range meets a large page. -/
def RangeHasNoLargePages (memory : PhysicalMemory) (pagingData : PagingData)
    (baseAddress size : Nat) : Prop :=
  NoLargePages memory pagingData.basePhysicalAddress (rangePaths baseAddress (size / pageSize))

/-- What the page loop of a mapping keeps, with the frames it started from. -/
private structure MapLoopInv (memory : PhysicalMemory) (pagingData : PagingData)
    (baseAddress size : Nat) (s : WalkState PagingData) : Prop where
  inv : MapInv (rangePaths baseAddress (size / pageSize)) s.memory s.context
  pool : pagingData.SamePool s.context
  frames : ∀ address, IsPagingFrame s.memory s.context address →
    IsPagingFrame memory pagingData address

private theorem mapLoop_page (vmmData : VmmData) (request : MapRequest)
    (hrange : PageRange baseAddress size) {k : Nat} (hk : k < size / pageSize) :
    ChangesPage (vmMapPage vmmData request) pagingData.basePhysicalAddress
      (MapLoopInv memory pagingData baseAddress size)
      (fun va => mapLeaf request.invalidate (mapEntry vmmData request pagingData.kernelSpace va))
      (pageAt baseAddress k) := by
  rintro s ⟨hinv,hpool,hframes⟩
  have hbase : s.context.basePhysicalAddress = pagingData.basePhysicalAddress := by rw [hpool]
  have hkernel : s.context.kernelSpace = pagingData.kernelSpace := by rw [hpool]
  obtain ⟨s',hwalk,hmapped⟩ := mapPage_spec vmmData request rangePaths_length
    (pageAt_word hrange hk).2.1 (fun _ => mem_rangePaths hk) hinv
  obtain ⟨hinv',hpool',hframes',hleaf,hothers⟩ := hmapped
  rw [hbase] at hwalk hleaf hothers
  rw [hkernel] at hleaf
  refine ⟨s',hwalk,⟨hinv',?_,fun address hframe => hframes address (hframes' address hframe)⟩,
    hleaf,hothers⟩
  rw [PagingData.SamePool,hpool',hpool]

/-- Mapping a range sets the leaves of its pages, keeps every other leaf and adds paging
structures from the pool only. -/
theorem vmmMapMemoryInternal_spec (vmmData : VmmData) (h : PagingTree memory pagingData)
    (hrange : PageRange baseAddress size)
    (hsmall : RangeHasNoLargePages memory pagingData baseAddress size)
    (henough : EnoughFrames memory pagingData baseAddress size) {physicalAddress : Nat}
    (hphysical : isAddressAligned physicalAddress pageSize = true) (rights : PageRights)
    (invalidate uncacheable : Bool) :
    ∃ s, vmmMapMemoryInternal vmmData memory pagingData physicalAddress size baseAddress rights
        invalidate uncacheable = some s ∧
      PagingTree s.memory s.context ∧ pagingData.SamePool s.context ∧
      (∀ address, IsPagingFrame s.memory s.context address →
        IsPagingFrame memory pagingData address) ∧
      (∀ k, k < size / pageSize →
        s.memory.leafAt pagingData.basePhysicalAddress (tableOffsets (pageAt baseAddress k)) =
          mapLeaf invalidate (mapEntry vmmData
            ⟨physicalAddress,baseAddress,rights,invalidate,uncacheable⟩ pagingData.kernelSpace
            (pageAt baseAddress k))
            (memory.leafAt pagingData.basePhysicalAddress
              (tableOffsets (pageAt baseAddress k)))) ∧
      ∀ path, path.length = 4 →
        (∀ k, k < size / pageSize → path ≠ tableOffsets (pageAt baseAddress k)) →
        s.memory.leafAt pagingData.basePhysicalAddress path =
          memory.leafAt pagingData.basePhysicalAddress path := by
  let request : MapRequest := ⟨physicalAddress,baseAddress,rights,invalidate,uncacheable⟩
  have hstart : MapLoopInv memory pagingData baseAddress size ⟨memory,pagingData⟩ :=
    ⟨⟨⟨h,hsmall⟩,henough⟩,rfl,fun _ hframe => hframe⟩
  obtain ⟨s,hwalk,⟨hinv,hpool,hframes⟩,hleaf,hothers⟩ :=
    vmWalkPagingTables_spec hrange h.wellFormed.cr3_table
      (fun k hk => mapLoop_page vmmData request hrange hk) hstart
  refine ⟨s,?_,hinv.tree,hpool,hframes,hleaf,hothers⟩
  simp only [vmmMapMemoryInternal,hphysical,hrange.size_aligned,bne_iff_ne.mpr hrange.nonempty,
    Bool.and_self,assert_true,Option.bind_eq_bind,Option.bind_some]
  exact hwalk

/-- Unmapping a range leaves its pages without a leaf, and every other leaf and all paging
structures as they were. -/
theorem vmmUnmapMemoryEx_spec (h : PagingTree memory pagingData)
    (hrange : PageRange baseAddress size)
    (hsmall : RangeHasNoLargePages memory pagingData baseAddress size) {cr3 : Pml4}
    (hcr3 : cr3.physicalAddress * pageSize = pagingData.basePhysicalAddress)
    (releaseMemory : Bool) :
    ∃ s, vmmUnmapMemoryEx memory cr3 baseAddress size releaseMemory = some s ∧
      PagingTree s.memory pagingData ∧
      (∀ address, IsPagingFrame s.memory pagingData address →
        IsPagingFrame memory pagingData address) ∧
      (∀ k, k < size / pageSize →
        s.memory.leafAt pagingData.basePhysicalAddress (tableOffsets (pageAt baseAddress k)) =
          none) ∧
      ∀ path, path.length = 4 →
        (∀ k, k < size / pageSize → path ≠ tableOffsets (pageAt baseAddress k)) →
        s.memory.leafAt pagingData.basePhysicalAddress path =
          memory.leafAt pagingData.basePhysicalAddress path := by
  let inv : WalkState (List Nat) → Prop := fun s =>
    WalkInv (rangePaths baseAddress (size / pageSize)) s.memory pagingData ∧
    ∀ address, IsPagingFrame s.memory pagingData address →
      IsPagingFrame memory pagingData address
  have hpage : ∀ k, k < size / pageSize → ChangesPage (vmUnmapPage releaseMemory)
      pagingData.basePhysicalAddress inv (fun _ _ => none) (pageAt baseAddress k) := by
    rintro k hk s ⟨hinv,hframes⟩
    obtain ⟨s',hwalk,hinv',hframes',hleaf,hothers⟩ := unmapPage_spec
      releaseMemory rangePaths_length (pageAt_word hrange hk).2.1
      (fun _ => mem_rangePaths hk) hinv
    exact ⟨s',hwalk,⟨hinv',fun address hframe => hframes address ((hframes' address).mp hframe)⟩,
      hleaf,hothers⟩
  have hstart : inv ⟨memory,[]⟩ := ⟨⟨h,hsmall⟩,fun _ hframe => hframe⟩
  obtain ⟨s,hwalk,⟨hinv,hframes⟩,hleaf,hothers⟩ :=
    vmWalkPagingTables_spec hrange hcr3 hpage hstart
  refine ⟨s,?_,hinv.tree,hframes,hleaf,hothers⟩
  simp only [vmmUnmapMemoryEx,hrange.not_page_zero,hrange.aligned,hrange.nonempty,
    hrange.size_aligned]
  exact hwalk

/-- `VmmGetPhysicalAddress` through the tables of a `PAGING_DATA`. -/
def translate (memory : PhysicalMemory) (pagingData : PagingData) (virtualAddress : Nat) :
    Option Nat :=
  vmmGetPhysicalAddress memory ⟨pagingData.basePhysicalAddress⟩ virtualAddress

/-- `VmmGetPhysicalAddressEx`, which reports and clears the access bits it is asked for. -/
def translateEx (memory : PhysicalMemory) (pagingData : PagingData) (accessed dirty : Bool)
    (virtualAddress : Nat) : Option Nat :=
  (vmmGetPhysicalAddressEx memory ⟨pagingData.basePhysicalAddress⟩ virtualAddress accessed
    dirty).map fun s => s.context.physicalAddress

/-- A page that the walk finds present. -/
def IsMapped (memory : PhysicalMemory) (pagingData : PagingData) (virtualAddress : Nat) : Prop :=
  (memory.leafAt pagingData.basePhysicalAddress (tableOffsets virtualAddress)).isSome

instance (memory : PhysicalMemory) (pagingData : PagingData) (virtualAddress : Nat) :
    Decidable (IsMapped memory pagingData virtualAddress) :=
  inferInstanceAs (Decidable (_ = true))

/-- An address a translation may be asked for. -/
structure PageAddress (virtualAddress : Nat) : Prop where
  nonzero : virtualAddress ≠ 0
  aligned : isAddressAligned virtualAddress pageSize = true
  word : virtualAddress < qwordModulus

/-- The page differs from every page of the range in the bits that are translated. -/
def OutsideRange (baseAddress size virtualAddress : Nat) : Prop :=
  ∀ k, k < size / pageSize →
    virtualAddress % 2 ^ 48 ≠ pageAt baseAddress k % 2 ^ 48

/-- No page of the physical range is a frame of the paging structures. -/
def ClearOfPagingFrames (memory : PhysicalMemory) (pagingData : PagingData)
    (physicalAddress size : Nat) : Prop :=
  ∀ k, k < size / pageSize → ∀ address,
    ptrOffset physicalAddress (k * pageSize) ≤ address →
    address < ptrOffset physicalAddress (k * pageSize) + pageSize →
    ¬ IsPagingFrame memory pagingData address

theorem translateEx_eq (hwf : pagingData.WellFormed) (accessed dirty : Bool) {va : Nat}
    (hva : PageAddress va) :
    translateEx memory pagingData accessed dirty va =
      leafAddress va (memory.leafAt pagingData.basePhysicalAddress (tableOffsets va)) := by
  unfold translateEx
  rw [vmmGetPhysicalAddressEx_eq memory _ hva.nonzero hva.aligned hva.word,hwf.cr3_table]

theorem translate_eq (hwf : pagingData.WellFormed) {va : Nat} (hva : PageAddress va) :
    translate memory pagingData va =
      leafAddress va (memory.leafAt pagingData.basePhysicalAddress (tableOffsets va)) :=
  translateEx_eq hwf false false hva

theorem tableOffsets_of_outside (hrange : PageRange baseAddress size) {va : Nat}
    (hva : PageAddress va) (hout : OutsideRange baseAddress size va) :
    ∀ k, k < size / pageSize → tableOffsets va ≠ tableOffsets (pageAt baseAddress k) := by
  intro k hk heq
  have hpages := pageNumber_of_tableOffsets heq
  have haligned := hva.aligned
  have hpage := (pageAt_word hrange hk).2.2.1
  apply hout k hk
  simp only [isAddressAligned,beq_iff_eq,pageSize] at hpages haligned hpage
  omega

private theorem treeCondition_of_leaves {memory' : PhysicalMemory} {pagingData' : PagingData}
    (h : TreeCondition memory pagingData) (htree : PagingTree memory' pagingData')
    (hbase : pagingData'.basePhysicalAddress = pagingData.basePhysicalAddress)
    (hframes : ∀ address, IsPagingFrame memory' pagingData' address →
      IsPagingFrame memory pagingData address)
    (hleaves : ∀ path, path.length = 4 →
      memory'.leafAt pagingData.basePhysicalAddress path =
        memory.leafAt pagingData.basePhysicalAddress path ∨
      ∀ entry levels,
        memory'.leafAt pagingData.basePhysicalAddress path = some (entry,levels) →
        ∀ address, entry.physicalAddress ≤ address →
          address < entry.physicalAddress + leafSize levels →
          ¬ IsPagingFrame memory pagingData address) :
    TreeCondition memory' pagingData' := by
  refine ⟨htree,?_⟩
  intro path entry levels hpath hleaf address hle hlt hframe
  rw [hbase] at hleaf
  rcases hleaves path hpath with hsame | hnew
  · rw [hsame] at hleaf
    exact h.leaves_clear path entry levels hpath hleaf address hle hlt (hframes address hframe)
  · exact hnew entry levels hleaf address hle hlt (hframes address hframe)

/-- For canonical pages, a tree free of large pages on the way and enough frames: a mapping
translates exactly the pages it may set, an unmapping none of them, no other translation
changes, and the tree condition holds again unless paging structures themselves are mapped. -/
theorem map_and_unmap_range (vmmData : VmmData) (h : TreeCondition memory pagingData)
    (hrange : PageRange baseAddress size)
    (hsmall : RangeHasNoLargePages memory pagingData baseAddress size) (accessed dirty : Bool) :
    (∀ physicalAddress rights invalidate uncacheable,
      isAddressAligned physicalAddress pageSize = true →
      EnoughFrames memory pagingData baseAddress size →
      ∃ s, vmmMapMemoryInternal vmmData memory pagingData physicalAddress size baseAddress rights
          invalidate uncacheable = some s ∧
        (∀ k, k < size / pageSize →
          translateEx s.memory s.context accessed dirty (pageAt baseAddress k) =
            if invalidate = true ∨ ¬ IsMapped memory pagingData (pageAt baseAddress k) then
              some (ptrOffset physicalAddress (k * pageSize))
            else translateEx memory pagingData accessed dirty (pageAt baseAddress k)) ∧
        (∀ va, PageAddress va → OutsideRange baseAddress size va →
          translateEx s.memory s.context accessed dirty va =
            translateEx memory pagingData accessed dirty va) ∧
        (ClearOfPagingFrames memory pagingData physicalAddress size →
          TreeCondition s.memory s.context)) ∧
    ∀ cr3 releaseMemory, Pml4.physicalAddress cr3 * pageSize = pagingData.basePhysicalAddress →
      ∃ s, vmmUnmapMemoryEx memory cr3 baseAddress size releaseMemory = some s ∧
        (∀ k, k < size / pageSize →
          translateEx s.memory pagingData accessed dirty (pageAt baseAddress k) = some 0) ∧
        (∀ va, PageAddress va → OutsideRange baseAddress size va →
          translateEx s.memory pagingData accessed dirty va =
            translateEx memory pagingData accessed dirty va) ∧
        TreeCondition s.memory pagingData := by
  have hword : ∀ k, k < size / pageSize → PageAddress (pageAt baseAddress k) := by
    intro k hk
    obtain ⟨hlt,hzero,haligned,_⟩ := pageAt_word hrange hk
    exact ⟨hzero,haligned,hlt⟩
  constructor
  · intro physicalAddress rights invalidate uncacheable hphysical henough
    obtain ⟨s,hmap,htree,hpool,hframes,hleaf,hothers⟩ := vmmMapMemoryInternal_spec vmmData
      h.toPagingTree hrange hsmall henough hphysical rights invalidate uncacheable
    have hbase : s.context.basePhysicalAddress = pagingData.basePhysicalAddress := by rw [hpool]
    have hdiff : ∀ k, k < size / pageSize →
        ptrDiff (pageAt baseAddress k) baseAddress = k * pageSize := by
      intro k hk
      obtain ⟨hlt,_,_,_⟩ := pageAt_word hrange hk
      simp only [pageAt,ptrDiff,qwordModulus,pageSize] at hlt ⊢
      omega
    refine ⟨s,hmap,?_,?_,?_⟩
    · intro k hk
      rw [translateEx_eq htree.wellFormed _ _ (hword k hk),
        translateEx_eq h.wellFormed _ _ (hword k hk),hbase,
        hleaf k hk]
      have hset : (invalidate || (memory.leafAt pagingData.basePhysicalAddress
          (tableOffsets (pageAt baseAddress k))).isNone) = true ↔
          invalidate = true ∨ ¬ IsMapped memory pagingData (pageAt baseAddress k) := by
        simp [IsMapped]
      unfold mapLeaf
      by_cases hcase : invalidate = true ∨ ¬ IsMapped memory pagingData (pageAt baseAddress k)
      · rw [if_pos hcase,if_pos (hset.mpr hcase)]
        simp only [leafAddress,mapEntry,pteMap,hdiff k hk]
      · rw [if_neg hcase,if_neg (fun h => hcase (hset.mp h))]
    · intro va hva hout
      rw [translateEx_eq htree.wellFormed _ _ hva,translateEx_eq h.wellFormed _ _ hva,hbase,
        hothers _ rfl (tableOffsets_of_outside hrange hva hout)]
    · intro hclear
      refine treeCondition_of_leaves h htree hbase hframes ?_
      intro path hpath
      by_cases hin : ∃ k, k < size / pageSize ∧ path = tableOffsets (pageAt baseAddress k)
      · obtain ⟨k,hk,rfl⟩ := hin
        rw [hleaf k hk]
        unfold mapLeaf
        split
        · right
          intro entry levels heq address hle hlt
          obtain ⟨rfl,rfl⟩ := Prod.mk.inj (Option.some.inj heq)
          simp only [mapEntry,pteMap,hdiff k hk,leafSize,pow_zero,mul_one] at hle hlt
          exact hclear k hk address hle hlt
        · exact Or.inl rfl
      · exact Or.inl (hothers path hpath fun k hk heq => hin ⟨k,hk,heq⟩)
  · intro cr3 releaseMemory hcr3
    obtain ⟨s,hunmap,htree,hframes,hleaf,hothers⟩ := vmmUnmapMemoryEx_spec h.toPagingTree hrange
      hsmall hcr3 releaseMemory
    refine ⟨s,hunmap,?_,?_,?_⟩
    · intro k hk
      rw [translateEx_eq htree.wellFormed _ _ (hword k hk),hleaf k hk]
      rfl
    · intro va hva hout
      rw [translateEx_eq htree.wellFormed _ _ hva,translateEx_eq h.wellFormed _ _ hva,
        hothers _ rfl (tableOffsets_of_outside hrange hva hout)]
    · refine treeCondition_of_leaves h htree rfl hframes ?_
      intro path hpath
      by_cases hin : ∃ k, k < size / pageSize ∧ path = tableOffsets (pageAt baseAddress k)
      · obtain ⟨k,hk,rfl⟩ := hin
        right
        intro entry levels heq
        rw [hleaf k hk] at heq
        cases heq
      · exact Or.inl (hothers path hpath fun k hk heq => hin ⟨k,hk,heq⟩)

end Ranges

section Fresh

/-- Tables in which nothing is mapped. -/
def emptyTables : PhysicalMemory := fun _ _ => ptEntryZero

private theorem emptyTables_refers (root table : Nat) (offset : Fin 512) (m : Nat) :
    ¬ RefersTo emptyTables root table offset m := by
  rintro ⟨_,hm⟩
  cases hm

theorem emptyTables_leafAt (root : Nat) (path : List (Fin 512)) :
    emptyTables.leafAt root path = none := by
  cases path with
  | nil => rfl
  | cons offset path => exact leafAt_empty slot_zero path

theorem emptyTables_treeCondition {pagingData : PagingData} (h : pagingData.WellFormed)
    (hfirst : pagingData.currentIndex = 1) : TreeCondition emptyTables pagingData := by
  refine ⟨⟨h,fun _ _ => emptyTables_refers _ _ _ _,?_,?_,fun _ _ _ _ _ =>
    emptyTables_refers _ _ _ _⟩,?_⟩
  · intro table offset table' offset' m href
    exact absurd href (emptyTables_refers _ _ _ _)
  · intro k hpos hk
    omega
  · intro path entry levels _ hleaf
    rw [emptyTables_leafAt] at hleaf
    cases hleaf

def examplePaging : PagingData := ⟨0x100000,16,1,true⟩

private theorem examplePaging_wellFormed : examplePaging.WellFormed :=
  ⟨rfl,by decide,by decide,by decide,by decide⟩

private theorem exampleRange : PageRange 0x200000 0x3000 :=
  ⟨rfl,rfl,by decide,by decide,by decide,by decide⟩

private theorem emptyTables_noLarge (paths : Finset (List (Fin 512))) :
    NoLargePages emptyTables examplePaging.basePhysicalAddress paths := by
  intro path offset table _ _ hpresent
  cases hpresent

private theorem exampleClear : ClearOfPagingFrames emptyTables examplePaging 0x500000 0x3000 := by
  rintro k hk address hle hlt (⟨path,_,hm⟩ | ⟨j,hj,rfl⟩)
  · cases path with
    | nil =>
      cases hm
      simp only [ptrOffset,qwordModulus,pageSize,examplePaging] at hk hle hlt
      omega
    | cons offset path => cases hm
  · simp only [ptrOffset,qwordModulus,pageSize,examplePaging,PagingData.frame] at hk hj hle hlt
    omega

/-- Three pages of fresh tables mapped, and unmapped. -/
theorem map_and_unmap_range_fresh :
    (∃ s, vmmMapMemoryInternal ⟨0,3⟩ emptyTables examplePaging 0x500000 0x3000 0x200000
        pageRightsReadWrite false false = some s ∧
      translateEx s.memory s.context true true 0x201000 = some 0x501000 ∧
      translateEx s.memory s.context true true 0x203000 =
        translateEx emptyTables examplePaging true true 0x203000 ∧
      TreeCondition s.memory s.context) ∧
    ∃ s, vmmUnmapMemoryEx emptyTables ⟨0x100000⟩ 0x200000 0x3000 false = some s ∧
      translateEx s.memory examplePaging true true 0x201000 = some 0 ∧
      TreeCondition s.memory examplePaging := by
  obtain ⟨hmap,hunmap⟩ := map_and_unmap_range ⟨0,3⟩
    (emptyTables_treeCondition examplePaging_wellFormed rfl) exampleRange (emptyTables_noLarge _)
    true true
  constructor
  · obtain ⟨s,hs,hpages,hothers,htree⟩ := hmap 0x500000 pageRightsReadWrite false false rfl
      (by unfold EnoughFrames; decide +kernel)
    refine ⟨s,hs,?_,hothers 0x203000 ⟨by decide,by decide,by decide⟩ ?_,htree exampleClear⟩
    · have hpage := hpages 1 (by decide)
      rw [if_pos (Or.inr (by decide +kernel))] at hpage
      exact hpage
    · intro k hk
      simp only [pageAt,pageSize] at hk ⊢
      omega
  · obtain ⟨s,hs,hpages,_,htree⟩ := hunmap ⟨0x100000⟩ false rfl
    exact ⟨s,hs,hpages 1 (by decide),htree⟩

def largeEntry : PtEntry := { pteMap (2 ^ 40) (pagingStructureFlags examplePaging) with
  pageSize := true }

/-- One paging structure below the root, whose first entry maps a page of 1 GB. -/
def largePageTables : PhysicalMemory :=
  (linkNext emptyTables examplePaging 0x100000 0).writeEntry 0x101000 0 largeEntry

private theorem largePageTables_entry : largePageTables 0x101000 0 = largeEntry := write_same ..

private theorem largePageTables_tableAt (path : List (Fin 512)) :
    largePageTables.tableAt 0x100000 path =
      (linkNext emptyTables examplePaging 0x100000 0).tableAt 0x100000 path := by
  apply follow_of_target
  intro table offset
  by_cases hslot : table = 0x101000 ∧ offset = 0
  · have hold : linkNext emptyTables examplePaging 0x100000 0 0x101000 0 = ptEntryZero := by
      decide +kernel
    rw [hslot.1,hslot.2,largePageTables_entry,hold]
    rfl
  · have hentry : largePageTables table offset =
        linkNext emptyTables examplePaging 0x100000 0 table offset :=
      write_of_ne largeEntry (by tauto)
    rw [hentry]

private theorem linked_pagingTree :
    PagingTree (linkNext emptyTables examplePaging 0x100000 0) examplePaging.next :=
  linkNext_pagingTree (q := []) (emptyTables_treeCondition examplePaging_wellFormed rfl).toPagingTree
    (by decide) (by decide) rfl slot_zero

private theorem largePageTables_frames {address : Nat}
    (h : IsPagingFrame largePageTables examplePaging.next address) : address < 0x110000 := by
  rcases h with ⟨path,hlen,hm⟩ | ⟨k,hk,rfl⟩
  · have hm' := (largePageTables_tableAt path).symm.trans hm
    have hempty := emptyTables_treeCondition examplePaging_wellFormed rfl
    rcases linkNext_tableAt_cases (q := []) hempty.toPagingTree (by decide) (by decide) rfl hlen
      hm' with ⟨_,rfl⟩ | hold
    · decide
    · cases path with
      | nil => cases hold; decide
      | cons offset path => cases hold
  · simp only [PagingData.frame,PagingData.next,examplePaging,pageSize] at hk ⊢
    omega

private theorem largePageTables_treeCondition :
    TreeCondition largePageTables examplePaging.next := by
  refine ⟨linked_pagingTree.congr fun path _ => largePageTables_tableAt path,?_⟩
  intro path entry levels hpath hleaf address hle _ hframe
  have hbound := largePageTables_frames hframe
  have htable : (linkNext emptyTables examplePaging 0x100000 0).tableAt 0x100000 [0] =
      some 0x101000 := by decide +kernel
  by_cases hthrough : [0] ++ [0] <+: path
  · obtain ⟨rest,rfl⟩ := hthrough
    have htable' := (largePageTables_tableAt [0]).trans htable
    change largePageTables.leafAt 0x100000 ([0] ++ 0 :: rest) = _ at hleaf
    have hsplit : largePageTables.leafAt 0x100000 ([0] ++ 0 :: rest) =
        largePageTables.leafAt 0x101000 (0 :: rest) := leafAt_append htable' (by simp)
    have hlarge : (largePageTables 0x101000 0).slot = .leaf := by
      rw [largePageTables_entry]
      rfl
    have hentry : entry = largeEntry := by
      rw [hsplit] at hleaf
      cases rest with
      | nil => simp at hpath
      | cons offset rest =>
        simp only [PhysicalMemory.leafAt,RadixTree.leafAt,hlarge,Option.some.injEq,
          Prod.mk.injEq] at hleaf
        rw [← hleaf.1,largePageTables_entry]
    rw [hentry] at hle
    simp only [largeEntry,pteMap] at hle
    omega
  · have hsame : largePageTables.leafAt 0x100000 path =
        (linkNext emptyTables examplePaging 0x100000 0).leafAt 0x100000 path :=
      leafAt_congr (write_agreesAlong linked_pagingTree.uniquePaths (by decide) htable
        (by omega) hthrough)
    have hnone : (linkNext emptyTables examplePaging 0x100000 0).leafAt 0x100000 path =
        emptyTables.leafAt 0x100000 path :=
      linkNext_leafAt (q := []) (emptyTables_treeCondition examplePaging_wellFormed rfl).toPagingTree
        (by decide) (by decide) rfl slot_zero hpath
    have hleaf : largePageTables.leafAt 0x100000 path = some (entry,levels) := hleaf
    rw [hsame,hnone,emptyTables_leafAt] at hleaf
    cases hleaf

private theorem examplePage : PageRange 0x200000 0x1000 :=
  ⟨rfl,rfl,by decide,by decide,by decide,by decide⟩

/-- From tables that meet the tree condition: mapping the PML4 frame breaks it, a range above
the translated bits changes the translation of a page outside it, and a page of a large page
cannot be mapped at all. -/
theorem map_range_limits :
    TreeCondition emptyTables examplePaging ∧
    (∃ s, vmmMapMemoryInternal ⟨0,3⟩ emptyTables examplePaging 0x100000 0x1000 0x200000
        pageRightsReadWrite true false = some s ∧ ¬ TreeCondition s.memory s.context) ∧
    (∃ s, vmmMapMemoryInternal ⟨0,3⟩ emptyTables examplePaging 0x500000 0x1000 0x1000000200000
        pageRightsReadWrite true false = some s ∧
      translate s.memory s.context 0x200000 = some 0x500000 ∧
      translate emptyTables examplePaging 0x200000 = some 0) ∧
    TreeCondition largePageTables examplePaging.next ∧
    vmmMapMemoryInternal ⟨0,3⟩ largePageTables examplePaging.next 0x500000 0x1000 0x200000
      pageRightsReadWrite true false = none := by
  have hempty := emptyTables_treeCondition examplePaging_wellFormed rfl
  refine ⟨hempty,?_,?_,largePageTables_treeCondition,?_⟩
  · obtain ⟨s,hmap,_,hpool,_,hleaf,_⟩ := vmmMapMemoryInternal_spec ⟨0,3⟩ hempty.toPagingTree
      examplePage (emptyTables_noLarge _) (by unfold EnoughFrames; decide +kernel)
      (show isAddressAligned 0x100000 pageSize = true from rfl) pageRightsReadWrite true false
    refine ⟨s,hmap,fun hcondition => ?_⟩
    have hbase : s.context.basePhysicalAddress = 0x100000 := by rw [hpool]; rfl
    have hpage := hleaf 0 (by decide)
    refine hcondition.leaves_clear (tableOffsets (pageAt 0x200000 0)) _ 0 rfl
      (by rw [hbase]; exact hpage) 0x100000 (by decide) (by decide) (Or.inl ⟨[],by simp,?_⟩)
    rw [hbase]
    rfl
  · have hrun : (vmmMapMemoryInternal ⟨0,3⟩ emptyTables examplePaging 0x500000 0x1000
        0x1000000200000 pageRightsReadWrite true false).any (fun s =>
          decide (translate s.memory s.context 0x200000 = some 0x500000)) = true := by
      decide +kernel
    obtain ⟨s,hs,htranslate⟩ := (Option.any_eq_true _ _).mp hrun
    exact ⟨s,hs,of_decide_eq_true htranslate,by decide +kernel⟩
  · exact Option.isNone_iff_eq_none.mp (by decide +kernel)

end Fresh

end Hal9000
