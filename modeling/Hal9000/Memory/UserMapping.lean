import Hal9000.Memory.KernelHalf
import Hal9000.Memory.PagesRestored
import Hal9000.Memory.RegionBacking

/-!
# Kernel addresses of user buffers

`MmuGetSystemVirtualAddressForUserBuffer` has the frames of a user buffer mapped in a new region of
the kernel. The frames are those of every page with a byte of the buffer; the region is reserved for
the size of the buffer, wherever in a page it starts.
-/

namespace Hal9000

inductive UserMappingStatus
  | invalidParameter1
  | invalidParameter2
  | unsuccessful
  | memoryCannotBeCommitted
  deriving DecidableEq

/-- A region of the kernel for the frames of a list. -/
def describedRegion (size : Nat) (pageRights : PageRights) (mdl : MemoryDescriptorList) :
    BackedRequest where
  region := ⟨0,size,⟨true,true⟩,true,pageRights,false,null_lt⟩
  zero := false
  fileObject := none
  mdl := some mdl

section Mapping

variable {Process : Type} [DecidableEq Process]

def mmuGetSystemVirtualAddressForUserBuffer (vmmData : VmmData) (reservationSize : Nat)
    (s : MemoryManager Process) (process : Process) (heapAvailable : Bool)
    (userAddress size : Nat) (pageRights : PageRights) :
    Option (Except UserMappingStatus Nat × MemoryManager Process) := do
  if userAddress = 0 then return (.error .invalidParameter1,s)
  if size = 0 then return (.error .invalidParameter2,s)
  assert (decide (size ≤ maxDword))
  match ← mdlAllocateEx s.memory (s.pagingData (some process)) heapAvailable userAddress size with
  | none => return (.error .unsuccessful,s)
  | some mdl =>
    let (pKernelAddress,s) ← vmmAllocBackedRegion vmmData reservationSize s none none
      (describedRegion size pageRights mdl) none
    if pKernelAddress = 0 then return (.error .memoryCannotBeCommitted,s)
    return (.ok (ptrOffset pKernelAddress (addressOffset userAddress pageSize)),s)

section Bytes

variable {memory : PhysicalMemory} {pagingData : PagingData} {virtualAddress size i : Nat}

theorem buffer_byte (hend : virtualAddress + size ≤ qwordModulus) (hi : i < size) :
    alignAddressLower (virtualAddress + i) pageSize = bufferPage virtualAddress
        ((addressOffset virtualAddress pageSize + i) / pageSize) ∧
      addressOffset (virtualAddress + i) pageSize =
        (addressOffset virtualAddress pageSize + i) % pageSize ∧
      (addressOffset virtualAddress pageSize + i) / pageSize < pageCount virtualAddress size := by
  simp only [bufferPage,alignAddressLower,addressOffset,pageCount,ptrOffset,pageSize,
    qwordModulus] at *
  refine ⟨?_,?_,?_⟩ <;> omega

theorem alignAddressUpper_pages (virtualAddress : Nat) (hne : size ≠ 0)
    (hdword : size ≤ maxDword) :
    ∃ index, alignAddressUpper size pageSize = index * pageSize ∧ 0 < index ∧
      index ≤ pageCount virtualAddress size ∧ size ≤ index * pageSize := by
  have hvalue : alignAddressUpper size pageSize = (size + 4095) / 4096 * pageSize := by
    simp only [alignAddressUpper,alignAddressLower,pageSize,qwordModulus,maxDword] at hdword ⊢
    omega
  refine ⟨(size + 4095) / 4096,hvalue,?_,?_,?_⟩
  · omega
  · simp only [pageCount,pageSize]
    omega
  · simp only [pageSize]
    omega

end Bytes

section Leaves

variable {memory : PhysicalMemory} {root table : Nat} {paths : Finset (List (Fin 512))}
  {path rest : List (Fin 512)} {offset : Fin 512}

private theorem next_table (h : NoLargePages memory root paths)
    (htable : memory.tableAt root path = some table) (hin : path ++ [offset] ∈ paths)
    (hleaf : memory.leafAt root (path ++ offset :: rest) ≠ none) :
    ∃ next, memory.tableAt root (path ++ [offset]) = some next := by
  by_cases hpresent : (memory table offset).present = true
  · exact ⟨_,tableAt_concat htable hpresent (h path offset table hin htable hpresent)⟩
  · have hempty : (memory table offset).slot = .empty :=
      slot_of_not_present (by simpa using hpresent)
    have hskip : memory.leafAt root (path ++ offset :: rest) =
        memory.leafAt table (offset :: rest) := RadixTree.leafAt_append htable (by simp)
    rw [hskip] at hleaf
    exact absurd (RadixTree.leafAt_empty hempty rest) hleaf

theorem smallLeaf_of_noLargePages (h : NoLargePages memory root paths) {virtualAddress : Nat}
    (hin : ∀ n, 1 ≤ n → n ≤ 3 → (tableOffsets virtualAddress).take n ∈ paths) :
    SmallLeaf memory root (tableOffsets virtualAddress) := by
  intro entry levels hleaf
  have hne : memory.leafAt root (tableOffsets virtualAddress) ≠ none := by
    rw [hleaf]
    simp
  have hroot : memory.tableAt root [] = some root := rfl
  obtain ⟨first,hfirst⟩ := next_table h hroot (hin 1 le_rfl (by decide)) hne
  obtain ⟨second,hsecond⟩ := next_table h hfirst (hin 2 (by decide) (by decide)) hne
  obtain ⟨third,hthird⟩ := next_table h hsecond (hin 3 (by decide) le_rfl) hne
  exact smallLeaf_of_table hthird _ entry levels hleaf

theorem rangePaths_mono {start count total : Nat} (hle : count ≤ total) :
    rangePaths start count ⊆ rangePaths start total := by
  rw [← Nat.add_sub_cancel' hle,rangePaths_append]
  exact Finset.subset_union_left

theorem walkAddress_pageAddress {start k : Nat} (hne : start ≠ 0)
    (haligned : start % pageSize = 0) (hwrap : start + k * pageSize < qwordModulus) :
    PageAddress (walkAddress start k) := by
  rw [walkAddress,ptrOffset,Nat.mod_eq_of_lt hwrap]
  refine ⟨by omega,?_,hwrap⟩
  rw [isAddressAligned,beq_iff_eq,Nat.add_mul_mod_self_right]
  exact haligned

theorem translate_of_mapped {pagingData : PagingData} {start count k frame : Nat}
    (hwalk : WalkInv (rangePaths start count) memory pagingData) (hk : k < count)
    (hpage : PageAddress (walkAddress start k))
    (h : mappedTo memory pagingData.basePhysicalAddress (walkAddress start k) = some frame) :
    translate memory pagingData (walkAddress start k) = some frame := by
  obtain ⟨⟨entry,levels⟩,hleaf,hphysical⟩ := Option.map_eq_some_iff.mp h
  have hlevels : levels = 0 := by
    refine smallLeaf_of_noLargePages hwalk.small ?_ entry levels hleaf
    intro n hpos hle
    rw [tableOffsets_walkAddress]
    apply mem_rangePaths hk
    · rw [List.ne_nil_iff_length_pos,List.length_take]
      simp only [tableOffsets,List.length_cons,List.length_nil]
      omega
    · rw [List.length_take]
      omega
    · exact List.take_prefix _ _
  subst hlevels
  rw [translate_eq hwalk.tree.wellFormed hpage,hleaf]
  exact congrArg some hphysical

end Leaves

variable {vmmData : VmmData} {reservationSize : Nat} {s s' : MemoryManager Process}
  {process : Process} {mdl : MemoryDescriptorList} {heapAvailable : Bool}
  {userAddress size kernelAddress base : Nat} {pageRights : PageRights}

theorem describedRegion_call
    (hcall : vmmAllocBackedRegion vmmData reservationSize s none none
      (describedRegion size pageRights mdl) none = some (base,s')) (hbase : base ≠ 0)
    (hpointer : (s.space none).freeVirtualAddressPointer < qwordModulus) :
    base = (s.space none).freeVirtualAddressPointer ∧ base % pageSize = 0 ∧
      (s'.space none).freeVirtualAddressPointer =
        ptrOffset base (alignAddressUpper size pageSize) ∧
      ∃ mapped, vmmMapDescribedRegion vmmData base pageRights mdl.translations 0
          ⟨s.memory,s.pagingData none⟩ = some mapped ∧
        s'.memory = mapped.memory ∧ s'.pagingData none = mapped.context := by
  obtain ⟨⟨locals,s₁⟩,htry,hfinally⟩ := Option.bind_eq_some_iff.mp hcall
  obtain ⟨hsucceeded,haddress,rfl⟩ := vmmAllocRegionFinally_address hfinally hbase
  cases vmmAllocRegionTry_ends htry with
  | refused => exact absurd hsucceeded Bool.false_ne_true
  | unbacked _ _ hlazy => exact absurd hlazy.symm Bool.false_ne_true
  | noFrames _ _ hlist => cases hlist
  | mapped _ _ hlist => cases hlist
  | @described base' size' space mdl' mapped halloc _ hlist haligned hmap =>
    obtain rfl : base = base' := haddress.symm
    obtain rfl : mdl = mdl' := Option.some.inj hlist
    obtain ⟨-,hfound⟩ := vmReservationSpaceAllocRegion_range null_lt hpointer halloc
    obtain ⟨hrange,-⟩ := hfound _ rfl
    have hstart : (s.space none).freeVirtualAddressPointer = base :=
      (Prod.mk.inj (Option.some.inj hrange)).1
    have hnext := vmReservationSpaceAllocRegion_pointer halloc
    refine ⟨hstart.symm,haligned,?_,mapped,hmap,rfl,?_⟩
    · rw [← hstart]
      exact hnext
    · simp only [MemoryManager.setMapped,Function.update_self]

/-- Room for as many pages behind the regions of the kernel. -/
structure KernelRoom (s : MemoryManager Process) (count : Nat) : Prop where
  tree : PagingTree s.memory (s.pagingData none)
  entries : HoldsFrames s.memory
  small : NoLargePages s.memory (s.roots none)
    (rangePaths (s.space none).freeVirtualAddressPointer count)
  no_wrap : (s.space none).freeVirtualAddressPointer + count * pageSize < qwordModulus
  empty : ∀ k < count, mappedTo s.memory (s.roots none)
    (walkAddress (s.space none).freeVirtualAddressPointer k) = none

omit [DecidableEq Process] in
theorem KernelRoom.page_lt {count k : Nat} (h : KernelRoom s count) (hk : k < count) :
    (s.space none).freeVirtualAddressPointer + k * pageSize < qwordModulus :=
  (Nat.add_le_add_left (Nat.mul_le_mul_right _ hk.le) _).trans_lt h.no_wrap

omit [DecidableEq Process] in
theorem KernelRoom.pointer_lt {count : Nat} (h : KernelRoom s count) :
    (s.space none).freeVirtualAddressPointer < qwordModulus :=
  (Nat.le_add_right _ _).trans_lt h.no_wrap

/-- The frames are mapped in order from where the next region was to be. -/
def FramesPut (s s' : MemoryManager Process) (count : Nat) (frames : List Nat) : Prop :=
  PagesPut (rangePaths (s.space none).freeVirtualAddressPointer count)
    ⟨s.memory,s.pagingData none⟩ (s.space none).freeVirtualAddressPointer frames.length
    (fun k old => old.or frames[k]?) ⟨s'.memory,s'.pagingData none⟩

theorem describedRegion_put {count : Nat} (hroom : KernelRoom s count) (hvalid : mdl.Valid)
    (hle : mdl.frames.length ≤ count)
    (hcall : vmmAllocBackedRegion vmmData reservationSize s none none
      (describedRegion size pageRights mdl) none = some (base,s')) (hbase : base ≠ 0) :
    FramesPut s s' count mdl.frames := by
  have hpointer := hroom.pointer_lt
  obtain ⟨rfl,haligned,-,mapped,hmap,hmemory,hdata⟩ := describedRegion_call hcall hbase hpointer
  have hinside : rangePaths (s.space none).freeVirtualAddressPointer (0 + mdl.frames.length) ⊆
      rangePaths (s.space none).freeVirtualAddressPointer count := by
    rw [Nat.zero_add]
    exact rangePaths_mono hle
  have hput := vmmMapDescribedRegion_put (s := ⟨s.memory,s.pagingData none⟩) rangePaths_length
    haligned mdl.translations hvalid.whole 0
    (by rw [Nat.zero_add]; exact hvalid.length_le.trans (by decide)) hinside
    ⟨hroom.tree,hroom.small⟩ (by rw [Nat.zero_mul]; exact hmap)
  rw [walkAddress_zero hpointer] at hput
  rw [FramesPut,hmemory,hdata]
  exact hput

section Frames

variable {count k : Nat} {frames : List Nat}

omit [DecidableEq Process] in
theorem FramesPut.roots (hput : FramesPut s s' count frames) : s'.roots none = s.roots none := by
  have hbase := congrArg PagingData.basePhysicalAddress hput.pool
  exact hbase

omit [DecidableEq Process] in
theorem FramesPut.mapped (hput : FramesPut s s' count frames) (hroom : KernelRoom s count)
    (hle : frames.length ≤ count) (hk : k < frames.length) :
    mappedTo s'.memory (s'.roots none)
      (walkAddress (s.space none).freeVirtualAddressPointer k) = some frames[k] := by
  have hpage := hput.pages k hk
  simp only [List.getElem?_eq_getElem hk] at hpage
  change mappedTo s'.memory (s.roots none) _ =
    (mappedTo s.memory (s.roots none) _).or _ at hpage
  rw [hroom.empty k (hk.trans_le hle),Option.none_or] at hpage
  rw [hput.roots]
  exact hpage

omit [DecidableEq Process] in
theorem FramesPut.unmapped (hput : FramesPut s s' count frames) (hroom : KernelRoom s count)
    (haligned : (s.space none).freeVirtualAddressPointer % pageSize = 0) (hcount : count ≤ 2 ^ 36)
    (hk : k < count) (hout : frames.length ≤ k) :
    mappedTo s'.memory (s'.roots none)
      (walkAddress (s.space none).freeVirtualAddressPointer k) = none := by
  rw [hput.roots,mappedTo,← hroom.empty k hk,mappedTo]
  congr 1
  apply hput.others _ rfl
  intro j hj hsame
  have hequal := walkAddress_injective (beq_iff_eq.mpr haligned) (by omega) (by omega) hsame
  omega

end Frames

/-- What a call that returns an address has done. -/
structure UserBufferMapped (s s' : MemoryManager Process) (process : Process)
    (userAddress size kernelAddress : Nat) : Prop where
  length : size ≠ 0 ∧ size ≤ maxDword
  first_page : alignAddressLower userAddress pageSize ≠ 0
  start : (s.space none).freeVirtualAddressPointer ≠ 0 ∧
    (s.space none).freeVirtualAddressPointer % pageSize = 0
  address : kernelAddress =
    (s.space none).freeVirtualAddressPointer + addressOffset userAddress pageSize
  next : (s'.space none).freeVirtualAddressPointer =
    (s.space none).freeVirtualAddressPointer + alignAddressUpper size pageSize
  mapped : ∀ k < laterPages userAddress size + 1, ∃ frame,
    translate s.memory (s.pagingData (some process)) (bufferPage userAddress k) = some frame ∧
    translate s'.memory (s'.pagingData none)
      (walkAddress (s.space none).freeVirtualAddressPointer k) = some frame ∧
    mappedTo s'.memory (s'.roots none)
      (walkAddress (s.space none).freeVirtualAddressPointer k) = some frame
  unmapped : ∀ k ≤ pageCount userAddress size, laterPages userAddress size + 1 ≤ k →
    mappedTo s'.memory (s'.roots none)
      (walkAddress (s.space none).freeVirtualAddressPointer k) = none

theorem mmuGetSystemVirtualAddressForUserBuffer_ok
    (hcall : mmuGetSystemVirtualAddressForUserBuffer vmmData reservationSize s process heapAvailable
      userAddress size pageRights = some (.ok kernelAddress,s')) :
    (size ≠ 0 ∧ size ≤ maxDword) ∧ ∃ mdl base,
      mdlAllocateEx s.memory (s.pagingData (some process)) heapAvailable userAddress size =
        some (some mdl) ∧
      vmmAllocBackedRegion vmmData reservationSize s none none (describedRegion size pageRights mdl)
        none = some (base,s') ∧
      base ≠ 0 ∧ kernelAddress = ptrOffset base (addressOffset userAddress pageSize) := by
  rw [mmuGetSystemVirtualAddressForUserBuffer] at hcall
  by_cases hnull : userAddress = 0
  · rw [if_pos hnull] at hcall
    cases hcall
  rw [if_neg hnull] at hcall
  by_cases hzero : size = 0
  · rw [if_pos hzero] at hcall
    cases hcall
  rw [if_neg hzero] at hcall
  obtain ⟨_,hdword,hcall⟩ := Option.bind_eq_some_iff.mp hcall
  obtain ⟨list,hlist,hcall⟩ := Option.bind_eq_some_iff.mp hcall
  cases list with
  | none => cases hcall
  | some mdl =>
    obtain ⟨⟨base,s₁⟩,hregion,hcall⟩ := Option.bind_eq_some_iff.mp hcall
    simp only at hcall
    by_cases hbase : base = 0
    · rw [if_pos hbase] at hcall
      cases hcall
    rw [if_neg hbase] at hcall
    obtain ⟨haddress,rfl⟩ := Prod.mk.inj (Option.some.inj hcall)
    exact ⟨⟨hzero,of_decide_eq_true (assert_eq_some.mp hdword)⟩,mdl,base,hlist,hregion,hbase,
      (Except.ok.inj haddress).symm⟩

theorem laterPages_lt (hne : size ≠ 0) (hdword : size ≤ maxDword) :
    laterPages userAddress size < pageCount userAddress size := by
  by_cases hcount : pageCount userAddress size < 2 ^ 20
  · rw [laterPages_eq (Nat.lt_succ_of_le hdword) hcount]
    simp only [pageCount,pageSize]
    omega
  · rw [laterPages_wrapped (Nat.lt_succ_of_le hdword) hcount]
    omega

theorem userBufferMapped (hroom : KernelRoom s (pageCount userAddress size + 1))
    (hend : userAddress + size ≤ qwordModulus)
    (hcall : mmuGetSystemVirtualAddressForUserBuffer vmmData reservationSize s process heapAvailable
      userAddress size pageRights = some (.ok kernelAddress,s')) :
    UserBufferMapped s s' process userAddress size kernelAddress := by
  obtain ⟨⟨hne,hdword⟩,mdl,base,hmdl,hregion,hbase,haddress⟩ :=
    mmuGetSystemVirtualAddressForUserBuffer_ok hcall
  have hva : userAddress < qwordModulus := by omega
  have hwrap := hroom.no_wrap
  obtain ⟨hfirst,hframes⟩ := mdlAllocateEx_frames hroom.entries hva hmdl
  have hlength : mdl.frames.length = laterPages userAddress size + 1 := by
    simpa using congrArg List.length hframes
  have hlater : laterPages userAddress size < pageCount userAddress size :=
    laterPages_lt hne hdword
  have hcount : pageCount userAddress size < 2 ^ 36 := by
    simp only [pageCount,addressOffset,pageSize,maxDword] at hdword ⊢
    omega
  have hput := describedRegion_put hroom (mdlAllocateEx_valid hroom.entries hva hmdl) (by omega)
    hregion hbase
  obtain ⟨rfl,haligned,hnext,-⟩ := describedRegion_call hregion hbase hroom.pointer_lt
  refine ⟨⟨hne,hdword⟩,hfirst,⟨hbase,haligned⟩,?_,?_,?_,?_⟩
  · rw [haddress,ptrOffset,Nat.mod_eq_of_lt]
    simp only [addressOffset,pageSize] at hwrap ⊢
    omega
  · obtain ⟨index,hindex,-,hle,-⟩ := alignAddressUpper_pages userAddress hne hdword
    rw [hnext,hindex,ptrOffset,Nat.mod_eq_of_lt]
    exact hroom.page_lt (Nat.lt_succ_of_le hle)
  · intro k hk
    have hinList : k < mdl.frames.length := by omega
    have huser := congrArg (fun frames => frames[k]?) hframes
    simp only [List.getElem?_map,List.getElem?_eq_getElem hinList,List.getElem?_range hk,
      Option.map_some,Option.some.injEq] at huser
    have hmapped := hput.mapped hroom (by omega) hinList
    refine ⟨_,huser.symm,?_,hmapped⟩
    apply translate_of_mapped hput.walk (show k < pageCount userAddress size + 1 by omega)
    · exact walkAddress_pageAddress hbase haligned (hroom.page_lt (by omega))
    · exact hmapped
  · intro k hk hout
    exact hput.unmapped hroom haligned (by omega) (Nat.lt_succ_of_le hk) (by omega)

omit [DecidableEq Process] in
theorem UserBufferMapped.bufferPage_eq
    (h : UserBufferMapped s s' process userAddress size kernelAddress) (k : Nat) :
    bufferPage kernelAddress k = walkAddress (s.space none).freeVirtualAddressPointer k ∧
      addressOffset kernelAddress pageSize = addressOffset userAddress pageSize := by
  have haddress := h.address
  have haligned := h.start.2
  have hlower : alignAddressLower kernelAddress pageSize =
      (s.space none).freeVirtualAddressPointer := by
    simp only [alignAddressLower,addressOffset,pageSize] at haddress haligned ⊢
    omega
  refine ⟨by rw [bufferPage,hlower,walkAddress],?_⟩
  simp only [addressOffset,pageSize] at haddress haligned ⊢
  omega

/-- A byte of the buffer and a byte of the kernel are the same byte of a frame. -/
structure SameByte (s s' : MemoryManager Process) (process : Process)
    (userAddress kernelAddress : Nat) : Prop where
  userMapped : IsMapped s.memory (s.pagingData (some process))
    (alignAddressLower userAddress pageSize)
  kernelMapped : IsMapped s'.memory (s'.pagingData none) (alignAddressLower kernelAddress pageSize)
  frame : ∃ frame,
    translate s.memory (s.pagingData (some process)) (alignAddressLower userAddress pageSize) =
      some frame ∧
    translate s'.memory (s'.pagingData none) (alignAddressLower kernelAddress pageSize) = some frame
  offset : addressOffset kernelAddress pageSize = addressOffset userAddress pageSize

omit [DecidableEq Process] in
theorem UserBufferMapped.byte (h : UserBufferMapped s s' process userAddress size kernelAddress)
    (hroom : KernelRoom s (pageCount userAddress size + 1))
    (hend : userAddress + size ≤ qwordModulus) (hcount : pageCount userAddress size < 2 ^ 20)
    (hpages : ∀ k < pageCount userAddress size,
      IsMapped s.memory (s.pagingData (some process)) (bufferPage userAddress k))
    {i : Nat} (hi : i < size) : SameByte s s' process (userAddress + i) (kernelAddress + i) := by
  obtain ⟨hbuffer,hsame⟩ :=
    h.bufferPage_eq ((addressOffset userAddress pageSize + i) / pageSize)
  have haddress := h.address
  have hwrap := hroom.no_wrap
  have hkernelEnd : kernelAddress + size ≤ qwordModulus := by
    simp only [pageCount,addressOffset,pageSize] at haddress hwrap ⊢
    omega
  obtain ⟨hpage,hoffset,hk⟩ := buffer_byte hend hi
  obtain ⟨hkernelPage,hkernelOffset,-⟩ := buffer_byte hkernelEnd hi
  rw [hsame,hbuffer] at hkernelPage
  rw [hsame] at hkernelOffset
  have hlater := laterPages_eq (Nat.lt_succ_of_le h.length.2) hcount
  obtain ⟨frame,huser,hkernel,hmapped⟩ :=
    h.mapped ((addressOffset userAddress pageSize + i) / pageSize) (by omega)
  refine ⟨by rw [hpage]; exact hpages _ hk,?_,⟨frame,by rw [hpage,huser],by
    rw [hkernelPage,hkernel]⟩,by rw [hkernelOffset,hoffset]⟩
  rw [hkernelPage]
  obtain ⟨leaf,hleaf,-⟩ := Option.map_eq_some_iff.mp hmapped
  exact Option.isSome_iff_exists.mpr ⟨leaf,hleaf⟩

omit [DecidableEq Process] in
theorem UserBufferMapped.next_eq
    (h : UserBufferMapped s s' process userAddress size kernelAddress)
    (hroom : KernelRoom s (pageCount userAddress size + 1)) :
    ∃ index, (s'.space none).freeVirtualAddressPointer =
        walkAddress (s.space none).freeVirtualAddressPointer index ∧
      alignAddressUpper size pageSize = index * pageSize ∧ 0 < index ∧
      index ≤ pageCount userAddress size ∧ size ≤ index * pageSize := by
  obtain ⟨index,hindex,hpos,hle,hsize⟩ :=
    alignAddressUpper_pages userAddress h.length.1 h.length.2
  refine ⟨index,?_,hindex,hpos,hle,hsize⟩
  rw [h.next,hindex,walkAddress,ptrOffset,
    Nat.mod_eq_of_lt (hroom.page_lt (Nat.lt_succ_of_le hle))]

omit [DecidableEq Process] in
theorem UserBufferMapped.next_page
    (h : UserBufferMapped s s' process userAddress size kernelAddress)
    (hroom : KernelRoom s (pageCount userAddress size + 1)) :
    mappedTo s'.memory (s'.roots none) (s'.space none).freeVirtualAddressPointer = none ↔
      addressOffset userAddress pageSize + size ≤ alignAddressUpper size pageSize ∨
        ¬ pageCount userAddress size < 2 ^ 20 := by
  have hdword := h.length.2
  obtain ⟨index,hnext,hindex,hpos,hle,hsize⟩ := h.next_eq hroom
  have hmapped : mappedTo s'.memory (s'.roots none) (s'.space none).freeVirtualAddressPointer =
      none ↔ laterPages userAddress size + 1 ≤ index := by
    rw [hnext]
    constructor
    · intro hnone
      by_contra hlt
      obtain ⟨frame,-,-,hsome⟩ := h.mapped index (by omega)
      rw [hnone] at hsome
      cases hsome
    · exact h.unmapped index hle
  rw [hmapped,hindex]
  by_cases hcount : pageCount userAddress size < 2 ^ 20
  · rw [laterPages_eq (Nat.lt_succ_of_le hdword) hcount]
    simp only [hcount,not_true_eq_false,or_false]
    simp only [pageCount,pageSize] at hle hsize ⊢
    omega
  · rw [laterPages_wrapped (Nat.lt_succ_of_le hdword) hcount]
    simp only [hcount,not_false_eq_true,or_true,iff_true]
    omega

omit [DecidableEq Process] in
theorem UserBufferMapped.next_frame
    (h : UserBufferMapped s s' process userAddress size kernelAddress)
    (hroom : KernelRoom s (pageCount userAddress size + 1))
    (hcount : pageCount userAddress size < 2 ^ 20)
    (hover : alignAddressUpper size pageSize < addressOffset userAddress pageSize + size) :
    mappedTo s'.memory (s'.roots none) (s'.space none).freeVirtualAddressPointer =
      translate s.memory (s.pagingData (some process))
        (bufferPage userAddress (pageCount userAddress size - 1)) := by
  obtain ⟨index,hnext,hindex,hpos,hle,hsize⟩ := h.next_eq hroom
  have hlater := laterPages_eq (Nat.lt_succ_of_le h.length.2) hcount
  have hlast : index = pageCount userAddress size - 1 := by
    rw [hindex] at hover
    simp only [pageCount,addressOffset,pageSize] at hover hsize hle ⊢
    omega
  obtain ⟨frame,huser,-,hkernel⟩ := h.mapped index (by omega)
  rw [hnext,hkernel,← hlast,huser]

end Mapping

/-- A process with two pages, and a kernel that has mapped nothing yet. -/
def twoPageManager : MemoryManager Unit where
  memory := twoPageTables
  pagingData
    | none => ⟨0x300000,16,1,true⟩
    | some _ => userPaging
  space := exampleManager.space
  allocationBitmap := exampleManager.allocationBitmap
  pagesToZeroList := []

theorem twoPageRoot_zero (offset : Fin 512) : twoPageManager.memory
    (twoPageManager.pagingData none).basePhysicalAddress offset = ptEntryZero := by
  simp [twoPageManager,twoPageTables]

theorem twoPageManager_room (count : Nat) (hcount : count ≤ 2 ^ 20) :
    KernelRoom twoPageManager count where
  tree := zeroRoot_tree ⟨by decide,by decide,by decide,by decide,by decide⟩ rfl twoPageRoot_zero
  entries := twoPageTables_frames
  small path offset table _ htable hpresent := by
    obtain ⟨-,rfl⟩ := zeroRoot_tableAt twoPageRoot_zero htable
    rw [twoPageRoot_zero] at hpresent
    cases hpresent
  no_wrap := by
    have hpointer :
        (twoPageManager.space none).freeVirtualAddressPointer = 0xFFFF800001000000 := rfl
    simp only [hpointer,pageSize,qwordModulus]
    omega
  empty k _ := by
    have hnone : twoPageManager.memory.leafAt (twoPageManager.roots none) (tableOffsets
        (walkAddress (twoPageManager.space none).freeVirtualAddressPointer k)) = none := by
      apply RadixTree.leafAt_empty
      exact congrArg PtEntry.slot (twoPageRoot_zero _)
    rw [mappedTo,hnone]
    rfl

end Hal9000
