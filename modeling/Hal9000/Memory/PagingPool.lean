import Hal9000.Memory.PagingCorrect

/-!
# The pool of paging structures

Kernel virtual addresses come from a pointer that only grows, and paging structures are never
given back. What mapping and unmapping in turn take from the pool is the number of tables that the
addresses handed out lacked.
-/

namespace Hal9000

open RadixTree

variable {paths : Finset (List (Fin 512))} {vmmData : VmmData} {request : MapRequest}

/-- The tables of `paths` that are missing in the tables of a walk. -/
def WalkState.missing (s : WalkState PagingData) (paths : Finset (List (Fin 512))) :
    Finset (List (Fin 512)) :=
  missingTables s.memory s.context.basePhysicalAddress paths

/-- A walk takes one frame of the pool for each table that it adds, and adds those of
`covered`. -/
structure Balanced (paths : Finset (List (Fin 512))) (covered : Set (List (Fin 512)))
    (s s' : WalkState PagingData) : Prop where
  walk : WalkInv paths s'.memory s'.context
  pool : s.context.SamePool s'.context
  balance : s'.context.currentIndex + (s'.missing paths).card =
    s.context.currentIndex + (s.missing paths).card
  missing : s'.missing paths ⊆ s.missing paths
  covered : ∀ path ∈ covered, path ∉ s'.missing paths

private theorem Balanced.refl {s : WalkState PagingData} (h : WalkInv paths s.memory s.context) :
    Balanced paths ∅ s s where
  walk := h
  pool := rfl
  balance := rfl
  missing _ := id
  covered _ := by simp

private theorem Balanced.trans {covered covered' : Set (List (Fin 512))}
    {s s₁ s' : WalkState PagingData} (h : Balanced paths covered s s₁)
    (h' : Balanced paths covered' s₁ s') : Balanced paths (covered ∪ covered') s s' where
  walk := h'.walk
  pool := by
    have hpool := h'.pool
    rw [h.pool] at hpool
    exact hpool
  balance := h'.balance.trans h.balance
  missing := h'.missing.trans h.missing
  covered path hpath := by
    rcases hpath with hpath | hpath
    · exact fun hmem => h.covered path hpath (h'.missing hmem)
    · exact h'.covered path hpath

private theorem Balanced.mono {covered covered' : Set (List (Fin 512))}
    {s s' : WalkState PagingData} (h : Balanced paths covered s s') (hsub : covered' ⊆ covered) :
    Balanced paths covered' s s' :=
  { h with covered := fun path hpath => h.covered path (hsub hpath) }

private theorem not_missing {s : WalkState PagingData} {path : List (Fin 512)} {m : Nat}
    (h : s.memory.tableAt s.context.basePhysicalAddress path = some m) :
    path ∉ s.missing paths := by
  intro hmem
  have hnone := (Finset.mem_filter.mp hmem).2
  rw [h] at hnone
  cases hnone

section Page

variable {q : List (Fin 512)} {table virtualAddress : Nat} {offset : Fin 512}
  {s s' : WalkState PagingData} {continueWalk : Bool}

private theorem writeEntry_balanced (h : WalkInv paths s.memory s.context)
    (hpaths : ∀ path ∈ paths, path.length ≤ 3) (hq : q.length = 3)
    (htable : s.memory.tableAt s.context.basePhysicalAddress q = some table) (entry : PtEntry) :
    Balanced paths ∅ s ⟨s.memory.writeEntry table offset entry,s.context⟩ := by
  have hsame : WalkState.missing ⟨s.memory.writeEntry table offset entry,s.context⟩ paths =
      s.missing paths := by
    apply Finset.filter_congr
    intro path hpath
    rw [(writeEntry_lastLevel h.tree hq htable offset entry).1 path (hpaths path hpath)]
  refine ⟨writeEntry_walkInv h hpaths hq htable offset entry,rfl,?_,?_,by simp⟩
  · rw [hsame]
  · rw [hsame]

private theorem setup_balanced (h : WalkInv paths s.memory s.context)
    (hpaths : ∀ path ∈ paths, path.length ≤ 3) (hmem : q ++ [offset] ∈ paths)
    (htable : s.memory.tableAt s.context.basePhysicalAddress q = some table)
    (hpresent : (s.memory table offset).present = false)
    (hsetup : vmSetupPagingStructure s.memory s.context table offset = some s') :
    Balanced paths {q ++ [offset]} s s' := by
  have hroom := room_of_setup hsetup
  have hempty := slot_of_not_present hpresent
  have hq : q.length < 3 := by
    have := hpaths _ hmem
    simp at this
    omega
  rw [vmSetupPagingStructure_eq h.tree hroom hq htable] at hsetup
  obtain rfl := Option.some.inj hsetup
  have hless : WalkState.missing ⟨linkNext s.memory s.context table offset,s.context.next⟩ paths =
      (s.missing paths).erase (q ++ [offset]) :=
    linkNext_missing h.tree hroom hpaths hq htable hempty
  have hmissing : q ++ [offset] ∈ s.missing paths :=
    Finset.mem_filter.mpr ⟨hmem,tableAt_concat_none htable hpresent⟩
  refine ⟨linkNext_walkInv h hroom hpaths hq htable hempty,rfl,?_,?_,?_⟩
  · have hpos := Finset.card_pos.mpr ⟨_,hmissing⟩
    rw [hless,Finset.card_erase_of_mem hmissing]
    change s.context.currentIndex + 1 + _ = _
    omega
  · rw [hless]
    exact Finset.erase_subset _ _
  · intro path hpath
    rw [Set.mem_singleton_iff.mp hpath,hless]
    exact Finset.notMem_erase _ _

private theorem walkStructures_balanced (hpaths : ∀ path ∈ paths, path.length ≤ 3)
    (rest : List (Fin 512)) (hrest : rest ≠ [])
    (hsplit : q ++ rest = tableOffsets virtualAddress)
    (hneeded : ∀ path, path ≠ [] → path.length ≤ 3 → path <+: tableOffsets virtualAddress →
      path ∈ paths)
    (h : WalkInv paths s.memory s.context)
    (htable : s.memory.tableAt s.context.basePhysicalAddress q = some table)
    (hwalk : walkStructures (vmMapPage vmmData request) virtualAddress (q.length + 1) rest table s =
      some s') :
    Balanced paths { path | q.length < path.length ∧ path.length ≤ 3 ∧
      path <+: tableOffsets virtualAddress } s s' := by
  induction rest generalizing q table s with
  | nil => exact absurd rfl hrest
  | cons offset rest ih =>
    have hlen := length_of_split hsplit
    simp only [walkStructures,Option.bind_eq_bind,Option.bind_eq_some_iff] at hwalk
    obtain ⟨⟨continueWalk,s₁⟩,hstep,hwalk⟩ := hwalk
    obtain ⟨rfl,hcases⟩ := vmMapPage_cases hstep
    obtain ⟨_,hsmall,hwalk⟩ := Option.bind_eq_some_iff.mp hwalk
    cases rest with
    | nil =>
      have hq : q.length = 3 := by simpa using hlen
      obtain rfl : s₁ = s' := by simpa [walkStructures] using hwalk
      have hnone : { path : List (Fin 512) | q.length < path.length ∧ path.length ≤ 3 ∧
          path <+: tableOffsets virtualAddress } ⊆ ∅ := by
        intro path hpath
        obtain ⟨hlt,hle,_⟩ := hpath
        omega
      apply Balanced.mono _ hnone
      rcases hcases with ⟨_,_,rfl⟩ | ⟨_,_,rfl⟩ | ⟨hlevel,_⟩
      · exact .refl h
      · exact writeEntry_balanced h hpaths hq htable _
      · omega
    | cons offset' rest =>
      have hq : q.length < 3 := by
        simp at hlen
        omega
      have hinit : q ++ [offset] <+: tableOffsets virtualAddress := by
        rw [← hsplit]
        exact ⟨offset' :: rest,by simp⟩
      have hmem : q ++ [offset] ∈ paths := hneeded _ (by simp) (by simp; omega) hinit
      have hlevel : q.length ≠ 3 := by omega
      have hsmall : (s₁.memory table offset).pageSize = false := by
        simpa [pagingTablesLastLevel,hlevel] using hsmall
      have hgo : Balanced paths {q ++ [offset]} s s₁ ∧
          s₁.memory.tableAt s₁.context.basePhysicalAddress (q ++ [offset]) =
            some (s₁.memory table offset).physicalAddress := by
        rcases hcases with ⟨hpresent,_,rfl⟩ | ⟨hlast,_⟩ | ⟨_,hpresent,hsetup⟩
        · have hnext := tableAt_concat htable hpresent hsmall
          refine ⟨{ Balanced.refl h with covered := fun path hpath => ?_ },hnext⟩
          rw [Set.mem_singleton_iff.mp hpath]
          exact not_missing hnext
        · omega
        · refine ⟨setup_balanced h hpaths hmem htable hpresent hsetup,?_⟩
          have hroom := room_of_setup hsetup
          rw [vmSetupPagingStructure_eq h.tree hroom hq htable] at hsetup
          obtain rfl := Option.some.inj hsetup
          have hentry : linkNext s.memory s.context table offset table offset =
              pteMap (s.context.frame s.context.currentIndex) (pagingStructureFlags s.context) :=
            write_same ..
          simp only [hentry]
          exact linkNext_tableAt_self h.tree hroom hq htable
      obtain ⟨hstep,htable₁⟩ := hgo
      have hlast := ih (q := q ++ [offset]) (by simp) (by simpa using hsplit) hstep.walk htable₁
        (by simpa using hwalk)
      apply (hstep.trans hlast).mono
      intro path hpath
      obtain ⟨hlt,hle,halong⟩ := hpath
      by_cases hnext : path.length = q.length + 1
      · left
        apply List.IsPrefix.eq_of_length_le
        · exact List.prefix_of_prefix_length_le halong hinit (by simp [hnext])
        · simp [hnext]
      · right
        exact ⟨by simp; omega,hle,halong⟩

end Page

section Ranges

variable {baseAddress size physicalAddress : Nat} {rights : PageRights}
  {invalidate uncacheable : Bool} {s s' : WalkState PagingData}

/-- The paths of the tables of the pages from `first` to `last`. -/
private def pathsBetween (baseAddress first last : Nat) : Set (List (Fin 512)) :=
  { path | path ≠ [] ∧ path.length ≤ 3 ∧
    ∃ k, first ≤ k ∧ k < last ∧ path <+: tableOffsets (pageAt baseAddress k) }

private theorem walkPages_balanced (hpaths : ∀ path ∈ paths, path.length ≤ 3)
    (hrange : PageRange baseAddress size)
    (hsub : rangePaths baseAddress (size / pageSize) ⊆ paths) {base : Nat} (count first : Nat)
    (hcount : first + count = size / pageSize) (h : WalkInv paths s.memory s.context)
    (hbase : s.context.basePhysicalAddress = base)
    (hwalk : walkPages (vmMapPage vmmData request) ⟨base⟩ baseAddress count (first * pageSize) s =
      some s') :
    Balanced paths (pathsBetween baseAddress first (size / pageSize)) s s' := by
  induction count generalizing first s with
  | zero =>
    obtain rfl := Option.some.inj hwalk
    apply (Balanced.refl h).mono
    intro path hpath
    obtain ⟨_,_,k,hle,hlt,_⟩ := hpath
    omega
  | succ count ih =>
    have hfirst : first < size / pageSize := by omega
    obtain ⟨_,_,_,hva⟩ := pageAt_word hrange hfirst
    have hoffset : first * pageSize + pageSize = (first + 1) * pageSize := by ring
    have hroot := h.tree.wellFormed.cr3_table
    rw [hbase] at hroot
    simp only [walkPages,Option.bind_eq_bind,Option.bind_eq_some_iff,hva,hoffset,hroot,
      pagingTablesFirstLevel] at hwalk
    obtain ⟨s₁,hpage,hwalk⟩ := hwalk
    have hstep := walkStructures_balanced (q := []) hpaths _ (by simp) rfl
      (fun path hne hlen halong => hsub (mem_rangePaths hfirst hne hlen halong)) h
      (by rw [hbase]; rfl) hpage
    have hbase₁ : s₁.context.basePhysicalAddress = base := by rw [hstep.pool,hbase]
    have hlast := ih (first + 1) (by omega) hstep.walk hbase₁ hwalk
    apply (hstep.trans hlast).mono
    intro path hpath
    obtain ⟨hne,hlen,k,hle,hlt,halong⟩ := hpath
    by_cases hk : k = first
    · left
      rw [hk] at halong
      exact ⟨List.length_pos_of_ne_nil hne,hlen,halong⟩
    · right
      exact ⟨hne,hlen,k,by omega,hlt,halong⟩

theorem vmmMapMemoryInternal_balanced (hpaths : ∀ path ∈ paths, path.length ≤ 3)
    (hrange : PageRange baseAddress size)
    (hsub : rangePaths baseAddress (size / pageSize) ⊆ paths)
    (h : WalkInv paths s.memory s.context)
    (hmap : vmmMapMemoryInternal vmmData s.memory s.context physicalAddress size baseAddress rights
      invalidate uncacheable = some s') :
    Balanced paths (rangePaths baseAddress (size / pageSize)) s s' := by
  simp only [vmmMapMemoryInternal,Option.bind_eq_bind,Option.bind_eq_some_iff] at hmap
  obtain ⟨_,_,_,_,hwalk⟩ := hmap
  have hcount := pageCount_of_aligned hrange.size_aligned
  rw [vmWalkPagingTables,hcount] at hwalk
  have hloop := walkPages_balanced hpaths hrange hsub (size / pageSize) 0 (by omega) h rfl
    (by simpa using hwalk)
  apply hloop.mono
  intro path hpath
  simp only [rangePaths,Finset.mem_coe,Finset.mem_biUnion,Finset.mem_image,Finset.mem_Icc,
    Finset.mem_range] at hpath
  obtain ⟨k,hk,n,⟨hpos,hn⟩,rfl⟩ := hpath
  refine ⟨?_,?_,k,Nat.zero_le k,hk,List.take_prefix _ _⟩
  · apply List.ne_nil_of_length_pos
    simp
    omega
  · simp
    omega

theorem vmmMapMemoryInternal_returns (vmmData : VmmData) (rights : PageRights)
    (invalidate uncacheable : Bool) (hrange : PageRange baseAddress size)
    (hsub : rangePaths baseAddress (size / pageSize) ⊆ paths)
    (h : WalkInv paths s.memory s.context)
    (henough : s.context.currentIndex + (s.missing paths).card ≤ s.context.numberOfFrames)
    (hphysical : isAddressAligned physicalAddress pageSize = true) :
    ∃ s', vmmMapMemoryInternal vmmData s.memory s.context physicalAddress size baseAddress rights
      invalidate uncacheable = some s' := by
  have hsmall : RangeHasNoLargePages s.memory s.context baseAddress size :=
    fun path offset table hin => h.small path offset table (hsub hin)
  have hfewer := Finset.card_le_card (Finset.filter_subset_filter
    (fun path => s.memory.tableAt s.context.basePhysicalAddress path = none) hsub)
  have hframes : EnoughFrames s.memory s.context baseAddress size := by
    unfold EnoughFrames missingTables
    unfold WalkState.missing missingTables at henough
    omega
  obtain ⟨s',hmap,_⟩ := vmmMapMemoryInternal_spec vmmData h.tree hrange hsmall hframes hphysical
    rights invalidate uncacheable
  exact ⟨s',hmap⟩

theorem vmmUnmapMemoryEx_tables {memory : PhysicalMemory} {pagingData : PagingData} {cr3 : Pml4}
    {releaseMemory : Bool} (hpaths : ∀ path ∈ paths, path.length ≤ 3)
    (h : WalkInv paths memory pagingData)
    (hcr3 : cr3.physicalAddress * pageSize = pagingData.basePhysicalAddress)
    {s' : WalkState (List Nat)}
    (hunmap : vmmUnmapMemoryEx memory cr3 baseAddress size releaseMemory = some s') :
    WalkInv paths s'.memory pagingData ∧ ∀ path, path.length ≤ 3 →
      s'.memory.tableAt pagingData.basePhysicalAddress path =
        memory.tableAt pagingData.basePhysicalAddress path := by
  let inv : WalkState (List Nat) → Prop := fun s => WalkInv paths s.memory pagingData ∧
    ∀ path, path.length ≤ 3 → s.memory.tableAt pagingData.basePhysicalAddress path =
      memory.tableAt pagingData.basePhysicalAddress path
  have hkeeps : ∀ virtualAddress, KeepsOnPath (vmUnmapPage releaseMemory)
      pagingData.basePhysicalAddress virtualAddress inv := by
    intro virtualAddress s s' continueWalk q table offset rest hs hsplit htable hstep
    have hlen := congrArg List.length hsplit
    simp at hlen
    rcases vmUnmapPage_cases hstep with ⟨_,hstop,rfl⟩ | ⟨hpresent,_,⟨hlast,hwritten⟩ | ⟨_,rfl⟩⟩
    · refine ⟨hs,?_⟩
      intro hcontinue
      rw [hstop] at hcontinue
      cases hcontinue
    · have hq : q.length = 3 := by omega
      have htables := (writeEntry_lastLevel hs.1.tree hq htable offset ptEntryZero).1
      have hmemory := congrArg WalkState.memory hwritten
      refine ⟨⟨?_,?_⟩,?_⟩
      · rw [hmemory]
        exact writeEntry_walkInv hs.1 hpaths hq htable offset ptEntryZero
      · intro path hpath
        rw [hmemory,htables path hpath,hs.2 path hpath]
      · intro _ hrest
        have hpos := List.length_pos_of_ne_nil hrest
        omega
    · exact ⟨hs,fun _ _ => ⟨htable,hpresent⟩⟩
  have hstart : inv ⟨memory,[]⟩ := ⟨h,fun _ _ => rfl⟩
  unfold vmmUnmapMemoryEx at hunmap
  split_ifs at hunmap
  · rw [← Option.some.inj hunmap]
    exact hstart
  · rw [← Option.some.inj hunmap]
    exact hstart
  · exact vmWalkPagingTables_keeps hcr3 (fun k _ => hkeeps _) hstart hunmap

end Ranges

/-- What the mappings of the kernel change: the tables, the pool and the space its virtual
addresses come from. -/
structure KernelMemory where
  memory : PhysicalMemory
  pagingData : PagingData
  space : VmmReservationSpace

structure MmuMapRequest where
  physicalAddress : Nat
  size : Nat
  pageRights : PageRights
  invalidate : Bool
  uncacheable : Bool

/-- The address is `0` for `NULL`. -/
def vmmMapMemoryEx (vmmData : VmmData) (m : KernelMemory) (physicalAddress size : Nat)
    (pageRights : PageRights) (invalidate uncacheable : Bool) : Option (Nat × KernelMemory) :=
  if isAddressAligned physicalAddress pageSize = false then some (0,m)
  else if size = 0 ∨ isAddressAligned size pageSize = false then some (0,m)
  else do
    let (virtualAddress,space) := vmReservationSpaceDetermineNextFreeVirtualAddress m.space size
    assert (isAddressAligned virtualAddress pageSize)
    let s ← vmmMapMemoryInternal vmmData m.memory m.pagingData physicalAddress size virtualAddress
      pageRights invalidate uncacheable
    return (virtualAddress,⟨s.memory,s.context,space⟩)

/-- The size of the pages that a request touches. -/
def MmuMapRequest.alignedSize (request : MmuMapRequest) : Nat :=
  alignAddressUpper ((request.size + addressOffset request.physicalAddress pageSize) %
    qwordModulus) pageSize

def mmuMapMemoryEx (vmmData : VmmData) (highestPhysicalAddress : Nat) (m : KernelMemory)
    (request : MmuMapRequest) : Option (Nat × KernelMemory) := do
  assert (request.size != 0)
  let alignedPhysicalAddress := alignAddressLower request.physicalAddress pageSize
  assert (decide (alignedPhysicalAddress < ptrDiff highestPhysicalAddress request.alignedSize))
  let (pointer,m) ← vmmMapMemoryEx vmmData m alignedPhysicalAddress request.alignedSize
    request.pageRights request.invalidate request.uncacheable
  return (if pointer = 0 then 0
    else ptrOffset pointer (addressOffset request.physicalAddress pageSize),m)

/-- `MmuUnmapMemoryEx` of the kernel, without `ReleaseMemory`. The size is kept in 32 bits. -/
def mmuUnmapSystemMemory (m : KernelMemory) (virtualAddress size : Nat) : Option KernelMemory := do
  assert (virtualAddress != 0)
  assert (size != 0)
  let alignedVirtualAddress := alignAddressLower virtualAddress pageSize
  let alignedSize := alignAddressUpper ((size + (virtualAddress - alignedVirtualAddress)) %
    qwordModulus) pageSize % 2 ^ 32
  let s ← vmmUnmapMemoryEx m.memory ⟨m.pagingData.basePhysicalAddress⟩ alignedVirtualAddress
    alignedSize false
  return { m with memory := s.memory }

/-- A range is mapped, used and unmapped. -/
def mapAndUnmap (vmmData : VmmData) (highestPhysicalAddress : Nat) (m : KernelMemory)
    (request : MmuMapRequest) : Option KernelMemory := do
  let (pointer,m) ← mmuMapMemoryEx vmmData highestPhysicalAddress m request
  assert (pointer != 0)
  mmuUnmapSystemMemory m pointer request.size

/-- One range after the other. -/
def mapAndUnmapAll (vmmData : VmmData) (highestPhysicalAddress : Nat) :
    KernelMemory → List MmuMapRequest → Option KernelMemory
  | m, [] => some m
  | m, request :: requests => do
    let m ← mapAndUnmap vmmData highestPhysicalAddress m request
    mapAndUnmapAll vmmData highestPhysicalAddress m requests

/-- A request that passes the assertions on the arguments. -/
structure MmuMapRequest.Valid (highestPhysicalAddress : Nat) (request : MmuMapRequest) : Prop where
  size_pos : request.size ≠ 0
  size_word : request.size + 2 * pageSize < qwordModulus
  present : alignAddressLower request.physicalAddress pageSize <
    ptrDiff highestPhysicalAddress request.alignedSize

def totalSize (requests : List MmuMapRequest) : Nat :=
  (requests.map MmuMapRequest.alignedSize).sum

/-- Virtual addresses that the kernel is handed, which neither wrap nor leave what is
translated. -/
structure AddressesLeft (pointer size : Nat) : Prop where
  aligned : isAddressAligned pointer pageSize = true
  nonzero : pointer ≠ 0
  word : pointer < qwordModulus
  no_wrap : pointer + size ≤ qwordModulus
  within : size ≤ 2 ^ 48

theorem MmuMapRequest.Valid.alignedSize_eq {highestPhysicalAddress : Nat}
    {request : MmuMapRequest} (h : request.Valid highestPhysicalAddress) :
    request.alignedSize ≠ 0 ∧ request.alignedSize % pageSize = 0 := by
  have hpos := h.size_pos
  have hword := h.size_word
  simp only [MmuMapRequest.alignedSize,alignAddressUpper,alignAddressLower,addressOffset,pageSize,
    qwordModulus] at hword ⊢
  have hoffset : request.physicalAddress % 4096 < 4096 := Nat.mod_lt _ (by decide)
  rw [Nat.mod_eq_of_lt (a := request.size + request.physicalAddress % 4096) (by omega),
    Nat.mod_eq_of_lt (by omega)]
  omega

theorem rangePaths_append (baseAddress count count' : Nat) :
    rangePaths baseAddress (count + count') =
      rangePaths baseAddress count ∪ rangePaths (pageAt baseAddress count) count' := by
  ext path
  simp only [rangePaths,Finset.mem_union,Finset.mem_biUnion,Finset.mem_range]
  constructor
  · intro hpath
    obtain ⟨k,hk,hpath⟩ := hpath
    by_cases hfirst : k < count
    · exact Or.inl ⟨k,hfirst,hpath⟩
    · right
      refine ⟨k - count,by omega,?_⟩
      have hpage : pageAt (pageAt baseAddress count) (k - count) = pageAt baseAddress k := by
        simp only [pageAt,pageSize]
        omega
      rw [hpage]
      exact hpath
  · intro hpath
    rcases hpath with ⟨k,hk,hpath⟩ | ⟨k,hk,hpath⟩
    · exact ⟨k,by omega,hpath⟩
    · refine ⟨count + k,by omega,?_⟩
      have hpage : pageAt (pageAt baseAddress count) k = pageAt baseAddress (count + k) := by
        simp only [pageAt]
        ring
      rw [← hpage]
      exact hpath

/-- The pool and the tables after the first `done` pages have been mapped and unmapped, of the
pages whose tables are `paths`. -/
private structure PoolRun (paths : Finset (List (Fin 512))) (start balance frames done : Nat)
    (m : KernelMemory) : Prop where
  walk : WalkInv paths m.memory m.pagingData
  pointer : m.space.freeVirtualAddressPointer = pageAt start done % qwordModulus
  balance : m.pagingData.currentIndex +
    (WalkState.missing ⟨m.memory,m.pagingData⟩ paths).card = balance
  frames : m.pagingData.numberOfFrames = frames
  covered : ∀ path ∈ rangePaths start done, path ∉ WalkState.missing ⟨m.memory,m.pagingData⟩ paths

section Runs

variable {start balance frames done highestPhysicalAddress : Nat} {m m' : KernelMemory}
  {mapped : MmuMapRequest}

private theorem request_range {size : Nat} (hleft : AddressesLeft start size)
    (hvalid : mapped.Valid highestPhysicalAddress)
    (hfits : done * pageSize + mapped.alignedSize ≤ size) :
    pageAt start done % qwordModulus = pageAt start done ∧
      PageRange (pageAt start done) mapped.alignedSize := by
  obtain ⟨hpos,haligned⟩ := hvalid.alignedSize_eq
  obtain ⟨hstart,hzero,_,hwrap,hwithin⟩ := hleft
  simp only [isAddressAligned,beq_iff_eq,pageAt,pageSize,qwordModulus] at *
  refine ⟨Nat.mod_eq_of_lt (by omega),⟨?_,?_,hpos,?_,?_,?_⟩⟩
  · simp only [isAddressAligned,beq_iff_eq,pageSize]
    omega
  · simp only [isAddressAligned,beq_iff_eq,pageSize]
    exact haligned
  · simp only [qwordModulus]
    omega
  · omega
  · omega

theorem mmuMapMemoryEx_eq {virtualAddress : Nat}
    (hrange : PageRange virtualAddress mapped.alignedSize)
    (hvalid : mapped.Valid highestPhysicalAddress)
    (hpointer : m.space.freeVirtualAddressPointer = virtualAddress) :
    mmuMapMemoryEx vmmData highestPhysicalAddress m mapped =
      (vmmMapMemoryInternal vmmData m.memory m.pagingData
        (alignAddressLower mapped.physicalAddress pageSize) mapped.alignedSize virtualAddress
        mapped.pageRights mapped.invalidate mapped.uncacheable).map fun s =>
          (virtualAddress + addressOffset mapped.physicalAddress pageSize,
            ⟨s.memory,s.context,{ m.space with
              freeVirtualAddressPointer := ptrOffset virtualAddress mapped.alignedSize }⟩) := by
  have hphysical : isAddressAligned (alignAddressLower mapped.physicalAddress pageSize) pageSize =
      true := by
    simp [isAddressAligned,alignAddressLower]
  have hoffset : ptrOffset virtualAddress (addressOffset mapped.physicalAddress pageSize) =
      virtualAddress + addressOffset mapped.physicalAddress pageSize := by
    have hwrap := hrange.no_wrap
    have hsize := hrange.size_aligned
    have hpos := hrange.nonempty
    simp only [isAddressAligned,beq_iff_eq,pageSize,qwordModulus] at hwrap hsize
    apply Nat.mod_eq_of_lt
    simp only [addressOffset,pageSize,qwordModulus]
    have := Nat.mod_lt mapped.physicalAddress (by decide : 0 < 4096)
    omega
  have hsize : assert (mapped.size != 0) = some () := by simp [hvalid.size_pos]
  have hpresent : assert (decide (alignAddressLower mapped.physicalAddress pageSize <
      ptrDiff highestPhysicalAddress mapped.alignedSize)) = some () := by
    simp [hvalid.present]
  simp only [mmuMapMemoryEx,vmmMapMemoryEx,vmReservationSpaceDetermineNextFreeVirtualAddress,hsize,
    hpresent,hphysical,hpointer,hrange.aligned,hrange.size_aligned,hrange.nonempty,
    assert_true,Option.bind_eq_bind,Option.bind_some,Bool.true_eq_false,if_false,or_self]
  cases vmmMapMemoryInternal vmmData m.memory m.pagingData
      (alignAddressLower mapped.physicalAddress pageSize) mapped.alignedSize virtualAddress
      mapped.pageRights mapped.invalidate mapped.uncacheable with
  | none => rfl
  | some s =>
    simp only [Option.bind_some,Option.map_some,hrange.not_page_zero,if_false,hoffset,
      Option.pure_def]

theorem mmuUnmapSystemMemory_eq {virtualAddress : Nat}
    (hrange : PageRange virtualAddress mapped.alignedSize)
    (hvalid : mapped.Valid highestPhysicalAddress) :
    mmuUnmapSystemMemory m (virtualAddress + addressOffset mapped.physicalAddress pageSize)
        mapped.size =
      (vmmUnmapMemoryEx m.memory ⟨m.pagingData.basePhysicalAddress⟩ virtualAddress
        (mapped.alignedSize % 2 ^ 32) false).map fun s => { m with memory := s.memory } := by
  have hzero := hrange.not_page_zero
  have hlower : alignAddressLower
      (virtualAddress + addressOffset mapped.physicalAddress pageSize) pageSize =
        virtualAddress := by
    have haligned := hrange.aligned
    simp only [isAddressAligned,beq_iff_eq,pageSize,alignAddressLower,addressOffset]
      at haligned ⊢
    omega
  have haddress : assert (virtualAddress + addressOffset mapped.physicalAddress pageSize != 0) =
      some () := by
    have hne : virtualAddress + addressOffset mapped.physicalAddress pageSize ≠ 0 := by omega
    rw [bne_iff_ne.mpr hne,assert_true]
  have hsize : assert (mapped.size != 0) = some () := by simp [hvalid.size_pos]
  have hdiff : virtualAddress + addressOffset mapped.physicalAddress pageSize - virtualAddress =
      addressOffset mapped.physicalAddress pageSize := by omega
  simp only [mmuUnmapSystemMemory,haddress,hsize,hlower,hdiff,Option.bind_eq_bind,
    Option.bind_some]
  change Option.bind (vmmUnmapMemoryEx m.memory _ virtualAddress (mapped.alignedSize % 2 ^ 32)
    false) _ = _
  cases vmmUnmapMemoryEx m.memory ⟨m.pagingData.basePhysicalAddress⟩ virtualAddress
      (mapped.alignedSize % 2 ^ 32) false <;> rfl

private theorem mapAndUnmap_cases {virtualAddress : Nat}
    (hrange : PageRange virtualAddress mapped.alignedSize)
    (hvalid : mapped.Valid highestPhysicalAddress)
    (hpointer : m.space.freeVirtualAddressPointer = virtualAddress)
    (h : mapAndUnmap vmmData highestPhysicalAddress m mapped = some m') :
    ∃ s s', vmmMapMemoryInternal vmmData m.memory m.pagingData
        (alignAddressLower mapped.physicalAddress pageSize) mapped.alignedSize virtualAddress
        mapped.pageRights mapped.invalidate mapped.uncacheable = some s ∧
      vmmUnmapMemoryEx s.memory ⟨s.context.basePhysicalAddress⟩ virtualAddress
        (mapped.alignedSize % 2 ^ 32) false = some s' ∧
      m' = ⟨s'.memory,s.context,{ m.space with
        freeVirtualAddressPointer := ptrOffset virtualAddress mapped.alignedSize }⟩ := by
  rw [mapAndUnmap,mmuMapMemoryEx_eq hrange hvalid hpointer] at h
  obtain ⟨⟨pointer,m₁⟩,hmap,h⟩ := Option.bind_eq_some_iff.mp h
  obtain ⟨s,hs,heq⟩ := Option.map_eq_some_iff.mp hmap
  obtain ⟨hpointer,hm₁⟩ := Prod.mk.inj heq
  obtain ⟨_,_,h⟩ := Option.bind_eq_some_iff.mp h
  rw [← hpointer,mmuUnmapSystemMemory_eq hrange hvalid] at h
  obtain ⟨s',hs',hm'⟩ := Option.map_eq_some_iff.mp h
  rw [← hm₁] at hs' hm'
  exact ⟨s,s',hs,hs',hm'.symm⟩

private theorem truncated_range {virtualAddress size : Nat} (hrange : PageRange virtualAddress size)
    (hpos : size % 2 ^ 32 ≠ 0) : PageRange virtualAddress (size % 2 ^ 32) := by
  obtain ⟨haligned,hsize,hne,hwrap,hzero,hwithin⟩ := hrange
  have hle : size % 2 ^ 32 ≤ size := Nat.mod_le _ _
  refine ⟨haligned,?_,hpos,by omega,hzero,by omega⟩
  simp only [isAddressAligned,beq_iff_eq,pageSize] at hsize ⊢
  omega

variable {size : Nat}

private theorem PoolRun.fields (h : PoolRun paths start balance frames done m)
    (hleft : AddressesLeft start size) (hvalid : mapped.Valid highestPhysicalAddress)
    (hfits : done * pageSize + mapped.alignedSize ≤ size) :
    m.space.freeVirtualAddressPointer = pageAt start done ∧
      PageRange (pageAt start done) mapped.alignedSize := by
  obtain ⟨hmod,hrange⟩ := request_range hleft hvalid hfits
  exact ⟨h.pointer.trans hmod,hrange⟩

private theorem PoolRun.next (h : PoolRun paths start balance frames done m)
    (hpaths : ∀ path ∈ paths, path.length ≤ 3) (hleft : AddressesLeft start size)
    (hvalid : mapped.Valid highestPhysicalAddress)
    (hfits : done * pageSize + mapped.alignedSize ≤ size)
    (hsub : rangePaths (pageAt start done) (mapped.alignedSize / pageSize) ⊆ paths)
    (hrun : mapAndUnmap vmmData highestPhysicalAddress m mapped = some m') :
    PoolRun paths start balance frames (done + mapped.alignedSize / pageSize) m' := by
  obtain ⟨hpointer,hrange⟩ := h.fields hleft hvalid hfits
  obtain ⟨s,s',hmap,hunmap,rfl⟩ := mapAndUnmap_cases hrange hvalid hpointer hrun
  have hmapped := vmmMapMemoryInternal_balanced (s := ⟨m.memory,m.pagingData⟩) hpaths hrange hsub
    h.walk hmap
  obtain ⟨hwalk,htables⟩ := vmmUnmapMemoryEx_tables hpaths hmapped.walk
    hmapped.walk.tree.wellFormed.cr3_table hunmap
  have hsame : WalkState.missing ⟨s'.memory,s.context⟩ paths = s.missing paths := by
    apply Finset.filter_congr
    intro path hpath
    rw [htables path (hpaths path hpath)]
  refine ⟨hwalk,?_,?_,?_,?_⟩
  · have hsize := hrange.size_aligned
    simp only [isAddressAligned,beq_iff_eq,pageSize,pageAt,ptrOffset] at hsize ⊢
    congr 1
    omega
  · rw [hsame]
    exact hmapped.balance.trans h.balance
  · rw [hmapped.pool]
    exact h.frames
  · intro path hpath
    rw [rangePaths_append] at hpath
    rw [hsame]
    rcases Finset.mem_union.mp hpath with hold | hnew
    · exact fun hmem => h.covered path hold (hmapped.missing hmem)
    · exact hmapped.covered path hnew

private theorem PoolRun.returns (vmmData : VmmData) (h : PoolRun paths start balance frames done m)
    (hpaths : ∀ path ∈ paths, path.length ≤ 3) (hleft : AddressesLeft start size)
    (hvalid : mapped.Valid highestPhysicalAddress)
    (hfits : done * pageSize + mapped.alignedSize ≤ size)
    (hsub : rangePaths (pageAt start done) (mapped.alignedSize / pageSize) ⊆ paths)
    (henough : balance ≤ frames) :
    ∃ m', mapAndUnmap vmmData highestPhysicalAddress m mapped = some m' := by
  obtain ⟨hpointer,hrange⟩ := h.fields hleft hvalid hfits
  have hframes : m.pagingData.currentIndex +
      (WalkState.missing ⟨m.memory,m.pagingData⟩ paths).card ≤ m.pagingData.numberOfFrames := by
    rw [h.balance,h.frames]
    exact henough
  have hphysical : isAddressAligned (alignAddressLower mapped.physicalAddress pageSize) pageSize =
      true := by
    simp [isAddressAligned,alignAddressLower]
  obtain ⟨s,hmap⟩ := vmmMapMemoryInternal_returns (s := ⟨m.memory,m.pagingData⟩) vmmData
    mapped.pageRights mapped.invalidate mapped.uncacheable hrange hsub h.walk hframes hphysical
  have hmapped := vmmMapMemoryInternal_balanced (s := ⟨m.memory,m.pagingData⟩) hpaths hrange hsub
    h.walk hmap
  have hunmap : ∃ s', vmmUnmapMemoryEx s.memory ⟨s.context.basePhysicalAddress⟩
      (pageAt start done) (mapped.alignedSize % 2 ^ 32) false = some s' := by
    by_cases hpos : mapped.alignedSize % 2 ^ 32 = 0
    · refine ⟨⟨s.memory,[]⟩,?_⟩
      rw [hpos]
      simp [vmmUnmapMemoryEx,hrange.not_page_zero,hrange.aligned]
    · have htruncated := truncated_range hrange hpos
      have hsmall : RangeHasNoLargePages s.memory s.context (pageAt start done)
          (mapped.alignedSize % 2 ^ 32) := by
        intro path offset table hin
        apply hmapped.walk.small path offset table
        apply hsub
        have hle : mapped.alignedSize % 2 ^ 32 / pageSize ≤ mapped.alignedSize / pageSize :=
          Nat.div_le_div_right (Nat.mod_le _ _)
        rw [← Nat.add_sub_cancel' hle,rangePaths_append]
        exact Finset.mem_union_left _ hin
      obtain ⟨s',hs',_⟩ := vmmUnmapMemoryEx_spec hmapped.walk.tree htruncated hsmall
        hmapped.walk.tree.wellFormed.cr3_table false
      exact ⟨s',hs'⟩
  obtain ⟨s',hs'⟩ := hunmap
  have hpointer' : pageAt start done + addressOffset mapped.physicalAddress pageSize ≠ 0 := by
    have := hrange.not_page_zero
    omega
  refine ⟨⟨s'.memory,s.context,{ m.space with
    freeVirtualAddressPointer := ptrOffset (pageAt start done) mapped.alignedSize }⟩,?_⟩
  rw [mapAndUnmap,mmuMapMemoryEx_eq hrange hvalid hpointer,hmap]
  simp only [Option.map_some,Option.bind_eq_bind,Option.bind_some,bne_iff_ne.mpr hpointer',
    assert_true]
  rw [mmuUnmapSystemMemory_eq hrange hvalid,hs']
  rfl

private theorem PoolRun.all (requests : List MmuMapRequest)
    (hpaths : ∀ path ∈ paths, path.length ≤ 3) (hleft : AddressesLeft start size)
    (hsub : rangePaths start (size / pageSize) ⊆ paths)
    (hvalid : ∀ request ∈ requests, request.Valid highestPhysicalAddress)
    (hfits : done * pageSize + totalSize requests ≤ size)
    (h : PoolRun paths start balance frames done m) :
    (∀ m', mapAndUnmapAll vmmData highestPhysicalAddress m requests = some m' →
      PoolRun paths start balance frames (done + totalSize requests / pageSize) m') ∧
    (balance ≤ frames →
      ∃ m', mapAndUnmapAll vmmData highestPhysicalAddress m requests = some m') := by
  induction requests generalizing done m with
  | nil =>
    refine ⟨?_,fun _ => ⟨m,rfl⟩⟩
    intro m' hm'
    rw [← Option.some.inj hm']
    exact h
  | cons request requests ih =>
    have hrequest := hvalid request List.mem_cons_self
    have haligned := hrequest.alignedSize_eq.2
    have htotal : totalSize (request :: requests) = request.alignedSize + totalSize requests := rfl
    rw [htotal] at hfits
    have hhead : done * pageSize + request.alignedSize ≤ size := by omega
    have hpages : request.alignedSize / pageSize * pageSize = request.alignedSize :=
      Nat.div_mul_cancel (Nat.dvd_of_mod_eq_zero haligned)
    have hrest : (done + request.alignedSize / pageSize) * pageSize + totalSize requests ≤ size := by
      rw [Nat.add_mul,hpages]
      omega
    have hinside : rangePaths (pageAt start done) (request.alignedSize / pageSize) ⊆ paths := by
      have hle : done + request.alignedSize / pageSize ≤ size / pageSize := by
        apply (Nat.le_div_iff_mul_le (by decide)).mpr
        rw [Nat.add_mul,hpages]
        exact hhead
      intro path hpath
      apply hsub
      rw [← Nat.add_sub_cancel' hle,rangePaths_append,rangePaths_append]
      exact Finset.mem_union_left _ (Finset.mem_union_right _ hpath)
    have hdone : done + request.alignedSize / pageSize + totalSize requests / pageSize =
        done + totalSize (request :: requests) / pageSize := by
      simp only [htotal,pageSize] at haligned ⊢
      omega
    constructor
    · intro m' hm'
      obtain ⟨m₁,hm₁,hm'⟩ := Option.bind_eq_some_iff.mp hm'
      have hnext := h.next hpaths hleft hrequest hhead hinside hm₁
      rw [← hdone]
      exact (ih (fun request hmem => hvalid request (List.mem_cons_of_mem _ hmem)) hrest hnext).1
        m' hm'
    · intro henough
      obtain ⟨m₁,hm₁⟩ := h.returns vmmData hpaths hleft hrequest hhead hinside henough
      have hnext := h.next hpaths hleft hrequest hhead hinside hm₁
      obtain ⟨m',hm'⟩ := (ih (fun request hmem => hvalid request (List.mem_cons_of_mem _ hmem)) hrest
        hnext).2 henough
      exact ⟨m',Option.bind_eq_some_iff.mpr ⟨m₁,hm₁,hm'⟩⟩

private theorem PoolRun.initial {requests : List MmuMapRequest}
    (htree : PagingTree m.memory m.pagingData)
    (hleft : AddressesLeft m.space.freeVirtualAddressPointer size)
    (hsmall : RangeHasNoLargePages m.memory m.pagingData m.space.freeVirtualAddressPointer
      (totalSize requests)) :
    PoolRun (rangePaths m.space.freeVirtualAddressPointer (totalSize requests / pageSize))
      m.space.freeVirtualAddressPointer
      (m.pagingData.currentIndex + (WalkState.missing ⟨m.memory,m.pagingData⟩
        (rangePaths m.space.freeVirtualAddressPointer (totalSize requests / pageSize))).card)
      m.pagingData.numberOfFrames 0 m where
  walk := ⟨htree,hsmall⟩
  pointer := by
    rw [pageAt,Nat.zero_mul,Nat.add_zero,Nat.mod_eq_of_lt hleft.word]
  balance := rfl
  frames := rfl
  covered path hpath := by
    simp [rangePaths] at hpath

variable {requests : List MmuMapRequest}

private theorem enough_of_returns (htree : PagingTree m.memory m.pagingData)
    (hleft : AddressesLeft m.space.freeVirtualAddressPointer (totalSize requests))
    (hsmall : RangeHasNoLargePages m.memory m.pagingData m.space.freeVirtualAddressPointer
      (totalSize requests))
    (hvalid : ∀ request ∈ requests, request.Valid highestPhysicalAddress)
    (hrun : mapAndUnmapAll vmmData highestPhysicalAddress m requests = some m') :
    EnoughFrames m.memory m.pagingData m.space.freeVirtualAddressPointer (totalSize requests) := by
  have hlast := ((PoolRun.initial htree hleft hsmall).all requests rangePaths_length hleft
    (Finset.Subset.refl _) hvalid (by omega)).1 m' hrun
  rw [Nat.zero_add] at hlast
  have hnone : WalkState.missing ⟨m'.memory,m'.pagingData⟩
      (rangePaths m.space.freeVirtualAddressPointer (totalSize requests / pageSize)) = ∅ := by
    apply Finset.eq_empty_of_forall_notMem
    intro path hpath
    exact hlast.covered path (Finset.mem_filter.mp hpath).1 hpath
  have hbalance := hlast.balance
  rw [hnone,Finset.card_empty,Nat.add_zero] at hbalance
  unfold EnoughFrames
  rw [← hlast.frames]
  exact hbalance.symm.trans_le hlast.walk.tree.wellFormed.used_le

/-- Ranges can be mapped and unmapped in turn exactly as long as the pool has the tables that
their addresses lacked at the start. -/
theorem map_and_unmap_all_iff (vmmData : VmmData) (highestPhysicalAddress : Nat)
    (m : KernelMemory) (requests : List MmuMapRequest) (htree : PagingTree m.memory m.pagingData)
    (hleft : AddressesLeft m.space.freeVirtualAddressPointer (totalSize requests))
    (hsmall : RangeHasNoLargePages m.memory m.pagingData m.space.freeVirtualAddressPointer
      (totalSize requests))
    (hvalid : ∀ request ∈ requests, request.Valid highestPhysicalAddress) :
    (mapAndUnmapAll vmmData highestPhysicalAddress m requests).isSome ↔
      EnoughFrames m.memory m.pagingData m.space.freeVirtualAddressPointer
        (totalSize requests) := by
  constructor
  · intro hsome
    obtain ⟨m',hrun⟩ := Option.isSome_iff_exists.mp hsome
    exact enough_of_returns htree hleft hsmall hvalid hrun
  · intro henough
    apply Option.isSome_iff_exists.mpr
    exact ((PoolRun.initial htree hleft hsmall).all requests rangePaths_length hleft
      (Finset.Subset.refl _) hvalid (by omega)).2 henough

end Runs

theorem card_rangePaths_ge (baseAddress count : Nat) (hcount : count ≤ 2 ^ 36) :
    count / 512 ≤ (rangePaths baseAddress count).card := by
  have hinjective : Set.InjOn (fun i => (tableOffsets (pageAt baseAddress (512 * i))).take 3)
      (Finset.range (count / 512)) := by
    intro i hi j hj heq
    simp only [Finset.coe_range,Set.mem_Iio] at hi hj
    simp only [tableOffsets,List.take_succ_cons,List.take_zero,List.cons.injEq,tableOffset,
      pagingTablesLastLevel,Fin.ext_iff,Fin.ofNat,and_true,pageAt,pageSize] at heq
    omega
  have himage : (Finset.range (count / 512)).image
      (fun i => (tableOffsets (pageAt baseAddress (512 * i))).take 3) ⊆
        rangePaths baseAddress count := by
    intro path hpath
    obtain ⟨i,hi,rfl⟩ := Finset.mem_image.mp hpath
    have hi := Finset.mem_range.mp hi
    exact mem_rangePaths (k := 512 * i) (by omega) (by simp [tableOffsets]) (by simp)
      (List.take_prefix _ _)
  calc count / 512 = (Finset.range (count / 512)).card := (Finset.card_range _).symm
    _ = _ := (Finset.card_image_of_injOn hinjective).symm
    _ ≤ _ := Finset.card_le_card himage

/-- A kernel with a pool of 2 MB, and nothing mapped from the bump pointer on. -/
def smallKernel (numberOfFrames : Nat) : KernelMemory where
  memory := emptyTables
  pagingData := ⟨0x1000000,numberOfFrames,1,true⟩
  space := ⟨0xFFFF850000000000,0xFFFF850000000000,0xFFFF810000000000,5 * 2 ^ 40,
    0xFFFF810000000000,0xFFFF800000000000,[]⟩

/-- One frame, as the worker that zeroes frames maps them. -/
def oneFrame : MmuMapRequest := ⟨0x2000000,pageSize,pageRightsReadWrite,false,false⟩

theorem oneFrame_valid : oneFrame.Valid 0x10000000 where
  size_pos := by decide
  size_word := by decide
  present := by decide

private theorem totalSize_replicate (count : Nat) :
    totalSize (List.replicate count oneFrame) = count * pageSize := by
  have haligned : oneFrame.alignedSize = pageSize := by decide
  simp [totalSize,haligned]

private theorem smallKernel_left {count : Nat} (hcount : count ≤ 2 ^ 30) :
    AddressesLeft 0xFFFF850000000000 (totalSize (List.replicate count oneFrame)) := by
  rw [totalSize_replicate]
  refine ⟨by decide,by decide,by decide,?_,?_⟩
  · simp only [pageSize,qwordModulus]
    omega
  · simp only [pageSize]
    omega

private theorem smallKernel_wellFormed {numberOfFrames : Nat} (hpos : 1 ≤ numberOfFrames)
    (hle : numberOfFrames ≤ 512) : (smallKernel numberOfFrames).pagingData.WellFormed where
  aligned := by simp [smallKernel,pageSize]
  bounded := by
    simp only [smallKernel,PagingData.frame,pageSize]
    omega
  frames_le := by
    simp only [smallKernel,maxDword,pageSize]
    omega
  root_used := by simp [smallKernel]
  used_le := hpos

theorem smallKernel_tree {numberOfFrames : Nat} (hpos : 1 ≤ numberOfFrames)
    (hle : numberOfFrames ≤ 512) :
    PagingTree (smallKernel numberOfFrames).memory (smallKernel numberOfFrames).pagingData :=
  (emptyTables_treeCondition (smallKernel_wellFormed hpos hle) rfl).toPagingTree

theorem smallKernel_small (numberOfFrames size : Nat) :
    RangeHasNoLargePages (smallKernel numberOfFrames).memory
      (smallKernel numberOfFrames).pagingData 0xFFFF850000000000 size := by
  intro path offset table _ _ hpresent
  cases hpresent

/-- Three frames in turn need one paging structure of each level. -/
theorem map_and_unmap_three :
    (mapAndUnmapAll ⟨0,3⟩ 0x10000000 (smallKernel 4) (List.replicate 3 oneFrame)).isSome ∧
      ¬(mapAndUnmapAll ⟨0,3⟩ 0x10000000 (smallKernel 3) (List.replicate 3 oneFrame)).isSome := by
  have hvalid : ∀ request ∈ List.replicate 3 oneFrame, request.Valid 0x10000000 := by
    intro request hmem
    rw [List.eq_of_mem_replicate hmem]
    exact oneFrame_valid
  constructor
  · apply (map_and_unmap_all_iff ⟨0,3⟩ 0x10000000 (smallKernel 4) _
      (smallKernel_tree (by decide) (by decide)) (smallKernel_left (by decide))
      (smallKernel_small _ _) hvalid).mpr
    unfold EnoughFrames
    decide +kernel
  · rw [map_and_unmap_all_iff ⟨0,3⟩ 0x10000000 (smallKernel 3) _
      (smallKernel_tree (by decide) (by decide)) (smallKernel_left (by decide))
      (smallKernel_small _ _) hvalid]
    unfold EnoughFrames
    decide +kernel

private theorem emptyTables_missing (root baseAddress count : Nat) :
    missingTables emptyTables root (rangePaths baseAddress count) = rangePaths baseAddress count := by
  apply Finset.filter_true_of_mem
  intro path hpath
  cases path with
  | nil =>
    simp only [rangePaths,Finset.mem_biUnion,Finset.mem_image,Finset.mem_Icc] at hpath
    obtain ⟨k,_,n,⟨hn,_⟩,hnil⟩ := hpath
    have hlen := congrArg List.length hnil
    simp at hlen
    omega
  | cons offset path => rfl

private theorem replicate_returns_none {count : Nat} (hcount : 2 ^ 18 ≤ count)
    (hle : count ≤ 2 ^ 30) :
    mapAndUnmapAll ⟨0,3⟩ 0x10000000 (smallKernel 512) (List.replicate count oneFrame) = none := by
  have hvalid : ∀ request ∈ List.replicate count oneFrame, request.Valid 0x10000000 := by
    intro request hmem
    rw [List.eq_of_mem_replicate hmem]
    exact oneFrame_valid
  cases hrun : mapAndUnmapAll ⟨0,3⟩ 0x10000000 (smallKernel 512) (List.replicate count oneFrame) with
  | none => rfl
  | some m' =>
    have henough := enough_of_returns (smallKernel_tree (by decide) (by decide))
      (smallKernel_left hle) (smallKernel_small _ _) hvalid hrun
    have hcard := card_rangePaths_ge 0xFFFF850000000000 count (by omega)
    rw [EnoughFrames,totalSize_replicate,Nat.mul_div_cancel _ (by decide)] at henough
    simp only [smallKernel,emptyTables_missing] at henough
    omega

theorem pool_used_up :
    mapAndUnmapAll ⟨0,3⟩ 0x10000000 (smallKernel 512) (List.replicate (2 ^ 18) oneFrame) = none :=
  replicate_returns_none le_rfl (by decide)

end Hal9000
