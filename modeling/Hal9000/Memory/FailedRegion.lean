import Hal9000.Memory.PagesRestored
import Hal9000.Memory.RegionBacking
import Hal9000.Memory.ReservationEntry

/-!
# Regions whose file cannot be read

`VmmAllocRegionEx` reads the file of a region after it has committed the range, and has mapped all
of its pages. If the read fails, the `__finally` block releases a reservation by the address of the
range, whether the call has made it or found it.
-/

namespace Hal9000

section Area

variable {reservationSize metadataBase reservationBase metadataSize base size : Nat}
  {space space' : VmmReservationSpace}

theorem reachable_area
    (h : (metadataSystem reservationSize metadataBase reservationBase
      metadataSize).Reachable space) :
    metadataBase ≠ 0 ∧ space.reservationList = metadataBase ∧
      space.reservedAreaSize = metadataSize := by
  obtain ⟨history,hrecorded⟩ :=
    TransitionSystem.ReachableUnder.exists_recording (pageEvents reservationSize) h
  obtain ⟨created,hcreated,-,heffects⟩ := reachable_effects hrecorded
  simp only [vmReservationSpaceInit,Option.bind_eq_bind,Option.bind_eq_some_iff] at hcreated
  obtain ⟨_,hbase,_,_,_,_,hcreated⟩ := hcreated
  refine ⟨bne_iff_ne.mp (assert_eq_some.mp hbase),?_⟩
  have hcreated := Option.some.inj hcreated
  clear hrecorded h
  simp only at heffects
  induction heffects with
  | refl =>
    rw [← hcreated]
    exact ⟨rfl,rfl⟩
  | move _ _ ih => exact ih
  | step _ hevent ih =>
    cases hevent with
    | reserve => exact ih
    | commit => exact ih
    | decommit => exact ih
    | release => exact ih

theorem alloc_bitmap_fits
    (h : (metadataSystem reservationSize metadataBase reservationBase metadataSize).Reachable space)
    {request : AllocRequest} (hreserve : request.allocType.reserve = true)
    (halloc : vmReservationSpaceAllocRegion reservationSize space request =
      some (.success,some (base,size),space')) :
    ReserveArguments base size ∧ space.freeBitmapAddress % pageSize = 0 ∧
      space.freeBitmapAddress ≠ 0 ∧
      space.freeBitmapAddress + bitmapBytes size ≤ metadataBase + metadataSize := by
  obtain ⟨hshape,-⟩ := reachable_arguments h
  obtain ⟨hbase,hlist,harea⟩ := reachable_area h
  obtain ⟨-,pointer,space₁,heffect,-⟩ := vmReservationSpaceAllocRegion_effect hshape halloc
  rw [hreserve] at heffect
  have heffect : Effect reservationSize { space with freeVirtualAddressPointer := pointer }
    (.reserve (base,size) request.rights request.uncacheable request.fileObject) space₁ := heffect
  cases heffect with
  | reserve hargs _ _ haligned hfits =>
    obtain ⟨hle,hend⟩ := checkBounds_eq_true.mp hfits
    simp only [hlist,harea] at hle hend
    exact ⟨hargs,haligned,by omega,by omega⟩

theorem pagesWalked_bitmap {buffer : Nat} (haligned : buffer % pageSize = 0)
    (hpages : size / pageSize ≤ maxDword) :
    pagesWalked buffer (bitmapPreinit (size / pageSize)).bufferSize = bitmapBytes size / pageSize ∧
      bitmapBytes size / pageSize * pageSize = bitmapBytes size := by
  simp only [pagesWalked,bitmapBytes,bitmapPreinit,addressOffset,alignAddressUpper,
    alignAddressLower,pageSize,maxDword,qwordModulus] at *
  omega

theorem pagesWalked_whole (hbase : base % pageSize = 0) (hsize : size % pageSize = 0) :
    pagesWalked base (size % 2 ^ 32) = size % 2 ^ 32 / pageSize := by
  simp only [pagesWalked,addressOffset,pageSize] at *
  omega

theorem bitmap_pages_lt (hsize : size % pageSize = 0) (hpages : size / pageSize ≤ maxDword)
    (h : size % 2 ^ 32 / pageSize < size / pageSize) :
    bitmapBytes size / pageSize < size / pageSize - size % 2 ^ 32 / pageSize := by
  simp only [bitmapBytes,bitmapPreinit,alignAddressUpper,alignAddressLower,
    pageSize,maxDword,qwordModulus] at *
  omega

end Area

section CleanUp

variable {Process : Type} [DecidableEq Process] {vmmData : VmmData} {reservationSize : Nat}
  {s s' : MemoryManager Process} {vaSpace pagingData : Option Process}

/-- The space without the reservation of an entry. -/
def VmmReservationSpace.released (space : VmmReservationSpace) (k : Nat) : VmmReservationSpace :=
  { space with
    entries := space.entries.set k vmmReservationZero }

/-- The unmappings of the `__finally` block: those of the bitmap, and then those of the region. -/
def MemoryManager.unmapRegion (s : MemoryManager Process) (process : Option Process)
    (r : VmmReservation) : Option (MemoryManager Process) := do
  let s ← vmUninitializeReservation s (some r)
  s.unmap process r.startVa (r.size % 2 ^ 32) true

/-- After a mapping, a call that fails releases the first reservation that contains the address,
which has to start there. -/
theorem vmmAllocRegionFinally_releases {locals : AllocLocals} (hfailed : locals.succeeded = false)
    (hbase : locals.baseAddress ≠ 0) (hpa : locals.pa ≠ 0)
    (hshape : ListShape reservationSize (s.space vaSpace)) :
    vmmAllocRegionFinally reservationSize s vaSpace pagingData locals = some (0,s') ↔
      ∃ k r, (s.space vaSpace).FirstCovering locals.baseAddress 1 k r ∧
        r.commitBitmap.bitmapBuffer % pageSize = 0 ∧ r.startVa = locals.baseAddress ∧
        (s.setSpace vaSpace ((s.space vaSpace).released k)).unmapRegion pagingData r = some s' := by
  simp only [vmmAllocRegionFinally,hfailed,Bool.false_eq_true,if_false,if_neg hbase,if_neg hpa,
    Option.bind_eq_bind,Option.bind_eq_some_iff,MemoryManager.unmapRegion]
  constructor
  · rintro ⟨⟨⟨alignedAddress,alignedSize⟩,uninitialized,space⟩,hfree,t,hunmapBitmap,_,haddress,t',
      hunmap,hs'⟩
    obtain ⟨k,r,hfirst,haligned,hresult⟩ :=
      (vmReservationSpaceFreeRegion_release hshape hbase).mp hfree
    obtain ⟨hrange,rfl,rfl⟩ := Prod.mk.inj hresult |>.imp id Prod.mk.inj
    obtain ⟨rfl,rfl⟩ := Prod.mk.inj hrange
    obtain rfl := (Prod.mk.inj (Option.some.inj hs')).2
    exact ⟨k,r,hfirst,haligned,beq_iff_eq.mp (assert_eq_some.mp haddress),t,hunmapBitmap,hunmap⟩
  · rintro ⟨k,r,hfirst,haligned,haddress,t,hunmapBitmap,hunmap⟩
    exact ⟨_,(vmReservationSpaceFreeRegion_release hshape hbase).mpr ⟨k,r,hfirst,haligned,rfl⟩,t,
      hunmapBitmap,(),assert_eq_some.mpr (beq_iff_eq.mpr haddress),s',hunmap,rfl⟩

end CleanUp

section Cleared

variable {Process : Type} [DecidableEq Process] {s s' : MemoryManager Process}
  {process : Option Process} {r : VmmReservation}

omit [DecidableEq Process] in
theorem MemoryManager.unmapRegion_keeps (h : s.unmapRegion process r = some s') :
    s'.space = s.space ∧ s'.pagingData = s.pagingData := by
  have hkeeps {t t' : MemoryManager Process} {other : Option Process} {address size : Nat}
      (hunmap : t.unmap other address size true = some t') :
      t'.space = t.space ∧ t'.pagingData = t.pagingData := by
    simp only [MemoryManager.unmap,Option.bind_eq_bind,Option.bind_eq_some_iff] at hunmap
    obtain ⟨_,_,_,_,ht'⟩ := hunmap
    obtain rfl := Option.some.inj ht'
    exact ⟨rfl,rfl⟩
  obtain ⟨t,hbitmap,hregion⟩ := Option.bind_eq_some_iff.mp h
  obtain ⟨hspace,hpaging⟩ := hkeeps hbitmap
  obtain ⟨hspace',hpaging'⟩ := hkeeps hregion
  exact ⟨hspace'.trans hspace,hpaging'.trans hpaging⟩

omit [DecidableEq Process] in
theorem MemoryManager.unmapRegion_cleared (hforest : PagingForest s.memory s.pagingData)
    (hbuffer : r.commitBitmap.bitmapBuffer % pageSize = 0)
    (hbuffer' : r.commitBitmap.bitmapBuffer ≠ 0)
    (hstart : r.startVa % pageSize = 0) (hstart' : r.startVa ≠ 0)
    (h : s.unmapRegion process r = some s') :
    WindowCleared s.roots s.memory process none r.startVa
        (pagesWalked r.startVa (r.size % 2 ^ 32)) r.commitBitmap.bitmapBuffer
        (pagesWalked r.commitBitmap.bitmapBuffer r.commitBitmap.bufferSize) s'.memory ∧
      ∀ k < pagesWalked r.commitBitmap.bitmapBuffer r.commitBitmap.bufferSize,
        s.memory.leafAt (s.roots none) (tableOffsets (walkAddress r.commitBitmap.bitmapBuffer k)) ≠
          none → ∃ page : PageEntry,
            page.Of s.memory (s.roots none) (walkAddress r.commitBitmap.bitmapBuffer k) := by
  have hlower {address : Nat} (haligned : address % pageSize = 0) :
      alignAddressLower address pageSize = address := by
    simp only [alignAddressLower,pageSize] at haligned ⊢
    omega
  obtain ⟨t,hbitmap,hregion⟩ := Option.bind_eq_some_iff.mp h
  have hbitmap : s.unmap none r.commitBitmap.bitmapBuffer r.commitBitmap.bufferSize true = some t :=
    hbitmap
  have hkept := MemoryManager.unmap_kept hforest hbitmap
  obtain ⟨memory',hunmapped,rfl⟩ := MemoryManager.unmap_pages hforest
    (by rwa [hlower hbuffer]) hbitmap
  have hkept' := MemoryManager.unmap_kept hunmapped.forest hregion
  obtain ⟨memory₂,hunmapped',rfl⟩ := MemoryManager.unmap_pages hunmapped.forest
    (by rwa [hlower hstart]) hregion
  rw [hlower hbuffer] at hunmapped
  rw [hlower hstart] at hunmapped'
  refine ⟨hunmapped.cleared hunmapped' hkept hkept',fun k hk hleaf => ?_⟩
  obtain ⟨leaf,hleaf⟩ := Option.ne_none_iff_exists'.mp hleaf
  have hmapped : mappedTo s.memory (s.roots none) (walkAddress r.commitBitmap.bitmapBuffer k) =
      some leaf.1.physicalAddress := by
    rw [mappedTo,hleaf]
    rfl
  obtain ⟨page,-,hof,-⟩ := hunmapped.mapped k _ (Nat.zero_le k) hk hmapped
  exact ⟨page,hof⟩

omit [DecidableEq Process] in
theorem MemoryManager.unmapRegion_returns (hforest : PagingForest s.memory s.pagingData)
    {m b : Nat} (hm : m = pagesWalked r.startVa (r.size % 2 ^ 32))
    (hb : b = pagesWalked r.commitBitmap.bitmapBuffer r.commitBitmap.bufferSize)
    (hbuffer : r.commitBitmap.bitmapBuffer % pageSize = 0)
    (hbuffer' : r.commitBitmap.bitmapBuffer ≠ 0)
    (hsize : r.commitBitmap.bufferSize ≠ 0)
    (hends : r.commitBitmap.bitmapBuffer + b * pageSize ≤ qwordModulus)
    (hstart : r.startVa % pageSize = 0) (hstart' : r.startVa ≠ 0) (hsize' : r.size % 2 ^ 32 ≠ 0)
    (hends' : r.startVa + m * pageSize ≤ qwordModulus)
    (hbitmap : s.Unmappable none r.commitBitmap.bitmapBuffer b)
    (hregion : ∀ k < m, ∃ page : PageEntry, page.Of s.memory (s.roots process)
        (walkAddress r.startVa k) ∧ ∀ entry, PageEntry.Holds s.memory s.roots page entry →
      entry.physicalAddress % pageSize = 0) :
    ∃ s', s.unmapRegion process r = some s' := by
  subst hm
  subst hb
  obtain ⟨t,ht⟩ := MemoryManager.unmap_returns hforest hbuffer hbuffer' hsize hends hbitmap
  have hlower : alignAddressLower r.commitBitmap.bitmapBuffer pageSize =
      r.commitBitmap.bitmapBuffer := by
    simp only [alignAddressLower,pageSize] at hbuffer ⊢
    omega
  obtain ⟨memory',hunmapped,ht'⟩ := MemoryManager.unmap_pages hforest (by rwa [hlower]) ht
  generalize (if true then releasedFrames s.memory (s.roots none) _ 0 _ else []) = queued at ht'
  subst ht'
  have hregion' : (s.setUnmapped memory' queued).Unmappable process r.startVa
      (pagesWalked r.startVa (r.size % 2 ^ 32)) := by
    intro k hk entry levels hleaf
    obtain ⟨page,hof,haligned⟩ := hregion k hk
    have hof' : page.Of memory' (s.roots process) (walkAddress r.startVa k) :=
      hof.congr fun path table hlength htable =>
        (hunmapped.tables process path hlength).trans htable
    have hleaf : memory'.leafAt (s.roots process) (tableOffsets (walkAddress r.startVa k)) =
        some (entry,levels) := hleaf
    rw [hof'.leafAt] at hleaf
    by_cases hpresent : (memory' page.table page.offset).present = true
    · rw [if_pos hpresent] at hleaf
      obtain ⟨rfl,rfl⟩ := Prod.mk.inj (Option.some.inj hleaf)
      have hold : PageEntry.Holds memory' s.roots page (memory' page.table page.offset) :=
        ⟨hof'.length,⟨process,hof'.table⟩,rfl,hpresent⟩
      exact ⟨rfl,haligned _ ((hunmapped.entries page _).mp hold).1⟩
    · rw [if_neg hpresent] at hleaf
      cases hleaf
  obtain ⟨s',hs'⟩ :=
    MemoryManager.unmap_returns hunmapped.forest hstart hstart' hsize' hends' hregion'
  exact ⟨s',Option.bind_eq_some_iff.mpr ⟨_,ht,hs'⟩⟩

end Cleared

section Region

variable {Process : Type} [DecidableEq Process] {vmmData : VmmData}
  {s s' : MemoryManager Process} {process : Option Process} {base size pa : Nat} {bitmap : Bitmap}
  {rights : PageRights} {uncacheable : Bool} {mapped : WalkState PagingData}

theorem MemoryManager.Start.window (hs : s.Start) (hbase : base < qwordModulus)
    (hframes : size / pageSize ≤ maxDword)
    (hreserve : pmmReserveMemory s.allocationBitmap (size / pageSize) = (pa,bitmap)) (hpa : pa ≠ 0)
    (hmap : mmuMapMemoryInternal vmmData s.memory (s.pagingData process) pa size rights base true
      uncacheable = some mapped) :
    ∃ entryAt, ForestRangeMapped s.pagingData s.memory process entryAt base 0 (size / pageSize)
        mapped.memory mapped.context ∧
      LeavesShared s.pagingData s.memory process base 0 (size / pageSize) mapped.memory ∧
      ∀ k < size / pageSize, (entryAt (walkAddress base k)).physicalAddress % pageSize = 0 ∧
        ∀ page, ¬PageEntry.Holds s.memory s.roots page (entryAt (walkAddress base k)) := by
  obtain ⟨index,hscan,rfl,-⟩ := (pmmReserveMemory_cases hreserve).resolve_left fun hnull =>
    hpa hnull.1
  obtain ⟨hbound,hclear⟩ := bitmapScanFrom_some hscan
  simp only [mmuMapMemoryInternal,Option.bind_eq_bind,Option.bind_eq_some_iff] at hmap
  obtain ⟨_,_,_,_,_,_,_,haligned,hmap⟩ := hmap
  have hsize : size ≤ 2 ^ 48 := by
    unfold maxDword pageSize at hframes
    omega
  obtain ⟨hm,hshared⟩ := vmmMapMemoryInternal_shared vmmData hs.forest process
    (assert_eq_some.mp haligned) hsize (Or.inl rfl) hmap
  refine ⟨_,hm,hshared,fun k hk => ?_⟩
  have hle := hs.frames_le
  rw [mapEntry_frame hbase (by omega)]
  refine ⟨Nat.mul_mod_left _ _,fun page hold => ?_⟩
  have hfree : s.HasRole (index + k) .free := ⟨by omega,hclear k hk⟩
  have hmapped : s.HasRole (index + k) (.mapped page) :=
    ⟨_,hold,mapEntry_frame hbase (by omega)⟩
  have hsame := (hs.frameInv.conserves (index + k) hfree).eq hfree hmapped
  cases hsame

omit [DecidableEq Process] in
theorem mapped_page_aligned {memory₁ : PhysicalMemory} {context : PagingData}
    {entryAt : Nat → PtEntry} {n j : Nat} {page : PageEntry} {entry : PtEntry} [DecidableEq Process]
    (hm : ForestRangeMapped s.pagingData s.memory process entryAt base 0 n memory₁ context)
    (hframes : ∀ k < n, (entryAt (walkAddress base k)).physicalAddress % pageSize = 0) (hj : j < n)
    (hof : page.Of memory₁ (s.roots process) (walkAddress base j))
    (hold : PageEntry.Holds memory₁ s.roots page entry) : entry.physicalAddress % pageSize = 0 := by
  rcases (hm.entries page entry).mp hold with ⟨k,-,hk,-,rfl⟩ | ⟨hnot,-⟩
  · exact hframes k hk
  · exact absurd hof (hnot j (Nat.zero_le j) hj)

/-- A reservation whose pages have just been mapped is unmapped: all is as it was before, if it is
smaller than 4 GB, and neither its pages nor those of its bitmap were mapped. -/
theorem unmapRegion_restores_iff {t : MemoryManager Process} {r : VmmReservation}
    {entryAt : Nat → PtEntry} {context : PagingData}
    (hm : ForestRangeMapped s.pagingData s.memory process entryAt r.startVa 0 (r.size / pageSize)
      t.memory context)
    (hpaging : t.pagingData = Function.update s.pagingData process context)
    (hshared : LeavesShared s.pagingData s.memory process r.startVa 0 (r.size / pageSize) t.memory)
    (hframes : ∀ k < r.size / pageSize,
      (entryAt (walkAddress r.startVa k)).physicalAddress % pageSize = 0 ∧
        ∀ page, ¬PageEntry.Holds s.memory s.roots page (entryAt (walkAddress r.startVa k)))
    (hrange : PageRange r.startVa r.size) (hpages : r.size / pageSize ≤ maxDword)
    (hbits : r.commitBitmap.bufferSize = (bitmapPreinit (r.size / pageSize)).bufferSize)
    (hbuffer : r.commitBitmap.bitmapBuffer % pageSize = 0)
    (hbuffer' : r.commitBitmap.bitmapBuffer ≠ 0)
    (hends : r.commitBitmap.bitmapBuffer + bitmapBytes r.size ≤ qwordModulus) :
    (∃ s', t.unmapRegion process r = some s' ∧ SameLeaves s.roots s.memory s'.memory) ↔
      r.size < 2 ^ 32 ∧ s.PagesAbsent process r.startVa r.size ∧
        s.PagesAbsent none r.commitBitmap.bitmapBuffer (bitmapBytes r.size) := by
  have hstart : r.startVa % pageSize = 0 := beq_iff_eq.mp hrange.aligned
  have hwhole : r.size % pageSize = 0 := beq_iff_eq.mp hrange.size_aligned
  have hroots : t.roots = s.roots := by
    rw [MemoryManager.roots,hpaging]
    exact rootsOf_update hm.pool
  have hforest : PagingForest t.memory t.pagingData := hpaging ▸ hm.forest
  obtain ⟨hb,hbytes⟩ := pagesWalked_bitmap hbuffer hpages
  rw [← hbits] at hb
  have hwalked := pagesWalked_whole hstart hwhole
  have hle : r.size % 2 ^ 32 / pageSize ≤ r.size / pageSize :=
    Nat.div_le_div_right (Nat.mod_le _ _)
  have hmany : r.size / pageSize ≤ 2 ^ 36 := by
    unfold maxDword at hpages
    omega
  have hsmall : r.size % 2 ^ 32 / pageSize = r.size / pageSize ↔ r.size < 2 ^ 32 := by
    simp only [pageSize] at hwhole ⊢
    omega
  have hcleared {s' : MemoryManager Process} (h : t.unmapRegion process r = some s') :
      SameLeaves s.roots s.memory s'.memory ↔ r.size < 2 ^ 32 ∧
        s.PagesAbsent process r.startVa r.size ∧
          s.PagesAbsent none r.commitBitmap.bitmapBuffer (bitmapBytes r.size) := by
    obtain ⟨hwindow,hseen⟩ :=
      MemoryManager.unmapRegion_cleared hforest hbuffer hbuffer' hstart hrange.not_page_zero h
    rw [hroots,hwalked,hb] at hwindow
    rw [hroots,hb] at hseen
    rw [← hsmall]
    exact pages_restored_iff hm hshared hwindow hrange.aligned hmany hle
      (bitmap_pages_lt hwhole hpages) (fun k hk => (hframes k hk).2) hseen
  constructor
  · rintro ⟨s',h,hsame⟩
    exact (hcleared h).mp hsame
  · rintro ⟨hless,habsent,habsent'⟩
    have hmod : r.size % 2 ^ 32 = r.size := Nat.mod_eq_of_lt hless
    have hbytes' : r.size / pageSize * pageSize = r.size := by
      simp only [pageSize] at hwhole ⊢
      omega
    obtain ⟨s',hs'⟩ : ∃ s', t.unmapRegion process r = some s' := by
      refine MemoryManager.unmapRegion_returns hforest rfl rfl hbuffer hbuffer' ?_ ?_ hstart
        hrange.not_page_zero ?_ ?_ ?_ ?_
      · have hne := hrange.nonempty
        rw [hbits]
        simp only [bitmapPreinit,pageSize] at hwhole ⊢
        omega
      · rwa [hb,hbytes]
      · rw [hmod]
        exact hrange.nonempty
      · rw [hwalked,hmod,hbytes']
        exact hrange.no_wrap
      · rw [hb]
        intro k hk entry levels hleaf
        rw [hroots] at hleaf
        rcases hshared none (tableOffsets (walkAddress r.commitBitmap.bitmapBuffer k)) rfl with
          hsame | ⟨-,j,page,-,hj,hpath,hof,hof'⟩
        · rw [hsame,habsent' k hk] at hleaf
          cases hleaf
        · rw [hpath,hof'.leafAt] at hleaf
          by_cases hpresent : (t.memory page.table page.offset).present = true
          · rw [if_pos hpresent] at hleaf
            obtain ⟨rfl,rfl⟩ := Prod.mk.inj (Option.some.inj hleaf)
            exact ⟨rfl,mapped_page_aligned hm (fun k hk => (hframes k hk).1) hj hof
              ⟨hof.length,⟨process,hof.table⟩,rfl,hpresent⟩⟩
          · rw [if_neg hpresent] at hleaf
            cases hleaf
      · intro k hk
        rw [hwalked,hmod] at hk
        obtain ⟨page,hof⟩ := hm.mapped k (Nat.zero_le k) hk
        rw [hroots]
        exact ⟨page,hof,fun entry hold =>
          mapped_page_aligned hm (fun k hk => (hframes k hk).1) hk hof hold⟩
    exact ⟨s',hs',(hcleared hs').mpr ⟨hless,habsent,habsent'⟩⟩

end Region

section Failed

variable {Process : Type} [DecidableEq Process] {vmmData : VmmData}
  {reservationSize metadataBase reservationBase metadataSize : Nat}
  {s s' s₁ : MemoryManager Process} {vaSpace pagingData : Option Process} {request : BackedRequest}
  {fileRead : Option Nat} {locals : AllocLocals}

/-- All address spaces have the reservations they had, with the same commit bits, and see the pages
they saw. -/
structure MemoryManager.Restored (s s' : MemoryManager Process) : Prop where
  live : ∀ other i r, (s'.space other).Live i r ↔ (s.space other).Live i r
  pages : ∀ other virtualAddress, s'.memory.leafAt (s'.roots other) (tableOffsets virtualAddress) =
    s.memory.leafAt (s.roots other) (tableOffsets virtualAddress)

/-- A range that was reserved by the call itself, in an entry ahead of all reservations that contain
its start. It is smaller than 4 GB, and neither its pages nor those of its bitmap were mapped. -/
structure CleanUpFits (reservationSize : Nat) (s : MemoryManager Process)
    (vaSpace pagingData : Option Process) (request : BackedRequest) (base size : Nat) : Prop where
  reserve : request.region.allocType.reserve = true
  front : ∀ k, (s.space vaSpace).FirstFree reservationSize k → ∀ i < k, ∀ r,
    (s.space vaSpace).Live i r → ¬r.Contains base
  small : size < 2 ^ 32
  pages : s.PagesAbsent pagingData base size
  bitmap : s.PagesAbsent none (s.space vaSpace).freeBitmapAddress (bitmapBytes size)

/-- The reservation released is the new one if and only if those ahead of it do not contain the
address. -/
theorem firstCovering_new {space space' : VmmReservationSpace} {k j base : Nat}
    {new r : VmmReservation}
    (hlive : ∀ i r, space'.Live i r ↔ i = k ∧ r = new ∨ i ≠ k ∧ space.Live i r)
    (hcovers : new.Contains base) (hvacant : ∀ old, ¬space.Live j old) :
    space'.FirstCovering base 1 j r ↔
      j = k ∧ r = new ∧ ∀ i < k, ∀ r, space.Live i r → ¬r.Contains base := by
  constructor
  · intro h
    rcases (hlive j r).mp h.live with ⟨rfl,rfl⟩ | ⟨-,hold⟩
    · refine ⟨rfl,rfl,fun i hi r' hr' hin => ?_⟩
      have hout := h.first i r' hi ((hlive i r').mpr (Or.inr ⟨hi.ne,hr'⟩))
      rw [VmmReservation.Contains,hout] at hin
      cases hin
    · exact absurd hold (hvacant r)
  · rintro ⟨rfl,rfl,hfront⟩
    refine ⟨(hlive j r).mpr (Or.inl ⟨rfl,rfl⟩),hcovers,fun i r' hi hr' => ?_⟩
    have hold := ((hlive i r').mp hr').resolve_left (fun h => hi.ne h.1) |>.2
    exact Bool.eq_false_iff.mpr (hfront i hi r' hold)

omit [DecidableEq Process] in
theorem commit_old {space space' : VmmReservationSpace} (hshape : ListShape reservationSize space)
    {request : AllocRequest} (hreserve : request.allocType.reserve = false) {range : Nat × Nat}
    (halloc : vmReservationSpaceAllocRegion reservationSize space request =
      some (.success,some range,space')) {k : Nat} {r : VmmReservation} (hr : space'.Live k r) :
    ∃ old, space.Live k old := by
  obtain ⟨-,pointer,space₁,hnone,hcommit⟩ := vmReservationSpaceAllocRegion_effect hshape halloc
  rw [hreserve] at hnone
  obtain rfl : space₁ = { space with freeVirtualAddressPointer := pointer } := hnone
  cases hflag : request.allocType.commit with
  | false =>
    rw [hflag] at hcommit
    obtain rfl : space' = { space with freeVirtualAddressPointer := pointer } := hcommit
    exact ⟨r,hr⟩
  | true =>
    rw [hflag] at hcommit
    have hcommit : Effect reservationSize { space with freeVirtualAddressPointer := pointer }
      (.commit range) space' := hcommit
    cases hcommit with
    | @commit _ interval j r' hlive _ _ =>
      rcases (live_rewrite hlive (by exact hlive.2) rfl k r).mp hr with ⟨rfl,-⟩ | ⟨-,hold⟩
      · exact ⟨r',hlive⟩
      · exact ⟨r,hold⟩

theorem live_update {spaces : Option Process → VmmReservationSpace} {space : VmmReservationSpace}
    (h : ∀ i r, space.Live i r ↔ (spaces vaSpace).Live i r) (other : Option Process) (i : Nat)
    (r : VmmReservation) :
    (Function.update spaces vaSpace space other).Live i r ↔ (spaces other).Live i r := by
  by_cases hother : other = vaSpace
  · subst hother
    rw [Function.update_self]
    exact h i r
  · rw [Function.update_of_ne hother]

theorem live_released_new {space space' : VmmReservationSpace} {k : Nat} {new : VmmReservation}
    (hlive : ∀ i r, space'.Live i r ↔ i = k ∧ r = new ∨ i ≠ k ∧ space.Live i r)
    (hvacant : ∀ old, ¬space.Live k old) (i : Nat) (r : VmmReservation) :
    (space'.released k).Live i r ↔ space.Live i r := by
  rw [live_release ((hlive k new).mpr (Or.inl ⟨rfl,rfl⟩)) rfl i r,hlive i r]
  constructor
  · rintro ⟨hne,⟨heq,-⟩ | ⟨-,hold⟩⟩
    · exact absurd heq hne
    · exact hold
  · intro hold
    have hne : i ≠ k := by
      rintro rfl
      exact hvacant r hold
    exact ⟨hne,Or.inr ⟨hne,hold⟩⟩

theorem released_vacant {k : Nat} {r : VmmReservation} (hlive : (s₁.space vaSpace).Live k r)
    (hunmap : (s₁.setSpace vaSpace ((s₁.space vaSpace).released k)).unmapRegion pagingData r =
      some s')
    (hrestored : s.Restored s') (old : VmmReservation) : ¬(s.space vaSpace).Live k old := by
  intro hold
  have hkept := (hrestored.live vaSpace k old).mpr hold
  obtain ⟨hspaces,-⟩ := MemoryManager.unmapRegion_keeps hunmap
  rw [hspaces] at hkept
  change (Function.update s₁.space vaSpace _ vaSpace).Live k old at hkept
  rw [Function.update_self] at hkept
  exact ((live_release hlive rfl k old).mp hkept).1 rfl

private theorem failed_read_restored_iff {base size pa : Nat} {space : VmmReservationSpace}
    {bitmap : Bitmap} {mapped : WalkState PagingData} (hs : s.Start)
    (hspace : (metadataSystem reservationSize metadataBase reservationBase metadataSize).Reachable
      (s.space vaSpace)) (hfits : metadataBase + metadataSize < qwordModulus)
    (htype : request.region.allocType = ⟨true,true⟩)
    (halloc : vmReservationSpaceAllocRegion reservationSize (s.space vaSpace)
      request.allocRequest = some (.success,some (base,size),space))
    (hframes : size / pageSize ≤ maxDword)
    (hreserved : pmmReserveMemory s.allocationBitmap (size / pageSize) = (pa,bitmap)) (hpa : pa ≠ 0)
    (hmap : mmuMapMemoryInternal vmmData s.memory (s.pagingData pagingData) pa size
      request.region.rights base true request.region.uncacheable = some mapped) :
    (∃ s', vmmAllocRegionFinally reservationSize
        ((s.setSpace vaSpace space).setReserved pagingData bitmap mapped) vaSpace pagingData
          ⟨false,base,size,pa⟩ = some (0,s') ∧ s.Restored s') ↔
      CleanUpFits reservationSize s vaSpace pagingData request base size := by
  obtain ⟨hshape,-⟩ := reachable_arguments hspace
  obtain ⟨-,hword⟩ :=
    vmReservationSpaceAllocRegion_range request.region.base_lt (hs.pointers vaSpace) halloc
  obtain ⟨-,hword⟩ := hword _ rfl
  have hsize : size ≤ 2 ^ 48 := by
    unfold maxDword pageSize at hframes
    omega
  obtain ⟨hrange,-⟩ := mmuMapMemoryInternal_range (s := ⟨s.memory,s.pagingData pagingData⟩) hword
    hsize hmap
  obtain ⟨entryAt,hm,hshared,hentries⟩ := hs.window hword hframes hreserved hpa hmap
  have hreserve : request.allocRequest.allocType.reserve = true := by
    rw [BackedRequest.allocRequest,RegionRequest.allocRequest,htype]
  obtain ⟨-,hbuffer,hbuffer',hends⟩ := alloc_bitmap_fits hspace hreserve halloc
  obtain ⟨-,k,hk,hshape',hvacant,-,hlive⟩ := alloc_makes_reservation hshape htype halloc
  obtain ⟨s₁,hs₁⟩ : ∃ s₁, s₁ = (s.setSpace vaSpace space).setReserved pagingData bitmap mapped :=
    ⟨_,rfl⟩
  rw [← hs₁]
  obtain ⟨t,ht⟩ : ∃ t, t = s₁.setSpace vaSpace (space.released k) := ⟨_,rfl⟩
  have hself : s₁.space vaSpace = space := by
    rw [hs₁]
    exact Function.update_self _ _ _
  have hmemory : t.memory = mapped.memory := by
    rw [ht,hs₁]
    rfl
  have hpaging : t.pagingData = Function.update s.pagingData pagingData mapped.context := by
    rw [ht,hs₁]
    rfl
  have hspaces : t.space = Function.update s.space vaSpace (space.released k) := by
    rw [ht,hs₁]
    exact Function.update_idem _ _ _
  have hroots {s' : MemoryManager Process} (hpaging' : s'.pagingData = t.pagingData) :
      s'.roots = s.roots := by
    rw [MemoryManager.roots,hpaging',hpaging]
    exact rootsOf_update hm.pool
  obtain ⟨new,hnew⟩ : ∃ new, new = committedReservation (s.space vaSpace) request.allocRequest
    (base,size) := ⟨_,rfl⟩
  have hstart : new.startVa = base := by rw [hnew]; rfl
  have hlength : new.size = size := by rw [hnew]; rfl
  have haddress : new.commitBitmap.bitmapBuffer = (s.space vaSpace).freeBitmapAddress := by
    rw [hnew]
    rfl
  have hbits : new.commitBitmap.bufferSize = (bitmapPreinit (new.size / pageSize)).bufferSize := by
    rw [hnew]
    rfl
  rw [← hnew] at hlive
  have hcovers : new.Contains base := by
    have hpositive := hrange.nonempty
    rw [VmmReservation.Contains,checkBounds_eq_true,hstart,hlength]
    omega
  have hunmapped : (∃ s', t.unmapRegion pagingData new = some s' ∧
      SameLeaves s.roots s.memory s'.memory) ↔ size < 2 ^ 32 ∧ s.PagesAbsent pagingData base size ∧
        s.PagesAbsent none (s.space vaSpace).freeBitmapAddress (bitmapBytes size) := by
    rw [← hstart,← hlength,← hmemory] at hm hshared
    rw [← hstart,← hlength] at hentries hrange
    rw [← hlength] at hframes
    rw [unmapRegion_restores_iff hm hpaging hshared hentries hrange hframes hbits
      (by rwa [haddress]) (by rwa [haddress]) (by rw [haddress,hlength]; omega),
      hstart,hlength,haddress]
  have hfinally (s' : MemoryManager Process) : vmmAllocRegionFinally reservationSize s₁ vaSpace
      pagingData ⟨false,base,size,pa⟩ = some (0,s') ↔ _ :=
    vmmAllocRegionFinally_releases rfl (by exact hrange.not_page_zero) hpa (hself ▸ hshape')
  simp only [hfinally,hself]
  constructor
  · rintro ⟨s',⟨j,r,hfirst,-,-,hunmap⟩,hrestored⟩
    obtain ⟨hspaces',hpaging'⟩ := MemoryManager.unmapRegion_keeps hunmap
    have hvacant' := released_vacant (hself.symm ▸ hfirst.live) (hself.symm ▸ hunmap) hrestored
    obtain ⟨rfl,rfl,hfront⟩ := (firstCovering_new hlive hcovers hvacant').mp hfirst
    rw [← ht] at hunmap hpaging'
    have hsame : SameLeaves s.roots s.memory s'.memory := hroots hpaging' ▸ hrestored.pages
    obtain ⟨hless,habsent,habsent'⟩ := hunmapped.mp ⟨s',hunmap,hsame⟩
    refine ⟨hreserve,fun k' hk' => ?_,hless,habsent,habsent'⟩
    obtain rfl : j = k' := Option.some.inj (hk.symm.trans hk')
    exact hfront
  · intro hfit
    obtain ⟨s',hunmap,hsame⟩ := hunmapped.mpr ⟨hfit.small,hfit.pages,hfit.bitmap⟩
    obtain ⟨hspaces',hpaging'⟩ := MemoryManager.unmapRegion_keeps hunmap
    have hfirst := (firstCovering_new hlive hcovers hvacant).mpr ⟨rfl,rfl,hfit.front k hk⟩
    refine ⟨s',⟨k,new,hfirst,by rwa [haddress],hstart,ht ▸ hunmap⟩,?_,?_⟩
    · rw [hspaces',hspaces]
      exact live_update (live_released_new hlive hvacant)
    · rw [hroots hpaging']
      exact hsame

/-- A call that fails leaves all as it was, and does not stop on the way, if and only if the range
that it is granted, if any, fits the clean-up. -/
theorem failed_alloc_restored_iff (hs : s.Start)
    (hspace : (metadataSystem reservationSize metadataBase reservationBase metadataSize).Reachable
      (s.space vaSpace)) (hfits : metadataBase + metadataSize < qwordModulus)
    (htry : vmmAllocRegionTry vmmData reservationSize s vaSpace pagingData request fileRead =
      some (locals,s₁))
    (hfailed : locals.succeeded = false) :
    (∃ s', vmmAllocBackedRegion vmmData reservationSize s vaSpace pagingData request fileRead =
        some (0,s') ∧ s.Restored s') ↔
      ∀ base size, (allocRange (s.space vaSpace) request.region.baseAddress
          request.region.size).1 = some (base,size) →
        (s.space vaSpace).Grants request.allocRequest base size →
          CleanUpFits reservationSize s vaSpace pagingData request base size := by
  obtain ⟨hshape,-⟩ := reachable_arguments hspace
  have hcall (s' : MemoryManager Process) :
      vmmAllocBackedRegion vmmData reservationSize s vaSpace pagingData request fileRead =
        some (0,s') ↔ vmmAllocRegionFinally reservationSize s₁ vaSpace pagingData locals = some (0,s') := by
    rw [vmmAllocBackedRegion,htry]
    exact Iff.rfl
  simp only [hcall]
  cases vmmAllocRegionTry_ends htry with
  | unbacked => cases hfailed
  | described => cases hfailed
  | noFrames => cases hfailed
  | @refused status range space halloc hrefused =>
    have hgranted := alloc_granted_iff hshape halloc
    obtain ⟨hstatus,pointer,rfl⟩ := alloc_failed_moves hshape halloc hrefused
    refine iff_of_true ⟨s.setSpace vaSpace _,rfl,fun other i r => ?_,fun _ _ => rfl⟩ ?_
    · change (Function.update s.space vaSpace _ other).Live i r ↔ _
      refine live_update ?_ other i r
      exact fun _ _ => Iff.rfl
    · intro base size hrange hgrants
      exact absurd (hgranted.mpr ⟨base,size,hrange,hgrants⟩) hstatus
  | @mapped base size pa space bitmap mapped succeeded halloc hbase _ hcommit hframes hreserved hpa
      hmap =>
    obtain rfl : succeeded = false := hfailed
    obtain ⟨hrange,-⟩ := vmReservationSpaceAllocRegion_effect hshape halloc
    have hrange : (allocRange (s.space vaSpace) request.region.baseAddress
      request.region.size).1 = some (base,size) := hrange
    obtain ⟨base',size',hrange',hgrants⟩ := (alloc_granted_iff hshape halloc).mp rfl
    obtain ⟨rfl,rfl⟩ : base = base' ∧ size = size' :=
      Prod.mk.inj (Option.some.inj (hrange.symm.trans hrange'))
    have hone : (∀ base' size', (allocRange (s.space vaSpace) request.region.baseAddress
          request.region.size).1 = some (base',size') →
        (s.space vaSpace).Grants request.allocRequest base' size' →
          CleanUpFits reservationSize s vaSpace pagingData request base' size') ↔
        CleanUpFits reservationSize s vaSpace pagingData request base size := by
      constructor
      · exact fun h => h base size hrange hgrants
      · intro h base' size' hrange' _
        rw [hrange] at hrange'
        obtain ⟨rfl,rfl⟩ := Prod.mk.inj (Option.some.inj hrange')
        exact h
    rw [hone]
    cases hreserve : request.region.allocType.reserve with
    | true =>
      have htype : request.region.allocType = ⟨true,true⟩ := by
        have hflags : request.region.allocType =
            ⟨request.region.allocType.reserve,request.region.allocType.commit⟩ := rfl
        rw [hflags,hreserve,hcommit]
      exact failed_read_restored_iff hs hspace hfits htype halloc hframes hreserved hpa hmap
    | false =>
      refine iff_of_false ?_ fun h => ?_
      · rintro ⟨s',hfinally,hrestored⟩
        have hstep : (metadataSystem reservationSize metadataBase reservationBase metadataSize).step
          (s.space vaSpace) (.alloc _) = some space := Option.map_eq_some_iff.mpr ⟨_,halloc,rfl⟩
        have hself : ((s.setSpace vaSpace space).setReserved pagingData bitmap mapped).space vaSpace =
          space := Function.update_self _ _ _
        have hshape' := (reachable_arguments (hspace.step trivial hstep)).1
        obtain ⟨k,r,hfirst,-,-,hunmap⟩ :=
          (vmmAllocRegionFinally_releases rfl hbase hpa (hself.symm ▸ hshape')).mp hfinally
        obtain ⟨old,hold⟩ := commit_old hshape hreserve halloc (hself ▸ hfirst.live)
        exact released_vacant hfirst.live hunmap hrestored old hold
      · exact absurd (h.reserve.symm.trans hreserve) (by decide)

end Failed

/-- A file that is read into a region at once. -/
def eagerFileRegion (baseAddress size : Nat) (reserve : Bool) (h : baseAddress < qwordModulus) :
    BackedRequest where
  region := ⟨baseAddress,size,⟨reserve,true⟩,true,pageRightsReadWrite,false,h⟩
  zero := false
  fileObject := some 1
  mdl := none

/-- A region of two pages is reserved for the file, and released. -/
theorem failed_alloc_restored_two : ∃ s' : MemoryManager Unit,
    vmmAllocBackedRegion ⟨0,3⟩ 56 exampleManager (some ()) (some ())
      (eagerFileRegion 0 0x2000 true null_lt) none = some (0,s') ∧ exampleManager.Restored s' := by
  have htry : (vmmAllocRegionTry ⟨0,3⟩ 56 exampleManager (some ()) (some ())
      (eagerFileRegion 0 0x2000 true null_lt) none).any (fun result => !result.1.succeeded) =
        true := by
    decide +kernel
  obtain ⟨⟨locals,s₁⟩,htry,hfailed⟩ := Option.any_eq_true _ _ |>.mp htry
  have hspace : (metadataSystem 56 0x10000 0x1000000 0x50000).Reachable
    (exampleManager.space (some ())) := .init ⟨_,rfl,rfl⟩
  refine (failed_alloc_restored_iff exampleManager_start hspace (by decide) htry
    (Bool.not_eq_true' _ |>.mp hfailed)).mpr fun base size hrange _ => ?_
  obtain ⟨rfl,rfl⟩ : 0x1000000 = base ∧ 0x2000 = size := Prod.mk.inj (Option.some.inj hrange)
  refine ⟨rfl,fun k _ i _ r hlive => ?_,by decide,by decide,by decide⟩
  have hinit : exampleManager.space (some ()) =
    vmReservationSpaceFinishInit { exampleSpace with entries := [] } := rfl
  rw [hinit] at hlive
  exact absurd hlive (not_live_finishInit _ i r)

/-- Two pages are reserved. A file that cannot be read into the first one of them takes the
reservation along; one that cannot be read into the second one stops the system. -/
theorem failed_alloc_releases : ∃ s : MemoryManager Unit, exampleRegions.Reachable s ∧
    (∃ s' r, vmmAllocBackedRegion ⟨0,3⟩ 56 s (some ()) (some ())
          (eagerFileRegion 0x1000000 0x1000 false (by decide)) none = some (0,s') ∧
      (s.space (some ())).Live 0 r ∧ ¬(s'.space (some ())).Live 0 r) ∧
    (∃ locals s₁, vmmAllocRegionTry ⟨0,3⟩ 56 s (some ()) (some ())
          (eagerFileRegion 0x1001000 0x1000 false (by decide)) none = some (locals,s₁) ∧
      locals.succeeded = false ∧ vmmAllocBackedRegion ⟨0,3⟩ 56 s (some ()) (some ())
        (eagerFileRegion 0x1001000 0x1000 false (by decide)) none = none) := by
  obtain ⟨s,hreach,hs⟩ := TransitionSystem.exists_reachable exampleRegions
    MemoryManager.MapsAbsentPages exampleManager ⟨rfl,exampleManager_start⟩
    [allocCall 0 0x2000 true true false (by decide)]
    (fun s : MemoryManager Unit => entryIs (s.space (some ())) 0 0x1000000 0x2000 &&
      (vmmAllocBackedRegion ⟨0,3⟩ 56 s (some ()) (some ())
        (eagerFileRegion 0x1000000 0x1000 false (by decide)) none).any
          (fun result : Nat × MemoryManager Unit => decide (result.1 = 0) &&
            (result.2.space (some ())).entries[0]?.any fun r => r.state == .free) &&
      (vmmAllocRegionTry ⟨0,3⟩ 56 s (some ()) (some ())
        (eagerFileRegion 0x1001000 0x1000 false (by decide)) none).any (fun result : AllocLocals × MemoryManager Unit => !result.1.succeeded) &&
      (vmmAllocBackedRegion ⟨0,3⟩ 56 s (some ()) (some ())
        (eagerFileRegion 0x1001000 0x1000 false (by decide)) none).isNone)
    (by decide +kernel) (by decide +kernel)
  simp only [Bool.and_eq_true,Option.isNone_iff_eq_none] at hs
  obtain ⟨⟨⟨hentry,hcall⟩,htry⟩,hstops⟩ := hs
  obtain ⟨r,hlive,-,-⟩ := live_of_entryIs hentry
  obtain ⟨⟨base,s'⟩,hcall,hresult⟩ := Option.any_eq_true _ _ |>.mp hcall
  rw [Bool.and_eq_true,decide_eq_true_eq] at hresult
  obtain ⟨rfl,hfree⟩ := hresult
  obtain ⟨r',hr',hfree⟩ := Option.any_eq_true _ _ |>.mp hfree
  obtain ⟨⟨locals,s₁⟩,htry,hfailed⟩ := Option.any_eq_true _ _ |>.mp htry
  refine ⟨s,hreach.mono fun _ _ _ => trivial,⟨s',r,hcall,hlive,fun hkept => ?_⟩,locals,s₁,htry,
    Bool.not_eq_true' _ |>.mp hfailed,hstops⟩
  obtain rfl : r' = r := Option.some.inj (hr'.symm.trans hkept.1)
  rw [beq_iff_eq,hkept.2] at hfree
  cases hfree

end Hal9000
