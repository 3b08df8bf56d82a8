import Hal9000.Memory.PagingPool

/-!
# Mapping an executable

The headers and sections of an executable lie in a buffer, and their pages are mapped a second
time at the address the image is made for. What a section leaves of its last page is mapped with
the section that fills it.
-/

namespace Hal9000

def pageRightsRead : PageRights := ⟨true,false,false⟩

def PageRights.or (rights rights' : PageRights) : PageRights :=
  ⟨rights.read || rights'.read,rights.write || rights'.write,rights.execute || rights'.execute⟩

/-- `PE_SECTION_INFO`; of the characteristics the access bits. -/
structure PeSectionInfo where
  baseAddress : Nat
  size : Nat
  characteristics : PageRights
  deriving DecidableEq

inductive PeStatus
  | notImplemented
  | sectionNotRetrieved
  deriving DecidableEq

/-- `PE_NT_HEADER_INFO`, with what `PeRetrieveSection` reports of each section. -/
structure PeNtHeaderInfo where
  imageBase : Nat
  sizeOfHeaders : Nat
  fileAlignment : Nat
  imageAlignment : Nat
  sections : List (Option PeSectionInfo)

/-- The arguments of `_MmuMapPeInMemory` beside the tables it maps in. The buffer is translated
by the tables that are active, which are other ones. -/
structure PeLoad where
  vmmData : VmmData
  mmuGetPhysicalAddress : Nat → Nat
  header : PeNtHeaderInfo
  addressToMap : Nat
  physical_aligned : ∀ va, isAddressAligned va pageSize = true →
    isAddressAligned (mmuGetPhysicalAddress va) pageSize = true
  physical_lt : ∀ va, mmuGetPhysicalAddress va < qwordModulus

namespace PeLoad

variable (load : PeLoad)

/-- A page of the image, mapped to the page of the buffer at the same offset. -/
def mapImagePage (page : Nat) (rights : PageRights) (s : WalkState PagingData) :
    Option (WalkState PagingData) :=
  vmmMapMemoryInternal load.vmmData s.memory s.context
    (load.mmuGetPhysicalAddress
      (ptrOffset load.header.imageBase (ptrDiff page load.addressToMap)))
    pageSize page rights true false

/-- A loop over pages. Longer ones than the address space has pages do not end. -/
def mapPagesWhile (condition : Nat → Bool) (rights : PageRights) :
    Nat → Nat → WalkState PagingData → Option (WalkState PagingData)
  | 0,_,_ => none
  | fuel + 1,page,s =>
    if condition page then do
      let s ← load.mapImagePage page rights s
      mapPagesWhile condition rights fuel (ptrOffset page pageSize) s
    else some s

@[irreducible] def addressSpacePages : Nat := 2 ^ 52

/-- The variables of the loop over the sections, and the tables. -/
structure Loop where
  prevSectionRequiredRights : PageRights
  remainingSizeUntilPageAlignFromPrevSections : Nat
  sectionSize : Nat
  alignedAddress : Nat
  tables : WalkState PagingData

/-- The sizes are 32-bit words. -/
def sectionSize (sectionInfo : PeSectionInfo) : Nat :=
  alignAddressUpper sectionInfo.size load.header.imageAlignment % 2 ^ 32

/-- One turn of the loop over the sections. -/
def mapSection (sectionInfo : PeSectionInfo) (loop : Loop) : Option Loop := do
  let sectionSize := load.sectionSize sectionInfo
  let curSectionRequiredRights := sectionInfo.characteristics
  assert (!(curSectionRequiredRights.write && curSectionRequiredRights.execute))
  if sectionSize < loop.remainingSizeUntilPageAlignFromPrevSections then
    some { loop with
      remainingSizeUntilPageAlignFromPrevSections :=
        loop.remainingSizeUntilPageAlignFromPrevSections - sectionSize
      sectionSize := sectionSize
      prevSectionRequiredRights := loop.prevSectionRequiredRights.or curSectionRequiredRights }
  else
    let alignedAddress := alignAddressLower
      (ptrOffset load.addressToMap (ptrDiff sectionInfo.baseAddress load.header.imageBase)) pageSize
    let (alignedAddress,sectionSize,tables) ←
      if loop.remainingSizeUntilPageAlignFromPrevSections ≠ 0 then
        -- the first page is shared with what the previous sections left of their last one
        (load.mapImagePage alignedAddress
          (loop.prevSectionRequiredRights.or curSectionRequiredRights) loop.tables).map fun tables =>
            (ptrOffset alignedAddress pageSize,
              sectionSize - loop.remainingSizeUntilPageAlignFromPrevSections,tables)
      else some (alignedAddress,sectionSize,loop.tables)
    let tables ← load.mapPagesWhile
      (fun page => ptrOffset page pageSize ≤ ptrOffset alignedAddress sectionSize)
      curSectionRequiredRights addressSpacePages alignedAddress tables
    some {
      prevSectionRequiredRights := curSectionRequiredRights
      remainingSizeUntilPageAlignFromPrevSections := pageSize - addressOffset sectionSize pageSize
      sectionSize := sectionSize
      alignedAddress := alignedAddress
      tables := tables }

/-- The loop over the sections; a section that is not retrieved ends it with its status. -/
def mapSections : List (Option PeSectionInfo) → Loop → Option (Except PeStatus Unit × Loop)
  | [],loop => some (.ok (),loop)
  | none :: _,loop => some (.error .sectionNotRetrieved,loop)
  | some sectionInfo :: sections,loop => do
    let loop ← load.mapSection sectionInfo loop
    mapSections sections loop

/-- `_MmuMapPeInMemory`. -/
def mmuMapPeInMemory (s : WalkState PagingData) :
    Option (Except PeStatus Unit × WalkState PagingData) := do
  assert (isAddressAligned load.header.imageBase pageSize)
  assert (load.addressToMap != 0)
  assert (isAddressAligned load.addressToMap pageSize)
  if load.header.fileAlignment ≠ load.header.imageAlignment then
    some (.error .notImplemented,s)
  else
    let headersEnd := ptrDiff (ptrOffset load.addressToMap load.header.sizeOfHeaders) pageSize
    let s ← load.mapPagesWhile (fun page => page < headersEnd) pageRightsRead addressSpacePages
      load.addressToMap s
    let (status,loop) ← load.mapSections load.header.sections {
      prevSectionRequiredRights := pageRightsRead
      remainingSizeUntilPageAlignFromPrevSections :=
        pageSize - addressOffset load.header.sizeOfHeaders pageSize
      sectionSize := 0
      alignedAddress := 0
      tables := s }
    match status with
    | .error status => some (.error status,loop.tables)
    | .ok () =>
      if loop.sectionSize ≠ 0 then do
        let s ← load.mapImagePage loop.alignedAddress loop.prevSectionRequiredRights loop.tables
        some (.ok (),s)
      else some (.ok (),loop.tables)

/-- The arguments are what callers pass and headers hold: aligned addresses of the buffer and the
image, an alignment that is a power of two, 32-bit sizes and offsets, and an image that ends below
the end of the address space. -/
structure Placed : Prop where
  imageAlignment_pow : ∃ k, load.header.imageAlignment = 2 ^ k
  imageBase_aligned : isAddressAligned load.header.imageBase pageSize = true
  imageBase_lt : load.header.imageBase < qwordModulus
  address_pos : load.addressToMap ≠ 0
  address_aligned : isAddressAligned load.addressToMap pageSize = true
  room : load.addressToMap + 2 ^ 34 ≤ qwordModulus
  sizeOfHeaders_lt : load.header.sizeOfHeaders < 2 ^ 32
  offset_lt : ∀ sectionInfo, some sectionInfo ∈ load.header.sections →
    ptrDiff sectionInfo.baseAddress load.header.imageBase < 2 ^ 32
  size_lt : ∀ sectionInfo, some sectionInfo ∈ load.header.sections → sectionInfo.size < 2 ^ 32

/-- The address of a page of the image. -/
def pageAddress (page : Nat) : Nat := load.addressToMap + page * pageSize

/-- Pages of the image that are mapped one after another. -/
def mapCalls (calls : List (Nat × PageRights)) (s : WalkState PagingData) :
    Option (WalkState PagingData) :=
  calls.foldlM (fun s call => load.mapImagePage (load.pageAddress call.1) call.2 s) s

/-- A section with the bytes that the loader counts before and with it: the padded sizes of all
before it are packed behind the headers. -/
structure PackedSection where
  info : PeSectionInfo
  start : Nat
  stop : Nat
  firstPage : Nat

def PackedSection.startPage (packed : PackedSection) : Nat := packed.start / pageSize
def PackedSection.stopPage (packed : PackedSection) : Nat := packed.stop / pageSize

def packSection (start : Nat) (info : PeSectionInfo) : PackedSection :=
  ⟨info,start,start + load.sectionSize info,
    ptrDiff info.baseAddress load.header.imageBase / pageSize⟩

def pack : Nat → List PeSectionInfo → List PackedSection
  | _,[] => []
  | start,info :: infos =>
    load.packSection start info :: pack (start + load.sectionSize info) infos

/-- The bytes that are packed in the end. -/
def packedEnd : Nat → List PeSectionInfo → Nat
  | start,[] => start
  | start,info :: infos => packedEnd (start + load.sectionSize info) infos

/-- A section that passes page boundaries maps a page for each, from its own first page on. -/
def PackedSection.calls (rights : PageRights) (packed : PackedSection) : List (Nat × PageRights) :=
  (packed.firstPage,rights.or packed.info.characteristics) ::
    (List.range (packed.stopPage - packed.startPage - 1)).map fun k =>
      (packed.firstPage + 1 + k,packed.info.characteristics)

def sectionCalls : PageRights → List PackedSection → List (Nat × PageRights)
  | _,[] => []
  | rights,packed :: rest =>
    if packed.startPage < packed.stopPage then
      packed.calls rights ++ sectionCalls packed.info.characteristics rest
    else sectionCalls (rights.or packed.info.characteristics) rest

/-- The loop variables that the last mapping uses. -/
structure Cursor where
  rights : PageRights
  left : Nat
  address : Nat

/-- The loop after `total` packed bytes. -/
def Cursor.loop (cursor : Cursor) (total : Nat) (tables : WalkState PagingData) : Loop :=
  ⟨cursor.rights,pageSize - total % pageSize,cursor.left,cursor.address,tables⟩

def cursorStep (cursor : Cursor) (packed : PackedSection) : Cursor :=
  if packed.startPage < packed.stopPage then
    ⟨packed.info.characteristics,packed.stop - (packed.startPage + 1) * pageSize,
      load.pageAddress (packed.firstPage + 1)⟩
  else
    ⟨cursor.rights.or packed.info.characteristics,packed.stop - packed.start,cursor.address⟩

variable {load}

theorem mapCalls_append (calls calls' : List (Nat × PageRights)) (s : WalkState PagingData) :
    load.mapCalls (calls ++ calls') s = (load.mapCalls calls s).bind (load.mapCalls calls') :=
  List.foldlM_append

theorem mapPagesWhile_eq (condition : Nat → Bool) {count fuel first : Nat} (rights : PageRights)
    (hfuel : count < fuel) (hroom : load.pageAddress (first + count) < qwordModulus)
    (hgo : ∀ k < count, condition (load.pageAddress (first + k)) = true)
    (hstop : condition (load.pageAddress (first + count)) = false) (s : WalkState PagingData) :
    load.mapPagesWhile condition rights fuel (load.pageAddress first) s =
      load.mapCalls ((List.range count).map fun k => (first + k,rights)) s := by
  induction count generalizing fuel first s with
  | zero =>
    obtain ⟨fuel,rfl⟩ := Nat.exists_eq_succ_of_ne_zero hfuel.ne'
    rw [Nat.add_zero] at hstop
    rw [mapPagesWhile,if_neg (Bool.not_eq_true _ ▸ hstop)]
    rfl
  | succ count ih =>
    obtain ⟨fuel,rfl⟩ := Nat.exists_eq_succ_of_ne_zero (Nat.ne_of_gt (Nat.zero_lt_of_lt hfuel))
    have hfirst : condition (load.pageAddress first) = true := hgo 0 (Nat.succ_pos count)
    have hnext : ptrOffset (load.pageAddress first) pageSize = load.pageAddress (first + 1) := by
      unfold pageAddress at hroom ⊢
      unfold ptrOffset pageSize at *
      rw [Nat.mod_eq_of_lt (by omega)]
      omega
    have hindex : ∀ k, first + 1 + k = first + (k + 1) := fun k => by omega
    rw [mapPagesWhile,if_pos hfirst,hnext,List.range_succ_eq_map,List.map_cons,List.map_map,
      mapCalls,List.foldlM_cons,Nat.add_zero]
    have hroom' : load.pageAddress (first + 1 + count) < qwordModulus := by
      rw [hindex]
      exact hroom
    have hgo' : ∀ k < count, condition (load.pageAddress (first + 1 + k)) = true := by
      intro k hk
      rw [hindex]
      exact hgo (k + 1) (Nat.succ_lt_succ hk)
    have hstop' : condition (load.pageAddress (first + 1 + count)) = false := by
      rw [hindex]
      exact hstop
    cases load.mapImagePage (load.pageAddress first) rights s with
    | none => rfl
    | some s₁ =>
      have hrest := ih (Nat.lt_of_succ_lt_succ hfuel) hroom' hgo' hstop' s₁
      simp only [hindex] at hrest
      exact hrest

private theorem assert_rights {write execute : Bool} (h : ¬(write = true ∧ execute = true)) :
    assert (!(write && execute)) = some () := by
  cases write with
  | false => rfl
  | true =>
    cases execute with
    | false => rfl
    | true => exact absurd ⟨rfl,rfl⟩ h

theorem Placed.headerPages (hplaced : load.Placed) (s : WalkState PagingData) :
    load.mapPagesWhile
        (fun page => page < ptrDiff (ptrOffset load.addressToMap load.header.sizeOfHeaders) pageSize)
        pageRightsRead addressSpacePages load.addressToMap s =
      load.mapCalls ((List.range ((load.header.sizeOfHeaders - 1) / pageSize)).map fun k =>
        (k,pageRightsRead)) s := by
  have hpos := hplaced.address_pos
  have haligned := hplaced.address_aligned
  have hroom := hplaced.room
  have hsize := hplaced.sizeOfHeaders_lt
  simp only [isAddressAligned,beq_iff_eq,pageSize,qwordModulus] at haligned hroom
  have hend : ptrDiff (ptrOffset load.addressToMap load.header.sizeOfHeaders) pageSize =
      load.addressToMap + load.header.sizeOfHeaders - pageSize := by
    simp only [ptrDiff,ptrOffset,qwordModulus,pageSize]
    omega
  have hfuel : (load.header.sizeOfHeaders - 1) / pageSize < addressSpacePages := by
    simp only [pageSize]
    unfold addressSpacePages
    omega
  have hbelow : load.pageAddress (0 + (load.header.sizeOfHeaders - 1) / pageSize) <
      qwordModulus := by
    simp only [pageAddress,pageSize,qwordModulus]
    omega
  have hloop := mapPagesWhile_eq
    (fun page => page < load.addressToMap + load.header.sizeOfHeaders - pageSize) pageRightsRead
    hfuel hbelow (fun k hk => decide_eq_true (by
      simp only [pageAddress,pageSize] at hk ⊢
      omega)) (decide_eq_false (by
      simp only [pageAddress,pageSize]
      omega)) s
  have hstart : load.pageAddress 0 = load.addressToMap := by
    rw [pageAddress,Nat.zero_mul,Nat.add_zero]
  simp only [Nat.zero_add,hstart] at hloop
  rw [hend,hloop]

theorem mapSection_small {info : PeSectionInfo} {start : Nat}
    (cursor : Cursor) (tables : WalkState PagingData)
    (hrights : ¬(info.characteristics.write ∧ info.characteristics.execute))
    (hsmall : (start + load.sectionSize info) / pageSize = start / pageSize) :
    load.mapSection info (cursor.loop start tables) =
      some ((Cursor.mk (cursor.rights.or info.characteristics) (load.sectionSize info)
        cursor.address).loop (start + load.sectionSize info) tables) := by
  have hassert := assert_rights hrights
  have hlt : load.sectionSize info < pageSize - start % pageSize := by
    simp only [pageSize] at hsmall ⊢
    omega
  have hleft : pageSize - start % pageSize - load.sectionSize info =
      pageSize - (start + load.sectionSize info) % pageSize := by
    simp only [pageSize] at hsmall ⊢
    omega
  rw [mapSection,hassert,Option.bind_eq_bind,Option.bind_some,
    if_pos (show load.sectionSize info <
      (cursor.loop start tables).remainingSizeUntilPageAlignFromPrevSections from hlt)]
  simp only [Cursor.loop,hleft]

theorem Placed.mapSection_large (hplaced : load.Placed) {info : PeSectionInfo} {start : Nat}
    (cursor : Cursor) (tables : WalkState PagingData)
    (hoffset : ptrDiff info.baseAddress load.header.imageBase < 2 ^ 32)
    (hrights : ¬(info.characteristics.write ∧ info.characteristics.execute))
    (hlarge : start / pageSize < (start + load.sectionSize info) / pageSize) :
    load.mapSection info (cursor.loop start tables) =
      (load.mapCalls ((load.packSection start info).calls cursor.rights) tables).map fun tables =>
        (Cursor.mk info.characteristics
          (start + load.sectionSize info - (start / pageSize + 1) * pageSize)
          (load.pageAddress (ptrDiff info.baseAddress load.header.imageBase / pageSize + 1))).loop
            (start + load.sectionSize info) tables := by
  have hassert := assert_rights hrights
  have haligned := hplaced.address_aligned
  have hroom := hplaced.room
  have hsize : load.sectionSize info < 2 ^ 32 := Nat.mod_lt _ (Nat.two_pow_pos 32)
  obtain ⟨size,hsection⟩ : ∃ size, load.sectionSize info = size := ⟨_,rfl⟩
  obtain ⟨offset,hoff⟩ : ∃ offset, ptrDiff info.baseAddress load.header.imageBase = offset :=
    ⟨_,rfl⟩
  simp only [hsection,hoff] at hoffset hlarge hsize ⊢
  simp only [isAddressAligned,beq_iff_eq,pageSize,qwordModulus] at haligned hroom
  have hlt : ¬size < pageSize - start % pageSize := by
    simp only [pageSize] at hlarge ⊢
    omega
  have hremaining : pageSize - start % pageSize ≠ 0 := by
    simp only [pageSize]
    omega
  have hfirst : alignAddressLower (ptrOffset load.addressToMap offset) pageSize =
      load.pageAddress (offset / pageSize) := by
    simp only [alignAddressLower,ptrOffset,pageAddress,pageSize,qwordModulus]
    omega
  have hnext : ptrOffset (load.pageAddress (offset / pageSize)) pageSize =
      load.pageAddress (offset / pageSize + 1) := by
    simp only [ptrOffset,pageAddress,pageSize,qwordModulus]
    omega
  have hleft : size - (pageSize - start % pageSize) =
      start + size - (start / pageSize + 1) * pageSize := by
    simp only [pageSize] at hlarge ⊢
    omega
  have hboundary : pageSize - addressOffset (start + size - (start / pageSize + 1) * pageSize)
      pageSize = pageSize - (start + size) % pageSize := by
    simp only [addressOffset,pageSize] at hlarge ⊢
    omega
  have hfuel : (start + size) / pageSize - start / pageSize - 1 < addressSpacePages := by
    simp only [pageSize] at hlarge ⊢
    unfold addressSpacePages
    omega
  have hbelow : load.pageAddress
      (offset / pageSize + 1 + ((start + size) / pageSize - start / pageSize - 1)) <
        qwordModulus := by
    simp only [pageAddress,pageSize,qwordModulus] at hlarge ⊢
    omega
  have hloop := fun tables => mapPagesWhile_eq
    (fun page => ptrOffset page pageSize ≤
      ptrOffset (load.pageAddress (offset / pageSize + 1))
        (start + size - (start / pageSize + 1) * pageSize))
    info.characteristics hfuel hbelow (fun k hk => decide_eq_true (by
      simp only [ptrOffset,pageAddress,pageSize,qwordModulus] at hk hlarge ⊢
      omega)) (decide_eq_false (by
      simp only [ptrOffset,pageAddress,pageSize,qwordModulus] at hlarge ⊢
      omega)) tables
  rw [mapSection,hassert]
  have hlt' :
      ¬size < (cursor.loop start tables).remainingSizeUntilPageAlignFromPrevSections := hlt
  have hremaining' :
      (cursor.loop start tables).remainingSizeUntilPageAlignFromPrevSections ≠ 0 := hremaining
  rw [Option.bind_eq_bind,Option.bind_some,hsection,hoff,if_neg hlt',if_pos hremaining',hfirst,
    hnext]
  change (((load.mapImagePage (load.pageAddress (offset / pageSize))
    (cursor.rights.or info.characteristics) tables).map _).bind _) = _
  rw [PackedSection.calls,packSection,hsection,hoff,mapCalls,List.foldlM_cons]
  cases load.mapImagePage (load.pageAddress (offset / pageSize))
    (cursor.rights.or info.characteristics) tables with
  | none => rfl
  | some tables₁ =>
    have hleft' : size - (cursor.loop start tables).remainingSizeUntilPageAlignFromPrevSections =
      start + size - (start / pageSize + 1) * pageSize := hleft
    rw [Option.map_some,Option.bind_some]
    dsimp only
    rw [hleft',hloop,hboundary]
    change _ = (load.mapCalls ((List.range ((start + size) / pageSize - start / pageSize - 1)).map
      fun k => (offset / pageSize + 1 + k,info.characteristics)) tables₁).map _
    cases load.mapCalls ((List.range ((start + size) / pageSize - start / pageSize - 1)).map
      fun k => (offset / pageSize + 1 + k,info.characteristics)) tables₁ with
    | none => rfl
    | some tables₂ => rfl

/-- No section asks for both rights. -/
def RightsAllowed (infos : List PeSectionInfo) : Prop :=
  ∀ info ∈ infos, ¬(info.characteristics.write ∧ info.characteristics.execute)

theorem Placed.mapSections_eq (hplaced : load.Placed) {infos : List PeSectionInfo} (start : Nat)
    (cursor : Cursor) (tables : WalkState PagingData) (hrights : RightsAllowed infos)
    (hinfos : ∀ info ∈ infos, some info ∈ load.header.sections) :
    load.mapSections (infos.map some) (cursor.loop start tables) =
      (load.mapCalls (sectionCalls cursor.rights (load.pack start infos)) tables).map fun tables =>
        (.ok (),((load.pack start infos).foldl load.cursorStep cursor).loop
          (load.packedEnd start infos) tables) := by
  induction infos generalizing start cursor tables with
  | nil => rfl
  | cons info infos ih =>
    have hoffset := hplaced.offset_lt info (hinfos info List.mem_cons_self)
    obtain ⟨hallowed,hrest⟩ := List.forall_mem_cons.mp hrights
    have hinfos' := (List.forall_mem_cons.mp hinfos).2
    rw [List.map_cons,mapSections,pack,List.foldl_cons,sectionCalls,cursorStep,packedEnd]
    by_cases hlarge : start / pageSize < (start + load.sectionSize info) / pageSize
    · have hpasses : (load.packSection start info).startPage <
          (load.packSection start info).stopPage := hlarge
      rw [hplaced.mapSection_large cursor tables hoffset hallowed hlarge,if_pos hpasses,
        if_pos hpasses,mapCalls_append]
      cases load.mapCalls ((load.packSection start info).calls cursor.rights) tables with
      | none => rfl
      | some tables₁ => exact ih _ _ tables₁ hrest hinfos'
    · have hpasses : ¬(load.packSection start info).startPage <
          (load.packSection start info).stopPage := hlarge
      have hsmall : (start + load.sectionSize info) / pageSize = start / pageSize := by
        simp only [pageSize] at hlarge ⊢
        omega
      have hleft : (load.packSection start info).stop - (load.packSection start info).start =
          load.sectionSize info := Nat.add_sub_cancel_left ..
      rw [mapSection_small cursor tables hallowed hsmall,if_neg hpasses,if_neg hpasses,hleft]
      exact ih _ _ tables hrest hinfos'

theorem mapSections_rights {infos : List PeSectionInfo} {loop : Loop}
    {result : Except PeStatus Unit × Loop}
    (h : load.mapSections (infos.map some) loop = some result) : RightsAllowed infos := by
  induction infos generalizing loop with
  | nil => exact List.forall_mem_nil _
  | cons info infos ih =>
    rw [List.map_cons,mapSections] at h
    obtain ⟨loop',hsection,hrest⟩ := Option.bind_eq_some_iff.mp h
    obtain ⟨u,hassert,-⟩ := Option.bind_eq_some_iff.mp hsection
    refine List.forall_mem_cons.mpr ⟨?_,ih hrest⟩
    rintro ⟨hwrite,hexecute⟩
    rw [hwrite,hexecute] at hassert
    cases hassert

section Image

variable (load)

def headerCalls : List (Nat × PageRights) :=
  (List.range ((load.header.sizeOfHeaders - 1) / pageSize)).map fun k => (k,pageRightsRead)

def packed (infos : List PeSectionInfo) : List PackedSection :=
  load.pack load.header.sizeOfHeaders infos

def PackedSection.Passes (packed : PackedSection) : Prop := packed.startPage < packed.stopPage

instance (packed : PackedSection) : Decidable packed.Passes := Nat.decLt ..

/-- The bytes of the section behind the page it shares, or all of it. -/
def PackedSection.left (packed : PackedSection) : Nat :=
  if packed.Passes then packed.stop - (packed.startPage + 1) * pageSize
  else packed.stop - packed.start

/-- The last section that passes a page boundary. -/
def lastPassing (sections : List PackedSection) : Option PackedSection :=
  (sections.filter (·.Passes)).getLast?

/-- What the last section leaves for the mapping behind the loop. -/
def lastLeft (sections : List PackedSection) : Nat :=
  (sections.getLast?.map (·.left)).getD 0

/-- The loop variables behind the loop. -/
def cursor (infos : List PeSectionInfo) : Cursor :=
  (load.packed infos).foldl load.cursorStep ⟨pageRightsRead,0,0⟩

/-- The page behind the first one of the last section that passed a boundary is mapped again, or
for the first time. -/
def lastCalls (infos : List PeSectionInfo) : List (Nat × PageRights) :=
  if lastLeft (load.packed infos) ≠ 0 then
    (lastPassing (load.packed infos)).toList.map fun packed =>
      (packed.firstPage + 1,(load.cursor infos).rights)
  else []

/-- All pages of the image that are mapped, in order. -/
def imageCalls (infos : List PeSectionInfo) : List (Nat × PageRights) :=
  load.headerCalls ++ (sectionCalls pageRightsRead (load.packed infos) ++ load.lastCalls infos)

end Image

variable {infos : List PeSectionInfo}

theorem foldl_cursorStep (sections : List PackedSection) (cursor : Cursor) :
    (sections.foldl load.cursorStep cursor).left =
        (sections.getLast?.map (·.left)).getD cursor.left ∧
      (sections.foldl load.cursorStep cursor).address =
        ((lastPassing sections).map fun packed => load.pageAddress (packed.firstPage + 1)).getD
          cursor.address := by
  induction sections using List.reverseRecOn with
  | nil => exact ⟨rfl,rfl⟩
  | append_singleton sections packed ih =>
    rw [List.foldl_append,List.foldl_cons,List.foldl_nil,cursorStep,lastPassing,
      List.filter_append,List.getLast?_append,List.getLast?_append]
    by_cases hpasses : packed.Passes
    · have hpasses' : packed.startPage < packed.stopPage := hpasses
      rw [if_pos hpasses',List.filter_singleton]
      simp [hpasses,PackedSection.left]
    · have hpasses' : ¬packed.startPage < packed.stopPage := hpasses
      rw [if_neg hpasses',List.filter_singleton]
      simp only [hpasses,PackedSection.left]
      refine ⟨?_,?_⟩
      · rw [List.getLast?_singleton,Option.some_or,Option.map_some,Option.getD_some,if_neg]
        exact hpasses
      · simpa [lastPassing] using ih.2

theorem mapImagePage_zero (rights : PageRights) (s : WalkState PagingData) :
    load.mapImagePage 0 rights s = none := by
  rw [mapImagePage,vmmMapMemoryInternal]
  cases assert (isAddressAligned (load.mmuGetPhysicalAddress
    (ptrOffset load.header.imageBase (ptrDiff 0 load.addressToMap))) pageSize) with
  | none => rfl
  | some u => rfl

theorem cursor_left : (load.cursor infos).left = lastLeft (load.packed infos) :=
  (foldl_cursorStep _ _).1

theorem cursor_address : (load.cursor infos).address =
    ((lastPassing (load.packed infos)).map fun packed =>
      load.pageAddress (packed.firstPage + 1)).getD 0 :=
  (foldl_cursorStep _ _).2

private theorem lastCall_iff (s s' : WalkState PagingData) :
    (if (load.cursor infos).left ≠ 0 then
        load.mapImagePage (load.cursor infos).address (load.cursor infos).rights s
      else some s) = some s' ↔
      (lastLeft (load.packed infos) ≠ 0 → (lastPassing (load.packed infos)).isSome) ∧
        load.mapCalls (load.lastCalls infos) s = some s' := by
  rw [cursor_left,cursor_address,lastCalls]
  by_cases hleft : lastLeft (load.packed infos) ≠ 0
  · rw [if_pos hleft,if_pos hleft]
    cases hpassing : lastPassing (load.packed infos) with
    | none =>
      simp only [Option.map_none,Option.getD_none,mapImagePage_zero,Option.isSome_none]
      constructor
      · intro h
        cases h
      · intro h
        exact absurd (h.1 hleft) Bool.false_ne_true
    | some packed =>
      simp only [Option.map_some,Option.getD_some,Option.isSome_some,implies_true,true_and,
        Option.toList_some,List.map_cons,List.map_nil,mapCalls,List.foldlM_cons,List.foldlM_nil]
      rw [Option.bind_eq_bind,Option.pure_def,Option.bind_fun_some]
  · rw [if_neg hleft,if_neg hleft]
    exact ⟨fun h => ⟨fun hne => absurd hne hleft,h⟩,fun h => h.2⟩

private theorem ok_lastCall {left : Nat} {tables s' : WalkState PagingData}
    {mapped : Option (WalkState PagingData)} :
    (if left ≠ 0 then do
        let s ← mapped
        some (Except.ok (),s)
      else some (Except.ok (),tables)) = some ((Except.ok () : Except PeStatus Unit),s') ↔
      (if left ≠ 0 then mapped else some tables) = some s' := by
  split
  · cases mapped <;> simp
  · simp

theorem Placed.mmuMapPeInMemory_ok (hplaced : load.Placed)
    (hsections : load.header.sections = infos.map some) (s s' : WalkState PagingData) :
    load.mmuMapPeInMemory s = some (.ok (),s') ↔
      load.header.fileAlignment = load.header.imageAlignment ∧ RightsAllowed infos ∧
        (lastLeft (load.packed infos) ≠ 0 → (lastPassing (load.packed infos)).isSome) ∧
        load.mapCalls (load.imageCalls infos) s = some s' := by
  have hinfos : ∀ info ∈ infos, some info ∈ load.header.sections := by
    intro info hinfo
    rw [hsections]
    exact List.mem_map_of_mem hinfo
  have hbase : assert (isAddressAligned load.header.imageBase pageSize) = some () :=
    assert_eq_some.mpr hplaced.imageBase_aligned
  have hpos : assert (load.addressToMap != 0) = some () :=
    assert_eq_some.mpr (bne_iff_ne.mpr hplaced.address_pos)
  have haddress : assert (isAddressAligned load.addressToMap pageSize) = some () :=
    assert_eq_some.mpr hplaced.address_aligned
  have hsectionsRun : ∀ s, RightsAllowed infos → load.mapSections (infos.map some)
      ⟨pageRightsRead,pageSize - addressOffset load.header.sizeOfHeaders pageSize,0,0,s⟩ =
      (load.mapCalls (sectionCalls pageRightsRead (load.packed infos)) s).map fun tables =>
        (.ok (),(load.cursor infos).loop (load.packedEnd load.header.sizeOfHeaders infos) tables) :=
    fun s hrights => hplaced.mapSections_eq _ ⟨pageRightsRead,0,0⟩ s hrights hinfos
  rw [mmuMapPeInMemory,hbase,hpos,haddress]
  simp only [Option.bind_eq_bind,Option.bind_some,hplaced.headerPages,hsections]
  by_cases halignment : load.header.fileAlignment = load.header.imageAlignment
  · rw [if_neg (not_not_intro halignment)]
    simp only [halignment,true_and]
    rw [imageCalls,mapCalls_append]
    change (load.mapCalls load.headerCalls s).bind _ = _ ↔ _
    cases load.mapCalls load.headerCalls s with
    | none =>
      constructor
      · intro h
        cases h
      · intro h
        cases h.2.2
    | some s₁ =>
      rw [Option.bind_some,Option.bind_some,mapCalls_append,Option.bind_eq_some_iff,
        Option.bind_eq_some_iff]
      constructor
      · intro h
        obtain ⟨⟨status,loop⟩,hloop,hlast⟩ := h
        have hrights := mapSections_rights hloop
        rw [hsectionsRun s₁ hrights] at hloop
        obtain ⟨s₂,hcalls,hpair⟩ := Option.map_eq_some_iff.mp hloop
        cases hpair
        obtain ⟨hpassing,hfinal⟩ := (lastCall_iff s₂ s').mp (ok_lastCall.mp hlast)
        exact ⟨hrights,hpassing,s₂,hcalls,hfinal⟩
      · rintro ⟨hrights,hpassing,s₂,hcalls,hfinal⟩
        have hlast := ok_lastCall.mpr ((lastCall_iff s₂ s').mpr ⟨hpassing,hfinal⟩)
        refine ⟨(.ok (),(load.cursor infos).loop
          (load.packedEnd load.header.sizeOfHeaders infos) s₂),?_,hlast⟩
        rw [hsectionsRun s₁ hrights]
        exact Option.map_eq_some_iff.mpr ⟨s₂,hcalls,rfl⟩
  · rw [if_pos halignment]
    constructor
    · intro h
      cases h
    · intro h
      exact absurd h.1 halignment

end PeLoad

end Hal9000
