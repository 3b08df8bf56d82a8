import Hal9000.Memory.PeLoader

/-!
# Which pages of an executable are mapped, and how

The loader works on packed bytes: the headers and behind them the padded sections. A packed page
is put where the section that ends it starts, and has the rights of all sections that meet it,
with their ends. Both are right only where the packed pages are those of the image.
-/

namespace Hal9000

namespace PeLoad

variable {load : PeLoad} {infos : List PeSectionInfo}

/-- No page of an image has a higher number. -/
def imagePages : Nat := 2 ^ 22

/-- The rights of the last call for a page. -/
def rightsOf (page : Nat) : List (Nat × PageRights) → Option PageRights
  | [] => none
  | call :: calls => (rightsOf page calls).or (if call.1 = page then some call.2 else none)

theorem rightsOf_append (page : Nat) (calls calls' : List (Nat × PageRights)) :
    rightsOf page (calls ++ calls') = (rightsOf page calls').or (rightsOf page calls) := by
  induction calls with
  | nil => rw [List.nil_append,rightsOf,Option.or_none]
  | cons call calls ih => rw [List.cons_append,rightsOf,rightsOf,ih,Option.or_assoc]

variable (load) in
/-- The physical page that backs a page of the image in the buffer. -/
def backing (page : Nat) : Nat :=
  load.mmuGetPhysicalAddress (ptrOffset load.header.imageBase (page * pageSize))

variable (load) in
def imageEntry (kernelSpace : Bool) (page : Nat) (rights : PageRights) : PtEntry :=
  mapEntry load.vmmData ⟨load.backing page,load.pageAddress page,rights,true,false⟩ kernelSpace
    (load.pageAddress page)

@[simp] theorem imageEntry_writable (kernelSpace : Bool) (page : Nat) (rights : PageRights) :
    (load.imageEntry kernelSpace page rights).writable = rights.write := rfl

@[simp] theorem imageEntry_executable (kernelSpace : Bool) (page : Nat) (rights : PageRights) :
    (load.imageEntry kernelSpace page rights).executable = rights.execute := rfl

theorem Placed.pageAddress_lt (hplaced : load.Placed) {page : Nat} (hpage : page < imagePages) :
    load.pageAddress page + pageSize ≤ qwordModulus := by
  have hroom := hplaced.room
  simp only [pageAddress,imagePages,pageSize,qwordModulus] at *
  omega

theorem Placed.imageEntry_physicalAddress (hplaced : load.Placed) {page : Nat}
    (hpage : page < imagePages) (kernelSpace : Bool) (rights : PageRights) :
    (load.imageEntry kernelSpace page rights).physicalAddress = load.backing page := by
  have hlt := hplaced.pageAddress_lt hpage
  have hphysical : load.backing page < qwordModulus := load.physical_lt _
  change ptrOffset (load.backing page)
    (ptrDiff (load.pageAddress page) (load.pageAddress page)) = _
  simp only [ptrOffset,ptrDiff,qwordModulus,pageSize] at *
  omega

theorem Placed.pageRange (hplaced : load.Placed) {page : Nat} (hpage : page < imagePages) :
    PageRange (load.pageAddress page) pageSize := by
  have hpos := hplaced.address_pos
  have haligned := hplaced.address_aligned
  refine ⟨?_,rfl,by decide,hplaced.pageAddress_lt hpage,?_,by decide⟩
  · simp only [isAddressAligned,beq_iff_eq,pageAddress] at haligned ⊢
    rw [Nat.add_mul_mod_self_right,haligned]
  · rw [pageAddress]
    omega

theorem Placed.tableOffsets_ne (hplaced : load.Placed) {page page' : Nat}
    (hpage : page < imagePages) (hpage' : page' < imagePages) (hne : page ≠ page') :
    tableOffsets (load.pageAddress page) ≠ tableOffsets (load.pageAddress page') := by
  intro heq
  have hnumber := pageNumber_of_tableOffsets heq
  have haligned := hplaced.address_aligned
  simp only [isAddressAligned,beq_iff_eq,pageAddress,imagePages,pageSize] at *
  omega

theorem Placed.mapImagePage_eq (hplaced : load.Placed) {page : Nat} (hpage : page < imagePages)
    (rights : PageRights) (s : WalkState PagingData) :
    load.mapImagePage (load.pageAddress page) rights s =
      vmmMapMemoryInternal load.vmmData s.memory s.context (load.backing page) pageSize
        (load.pageAddress page) rights true false := by
  have hlt := hplaced.pageAddress_lt hpage
  have hoffset : ptrDiff (load.pageAddress page) load.addressToMap = page * pageSize := by
    simp only [ptrDiff,pageAddress,qwordModulus,pageSize,imagePages] at *
    omega
  rw [mapImagePage,hoffset,backing]

/-- What a list of calls leaves of the tables: the last call decides. -/
structure CallsMapped (load : PeLoad) (calls : List (Nat × PageRights))
    (s s' : WalkState PagingData) : Prop where
  tree : PagingTree s'.memory s'.context
  pool : s.context.SamePool s'.context
  leaf : ∀ page < imagePages,
    s'.memory.leafAt s.context.basePhysicalAddress (tableOffsets (load.pageAddress page)) =
      match rightsOf page calls with
      | some rights => some (load.imageEntry s.context.kernelSpace page rights,0)
      | none =>
        s.memory.leafAt s.context.basePhysicalAddress (tableOffsets (load.pageAddress page))

theorem Placed.mapCalls_mapped (hplaced : load.Placed) {calls : List (Nat × PageRights)}
    {s s' : WalkState PagingData} (htree : PagingTree s.memory s.context)
    (hpages : ∀ call ∈ calls, call.1 < imagePages) (h : load.mapCalls calls s = some s') :
    CallsMapped load calls s s' := by
  induction calls generalizing s with
  | nil =>
    cases h
    exact ⟨htree,rfl,fun _ _ => rfl⟩
  | cons call calls ih =>
    obtain ⟨hpage,hpages⟩ := List.forall_mem_cons.mp hpages
    obtain ⟨s₁,hcall,hcalls⟩ := Option.bind_eq_some_iff.mp h
    replace hcall : load.mapImagePage (load.pageAddress call.1) call.2 s = some s₁ := hcall
    rw [hplaced.mapImagePage_eq hpage] at hcall
    have hlt := hplaced.pageAddress_lt hpage
    obtain ⟨htree₁,hpool₁,hleaf₁,hothers₁⟩ := vmmMapMemoryInternal_page load.vmmData htree
      (by simp only [qwordModulus,pageSize] at *; omega) hcall
    obtain ⟨htree',hpool',hleaf'⟩ := ih htree₁ hpages hcalls
    have hbase : s₁.context.basePhysicalAddress = s.context.basePhysicalAddress := by rw [hpool₁]
    have hkernel : s₁.context.kernelSpace = s.context.kernelSpace := by rw [hpool₁]
    refine ⟨htree',?_,?_⟩
    · rw [PagingData.SamePool,hpool',hpool₁]
    · intro page hpage'
      have hrest := hleaf' page hpage'
      rw [hbase,hkernel] at hrest
      rw [hrest,rightsOf]
      cases hrights : rightsOf page calls with
      | some rights => rfl
      | none =>
        by_cases hsame : call.1 = page
        · rw [if_pos hsame,← hsame]
          exact hleaf₁
        · rw [if_neg hsame]
          exact hothers₁ _ rfl (hplaced.tableOffsets_ne hpage' hpage (Ne.symm hsame))

theorem Placed.mapCalls_returns (hplaced : load.Placed) {calls : List (Nat × PageRights)}
    {paths : Finset (List (Fin 512))} (hlength : ∀ path ∈ paths, path.length ≤ 3)
    {s : WalkState PagingData} (hwalk : WalkInv paths s.memory s.context)
    (henough : s.context.currentIndex + (s.missing paths).card ≤ s.context.numberOfFrames)
    (hcalls : ∀ call ∈ calls, call.1 < imagePages ∧
      rangePaths (load.pageAddress call.1) 1 ⊆ paths) :
    ∃ s', load.mapCalls calls s = some s' := by
  induction calls generalizing s with
  | nil => exact ⟨s,rfl⟩
  | cons call calls ih =>
    obtain ⟨⟨hpage,hpaths⟩,hcalls⟩ := List.forall_mem_cons.mp hcalls
    have hrange := hplaced.pageRange hpage
    have haligned : isAddressAligned (load.backing call.1) pageSize = true := by
      refine load.physical_aligned _ ?_
      have hbase := hplaced.imageBase_aligned
      simp only [isAddressAligned,beq_iff_eq,ptrOffset,qwordModulus,pageSize] at hbase ⊢
      omega
    obtain ⟨s₁,hcall⟩ := vmmMapMemoryInternal_returns load.vmmData call.2 true false hrange hpaths
      hwalk henough haligned
    have hbalanced := vmmMapMemoryInternal_balanced hlength hrange hpaths hwalk hcall
    have hframes : s₁.context.numberOfFrames = s.context.numberOfFrames := by
      rw [hbalanced.pool]
    obtain ⟨s',hs'⟩ := ih hbalanced.walk (by rw [hbalanced.balance,hframes]; exact henough) hcalls
    rw [← hplaced.mapImagePage_eq hpage] at hcall
    exact ⟨s',Option.bind_eq_some_iff.mpr ⟨s₁,hcall,hs'⟩⟩

/-- The packed page is completed by a section, and put where this section starts. -/
def SectionPuts (sections : List PackedSection) (packedPage page : Nat) : Prop :=
  ∃ packed ∈ sections, packed.startPage ≤ packedPage ∧ packedPage < packed.stopPage ∧
    page = packed.firstPage + (packedPage - packed.startPage)

/-- A section with the right meets the packed page, with its end if not before. -/
def Carried (right : PageRights → Bool) (sections : List PackedSection) (packedPage : Nat) : Prop :=
  ∃ packed ∈ sections, packed.startPage ≤ packedPage ∧ packedPage ≤ packed.stopPage ∧
    right packed.info.characteristics = true

/-- The last of the packed pages that are put on a page. -/
def LastPut (puts : Nat → Nat → Prop) (packedPage page : Nat) : Prop :=
  puts packedPage page ∧ ∀ packedPage', puts packedPage' page → packedPage' ≤ packedPage

theorem le_packedEnd (start : Nat) (infos : List PeSectionInfo) :
    start ≤ load.packedEnd start infos := by
  induction infos generalizing start with
  | nil => exact le_rfl
  | cons info infos ih => exact (Nat.le_add_right _ _).trans (ih _)

theorem mem_pack {packed : PackedSection} {start : Nat} (h : packed ∈ load.pack start infos) :
    start ≤ packed.start ∧ packed.stop ≤ load.packedEnd start infos ∧
      ∃ info ∈ infos, packed = load.packSection packed.start info := by
  induction infos generalizing start with
  | nil => cases h
  | cons info infos ih =>
    rcases List.mem_cons.mp h with rfl | h
    · exact ⟨le_rfl,le_packedEnd _ _,info,List.mem_cons_self,rfl⟩
    · obtain ⟨hstart,hstop,info',hinfo',heq⟩ := ih h
      exact ⟨(Nat.le_add_right _ _).trans hstart,hstop,info',List.mem_cons_of_mem _ hinfo',heq⟩

theorem rightsOf_range (page first count : Nat) (rights : PageRights) :
    rightsOf page ((List.range count).map fun k => (first + k,rights)) =
      if first ≤ page ∧ page < first + count then some rights else none := by
  induction count with
  | zero =>
    rw [if_neg (by omega)]
    rfl
  | succ count ih =>
    rw [List.range_succ,List.map_append,rightsOf_append,ih,List.map_singleton,rightsOf,rightsOf]
    by_cases hlast : first + count = page
    · have hin : first ≤ page ∧ page < first + (count + 1) := by omega
      rw [if_pos hlast,if_pos hin]
      rfl
    · rw [if_neg hlast]
      by_cases hin : first ≤ page ∧ page < first + count
      · have hin' : first ≤ page ∧ page < first + (count + 1) := by omega
        rw [if_pos hin,if_pos hin']
        rfl
      · have hin' : ¬(first ≤ page ∧ page < first + (count + 1)) := by omega
        rw [if_neg hin,if_neg hin']
        rfl

theorem rightsOf_calls (page : Nat) (rights : PageRights) (packed : PackedSection) :
    rightsOf page (packed.calls rights) =
      if page = packed.firstPage then some (rights.or packed.info.characteristics)
      else if packed.firstPage < page ∧
          page < packed.firstPage + 1 + (packed.stopPage - packed.startPage - 1) then
        some packed.info.characteristics
      else none := by
  rw [PackedSection.calls,rightsOf,rightsOf_range]
  by_cases hfirst : page = packed.firstPage
  · rw [if_pos hfirst,if_neg (by omega),if_pos hfirst.symm]
    rfl
  · rw [if_neg hfirst,if_neg (Ne.symm hfirst),Option.or_none]
    by_cases hin : packed.firstPage < page ∧
        page < packed.firstPage + 1 + (packed.stopPage - packed.startPage - 1)
    · rw [if_pos hin,if_pos ⟨hin.1,hin.2⟩]
    · rw [if_neg hin,if_neg fun h => hin ⟨h.1,h.2⟩]

theorem sectionPuts_cons {head : PackedSection} {rest : List PackedSection} {packedPage page : Nat} :
    SectionPuts (head :: rest) packedPage page ↔
      (head.startPage ≤ packedPage ∧ packedPage < head.stopPage ∧
        page = head.firstPage + (packedPage - head.startPage)) ∨ SectionPuts rest packedPage page :=
  List.exists_mem_cons_iff _ _ _

theorem carried_cons {right : PageRights → Bool} {head : PackedSection}
    {rest : List PackedSection} {packedPage : Nat} :
    Carried right (head :: rest) packedPage ↔
      (head.startPage ≤ packedPage ∧ packedPage ≤ head.stopPage ∧
        right head.info.characteristics = true) ∨ Carried right rest packedPage :=
  List.exists_mem_cons_iff _ _ _

theorem sectionPuts_later {rest : List PackedSection} {bound packedPage page : Nat}
    (hlater : ∀ packed ∈ rest, bound ≤ packed.startPage) (h : SectionPuts rest packedPage page) :
    bound ≤ packedPage := by
  obtain ⟨packed,hmem,hstart,-⟩ := h
  exact (hlater packed hmem).trans hstart

theorem carried_later {right : PageRights → Bool} {rest : List PackedSection}
    {bound packedPage : Nat} (hlater : ∀ packed ∈ rest, bound ≤ packed.startPage)
    (h : Carried right rest packedPage) : bound ≤ packedPage := by
  obtain ⟨packed,hmem,hstart,-⟩ := h
  exact (hlater packed hmem).trans hstart

theorem LastPut.cons_later {head : PackedSection} {rest : List PackedSection}
    {packedPage page : Nat} (hbehind : head.stopPage ≤ packedPage)
    (h : LastPut (SectionPuts rest) packedPage page) :
    LastPut (SectionPuts (head :: rest)) packedPage page := by
  refine ⟨sectionPuts_cons.mpr (Or.inr h.1),?_⟩
  intro packedPage' hputs
  rcases sectionPuts_cons.mp hputs with ⟨-,hstop,-⟩ | hrest
  · exact (hstop.trans_le hbehind).le
  · exact h.2 packedPage' hrest

theorem LastPut.cons_here {head : PackedSection} {rest : List PackedSection}
    {packedPage page : Nat} (hrest : ∀ packedPage, ¬SectionPuts rest packedPage page)
    (hfrom : head.startPage ≤ packedPage) (hto : packedPage < head.stopPage)
    (hpage : page = head.firstPage + (packedPage - head.startPage)) :
    LastPut (SectionPuts (head :: rest)) packedPage page := by
  refine ⟨sectionPuts_cons.mpr (Or.inl ⟨hfrom,hto,hpage⟩),?_⟩
  intro packedPage' hputs
  rcases sectionPuts_cons.mp hputs with ⟨-,-,hpage'⟩ | hputs
  · omega
  · exact absurd hputs (hrest packedPage')

/-- The sections bring the right to the packed page, or the rights from before the loop do. -/
def Brought (sections : List PackedSection) (startPage : Nat) (rights : PageRights)
    (right : PageRights → Bool) (packedPage : Nat) : Prop :=
  (packedPage = startPage ∧ right rights = true) ∨ Carried right sections packedPage

theorem brought_behind {head : PackedSection} {rest : List PackedSection} {rights : PageRights}
    {right : PageRights → Bool} {packedPage : Nat} (hpasses : head.startPage < head.stopPage)
    (hbehind : head.stopPage ≤ packedPage) :
    Brought rest head.stopPage head.info.characteristics right packedPage ↔
      Brought (head :: rest) head.startPage rights right packedPage := by
  rw [Brought,Brought,carried_cons]
  constructor
  · rintro (⟨rfl,hhere⟩ | hcarried)
    · exact Or.inr (Or.inl ⟨hpasses.le,le_rfl,hhere⟩)
    · exact Or.inr (Or.inr hcarried)
  · rintro (⟨hpage,-⟩ | ⟨-,hpage,hhere⟩ | hcarried)
    · omega
    · exact Or.inl ⟨by omega,hhere⟩
    · exact Or.inr hcarried

theorem brought_here {head : PackedSection} {rest : List PackedSection} {rights : PageRights}
    {right : PageRights → Bool} {packedPage : Nat}
    (hlater : ∀ packed ∈ rest, head.stopPage ≤ packed.startPage)
    (hfrom : head.startPage ≤ packedPage) (hto : packedPage < head.stopPage) :
    Brought (head :: rest) head.startPage rights right packedPage ↔
      (packedPage = head.startPage ∧ right rights = true) ∨
        right head.info.characteristics = true := by
  rw [Brought,carried_cons]
  constructor
  · rintro (hbefore | ⟨-,-,hhere⟩ | hcarried)
    · exact Or.inl hbefore
    · exact Or.inr hhere
    · exact absurd (carried_later hlater hcarried) (Nat.not_le.mpr hto)
  · rintro (hbefore | hhere)
    · exact Or.inl hbefore
    · exact Or.inr (Or.inl ⟨hfrom,hto.le,hhere⟩)

theorem brought_pending {head : PackedSection} {rest : List PackedSection} {rights : PageRights}
    {right : PageRights → Bool} {packedPage : Nat} (hsame : head.stopPage = head.startPage)
    (hor : ∀ a b, right (a.or b) = (right a || right b)) :
    Brought rest head.stopPage (rights.or head.info.characteristics) right packedPage ↔
      Brought (head :: rest) head.startPage rights right packedPage := by
  rw [Brought,Brought,hor,Bool.or_eq_true,carried_cons,hsame]
  constructor
  · rintro (⟨rfl,(hbefore | hhere)⟩ | hcarried)
    · exact Or.inl ⟨rfl,hbefore⟩
    · exact Or.inr (Or.inl ⟨le_rfl,le_rfl,hhere⟩)
    · exact Or.inr (Or.inr hcarried)
  · rintro (⟨rfl,hbefore⟩ | ⟨hfrom,hto,hhere⟩ | hcarried)
    · exact Or.inl ⟨rfl,Or.inl hbefore⟩
    · exact Or.inl ⟨le_antisymm hto hfrom,Or.inr hhere⟩
    · exact Or.inr hcarried

/-- What the calls leave a page: nothing where no packed page is put on it, else the rights
brought to the last one that is. -/
def RightsTold (puts : Nat → Nat → Prop) (brought : (PageRights → Bool) → Nat → Prop) (page : Nat) :
    Option PageRights → Prop
  | none => ∀ packedPage, ¬puts packedPage page
  | some result => ∃ packedPage, LastPut puts packedPage page ∧
      ∀ right : PageRights → Bool, (∀ a b, right (a.or b) = (right a || right b)) →
        (right result = true ↔ brought right packedPage)

section OneSection

variable {head : PackedSection} {rest : List PackedSection} {page : Nat}
  {result : Option PageRights}

theorem RightsTold.pending (hsame : head.stopPage = head.startPage) (rights : PageRights)
    (h : RightsTold (SectionPuts rest)
      (Brought rest head.stopPage (rights.or head.info.characteristics)) page result) :
    RightsTold (SectionPuts (head :: rest)) (Brought (head :: rest) head.startPage rights)
      page result := by
  have hputs : SectionPuts (head :: rest) = SectionPuts rest := by
    funext packedPage page
    rw [sectionPuts_cons,or_iff_right]
    omega
  rw [hputs]
  cases result with
  | none => exact h
  | some result =>
    obtain ⟨packedPage,hlast,hright⟩ := h
    exact ⟨packedPage,hlast,fun right hor =>
      (hright right hor).trans (brought_pending hsame hor)⟩

theorem RightsTold.behind (hlater : ∀ packed ∈ rest, head.stopPage ≤ packed.startPage)
    (hpasses : head.startPage < head.stopPage) (rights : PageRights) {result : PageRights}
    (h : RightsTold (SectionPuts rest) (Brought rest head.stopPage head.info.characteristics)
      page (some result)) :
    RightsTold (SectionPuts (head :: rest)) (Brought (head :: rest) head.startPage rights)
      page (some result) := by
  obtain ⟨packedPage,hlast,hright⟩ := h
  have hbehind := sectionPuts_later hlater hlast.1
  exact ⟨packedPage,hlast.cons_later hbehind,fun right hor =>
    (hright right hor).trans (brought_behind hpasses hbehind)⟩

theorem RightsTold.here (hlater : ∀ packed ∈ rest, head.stopPage ≤ packed.startPage)
    (hpasses : head.startPage < head.stopPage) (rights : PageRights)
    (hrest : ∀ packedPage, ¬SectionPuts rest packedPage page) :
    RightsTold (SectionPuts (head :: rest)) (Brought (head :: rest) head.startPage rights)
      page (rightsOf page (head.calls rights)) := by
  rw [rightsOf_calls]
  by_cases hfirst : page = head.firstPage
  · rw [if_pos hfirst]
    refine ⟨head.startPage,LastPut.cons_here hrest le_rfl hpasses (by omega),?_⟩
    intro right hor
    rw [hor,Bool.or_eq_true,brought_here hlater le_rfl hpasses]
    exact or_congr_left (iff_and_self.mpr fun _ => rfl)
  · rw [if_neg hfirst]
    by_cases hin : head.firstPage < page ∧
        page < head.firstPage + 1 + (head.stopPage - head.startPage - 1)
    · rw [if_pos hin]
      have hfrom : head.startPage ≤ head.startPage + (page - head.firstPage) :=
        Nat.le_add_right _ _
      have hto : head.startPage + (page - head.firstPage) < head.stopPage := by omega
      refine ⟨_,LastPut.cons_here hrest hfrom hto (by omega),?_⟩
      intro right hor
      rw [brought_here hlater hfrom hto,or_iff_right]
      omega
    · rw [if_neg hin]
      intro packedPage hputs
      rcases sectionPuts_cons.mp hputs with hhead | hputs
      · omega
      · exact hrest packedPage hputs

end OneSection

variable (load infos) in
/-- The loop over the sections gives a page the rights brought to the last packed page that is
put on it; those carried from before count on the packed page the loop starts on. -/
theorem rightsOf_sectionCalls (start : Nat) (rights : PageRights) (page : Nat) :
    RightsTold (SectionPuts (load.pack start infos))
      (Brought (load.pack start infos) (start / pageSize) rights) page
      (rightsOf page (sectionCalls rights (load.pack start infos))) := by
  induction infos generalizing start rights with
  | nil =>
    rintro packedPage ⟨packed,hmem,-⟩
    cases hmem
  | cons info infos ih =>
    have hrest := ih (start + load.sectionSize info)
    have hlater : ∀ packed ∈ load.pack (start + load.sectionSize info) infos,
        (load.packSection start info).stopPage ≤ packed.startPage := fun packed hmem =>
      Nat.div_le_div_right (mem_pack hmem).1
    rw [pack,sectionCalls]
    obtain ⟨head,hhead⟩ : ∃ head, load.packSection start info = head := ⟨_,rfl⟩
    obtain ⟨rest,hpacked⟩ : ∃ rest, load.pack (start + load.sectionSize info) infos = rest :=
      ⟨_,rfl⟩
    have hstart : start / pageSize = head.startPage := by rw [← hhead]; rfl
    have hstop : (start + load.sectionSize info) / pageSize = head.stopPage := by rw [← hhead]; rfl
    have hle : head.startPage ≤ head.stopPage := by
      rw [← hstart,← hstop]
      exact Nat.div_le_div_right (Nat.le_add_right _ _)
    rw [hhead,hpacked] at hlater ⊢
    rw [hpacked,hstop] at hrest
    rw [hstart]
    by_cases hpasses : head.startPage < head.stopPage
    · rw [if_pos hpasses,rightsOf_append]
      have hbehind := hrest head.info.characteristics
      cases hresult : rightsOf page (sectionCalls head.info.characteristics rest) with
      | some result =>
        rw [hresult] at hbehind
        exact hbehind.behind hlater hpasses rights
      | none =>
        rw [hresult] at hbehind
        rw [Option.none_or]
        exact RightsTold.here hlater hpasses rights hbehind
    · rw [if_neg hpasses]
      have hsame : head.stopPage = head.startPage := by omega
      exact (hrest _).pending hsame rights

section Image

variable (load infos)

/-- A packed page is put on a page of the image: the whole pages of the headers, the pages that
sections complete, and behind the loop the page that is not complete yet. That one is put behind
the first page of the last section that completed one. -/
def Puts (packedPage page : Nat) : Prop :=
  (packedPage < (load.header.sizeOfHeaders - 1) / pageSize ∧ page = packedPage) ∨
    SectionPuts (load.packed infos) packedPage page ∨
      (lastLeft (load.packed infos) ≠ 0 ∧
        packedPage = load.packedEnd load.header.sizeOfHeaders infos / pageSize ∧
          ∃ packed, lastPassing (load.packed infos) = some packed ∧ page = packed.firstPage + 1)

/-- The headers or a section with the right meet the packed page. -/
def PackedRight (right : PageRights → Bool) (packedPage : Nat) : Prop :=
  (packedPage ≤ load.header.sizeOfHeaders / pageSize ∧ right pageRightsRead = true) ∨
    Carried right (load.packed infos) packedPage

end Image

variable (load infos) in
theorem foldl_cursorStep_rights (start : Nat) (cursor : Cursor) (right : PageRights → Bool)
    (hor : ∀ a b, right (a.or b) = (right a || right b)) :
    right ((load.pack start infos).foldl load.cursorStep cursor).rights = true ↔
      (start / pageSize = load.packedEnd start infos / pageSize ∧ right cursor.rights = true) ∨
        Carried right (load.pack start infos) (load.packedEnd start infos / pageSize) := by
  induction infos generalizing start cursor with
  | nil =>
    constructor
    · exact fun hright => Or.inl ⟨rfl,hright⟩
    · rintro (⟨-,hright⟩ | ⟨packed,hmem,-⟩)
      · exact hright
      · cases hmem
  | cons info infos ih =>
    have hend : (start + load.sectionSize info) / pageSize ≤
        load.packedEnd (start + load.sectionSize info) infos / pageSize :=
      Nat.div_le_div_right (le_packedEnd _ _)
    have hle : start / pageSize ≤ (start + load.sectionSize info) / pageSize :=
      Nat.div_le_div_right (Nat.le_add_right _ _)
    rw [pack,List.foldl_cons,packedEnd,ih,cursorStep,carried_cons]
    change _ ↔ _ ∨ ((start / pageSize ≤ _ ∧ _ ≤ (start + load.sectionSize info) / pageSize ∧
      right info.characteristics = true) ∨ _)
    by_cases hpasses : start / pageSize < (start + load.sectionSize info) / pageSize
    · have hpasses' : (load.packSection start info).startPage <
          (load.packSection start info).stopPage := hpasses
      rw [if_pos hpasses']
      constructor
      · rintro (⟨hpage,hright⟩ | hcarried)
        · exact Or.inr (Or.inl ⟨by omega,hpage.ge,hright⟩)
        · exact Or.inr (Or.inr hcarried)
      · rintro (⟨hpage,-⟩ | ⟨-,hpage,hright⟩ | hcarried)
        · omega
        · exact Or.inl ⟨by omega,hright⟩
        · exact Or.inr hcarried
    · have hpasses' : ¬(load.packSection start info).startPage <
          (load.packSection start info).stopPage := hpasses
      have hor' : right (cursor.rights.or info.characteristics) = true ↔
          right cursor.rights = true ∨ right info.characteristics = true := by
        rw [hor,Bool.or_eq_true]
      rw [if_neg hpasses']
      change _ ∧ right (cursor.rights.or info.characteristics) = true ∨ _ ↔ _
      rw [hor']
      constructor
      · rintro (⟨hpage,hbefore | hhere⟩ | hcarried)
        · exact Or.inl ⟨by omega,hbefore⟩
        · exact Or.inr (Or.inl ⟨by omega,by omega,hhere⟩)
        · exact Or.inr (Or.inr hcarried)
      · rintro (⟨hpage,hbefore⟩ | ⟨-,hpage,hhere⟩ | hcarried)
        · exact Or.inl ⟨by omega,Or.inl hbefore⟩
        · exact Or.inl ⟨by omega,Or.inr hhere⟩
        · exact Or.inr hcarried

theorem packed_later : ∀ packed ∈ load.packed infos,
    load.header.sizeOfHeaders / pageSize ≤ packed.startPage := fun _ hmem =>
  Nat.div_le_div_right (mem_pack hmem).1

theorem sectionPuts_lt_end {packedPage page : Nat}
    (h : SectionPuts (load.packed infos) packedPage page) :
    packedPage < load.packedEnd load.header.sizeOfHeaders infos / pageSize := by
  obtain ⟨packed,hmem,-,hstop,-⟩ := h
  exact hstop.trans_le (Nat.div_le_div_right (mem_pack hmem).2.1)

variable (load infos) in
theorem headers_le_end : (load.header.sizeOfHeaders - 1) / pageSize ≤
    load.packedEnd load.header.sizeOfHeaders infos / pageSize :=
  Nat.div_le_div_right ((Nat.sub_le _ _).trans (le_packedEnd _ _))

theorem rightsOf_headerCalls (page : Nat) : rightsOf page load.headerCalls =
    if page < (load.header.sizeOfHeaders - 1) / pageSize then some pageRightsRead else none := by
  have hrange := rightsOf_range page 0 ((load.header.sizeOfHeaders - 1) / pageSize) pageRightsRead
  simp only [Nat.zero_add,Nat.zero_le,true_and] at hrange
  exact hrange

theorem rightsOf_lastCalls (page : Nat) : rightsOf page (load.lastCalls infos) =
    if lastLeft (load.packed infos) ≠ 0 ∧ ∃ packed,
        lastPassing (load.packed infos) = some packed ∧ page = packed.firstPage + 1 then
      some (load.cursor infos).rights
    else none := by
  rw [lastCalls]
  by_cases hleft : lastLeft (load.packed infos) ≠ 0
  · rw [if_pos hleft]
    cases hpassing : lastPassing (load.packed infos) with
    | none =>
      rw [if_neg]
      · rfl
      · rintro ⟨-,packed,hsome,-⟩
        cases hsome
    | some packed =>
      rw [Option.toList_some,List.map_singleton,rightsOf,rightsOf,Option.none_or]
      by_cases hpage : packed.firstPage + 1 = page
      · rw [if_pos hpage,if_pos ⟨hleft,packed,rfl,hpage.symm⟩]
      · rw [if_neg hpage,if_neg]
        rintro ⟨-,packed',hsome,hpage'⟩
        cases hsome
        exact hpage hpage'.symm
  · rw [if_neg hleft,if_neg fun h => hleft h.1]
    rfl

variable (load infos) in
theorem rightsOf_imageCalls (page : Nat) :
    RightsTold (load.Puts infos) (load.PackedRight infos) page
      (rightsOf page (load.imageCalls infos)) := by
  have hheaders := headers_le_end load infos
  have hstart : load.header.sizeOfHeaders / pageSize ≤
      load.packedEnd load.header.sizeOfHeaders infos / pageSize :=
    Nat.div_le_div_right (le_packedEnd _ _)
  have hsizes : (load.header.sizeOfHeaders - 1) / pageSize ≤ load.header.sizeOfHeaders / pageSize :=
    Nat.div_le_div_right (Nat.sub_le _ _)
  rw [imageCalls,rightsOf_append,rightsOf_append,rightsOf_lastCalls]
  by_cases hlast : lastLeft (load.packed infos) ≠ 0 ∧ ∃ packed,
      lastPassing (load.packed infos) = some packed ∧ page = packed.firstPage + 1
  · rw [if_pos hlast]
    refine ⟨_,⟨Or.inr (Or.inr ⟨hlast.1,rfl,hlast.2⟩),?_⟩,?_⟩
    · rintro packedPage' (⟨hlt,-⟩ | hputs | ⟨-,hpage,-⟩)
      · exact (hlt.trans_le hheaders).le
      · exact (sectionPuts_lt_end hputs).le
      · exact hpage.le
    · intro right hor
      have hrights := foldl_cursorStep_rights load infos
        load.header.sizeOfHeaders ⟨pageRightsRead,0,0⟩ right hor
      change right (load.cursor infos).rights = true ↔ _ at hrights
      rw [hrights]
      refine or_congr (and_congr_left' ?_) Iff.rfl
      omega
  · rw [if_neg hlast,Option.none_or]
    have hsection : RightsTold _ _ page
        (rightsOf page (sectionCalls pageRightsRead (load.packed infos))) :=
      rightsOf_sectionCalls load infos load.header.sizeOfHeaders pageRightsRead page
    cases hresult : rightsOf page (sectionCalls pageRightsRead (load.packed infos)) with
    | some result =>
      rw [hresult] at hsection
      obtain ⟨packedPage,⟨hputs,hgreatest⟩,hrights⟩ := hsection
      have hbehind := sectionPuts_later packed_later hputs
      refine ⟨packedPage,⟨Or.inr (Or.inl hputs),?_⟩,?_⟩
      · rintro packedPage' (⟨hlt,-⟩ | hputs' | ⟨hleft,-,hpassing⟩)
        · omega
        · exact hgreatest packedPage' hputs'
        · exact absurd ⟨hleft,hpassing⟩ hlast
      · intro right hor
        rw [hrights right hor]
        refine or_congr (and_congr_left' ?_) Iff.rfl
        omega
    | none =>
      rw [hresult] at hsection
      rw [Option.none_or,rightsOf_headerCalls]
      by_cases hheader : page < (load.header.sizeOfHeaders - 1) / pageSize
      · rw [if_pos hheader]
        refine ⟨page,⟨Or.inl ⟨hheader,rfl⟩,?_⟩,?_⟩
        · rintro packedPage' (⟨-,hpage⟩ | hputs' | ⟨hleft,-,hpassing⟩)
          · exact hpage.ge
          · exact absurd hputs' (hsection packedPage')
          · exact absurd ⟨hleft,hpassing⟩ hlast
        · intro right hor
          constructor
          · exact fun hright => Or.inl ⟨by omega,hright⟩
          · rintro (⟨-,hright⟩ | hcarried)
            · exact hright
            · have hbehind := carried_later packed_later hcarried
              omega
      · rw [if_neg hheader]
        rintro packedPage' (⟨hlt,hpage⟩ | hputs' | ⟨hleft,-,hpassing⟩)
        · exact hheader (hpage ▸ hlt)
        · exact hsection packedPage' hputs'
        · exact hlast ⟨hleft,hpassing⟩

theorem rightsOf_ne_none {call : Nat × PageRights} {calls : List (Nat × PageRights)}
    (h : call ∈ calls) : rightsOf call.1 calls ≠ none := by
  induction calls with
  | nil => cases h
  | cons call' calls ih =>
    rw [rightsOf]
    rcases List.mem_cons.mp h with rfl | h
    · rw [if_pos rfl]
      cases rightsOf call.1 calls with
      | none => exact Option.some_ne_none _
      | some rights => exact Option.some_ne_none _
    · cases hrights : rightsOf call.1 calls with
      | none => exact absurd hrights (ih h)
      | some rights => exact Option.some_ne_none _

theorem Placed.packed_lt (hplaced : load.Placed) (hsections : load.header.sections = infos.map some)
    {packed : PackedSection} (h : packed ∈ load.packed infos) :
    packed.firstPage < 2 ^ 20 ∧ packed.stopPage ≤ packed.startPage + 2 ^ 20 := by
  obtain ⟨-,-,info,hinfo,heq⟩ := mem_pack h
  have hoffset := hplaced.offset_lt info (by
    rw [hsections]
    exact List.mem_map_of_mem hinfo)
  have hsize : load.sectionSize info < 2 ^ 32 := Nat.mod_lt _ (Nat.two_pow_pos 32)
  rw [heq]
  simp only [packSection,PackedSection.stopPage,PackedSection.startPage,pageSize]
  omega

theorem lastPassing_mem {sections : List PackedSection} {packed : PackedSection}
    (h : lastPassing sections = some packed) : packed ∈ sections :=
  List.mem_of_mem_filter (List.mem_of_getLast? h)

theorem Placed.puts_lt (hplaced : load.Placed) (hsections : load.header.sections = infos.map some)
    {packedPage page : Nat} (h : load.Puts infos packedPage page) : page < imagePages := by
  have hheaders := hplaced.sizeOfHeaders_lt
  unfold imagePages
  rcases h with ⟨hlt,rfl⟩ | ⟨packed,hmem,hstart,hstop,rfl⟩ | ⟨-,-,packed,hpassing,rfl⟩
  · simp only [pageSize] at hlt
    omega
  · have hbounds := hplaced.packed_lt hsections hmem
    omega
  · have hbounds := hplaced.packed_lt hsections (lastPassing_mem hpassing)
    omega

theorem Placed.call_lt (hplaced : load.Placed) (hsections : load.header.sections = infos.map some)
    {call : Nat × PageRights} (h : call ∈ load.imageCalls infos) : call.1 < imagePages := by
  have hrights := rightsOf_imageCalls load infos call.1
  cases hresult : rightsOf call.1 (load.imageCalls infos) with
  | none => exact absurd hresult (rightsOf_ne_none h)
  | some result =>
    rw [hresult] at hrights
    obtain ⟨packedPage,hlast,-⟩ := hrights
    exact hplaced.puts_lt hsections hlast.1

section Claims

variable (load infos)

/-- A byte of the section lies in the page. -/
def InPage (info : PeSectionInfo) (page : Nat) : Prop :=
  0 < info.size ∧ ptrDiff info.baseAddress load.header.imageBase < (page + 1) * pageSize ∧
    page * pageSize < ptrDiff info.baseAddress load.header.imageBase + info.size

/-- A byte of the headers or of a section lies in the page. -/
def Touched (page : Nat) : Prop :=
  page * pageSize < load.header.sizeOfHeaders ∨ ∃ info ∈ infos, load.InPage info page

/-- The page of the image is mapped to the page that backs it. -/
def Backed (s : WalkState PagingData) (page : Nat) : Prop :=
  ∃ entry, s.memory.leafAt s.context.basePhysicalAddress (tableOffsets (load.pageAddress page)) =
    some (entry,0) ∧ entry.physicalAddress = load.backing page

/-- A section with the right has a byte in the page. -/
def SectionRight (right : PageRights → Bool) (page : Nat) : Prop :=
  ∃ info ∈ infos, load.InPage info page ∧ right info.characteristics = true

/-- If the page is mapped, then with the rights of what has a byte in it. Every page that is
mapped can be read, and the headers ask for no more. -/
def LeastRights (s : WalkState PagingData) (page : Nat) : Prop :=
  ∀ entry, s.memory.leafAt s.context.basePhysicalAddress (tableOffsets (load.pageAddress page)) =
      some (entry,0) →
    (entry.writable = true ↔ load.SectionRight infos (·.write) page) ∧
      (entry.executable = true ↔ load.SectionRight infos (·.execute) page)

/-- The pool has the tables that the pages of the image lack, and no large page is in their way. -/
structure HasRoom (paths : Finset (List (Fin 512))) (s : WalkState PagingData) : Prop where
  length : ∀ path ∈ paths, path.length ≤ 3
  walk : WalkInv paths s.memory s.context
  enough : s.context.currentIndex + (s.missing paths).card ≤ s.context.numberOfFrames
  pages : ∀ packedPage page, load.Puts infos packedPage page →
    rangePaths (load.pageAddress page) 1 ⊆ paths

end Claims

theorem Placed.touched_lt (hplaced : load.Placed)
    (hsections : load.header.sections = infos.map some) {page : Nat}
    (h : load.Touched infos page) : page < imagePages := by
  have hheaders := hplaced.sizeOfHeaders_lt
  unfold imagePages
  rcases h with hpage | ⟨info,hinfo,-,-,hpage⟩
  · simp only [pageSize] at hpage
    omega
  · have hmem : some info ∈ load.header.sections := by
      rw [hsections]
      exact List.mem_map_of_mem hinfo
    have hoffset := hplaced.offset_lt info hmem
    have hsize := hplaced.size_lt info hmem
    simp only [pageSize] at hpage
    omega

/-- An image is accepted unless a section is writable and executable, or what is left behind the
loop has no page to be mapped behind. -/
theorem Placed.mmuMapPeInMemory_returns (hplaced : load.Placed)
    (hsections : load.header.sections = infos.map some)
    (halignment : load.header.fileAlignment = load.header.imageAlignment)
    {paths : Finset (List (Fin 512))} {s : WalkState PagingData}
    (hroom : load.HasRoom infos paths s) (hrights : RightsAllowed infos)
    (hpassing : lastLeft (load.packed infos) ≠ 0 → (lastPassing (load.packed infos)).isSome) :
    ∃ s', load.mmuMapPeInMemory s = some (.ok (),s') := by
  have hcalls : ∀ call ∈ load.imageCalls infos, call.1 < imagePages ∧
      rangePaths (load.pageAddress call.1) 1 ⊆ paths := by
    intro call hcall
    refine ⟨hplaced.call_lt hsections hcall,?_⟩
    have hcallRights := rightsOf_imageCalls load infos call.1
    cases hresult : rightsOf call.1 (load.imageCalls infos) with
    | none => exact absurd hresult (rightsOf_ne_none hcall)
    | some result =>
      rw [hresult] at hcallRights
      obtain ⟨packedPage,hlast,-⟩ := hcallRights
      exact hroom.pages packedPage call.1 hlast.1
  obtain ⟨s',hmap⟩ := hplaced.mapCalls_returns hroom.length hroom.walk hroom.enough hcalls
  exact ⟨s',(hplaced.mmuMapPeInMemory_ok hsections s s').mpr
    ⟨halignment,hrights,hpassing,hmap⟩⟩

theorem Placed.mapped (hplaced : load.Placed) (hsections : load.header.sections = infos.map some)
    {s s' : WalkState PagingData} (htree : PagingTree s.memory s.context)
    (h : load.mmuMapPeInMemory s = some (.ok (),s')) :
    CallsMapped load (load.imageCalls infos) s s' :=
  hplaced.mapCalls_mapped htree (fun _ hcall => hplaced.call_lt hsections hcall)
    ((hplaced.mmuMapPeInMemory_ok hsections s s').mp h).2.2.2

theorem CallsMapped.base {calls : List (Nat × PageRights)} {s s' : WalkState PagingData}
    (h : CallsMapped load calls s s') :
    s'.context.basePhysicalAddress = s.context.basePhysicalAddress := by
  rw [h.pool]

theorem Placed.backed_iff (hplaced : load.Placed)
    {s s' : WalkState PagingData} (h : CallsMapped load (load.imageCalls infos) s s') {page : Nat}
    (hpage : page < imagePages) :
    load.Backed s' page ↔ (∃ packedPage, load.Puts infos packedPage page) ∨ load.Backed s page := by
  have hleaf := h.leaf page hpage
  have hrights := rightsOf_imageCalls load infos page
  rw [Backed,Backed,h.base]
  cases hresult : rightsOf page (load.imageCalls infos) with
  | none =>
    rw [hresult] at hleaf hrights
    rw [or_iff_right fun ⟨packedPage,hputs⟩ => hrights packedPage hputs]
    simp only [hleaf]
  | some result =>
    rw [hresult] at hleaf hrights
    obtain ⟨packedPage,hlast,-⟩ := hrights
    constructor
    · exact fun _ => Or.inl ⟨packedPage,hlast.1⟩
    · exact fun _ => ⟨_,hleaf,hplaced.imageEntry_physicalAddress hpage _ _⟩

theorem packedRight_iff (right : PageRights → Bool) (hread : right pageRightsRead = false)
    (packedPage : Nat) : load.PackedRight infos right packedPage ↔
      Carried right (load.packed infos) packedPage := by
  rw [PackedRight,hread]
  exact or_iff_right fun h => Bool.false_ne_true h.2

theorem CallsMapped.last_rights {s s' : WalkState PagingData}
    (h : CallsMapped load (load.imageCalls infos) s s') {packedPage page : Nat}
    (hpage : page < imagePages) (hlast : LastPut (load.Puts infos) packedPage page) :
    ∃ rights, s'.memory.leafAt s'.context.basePhysicalAddress
        (tableOffsets (load.pageAddress page)) =
          some (load.imageEntry s.context.kernelSpace page rights,0) ∧
      (rights.write = true ↔ Carried (·.write) (load.packed infos) packedPage) ∧
      (rights.execute = true ↔ Carried (·.execute) (load.packed infos) packedPage) := by
  have hleaf := h.leaf page hpage
  have hrights := rightsOf_imageCalls load infos page
  rw [h.base]
  cases hresult : rightsOf page (load.imageCalls infos) with
  | none =>
    rw [hresult] at hrights
    exact absurd hlast.1 (hrights packedPage)
  | some rights =>
    rw [hresult] at hleaf hrights
    obtain ⟨packedPage',hlast',hright⟩ := hrights
    have hsame : packedPage' = packedPage :=
      le_antisymm (hlast.2 packedPage' hlast'.1) (hlast'.2 packedPage hlast.1)
    subst hsame
    refine ⟨rights,hleaf,?_,?_⟩
    · rw [← packedRight_iff (fun rights => rights.write) rfl]
      exact hright _ fun _ _ => rfl
    · rw [← packedRight_iff (fun rights => rights.execute) rfl]
      exact hright _ fun _ _ => rfl

theorem CallsMapped.unput {s s' : WalkState PagingData}
    (h : CallsMapped load (load.imageCalls infos) s s') {page : Nat} (hpage : page < imagePages)
    (hnone : ∀ packedPage, ¬load.Puts infos packedPage page) :
    s'.memory.leafAt s'.context.basePhysicalAddress (tableOffsets (load.pageAddress page)) =
      s.memory.leafAt s.context.basePhysicalAddress (tableOffsets (load.pageAddress page)) := by
  have hleaf := h.leaf page hpage
  have hrights := rightsOf_imageCalls load infos page
  rw [h.base]
  cases hresult : rightsOf page (load.imageCalls infos) with
  | none =>
    rw [hresult] at hleaf
    exact hleaf
  | some rights =>
    rw [hresult] at hrights
    obtain ⟨packedPage,hlast,-⟩ := hrights
    exact absurd hlast.1 (hnone packedPage)

theorem exists_lastPut {page : Nat} (h : ¬∀ packedPage, ¬load.Puts infos packedPage page) :
    ∃ packedPage, LastPut (load.Puts infos) packedPage page := by
  have hrights := rightsOf_imageCalls load infos page
  cases hresult : rightsOf page (load.imageCalls infos) with
  | none =>
    rw [hresult] at hrights
    exact absurd hrights h
  | some rights =>
    rw [hresult] at hrights
    obtain ⟨packedPage,hlast,-⟩ := hrights
    exact ⟨packedPage,hlast⟩

/-! Two images: in the first one the sections follow the headers within the pages, in the second
one all parts are made of whole pages. -/

def pageRightsReadExecute : PageRights := ⟨true,false,true⟩

private theorem word_aligned (va : Nat) (h : isAddressAligned va pageSize = true) :
    isAddressAligned (va % qwordModulus) pageSize = true := by
  simp only [isAddressAligned,beq_iff_eq,qwordModulus,pageSize] at h ⊢
  omega

private theorem word_lt (va : Nat) : va % qwordModulus < qwordModulus := Nat.mod_lt _ (by decide)

def exampleLoad (sizeOfHeaders alignment : Nat) (infos : List PeSectionInfo) : PeLoad where
  vmmData := ⟨0,3⟩
  mmuGetPhysicalAddress va := va % qwordModulus
  header := ⟨0x10000000,sizeOfHeaders,alignment,alignment,infos.map some⟩
  addressToMap := 0x400000
  physical_aligned := word_aligned
  physical_lt := word_lt

def packedSections : List PeSectionInfo :=
  [⟨0x10000400,0x1200,pageRightsReadExecute⟩,⟨0x10001600,0x200,pageRightsReadWrite⟩]

def packedImage : PeLoad := exampleLoad 0x400 0x200 packedSections

def separateSections : List PeSectionInfo :=
  [⟨0x10001000,0x1000,pageRightsReadExecute⟩,⟨0x10002000,0x1000,pageRightsReadWrite⟩]

def separateImage : PeLoad := exampleLoad 0x1000 0x1000 separateSections

def exampleTables : WalkState PagingData := ⟨emptyTables,examplePaging⟩

private theorem exampleLoad_placed {sizeOfHeaders alignment : Nat} {infos : List PeSectionInfo}
    (halignment : ∃ k, alignment = 2 ^ k) (hheaders : sizeOfHeaders < 2 ^ 32)
    (hinfos : ∀ info ∈ infos, ptrDiff info.baseAddress 0x10000000 < 2 ^ 32 ∧ info.size < 2 ^ 32) :
    (exampleLoad sizeOfHeaders alignment infos).Placed where
  imageAlignment_pow := halignment
  imageBase_aligned := by
    change isAddressAligned 0x10000000 pageSize = true
    rfl
  imageBase_lt := by
    change 0x10000000 < qwordModulus
    decide
  address_pos := by
    change 0x400000 ≠ 0
    decide
  address_aligned := by
    change isAddressAligned 0x400000 pageSize = true
    rfl
  room := by
    change 0x400000 + 2 ^ 34 ≤ qwordModulus
    decide
  sizeOfHeaders_lt := hheaders
  offset_lt info h := by
    obtain ⟨info',hmem,heq⟩ := List.mem_map.mp h
    cases heq
    exact (hinfos info hmem).1
  size_lt info h := by
    obtain ⟨info',hmem,heq⟩ := List.mem_map.mp h
    cases heq
    exact (hinfos info hmem).2

private theorem packedImage_placed : packedImage.Placed :=
  exampleLoad_placed ⟨9,rfl⟩ (by decide) (by decide)

private theorem separateImage_placed : separateImage.Placed :=
  exampleLoad_placed ⟨12,rfl⟩ (by decide) (by decide)

private theorem exampleTables_tree : PagingTree exampleTables.memory exampleTables.context :=
  (emptyTables_treeCondition ⟨rfl,by decide,by decide,by decide,by decide⟩ rfl).toPagingTree

private theorem exampleTables_room {load : PeLoad} {infos : List PeSectionInfo}
    (haddress : load.addressToMap = 0x400000)
    (hputs : ∀ packedPage page, load.Puts infos packedPage page → page < 3) :
    load.HasRoom infos (rangePaths 0x400000 3) exampleTables where
  length := rangePaths_length
  walk := ⟨exampleTables_tree,fun _ _ _ _ _ hpresent => by cases hpresent⟩
  enough := by
    unfold WalkState.missing
    decide
  pages packedPage page h := by
    have hpage := hputs packedPage page h
    rw [PeLoad.pageAddress,haddress]
    interval_cases page <;> decide

private theorem packedImage_packed : packedImage.packed packedSections =
    [⟨⟨0x10000400,0x1200,pageRightsReadExecute⟩,0x400,0x1600,0⟩,
      ⟨⟨0x10001600,0x200,pageRightsReadWrite⟩,0x1600,0x1800,1⟩] := rfl

private theorem separateImage_packed : separateImage.packed separateSections =
    [⟨⟨0x10001000,0x1000,pageRightsReadExecute⟩,0x1000,0x2000,1⟩,
      ⟨⟨0x10002000,0x1000,pageRightsReadWrite⟩,0x2000,0x3000,2⟩] := rfl

private theorem packedImage_puts {packedPage page : Nat} :
    packedImage.Puts packedSections packedPage page ↔ packedPage < 2 ∧ page = packedPage := by
  have hheaders : (packedImage.header.sizeOfHeaders - 1) / pageSize = 0 := rfl
  have hend : packedImage.packedEnd packedImage.header.sizeOfHeaders packedSections / pageSize =
    1 := rfl
  have hleft : lastLeft (packedImage.packed packedSections) ≠ 0 := by decide
  have hpassing : lastPassing (packedImage.packed packedSections) =
    some ⟨⟨0x10000400,0x1200,pageRightsReadExecute⟩,0x400,0x1600,0⟩ := rfl
  rw [Puts,hheaders,hend,hpassing]
  rw [packedImage_packed] at hleft
  simp only [SectionPuts,packedImage_packed,List.exists_mem_cons_iff,PackedSection.startPage,
    PackedSection.stopPage,pageSize]
  constructor
  · rintro (⟨hlt,-⟩ | (hfirst | hsecond | ⟨packed,hmem,-⟩) | ⟨-,rfl,packed,hsome,hpage⟩)
    · omega
    · omega
    · omega
    · cases hmem
    · cases hsome
      exact ⟨Nat.one_lt_two,hpage⟩
  · rintro ⟨hlt,rfl⟩
    by_cases hzero : page = 0
    · exact Or.inr (Or.inl (Or.inl (by omega)))
    · have hone : page = 1 := by omega
      exact Or.inr (Or.inr ⟨hleft,hone,_,rfl,hone⟩)

private theorem separateImage_puts {packedPage page : Nat} :
    separateImage.Puts separateSections packedPage page ↔
      1 ≤ packedPage ∧ packedPage < 3 ∧ page = packedPage := by
  have hheaders : (separateImage.header.sizeOfHeaders - 1) / pageSize = 0 := rfl
  have hleft : lastLeft (separateImage.packed separateSections) = 0 := by decide
  rw [Puts,hheaders,hleft]
  simp only [SectionPuts,separateImage_packed,List.exists_mem_cons_iff,PackedSection.startPage,
    PackedSection.stopPage,pageSize]
  constructor
  · rintro (⟨hlt,-⟩ | (hfirst | hsecond | ⟨packed,hmem,-⟩) | ⟨hne,-⟩)
    · omega
    · omega
    · omega
    · cases hmem
    · exact absurd rfl hne
  · rintro ⟨hfrom,hto,rfl⟩
    by_cases hone : page = 1
    · exact Or.inr (Or.inl (Or.inl (by omega)))
    · exact Or.inr (Or.inl (Or.inr (Or.inl (by omega))))

private theorem packedImage_room :
    packedImage.HasRoom packedSections (rangePaths 0x400000 3) exampleTables :=
  exampleTables_room rfl fun _ _ h => by
    have hputs := packedImage_puts.mp h
    omega

private theorem packedImage_touched {page : Nat} :
    packedImage.Touched packedSections page ↔ page < 2 := by
  simp only [Touched,InPage,packedSections,List.exists_mem_cons_iff,List.not_mem_nil,false_and,
    exists_false,or_false]
  change page * pageSize < 0x400 ∨ (_ ∧ 0x400 < _ ∧ _ < 0x400 + 0x1200) ∨
    (_ ∧ 0x1600 < _ ∧ _ < 0x1600 + 0x200) ↔ _
  simp only [pageSize]
  omega

private theorem separateImage_room :
    separateImage.HasRoom separateSections (rangePaths 0x400000 3) exampleTables :=
  exampleTables_room rfl fun _ _ h => by
    have hputs := separateImage_puts.mp h
    omega

private theorem separateImage_run : ∃ s',
    separateImage.mmuMapPeInMemory exampleTables = some (.ok (),s') := by
  refine separateImage_placed.mmuMapPeInMemory_returns rfl rfl separateImage_room ?_ ?_
  · unfold RightsAllowed
    decide
  · intro hleft
    exact absurd (by decide) hleft

/-- Every page with a byte of the headers or of a section is mapped to the page that backs it,
if and only if no section is writable and executable, what is left behind the loop has a page to
be mapped behind, and each such page has a packed page put on it (or was mapped so before). -/
theorem image_mapped_iff {load : PeLoad} {infos : List PeSectionInfo} (hplaced : load.Placed)
    (hsections : load.header.sections = infos.map some)
    (halignment : load.header.fileAlignment = load.header.imageAlignment)
    {paths : Finset (List (Fin 512))} {s : WalkState PagingData}
    (hroom : load.HasRoom infos paths s) :
    (∃ s', load.mmuMapPeInMemory s = some (.ok (),s') ∧
        ∀ page, load.Touched infos page → load.Backed s' page) ↔
      RightsAllowed infos ∧
        (lastLeft (load.packed infos) ≠ 0 → (lastPassing (load.packed infos)).isSome) ∧
        ∀ page, load.Touched infos page →
          (∃ packedPage, load.Puts infos packedPage page) ∨ load.Backed s page := by
  constructor
  · rintro ⟨s',hrun,hbacked⟩
    obtain ⟨-,hrights,hpassing,-⟩ := (hplaced.mmuMapPeInMemory_ok hsections s s').mp hrun
    refine ⟨hrights,hpassing,?_⟩
    intro page htouched
    have hmapped := hplaced.mapped hsections hroom.walk.tree hrun
    exact (hplaced.backed_iff hmapped (hplaced.touched_lt hsections htouched)).mp
      (hbacked page htouched)
  · rintro ⟨hrights,hpassing,hputs⟩
    obtain ⟨s',hrun⟩ := hplaced.mmuMapPeInMemory_returns hsections halignment hroom hrights
      hpassing
    refine ⟨s',hrun,?_⟩
    intro page htouched
    have hmapped := hplaced.mapped hsections hroom.walk.tree hrun
    exact (hplaced.backed_iff hmapped (hplaced.touched_lt hsections htouched)).mpr
      (hputs page htouched)

/-- The first image, whose pages are all mapped. -/
theorem image_mapped_packed :
    ∃ s', packedImage.mmuMapPeInMemory exampleTables = some (.ok (),s') ∧
      ∀ page, packedImage.Touched packedSections page → packedImage.Backed s' page := by
  refine (image_mapped_iff packedImage_placed rfl rfl packedImage_room).mpr ⟨?_,?_,?_⟩
  · unfold RightsAllowed
    decide
  · exact fun _ => rfl
  · intro page htouched
    exact Or.inl ⟨page,packedImage_puts.mpr ⟨packedImage_touched.mp htouched,rfl⟩⟩

/-- The headers of the second image fill a page, which is not mapped. -/
theorem full_headers_unmapped :
    ∃ s', separateImage.mmuMapPeInMemory exampleTables = some (.ok (),s') ∧
      separateImage.Touched separateSections 0 ∧ ¬separateImage.Backed s' 0 := by
  obtain ⟨s',hrun⟩ := separateImage_run
  have hmapped := separateImage_placed.mapped rfl exampleTables_tree hrun
  refine ⟨s',hrun,Or.inl (by decide),?_⟩
  rw [separateImage_placed.backed_iff hmapped (by decide)]
  rintro (⟨packedPage,hputs⟩ | ⟨entry,hleaf,-⟩)
  · have hpage := separateImage_puts.mp hputs
    omega
  · cases hleaf

/-- All pages that are mapped have the rights of what has a byte in them and no other, if and
only if for each page the last packed page put on it is met by sections with the same rights. -/
theorem image_rights_iff {load : PeLoad} {infos : List PeSectionInfo} (hplaced : load.Placed)
    (hsections : load.header.sections = infos.map some) {s s' : WalkState PagingData}
    (htree : PagingTree s.memory s.context)
    (hrun : load.mmuMapPeInMemory s = some (.ok (),s')) :
    (∀ page < imagePages, load.LeastRights infos s' page) ↔
      (∀ packedPage page, LastPut (load.Puts infos) packedPage page →
        (Carried (·.write) (load.packed infos) packedPage ↔
            load.SectionRight infos (·.write) page) ∧
          (Carried (·.execute) (load.packed infos) packedPage ↔
            load.SectionRight infos (·.execute) page)) ∧
      ∀ page < imagePages, (∀ packedPage, ¬load.Puts infos packedPage page) →
        load.LeastRights infos s page := by
  have hmapped := hplaced.mapped hsections htree hrun
  constructor
  · intro hleast
    refine ⟨?_,?_⟩
    · intro packedPage page hlast
      have hpage := hplaced.puts_lt hsections hlast.1
      obtain ⟨rights,hleaf,hwrite,hexecute⟩ := hmapped.last_rights hpage hlast
      have hrights := hleast page hpage _ hleaf
      rw [imageEntry_writable,imageEntry_executable,hwrite,hexecute] at hrights
      exact hrights
    · intro page hpage hnone entry hentry
      refine hleast page hpage entry ?_
      rw [hmapped.unput hpage hnone]
      exact hentry
  · rintro ⟨hputs,hothers⟩ page hpage
    by_cases hnone : ∀ packedPage, ¬load.Puts infos packedPage page
    · intro entry hentry
      rw [hmapped.unput hpage hnone] at hentry
      exact hothers page hpage hnone entry hentry
    · obtain ⟨packedPage,hlast⟩ := exists_lastPut hnone
      obtain ⟨rights,hleaf,hwrite,hexecute⟩ := hmapped.last_rights hpage hlast
      intro entry hentry
      rw [hleaf] at hentry
      cases hentry
      rw [imageEntry_writable,imageEntry_executable,hwrite,hexecute]
      exact hputs packedPage page hlast

/-- The pages of the first image have the rights of the sections in them. -/
theorem image_rights_packed :
    ∃ s', packedImage.mmuMapPeInMemory exampleTables = some (.ok (),s') ∧
      ∀ page < imagePages, packedImage.LeastRights packedSections s' page := by
  obtain ⟨s',hrun⟩ : ∃ s', packedImage.mmuMapPeInMemory exampleTables = some (.ok (),s') := by
    refine packedImage_placed.mmuMapPeInMemory_returns rfl rfl packedImage_room ?_ fun _ => rfl
    unfold RightsAllowed
    decide
  refine ⟨s',hrun,(image_rights_iff packedImage_placed rfl exampleTables_tree hrun).mpr ⟨?_,?_⟩⟩
  · intro packedPage page hlast
    obtain ⟨hlt,rfl⟩ := packedImage_puts.mp hlast.1
    simp only [Carried,SectionRight,InPage,packedSections,
      List.exists_mem_cons_iff,List.not_mem_nil,false_and,exists_false,or_false]
    interval_cases page <;> decide
  · intro page hpage hnone entry hentry
    cases hentry

/-- In the second image the first page of the data is writable and executable, although no part
of the image is. -/
theorem full_page_rights_left :
    ∃ s', separateImage.mmuMapPeInMemory exampleTables = some (.ok (),s') ∧
      ∃ entry, s'.memory.leafAt s'.context.basePhysicalAddress
          (tableOffsets (separateImage.pageAddress 2)) = some (entry,0) ∧
        entry.writable = true ∧ entry.executable = true ∧
        ¬separateImage.SectionRight separateSections (·.execute) 2 := by
  obtain ⟨s',hrun⟩ := separateImage_run
  have hmapped := separateImage_placed.mapped rfl exampleTables_tree hrun
  have hlast : LastPut (separateImage.Puts separateSections) 2 2 := by
    refine ⟨separateImage_puts.mpr (by decide),?_⟩
    intro packedPage hputs
    exact (separateImage_puts.mp hputs).2.2.ge
  obtain ⟨rights,hleaf,hwrite,hexecute⟩ := hmapped.last_rights (by decide) hlast
  rw [separateImage_packed] at hwrite hexecute
  refine ⟨s',hrun,_,hleaf,hwrite.mpr ⟨_,List.mem_cons_of_mem _ List.mem_cons_self,?_⟩,
    hexecute.mpr ⟨_,List.mem_cons_self,?_⟩,?_⟩
  · decide
  · decide
  · simp only [SectionRight,InPage,separateSections,List.exists_mem_cons_iff,List.not_mem_nil,
      false_and,exists_false,or_false]
    decide

end PeLoad

end Hal9000
