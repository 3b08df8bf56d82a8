import Hal9000.Memory.ReservationPageMap

/-!
# Committed pages

A new reservation and a commit keep every committed page committed, a decommit and a release take
the pages they report only. With ranges that avoid each other and the metadata area, the live
reservations stay apart and keep where their bitmaps are.
-/

namespace Hal9000

/-- The page lies in a live reservation, and is committed there. -/
def VmmReservationSpace.Committed (space : VmmReservationSpace) (page : Nat) : Prop :=
  ∃ r ∈ space.entries, r.state = .used ∧ checkBounds page 1 r.startVa r.size = true ∧
    vmIsVaCommited r page = some true

instance (space : VmmReservationSpace) (page : Nat) : Decidable (space.Committed page) :=
  inferInstanceAs (Decidable (∃ r ∈ space.entries, _))

/-- Two ranges have no address in common. -/
def RangesApart (range range' : Nat × Nat) : Prop :=
  range.1 + range.2 ≤ range'.1 ∨ range'.1 + range'.2 ≤ range.1

instance (range range' : Nat × Nat) : Decidable (RangesApart range range') :=
  inferInstanceAs (Decidable (_ ∨ _))

theorem vmIsVaCommited_eq_true {r : VmmReservation} {page : Nat} :
    vmIsVaCommited r page = some true ↔ page ≠ 0 ∧ ptrDiff page r.startVa / pageSize ≤ maxDword ∧
      r.commitBitmap.bits (ptrDiff page r.startVa / pageSize) = true := by
  simp only [vmIsVaCommited,Option.bind_eq_bind,Option.bind_eq_some_iff,assert_eq_some,bne_iff_ne,
    decide_eq_true_eq,Option.pure_def,Option.some.injEq]
  constructor
  · rintro ⟨_,hpage,_,hle,hbit⟩
    exact ⟨hpage,hle,hbit⟩
  · rintro ⟨hpage,hle,hbit⟩
    exact ⟨(),hpage,(),hle,hbit⟩

/-- The reservations differ in what is committed only. -/
structure SameRegion (r r' : VmmReservation) : Prop where
  startVa : r'.startVa = r.startVa
  size : r'.size = r.size
  backingFile : r'.backingFile = r.backingFile
  bitmapBuffer : r'.commitBitmap.bitmapBuffer = r.commitBitmap.bitmapBuffer
  bufferSize : r'.commitBitmap.bufferSize = r.commitBitmap.bufferSize

/-- The pages of the bitmap lie in the metadata area. -/
structure BitmapPlaced (space : VmmReservationSpace) (r : VmmReservation) : Prop where
  word : r.commitBitmap.bitmapBuffer < qwordModulus
  aligned : r.commitBitmap.bitmapBuffer % pageSize = 0
  small : r.commitBitmap.bufferSize ≤ maxDword
  inside : checkBounds r.commitBitmap.bitmapBuffer
    (alignAddressUpper r.commitBitmap.bufferSize pageSize) space.reservationList
    space.reservedAreaSize = true

structure RegionOk (kernelSpace : Bool) (space : VmmReservationSpace) (r : VmmReservation) :
    Prop where
  arguments : ReserveArguments r.startVa r.size
  word : r.startVa < qwordModulus
  bitmap : BitmapPlaced space r
  outside : kernelSpace = true →
    RangesApart (r.startVa,r.size) (space.reservationList,space.reservedAreaSize)

/-- What the critical sections keep of the reservations. -/
structure SpaceInv (reservationSize : Nat) (kernelSpace : Bool) (space : VmmReservationSpace) :
    Prop where
  shape : ListShape reservationSize space
  pointer : space.freeVirtualAddressPointer < qwordModulus
  bitmap_pointer : space.freeBitmapAddress < qwordModulus
  apart : ∀ i j r r', space.Live i r → space.Live j r' → i ≠ j →
    RangesApart (r.startVa,r.size) (r'.startVa,r'.size)
  region : ∀ i r, space.Live i r → RegionOk kernelSpace space r

/-- Reservations may end, and the committed pages of those that stay may change. -/
structure Continues (reservationSize : Nat) (space space' : VmmReservationSpace) : Prop where
  shape : ListShape reservationSize space'
  same : space' = { space with entries := space'.entries }
  live : ∀ i r', space'.Live i r' → ∃ r, space.Live i r ∧ SameRegion r r'

section Space

variable {reservationSize : Nat} {kernelSpace : Bool} {space space' : VmmReservationSpace}

theorem committed_iff {page : Nat} : space.Committed page ↔ ∃ i r, space.Live i r ∧
    checkBounds page 1 r.startVa r.size = true ∧ vmIsVaCommited r page = some true := by
  constructor
  · rintro ⟨r,hmem,hused,hin,hcommitted⟩
    obtain ⟨i,hi⟩ := List.mem_iff_getElem?.mp hmem
    exact ⟨i,r,⟨hi,hused⟩,hin,hcommitted⟩
  · rintro ⟨i,r,hlive,hin,hcommitted⟩
    exact ⟨r,List.mem_of_getElem? hlive.1,hlive.2,hin,hcommitted⟩

theorem SameRegion.refl (r : VmmReservation) : SameRegion r r := ⟨rfl,rfl,rfl,rfl,rfl⟩

theorem SameRegion.trans {r r' r'' : VmmReservation} (h : SameRegion r r')
    (h' : SameRegion r' r'') : SameRegion r r'' :=
  ⟨h'.startVa.trans h.startVa,h'.size.trans h.size,h'.backingFile.trans h.backingFile,
    h'.bitmapBuffer.trans h.bitmapBuffer,h'.bufferSize.trans h.bufferSize⟩

theorem Continues.refl (h : ListShape reservationSize space) :
    Continues reservationSize space space :=
  ⟨h,rfl,fun _ r hr => ⟨r,hr,.refl r⟩⟩

theorem BitmapPlaced.same {r r' : VmmReservation} (h : BitmapPlaced space r)
    (hsame : SameRegion r r') (hlist : space'.reservationList = space.reservationList)
    (harea : space'.reservedAreaSize = space.reservedAreaSize) : BitmapPlaced space' r' := by
  obtain ⟨_,_,_,hbuffer,hsize⟩ := hsame
  constructor
  · rw [hbuffer]
    exact h.word
  · rw [hbuffer]
    exact h.aligned
  · rw [hsize]
    exact h.small
  · rw [hbuffer,hsize,hlist,harea]
    exact h.inside

theorem RegionOk.same {r r' : VmmReservation} (h : RegionOk kernelSpace space r)
    (hsame : SameRegion r r') (hlist : space'.reservationList = space.reservationList)
    (harea : space'.reservedAreaSize = space.reservedAreaSize) :
    RegionOk kernelSpace space' r' := by
  have hbitmap := h.bitmap.same hsame hlist harea
  obtain ⟨hstart,hsize,_,_,_⟩ := hsame
  refine ⟨?_,?_,hbitmap,?_⟩
  · rw [hstart,hsize]
    exact h.arguments
  · rw [hstart]
    exact h.word
  · rw [hstart,hsize,hlist,harea]
    exact h.outside

theorem SpaceInv.continues (h : SpaceInv reservationSize kernelSpace space)
    (hcontinues : Continues reservationSize space space') :
    SpaceInv reservationSize kernelSpace space' := by
  obtain ⟨hshape,hsame,hlive⟩ := hcontinues
  constructor
  · exact hshape
  · rw [hsame]
    exact h.pointer
  · rw [hsame]
    exact h.bitmap_pointer
  · intro i j ri rj hi hj hij
    obtain ⟨r,hr,hri⟩ := hlive i ri hi
    obtain ⟨r',hr',hrj⟩ := hlive j rj hj
    rw [hri.startVa,hri.size,hrj.startVa,hrj.size]
    exact h.apart i j r r' hr hr' hij
  · intro i r' hr'
    obtain ⟨r,hr,hsame'⟩ := hlive i r' hr'
    exact (h.region i r hr).same hsame' (by rw [hsame]) (by rw [hsame])

private theorem continues_rewrite {k : Nat} {r r' : VmmReservation} (hr : space.Live k r)
    (hused : r'.state = .used) (hsame : SameRegion r r') (i : Nat) (r₁ : VmmReservation)
    (hr₁ : VmmReservationSpace.Live { space with entries := space.entries.set k r' } i r₁) :
    ∃ r₀, space.Live i r₀ ∧ SameRegion r₀ r₁ := by
  rcases (live_rewrite hr hused rfl i r₁).mp hr₁ with ⟨rfl,rfl⟩ | ⟨_,hr₁⟩
  · exact ⟨r,hr,hsame⟩
  · exact ⟨r₁,hr₁,.refl r₁⟩

private theorem live_setBitmap {k : Nat} {r : VmmReservation} (hr : space.Live k r)
    (bitmap : Bitmap) (i : Nat) (r' : VmmReservation) :
    VmmReservationSpace.Live { space with
      entries := space.entries.set k { r with commitBitmap := bitmap } } i r' ↔
        i = k ∧ r' = { r with commitBitmap := bitmap } ∨ i ≠ k ∧ space.Live i r' :=
  live_rewrite hr (by exact hr.2) rfl i r'

theorem Effect.continues {event : PageEvent} (hshape : ListShape reservationSize space)
    (h : Effect reservationSize space event space')
    (hevent : ∀ range rights uncacheable file, event ≠ .reserve range rights uncacheable file) :
    Continues reservationSize space space' := by
  have hshape' := h.shape hshape
  cases h with
  | reserve => exact absurd rfl (hevent _ _ _ _)
  | commit hr _ _ =>
    exact ⟨hshape',rfl,continues_rewrite hr (by exact hr.2) ⟨rfl,rfl,rfl,rfl,rfl⟩⟩
  | decommit hr _ _ _ =>
    exact ⟨hshape',rfl,continues_rewrite hr (by exact hr.2) ⟨rfl,rfl,rfl,rfl,rfl⟩⟩
  | release hr =>
    refine ⟨hshape',rfl,?_⟩
    intro i r' hr'
    exact ⟨r',((live_release hr rfl i r').mp hr').2,.refl r'⟩

theorem SpaceInv.reserve (h : SpaceInv reservationSize kernelSpace space) {range : Nat × Nat}
    {rights : PageRights} {uncacheable : Bool} {file : Option Nat} (hword : range.1 < qwordModulus)
    (hmeets : ∀ r ∈ space.entries, r.state = .used →
      checkBounds range.1 range.2 r.startVa r.size = true ∨ RangesApart range (r.startVa,r.size))
    (houtside : kernelSpace = true →
      RangesApart range (space.reservationList,space.reservedAreaSize))
    (heffect : Effect reservationSize space (.reserve range rights uncacheable file) space') :
    SpaceInv reservationSize kernelSpace space' := by
  obtain ⟨k,hargs,hnew,_,hlive⟩ := heffect.live_reserve h.shape
  have hshape := heffect.shape h.shape
  have hapart (i : Nat) (r : VmmReservation) (hr : space.Live i r) :
      RangesApart range (r.startVa,r.size) := by
    rcases hmeets r (List.mem_of_getElem? hr.1) hr.2 with hin | hapart
    · rw [hnew i r hr] at hin
      cases hin
    · exact hapart
  cases heffect with
  | reserve _ _ _ haligned hfits =>
    constructor
    · exact hshape
    · exact h.pointer
    · exact Nat.mod_lt _ (by decide)
    · exact pairwise_live_reserve (fun _ _ => Or.symm) hlive hapart h.apart
    · intro i r hr
      rcases (hlive i r).mp hr with ⟨_,rfl⟩ | ⟨_,hr⟩
      · refine ⟨hargs,hword,⟨h.bitmap_pointer,haligned,?_,hfits⟩,houtside⟩
        have hpages := hargs.pages_le
        simp only [newReservation,bitmapInit,bitmapPreinit]
        unfold maxDword at *
        omega
      · exact (h.region i r hr).same (.refl r) rfl rfl

theorem Effect.committed_of_grow {event : PageEvent} (hshape : ListShape reservationSize space)
    (h : Effect reservationSize space event space') (hdecommits : ∀ range, event ≠ .decommit range)
    (hreleases : ∀ range, event ≠ .release range) {page : Nat} (hpage : space.Committed page) :
    space'.Committed page := by
  obtain ⟨i,r,hr,hin,hcommitted⟩ := committed_iff.mp hpage
  rw [committed_iff]
  cases h with
  | reserve hargs hnew hfound haligned hfits =>
    obtain ⟨k,_,_,hvacant,hlive⟩ := Effect.live_reserve hshape
      (.reserve hargs hnew hfound haligned hfits)
    have hik : i ≠ k := by
      rintro rfl
      exact hvacant r hr
    exact ⟨i,r,(hlive i r).mpr (Or.inr ⟨hik,hr⟩),hin,hcommitted⟩
  | @commit range interval k r₀ hr₀ _ _ =>
    have hlive := live_setBitmap hr₀ (bitmapSetBits r₀.commitBitmap interval.1 interval.2)
    by_cases hik : i = k
    · subst i
      have heq : r = r₀ := Option.some.inj (hr.1.symm.trans hr₀.1)
      subst r
      refine ⟨k,_,(hlive k _).mpr (Or.inl ⟨rfl,rfl⟩),hin,?_⟩
      obtain ⟨hzero,hle,hbit⟩ := vmIsVaCommited_eq_true.mp hcommitted
      refine vmIsVaCommited_eq_true.mpr ⟨hzero,hle,?_⟩
      simp only [bitmapSetBits,Bool.or_eq_true]
      exact Or.inr hbit
    · exact ⟨i,r,(hlive i r).mpr (Or.inr ⟨hik,hr⟩),hin,hcommitted⟩
  | decommit => exact absurd rfl (hdecommits _)
  | release => exact absurd rfl (hreleases _)

theorem Effect.committed_of_decommit (hspace : SpaceInv reservationSize kernelSpace space)
    {range : Nat × Nat} (h : Effect reservationSize space (.decommit range) space') :
    (range.1 % pageSize = 0 ∧ range.2 % pageSize = 0) ∧ ∀ page, space.Committed page →
      space'.Committed page ∨ checkBounds page 1 range.1 range.2 = true := by
  cases h with
  | @decommit _ interval address k r₀ hr₀ hin₀ hfirst hinterval =>
    have hargs := (hspace.region k r₀ hr₀).arguments
    simp only [pageInterval,Option.bind_eq_bind,Option.bind_eq_some_iff,Option.pure_def,
      Option.some.injEq,assert_eq_some,isAddressAligned,beq_iff_eq] at hinterval
    obtain ⟨_,_,_,_,_,hbase,_,hsize,_,_,_,_,rfl⟩ := hinterval
    refine ⟨⟨hbase,hsize⟩,?_⟩
    intro page hpage
    obtain ⟨i,r,hr,hin,hcommitted⟩ := committed_iff.mp hpage
    have hlive := live_setBitmap hr₀ (bitmapClearBits r₀.commitBitmap
      (ptrDiff range.1 r₀.startVa / pageSize) (range.2 / pageSize))
    by_cases hik : i = k
    · subst i
      have heq : r = r₀ := Option.some.inj (hr.1.symm.trans hr₀.1)
      subst r
      by_cases hrange : checkBounds page 1 range.1 range.2 = true
      · exact Or.inr hrange
      · refine Or.inl (committed_iff.mpr ⟨k,_,(hlive k _).mpr (Or.inl ⟨rfl,rfl⟩),hin,?_⟩)
        obtain ⟨hzero,hle,hbit⟩ := vmIsVaCommited_eq_true.mp hcommitted
        refine vmIsVaCommited_eq_true.mpr ⟨hzero,hle,?_⟩
        simp only [bitmapClearBits,Bool.and_eq_true,Bool.not_eq_true',decide_eq_false_iff_not]
        refine ⟨?_,hbit⟩
        have hbounds := checkBounds_eq_true.mp hin
        have hbounds₀ := checkBounds_eq_true.mp hin₀
        have hstart := hargs.base_aligned
        have hlow : r₀.startVa ≤ range.1 := by
          rw [hfirst,alignAddressLower]
          unfold pageSize at *
          omega
        have hhigh : range.1 < r₀.startVa + r₀.size := by
          have hle := Nat.div_mul_le_self address pageSize
          rw [hfirst,alignAddressLower]
          omega
        rw [ptrDiff_inside hargs hbounds.1 (by omega),ptrDiff_inside hargs hlow hhigh]
        rw [checkBounds_eq_true] at hrange
        unfold pageSize at *
        omega
    · exact Or.inl (committed_iff.mpr ⟨i,r,(hlive i r).mpr (Or.inr ⟨hik,hr⟩),hin,hcommitted⟩)

theorem committed_of_release {k : Nat} {r₀ : VmmReservation} (hr₀ : space.Live k r₀) {page : Nat}
    (hpage : space.Committed page) :
    VmmReservationSpace.Committed
      { space with entries := space.entries.set k vmmReservationZero } page ∨
      checkBounds page 1 r₀.startVa r₀.size = true := by
  obtain ⟨i,r,hr,hin,hcommitted⟩ := committed_iff.mp hpage
  by_cases hik : i = k
  · subst i
    have heq : r = r₀ := Option.some.inj (hr.1.symm.trans hr₀.1)
    subst r
    exact Or.inr hin
  · exact Or.inl (committed_iff.mpr
      ⟨i,r,(live_release hr₀ rfl i r).mpr ⟨hik,hr⟩,hin,hcommitted⟩)

end Space

section Calls

variable {reservationSize : Nat} {kernelSpace : Bool} {space space' : VmmReservationSpace}

/-- What an allocation may make of the reservations under the lock. -/
structure Grows (reservationSize : Nat) (kernelSpace : Bool) (request : AllocRequest)
    (range : Nat × Nat) (space space' : VmmReservationSpace) : Prop where
  inv : SpaceInv reservationSize kernelSpace space'
  list : space'.reservationList = space.reservationList
  area : space'.reservedAreaSize = space.reservedAreaSize
  committed : ∀ page, space.Committed page → space'.Committed page
  live : ∀ i r', space'.Live i r' → (∃ r, space.Live i r ∧ SameRegion r r') ∨
    request.allocType.reserve = true ∧ r'.startVa = range.1 ∧ r'.size = range.2 ∧
      r'.backingFile = request.fileObject

private theorem Grows.refl (h : SpaceInv reservationSize kernelSpace space)
    (request : AllocRequest) (range : Nat × Nat) :
    Grows reservationSize kernelSpace request range space space :=
  ⟨h,rfl,rfl,fun _ => id,fun _ r hr => Or.inl ⟨r,hr,.refl r⟩⟩

private theorem grows_reserve (h : SpaceInv reservationSize kernelSpace space)
    {request : AllocRequest} {range : Nat × Nat} (hword : range.1 < qwordModulus)
    (hmeets : request.allocType.reserve = true → ∀ r ∈ space.entries, r.state = .used →
      checkBounds range.1 range.2 r.startVa r.size = true ∨ RangesApart range (r.startVa,r.size))
    (houtside : request.allocType.reserve = true → kernelSpace = true →
      RangesApart range (space.reservationList,space.reservedAreaSize))
    (heffect : FlaggedEffect reservationSize request.allocType.reserve space
      (.reserve range request.rights request.uncacheable request.fileObject) space') :
    Grows reservationSize kernelSpace request range space space' := by
  cases hflag : request.allocType.reserve with
  | false =>
    rw [hflag] at heffect
    obtain rfl := heffect
    exact .refl h request range
  | true =>
    rw [hflag] at heffect
    have hinv := h.reserve hword (hmeets hflag) (houtside hflag) heffect
    have hcommitted (page : Nat) (hpage : space.Committed page) :=
      Effect.committed_of_grow h.shape heffect (fun _ => by simp) (fun _ => by simp) hpage
    obtain ⟨k,_,_,_,hlive⟩ := Effect.live_reserve h.shape heffect
    have harea : space'.reservationList = space.reservationList ∧
        space'.reservedAreaSize = space.reservedAreaSize := by
      cases heffect
      exact ⟨rfl,rfl⟩
    refine ⟨hinv,harea.1,harea.2,hcommitted,?_⟩
    intro i r' hr'
    rcases (hlive i r').mp hr' with ⟨_,rfl⟩ | ⟨_,hr⟩
    · exact Or.inr ⟨hflag,rfl,rfl,rfl⟩
    · exact Or.inl ⟨r',hr,.refl r'⟩

private theorem Grows.commit {request : AllocRequest} {range : Nat × Nat}
    {space₁ : VmmReservationSpace}
    (h : Grows reservationSize kernelSpace request range space space₁)
    (heffect : FlaggedEffect reservationSize request.allocType.commit space₁ (.commit range)
      space') : Grows reservationSize kernelSpace request range space space' := by
  cases hflag : request.allocType.commit with
  | false =>
    rw [hflag] at heffect
    obtain rfl := heffect
    exact h
  | true =>
    rw [hflag] at heffect
    have hcontinues := Effect.continues h.inv.shape heffect (fun _ _ _ _ => (by simp))
    refine ⟨h.inv.continues hcontinues,?_,?_,?_,?_⟩
    · rw [hcontinues.same]
      exact h.list
    · rw [hcontinues.same]
      exact h.area
    · intro page hpage
      exact Effect.committed_of_grow h.inv.shape heffect (fun _ => by simp) (fun _ => by simp)
        (h.committed page hpage)
    · intro i r' hr'
      obtain ⟨r₁,hr₁,hsame₁⟩ := hcontinues.live i r' hr'
      rcases h.live i r₁ hr₁ with ⟨r,hr,hsame⟩ | ⟨hreserve,hstart,hsize,hfile⟩
      · exact Or.inl ⟨r,hr,hsame.trans hsame₁⟩
      · exact Or.inr ⟨hreserve,hsame₁.startVa.trans hstart,hsame₁.size.trans hsize,
          hsame₁.backingFile.trans hfile⟩

theorem vmReservationSpaceChangeRange_grows (h : SpaceInv reservationSize kernelSpace space)
    {request : AllocRequest} {range : Nat × Nat} {status : Status} {mapped : Option (Nat × Nat)}
    (hword : range.1 < qwordModulus)
    (hmeets : request.allocType.reserve = true → ∀ r ∈ space.entries, r.state = .used →
      checkBounds range.1 range.2 r.startVa r.size = true ∨ RangesApart range (r.startVa,r.size))
    (houtside : request.allocType.reserve = true → kernelSpace = true →
      RangesApart range (space.reservationList,space.reservedAreaSize))
    (hcall : vmReservationSpaceChangeRange reservationSize space request range =
      some (status,mapped,space')) :
    Grows reservationSize kernelSpace request range space space' := by
  rcases vmReservationSpaceChangeRange_effect h.shape hcall with
    ⟨_,_,rfl⟩ | ⟨_,_,space₁,hreserve,hcommit⟩
  · exact .refl h request range
  · exact (grows_reserve h hword hmeets houtside hreserve).commit hcommit

theorem vmReservationSpaceFreeRegion_frees (h : SpaceInv reservationSize kernelSpace space)
    {address : Nat} {freeType : VmmFreeType} {range : Nat × Nat} {copy : Option VmmReservation}
    (hcall : vmReservationSpaceFreeRegion reservationSize space address freeType =
      some (range,copy,space')) :
    Continues reservationSize space space' ∧ match copy with
      | some r => (∃ k, space.Live k r) ∧
          (∀ i r', space'.Live i r' → RangesApart (r.startVa,r.size) (r'.startVa,r'.size)) ∧
          ∀ page, space.Committed page → space'.Committed page ∨
            checkBounds page 1 r.startVa r.size = true
      | none => (range.1 % pageSize = 0 ∧ range.2 % pageSize = 0) ∧
          ∀ page, space.Committed page → space'.Committed page ∨
            checkBounds page 1 range.1 range.2 = true := by
  obtain ⟨k,r,hr,hspec⟩ := vmReservationSpaceFreeRegion_effect h.shape hcall
  cases freeType with
  | release =>
    obtain ⟨rfl,rfl,rfl⟩ := hspec
    refine ⟨Effect.continues h.shape (.release hr) (fun _ _ _ _ => (by simp)),⟨k,hr⟩,?_,?_⟩
    · intro i r' hr'
      have hold := (live_release hr rfl i r').mp hr'
      exact h.apart k i r r' hr hold.2 (Ne.symm hold.1)
    · intro page hpage
      exact committed_of_release hr hpage
  | decommit size =>
    obtain ⟨rfl,heffect⟩ := hspec
    exact ⟨heffect.continues h.shape (fun _ _ _ _ => (by simp)),heffect.committed_of_decommit h⟩

end Calls

end Hal9000
