import Hal9000.Memory.ReservationHistory

/-!
# The reservation space as a page map

What a page fault is answered with is a function of the history alone: the page must have
been committed and neither decommitted nor released since, and the answer is that of the
reservation the page lies in.
-/

namespace Hal9000

/-- The numbers of the pages of an aligned range. -/
def rangePages (range : Nat × Nat) : Set Nat :=
  Set.Ico (range.1 / pageSize) ((range.1 + range.2) / pageSize)

/-- What a reservation says of each of its pages. -/
structure PageAttributes where
  start : Nat
  rights : PageRights
  uncacheable : Bool
  backingFile : Option Nat

/-- The answer to an access that is allowed; only a backed page has an offset. -/
def PageAttributes.grant (attributes : PageAttributes) (address : Nat) : AccessGrant where
  memoryRights := attributes.rights
  uncacheable := attributes.uncacheable
  backingFile := attributes.backingFile
  fileOffset := if attributes.backingFile.isSome then
    alignAddressLower (address - attributes.start) pageSize else 0

namespace PageEvent

def Reserves (page : Nat) (attributes : PageAttributes) : PageEvent → Prop
  | .reserve range rights uncacheable backingFile =>
    page ∈ rangePages range ∧ attributes = ⟨range.1,rights,uncacheable,backingFile⟩
  | _ => False

def Commits (page : Nat) : PageEvent → Prop
  | .commit range => page ∈ rangePages range
  | _ => False

def Releases (page : Nat) : PageEvent → Prop
  | .release range => page ∈ rangePages range
  | _ => False

def Decommits (page : Nat) : PageEvent → Prop
  | .decommit range => page ∈ rangePages range
  | _ => False

end PageEvent

/-- The page was reserved with these attributes and not released since. -/
def ReservedSince (history : List PageEvent) (page : Nat) (attributes : PageAttributes) : Prop :=
  Since (fun event => ¬ event.Releases page) (PageEvent.Reserves page attributes) history

/-- The page was committed and neither decommitted nor released since. -/
def CommittedSince (history : List PageEvent) (page : Nat) : Prop :=
  Since (fun event => ¬ event.Decommits page ∧ ¬ event.Releases page) (PageEvent.Commits page)
    history

/-- Reserved ranges do not overlap and a decommit lies inside one reservation. -/
def WellFormedHistory (history : List PageEvent) : Prop :=
  Historically (fun before event => match event with
    | .reserve range _ _ _ => ∀ page ∈ rangePages range, ∀ attributes,
        ¬ ReservedSince before page attributes
    | .decommit range => ∃ attributes, ∀ page ∈ rangePages range,
        ReservedSince before page attributes
    | _ => True) history

namespace VmmReservation

def pages (reservation : VmmReservation) : Set Nat :=
  rangePages (reservation.startVa,reservation.size)

def attributes (reservation : VmmReservation) : PageAttributes where
  start := reservation.startVa
  rights := reservation.pageRights
  uncacheable := reservation.uncacheable
  backingFile := reservation.backingFile

/-- The bit of one of its pages. -/
def IsCommitted (reservation : VmmReservation) (page : Nat) : Prop :=
  reservation.commitBitmap.bits (page - reservation.startVa / pageSize) = true

end VmmReservation

section Bits

variable {r : VmmReservation} {range interval : Nat × Nat}

theorem ptrDiff_inside {address : Nat} (hargs : ReserveArguments r.startVa r.size)
    (hlow : r.startVa ≤ address) (hhigh : address < r.startVa + r.size) :
    ptrDiff address r.startVa = address - r.startVa := by
  have hpages := hargs.pages_le
  have haligned := hargs.size_aligned
  have hsum : address + qwordModulus - r.startVa = (address - r.startVa) + qwordModulus := by omega
  rw [ptrDiff,hsum,Nat.add_mod_right]
  apply Nat.mod_eq_of_lt
  have hmax : r.size ≤ maxDword * pageSize := by
    unfold pageSize at hpages haligned ⊢
    omega
  calc address - r.startVa < r.size := by omega
    _ ≤ maxDword * pageSize := hmax
    _ < qwordModulus := by decide

theorem pageInterval_spec (hargs : ReserveArguments r.startVa r.size)
    (hlow : r.startVa ≤ range.1) (hhigh : range.1 < r.startVa + r.size)
    (h : pageInterval range.1 range.2 r = some interval) :
    range.1 % pageSize = 0 ∧ range.2 % pageSize = 0 ∧ range.2 ≠ 0 ∧
      interval = (range.1 / pageSize - r.startVa / pageSize,range.2 / pageSize) := by
  simp only [pageInterval,Option.bind_eq_bind,Option.bind_eq_some_iff,Option.pure_def,
    Option.some.injEq,assert_eq_some,bne_iff_ne,isAddressAligned,beq_iff_eq] at h
  obtain ⟨_,_,_,hsize,_,hbase,_,hsizeAligned,_,_,_,_,hinterval⟩ := h
  have hstart := hargs.base_aligned
  refine ⟨hbase,hsizeAligned,hsize,?_⟩
  rw [← hinterval,ptrDiff_inside hargs hlow hhigh]
  unfold pageSize at hbase hstart ⊢
  congr 1
  omega

private theorem mem_interval {page : Nat} (hbase : range.1 % pageSize = 0)
    (hsize : range.2 % pageSize = 0) (hstart : r.startVa / pageSize ≤ page)
    (hlow : r.startVa ≤ range.1) :
    (range.1 / pageSize - r.startVa / pageSize ≤ page - r.startVa / pageSize ∧
      page - r.startVa / pageSize <
        range.1 / pageSize - r.startVa / pageSize + range.2 / pageSize) ↔
      page ∈ rangePages range := by
  unfold rangePages pageSize at *
  rw [Set.mem_Ico]
  omega

private theorem setBits_iff {page : Nat} (hbase : range.1 % pageSize = 0)
    (hsize : range.2 % pageSize = 0) (hlow : r.startVa ≤ range.1) (hpage : page ∈ r.pages) :
    (bitmapSetBits r.commitBitmap (range.1 / pageSize - r.startVa / pageSize)
      (range.2 / pageSize)).bits (page - r.startVa / pageSize) = true ↔
        page ∈ rangePages range ∨ r.IsCommitted page := by
  have hstart : r.startVa / pageSize ≤ page := hpage.1
  simp only [bitmapSetBits,Bool.or_eq_true,decide_eq_true_eq,VmmReservation.IsCommitted]
  rw [mem_interval hbase hsize hstart hlow]

private theorem clearBits_iff {page : Nat} (hbase : range.1 % pageSize = 0)
    (hsize : range.2 % pageSize = 0) (hlow : r.startVa ≤ range.1) (hpage : page ∈ r.pages) :
    (bitmapClearBits r.commitBitmap (range.1 / pageSize - r.startVa / pageSize)
      (range.2 / pageSize)).bits (page - r.startVa / pageSize) = true ↔
        page ∉ rangePages range ∧ r.IsCommitted page := by
  have hstart : r.startVa / pageSize ≤ page := hpage.1
  simp only [bitmapClearBits,Bool.and_eq_true,Bool.not_eq_true',decide_eq_false_iff_not,
    VmmReservation.IsCommitted]
  rw [mem_interval hbase hsize hstart hlow]

end Bits

section Refinement

variable {reservationSize : Nat} {history : List PageEvent} {space space' : VmmReservationSpace}

/-- The live reservations are what the history says is reserved, their bitmaps what it says
is committed. -/
structure PageMapInv (history : List PageEvent) (space : VmmReservationSpace) : Prop where
  arguments : ∀ i r, space.Live i r → ReserveArguments r.startVa r.size
  apart : ∀ i j r r', space.Live i r → space.Live j r' → i ≠ j → Disjoint r.pages r'.pages
  reserved : ∀ page attributes, ReservedSince history page attributes ↔
    ∃ i r, space.Live i r ∧ page ∈ r.pages ∧ attributes = r.attributes
  committed : ∀ page, CommittedSince history page ↔
    ∃ i r, space.Live i r ∧ page ∈ r.pages ∧ r.IsCommitted page

private theorem PageMapInv.unique (h : PageMapInv history space) {page i j : Nat}
    {r r' : VmmReservation} (hi : space.Live i r) (hj : space.Live j r') (hpage : page ∈ r.pages)
    (hpage' : page ∈ r'.pages) : i = j ∧ r = r' := by
  have hij : i = j := by
    by_contra hne
    exact Set.disjoint_left.mp (h.apart i j r r' hi hj hne) hpage hpage'
  subst j
  exact ⟨rfl,Option.some.inj (hi.1.symm.trans hj.1)⟩

private theorem mem_pages_first {r : VmmReservation} (h : ReserveArguments r.startVa r.size) :
    r.startVa / pageSize ∈ r.pages := by
  have hsize := h.size_ne_zero
  have haligned := h.size_aligned
  simp only [VmmReservation.pages,rangePages,Set.mem_Ico]
  unfold pageSize at *
  omega

theorem mem_pages_iff {r : VmmReservation} (h : ReserveArguments r.startVa r.size)
    (address : Nat) :
    address / pageSize ∈ r.pages ↔ checkBounds address 1 r.startVa r.size = true := by
  have hsize := h.size_aligned
  have hbase := h.base_aligned
  simp only [VmmReservation.pages,rangePages,Set.mem_Ico,checkBounds_eq_true]
  unfold pageSize at *
  omega

private theorem range_subset_pages {r : VmmReservation} {range : Nat × Nat}
    (hin : checkBounds range.1 range.2 r.startVa r.size = true) {page : Nat}
    (hpage : page ∈ rangePages range) : page ∈ r.pages := by
  rw [checkBounds_eq_true] at hin
  simp only [VmmReservation.pages,rangePages,Set.mem_Ico] at hpage ⊢
  constructor
  · exact (Nat.div_le_div_right hin.1).trans hpage.1
  · exact hpage.2.trans_le (Nat.div_le_div_right hin.2)

private theorem PageMapInv.reserve (h : PageMapInv history space)
    (hshape : ListShape reservationSize space) {range : Nat × Nat} {rights : PageRights}
    {uncacheable : Bool} {file : Option Nat}
    (hnew : ∀ page ∈ rangePages range, ∀ attributes, ¬ ReservedSince history page attributes)
    (hevent : Effect reservationSize space (.reserve range rights uncacheable file) space') :
    PageMapInv (history ++ [.reserve range rights uncacheable file]) space' := by
  obtain ⟨k,hargs,_,hvacant,hlive⟩ := hevent.live_reserve hshape
  have hapart (i : Nat) (r : VmmReservation) (hr : space.Live i r) :
      Disjoint (newReservation space range rights uncacheable file).pages r.pages := by
    rw [Set.disjoint_left]
    intro page hpage hpage'
    exact hnew page hpage r.attributes ((h.reserved page r.attributes).mpr ⟨i,r,hr,hpage',rfl⟩)
  have hold {i : Nat} {r : VmmReservation} (hr : space.Live i r) : space'.Live i r := by
    apply (hlive i r).mpr (Or.inr ⟨?_,hr⟩)
    rintro rfl
    exact hvacant r hr
  constructor
  · intro i r hr
    rcases (hlive i r).mp hr with ⟨_,rfl⟩ | ⟨_,hr⟩
    · exact hargs
    · exact h.arguments i r hr
  · exact pairwise_live_reserve (fun _ _ hdisjoint => hdisjoint.symm) hlive hapart h.apart
  · intro page attributes
    rw [ReservedSince,since_append_singleton]
    constructor
    · rintro (⟨hpage,rfl⟩ | ⟨_,hsince⟩)
      · exact ⟨k,_,(hlive k _).mpr (Or.inl ⟨rfl,rfl⟩),hpage,rfl⟩
      · obtain ⟨i,r,hr,hpage,heq⟩ := (h.reserved page attributes).mp hsince
        exact ⟨i,r,hold hr,hpage,heq⟩
    · rintro ⟨i,r,hr,hpage,rfl⟩
      rcases (hlive i r).mp hr with ⟨_,rfl⟩ | ⟨_,hr⟩
      · exact Or.inl ⟨hpage,rfl⟩
      · exact Or.inr ⟨id,(h.reserved page r.attributes).mpr ⟨i,r,hr,hpage,rfl⟩⟩
  · intro page
    rw [CommittedSince,since_append_singleton]
    constructor
    · rintro (hcommits | ⟨_,hsince⟩)
      · cases hcommits
      · obtain ⟨i,r,hr,hpage,hbit⟩ := (h.committed page).mp hsince
        exact ⟨i,r,hold hr,hpage,hbit⟩
    · rintro ⟨i,r,hr,hpage,hbit⟩
      rcases (hlive i r).mp hr with ⟨_,rfl⟩ | ⟨_,hr⟩
      · cases hbit
      · exact Or.inr ⟨⟨id,id⟩,(h.committed page).mpr ⟨i,r,hr,hpage,hbit⟩⟩

private theorem PageMapInv.rewrite (h : PageMapInv history space) {k : Nat} {r : VmmReservation}
    (hr : space.Live k r) {bitmap : Bitmap} {event : PageEvent}
    (hreserves : ∀ page attributes, ¬ event.Reserves page attributes)
    (hreleases : ∀ page, ¬ event.Releases page)
    (hcommitted : ∀ page, CommittedSince (history ++ [event]) page ↔
      (page ∈ r.pages ∧ bitmap.bits (page - r.startVa / pageSize) = true) ∨
        ∃ i r', i ≠ k ∧ space.Live i r' ∧ page ∈ r'.pages ∧ r'.IsCommitted page) :
    PageMapInv (history ++ [event])
      { space with entries := space.entries.set k { r with commitBitmap := bitmap } } := by
  have hused : ({ r with commitBitmap := bitmap } : VmmReservation).state = .used := hr.2
  have hlive (i : Nat) (r' : VmmReservation) : VmmReservationSpace.Live { space with
      entries := space.entries.set k { r with commitBitmap := bitmap } } i r' ↔
        i = k ∧ r' = { r with commitBitmap := bitmap } ∨ i ≠ k ∧ space.Live i r' :=
    live_rewrite hr hused rfl i r'
  constructor
  · intro i r' hr'
    rcases (hlive i r').mp hr' with ⟨_,rfl⟩ | ⟨_,hr'⟩
    · exact h.arguments k r hr
    · exact h.arguments i r' hr'
  · intro i j ri rj hi hj hij
    rcases (hlive i ri).mp hi with ⟨hik,rfl⟩ | ⟨hik,hi⟩
    · rcases (hlive j rj).mp hj with ⟨hjk,_⟩ | ⟨hjk,hj⟩
      · exact absurd (hik.trans hjk.symm) hij
      · exact h.apart k j r rj hr hj (Ne.symm hjk)
    · rcases (hlive j rj).mp hj with ⟨_,rfl⟩ | ⟨_,hj⟩
      · exact h.apart i k ri r hi hr hik
      · exact h.apart i j ri rj hi hj hij
  · intro page attributes
    have hsame : ReservedSince (history ++ [event]) page attributes ↔
        ReservedSince history page attributes := by
      rw [ReservedSince,since_append_singleton]
      simp [hreserves,hreleases,ReservedSince]
    rw [hsame,h.reserved]
    constructor
    · rintro ⟨i,r',hr',hpage,rfl⟩
      by_cases hik : i = k
      · subst i
        have heq : r' = r := Option.some.inj (hr'.1.symm.trans hr.1)
        subst r'
        exact ⟨k,_,(hlive k _).mpr (Or.inl ⟨rfl,rfl⟩),hpage,rfl⟩
      · exact ⟨i,r',(hlive i r').mpr (Or.inr ⟨hik,hr'⟩),hpage,rfl⟩
    · rintro ⟨i,r',hr',hpage,rfl⟩
      rcases (hlive i r').mp hr' with ⟨_,rfl⟩ | ⟨_,hr'⟩
      · exact ⟨k,r,hr,hpage,rfl⟩
      · exact ⟨i,r',hr',hpage,rfl⟩
  · intro page
    rw [hcommitted]
    constructor
    · rintro (⟨hpage,hbit⟩ | ⟨i,r',hik,hr',hpage,hbit⟩)
      · exact ⟨k,_,(hlive k _).mpr (Or.inl ⟨rfl,rfl⟩),hpage,hbit⟩
      · exact ⟨i,r',(hlive i r').mpr (Or.inr ⟨hik,hr'⟩),hpage,hbit⟩
    · rintro ⟨i,r',hr',hpage,hbit⟩
      rcases (hlive i r').mp hr' with ⟨_,rfl⟩ | ⟨hik,hr'⟩
      · exact Or.inl ⟨hpage,hbit⟩
      · exact Or.inr ⟨i,r',hik,hr',hpage,hbit⟩

private theorem PageMapInv.committed_split (h : PageMapInv history space) {k : Nat}
    {r : VmmReservation} (hr : space.Live k r) (page : Nat) :
    CommittedSince history page ↔ (page ∈ r.pages ∧ r.IsCommitted page) ∨
      ∃ i r', i ≠ k ∧ space.Live i r' ∧ page ∈ r'.pages ∧ r'.IsCommitted page := by
  rw [h.committed]
  constructor
  · rintro ⟨i,r',hr',hpage,hbit⟩
    by_cases hik : i = k
    · subst i
      have heq : r' = r := Option.some.inj (hr'.1.symm.trans hr.1)
      subst r'
      exact Or.inl ⟨hpage,hbit⟩
    · exact Or.inr ⟨i,r',hik,hr',hpage,hbit⟩
  · rintro (⟨hpage,hbit⟩ | ⟨i,r',_,hr',hpage,hbit⟩)
    · exact ⟨k,r,hr,hpage,hbit⟩
    · exact ⟨i,r',hr',hpage,hbit⟩

private theorem PageMapInv.commit (h : PageMapInv history space) {range interval : Nat × Nat}
    {k : Nat} {r : VmmReservation} (hr : space.Live k r)
    (hin : checkBounds range.1 range.2 r.startVa r.size = true)
    (hinterval : pageInterval range.1 range.2 r = some interval) :
    PageMapInv (history ++ [.commit range]) { space with
      entries := space.entries.set k
        { r with commitBitmap := bitmapSetBits r.commitBitmap interval.1 interval.2 } } := by
  have hargs := h.arguments k r hr
  have hbounds := checkBounds_eq_true.mp hin
  have hsize : range.2 ≠ 0 := by
    simp only [pageInterval,Option.bind_eq_bind,Option.bind_eq_some_iff,assert_eq_some,
      bne_iff_ne] at hinterval
    obtain ⟨_,_,_,hsize,_⟩ := hinterval
    exact hsize
  obtain ⟨hbase,haligned,_,rfl⟩ :=
    pageInterval_spec hargs hbounds.1 (by omega) hinterval
  apply h.rewrite hr (fun _ _ => id) (fun _ => id)
  intro page
  rw [CommittedSince,since_append_singleton]
  have hsplit := h.committed_split hr page
  rw [CommittedSince] at hsplit
  rw [hsplit]
  have hbits (hpage : page ∈ r.pages) := setBits_iff hbase haligned hbounds.1 hpage
  constructor
  · rintro (hcommits | ⟨_,⟨hpage,hbit⟩ | hother⟩)
    · have hpage := range_subset_pages hin hcommits
      exact Or.inl ⟨hpage,(hbits hpage).mpr (Or.inl hcommits)⟩
    · exact Or.inl ⟨hpage,(hbits hpage).mpr (Or.inr hbit)⟩
    · exact Or.inr hother
  · rintro (⟨hpage,hbit⟩ | hother)
    · rcases (hbits hpage).mp hbit with hcommits | hbit
      · exact Or.inl hcommits
      · exact Or.inr ⟨⟨id,id⟩,Or.inl ⟨hpage,hbit⟩⟩
    · exact Or.inr ⟨⟨id,id⟩,Or.inr hother⟩

theorem PageMapInv.decommit_subset (h : PageMapInv history space) {range interval : Nat × Nat}
    {address k : Nat} {r : VmmReservation}
    (hinside : ∃ attributes, ∀ page ∈ rangePages range, ReservedSince history page attributes)
    (hr : space.Live k r) (hin : checkBounds address 1 r.startVa r.size = true)
    (hfirst : range.1 = alignAddressLower address pageSize)
    (hinterval : pageInterval range.1 range.2 r = some interval) :
    r.startVa ≤ range.1 ∧ range.1 % pageSize = 0 ∧ range.2 % pageSize = 0 ∧
      interval = (range.1 / pageSize - r.startVa / pageSize,range.2 / pageSize) ∧
      ∀ page ∈ rangePages range, page ∈ r.pages := by
  have hargs := h.arguments k r hr
  have hbounds := checkBounds_eq_true.mp hin
  have hstart := hargs.base_aligned
  have hlow : r.startVa ≤ range.1 := by
    rw [hfirst,alignAddressLower]
    unfold pageSize at *
    omega
  have hle : range.1 ≤ address := by
    rw [hfirst]
    exact Nat.div_mul_le_self address pageSize
  obtain ⟨hbase,haligned,hsize,hpages⟩ := pageInterval_spec hargs hlow (by omega) hinterval
  refine ⟨hlow,hbase,haligned,hpages,?_⟩
  obtain ⟨attributes,hall⟩ := hinside
  have hfirstPage : range.1 / pageSize ∈ rangePages range := by
    rw [rangePages,Set.mem_Ico]
    unfold pageSize at *
    omega
  obtain ⟨i,r₁,hr₁,hpage₁,rfl⟩ := (h.reserved _ _).mp (hall _ hfirstPage)
  have hfirstIn : range.1 / pageSize ∈ r.pages := by
    rw [mem_pages_iff hargs,checkBounds_eq_true]
    omega
  have hsame := h.unique hr₁ hr hpage₁ hfirstIn
  intro page hpage
  obtain ⟨j,r₂,hr₂,hpage₂,heq⟩ := (h.reserved _ _).mp (hall page hpage)
  have hstarts : r₁.startVa = r₂.startVa := congrArg PageAttributes.start heq
  have hcommon : r₂.startVa / pageSize ∈ r₁.pages := by
    rw [← hstarts]
    exact mem_pages_first (h.arguments i r₁ hr₁)
  have hsame₂ := h.unique hr₂ hr₁ (mem_pages_first (h.arguments j r₂ hr₂)) hcommon
  rw [← hsame.2,← hsame₂.2]
  exact hpage₂

private theorem PageMapInv.decommit (h : PageMapInv history space) {range interval : Nat × Nat}
    {address k : Nat} {r : VmmReservation}
    (hinside : ∃ attributes, ∀ page ∈ rangePages range, ReservedSince history page attributes)
    (hr : space.Live k r) (hin : checkBounds address 1 r.startVa r.size = true)
    (hfirst : range.1 = alignAddressLower address pageSize)
    (hinterval : pageInterval range.1 range.2 r = some interval) :
    PageMapInv (history ++ [.decommit range]) { space with
      entries := space.entries.set k
        { r with commitBitmap := bitmapClearBits r.commitBitmap interval.1 interval.2 } } := by
  obtain ⟨hlow,hbase,haligned,rfl,hsubset⟩ :=
    h.decommit_subset hinside hr hin hfirst hinterval
  apply h.rewrite hr (fun _ _ => id) (fun _ => id)
  intro page
  rw [CommittedSince,since_append_singleton]
  have hsplit := h.committed_split hr page
  rw [CommittedSince] at hsplit
  rw [hsplit]
  have hbits (hpage : page ∈ r.pages) := clearBits_iff hbase haligned hlow hpage
  constructor
  · rintro (hcommits | ⟨⟨hkept,_⟩,⟨hpage,hbit⟩ | hother⟩)
    · cases hcommits
    · exact Or.inl ⟨hpage,(hbits hpage).mpr ⟨hkept,hbit⟩⟩
    · exact Or.inr hother
  · rintro (⟨hpage,hbit⟩ | ⟨i,r',hik,hr',hpage,hbit⟩)
    · have hkept := (hbits hpage).mp hbit
      exact Or.inr ⟨⟨hkept.1,id⟩,Or.inl ⟨hpage,hkept.2⟩⟩
    · have houtside : page ∉ rangePages range := by
        intro hrange
        exact Set.disjoint_left.mp (h.apart i k r' r hr' hr hik) hpage (hsubset page hrange)
      exact Or.inr ⟨⟨houtside,id⟩,Or.inr ⟨i,r',hik,hr',hpage,hbit⟩⟩

private theorem PageMapInv.release (h : PageMapInv history space) {k : Nat} {r : VmmReservation}
    (hr : space.Live k r) :
    PageMapInv (history ++ [.release (r.startVa,r.size)])
      { space with entries := space.entries.set k vmmReservationZero } := by
  have hlive (i : Nat) (r' : VmmReservation) : VmmReservationSpace.Live { space with
      entries := space.entries.set k vmmReservationZero } i r' ↔ i ≠ k ∧ space.Live i r' :=
    live_release hr rfl i r'
  have houtside {i page : Nat} {r' : VmmReservation} (hik : i ≠ k) (hr' : space.Live i r')
      (hpage : page ∈ r'.pages) : ¬ PageEvent.Releases page (.release (r.startVa,r.size)) := by
    intro hreleased
    exact Set.disjoint_left.mp (h.apart i k r' r hr' hr hik) hpage hreleased
  constructor
  · intro i r' hr'
    exact h.arguments i r' ((hlive i r').mp hr').2
  · intro i j ri rj hi hj hij
    exact h.apart i j ri rj ((hlive i ri).mp hi).2 ((hlive j rj).mp hj).2 hij
  · intro page attributes
    rw [ReservedSince,since_append_singleton]
    constructor
    · rintro (hreserves | ⟨hkept,hsince⟩)
      · cases hreserves
      · obtain ⟨i,r',hr',hpage,heq⟩ := (h.reserved page attributes).mp hsince
        have hik : i ≠ k := by
          rintro rfl
          have hsame : r' = r := Option.some.inj (hr'.1.symm.trans hr.1)
          exact hkept (hsame ▸ hpage)
        exact ⟨i,r',(hlive i r').mpr ⟨hik,hr'⟩,hpage,heq⟩
    · rintro ⟨i,r',hr',hpage,heq⟩
      have hkept := (hlive i r').mp hr'
      exact Or.inr ⟨houtside hkept.1 hkept.2 hpage,
        (h.reserved page attributes).mpr ⟨i,r',hkept.2,hpage,heq⟩⟩
  · intro page
    rw [CommittedSince,since_append_singleton]
    constructor
    · rintro (hcommits | ⟨⟨_,hkept⟩,hsince⟩)
      · cases hcommits
      · obtain ⟨i,r',hr',hpage,hbit⟩ := (h.committed page).mp hsince
        have hik : i ≠ k := by
          rintro rfl
          have hsame : r' = r := Option.some.inj (hr'.1.symm.trans hr.1)
          exact hkept (hsame ▸ hpage)
        exact ⟨i,r',(hlive i r').mpr ⟨hik,hr'⟩,hpage,hbit⟩
    · rintro ⟨i,r',hr',hpage,hbit⟩
      have hkept := (hlive i r').mp hr'
      exact Or.inr ⟨⟨id,houtside hkept.1 hkept.2 hpage⟩,
        (h.committed page).mpr ⟨i,r',hkept.2,hpage,hbit⟩⟩

private theorem pageMapInv_init (created : VmmReservationSpace) :
    PageMapInv [] (vmReservationSpaceFinishInit created) := by
  have hnone := not_live_finishInit created
  constructor
  · exact fun i r hr => absurd hr (hnone i r)
  · exact fun i j r r' hr => absurd hr (hnone i r)
  · intro page attributes
    simp [ReservedSince,hnone]
  · intro page
    simp [CommittedSince,hnone]

/-- A run whose history is well formed keeps the invariant. -/
theorem page_map_inv {created : VmmReservationSpace} (hwf : WellFormedHistory history)
    (h : Effects reservationSize (vmReservationSpaceFinishInit created) history space) :
    PageMapInv history space := by
  induction h with
  | refl => exact pageMapInv_init created
  | move _ _ ih =>
    have hbefore := ih hwf
    exact ⟨hbefore.arguments,hbefore.apart,hbefore.reserved,hbefore.committed⟩
  | step h hevent ih =>
    have hlast := historically_append_singleton.mp hwf
    have hinv := ih hlast.1
    cases hevent with
    | reserve hargs hnew hfound haligned hfits =>
      exact hinv.reserve (h.shape ⟨[],_,rfl,rfl,trivial⟩) hlast.2
        (.reserve hargs hnew hfound haligned hfits)
    | commit hr hin hinterval => exact hinv.commit hr hin hinterval
    | decommit hr hin hfirst hinterval => exact hinv.decommit hlast.2 hr hin hfirst hinterval
    | release hr => exact hinv.release hr

theorem vmIsVaCommited_eq {r : VmmReservation} (hargs : ReserveArguments r.startVa r.size)
    {address : Nat} (hne : address ≠ 0)
    (hin : checkBounds address 1 r.startVa r.size = true) :
    vmIsVaCommited r address =
      some (r.commitBitmap.bits (address / pageSize - r.startVa / pageSize)) := by
  have hbounds := checkBounds_eq_true.mp hin
  have hdiff := ptrDiff_inside hargs hbounds.1 (by omega)
  have hpage : (address - r.startVa) / pageSize = address / pageSize - r.startVa / pageSize := by
    have hbase := hargs.base_aligned
    unfold pageSize at *
    omega
  have hpages := hargs.pages_le
  have hsize := hargs.size_aligned
  have hle : address / pageSize - r.startVa / pageSize ≤ maxDword := by
    rw [← hpage]
    unfold pageSize at *
    omega
  have hassert : assert (address != 0) = some () := by simp [hne]
  simp [vmIsVaCommited,hdiff,hpage,hle,hassert]

private theorem PageMapInv.committed_iff (h : PageMapInv history space) {k page : Nat}
    {r : VmmReservation} (hr : space.Live k r) (hpage : page ∈ r.pages) :
    CommittedSince history page ↔ r.IsCommitted page := by
  rw [h.committed]
  constructor
  · rintro ⟨i,r',hr',hpage',hbit⟩
    exact (h.unique hr' hr hpage' hpage).2 ▸ hbit
  · exact fun hbit => ⟨k,r,hr,hpage,hbit⟩

private theorem PageMapInv.reserved_iff (h : PageMapInv history space) {k page : Nat}
    {r : VmmReservation} (hr : space.Live k r) (hpage : page ∈ r.pages)
    (attributes : PageAttributes) :
    ReservedSince history page attributes ↔ attributes = r.attributes := by
  rw [h.reserved]
  constructor
  · rintro ⟨i,r',hr',hpage',heq⟩
    exact (h.unique hr' hr hpage' hpage).2 ▸ heq
  · exact fun heq => ⟨k,r,hr,hpage,heq⟩

private theorem PageMapInv.not_committed (h : PageMapInv history space) {address : Nat}
    (hout : ∀ i r, space.Live i r → checkBounds address 1 r.startVa r.size = false) :
    ¬ CommittedSince history (address / pageSize) := by
  rw [h.committed]
  rintro ⟨i,r,hr,hpage,_⟩
  have hin := (mem_pages_iff (h.arguments i r hr) address).mp hpage
  rw [hout i r hr] at hin
  cases hin

private theorem PageMapInv.zero_outside (h : PageMapInv history space) (i : Nat)
    (r : VmmReservation) (hr : space.Live i r) : checkBounds 0 1 r.startVa r.size = false := by
  have hstart := (h.arguments i r hr).base_ne_zero
  rw [← Bool.not_eq_true,checkBounds_eq_true]
  omega

/-- Nothing is granted where the history says nothing is committed. -/
private theorem refused_of_not_committed {address : Nat} {requested : PageRights}
    (hnever : ¬ CommittedSince history (address / pageSize)) (grant : AccessGrant) :
    none = some grant ↔ CommittedSince history (address / pageSize) ∧
      ∃ attributes, ReservedSince history (address / pageSize) attributes ∧
        attributes.rights.includes requested = true ∧ grant = attributes.grant address := by
  constructor
  · intro hgrant
    cases hgrant
  · exact fun hcommitted => absurd hcommitted.1 hnever

/-- An access is allowed exactly if the page was committed and not decommitted or released
since, and its reservation grants the rights; the answer is that reservation's. -/
theorem access_eq_page_map {metadataBase reservationBase metadataSize : Nat}
    (h : ((metadataSystem reservationSize metadataBase reservationBase metadataSize).recording
      (pageEvents reservationSize)).Reachable (space,history))
    (hwf : WellFormedHistory history) (metadataAccess : Bool) {address : Nat}
    (hmetadata : checkBounds address 1 space.reservationList space.reservedAreaSize = false)
    (requested : PageRights) :
    ∃ answer, vmReservationCanAddressBeAccessed reservationSize space metadataAccess address
        requested = some answer ∧
      ∀ grant, answer = some grant ↔ CommittedSince history (address / pageSize) ∧
        ∃ attributes, ReservedSince history (address / pageSize) attributes ∧
          attributes.rights.includes requested = true ∧ grant = attributes.grant address := by
  obtain ⟨created,_,hshape,heffects⟩ := reachable_effects h
  have hshape : ListShape reservationSize space := hshape
  have hinv : PageMapInv history space := page_map_inv hwf heffects
  by_cases hzero : address = 0
  · subst address
    exact ⟨none,by simp [vmReservationCanAddressBeAccessed],
      refused_of_not_committed (hinv.not_committed hinv.zero_outside)⟩
  · have hassert : assert (address != 0) = some () := by simp [hzero]
    have hfind : vmFindReservation reservationSize space address 1 =
        some (findReservationFrom reservationSize space address 1 0 space.entries) := by
      simp [vmFindReservation,hassert]
    have hspec := vmFindReservation_spec hshape hfind
    simp only [vmReservationCanAddressBeAccessed,if_neg hzero,hmetadata,hfind,Option.bind_eq_bind,
      Option.bind_some]
    cases hfound : findReservationFrom reservationSize space address 1 0 space.entries with
    | none => exact ⟨none,rfl,refused_of_not_committed (hinv.not_committed (hspec.2 hfound))⟩
    | some k =>
      obtain ⟨r,hr,hin⟩ := hspec.1 k hfound
      have hargs := hinv.arguments k r hr
      have hbounds := checkBounds_eq_true.mp hin
      have hpage := (mem_pages_iff hargs address).mpr hin
      have hdiff := ptrDiff_inside hargs hbounds.1 (by omega)
      have hgrant : r.attributes.grant address = ⟨r.pageRights,r.uncacheable,r.backingFile,
          if r.backingFile.isSome then
            alignAddressLower (ptrDiff address r.startVa) pageSize else 0⟩ := by
        rw [hdiff]
        rfl
      simp only [hr.1,Option.bind_some,vmIsVaCommited_eq hargs hzero hin,
        hinv.committed_iff hr hpage,hinv.reserved_iff hr hpage,Bool.false_eq_true,if_false]
      split
      · rename_i hallowed
        have hallowed := Bool.and_eq_true_iff.mp hallowed
        refine ⟨_,rfl,?_⟩
        intro grant
        rw [← hgrant]
        constructor
        · intro heq
          exact ⟨hallowed.1,r.attributes,rfl,hallowed.2,(Option.some.inj heq).symm⟩
        · rintro ⟨_,_,rfl,_,rfl⟩
          rfl
      · rename_i hdenied
        refine ⟨none,rfl,?_⟩
        intro grant
        constructor
        · intro heq
          cases heq
        · rintro ⟨hbit,_,rfl,hrights,_⟩
          exact absurd (Bool.and_eq_true_iff.mpr ⟨hbit,hrights⟩) hdenied

end Refinement

end Hal9000
