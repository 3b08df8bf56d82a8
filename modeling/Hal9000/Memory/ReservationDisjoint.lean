import Hal9000.Framework.TransitionSystem
import Hal9000.Memory.ReservationSpace

/-!
# Disjointness of the live reservations

The containment search of `_VmFindReservation` refuses a reservation inside a live one and
accepts one that only overlaps it. The live ranges therefore stay disjoint in the runs whose
requests are contained in a live range or meet none, and one other request is enough to
break them.
-/

namespace Hal9000

/-- The virtual addresses a reservation describes. -/
def VmmReservation.range (reservation : VmmReservation) : Set Nat :=
  Set.Ico reservation.startVa (reservation.startVa + reservation.size)

namespace VmmReservationSpace

/-- The reservation in use at an index of the list. -/
def Live (space : VmmReservationSpace) (index : Nat) (reservation : VmmReservation) : Prop :=
  space.entries[index]? = some reservation ∧ reservation.state = .used

/-- Every address is described by at most one live reservation. -/
def RangesDisjoint (space : VmmReservationSpace) : Prop :=
  ∀ i j r r', space.Live i r → space.Live j r' → i ≠ j → Disjoint r.range r'.range

end VmmReservationSpace

section Shape

variable (reservationSize : Nat)

/-- Entries in front of the sentinel start below the bitmap area and are no sentinels. -/
def Located (space : VmmReservationSpace) : Nat → List VmmReservation → Prop
  | _, [] => True
  | index, reservation :: rest =>
    (reservation.state ≠ .last ∧
      space.entryAddress reservationSize index < space.bitmapAddressStart) ∧
    Located space (index + 1) rest

/-- The list is a run of located entries closed by one sentinel. -/
def ListShape (space : VmmReservationSpace) : Prop :=
  ∃ live sentinel, space.entries = live ++ [sentinel] ∧ sentinel.state = .last ∧
    Located reservationSize space 0 live

variable {reservationSize}

private theorem located_congr (space space' : VmmReservationSpace)
    (hlist : space'.reservationList = space.reservationList)
    (hstart : space'.bitmapAddressStart = space.bitmapAddressStart) (index : Nat)
    (live : List VmmReservation) :
    Located reservationSize space' index live ↔ Located reservationSize space index live := by
  induction live generalizing index with
  | nil => exact Iff.rfl
  | cons reservation rest ih =>
    simp only [Located,VmmReservationSpace.entryAddress,hlist,hstart,ih]

private theorem located_set {space : VmmReservationSpace} {index : Nat}
    {live : List VmmReservation} (h : Located reservationSize space index live) (k : Nat)
    {reservation : VmmReservation} (hstate : reservation.state ≠ .last) :
    Located reservationSize space index (live.set k reservation) := by
  induction live generalizing index k with
  | nil => exact h
  | cons first rest ih =>
    cases k with
    | zero => exact ⟨⟨hstate,h.1.2⟩,h.2⟩
    | succ k => exact ⟨h.1,ih h.2 k⟩

private theorem located_state {space : VmmReservationSpace} {index : Nat}
    {live : List VmmReservation} (h : Located reservationSize space index live)
    {reservation : VmmReservation} (hmem : reservation ∈ live) : reservation.state ≠ .last := by
  induction live generalizing index with
  | nil => cases hmem
  | cons first rest ih =>
    rcases List.mem_cons.mp hmem with rfl | hmem
    · exact h.1.1
    · exact ih h.2 hmem

theorem ListShape.set {space space' : VmmReservationSpace}
    (h : ListShape reservationSize space) {k : Nat} {old reservation : VmmReservation}
    (hold : space.entries[k]? = some old) (hlive : old.state ≠ .last)
    (hstate : reservation.state ≠ .last)
    (hentries : space'.entries = space.entries.set k reservation)
    (hlist : space'.reservationList = space.reservationList)
    (hstart : space'.bitmapAddressStart = space.bitmapAddressStart) :
    ListShape reservationSize space' := by
  obtain ⟨live,sentinel,he,hs,hl⟩ := h
  have hk : k < live.length := by
    by_contra hge
    rw [he,List.getElem?_append_right (by omega)] at hold
    have hzero : k - live.length = 0 := by
      have hlen := (List.getElem?_eq_some_iff.mp hold).1
      simpa using hlen
    rw [hzero] at hold
    have heq : sentinel = old := by simpa using hold
    exact hlive (heq ▸ hs)
  refine ⟨live.set k reservation,sentinel,?_,hs,?_⟩
  · rw [hentries,he,List.set_append_left _ _ hk]
  · exact (located_congr space space' hlist hstart 0 _).mpr (located_set hl k hstate)

end Shape

section Searches

variable {reservationSize : Nat} {space : VmmReservationSpace}

private theorem findReservationFrom_some {address size index k : Nat}
    {entries : List VmmReservation}
    (h : findReservationFrom reservationSize space address size index entries = some k) :
    ∃ m r, k = index + m ∧ entries[m]? = some r ∧ r.state = .used ∧
      checkBounds address size r.startVa r.size = true := by
  induction entries generalizing index with
  | nil => simp [findReservationFrom] at h
  | cons first rest ih =>
    rw [findReservationFrom] at h
    split at h
    · cases h
    · rename_i hlast
      split at h
      · obtain ⟨m,r,hk,hr⟩ := ih h
        exact ⟨m+1,r,by omega,hr⟩
      · rename_i hfree
        split at h
        · rename_i hbounds
          have hused : first.state = .used := by
            cases hstate : first.state <;> simp_all
          exact ⟨0,first,by simpa using h.symm,rfl,hused,hbounds⟩
        · obtain ⟨m,r,hk,hr⟩ := ih h
          exact ⟨m+1,r,by omega,hr⟩

private theorem findReservationFrom_none {address size index : Nat}
    {live : List VmmReservation} {sentinel : VmmReservation}
    (hl : Located reservationSize space index live)
    (h : findReservationFrom reservationSize space address size index (live ++ [sentinel]) = none) :
    ∀ r ∈ live, r.state = .used → checkBounds address size r.startVa r.size = false := by
  induction live generalizing index with
  | nil => simp
  | cons first rest ih =>
    have hcontinue : ¬ (first.state = .last ∨
        ¬ space.entryAddress reservationSize index < space.bitmapAddressStart) := by
      rintro (hlast | hout)
      · exact hl.1.1 hlast
      · exact hout hl.1.2
    rw [List.cons_append,findReservationFrom,if_neg hcontinue] at h
    intro r hr hused
    split at h
    · rename_i hfree
      rcases List.mem_cons.mp hr with rfl | hr
      · rw [hused] at hfree; cases hfree
      · exact ih hl.2 h r hr hused
    · split at h
      · cases h
      · rename_i hbounds
        rcases List.mem_cons.mp hr with rfl | hr
        · exact Bool.eq_false_iff.mpr hbounds
        · exact ih hl.2 h r hr hused

private theorem findReservationFrom_first {address size index k : Nat}
    {entries : List VmmReservation}
    (h : findReservationFrom reservationSize space address size index entries = some k) :
    ∀ m r, index + m < k → entries[m]? = some r → r.state = .used →
      checkBounds address size r.startVa r.size = false := by
  induction entries generalizing index with
  | nil => cases h
  | cons first rest ih =>
    intro m r hlt hr hused
    rw [findReservationFrom] at h
    split at h
    · cases h
    · split at h
      · rename_i hfree
        cases m with
        | zero =>
          cases hr
          rw [hused] at hfree
          cases hfree
        | succ m => exact ih h m r (by omega) hr hused
      · split at h
        · cases h
          omega
        · rename_i hbounds
          cases m with
          | zero =>
            cases hr
            exact Bool.eq_false_iff.mpr hbounds
          | succ m => exact ih h m r (by omega) hr hused

variable (reservationSize space) in
theorem vmFindReservation_eq {address size : Nat} (haddress : address ≠ 0) (hsize : size ≠ 0) :
    ∃ found, vmFindReservation reservationSize space address size = some found := by
  have hassert : assert (address != 0) = some () := assert_eq_some.mpr (bne_iff_ne.mpr haddress)
  have hassert' : assert (size != 0) = some () := assert_eq_some.mpr (bne_iff_ne.mpr hsize)
  rw [vmFindReservation,hassert,hassert']
  exact ⟨_,rfl⟩

theorem vmFindReservation_first {address size k : Nat}
    (h : vmFindReservation reservationSize space address size = some (some k)) :
    ∀ j r, j < k → space.Live j r → checkBounds address size r.startVa r.size = false := by
  simp only [vmFindReservation,Option.bind_eq_bind,Option.bind_eq_some_iff,Option.pure_def,
    Option.some.injEq] at h
  obtain ⟨_,_,_,_,h⟩ := h
  intro j r hlt hr
  exact findReservationFrom_first h j r (by omega) hr.1 hr.2

theorem vmFindReservation_spec (hshape : ListShape reservationSize space) {address size : Nat}
    {found : Option Nat}
    (h : vmFindReservation reservationSize space address size = some found) :
    (∀ k, found = some k →
      ∃ r, space.Live k r ∧ checkBounds address size r.startVa r.size = true) ∧
    (found = none → ∀ k r, space.Live k r →
      checkBounds address size r.startVa r.size = false) := by
  have hfound : findReservationFrom reservationSize space address size 0 space.entries = found := by
    simp only [vmFindReservation,Option.bind_eq_bind,Option.bind_eq_some_iff,Option.pure_def,
      Option.some.injEq] at h
    obtain ⟨_,_,_,_,h⟩ := h
    exact h
  constructor
  · intro k hk
    obtain ⟨m,r,hkm,hr,hused,hbounds⟩ := findReservationFrom_some (hfound.trans hk)
    exact ⟨r,⟨by rw [hkm,Nat.zero_add]; exact hr,hused⟩,hbounds⟩
  · intro hnone k r hr
    obtain ⟨live,sentinel,he,hs,hl⟩ := hshape
    rw [he] at hfound
    have hmem : r ∈ live := by
      have hm := List.mem_of_getElem? hr.1
      rw [he,List.mem_append,List.mem_singleton] at hm
      rcases hm with hm | rfl
      · exact hm
      · rw [hr.2] at hs; cases hs
    exact findReservationFrom_none hl (hfound.trans hnone) r hmem hr.2

private theorem findFirstFreeFrom_spec {index k : Nat} {live entries' : List VmmReservation}
    {sentinel : VmmReservation} (hl : Located reservationSize space index live)
    (hs : sentinel.state = .last)
    (h : findFirstFreeFrom reservationSize space index (live ++ [sentinel]) = some (k,entries')) :
    ∃ m live' sentinel', k = index + m ∧ entries' = live' ++ [sentinel'] ∧
      sentinel'.state = .last ∧ Located reservationSize space index live' ∧ m < live'.length ∧
      (∀ r, (live ++ [sentinel])[m]? = some r → r.state ≠ .used) ∧
      ∀ j r, j ≠ m → r.state = .used →
        (entries'[j]? = some r ↔ (live ++ [sentinel])[j]? = some r) := by
  induction live generalizing index entries' with
  | nil =>
    simp only [List.nil_append,findFirstFreeFrom,hs,markLast] at h
    split at h
    · cases h
    · rename_i haddress
      obtain ⟨rfl,rfl⟩ := Prod.mk.inj (Option.some.inj h)
      refine ⟨0,[{ sentinel with state := .free }],_,by omega,rfl,rfl,?_,by simp,?_,?_⟩
      · exact ⟨⟨by simp,by simpa using haddress⟩,trivial⟩
      · simp [hs]
      · intro j r hj hused
        match j with
        | 0 => omega
        | 1 => simp only [List.getElem?_cons_succ,List.getElem?_cons_zero,Option.some.injEq,
                List.nil_append,List.getElem?_nil,reduceCtorEq,iff_false]
               rintro rfl
               cases hused
        | j+2 => simp
  | cons first rest ih =>
    rw [List.cons_append,findFirstFreeFrom,if_neg (not_not.mpr hl.1.2)] at h
    split at h
    · rename_i hfree
      obtain ⟨rfl,rfl⟩ := Prod.mk.inj (Option.some.inj h)
      exact ⟨0,first :: rest,sentinel,by omega,rfl,hs,hl,by simp,by simp [hfree],
        fun j r _ _ => Iff.rfl⟩
    · rename_i hlast
      exact absurd hlast hl.1.1
    · obtain ⟨found,hfound,heq⟩ := Option.map_eq_some_iff.mp h
      obtain ⟨rfl,rfl⟩ := Prod.mk.inj heq
      obtain ⟨m,live',sentinel',hk,he,hs',hl',hm,hvacant,hother⟩ := ih hl.2 hfound
      refine ⟨m+1,first :: live',sentinel',by omega,by simp [he],hs',⟨hl.1,hl'⟩,by simpa using hm,
        by simpa using hvacant,?_⟩
      intro j r hj hused
      cases j with
      | zero => simp
      | succ j => simpa using hother j r (by omega) hused

theorem vmFindFirstFreeReservation_spec (hshape : ListShape reservationSize space) {k : Nat}
    {space' : VmmReservationSpace}
    (h : vmFindFirstFreeReservation reservationSize space = some (k,space')) :
    ListShape reservationSize space' ∧
      (∃ vacant, space'.entries[k]? = some vacant ∧ vacant.state ≠ .last) ∧
      (∀ r, ¬ space.Live k r) ∧ (∀ j r, j ≠ k → (space'.Live j r ↔ space.Live j r)) ∧
      space' = { space with entries := space'.entries } := by
  obtain ⟨found,hfound,heq⟩ := Option.map_eq_some_iff.mp h
  obtain ⟨rfl,rfl⟩ := Prod.mk.inj heq
  obtain ⟨live,sentinel,he,hs,hl⟩ := hshape
  rw [he] at hfound
  obtain ⟨m,live',sentinel',hk,he',hs',hl',hm,hvacant,hother⟩ := findFirstFreeFrom_spec hl hs hfound
  rw [Nat.zero_add] at hk
  have hentry : found.2[m]? = some live'[m] := by
    rw [he',List.getElem?_append_left hm,List.getElem?_eq_getElem hm]
  refine ⟨⟨live',sentinel',he',hs',
      (located_congr space { space with entries := found.2 } rfl rfl 0 live').mpr hl'⟩,
    ⟨live'[m],by rw [hk]; exact hentry,?_⟩,?_,?_,rfl⟩
  · exact located_state hl' (List.getElem_mem hm)
  · rintro r ⟨hr,hused⟩
    rw [hk,he] at hr
    exact hvacant r hr hused
  · intro j r hj
    constructor
    · rintro ⟨hr,hused⟩
      exact ⟨by rw [he]; exact (hother j r (hk ▸ hj) hused).mp hr,hused⟩
    · rintro ⟨hr,hused⟩
      rw [he] at hr
      exact ⟨(hother j r (hk ▸ hj) hused).mpr hr,hused⟩

end Searches

/-- The change one call makes to the live reservations. -/
inductive LiveChange (space space' : VmmReservationSpace) : Prop
  | same (h : ∀ i r, space'.Live i r ↔ space.Live i r)
  | reserved (k : Nat) (r : VmmReservation) (vacant : ∀ r', ¬ space.Live k r')
      (h : ∀ i r', space'.Live i r' ↔ i = k ∧ r' = r ∨ i ≠ k ∧ space.Live i r')
  | rewritten (k : Nat) (r r' : VmmReservation) (live : space.Live k r)
      (hrange : r'.range = r.range)
      (h : ∀ i r'', space'.Live i r'' ↔ i = k ∧ r'' = r' ∨ i ≠ k ∧ space.Live i r'')
  | released (k : Nat) (h : ∀ i r, space'.Live i r ↔ i ≠ k ∧ space.Live i r)

theorem live_set {space space' : VmmReservationSpace} {k : Nat} {old r : VmmReservation}
    (hold : space.entries[k]? = some old) (hentries : space'.entries = space.entries.set k r)
    (i : Nat) (r' : VmmReservation) :
    space'.Live i r' ↔ i = k ∧ r' = r ∧ r.state = .used ∨ i ≠ k ∧ space.Live i r' := by
  have hk : k < space.entries.length := (List.getElem?_eq_some_iff.mp hold).1
  unfold VmmReservationSpace.Live
  rw [hentries]
  by_cases hi : i = k
  · subst i
    rw [List.getElem?_set_self hk]
    constructor
    · rintro ⟨heq,hused⟩
      have hr : r = r' := Option.some.inj heq
      exact Or.inl ⟨rfl,hr.symm,hr ▸ hused⟩
    · rintro (⟨_,rfl,hused⟩ | ⟨hne,_⟩)
      · exact ⟨rfl,hused⟩
      · exact absurd rfl hne
  · rw [List.getElem?_set_ne (Ne.symm hi)]
    simp [hi]

/-- Everything but a new reservation keeps the ranges disjoint; a new one keeps them exactly
if it meets no live range. -/
theorem LiveChange.disjoint {space space' : VmmReservationSpace} (h : LiveChange space space')
    (hd : space.RangesDisjoint)
    (hnew : ∀ k r, space'.Live k r → (∀ r', ¬ space.Live k r') →
      ∀ i r', i ≠ k → space.Live i r' → Disjoint r.range r'.range) : space'.RangesDisjoint := by
  intro i j ri rj hi hj hij
  cases h with
  | same h => exact hd i j ri rj ((h i ri).mp hi) ((h j rj).mp hj) hij
  | reserved k r vacant h =>
    have hk : space'.Live k r := (h k r).mpr (Or.inl ⟨rfl,rfl⟩)
    rcases (h i ri).mp hi with ⟨rfl,rfl⟩ | ⟨hik,hi'⟩
    · rcases (h j rj).mp hj with ⟨rfl,rfl⟩ | ⟨hjk,hj'⟩
      · exact absurd rfl hij
      · exact hnew i ri hk vacant j rj hjk hj'
    · rcases (h j rj).mp hj with ⟨rfl,rfl⟩ | ⟨hjk,hj'⟩
      · exact (hnew j rj hk vacant i ri hik hi').symm
      · exact hd i j ri rj hi' hj' hij
  | rewritten k r r' live hrange h =>
    rcases (h i ri).mp hi with ⟨rfl,rfl⟩ | ⟨hik,hi'⟩
    · rcases (h j rj).mp hj with ⟨rfl,rfl⟩ | ⟨hjk,hj'⟩
      · exact absurd rfl hij
      · rw [hrange]
        exact hd i j r rj live hj' hij
    · rcases (h j rj).mp hj with ⟨rfl,rfl⟩ | ⟨hjk,hj'⟩
      · rw [hrange]
        exact hd i j ri r hi' live hij
      · exact hd i j ri rj hi' hj' hij
  | released k h => exact hd i j ri rj ((h i ri).mp hi).2 ((h j rj).mp hj).2 hij

section Calls

variable {reservationSize : Nat} {space space' : VmmReservationSpace}

private theorem vmInitializeReservation_spec {address size k : Nat} {rights : PageRights}
    {uncacheable : Bool} {file : Option Nat}
    (h : vmInitializeReservation space address size rights uncacheable file k = some space') :
    ∃ r, r.startVa = address ∧ r.size = size ∧ r.state = .used ∧
      space'.entries = space.entries.set k r ∧
      space'.reservationList = space.reservationList ∧
      space'.bitmapAddressStart = space.bitmapAddressStart := by
  simp only [vmInitializeReservation,Option.bind_eq_bind,Option.bind_eq_some_iff,Option.pure_def,
    Option.some.injEq] at h
  obtain ⟨_,_,_,_,_,_,_,_,_,_,_,_,_,_,_,_,rfl⟩ := h
  exact ⟨_,rfl,rfl,rfl,rfl,rfl,rfl⟩

/-- A reservation request is refused for a range inside a live one, and otherwise takes a
vacant entry, whatever other live ranges it meets. -/
theorem vmChangeVaReservationState_reserve (hshape : ListShape reservationSize space)
    {address size : Nat} {rights : PageRights} {uncacheable : Bool} {file : Option Nat}
    {status : Status}
    (h : vmChangeVaReservationState reservationSize space address size .reserve rights
      uncacheable file = some (status,space')) :
    ListShape reservationSize space' ∧
      (status = .memoryAlreadyReserved ∧ space' = space ∨
        status = .success ∧
        (∀ k r, space.Live k r → checkBounds address size r.startVa r.size = false) ∧
        ∃ k r, r.range = Set.Ico address (address + size) ∧ (∀ r', ¬ space.Live k r') ∧
          ∀ i r', space'.Live i r' ↔ i = k ∧ r' = r ∨ i ≠ k ∧ space.Live i r') := by
  simp only [vmChangeVaReservationState,Option.bind_eq_bind,Option.bind_eq_some_iff] at h
  obtain ⟨_,_,_,_,_,_,_,_,found,hfound,h⟩ := h
  cases found with
  | some k =>
    obtain ⟨rfl,rfl⟩ := Prod.mk.inj (Option.some.inj h)
    exact ⟨hshape,Or.inl ⟨rfl,rfl⟩⟩
  | none =>
    simp only [Option.bind_eq_some_iff] at h
    obtain ⟨⟨k,space₁⟩,hfree,space₂,hinit,h⟩ := h
    obtain ⟨rfl,rfl⟩ := Prod.mk.inj (Option.some.inj h)
    obtain ⟨hshape₁,⟨vacant,hentry,hlast⟩,hvacant,hother,hsame⟩ :=
      vmFindFirstFreeReservation_spec hshape hfree
    obtain ⟨r,hstart,hsize,hused,hentries,hlist,hbitmap⟩ := vmInitializeReservation_spec hinit
    have hshape₂ := hshape₁.set hentry hlast (by rw [hused]; simp) hentries hlist hbitmap
    refine ⟨hshape₂,Or.inr ⟨rfl,(vmFindReservation_spec hshape hfound).2 rfl,k,r,?_,hvacant,?_⟩⟩
    · rw [VmmReservation.range,hstart,hsize]
    · intro i r'
      rw [live_set hentry hentries i r']
      by_cases hi : i = k
      · simp [hi,hused]
      · simp [hi,hother i r' hi]

theorem vmChangeVaReservationState_commit (hshape : ListShape reservationSize space)
    {address size : Nat} {rights : PageRights} {uncacheable : Bool} {file : Option Nat}
    {status : Status}
    (h : vmChangeVaReservationState reservationSize space address size .commit rights
      uncacheable file = some (status,space')) :
    ListShape reservationSize space' ∧
      (space' = space ∨ ∃ k r r', space.Live k r ∧ r'.range = r.range ∧
        ∀ i r'', space'.Live i r'' ↔ i = k ∧ r'' = r' ∨ i ≠ k ∧ space.Live i r'') := by
  simp only [vmChangeVaReservationState,Option.bind_eq_bind,Option.bind_eq_some_iff] at h
  obtain ⟨_,_,_,_,_,_,_,_,found,hfound,h⟩ := h
  cases found with
  | none =>
    obtain ⟨rfl,rfl⟩ := Prod.mk.inj (Option.some.inj h)
    exact ⟨hshape,Or.inl rfl⟩
  | some k =>
    simp only [Option.bind_eq_some_iff] at h
    obtain ⟨r,hr,h⟩ := h
    obtain ⟨r₁,hlive,_⟩ := (vmFindReservation_spec hshape hfound).1 k rfl
    have heq : r₁ = r := Option.some.inj (hlive.1.symm.trans hr)
    subst r₁
    split at h
    · obtain ⟨rfl,rfl⟩ := Prod.mk.inj (Option.some.inj h)
      exact ⟨hshape,Or.inl rfl⟩
    · split at h
      · obtain ⟨rfl,rfl⟩ := Prod.mk.inj (Option.some.inj h)
        exact ⟨hshape,Or.inl rfl⟩
      · simp only [Option.bind_eq_some_iff] at h
        obtain ⟨r',hcommit,h⟩ := h
        obtain ⟨rfl,rfl⟩ := Prod.mk.inj (Option.some.inj h)
        simp only [vmCommitReservation,Option.bind_eq_bind,Option.bind_eq_some_iff] at hcommit
        obtain ⟨interval,_,hr'⟩ := hcommit
        have hr' := Option.some.inj hr'
        have hused : r'.state = .used := by rw [← hr']; exact hlive.2
        refine ⟨hshape.set hr (by rw [hlive.2]; simp) (by rw [hused]; simp) rfl rfl rfl,
          Or.inr ⟨k,r,r',hlive,by rw [← hr']; rfl,?_⟩⟩
        intro i r''
        rw [live_set hr rfl i r'']
        simp [hused]

theorem live_of_entries (he : space'.entries = space.entries) (i : Nat)
    (r : VmmReservation) : space'.Live i r ↔ space.Live i r := by
  rw [VmmReservationSpace.Live,he]
  exact Iff.rfl

theorem ListShape.of_entries (h : ListShape reservationSize space)
    (he : space'.entries = space.entries) (hl : space'.reservationList = space.reservationList)
    (hb : space'.bitmapAddressStart = space.bitmapAddressStart) :
    ListShape reservationSize space' := by
  obtain ⟨live,sentinel,hlive,hs,hlocated⟩ := h
  exact ⟨live,sentinel,he.trans hlive,hs,(located_congr space space' hl hb 0 live).mpr hlocated⟩

theorem allocRange_same (space : VmmReservationSpace) (baseAddress size : Nat) :
    (allocRange space baseAddress size).2.entries = space.entries ∧
      (allocRange space baseAddress size).2.reservationList = space.reservationList ∧
      (allocRange space baseAddress size).2.bitmapAddressStart = space.bitmapAddressStart := by
  unfold allocRange
  split
  · dsimp only
    split <;> exact ⟨rfl,rfl,rfl⟩
  · exact ⟨rfl,rfl,rfl⟩

/-- A reservation made by a request covers the request's aligned range, which no live
reservation contained. -/
def FreshReservation (space : VmmReservationSpace) (request : AllocRequest)
    (r : VmmReservation) : Prop :=
  request.allocType.reserve = true ∧
    ∃ base size, (allocRange space request.baseAddress request.size).1 = some (base,size) ∧
      r.range = Set.Ico base (base + size) ∧
      ∀ i r', space.Live i r' → checkBounds base size r'.startVa r'.size = false

theorem vmReservationSpaceAllocRegion_spec (hshape : ListShape reservationSize space)
    {request : AllocRequest} {status : Status} {mapped : Option (Nat × Nat)}
    (h : vmReservationSpaceAllocRegion reservationSize space request =
      some (status,mapped,space')) :
    ListShape reservationSize space' ∧ ∃ space₁, LiveChange space space₁ ∧
      (∀ k r, space₁.Live k r → (∀ r', ¬ space.Live k r') → FreshReservation space request r) ∧
      LiveChange space₁ space' ∧ ∀ k r, space'.Live k r → ∃ r', space₁.Live k r' := by
  obtain ⟨he,hl,hb⟩ := allocRange_same space request.baseAddress request.size
  simp only [vmReservationSpaceAllocRegion,vmReservationSpaceChangeRange,Option.bind_eq_bind,
    Option.bind_eq_some_iff] at h
  obtain ⟨_,_,_,_,h⟩ := h
  generalize hrange : allocRange space request.baseAddress request.size = moved at he hl hb h
  obtain ⟨range,space₀⟩ := moved
  have hshape₀ : ListShape reservationSize space₀ := hshape.of_entries he hl hb
  have hlive₀ : ∀ i r, space₀.Live i r ↔ space.Live i r := live_of_entries he
  cases range with
  | none =>
    obtain ⟨_,_,rfl⟩ := Option.some.inj h
    refine ⟨hshape₀,space,.same fun _ _ => Iff.rfl,fun k r hr hv => absurd hr (hv r),
      .same hlive₀,fun k r hr => ⟨r,(hlive₀ k r).mp hr⟩⟩
  | some range =>
    obtain ⟨base,size⟩ := range
    obtain ⟨⟨status₁,space₁⟩,hreserve,h⟩ := Option.bind_eq_some_iff.mp h
    have hfirst : ListShape reservationSize space₁ ∧ LiveChange space space₁ ∧
        ∀ k r, space₁.Live k r → (∀ r', ¬ space.Live k r') →
          FreshReservation space request r := by
      unfold changeIfFlagged at hreserve
      split at hreserve
      · rename_i hflag
        obtain ⟨hshape₁,⟨_,rfl⟩ | ⟨_,hbounds,k,r,hr,hvacant,hlive⟩⟩ :=
          vmChangeVaReservationState_reserve hshape₀ hreserve
        · exact ⟨hshape₁,.same hlive₀,fun k r hk hv => absurd ((hlive₀ k r).mp hk) (hv r)⟩
        · refine ⟨hshape₁,.reserved k r (fun r' hr' => hvacant r' ((hlive₀ k r').mpr hr')) ?_,?_⟩
          · intro i r'
            rw [hlive i r',hlive₀ i r']
          · intro i r' hi hv
            rcases (hlive i r').mp hi with ⟨rfl,rfl⟩ | ⟨_,hi⟩
            · refine ⟨hflag,base,size,by rw [hrange],hr,?_⟩
              exact fun j rj hj => hbounds j rj ((hlive₀ j rj).mpr hj)
            · exact absurd ((hlive₀ i r').mp hi) (hv r')
      · obtain ⟨_,rfl⟩ := Prod.mk.inj (Option.some.inj hreserve)
        exact ⟨hshape₀,.same hlive₀,fun k r hk hv => absurd ((hlive₀ k r).mp hk) (hv r)⟩
    obtain ⟨hshape₁,hchange₁,hfresh⟩ := hfirst
    dsimp only at h
    split at h
    · obtain ⟨_,_,rfl⟩ := Option.some.inj h
      exact ⟨hshape₁,_,hchange₁,hfresh,.same fun _ _ => Iff.rfl,fun k r hr => ⟨r,hr⟩⟩
    · obtain ⟨⟨status₂,space₂⟩,hcommit,h⟩ := Option.bind_eq_some_iff.mp h
      have hspace : space' = space₂ := by
        dsimp only at h
        split at h <;> · obtain ⟨_,_,rfl⟩ := Option.some.inj h; rfl
      subst space'
      unfold changeIfFlagged at hcommit
      split at hcommit
      · obtain ⟨hshape₂,rfl | ⟨k,r,r',hk,hr,hlive⟩⟩ :=
          vmChangeVaReservationState_commit hshape₁ hcommit
        · exact ⟨hshape₂,_,hchange₁,hfresh,.same fun _ _ => Iff.rfl,fun k r hr => ⟨r,hr⟩⟩
        · refine ⟨hshape₂,_,hchange₁,hfresh,.rewritten k r r' hk hr hlive,?_⟩
          intro i ri hi
          rcases (hlive i ri).mp hi with ⟨rfl,_⟩ | ⟨_,hi⟩
          · exact ⟨r,hk⟩
          · exact ⟨ri,hi⟩
      · obtain ⟨_,rfl⟩ := Prod.mk.inj (Option.some.inj hcommit)
        exact ⟨hshape₁,_,hchange₁,hfresh,.same fun _ _ => Iff.rfl,fun k r hr => ⟨r,hr⟩⟩

theorem vmReservationSpaceFreeRegion_spec (hshape : ListShape reservationSize space)
    {address : Nat} {freeType : VmmFreeType} {unmapped : Nat × Nat}
    {copy : Option VmmReservation}
    (h : vmReservationSpaceFreeRegion reservationSize space address freeType =
      some (unmapped,copy,space')) :
    ListShape reservationSize space' ∧ LiveChange space space' ∧
      ∀ k r, space'.Live k r → ∃ r', space.Live k r' := by
  simp only [vmReservationSpaceFreeRegion,Option.bind_eq_bind,Option.bind_eq_some_iff] at h
  obtain ⟨_,_,found,hfound,k,hk,r,hr,h⟩ := h
  obtain ⟨r₁,hlive,_⟩ := (vmFindReservation_spec hshape hfound).1 k hk
  have heq : r₁ = r := Option.some.inj (hlive.1.symm.trans hr)
  subst r₁
  have hlast : r.state ≠ .last := by rw [hlive.2]; simp
  cases freeType with
  | release =>
    simp only [Option.bind_eq_some_iff] at h
    obtain ⟨_,_,h⟩ := h
    obtain ⟨_,_,rfl⟩ := Option.some.inj h
    have hset : ∀ i r', VmmReservationSpace.Live
        { space with entries := space.entries.set k vmmReservationZero } i r' ↔
          i ≠ k ∧ space.Live i r' := by
      intro i r'
      rw [live_set hr rfl i r']
      simp [vmmReservationZero]
    exact ⟨hshape.set hr hlast (by simp [vmmReservationZero]) rfl rfl rfl,.released k hset,
      fun i r' hi => ⟨r',((hset i r').mp hi).2⟩⟩
  | decommit size =>
    simp only [Option.bind_eq_some_iff] at h
    obtain ⟨_,_,r',hdecommit,h⟩ := h
    obtain ⟨_,_,rfl⟩ := Option.some.inj h
    simp only [vmDecommitReservation,Option.bind_eq_bind,Option.bind_eq_some_iff] at hdecommit
    obtain ⟨interval,_,hr'⟩ := hdecommit
    have hr' := Option.some.inj hr'
    have hused : r'.state = .used := by rw [← hr']; exact hlive.2
    have hset : ∀ i r'', VmmReservationSpace.Live
        { space with entries := space.entries.set k r' } i r'' ↔
          i = k ∧ r'' = r' ∨ i ≠ k ∧ space.Live i r'' := by
      intro i r''
      rw [live_set hr rfl i r'']
      simp [hused]
    refine ⟨hshape.set hr hlast (by rw [hused]; simp) rfl rfl rfl,
      .rewritten k r r' hlive (by rw [← hr']; rfl) hset,?_⟩
    intro i r'' hi
    rcases (hset i r'').mp hi with ⟨rfl,_⟩ | ⟨_,hi⟩
    · exact ⟨r,hlive⟩
    · exact ⟨r'',hi⟩

end Calls

inductive ReservationCall
  | alloc (request : AllocRequest)
  | free (address : Nat) (freeType : VmmFreeType)

section Runs

variable (reservationSize : Nat)

/-- A reservation space from its initialization on, one call a step. A call that fails an
assertion has no successor. -/
def reservationSystem : TransitionSystem VmmReservationSpace ReservationCall where
  init space := ∃ metadataBaseAddress reservationBaseAddress metadataSize created,
    vmReservationSpaceInit metadataBaseAddress reservationBaseAddress metadataSize =
      some created ∧ space = vmReservationSpaceFinishInit created
  step space
    | .alloc request => (vmReservationSpaceAllocRegion reservationSize space request).map (·.2.2)
    | .free address freeType =>
      (vmReservationSpaceFreeRegion reservationSize space address freeType).map (·.2.2)

variable {reservationSize}

/-- The aligned range of a request that reserves lies inside every live range it meets. -/
def AvoidsPartialOverlap (space : VmmReservationSpace) : ReservationCall → Prop
  | .alloc request => request.allocType.reserve = true →
    ∀ range ∈ (allocRange space request.baseAddress request.size).1,
      ∀ r ∈ space.entries, r.state = .used →
        checkBounds range.1 range.2 r.startVa r.size = true ∨
          range.1 + range.2 ≤ r.startVa ∨ r.startVa + r.size ≤ range.1
  | .free _ _ => True

instance (space : VmmReservationSpace) :
    ∀ call, Decidable (AvoidsPartialOverlap space call)
  | .alloc request => inferInstanceAs (Decidable (_ → ∀ range ∈
      (allocRange space request.baseAddress request.size).1, ∀ r ∈ space.entries, _))
  | .free _ _ => .isTrue trivial

/-- What every run that avoids partial overlaps keeps. -/
structure ReservationInv (reservationSize : Nat) (space : VmmReservationSpace) : Prop where
  shape : ListShape reservationSize space
  disjoint : space.RangesDisjoint

theorem not_live_finishInit (created : VmmReservationSpace) (i : Nat) (r : VmmReservation) :
    ¬ (vmReservationSpaceFinishInit created).Live i r := by
  rintro ⟨hentry,hused⟩
  have hmem := List.mem_of_getElem? hentry
  rw [vmReservationSpaceFinishInit,List.mem_singleton] at hmem
  subst r
  cases hused

private theorem reservation_inv {space : VmmReservationSpace}
    (h : (reservationSystem reservationSize).ReachableUnder AvoidsPartialOverlap space) :
    ReservationInv reservationSize space := by
  refine TransitionSystem.ReachableUnder.invariant ?_ ?_ h
  · rintro space ⟨base,start,size,created,hinit,rfl⟩
    refine ⟨⟨[],_,rfl,rfl,trivial⟩,?_⟩
    intro i j r r' hr
    exact absurd hr (not_live_finishInit created i r)
  · intro space call space' _ ⟨hshape,hdisjoint⟩ hguard hstep
    cases call with
    | alloc request =>
      obtain ⟨⟨status,mapped,final⟩,hcall,rfl⟩ := Option.map_eq_some_iff.mp hstep
      obtain ⟨hshape',space₁,hchange₁,hfresh,hchange₂,hold⟩ :=
        vmReservationSpaceAllocRegion_spec hshape hcall
      refine ⟨hshape',hchange₂.disjoint (hchange₁.disjoint hdisjoint ?_) ?_⟩
      · intro k r hr hvacant i r' hik hr'
        obtain ⟨hflag,base,size,hrange,heq,hbounds⟩ := hfresh k r hr hvacant
        have hmeet := hguard hflag (base,size) hrange r' (List.mem_of_getElem? hr'.1) hr'.2
        rw [hbounds i r' hr'] at hmeet
        rw [heq,VmmReservation.range,Set.disjoint_left]
        intro va hva hva'
        rw [Set.mem_Ico] at hva hva'
        rcases hmeet with hmeet | hmeet | hmeet
        · cases hmeet
        · omega
        · omega
      · intro k r hr hvacant
        obtain ⟨r',hr'⟩ := hold k r hr
        exact absurd hr' (hvacant r')
    | free address freeType =>
      obtain ⟨⟨unmapped,copy,final⟩,hcall,rfl⟩ := Option.map_eq_some_iff.mp hstep
      obtain ⟨hshape',hchange,hold⟩ := vmReservationSpaceFreeRegion_spec hshape hcall
      refine ⟨hshape',hchange.disjoint hdisjoint ?_⟩
      intro k r hr hvacant
      obtain ⟨r',hr'⟩ := hold k r hr
      exact absurd hr' (hvacant r')

/-- As long as no request overlaps a live range it is not contained in, the live ranges are
disjoint and every address is described by at most one of them. -/
theorem live_reservations_disjoint {space : VmmReservationSpace}
    (h : (reservationSystem reservationSize).ReachableUnder AvoidsPartialOverlap space) :
    space.RangesDisjoint ∧
      ∀ va i j r r', space.Live i r → space.Live j r' → va ∈ r.range → va ∈ r'.range → i = j := by
  have hdisjoint := (reservation_inv h).disjoint
  refine ⟨hdisjoint,?_⟩
  intro va i j r r' hr hr' hva hva'
  by_contra hij
  exact Set.disjoint_left.mp (hdisjoint i j r r' hr hr' hij) hva hva'

end Runs

/-- A space whose addresses start at 16 MB. -/
def exampleSpace : VmmReservationSpace where
  freeVirtualAddressPointer := 0x1000000
  startOfVirtualAddressSpace := 0x1000000
  bitmapAddressStart := 0x20000
  reservedAreaSize := 0x50000
  freeBitmapAddress := 0x20000
  reservationList := 0x10000
  entries := [{ vmmReservationZero with state := .last }]

def reserveCall (baseAddress size : Nat) : ReservationCall :=
  .alloc ⟨baseAddress,size,⟨true,false⟩,pageRightsReadWrite,false,none⟩

/-- The range and state of every entry. -/
def VmmReservationSpace.listing (space : VmmReservationSpace) :
    List (Nat × Nat × VmmReservationState) :=
  space.entries.map fun r => (r.startVa,r.size,r.state)

private theorem exampleSpace_init : (reservationSystem 56).init exampleSpace :=
  ⟨0x10000,0x1000000,0x50000,_,rfl,rfl⟩

/-- A generated and an explicit range, and a refused one inside the first. -/
theorem live_reservations_disjoint_two : ∃ space : VmmReservationSpace,
    (reservationSystem 56).ReachableUnder AvoidsPartialOverlap space ∧
    space.listing = [(0x1000000,0x3000,.used),(0x2000000,0x1000,.used),(0,0,.last)] ∧
    space.RangesDisjoint := by
  obtain ⟨space,hreach,hlisting⟩ := TransitionSystem.exists_reachable (reservationSystem 56)
    AvoidsPartialOverlap exampleSpace exampleSpace_init
    [reserveCall 0 0x3000,reserveCall 0x2000000 0x1000,reserveCall 0x1001000 0x1000]
    (fun space => decide (space.listing =
      [(0x1000000,0x3000,.used),(0x2000000,0x1000,.used),(0,0,.last)]))
    (by decide +kernel) (by decide +kernel)
  exact ⟨space,hreach,of_decide_eq_true hlisting,(live_reservations_disjoint hreach).1⟩

/-- An explicit base one page below a live range is accepted, and the ranges overlap. -/
theorem overlapping_reservations_reachable : ∃ space,
    (reservationSystem 56).Reachable space ∧ ¬ space.RangesDisjoint := by
  obtain ⟨space,hreach,hlisting⟩ := TransitionSystem.exists_reachable (reservationSystem 56)
    (fun _ _ => True) exampleSpace exampleSpace_init
    [reserveCall 0x2001000 0x1000,reserveCall 0x2000000 0x2000]
    (fun space => decide (space.listing =
      [(0x2001000,0x1000,.used),(0x2000000,0x2000,.used),(0,0,.last)]))
    (TransitionSystem.runSatisfies_of_forall (fun _ _ => trivial) _ _) (by decide +kernel)
  refine ⟨space,hreach,fun hdisjoint => ?_⟩
  obtain ⟨r,_,hentries,hr,hrest⟩ := List.map_eq_cons_iff.mp (of_decide_eq_true hlisting)
  obtain ⟨r',_,rfl,hr',_⟩ := List.map_eq_cons_iff.mp hrest
  obtain ⟨hstart,hsize,hused⟩ := by simpa only [Prod.mk.injEq] using hr
  obtain ⟨hstart',hsize',hused'⟩ := by simpa only [Prod.mk.injEq] using hr'
  have hlive : space.Live 0 r := ⟨by rw [hentries]; rfl,hused⟩
  have hlive' : space.Live 1 r' := ⟨by rw [hentries]; rfl,hused'⟩
  have hapart := Set.disjoint_left.mp (hdisjoint 0 1 r r' hlive hlive' (by decide))
  refine hapart (a := 0x2001000) ?_ ?_
  · rw [VmmReservation.range,hstart,hsize,Set.mem_Ico]
    omega
  · rw [VmmReservation.range,hstart',hsize',Set.mem_Ico]
    omega

end Hal9000
