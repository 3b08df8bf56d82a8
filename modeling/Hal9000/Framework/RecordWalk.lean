import Mathlib.Data.List.Basic

/-!
# Walks over records of varying size

A list is cut into records by a size read from the front of what is left. The walk visits the
record at the front and goes on behind it; a size of zero keeps it where it is for ever, and a
size past the end ends it.
-/

namespace Hal9000

namespace RecordWalk

variable {α Acc : Type*}

/-- What is left of the list at each record that the walk comes to. -/
def records (size : List α → Nat) : List α → List (List α)
  | [] => []
  | x :: rest =>
    (x :: rest) ::
      if 0 < size (x :: rest) then records size ((x :: rest).drop (size (x :: rest))) else []
termination_by data => data.length
decreasing_by
  rw [List.length_drop,List.length_cons]
  omega

/-- The walk, for at most as many records as the fuel says. -/
def walk (size : List α → Nat) (visit : Acc → List α → Option Acc) :
    Nat → List α → Acc → Option Acc
  | _,[],acc => some acc
  | 0,_ :: _,_ => none
  | fuel + 1,x :: rest,acc =>
    (visit acc (x :: rest)).bind fun acc =>
      walk size visit fuel ((x :: rest).drop (size (x :: rest))) acc

variable {size : List α → Nat} {visit : Acc → List α → Option Acc}

@[simp] theorem records_nil : records size [] = [] := by rw [records]

theorem mem_records {data : List α} (h : data ≠ []) : data ∈ records size data := by
  cases data with
  | nil => exact absurd rfl h
  | cons x rest =>
    rw [records]
    exact List.mem_cons_self

theorem records_of_pos {data : List α} (h : data ≠ []) (hpos : 0 < size data) :
    records size data = data :: records size (data.drop (size data)) := by
  cases data with
  | nil => exact absurd rfl h
  | cons x rest => rw [records,if_pos hpos]

theorem walk_zero_of_ne {data : List α} (h : data ≠ []) (acc : Acc) :
    walk size visit 0 data acc = none := by
  cases data with
  | nil => exact absurd rfl h
  | cons => rfl

theorem walk_succ_of_ne {data : List α} (h : data ≠ []) (fuel : Nat) (acc : Acc) :
    walk size visit (fuel + 1) data acc =
      (visit acc data).bind fun acc => walk size visit fuel (data.drop (size data)) acc := by
  cases data with
  | nil => exact absurd rfl h
  | cons => rfl

theorem walk_nil (fuel : Nat) (acc : Acc) : walk size visit fuel [] acc = some acc := by
  cases fuel <;> rfl

theorem mem_records_of_mem_drop {data record : List α}
    (h : record ∈ records size (data.drop (size data))) : record ∈ records size data := by
  cases data with
  | nil => simpa only [List.drop_nil] using h
  | cons x rest =>
    by_cases hpos : 0 < size (x :: rest)
    · rw [records_of_pos (List.cons_ne_nil _ _) hpos]
      exact List.mem_cons_of_mem _ h
    · rwa [Nat.eq_zero_of_not_pos hpos,List.drop_zero] at h

theorem forall_mem_records_const {width : Nat} (hwidth : 0 < width) (data : List α) :
    (∀ record ∈ records (fun _ => width) data, width ≤ record.length) ↔ width ∣ data.length := by
  induction data using records.induct (fun _ => width) with
  | case1 =>
    rw [records_nil]
    exact ⟨fun _ => Nat.dvd_zero width,fun _ => List.forall_mem_nil _⟩
  | case2 x rest ih =>
    rw [records_of_pos (List.cons_ne_nil x rest) hwidth,List.forall_mem_cons,ih hwidth,
      List.length_drop]
    constructor
    · rintro ⟨hle,hdvd⟩
      exact (Nat.dvd_sub_iff_left hle (Nat.dvd_refl width)).mp hdvd
    · intro hdvd
      have hle := Nat.le_of_dvd (List.length_pos_of_mem List.mem_cons_self) hdvd
      exact ⟨hle,Nat.dvd_sub hdvd (Nat.dvd_refl width)⟩

theorem length_le_of_mem {data record : List α} (h : record ∈ records size data) :
    record ≠ [] ∧ record.length ≤ data.length := by
  induction data using records.induct size with
  | case1 =>
    rw [records_nil] at h
    cases h
  | case2 x rest ih =>
    rw [records] at h
    rcases List.mem_cons.mp h with rfl | h
    · exact ⟨List.cons_ne_nil _ _,Nat.le_refl _⟩
    · split at h
      case isTrue hpos =>
        obtain ⟨hne,hle⟩ := ih hpos h
        rw [List.length_drop] at hle
        exact ⟨hne,by omega⟩
      case isFalse => cases h

theorem of_walk {fuel : Nat} {data : List α} {acc result : Acc}
    (h : walk size visit fuel data acc = some result) :
    (∀ record ∈ records size data, 0 < size record) ∧
      (records size data).foldlM visit acc = some result := by
  induction fuel generalizing data acc with
  | zero =>
    cases data with
    | nil =>
      rw [records_nil]
      exact ⟨List.forall_mem_nil _,h⟩
    | cons x rest => cases h
  | succ fuel ih =>
    cases data with
    | nil =>
      rw [records_nil]
      exact ⟨List.forall_mem_nil _,h⟩
    | cons x rest =>
      obtain ⟨acc',hvisit,hwalk⟩ := Option.bind_eq_some_iff.mp h
      obtain ⟨hsizes,hfold⟩ := ih hwalk
      have hne : x :: rest ≠ [] := List.cons_ne_nil x rest
      have hpos : 0 < size (x :: rest) := by
        by_contra hzero
        have hsame : (x :: rest).drop (size (x :: rest)) = x :: rest := by
          rw [Nat.eq_zero_of_not_pos hzero,List.drop_zero]
        rw [hsame] at hsizes
        exact hzero (hsizes _ (mem_records hne))
      rw [records_of_pos hne hpos]
      refine ⟨List.forall_mem_cons.mpr ⟨hpos,hsizes⟩,?_⟩
      rw [List.foldlM_cons,hvisit]
      exact hfold

theorem walk_of_foldlM {data : List α} {acc result : Acc}
    (hsizes : ∀ record ∈ records size data, 0 < size record)
    (hfold : (records size data).foldlM visit acc = some result) :
    walk size visit data.length data acc = some result := by
  generalize hfuel : data.length = fuel
  have hle : data.length ≤ fuel := Nat.le_of_eq hfuel
  clear hfuel
  induction fuel generalizing data acc with
  | zero =>
    rw [List.length_eq_zero_iff.mp (Nat.le_zero.mp hle)] at hfold ⊢
    rw [records_nil] at hfold
    exact hfold
  | succ fuel ih =>
    cases data with
    | nil =>
      rw [records_nil] at hfold
      exact hfold
    | cons x rest =>
      have hne : x :: rest ≠ [] := List.cons_ne_nil x rest
      have hpos := hsizes _ (mem_records hne)
      rw [records_of_pos hne hpos] at hsizes hfold
      rw [List.foldlM_cons] at hfold
      obtain ⟨acc',hvisit,hfold⟩ := Option.bind_eq_some_iff.mp hfold
      rw [walk,hvisit]
      refine ih (fun record hrecord => hsizes record (List.mem_cons_of_mem _ hrecord)) hfold ?_
      rw [List.length_cons] at hle
      rw [List.length_drop,List.length_cons]
      omega

theorem foldlM_iff {reads : List α → Prop} {update : Acc → List α → Acc}
    (hvisit : ∀ acc record result, visit acc record = some result ↔
      reads record ∧ result = update acc record)
    (records : List (List α)) (acc result : Acc) :
    records.foldlM visit acc = some result ↔
      (∀ record ∈ records, reads record) ∧ result = records.foldl update acc := by
  induction records generalizing acc with
  | nil =>
    rw [List.foldlM_nil,List.foldl_nil]
    constructor
    · intro h
      exact ⟨List.forall_mem_nil _,(Option.some.inj h).symm⟩
    · rintro ⟨-,rfl⟩
      rfl
  | cons record records ih =>
    rw [List.foldlM_cons,List.foldl_cons,List.forall_mem_cons]
    constructor
    · intro h
      obtain ⟨acc',hrecord,hrest⟩ := Option.bind_eq_some_iff.mp h
      obtain ⟨hreads,rfl⟩ := (hvisit acc record acc').mp hrecord
      obtain ⟨hall,rfl⟩ := (ih _).mp hrest
      exact ⟨⟨hreads,hall⟩,rfl⟩
    · rintro ⟨⟨hreads,hall⟩,rfl⟩
      refine Option.bind_eq_some_iff.mpr ⟨_,(hvisit acc record _).mpr ⟨hreads,rfl⟩,?_⟩
      exact (ih _).mpr ⟨hall,rfl⟩

section Kept

variable {Item : Type*} {found kept : List α → List Item}

private theorem length_flatMap_le (hkept : ∀ record, kept record = found record ∨ kept record = [])
    (records : List (List α)) :
    (records.flatMap kept).length ≤ (records.flatMap found).length := by
  induction records with
  | nil => exact Nat.le_refl _
  | cons record records ih =>
    rw [List.flatMap_cons,List.flatMap_cons,List.length_append,List.length_append]
    rcases hkept record with h | h
    · rw [h]
      omega
    · rw [h,List.length_nil]
      omega

theorem flatMap_eq_iff (hkept : ∀ record, kept record = found record ∨ kept record = [])
    (records : List (List α)) :
    records.flatMap found = records.flatMap kept ↔
      ∀ record ∈ records, found record = kept record := by
  induction records with
  | nil => exact ⟨fun _ => List.forall_mem_nil _,fun _ => rfl⟩
  | cons record records ih =>
    rw [List.flatMap_cons,List.flatMap_cons,List.forall_mem_cons,← ih]
    constructor
    · intro h
      rcases hkept record with heq | hnil
      · rw [heq] at h
        exact ⟨heq.symm,List.append_cancel_left h⟩
      · have hlength := congrArg List.length h
        have hle := length_flatMap_le hkept records
        rw [List.length_append,hnil,List.length_append,List.length_nil] at hlength
        have hfound : found record = [] := List.length_eq_zero_iff.mp (by omega)
        rw [hfound,hnil] at h
        exact ⟨hfound.trans hnil.symm,h⟩
    · rintro ⟨hrecord,hrest⟩
      rw [hrecord,hrest]

end Kept

end RecordWalk

end Hal9000
