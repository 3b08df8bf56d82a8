import Mathlib.Data.Finset.Card

/-!
# Counters

A number kept beside the members that it counts, which change one at a time.
-/

namespace Hal9000

variable {Member : Type*} [DecidableEq Member] {p p' : Member → Prop} {n : Nat} {m : Member}

/-- The number of the members that satisfy a predicate. -/
def Counts (n : Nat) (p : Member → Prop) : Prop :=
  ∃ members : Finset Member, (∀ m, m ∈ members ↔ p m) ∧ members.card = n

namespace Counts

omit [DecidableEq Member] in
theorem congr (h : Counts n p) (hsame : ∀ m, p' m ↔ p m) : Counts n p' := by
  obtain ⟨members,hmem,hcard⟩ := h
  exact ⟨members,fun m => (hmem m).trans (hsame m).symm,hcard⟩

omit [DecidableEq Member] in
theorem none (hnone : ∀ m, ¬p m) : Counts 0 p := ⟨∅,by simp [hnone],rfl⟩

omit [DecidableEq Member] in
theorem pos (h : Counts n p) (hm : p m) : 0 < n := by
  obtain ⟨members,hmem,hcard⟩ := h
  rw [← hcard]
  exact Finset.card_pos.mpr ⟨m,(hmem m).mpr hm⟩

omit [DecidableEq Member] in
theorem eq_zero_iff (h : Counts n p) : n = 0 ↔ ∀ m, ¬p m := by
  obtain ⟨members,hmem,hcard⟩ := h
  rw [← hcard,Finset.card_eq_zero,Finset.eq_empty_iff_forall_notMem]
  simp only [hmem]

theorem add (h : Counts n p) (hm : ¬p m) (hself : p' m) (hother : ∀ m', m' ≠ m → (p' m' ↔ p m')) :
    Counts (n + 1) p' := by
  obtain ⟨members,hmem,hcard⟩ := h
  refine ⟨insert m members,?_,?_⟩
  · intro m'
    by_cases heq : m' = m
    · simp [heq,hself]
    · simp [heq,hmem,hother m' heq]
  · rw [Finset.card_insert_of_notMem (by simpa [hmem] using hm),hcard]

theorem remove (h : Counts n p) (hm : p m) (hself : ¬p' m)
    (hother : ∀ m', m' ≠ m → (p' m' ↔ p m')) : Counts (n - 1) p' := by
  obtain ⟨members,hmem,hcard⟩ := h
  refine ⟨members.erase m,?_,?_⟩
  · intro m'
    by_cases heq : m' = m
    · simp [heq,hself]
    · simp [heq,hmem,hother m' heq]
  · rw [Finset.card_erase_of_mem ((hmem m).mpr hm),hcard]

theorem le_length (h : Counts n p) {list : List Member} (hlist : ∀ m, p m → m ∈ list) :
    n ≤ list.length := by
  obtain ⟨members,hmem,hcard⟩ := h
  rw [← hcard]
  calc members.card ≤ list.toFinset.card := by
        apply Finset.card_le_card
        intro m hm
        exact List.mem_toFinset.mpr (hlist m ((hmem m).mp hm))
    _ ≤ list.length := List.toFinset_card_le list

theorem length_le (h : Counts n p) {list : List Member} (hnodup : list.Nodup)
    (hlist : ∀ m ∈ list, p m) : list.length ≤ n := by
  obtain ⟨members,hmem,hcard⟩ := h
  rw [← hcard,← List.toFinset_card_of_nodup hnodup]
  apply Finset.card_le_card
  intro m hm
  exact (hmem m).mpr (hlist m (List.mem_toFinset.mp hm))

end Counts

end Hal9000
