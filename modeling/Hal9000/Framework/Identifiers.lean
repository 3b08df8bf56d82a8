import Mathlib.Logic.Function.Basic

/-!
# Identifiers

Identifiers that are taken and given back. Those that are taken are reserved for good or held by one
owner each, which is what makes them identify the owner.
-/

namespace Hal9000

variable {Id Owner : Type*} {taken taken' reserved : Id → Prop} {holder holder' : Owner → Option Id}

structure HeldOnce (taken reserved : Id → Prop) (holder : Owner → Option Id) : Prop where
  taken_iff : ∀ i, taken i ↔ reserved i ∨ ∃ o, holder o = some i
  unique : ∀ o o' i, holder o = some i → holder o' = some i → o = o'
  unreserved : ∀ o i, holder o = some i → ¬reserved i

namespace HeldOnce

theorem init (hholder : ∀ o, holder o = none) : HeldOnce reserved reserved holder where
  taken_iff i := by simp [hholder]
  unique o o' i ho := by simp [hholder] at ho
  unreserved o i ho := by simp [hholder] at ho

theorem congr (h : HeldOnce taken reserved holder) (htaken : ∀ i, taken' i ↔ taken i)
    (hholder : ∀ o, holder' o = holder o) : HeldOnce taken' reserved holder' := by
  have hfun : holder' = holder := funext hholder
  subst hfun
  exact ⟨fun i => (htaken i).trans (h.taken_iff i),h.unique,h.unreserved⟩

variable {o : Owner} {i : Id}

theorem take (h : HeldOnce taken reserved holder) (hfree : ¬taken i) (ho : holder o = none)
    (htaken : ∀ j, taken' j ↔ j = i ∨ taken j) (hself : holder' o = some i)
    (hother : ∀ o', o' ≠ o → holder' o' = holder o') : HeldOnce taken' reserved holder' := by
  have hheld : ∀ o', holder o' ≠ some i := fun o' ho' =>
    hfree ((h.taken_iff i).mpr (Or.inr ⟨o',ho'⟩))
  refine ⟨?_,?_,?_⟩
  · intro j
    rw [htaken,h.taken_iff]
    constructor
    · intro hj
      rcases hj with rfl | hj | ⟨o',ho'⟩
      · exact Or.inr ⟨o,hself⟩
      · exact Or.inl hj
      · refine Or.inr ⟨o',?_⟩
        rw [hother o' (by rintro rfl; simp [ho] at ho'),ho']
    · intro hj
      rcases hj with hj | ⟨o',ho'⟩
      · exact Or.inr (Or.inl hj)
      · by_cases hne : o' = o
        · rw [hne,hself] at ho'
          exact Or.inl (Option.some.inj ho').symm
        · rw [hother o' hne] at ho'
          exact Or.inr (Or.inr ⟨o',ho'⟩)
  · intro o₁ o₂ j h₁ h₂
    by_cases ho₁ : o₁ = o
    · by_cases ho₂ : o₂ = o
      · rw [ho₁,ho₂]
      · rw [ho₁,hself] at h₁
        rw [hother o₂ ho₂,← h₁] at h₂
        exact absurd h₂ (hheld o₂)
    · rw [hother o₁ ho₁] at h₁
      by_cases ho₂ : o₂ = o
      · rw [ho₂,hself] at h₂
        rw [← h₂] at h₁
        exact absurd h₁ (hheld o₁)
      · rw [hother o₂ ho₂] at h₂
        exact h.unique o₁ o₂ j h₁ h₂
  · intro o' j ho'
    by_cases hne : o' = o
    · rw [hne,hself] at ho'
      intro hj
      rw [← Option.some.inj ho'] at hj
      exact hfree ((h.taken_iff i).mpr (Or.inl hj))
    · rw [hother o' hne] at ho'
      exact h.unreserved o' j ho'

theorem giveBack (h : HeldOnce taken reserved holder) (ho : holder o = some i)
    (htaken : ∀ j, taken' j ↔ j ≠ i ∧ taken j) (hself : holder' o = none)
    (hother : ∀ o', o' ≠ o → holder' o' = holder o') : HeldOnce taken' reserved holder' := by
  have hkept : ∀ o' j, holder' o' = some j → o' ≠ o ∧ holder o' = some j := by
    intro o' j ho'
    have hne : o' ≠ o := by
      rintro rfl
      simp [hself] at ho'
    rw [hother o' hne] at ho'
    exact ⟨hne,ho'⟩
  refine ⟨?_,?_,fun o' j ho' => h.unreserved o' j (hkept o' j ho').2⟩
  · intro j
    rw [htaken,h.taken_iff]
    constructor
    · intro hj
      obtain ⟨hne,hj | ⟨o',ho'⟩⟩ := hj
      · exact Or.inl hj
      · refine Or.inr ⟨o',?_⟩
        rw [hother o' _,ho']
        rintro rfl
        exact hne (Option.some.inj (ho'.symm.trans ho))
    · intro hj
      rcases hj with hj | ⟨o',ho'⟩
      · refine ⟨?_,Or.inl hj⟩
        rintro rfl
        exact h.unreserved o j ho hj
      · obtain ⟨hne,ho'⟩ := hkept o' j ho'
        refine ⟨?_,Or.inr ⟨o',ho'⟩⟩
        rintro rfl
        exact hne (h.unique o' o j ho' ho)
  · intro o₁ o₂ j h₁ h₂
    exact h.unique o₁ o₂ j (hkept o₁ j h₁).2 (hkept o₂ j h₂).2

end HeldOnce

end Hal9000
