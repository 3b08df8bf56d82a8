import Mathlib.Logic.Function.Basic

/-!
# Ranges from a pointer that only grows

Ranges of numbers are handed out from a pointer on and given back in any order. What has been handed
out is not handed out again.
-/

namespace Hal9000

variable {Owner : Type*} {range : Owner → Option (Nat × Nat)} {next next' count : Nat} {o : Owner}

/-- The ranges that are held end before the pointer and do not meet. -/
structure HandedOut (range : Owner → Option (Nat × Nat)) (next : Nat) : Prop where
  below : ∀ o first count, range o = some (first,count) → first + count ≤ next
  disjoint : ∀ o o' first count first' count', range o = some (first,count) →
    range o' = some (first',count') → o ≠ o' → first + count ≤ first' ∨ first' + count' ≤ first

namespace HandedOut

theorem init (hrange : ∀ o, range o = none) : HandedOut range next where
  below o first count ho := by simp [hrange] at ho
  disjoint o o' first count first' count' ho := by simp [hrange] at ho

theorem grow (h : HandedOut range next) (hle : next ≤ next') : HandedOut range next' where
  below o first count ho := Nat.le_trans (h.below o first count ho) hle
  disjoint := h.disjoint

theorem owner_eq (h : HandedOut range next) {o' : Owner} {first first' count' k : Nat}
    (ho : range o = some (first,count)) (hk : first ≤ k ∧ k < first + count)
    (ho' : range o' = some (first',count')) (hk' : first' ≤ k ∧ k < first' + count') : o = o' := by
  by_contra hne
  have hapart := h.disjoint o o' first count first' count' ho ho' hne
  omega

variable [DecidableEq Owner]

theorem take (h : HandedOut range next) (o : Owner) (count : Nat) :
    HandedOut (Function.update range o (some (next,count))) (next + count) := by
  constructor
  · intro o' first count' ho'
    by_cases heq : o' = o
    · rw [heq,Function.update_self] at ho'
      obtain ⟨rfl,rfl⟩ := Prod.mk.inj (Option.some.inj ho')
      exact Nat.le_refl _
    · rw [Function.update_of_ne heq] at ho'
      exact Nat.le_trans (h.below o' first count' ho') (Nat.le_add_right _ _)
  · intro o₁ o₂ first₁ count₁ first₂ count₂ h₁ h₂ hne
    by_cases heq₁ : o₁ = o
    · have heq₂ : o₂ ≠ o := fun heq => hne (heq₁.trans heq.symm)
      rw [heq₁,Function.update_self] at h₁
      rw [Function.update_of_ne heq₂] at h₂
      obtain ⟨rfl,rfl⟩ := Prod.mk.inj (Option.some.inj h₁)
      exact Or.inr (h.below o₂ first₂ count₂ h₂)
    · rw [Function.update_of_ne heq₁] at h₁
      by_cases heq₂ : o₂ = o
      · rw [heq₂,Function.update_self] at h₂
        obtain ⟨rfl,rfl⟩ := Prod.mk.inj (Option.some.inj h₂)
        exact Or.inl (h.below o₁ first₁ count₁ h₁)
      · rw [Function.update_of_ne heq₂] at h₂
        exact h.disjoint o₁ o₂ first₁ count₁ first₂ count₂ h₁ h₂ hne

theorem giveBack (h : HandedOut range next) (o : Owner) :
    HandedOut (Function.update range o none) next := by
  have hkept : ∀ o' held, Function.update range o none o' = some held → range o' = some held := by
    intro o' held ho'
    by_cases heq : o' = o
    · simp [heq] at ho'
    · rwa [Function.update_of_ne heq] at ho'
  constructor
  · exact fun o' first count ho' => h.below o' first count (hkept o' _ ho')
  · exact fun o₁ o₂ first₁ count₁ first₂ count₂ h₁ h₂ =>
      h.disjoint o₁ o₂ first₁ count₁ first₂ count₂ (hkept o₁ _ h₁) (hkept o₂ _ h₂)

end HandedOut

end Hal9000
