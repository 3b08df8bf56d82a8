import Hal9000.Framework.Counting

/-!
# Barriers

The members of a list count themselves in, one at a time, and whoever counts in last signals. The
one that waits for the signal takes it and passes.
-/

namespace Hal9000

inductive Arrival
  | absent
  | signalling
  | arrived
  deriving DecidableEq

structure Barrier (Member : Type*) where
  count : Nat
  arrival : Member → Arrival
  signaled : Bool
  passed : Bool

variable {Member : Type*} [DecidableEq Member]

inductive BarrierStep (members : List Member) (b : Barrier Member) : Barrier Member → Prop
  | arrive (m : Member) (hmem : m ∈ members) (habsent : b.arrival m = .absent) :
    BarrierStep members b { b with
      count := b.count + 1
      arrival := Function.update b.arrival m
        (if b.count + 1 = members.length then .signalling else .arrived) }
  | signal (m : Member) (hsignalling : b.arrival m = .signalling) :
    BarrierStep members b { b with
      signaled := true
      arrival := Function.update b.arrival m .arrived }
  | pass (hsignaled : b.signaled = true) :
    BarrierStep members b { b with signaled := false, passed := true }

/-- How far the barrier has got. -/
inductive BarrierStage (members : List Member) (b : Barrier Member) : Prop
  | filling (hcount : b.count < members.length) (hnobody : ∀ m, b.arrival m ≠ .signalling)
      (hclear : b.signaled = false) (hpassed : b.passed = false)
  | signalling (m : Member) (hcount : b.count = members.length)
      (hlast : ∀ m', b.arrival m' = .signalling ↔ m' = m) (hclear : b.signaled = false)
      (hpassed : b.passed = false)
  | signaled (hcount : b.count = members.length) (hnobody : ∀ m, b.arrival m ≠ .signalling)
      (hset : b.signaled = true) (hpassed : b.passed = false)
  | passed (hcount : b.count = members.length) (hnobody : ∀ m, b.arrival m ≠ .signalling)
      (hclear : b.signaled = false) (hpassed : b.passed = true)

structure BarrierInv (members : List Member) (b : Barrier Member) : Prop where
  counts : Counts b.count fun m => b.arrival m ≠ .absent
  within : ∀ m, b.arrival m ≠ .absent → m ∈ members
  stage : BarrierStage members b

namespace BarrierInv

variable {members : List Member} {b b' : Barrier Member} {m : Member}

omit [DecidableEq Member] in
theorem init (hne : members ≠ []) : BarrierInv members ⟨0,fun _ => .absent,false,false⟩ where
  counts := Counts.none (by simp)
  within m hm := absurd rfl hm
  stage := by
    apply BarrierStage.filling
    · exact List.length_pos_of_ne_nil hne
    · simp
    · rfl
    · rfl

theorem count_lt (h : BarrierInv members b) (hmem : m ∈ members) (habsent : b.arrival m = .absent) :
    b.count < members.length := by
  have hadd : Counts (b.count + 1) fun m' => b.arrival m' ≠ .absent ∨ m' = m := by
    apply h.counts.add (m := m)
    · simp [habsent]
    · simp
    · simp +contextual
  have hle : b.count + 1 ≤ members.length := by
    apply hadd.le_length
    intro m' hm'
    rcases hm' with hm' | rfl
    · exact h.within m' hm'
    · exact hmem
  omega

theorem arrive (h : BarrierInv members b) (hmem : m ∈ members) (habsent : b.arrival m = .absent) :
    BarrierInv members { b with
      count := b.count + 1
      arrival := Function.update b.arrival m
        (if b.count + 1 = members.length then .signalling else .arrived) } := by
  have hlt := h.count_lt hmem habsent
  have hself : (if b.count + 1 = members.length then Arrival.signalling else .arrived) ≠
      .absent := by
    split <;> simp
  constructor
  · apply h.counts.add (m := m)
    · simp [habsent]
    · simpa using hself
    · intro m' hne
      simp [Function.update_of_ne hne]
  · intro m' hm'
    by_cases heq : m' = m
    · rw [heq]
      exact hmem
    · apply h.within m'
      simpa [Function.update_of_ne heq] using hm'
  · cases h.stage with
    | filling _ hnobody hclear hpassed =>
      by_cases hlast : b.count + 1 = members.length
      · refine .signalling m hlast ?_ hclear hpassed
        intro m'
        by_cases heq : m' = m
        · simp [heq,hlast]
        · simp [heq,hnobody m']
      · refine .filling ?_ ?_ hclear hpassed
        · change b.count + 1 < members.length
          omega
        · intro m'
          by_cases heq : m' = m
          · simp [heq,hlast]
          · simp [Function.update_of_ne heq,hnobody m']
    | signalling _ hcount | signaled hcount | passed hcount =>
      rw [hcount] at hlt
      exact absurd hlt (Nat.lt_irrefl _)

theorem signal (h : BarrierInv members b) (hsignalling : b.arrival m = .signalling) :
    BarrierInv members { b with
      signaled := true
      arrival := Function.update b.arrival m .arrived } := by
  constructor
  · apply h.counts.congr
    intro m'
    by_cases heq : m' = m
    · simp [heq,hsignalling]
    · simp [Function.update_of_ne heq]
  · intro m' hm'
    by_cases heq : m' = m
    · rw [heq]
      exact h.within m (by simp [hsignalling])
    · apply h.within m'
      simpa [Function.update_of_ne heq] using hm'
  · cases h.stage with
    | signalling m₀ hcount hlast _ hpassed =>
      refine .signaled hcount ?_ rfl hpassed
      intro m'
      by_cases heq : m' = m
      · simp [heq]
      · simp only [Function.update_of_ne heq]
        intro hm'
        rw [(hlast m').mp hm',(hlast m).mp hsignalling] at heq
        exact heq rfl
    | filling _ hnobody | signaled _ hnobody | passed _ hnobody =>
      exact absurd hsignalling (hnobody m)

omit [DecidableEq Member] in
theorem pass (h : BarrierInv members b) (hsignaled : b.signaled = true) :
    BarrierInv members { b with signaled := false, passed := true } := by
  refine ⟨h.counts,h.within,?_⟩
  cases h.stage with
  | signaled hcount hnobody => exact .passed hcount hnobody rfl rfl
  | filling _ _ hclear | signalling _ _ _ hclear | passed _ _ hclear =>
    rw [hclear] at hsignaled
    cases hsignaled

theorem step (h : BarrierInv members b) (hstep : BarrierStep members b b') :
    BarrierInv members b' := by
  cases hstep with
  | arrive m hmem habsent => exact h.arrive hmem habsent
  | signal m hsignalling => exact h.signal hsignalling
  | pass hsignaled => exact h.pass hsignaled

theorem all_arrived (h : BarrierInv members b) (hsignal : b.signaled = true ∨ b.passed = true) :
    ∀ m ∈ members, b.arrival m = .arrived := by
  intro m hmem
  have hnotAbsent : b.count = members.length → b.arrival m ≠ .absent := by
    intro hcount habsent
    have hlt := h.count_lt hmem habsent
    omega
  cases h.stage with
  | filling _ _ hclear hpassed | signalling _ _ _ hclear hpassed =>
    rw [hclear,hpassed] at hsignal
    simp at hsignal
  | signaled hcount hnobody | passed hcount hnobody =>
    cases harrival : b.arrival m with
    | absent => exact absurd harrival (hnotAbsent hcount)
    | signalling => exact absurd harrival (hnobody m)
    | arrived => rfl

theorem someone_missing (h : BarrierInv members b) (hnodup : members.Nodup)
    (hclear : b.signaled = false) (hpassed : b.passed = false) :
    ∃ m ∈ members, b.arrival m ≠ .arrived := by
  cases h.stage with
  | filling hcount =>
    by_contra hall
    push Not at hall
    have hle := h.counts.length_le hnodup (by simp +contextual [hall])
    omega
  | signalling m _ hlast =>
    have hsignalling := (hlast m).mpr rfl
    exact ⟨m,h.within m (by simp [hsignalling]),by simp [hsignalling]⟩
  | signaled _ _ hset =>
    rw [hclear] at hset
    cases hset
  | passed _ _ _ hset =>
    rw [hpassed] at hset
    cases hset

end BarrierInv

end Hal9000
