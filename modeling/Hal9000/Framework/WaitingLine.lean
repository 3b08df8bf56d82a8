import Hal9000.Framework.TransitionSystem

/-!
# Waiting lines

A system that serves the members of a line: who joins is put at the end, and who is served is the
first of the line if there is one. What is served in a run then depends on the line it starts with
and on nothing else, so that each member of a line knows how long it waits.
-/

namespace Hal9000

namespace TransitionSystem

variable {State Action Obs Member : Type*}

/-- What is observed of the steps of a run. -/
def observe (sys : TransitionSystem State Action) (obs : State → Action → List Obs) :
    State → List Action → List Obs
  | _, [] => []
  | s, a :: as => obs s a ++ ((sys.step s a).map fun s' => sys.observe obs s' as).getD []

/-- What one step does with the line: it serves nobody, or one, who is the first if anyone waits. -/
inductive ServeStep (line line' served : List Member) : Prop
  | join (joined : List Member) (hserved : served = []) (hline : line' = line ++ joined)
  | serveFirst (first : Member) (hserved : served = [first]) (hline : line = first :: line')
  | serveOther (other : Member) (hserved : served = [other]) (hline : line = [] ∧ line' = [])

def ServesLine (sys : TransitionSystem State Action) (line : State → List Member)
    (served : State → Action → List Member) : Prop :=
  ∀ s a s', sys.step s a = some s' → ServeStep (line s) (line s') (served s a)

variable {sys : TransitionSystem State Action} {line : State → List Member}
  {served : State → Action → List Member} {s s' : State}

theorem observe_cons {obs : State → Action → List Obs} {a : Action} {as : List Action}
    (hstep : sys.step s a = some s') : sys.observe obs s (a :: as) = obs s a ++
      sys.observe obs s' as := by
  simp [observe,hstep]

/-- The member at place `k` of the line is the one that is served as number `k`; until then it has
moved up by one place for each member served. -/
theorem ServesLine.run (h : sys.ServesLine line served) {as : List Action}
    (hrun : sys.run s as = some s') {k : Nat} {member : Member}
    (hmember : (line s)[k]? = some member) :
    (k < (sys.observe served s as).length → (sys.observe served s as)[k]? = some member) ∧
      ((sys.observe served s as).length ≤ k →
        (line s')[k - (sys.observe served s as).length]? = some member) := by
  induction as generalizing s k with
  | nil =>
    obtain rfl := Option.some.inj hrun
    simpa [observe] using hmember
  | cons a as ih =>
    obtain ⟨s₁,hstep,hrest⟩ := Option.bind_eq_some_iff.mp hrun
    rw [observe_cons hstep]
    cases h s a s₁ hstep with
    | join joined hserved hline =>
      have hmember' : (line s₁)[k]? = some member := by
        obtain ⟨hlt,_⟩ := List.getElem?_eq_some_iff.mp hmember
        rw [hline,List.getElem?_append_left hlt,hmember]
      rw [hserved,List.nil_append]
      exact ih hrest hmember'
    | serveFirst first hserved hline =>
      rw [hserved,List.singleton_append,List.length_cons]
      cases k with
      | zero =>
        rw [hline] at hmember
        simpa using hmember
      | succ k =>
        have hmember' : (line s₁)[k]? = some member := by
          rw [hline] at hmember
          simpa using hmember
        simpa using ih hrest hmember'
    | serveOther other _ hline =>
      rw [hline.1] at hmember
      cases hmember

theorem ServesLine.take_eq (h : sys.ServesLine line served) {as : List Action}
    (hrun : sys.run s as = some s') {n : Nat} (hline : n ≤ (line s).length)
    (hserved : n ≤ (sys.observe served s as).length) :
    (sys.observe served s as).take n = (line s).take n := by
  apply List.ext_getElem?
  intro i
  by_cases hi : i < n
  · have hmember : (line s)[i]? = some (line s)[i] := List.getElem?_eq_getElem (by omega)
    rw [List.getElem?_take_of_lt hi,List.getElem?_take_of_lt hi,hmember]
    exact (h.run hrun hmember).1 (by omega)
  · rw [List.getElem?_take_eq_none (by omega),List.getElem?_take_eq_none (by omega)]

theorem observe_count_le_one [DecidableEq Obs] {obs : State → Action → List Obs}
    {inv final : State → Prop} {o : Obs}
    (hstep : ∀ s a s', inv s → sys.step s a = some s' → inv s' ∧ (obs s a).count o ≤ 1 ∧
      (final s → final s' ∧ o ∉ obs s a) ∧ (o ∈ obs s a → final s'))
    (h : inv s) {as : List Action} (hrun : sys.run s as = some s') :
    (sys.observe obs s as).count o ≤ 1 ∧ (final s → (sys.observe obs s as).count o = 0) := by
  induction as generalizing s with
  | nil => simp [observe]
  | cons a as ih =>
    obtain ⟨s₁,hs₁,hrest⟩ := Option.bind_eq_some_iff.mp hrun
    obtain ⟨hinv,honce,hkeep,hserved⟩ := hstep s a s₁ h hs₁
    obtain ⟨hle,hzero⟩ := ih hinv hrest
    rw [observe_cons hs₁,List.count_append]
    constructor
    · by_cases hmem : o ∈ obs s a
      · rw [hzero (hserved hmem)]
        exact honce
      · rw [List.count_eq_zero_of_not_mem hmem]
        omega
    · intro hfinal
      obtain ⟨hfinal₁,hmem⟩ := hkeep hfinal
      rw [List.count_eq_zero_of_not_mem hmem,hzero hfinal₁]

/-- A potential that every step of the first kind fills, and that is bounded by what a step of the
second kind may empty, paces the steps of the first kind by those of the second. -/
theorem observe_paced {obs : State → Action → List Obs} {served : State → Action → List Member}
    {inv : State → Prop} {potential : State → Nat} {n : Nat}
    (hstep : ∀ s a s', inv s → sys.step s a = some s' → inv s' ∧
      (obs s a).length + potential s ≤ n * (served s a).length + potential s')
    (h : inv s) {as : List Action} (hrun : sys.run s as = some s') :
    (sys.observe obs s as).length + potential s ≤
      n * (sys.observe served s as).length + potential s' := by
  induction as generalizing s with
  | nil =>
    obtain rfl := Option.some.inj hrun
    simp [observe]
  | cons a as ih =>
    obtain ⟨s₁,hs₁,hrest⟩ := Option.bind_eq_some_iff.mp hrun
    obtain ⟨hinv,hpace⟩ := hstep s a s₁ h hs₁
    have hrest := ih hinv hrest
    rw [observe_cons hs₁,observe_cons hs₁,List.length_append,List.length_append,Nat.mul_add]
    omega

end TransitionSystem

end Hal9000
