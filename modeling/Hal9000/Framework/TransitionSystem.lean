import Mathlib.Logic.Function.Basic
import Mathlib.Data.List.Basic

/-!
# Labelled transition systems

A system is a set of initial states and a partial deterministic step, so that a run is
a list of actions and a concrete run can be evaluated. Reachability is relative to a guard
on the steps taken: an invariant of every run and an invariant of the runs that avoid one
kind of step are then the same kind of statement.
-/

namespace Hal9000

/-- Initial states and a partial step; `none` is an action that is not enabled. -/
structure TransitionSystem (State Action : Type*) where
  init : State → Prop
  step : State → Action → Option State

namespace TransitionSystem

variable {State Action Obs : Type*}

/-- States reached by runs whose every step satisfies `guard` in the state it starts from. -/
inductive ReachableUnder (sys : TransitionSystem State Action)
    (guard : State → Action → Prop) : State → Prop
  | init {s : State} (h : sys.init s) : ReachableUnder sys guard s
  | step {s s' : State} {a : Action} (h : ReachableUnder sys guard s) (hg : guard s a)
      (hs : sys.step s a = some s') : ReachableUnder sys guard s'

abbrev Reachable (sys : TransitionSystem State Action) : State → Prop :=
  sys.ReachableUnder fun _ _ => True

/-- The runs from one initial state. -/
def startingAt (sys : TransitionSystem State Action) (start : State) :
    TransitionSystem State Action where
  init s := sys.init s ∧ s = start
  step := sys.step

variable {sys : TransitionSystem State Action} {guard guard' : State → Action → Prop}

theorem ReachableUnder.mono (hguard : ∀ s a, guard s a → guard' s a) {s : State}
    (h : sys.ReachableUnder guard s) : sys.ReachableUnder guard' s := by
  induction h with
  | init h => exact .init h
  | step _ hg hs ih => exact .step ih (hguard _ _ hg) hs

/-- The induction over runs. The step may assume that its source state is reachable, which
is how an invariant uses the ones proved before it. -/
theorem ReachableUnder.invariant {inv : State → Prop} (hinit : ∀ s, sys.init s → inv s)
    (hstep : ∀ s a s', sys.ReachableUnder guard s → inv s → guard s a →
      sys.step s a = some s' → inv s') {s : State} (h : sys.ReachableUnder guard s) : inv s := by
  induction h with
  | init h => exact hinit _ h
  | step hr hg hs ih => exact hstep _ _ _ hr ih hg hs

def run (sys : TransitionSystem State Action) : State → List Action → Option State
  | s, [] => some s
  | s, a :: as => (sys.step s a).bind fun s' => sys.run s' as

/-- Every step of the run of `as` from `s` satisfies the guard. -/
def RunSatisfies (sys : TransitionSystem State Action) (guard : State → Action → Prop) :
    State → List Action → Prop
  | _, [] => True
  | s, a :: as => guard s a ∧ ∀ s', sys.step s a = some s' → sys.RunSatisfies guard s' as

instance decidableRunSatisfies [∀ s a, Decidable (guard s a)] :
    ∀ s as, Decidable (sys.RunSatisfies guard s as)
  | _, [] => .isTrue trivial
  | s, a :: as =>
    have : Decidable (∀ s', sys.step s a = some s' → sys.RunSatisfies guard s' as) :=
      match sys.step s a with
      | none => .isTrue nofun
      | some s₁ =>
        have := decidableRunSatisfies s₁ as
        decidable_of_iff (sys.RunSatisfies guard s₁ as)
          ⟨fun h _ hs => Option.some.inj hs ▸ h, fun h => h s₁ rfl⟩
    inferInstanceAs (Decidable (_ ∧ _))

theorem ReachableUnder.run {s s' : State} (h : sys.ReachableUnder guard s) {as : List Action}
    (hguard : sys.RunSatisfies guard s as) (hrun : sys.run s as = some s') :
    sys.ReachableUnder guard s' := by
  induction as generalizing s with
  | nil => exact Option.some.inj hrun ▸ h
  | cons a as ih =>
    obtain ⟨s₁, hs₁, hrest⟩ := Option.bind_eq_some_iff.mp hrun
    exact ih (.step h hguard.1 hs₁) (hguard.2 s₁ hs₁) hrest

theorem runSatisfies_of_forall (hguard : ∀ s a, guard s a) (s : State) (as : List Action) :
    sys.RunSatisfies guard s as := by
  induction as generalizing s with
  | nil => trivial
  | cons a as ih => exact ⟨hguard s a, fun s' _ => ih s'⟩

theorem runSatisfies_iff_of_invariant {inv : State → Prop}
    (hiff : ∀ s a, inv s → (guard s a ↔ guard' s a))
    (hstep : ∀ s a s', inv s → sys.step s a = some s' → inv s') {s : State} (h : inv s)
    (as : List Action) : sys.RunSatisfies guard s as ↔ sys.RunSatisfies guard' s as := by
  induction as generalizing s with
  | nil => exact Iff.rfl
  | cons a as ih =>
    rw [RunSatisfies,RunSatisfies,hiff s a h]
    apply and_congr_right
    intro _
    apply forall₂_congr
    intro s' hs'
    exact ih (hstep s a s' h hs')

theorem Reachable.run {s s' : State} (h : sys.Reachable s) {as : List Action}
    (hrun : sys.run s as = some s') : sys.Reachable s' :=
  ReachableUnder.run h (runSatisfies_of_forall (fun _ _ => trivial) s as) hrun

variable (sys) in
/-- A concrete run whose guard and final state are evaluated. -/
theorem exists_reachable (guard : State → Action → Prop) (s : State) (hinit : sys.init s)
    (as : List Action) (p : State → Bool) (hguard : sys.RunSatisfies guard s as)
    (hp : (sys.run s as).any p = true) :
    ∃ s', sys.ReachableUnder guard s' ∧ p s' = true := by
  obtain ⟨s',hrun,hp⟩ := (Option.any_eq_true _ _).mp hp
  exact ⟨s',ReachableUnder.run (.init hinit) hguard hrun,hp⟩

/-- The system that also records what is observed of every step it takes. -/
def recording (sys : TransitionSystem State Action) (obs : State → Action → List Obs) :
    TransitionSystem (State × List Obs) Action where
  init p := sys.init p.1 ∧ p.2 = []
  step p a := (sys.step p.1 a).map fun s' => (s', p.2 ++ obs p.1 a)

variable {obs : State → Action → List Obs}

theorem recording_step {p p' : State × List Obs} {a : Action} :
    (sys.recording obs).step p a = some p' ↔
      sys.step p.1 a = some p'.1 ∧ p'.2 = p.2 ++ obs p.1 a := by
  constructor
  · intro h
    obtain ⟨s', hs', rfl⟩ := Option.map_eq_some_iff.mp h
    exact ⟨hs', rfl⟩
  · rintro ⟨hs, hp⟩
    refine Option.map_eq_some_iff.mpr ⟨p'.1, hs, ?_⟩
    rw [← hp]

theorem recording_run_prefix {p p' : State × List Obs} {as : List Action}
    (h : (sys.recording obs).run p as = some p') : p.2 <+: p'.2 := by
  induction as generalizing p with
  | nil =>
    obtain rfl := Option.some.inj h
    exact List.prefix_rfl
  | cons a as ih =>
    obtain ⟨p₁, hs, hrest⟩ := Option.bind_eq_some_iff.mp h
    have hrecord : p₁.2 = p.2 ++ obs p.1 a := (recording_step.mp hs).2
    exact (List.prefix_append p.2 (obs p.1 a)).trans (hrecord ▸ ih hrest)

theorem ReachableUnder.of_recording {p : State × List Obs}
    (h : (sys.recording obs).ReachableUnder (fun p a => guard p.1 a) p) :
    sys.ReachableUnder guard p.1 := by
  induction h with
  | init h => exact .init h.1
  | step _ hg hs ih => exact .step ih hg (recording_step.mp hs).1

theorem Reachable.of_recording {p : State × List Obs} (h : (sys.recording obs).Reachable p) :
    sys.Reachable p.1 := by
  induction h with
  | init h => exact .init h.1
  | step _ _ hs ih => exact .step ih trivial (recording_step.mp hs).1

theorem ReachableUnder.exists_recording (obs : State → Action → List Obs) {s : State}
    (h : sys.ReachableUnder guard s) :
    ∃ record, (sys.recording obs).ReachableUnder (fun p a => guard p.1 a) (s, record) := by
  induction h with
  | init h => exact ⟨[], .init ⟨h, rfl⟩⟩
  | step _ hg hs ih =>
    obtain ⟨record, ih⟩ := ih
    exact ⟨_, .step ih hg (recording_step.mpr ⟨hs, rfl⟩)⟩

end TransitionSystem

end Hal9000
