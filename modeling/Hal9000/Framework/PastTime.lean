import Mathlib.Data.List.Basic

/-!
# Properties of histories

Past-time operators on lists of events, the latest event last, and how each of them
reads once one more event is appended.
-/

namespace Hal9000

variable {Event : Type*}

/-- Some event of the history satisfies `starts`, and every later one satisfies `keeps`. -/
def Since (keeps starts : Event → Prop) (history : List Event) : Prop :=
  ∃ before event after, history = before ++ event :: after ∧ starts event ∧
    ∀ later ∈ after, keeps later

/-- Every event of the history is allowed after the events before it. -/
def Historically (allowed : List Event → Event → Prop) (history : List Event) : Prop :=
  ∀ before event after, history = before ++ event :: after → allowed before event

/-- The latest event that satisfies `marks` came after a history that satisfies `held`. -/
def AtLatest (marks : Event → Prop) (held : List Event → Prop) (history : List Event) : Prop :=
  ∃ before event after, history = before ++ event :: after ∧ marks event ∧
    (∀ later ∈ after, ¬ marks later) ∧ held before

variable {keeps starts marks : Event → Prop} {held : List Event → Prop}
variable {allowed : List Event → Event → Prop}

@[simp] theorem not_since_nil : ¬ Since keeps starts [] := by
  rintro ⟨before,event,after,h,_⟩
  simp at h

private theorem append_singleton_eq {history before after : List Event} {event last : Event}
    (h : history ++ [last] = before ++ event :: after) :
    (after = [] ∧ history = before ∧ last = event) ∨
      ∃ init, after = init ++ [last] ∧ history = before ++ event :: init := by
  rcases List.eq_nil_or_concat after with rfl | ⟨init,final,rfl⟩
  · have hsplit := List.append_inj' h rfl
    exact Or.inl ⟨rfl,hsplit.1,by simpa using hsplit.2⟩
  · have hconcat : history ++ [last] = (before ++ event :: init) ++ [final] := by simpa using h
    have hsplit := List.append_inj' hconcat rfl
    have hlast : last = final := by simpa using hsplit.2
    exact Or.inr ⟨init,by rw [hlast,List.concat_eq_append],hsplit.1⟩

theorem since_append_singleton {history : List Event} {last : Event} :
    Since keeps starts (history ++ [last]) ↔
      starts last ∨ keeps last ∧ Since keeps starts history := by
  constructor
  · rintro ⟨before,event,after,h,hstarts,hkeeps⟩
    rcases append_singleton_eq h with ⟨_,_,rfl⟩ | ⟨init,rfl,hinit⟩
    · exact Or.inl hstarts
    · right
      constructor
      · exact hkeeps last (by simp)
      · exact ⟨before,event,init,hinit,hstarts,fun later hl => hkeeps later (by simp [hl])⟩
  · rintro (hstarts | ⟨hlast,before,event,after,rfl,hstarts,hkeeps⟩)
    · exact ⟨history,last,[],rfl,hstarts,by simp⟩
    · refine ⟨before,event,after ++ [last],by simp,hstarts,?_⟩
      intro later hl
      rcases List.mem_append.mp hl with hl | hl
      · exact hkeeps later hl
      · rw [List.mem_singleton.mp hl]
        exact hlast

theorem Historically.of_append {history later : List Event}
    (h : Historically allowed (history ++ later)) : Historically allowed history := by
  intro before event after heq
  exact h before event (after ++ later) (by simp [heq])

theorem historically_append_singleton {history : List Event} {last : Event} :
    Historically allowed (history ++ [last]) ↔
      Historically allowed history ∧ allowed history last := by
  constructor
  · intro h
    constructor
    · exact h.of_append
    · exact h history last [] rfl
  · rintro ⟨hhistory,hlast⟩ before event after heq
    rcases append_singleton_eq heq with ⟨_,rfl,rfl⟩ | ⟨init,_,hinit⟩
    · exact hlast
    · exact hhistory before event init hinit

@[simp] theorem not_atLatest_nil : ¬ AtLatest marks held [] := by
  rintro ⟨before,event,after,h,_⟩
  simp at h

theorem atLatest_append_singleton {history : List Event} {last : Event} :
    AtLatest marks held (history ++ [last]) ↔
      (marks last ∧ held history) ∨ (¬ marks last ∧ AtLatest marks held history) := by
  constructor
  · rintro ⟨before,event,after,h,hmarks,hlater,hheld⟩
    rcases append_singleton_eq h with ⟨_,rfl,rfl⟩ | ⟨init,rfl,hinit⟩
    · exact Or.inl ⟨hmarks,hheld⟩
    · right
      constructor
      · exact hlater last (by simp)
      · exact ⟨before,event,init,hinit,hmarks,fun later hl => hlater later (by simp [hl]),hheld⟩
  · rintro (⟨hmarks,hheld⟩ | ⟨hlast,before,event,after,rfl,hmarks,hlater,hheld⟩)
    · exact ⟨history,last,[],rfl,hmarks,by simp,hheld⟩
    · refine ⟨before,event,after ++ [last],by simp,hmarks,?_,hheld⟩
      intro later hl
      rcases List.mem_append.mp hl with hl | hl
      · exact hlater later hl
      · rw [List.mem_singleton.mp hl]
        exact hlast

@[simp] theorem historically_nil : Historically allowed [] := by
  intro before event after h
  simp at h

end Hal9000
