import HiFetch.Library.Transition
import Mathlib.Logic.Function.Basic

/-!
# Threads on resources of their own

Every thread has a list of actions that it goes through one by one.  An action has a footprint, the
resources that it needs in certain stages and moves on to other ones.

A thread that would get to the end of its list alone gets there whatever the others do, as long as
no two lists reach the same resource.
-/

namespace HiFetch

open Transition

/-- Actions on resources.  What an action needs and does is a matter of its footprint, and a
resource that an action is about is not idle. -/
structure Discipline (Resource Stage Action : Type*) where
  footprint : Action → List Resource
  idle : Stage → Prop
  enabled : (Resource → Stage) → Action → Prop
  advance : (Resource → Stage) → Action → Resource → Stage
  enabled_congr : ∀ {first second : Resource → Stage} {action : Action},
    (∀ resource ∈ footprint action, first resource = second resource) →
      enabled first action → enabled second action
  advance_congr : ∀ {first second : Resource → Stage} {action : Action} {resource : Resource},
    resource ∈ footprint action → first resource = second resource →
      advance first action resource = advance second action resource
  advance_of_notMem : ∀ {stage : Resource → Stage} {action : Action} {resource : Resource},
    resource ∉ footprint action → advance stage action resource = stage resource
  active : ∀ {stage : Resource → Stage} {action : Action}, enabled stage action →
    ∀ resource ∈ footprint action, ¬idle (stage resource)

namespace Discipline

variable {Resource Stage Action Thread : Type*} (discipline : Discipline Resource Stage Action)

/-- The resources that a list of actions is about. -/
def reach (actions : List Action) : List Resource := actions.flatMap discipline.footprint

/-- The actions can be taken one after the other, and leave their resources idle. -/
structure Completes (stage : Resource → Stage) (actions : List Action) : Prop where
  enabled : Along discipline.advance discipline.enabled stage actions
  settles : ∀ resource ∈ discipline.reach actions,
    discipline.idle (run discipline.advance stage actions resource)

/-- Every thread can complete, each with resources of its own, and no other resource is in use. -/
structure Separate (stage : Resource → Stage) (rest : Thread → List Action) : Prop where
  completes : ∀ thread, discipline.Completes stage (rest thread)
  apart : ∀ first second, first ≠ second →
    ∀ resource ∈ discipline.reach (rest first), resource ∉ discipline.reach (rest second)
  claimed : ∀ resource, ¬discipline.idle (stage resource) →
    ∃ thread, resource ∈ discipline.reach (rest thread)

variable {discipline} {stage : Resource → Stage}

theorem mem_reach_cons {action : Action} {actions : List Action} {resource : Resource} :
    resource ∈ discipline.reach (action :: actions) ↔
      resource ∈ discipline.footprint action ∨ resource ∈ discipline.reach actions := by
  unfold reach
  rw [List.flatMap_cons, List.mem_append]

theorem run_of_notMem {actions : List Action} {resource : Resource}
    (h : resource ∉ discipline.reach actions) :
    run discipline.advance stage actions resource = stage resource := by
  induction actions generalizing stage with
  | nil => rfl
  | cons action actions ih =>
    rw [mem_reach_cons, not_or] at h
    rw [run_cons, ih h.2, discipline.advance_of_notMem h.1]

/-- Actions that can be taken are about resources in use. -/
theorem not_idle_of_mem {actions : List Action}
    (h : Along discipline.advance discipline.enabled stage actions) :
    ∀ resource ∈ discipline.reach actions, ¬discipline.idle (stage resource) := by
  induction actions generalizing stage with
  | nil => exact nofun
  | cons action actions ih =>
    intro resource hresource
    by_cases hfirst : resource ∈ discipline.footprint action
    · exact discipline.active h.1 resource hfirst
    · have hlater := ih h.2 resource ((mem_reach_cons.1 hresource).resolve_left hfirst)
      rwa [discipline.advance_of_notMem hfirst] at hlater

/-- The frame: other resources do not matter. -/
theorem agree_advance {first second : Resource → Stage} {action : Action}
    {resource : Resource} (h : first resource = second resource) :
    discipline.advance first action resource = discipline.advance second action resource := by
  by_cases hresource : resource ∈ discipline.footprint action
  · exact discipline.advance_congr hresource h
  · rw [discipline.advance_of_notMem hresource, discipline.advance_of_notMem hresource, h]

theorem agree_run {first second : Resource → Stage} (actions : List Action)
    {resource : Resource} (h : first resource = second resource) :
    run discipline.advance first actions resource =
      run discipline.advance second actions resource := by
  induction actions generalizing first second with
  | nil => exact h
  | cons action actions ih => exact ih (agree_advance h)

theorem along_congr_of_agree {first second : Resource → Stage} {actions : List Action}
    (h : ∀ resource ∈ discipline.reach actions, first resource = second resource)
    (halong : Along discipline.advance discipline.enabled first actions) :
    Along discipline.advance discipline.enabled second actions := by
  induction actions generalizing first second with
  | nil => trivial
  | cons action actions ih =>
    refine ⟨discipline.enabled_congr (fun resource hresource ↦ ?_) halong.1,
      ih (fun resource hresource ↦ ?_) halong.2⟩
    · exact h resource (mem_reach_cons.2 (.inl hresource))
    · exact agree_advance (h resource (mem_reach_cons.2 (.inr hresource)))

theorem Completes.congr {first second : Resource → Stage} {actions : List Action}
    (hcompletes : discipline.Completes first actions)
    (h : ∀ resource ∈ discipline.reach actions, first resource = second resource) :
    discipline.Completes second actions where
  enabled := along_congr_of_agree h hcompletes.enabled
  settles := by
    intro resource hresource
    rw [← agree_run actions (h resource hresource)]
    exact hcompletes.settles resource hresource

namespace Separate

variable {rest : Thread → List Action} {thread : Thread}

theorem enabled (h : discipline.Separate stage rest) {action : Action} {later : List Action}
    (hrest : rest thread = action :: later) : discipline.enabled stage action := by
  have halong := (h.completes thread).enabled
  rw [hrest] at halong
  exact halong.1

variable [DecidableEq Thread]

/-- A thread takes its next action. -/
theorem resume (h : discipline.Separate stage rest) {action : Action} {later : List Action}
    (hrest : rest thread = action :: later) :
    discipline.Separate (discipline.advance stage action) (Function.update rest thread later) := by
  have hown := h.completes thread
  rw [hrest] at hown
  have hfewer : ∀ other, ∀ resource ∈ discipline.reach (Function.update rest thread later other),
      resource ∈ discipline.reach (rest other) := by
    intro other resource hresource
    by_cases hother : other = thread
    · rw [hother, Function.update_self] at hresource
      rw [hother, hrest]
      exact mem_reach_cons.2 (.inr hresource)
    · rwa [Function.update_of_ne hother] at hresource
  refine ⟨fun other ↦ ?_, fun first second hne resource hfirst hsecond ↦ ?_,
    fun resource hresource ↦ ?_⟩
  · by_cases hother : other = thread
    · rw [hother, Function.update_self]
      exact ⟨hown.enabled.2, fun resource hresource ↦
        hown.settles resource (mem_reach_cons.2 (.inr hresource))⟩
    · rw [Function.update_of_ne hother]
      apply (h.completes other).congr
      intro resource hresource
      have hnot := h.apart other thread hother resource hresource
      rw [hrest, mem_reach_cons, not_or] at hnot
      exact (discipline.advance_of_notMem hnot.1).symm
  · exact h.apart first second hne resource (hfewer first resource hfirst)
      (hfewer second resource hsecond)
  · -- What the action leaves in use is reached again, since the thread settles it.
    by_cases hfirst : resource ∈ discipline.footprint action
    · refine ⟨thread, ?_⟩
      rw [Function.update_self]
      by_contra hlater
      apply hresource
      have hlast : run discipline.advance (discipline.advance stage action) later resource =
          discipline.advance stage action resource := run_of_notMem hlater
      rw [← hlast]
      exact hown.settles resource (mem_reach_cons.2 (.inl hfirst))
    · rw [discipline.advance_of_notMem hfirst] at hresource
      obtain ⟨other, hother⟩ := h.claimed resource hresource
      refine ⟨other, ?_⟩
      by_cases heq : other = thread
      · rw [heq, hrest] at hother
        rw [heq, Function.update_self]
        exact (mem_reach_cons.1 hother).resolve_left hfirst
      · rwa [Function.update_of_ne heq]

/-- A thread without actions gets new ones.  They are about the resources that change, which have
been idle. -/
theorem start (h : discipline.Separate stage rest) (hidle : rest thread = [])
    {next : Resource → Stage} {actions : List Action}
    (hcompletes : discipline.Completes next actions)
    (hfree : ∀ resource ∈ discipline.reach actions, discipline.idle (stage resource))
    (hkept : ∀ resource, resource ∉ discipline.reach actions → next resource = stage resource) :
    discipline.Separate next (Function.update rest thread actions) := by
  have hothers : ∀ other, ∀ resource ∈ discipline.reach (rest other),
      resource ∉ discipline.reach actions := fun other resource hresource hnew ↦
    not_idle_of_mem (h.completes other).enabled resource hresource (hfree resource hnew)
  refine ⟨fun other ↦ ?_, fun first second hne resource hfirst hsecond ↦ ?_,
    fun resource hresource ↦ ?_⟩
  · by_cases hother : other = thread
    · rw [hother, Function.update_self]
      exact hcompletes
    · rw [Function.update_of_ne hother]
      apply (h.completes other).congr
      exact fun resource hresource ↦ (hkept resource (hothers other resource hresource)).symm
  · by_cases hone : first = thread
    · rw [hone, Function.update_self] at hfirst
      rw [Function.update_of_ne (hone ▸ hne.symm)] at hsecond
      exact hothers second resource hsecond hfirst
    · rw [Function.update_of_ne hone] at hfirst
      by_cases htwo : second = thread
      · rw [htwo, Function.update_self] at hsecond
        exact hothers first resource hfirst hsecond
      · rw [Function.update_of_ne htwo] at hsecond
        exact h.apart first second hne resource hfirst hsecond
  · by_cases hnew : resource ∈ discipline.reach actions
    · exact ⟨thread, by rwa [Function.update_self]⟩
    · rw [hkept resource hnew] at hresource
      obtain ⟨other, hother⟩ := h.claimed resource hresource
      refine ⟨other, ?_⟩
      rw [Function.update_of_ne]
      · exact hother
      · rintro rfl
        rw [hidle] at hother
        exact absurd hother nofun

end Separate

end Discipline

end HiFetch
