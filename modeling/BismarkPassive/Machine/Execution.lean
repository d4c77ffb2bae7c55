import Mathlib.Data.List.Basic
import Mathlib.Data.List.DropRight

namespace machine

variable {S E O : Type} {step : S → E → Option (S × O)} {initial : S}

/-- Executions of a partial step function. The trace pairs every event with
its output, oldest first; a step that yields `none` cannot be extended. -/
inductive Execution (step : S → E → Option (S × O)) (initial : S) : List (E × O) → S → Prop where
  | nil : Execution step initial [] initial
  | snoc {trace : List (E × O)} {s s' : S} {event : E} {output : O}
      (run : Execution step initial trace s) (hstep : step s event = some (s', output)) :
      Execution step initial (trace ++ [(event, output)]) s'

/-- The condition holds of the state before every step of the trace. -/
def Along (step : S → E → Option (S × O)) (initial : S) (cond : S → E → Prop)
    (trace : List (E × O)) : Prop :=
  ∀ before event output after, trace = before ++ (event, output) :: after →
    ∀ s, Execution step initial before s → cond s event

theorem Along.init {cond : S → E → Prop} {trace : List (E × O)} {last : E × O}
    (h : Along step initial cond (trace ++ [last])) : Along step initial cond trace := by
  intro before event output after htrace
  exact h before event output (after ++ [last]) (by simp [htrace])

theorem Along.last {cond : S → E → Prop} {trace : List (E × O)} {event : E} {output : O}
    (h : Along step initial cond (trace ++ [(event, output)])) {s : S}
    (run : Execution step initial trace s) : cond s event :=
  h trace event output [] rfl s run

theorem Along.nil {cond : S → E → Prop} : Along step initial cond [] := by
  intro before event output after htrace
  simp at htrace

/-- A condition holds along a longer trace if it holds before the last step, too. -/
theorem Along.snoc {cond : S → E → Prop} {trace : List (E × O)} {event : E} {output : O}
    (h : Along step initial cond trace) (hlast : ∀ s, Execution step initial trace s → cond s event) :
    Along step initial cond (trace ++ [(event, output)]) := by
  intro before event' output' after htrace s run
  obtain rfl | ⟨after', last, rfl⟩ := List.eq_nil_or_concat' after
  · obtain ⟨rfl, hsame⟩ := List.append_inj' htrace rfl
    simp only [List.cons.injEq, Prod.mk.injEq, and_true] at hsame
    exact hsame.1 ▸ hlast s run
  · rw [← List.cons_append, ← List.append_assoc] at htrace
    obtain ⟨hinit, _⟩ := List.append_inj' htrace rfl
    exact h before event' output' after' hinit s run

/-- A property of trace and state that every step extends holds of every execution. -/
theorem Execution.invariant (I : List (E × O) → S → Prop) (hinitial : I [] initial)
    (hkeep : ∀ trace s event s' output, Execution step initial trace s → I trace s →
      step s event = some (s', output) → I (trace ++ [(event, output)]) s')
    {trace : List (E × O)} {s : S} (run : Execution step initial trace s) : I trace s := by
  induction run with
  | nil => exact hinitial
  | snoc run hstep ih => exact hkeep _ _ _ _ _ run ih hstep

/-- The invariant rule for executions whose steps all meet a condition. -/
theorem Execution.invariant_along (cond : S → E → Prop) (I : List (E × O) → S → Prop)
    (hinitial : I [] initial)
    (hkeep : ∀ trace s event s' output, Execution step initial trace s → I trace s →
      cond s event → step s event = some (s', output) → I (trace ++ [(event, output)]) s')
    {trace : List (E × O)} {s : S} (run : Execution step initial trace s)
    (halong : Along step initial cond trace) : I trace s := by
  induction run with
  | nil => exact hinitial
  | snoc run hstep ih => exact hkeep _ _ _ _ _ run (ih halong.init) (halong.last run) hstep

/-- Nothing has happened in the initial state only. -/
theorem Execution.nil_iff {s : S} : Execution step initial [] s ↔ s = initial := by
  constructor
  · intro run
    generalize htrace : ([] : List (E × O)) = trace at run
    cases run with
    | nil => rfl
    | snoc run hstep => simp at htrace
  · rintro rfl
    exact .nil

/-- A trace ends with a step from the state before. -/
theorem Execution.snoc_iff {trace : List (E × O)} {event : E} {output : O} {s' : S} :
    Execution step initial (trace ++ [(event, output)]) s' ↔
      ∃ s, Execution step initial trace s ∧ step s event = some (s', output) := by
  constructor
  · intro run
    generalize htrace : trace ++ [(event, output)] = whole at run
    cases run with
    | nil => simp at htrace
    | snoc run hstep =>
      obtain ⟨rfl, hlast⟩ := List.append_inj' htrace rfl
      simp only [List.cons.injEq, Prod.mk.injEq, and_true] at hlast
      obtain ⟨rfl, rfl⟩ := hlast
      exact ⟨_, run, hstep⟩
  · rintro ⟨s, run, hstep⟩
    exact run.snoc hstep

/-- A trace leads to one state. -/
theorem Execution.deterministic {trace : List (E × O)} {s s' : S}
    (run : Execution step initial trace s) (run' : Execution step initial trace s') : s = s' := by
  induction run generalizing s' with
  | nil => exact (Execution.nil_iff.mp run').symm
  | snoc run hstep ih =>
    obtain ⟨t, hrun, hstep'⟩ := Execution.snoc_iff.mp run'
    obtain rfl := ih hrun
    rw [hstep] at hstep'
    simp only [Option.some.injEq, Prod.mk.injEq, and_true] at hstep'
    exact hstep'

/-- It is enough to know the condition of the state that has been reached. -/
theorem Along.step_from {cond : S → E → Prop} {trace : List (E × O)} {event : E} {output : O} {s : S}
    (h : Along step initial cond trace) (run : Execution step initial trace s) (hlast : cond s event) :
    Along step initial cond (trace ++ [(event, output)]) := by
  refine h.snoc fun s' run' => ?_
  obtain rfl := run.deterministic run'
  exact hlast

theorem Execution.trans {first second : List (E × O)} {middle s : S}
    (run : Execution step initial first middle) (rest : Execution step middle second s) :
    Execution step initial (first ++ second) s := by
  induction rest with
  | nil => simpa using run
  | snoc _ hstep ih => simpa using ih.snoc hstep

/-- An execution passes through the state reached by any prefix of its trace. -/
theorem Execution.split {first second : List (E × O)} {s : S}
    (run : Execution step initial (first ++ second) s) :
    ∃ middle, Execution step initial first middle ∧ Execution step middle second s := by
  induction second using List.reverseRecOn generalizing s with
  | nil => exact ⟨s, by simpa using run, .nil⟩
  | append_singleton second last ih =>
    rw [← List.append_assoc] at run
    obtain ⟨t, hrun, hstep⟩ := Execution.snoc_iff.mp run
    obtain ⟨middle, hfirst, hsecond⟩ := ih hrun
    exact ⟨middle, hfirst, hsecond.snoc hstep⟩

/-- Conditions along two executions, one after the other. -/
theorem Along.append {cond : S → E → Prop} {first second : List (E × O)} {middle : S}
    (hfirst : Along step initial cond first) (run : Execution step initial first middle)
    (hsecond : Along step middle cond second) : Along step initial cond (first ++ second) := by
  induction second using List.reverseRecOn with
  | nil => simpa using hfirst
  | append_singleton second last ih =>
    rw [← List.append_assoc]
    refine (ih hsecond.init).snoc fun s hrun => ?_
    obtain ⟨t, hrun', hrest⟩ := hrun.split
    obtain rfl := run.deterministic hrun'
    exact hsecond.last hrest

/-- A trace begins with a step from the initial state. -/
theorem Execution.cons_iff {event : E} {output : O} {rest : List (E × O)} {s' : S} :
    Execution step initial ((event, output) :: rest) s' ↔
      ∃ s, step initial event = some (s, output) ∧ Execution step s rest s' := by
  constructor
  · intro run
    rw [← List.singleton_append] at run
    obtain ⟨s, hfirst, hrest⟩ := run.split
    rw [← List.nil_append [(event, output)]] at hfirst
    obtain ⟨t, hnil, hstep⟩ := Execution.snoc_iff.mp hfirst
    obtain rfl := Execution.nil_iff.mp hnil
    exact ⟨s, hstep, hrest⟩
  · rintro ⟨s, hstep, hrest⟩
    simpa using (Execution.nil.snoc hstep).trans hrest

/-- Every event of a trace was a step from a state of the execution. -/
theorem Execution.step_of_mem {trace : List (E × O)} {s : S} (run : Execution step initial trace s) {event : E}
    {output : O} (hmem : (event, output) ∈ trace) :
    ∃ before after t t', trace = before ++ (event, output) :: after ∧ Execution step initial before t ∧
      step t event = some (t', output) := by
  obtain ⟨before, after, rfl⟩ := List.append_of_mem hmem
  obtain ⟨t, hbefore, hrest⟩ := run.split
  obtain ⟨t', hstep, _⟩ := Execution.cons_iff.mp hrest
  exact ⟨before, after, t, t', rfl, hbefore, hstep⟩

/-- States reached by some execution. -/
def Reachable (step : S → E → Option (S × O)) (initial s : S) : Prop :=
  ∃ trace, Execution step initial trace s

theorem Reachable.invariant (I : S → Prop) (hinitial : I initial)
    (hkeep : ∀ s event s' output, I s → step s event = some (s', output) → I s')
    {s : S} (hreach : Reachable step initial s) : I s := by
  obtain ⟨trace, run⟩ := hreach
  exact run.invariant (fun _ s => I s) hinitial (fun _ s e s' o _ hI hstep => hkeep s e s' o hI hstep)

end machine
