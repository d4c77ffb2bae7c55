import BismarkPassive.Machine.Execution
import Mathlib.Data.List.Forall2

namespace machine

variable {S E O S' E' O' : Type} {step : S → E → Option (S × O)} {step' : S' → E' → Option (S' × O')}
  {initial : S} {initial' : S'}

/-- The last elements of related lists are related. -/
theorem forall₂_snoc_left {α β : Type} {R : α → β → Prop} {items : List α} {item : α} {others : List β}
    (h : List.Forall₂ R (items ++ [item]) others) :
    ∃ others' other, others = others' ++ [other] ∧ List.Forall₂ R items others' ∧ R item other := by
  have hreverse := List.forall₂_reverse_iff.mpr h
  rw [List.reverse_append, List.reverse_singleton, List.singleton_append] at hreverse
  obtain ⟨other, others', hitem, hitems, hothers⟩ := List.forall₂_cons_left_iff.mp hreverse
  refine ⟨others'.reverse, other, ?_, ?_, hitem⟩
  · rw [← List.reverse_cons, ← hothers, List.reverse_reverse]
  · rw [← List.forall₂_reverse_iff, List.reverse_reverse]
    exact hitems

/-- Two machines in lockstep: if related events take related states to related
states with related outputs, then so do related traces. -/
theorem Execution.lockstep (Q : E → E' → Prop) (R : S → S' → Prop) (P : O → O' → Prop) (hinitial : R initial initial')
    (hkeep : ∀ trace s s' event event' t t' output output', Execution step initial trace s → R s s' →
      Q event event' → step s event = some (t, output) → step' s' event' = some (t', output') →
      R t t' ∧ P output output')
    {trace : List (E × O)} {trace' : List (E' × O')} {s : S} {s' : S'} (run : Execution step initial trace s)
    (run' : Execution step' initial' trace' s')
    (hevents : List.Forall₂ Q (trace.map Prod.fst) (trace'.map Prod.fst)) :
    R s s' ∧ List.Forall₂ P (trace.map Prod.snd) (trace'.map Prod.snd) := by
  induction run generalizing trace' s' with
  | nil =>
    obtain rfl := List.map_eq_nil_iff.mp (List.forall₂_nil_left_iff.mp hevents)
    rw [Execution.nil_iff.mp run']
    exact ⟨hinitial, .nil⟩
  | snoc run hstep ih =>
    rw [List.map_append, List.map_singleton] at hevents
    obtain ⟨events, event', hsplit, hearlier, hevent⟩ := forall₂_snoc_left hevents
    obtain ⟨trace'', last, rfl, rfl, hlast⟩ := List.map_eq_append_iff.mp hsplit
    obtain ⟨⟨_, output'⟩, rfl, rfl⟩ := List.map_eq_singleton_iff.mp hlast
    obtain ⟨t', run', hstep'⟩ := Execution.snoc_iff.mp run'
    obtain ⟨hstates, houtputs⟩ := ih run' hearlier
    obtain ⟨hstates', houtput⟩ := hkeep _ _ _ _ _ _ _ _ _ run hstates hevent hstep hstep'
    refine ⟨hstates', ?_⟩
    rw [List.map_append, List.map_append]
    exact List.rel_append houtputs (.cons houtput .nil)

/-- A machine that can answer every step of another one, on any event related
to that of the step, has an execution over related events. -/
theorem Execution.mimicked (Q : E → E' → Prop) (R : S → S' → Prop) (P : O → O' → Prop) (hinitial : R initial initial')
    (hkeep : ∀ s s' event event' t output, R s s' → Q event event' → step s event = some (t, output) →
      ∃ t' output', step' s' event' = some (t', output') ∧ R t t' ∧ P output output')
    {trace : List (E × O)} {s : S} (run : Execution step initial trace s) {events' : List E'}
    (hevents : List.Forall₂ Q (trace.map Prod.fst) events') :
    ∃ trace' s', Execution step' initial' trace' s' ∧ trace'.map Prod.fst = events' ∧ R s s' ∧
      List.Forall₂ P (trace.map Prod.snd) (trace'.map Prod.snd) := by
  induction run generalizing events' with
  | nil => exact ⟨[], initial', .nil, (List.forall₂_nil_left_iff.mp hevents).symm, hinitial, .nil⟩
  | snoc run hstep ih =>
    rw [List.map_append, List.map_singleton] at hevents
    obtain ⟨earlier, event', rfl, hearlier, hevent⟩ := forall₂_snoc_left hevents
    obtain ⟨trace', s', run', rfl, hstates, houtputs⟩ := ih hearlier
    obtain ⟨t', output', hstep', hstates', houtput⟩ := hkeep _ _ _ _ _ _ hstates hevent hstep
    refine ⟨trace' ++ [(event', output')], t', run'.snoc hstep', List.map_append, hstates', ?_⟩
    rw [List.map_append, List.map_append]
    exact List.rel_append houtputs (.cons houtput .nil)

/-- A machine that can follow every step of another one on the events that
meet a condition has its executions over such events, with the same outputs. -/
theorem Execution.followed {T : Type} {follow : T → E → Option (T × O)} {start : T} (cond : E → Prop)
    (R : S → T → Prop) (hinitial : R initial start)
    (hkeep : ∀ s t event s' output, R s t → cond event → step s event = some (s', output) →
      ∃ t', follow t event = some (t', output) ∧ R s' t')
    {trace : List (E × O)} {s : S} (run : Execution step initial trace s) (hcond : ∀ entry ∈ trace, cond entry.1) :
    ∃ t, Execution follow start trace t ∧ R s t := by
  have hevents : List.Forall₂ (fun event event' => event = event' ∧ cond event) (trace.map Prod.fst)
      (trace.map Prod.fst) := by
    rw [List.forall₂_same]
    intro event hevent
    obtain ⟨entry, hentry, rfl⟩ := List.mem_map.mp hevent
    exact ⟨rfl, hcond entry hentry⟩
  obtain ⟨trace', t, hfollowed, hfst, hrelated, hsnd⟩ := run.mimicked _ R Eq hinitial (by
    rintro s t event _ s' output hrelated ⟨rfl, hevent⟩ hstep
    obtain ⟨t', hnext, hrelated'⟩ := hkeep s t event s' output hrelated hevent hstep
    exact ⟨t', output, hnext, hrelated', rfl⟩) hevents
  -- the same events with the same outputs are the same trace
  rw [List.forall₂_eq_eq_eq] at hsnd
  obtain rfl : trace' = trace := (List.zip_of_prod hfst hsnd.symm).trans (List.zip_of_prod rfl rfl).symm
  exact ⟨t, hfollowed, hrelated⟩

end machine
