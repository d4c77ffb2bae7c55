import Mathlib.Data.List.DropRight

namespace machine

variable {α β : Type}

/-- What the most recent event that has something to report reports. -/
def latest (reports : α → Option β) (history : List α) : Option β := history.reverse.findSome? reports

@[simp] theorem latest_nil (reports : α → Option β) : latest reports [] = none := rfl

theorem latest_snoc (reports : α → Option β) (history : List α) (event : α) :
    latest reports (history ++ [event]) = (reports event).or (latest reports history) := by
  simp only [latest, List.reverse_append, List.reverse_singleton, List.singleton_append, List.findSome?_cons]
  cases reports event <;> rfl

theorem latest_append (reports : α → Option β) (first second : List α) :
    latest reports (first ++ second) = (latest reports second).or (latest reports first) := by
  simp [latest, List.findSome?_append]

theorem latest_congr {reports reports' : α → Option β} {history : List α}
    (h : ∀ event ∈ history, reports event = reports' event) : latest reports history = latest reports' history := by
  induction history using List.reverseRecOn with
  | nil => rfl
  | append_singleton history event ih =>
    rw [List.forall_mem_append] at h
    rw [latest_snoc, latest_snoc, ih h.1, h.2 event (List.mem_singleton_self event)]

theorem latest_eq_none {reports : α → Option β} {history : List α} (h : ∀ event ∈ history, reports event = none) :
    latest reports history = none :=
  List.findSome?_eq_none_iff.mpr fun event hevent => h event (List.mem_reverse.mp hevent)

/-- What the events reported since the last one without a report, oldest first. -/
def since (reports : α → Option β) (history : List α) : List β :=
  history.foldl (fun reported event =>
    match reports event with
    | some report => reported ++ [report]
    | none => []) []

@[simp] theorem since_nil (reports : α → Option β) : since reports [] = [] := rfl

theorem since_snoc_of_some {reports : α → Option β} (history : List α) {event : α} {report : β}
    (h : reports event = some report) :
    since reports (history ++ [event]) = since reports history ++ [report] := by
  simp [since, List.foldl_append, h]

theorem since_snoc_of_none {reports : α → Option β} (history : List α) {event : α} (h : reports event = none) :
    since reports (history ++ [event]) = [] := by
  simp [since, List.foldl_append, h]

/-- What was reported lately was reported. -/
theorem mem_of_mem_since {reports : α → Option β} {history : List α} {report : β}
    (h : report ∈ since reports history) : ∃ event ∈ history, reports event = some report := by
  induction history using List.reverseRecOn with
  | nil => simp at h
  | append_singleton history event ih =>
    cases hevent : reports event with
    | none =>
      rw [since_snoc_of_none history hevent] at h
      exact absurd h List.not_mem_nil
    | some last =>
      rw [since_snoc_of_some history hevent, List.mem_append, List.mem_singleton] at h
      obtain hold | rfl := h
      · obtain ⟨event', hmem, hreport⟩ := ih hold
        exact ⟨event', List.mem_append_left _ hmem, hreport⟩
      · exact ⟨event, by simp, hevent⟩

end machine
