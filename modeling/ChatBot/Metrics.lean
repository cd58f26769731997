import ChatBot.Dispatch.State
import ChatBot.Variables.Basic

/-!
# Counters

What the bot counts for its operators. A counter is named by what it counts, and the counters are
exported under fixed names, with a label where one quantity is split by kind.
-/

set_option autoImplicit false

namespace ChatBot

/-- What is counted. -/
inductive Counter where
  | dispatchOutcome (state : DispatchState)
  /-- Handlers that did not allow a line, by reason. -/
  | handlerFailure (reason : FailureReason)
  | rollbackReplayed
  /-- Handlers put into the detached queue. -/
  | detachedTask
  | filterEvaluation (kind : String)
  | fetchFailure
  | render
  /-- Attempts to change a variable through a template, by result. -/
  | variableMutation (result : MutationResult)
  deriving DecidableEq

/-- A name with one label, as counters are exported. -/
def labelled (name key value : String) : String :=
  name ++ "\x7b" ++ key ++ "=\"" ++ value ++ "\"\x7d"

/-- The name that a counter is exported under. -/
def Counter.exportName : Counter → String
  | dispatchOutcome s => labelled "ara_chat_dispatch_outcomes_total" "state" s.name
  | handlerFailure r => labelled "ara_chat_handler_failures_total" "reason" r.name
  | rollbackReplayed => "ara_chat_rollbacks_replayed_total"
  | detachedTask => "ara_chat_detached_tasks_total"
  | filterEvaluation kind => labelled "ara_chat_filter_evaluations_total" "kind" kind
  | fetchFailure => "ara_chat_api_fetch_failures_total"
  | render => "ara_chat_render_latency_seconds_count"
  | variableMutation r => labelled "ara_chat_variable_mutations_total" "result" r.name

/-- The counters that have been counted up, each once. -/
structure Metrics where
  counts : List (Counter × Nat) := []

namespace Metrics

/-- Counts one more in a list of counters. -/
def bumpIn (c : Counter) : List (Counter × Nat) → List (Counter × Nat)
  | [] => [(c, 1)]
  | (d, n) :: rest => if d = c then (d, n + 1) :: rest else (d, n) :: bumpIn c rest

/-- Counts one more. -/
def bump (m : Metrics) (c : Counter) : Metrics :=
  ⟨bumpIn c m.counts⟩

/-- The count of a counter. -/
def count (m : Metrics) (c : Counter) : Nat :=
  (m.counts.lookup c).getD 0

/-- Every count under the name that it is exported under. -/
def exported (m : Metrics) : List (String × Nat) :=
  m.counts.map fun entry => (entry.1.exportName, entry.2)

/-- Counting goes up by one where it is due and nowhere else. -/
theorem count_bump (m : Metrics) (c d : Counter) :
    (m.bump c).count d = if d = c then m.count d + 1 else m.count d := by
  obtain ⟨counts⟩ := m
  simp only [bump, count]
  induction counts with
  | nil =>
    by_cases h : d = c
    · simp [bumpIn, h]
    · simp [bumpIn, List.lookup_cons, h, beq_eq_false_iff_ne.2 h]
  | cons entry rest ih =>
    obtain ⟨e, n⟩ := entry
    by_cases he : e = c
    · by_cases hd : d = c
      · simp [bumpIn, he, hd]
      · simp [bumpIn, he, hd, List.lookup_cons, beq_eq_false_iff_ne.2 hd]
    · by_cases hd : d = e
      · subst hd
        simp [bumpIn, he]
      · simpa [bumpIn, he, List.lookup_cons, beq_eq_false_iff_ne.2 hd] using ih

end Metrics

end ChatBot
