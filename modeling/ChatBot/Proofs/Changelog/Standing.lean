import ChatBot.Proofs.Changelog.Held

/-!
# Which records stand

A record of a resource stands until it is taken out, forgotten with the others of the resource, or
evicted: when another is recorded and as many records are live as are kept at most, the oldest live
one gives way. Time takes no record away; it only makes records count no more. Here is this
reference, in which nothing is ever dropped for its age. The changelog does drop what has expired,
each operation in its own way: recording at the front, reading by a filter, taking out by a look at
the back, and pruning everywhere. Main statement: as long as the clock does not go backwards, it
answers every sequence of calls as the reference does (`standing_of_calls`).

What the changelog holds of a resource *tracks* what stands if it is what stands less some of the
oldest records, all of which have expired (`Tracks`).
-/

set_option autoImplicit false

namespace ChatBot.Changelog

variable {α : Type}

/-! ## Calls -/

/-- A call on a changelog. -/
inductive Call (α : Type) where
  | record (resource actor : String) (change : α)
  | entries (resource : String)
  | last (resource : String)
  | popLast (resource : String)
  | prune
  | clear (resource : String)

/-- What a call answers. How many records a pruning has dropped is not part of it, since that
depends on what is held and not on what stands. -/
inductive Answer (α : Type) where
  | done
  | entries (es : List (ChangeEntry α))
  | entry (e : Option (ChangeEntry α))

namespace Call

/-- The resource that a call is about. -/
def resource? : Call α → Option String
  | record resource _ _ => some resource
  | entries resource => some resource
  | last resource => some resource
  | popLast resource => some resource
  | prune => none
  | clear resource => some resource

/-- What a call answers, and the changelog that it leaves. -/
def perform (now : Nat) (l : Changelog α) : Call α → Answer α × Changelog α
  | record resource actor change => (.done, l.record resource actor change now)
  | entries resource => (.entries (l.entries resource now), l)
  | last resource => (.entry (l.last? resource now), l)
  | popLast resource => (.entry (l.popLast resource now).1, (l.popLast resource now).2)
  | prune => (.done, (l.prune now).2)
  | clear resource => (.done, l.clear resource)

end Call

/-- Carries calls out, each at its time, and gives the answers. -/
def carryOut {σ : Type} (perform : Nat → σ → Call α → Answer α × σ) (s : σ) :
    List (Nat × Call α) → List (Answer α) × σ
  | [] => ([], s)
  | (now, call) :: calls =>
    let (answer, s') := perform now s call
    let (answers, s'') := carryOut perform s' calls
    (answer :: answers, s'')

/-! ## The reference -/

namespace Standing

/-- The records that stay when another comes: if as many are live as are kept, the oldest live one
is evicted. -/
def room (r : Retention) (now : Nat) (entries : List (ChangeEntry α)) : List (ChangeEntry α) :=
  if 0 < r.maxEntries && r.maxEntries ≤ (r.live now entries).length then
    entries.eraseP fun e => !e.isExpired r.maxAge now
  else entries

/-- The records without the latest live one. -/
def withoutLatest (r : Retention) (now : Nat) (entries : List (ChangeEntry α)) :
    List (ChangeEntry α) :=
  (entries.reverse.eraseP fun e => !e.isExpired r.maxAge now).reverse

/-- What a call does to the records that stand, and what it answers from them. -/
def perform (r : Retention) (now : Nat) (s : Timelines α) : Call α → Answer α × Timelines α
  | .record resource actor change =>
    (.done, s.set resource (room r now (s resource) ++ [⟨change, actor, now⟩]))
  | .entries resource => (.entries (r.live now (s resource)), s)
  | .last resource => (.entry (r.live now (s resource)).getLast?, s)
  | .popLast resource =>
    (.entry (r.live now (s resource)).getLast?,
      s.set resource (withoutLatest r now (s resource)))
  | .prune => (.done, s)
  | .clear resource => (.done, s.set resource [])

end Standing

/-! ## One resource -/

/-- What is held of a resource at a time, beside what stands of it. -/
structure Tracks (r : Retention) (now : Nat) (held standing : List (ChangeEntry α)) : Prop where
  dropped : ∃ gone, standing = gone ++ held ∧ ∀ e ∈ gone, e.isExpired r.maxAge now
  timed : Timed now standing
  bounded : 0 < r.maxEntries → held.length ≤ r.maxEntries

namespace Tracks

variable {r : Retention} {now : Nat} {held standing : List (ChangeEntry α)}

/-- Nothing held tracks nothing that stands. -/
theorem nil : Tracks r now ([] : List (ChangeEntry α)) [] :=
  ⟨⟨[], by simp⟩, .nil, by simp⟩

/-- What is held goes on tracking what stands as time goes on. -/
theorem mono (h : Tracks r now held standing) {now' : Nat} (hnow : now ≤ now') :
    Tracks r now' held standing := by
  obtain ⟨gone, hsplit, hgone⟩ := h.dropped
  refine ⟨⟨gone, hsplit, ?_⟩, h.timed.mono hnow, h.bounded⟩
  intro e he
  exact isExpired_mono hnow (hgone e he)

/-- What is held is in the order in which it was recorded. -/
theorem held_ordered (h : Tracks r now held standing) :
    held.Pairwise fun e e' => e.recordedAt ≤ e'.recordedAt := by
  obtain ⟨gone, rfl, -⟩ := h.dropped
  exact (h.timed.sublist (List.sublist_append_right gone held)).ordered

/-- What is held and what stands have the same live entries: those that are not held any more have
expired. -/
theorem live_eq (h : Tracks r now held standing) : r.live now held = r.live now standing := by
  obtain ⟨gone, rfl, hgone⟩ := h.dropped
  rw [live_append, live_eq_nil hgone, List.nil_append]

/-- What stands is what has expired and then what is live. -/
theorem expired_append (h : Tracks r now held standing) :
    ∃ expired, standing = expired ++ r.live now held ∧ ∀ e ∈ expired, e.isExpired r.maxAge now := by
  refine ⟨standing.filter (·.isExpired r.maxAge now), ?_, ?_⟩
  · rw [h.live_eq, expired_append_live h.timed.ordered]
  · intro e he
    exact (List.mem_filter.1 he).2

/-- Pruning drops expired entries only, so what is held still tracks what stands. -/
theorem prune (h : Tracks r now held standing) : Tracks r now (r.live now held) standing := by
  refine ⟨h.expired_append, h.timed, ?_⟩
  intro hpositive
  exact Nat.le_trans (List.length_filter_le ..) (h.bounded hpositive)

/-- A part of what is tracked is tracked in its place. -/
theorem shorten (h : Tracks r now held standing) {held' standing' gone : List (ChangeEntry α)}
    (hsplit : standing' = gone ++ held') (hgone : ∀ e ∈ gone, e.isExpired r.maxAge now)
    (hstanding : standing'.Sublist standing) (hheld : held'.length ≤ held.length) :
    Tracks r now held' standing' := by
  refine ⟨⟨gone, hsplit, hgone⟩, h.timed.sublist hstanding, ?_⟩
  intro hpositive
  exact Nat.le_trans hheld (h.bounded hpositive)

/-- The new record finds its place behind what has been left of the others. -/
theorem snoc (h : Tracks r now held standing) {e : ChangeEntry α} (he : e.recordedAt = now)
    (hroom : 0 < r.maxEntries → held.length < r.maxEntries) :
    Tracks r now (held ++ [e]) (standing ++ [e]) := by
  obtain ⟨gone, rfl, hgone⟩ := h.dropped
  refine ⟨⟨gone, List.append_assoc .., hgone⟩, h.timed.snoc he, ?_⟩
  intro hpositive
  rw [List.length_append, List.length_singleton]
  exact hroom hpositive

/-- Both make room for another record by giving up the same one. -/
theorem room (h : Tracks r now held standing) :
    Tracks r now (trimmed r now held) (Standing.room r now standing) ∧
      (0 < r.maxEntries → (trimmed r now held).length < r.maxEntries) := by
  obtain ⟨expired, hsplit, hexpired⟩ := h.expired_append
  refine ⟨?_, length_trimmed_lt h.held_ordered h.bounded⟩
  rw [trimmed_eq h.held_ordered, Standing.room, ← h.live_eq]
  split
  · -- the oldest live record is the first one after those that have expired
    have herased : (standing.eraseP fun e => !e.isExpired r.maxAge now) =
        expired ++ (r.live now held).tail := by
      rw [hsplit, List.eraseP_append_right _ (by simpa using hexpired)]
      cases hlive : r.live now held with
      | nil => rfl
      | cons e es =>
        have he : e ∈ r.live now held := hlive ▸ List.mem_cons_self
        have hfirst : !e.isExpired r.maxAge now := (List.mem_filter.1 he).2
        simp only [List.eraseP_cons, hfirst, cond_true, List.tail_cons]
    refine h.shorten herased hexpired List.eraseP_sublist ?_
    have hlength : (r.live now held).length ≤ held.length := List.length_filter_le ..
    rw [List.length_tail]
    omega
  · exact h.prune

/-- Recording tracks recording: what trimming drops has expired, or is the oldest live entry, for
which the reference makes room, too. -/
theorem record (h : Tracks r now held standing) (actor : String) (change : α) :
    Tracks r now (trimmed r now held ++ [⟨change, actor, now⟩])
      (Standing.room r now standing ++ [⟨change, actor, now⟩]) :=
  h.room.1.snoc rfl h.room.2

/-- The record at the back, if it is live, is the latest of the live ones. -/
theorem getLast? (h : Tracks r now held standing) :
    (held.getLast?.filter fun e => !e.isExpired r.maxAge now) = (r.live now held).getLast? := by
  have hsplit : held.filter (·.isExpired r.maxAge now) ++ r.live now held = held :=
    expired_append_live h.held_ordered
  cases hlive : (r.live now held).getLast? with
  | some e =>
    have hlast : held.getLast? = some e := by
      rw [← hsplit, List.getLast?_append, hlive, Option.some_or]
    have he := (List.mem_filter.1 (List.mem_of_getLast? hlive)).2
    simp only [hlast, Option.filter_some, he, if_true]
  | none =>
    refine Option.filter_eq_none_iff.2 ?_
    intro e he
    rw [List.getLast?_eq_none_iff.1 hlive, List.append_nil] at hsplit
    rw [← hsplit] at he
    simpa using (List.mem_filter.1 (List.mem_of_getLast? he)).2

/-- Both lose the latest live record, if there is one. -/
theorem popLast (h : Tracks r now held standing) :
    Tracks r now (if (r.live now held).getLast?.isSome then held.dropLast else held)
      (Standing.withoutLatest r now standing) := by
  obtain ⟨gone, hgone, hexpired⟩ := h.dropped
  obtain ⟨expired, hsplit, hexpired'⟩ := h.expired_append
  have hsublist : (Standing.withoutLatest r now standing).Sublist standing := by
    have herase := (List.eraseP_sublist (l := standing.reverse)
      (p := fun e => !e.isExpired r.maxAge now)).reverse
    rwa [List.reverse_reverse] at herase
  cases hlive : (r.live now held).getLast? with
  | none =>
    -- nothing that stands is live, and so nothing is taken out
    have hnone : Standing.withoutLatest r now standing = standing := by
      rw [List.getLast?_eq_none_iff.1 hlive, List.append_nil] at hsplit
      rw [Standing.withoutLatest, List.eraseP_of_forall_not, List.reverse_reverse]
      intro e he
      rw [List.mem_reverse, hsplit] at he
      simpa using hexpired' e he
    rw [hnone]
    exact h
  | some e =>
    -- the latest live record stands at the back, of what is held as of what stands
    have he := (List.mem_filter.1 (List.mem_of_getLast? hlive)).2
    have hlast : held.getLast? = some e := by
      have hback := h.getLast?
      rw [hlive] at hback
      exact (Option.filter_eq_some_iff.1 hback).1
    obtain ⟨front, rfl⟩ := List.getLast?_eq_some_iff.1 hlast
    have hdropped : Standing.withoutLatest r now standing = gone ++ front := by
      have hreverse : standing.reverse = e :: (gone ++ front).reverse := by
        rw [hgone, ← List.append_assoc, List.reverse_append, List.reverse_singleton,
          List.singleton_append]
      rw [Standing.withoutLatest, hreverse]
      simp only [List.eraseP_cons, he, cond_true, List.reverse_reverse]
    rw [Option.isSome_some, if_pos rfl, List.dropLast_concat]
    refine h.shorten hdropped hexpired hsublist ?_
    rw [List.length_append]
    omega

end Tracks

/-! ## All resources -/

/-- What a changelog holds of each resource tracks what stands of it. -/
def Follows (l : Changelog α) (now : Nat) (s : Timelines α) : Prop :=
  ∀ resource, Tracks l.retention now (l.held resource) (s resource)

/-- No call changes the policy. -/
theorem retention_perform (now : Nat) (l : Changelog α) (call : Call α) :
    (call.perform now l).2.retention = l.retention := by
  cases call with
  | popLast resource =>
    change (l.popLast resource now).2.retention = _
    unfold popLast
    split <;> rfl
  | _ => rfl

/-- A call about one resource leaves the others as they are. -/
theorem held_perform_of_ne (now : Nat) (l : Changelog α) {call : Call α} {resource other : String}
    (hcall : call.resource? = some resource) (h : other ≠ resource) :
    (call.perform now l).2.held other = l.held other := by
  cases call with
  | record resource' actor change =>
    cases hcall
    exact held_record_of_ne l h actor change now
  | entries => rfl
  | last => rfl
  | popLast resource' =>
    cases hcall
    exact held_popLast_of_ne l h now
  | prune => cases hcall
  | clear resource' =>
    cases hcall
    exact held_clear_of_ne l h

namespace Follows

variable {l : Changelog α} {now : Nat} {s : Timelines α}

/-- An empty changelog follows records of which there are none. -/
theorem empty (r : Retention) : Follows ⟨r, ∅⟩ now (fun _ => [] : Timelines α) := by
  intro resource
  rw [held_empty]
  exact .nil

/-- A changelog goes on following the records as time goes on. -/
theorem mono (h : Follows l now s) {now' : Nat} (hnow : now ≤ now') : Follows l now' s := by
  intro resource
  exact (h resource).mono hnow

/-- A pruned changelog follows the same records. -/
theorem prune (h : Follows l now s) : Follows (l.prune now).2 now s := by
  intro resource
  rw [held_prune]
  exact (h resource).prune

/-- The entries that are shown of a resource are the live ones of those that stand. -/
theorem entries_eq (h : Follows l now s) (resource : String) :
    l.entries resource now = l.retention.live now (s resource) :=
  (h resource).live_eq

/-- The last entry is the last one of those that are shown. -/
theorem last?_eq (h : Follows l now s) (resource : String) :
    l.last? resource now = (l.entries resource now).getLast? :=
  (h resource).getLast?

/-- A call that changes only what is held of one resource follows the reference if it tracks what
stands of that resource. -/
theorem update {l' : Changelog α} (h : Follows l now s) {resource : String}
    {entries : List (ChangeEntry α)} (hretention : l'.retention = l.retention)
    (hself : Tracks l.retention now (l'.held resource) entries)
    (hothers : ∀ other, other ≠ resource → l'.held other = l.held other) :
    Follows l' now (s.set resource entries) := by
  intro other
  rw [hretention]
  by_cases hother : other = resource
  · rw [hother, Timelines.set_self]
    exact hself
  · rw [Timelines.set_of_ne _ hother, hothers other hother]
    exact h other

/-- One call is answered as the reference answers it, and follows it. -/
theorem perform (h : Follows l now s) (call : Call α) :
    (call.perform now l).1 = (Standing.perform l.retention now s call).1 ∧
      Follows (call.perform now l).2 now (Standing.perform l.retention now s call).2 := by
  cases call with
  | record resource actor change =>
    refine ⟨rfl, h.update rfl ?_ fun other hother => held_record_of_ne l hother actor change now⟩
    change Tracks _ now ((l.record resource actor change now).held resource) _
    rw [held_record]
    exact (h resource).record actor change
  | entries resource => exact ⟨congrArg Answer.entries (h.entries_eq resource), h⟩
  | last resource =>
    refine ⟨congrArg Answer.entry ?_, h⟩
    rw [h.last?_eq, h.entries_eq]
  | popLast resource =>
    have hlast : l.last? resource now = (l.retention.live now (l.held resource)).getLast? :=
      h.last?_eq resource
    refine ⟨congrArg Answer.entry ?_, h.update (retention_perform now l (.popLast resource)) ?_
      fun other hother => held_popLast_of_ne l hother now⟩
    · rw [popLast_fst, hlast, (h resource).live_eq]
    · change Tracks _ now ((l.popLast resource now).2.held resource) _
      rw [held_popLast, hlast]
      exact (h resource).popLast
  | prune => exact ⟨rfl, h.prune⟩
  | clear resource =>
    refine ⟨rfl, h.update rfl ?_ fun other hother => held_clear_of_ne l hother⟩
    change Tracks _ now ((l.clear resource).held resource) _
    rw [held_clear]
    exact .nil

/-- **A changelog answers as if nothing were ever dropped for its age.** -/
theorem carryOut {calls : List (Nat × Call α)} (h : Follows l now s)
    (hclock : (now :: calls.map (·.1)).Pairwise (· ≤ ·)) :
    let run := Changelog.carryOut Call.perform l calls
    let ideal := Changelog.carryOut (Standing.perform l.retention) s calls
    run.1 = ideal.1 ∧ run.2.retention = l.retention ∧
      ∀ now', (∀ t ∈ now :: calls.map (·.1), t ≤ now') → Follows run.2 now' ideal.2 := by
  -- what is followed at the time of one call is still followed at the time of the next
  induction calls generalizing l now s with
  | nil => exact ⟨rfl, rfl, fun now' hnow' => h.mono (hnow' now List.mem_cons_self)⟩
  | cons call calls ih =>
    obtain ⟨time, call⟩ := call
    obtain ⟨hfirst, hrest⟩ := List.pairwise_cons.1 hclock
    have htime : Follows l time s := h.mono (hfirst time List.mem_cons_self)
    obtain ⟨hanswer, hfollows⟩ := htime.perform call
    obtain ⟨hanswers, hretention, hlast⟩ := ih hfollows hrest
    rw [retention_perform] at hanswers hretention hlast
    refine ⟨?_, hretention, ?_⟩
    · simp only [Changelog.carryOut]
      rw [hanswer, hanswers]
    · intro now' hnow'
      exact hlast now' fun t ht => hnow' t (List.mem_cons_of_mem _ ht)

/-- Recording evicts the oldest of the live records, and only when there is no room for another. -/
theorem entries_record (h : Follows l now s) (resource actor : String) (change : α) :
    (l.record resource actor change now).entries resource now =
      (if 0 < l.retention.maxEntries &&
          l.retention.maxEntries ≤ (l.entries resource now).length then
        (l.entries resource now).tail
      else l.entries resource now) ++ [⟨change, actor, now⟩] := by
  have hlive (es : List (ChangeEntry α)) (hes : es.Sublist (l.entries resource now)) :
      l.retention.live now es = es := by
    refine List.filter_eq_self.2 ?_
    intro e he
    exact (List.mem_filter.1 (hes.subset he)).2
  have hnew : l.retention.live now [(⟨change, actor, now⟩ : ChangeEntry α)] =
      [⟨change, actor, now⟩] := by
    simp [Retention.live, ChangeEntry.isExpired]
  rw [entries_eq_live, held_record]
  change l.retention.live now _ = _
  rw [live_append, hnew, trimmed_eq (h resource).held_ordered, ← entries_eq_live]
  split
  · rw [hlive _ (List.tail_sublist _)]
  · rw [hlive _ (List.Sublist.refl _)]

/-- After popping, the same entries are shown without the last one. -/
theorem entries_popLast (h : Follows l now s) (resource : String) :
    (l.popLast resource now).2.entries resource now = (l.entries resource now).dropLast := by
  have hretention : (l.popLast resource now).2.retention = l.retention :=
    retention_perform now l (.popLast resource)
  rw [entries_eq_live, hretention, held_popLast, h.last?_eq, entries_eq_live]
  cases hlast : (l.retention.live now (l.held resource)).getLast? with
  | none =>
    rw [List.getLast?_eq_none_iff] at hlast
    simp [hlast]
  | some e =>
    have hback := (h resource).getLast?
    rw [hlast] at hback
    obtain ⟨hheld, he⟩ := Option.filter_eq_some_iff.1 hback
    obtain ⟨front, hfront⟩ := List.getLast?_eq_some_iff.1 hheld
    have hone : l.retention.live now [e] = [e] := List.filter_eq_self.2 (by simpa using he)
    rw [Option.isSome_some, if_pos rfl, hfront, List.dropLast_concat, live_append, hone,
      List.dropLast_concat]

end Follows

/-- Pruning twice at the same time drops nothing the second time. -/
theorem prune_prune_fst (l : Changelog α) (now : Nat) : ((l.prune now).2.prune now).1 = 0 := by
  have hall (name : String) (h : (l.prune now).2.held name ≠ []) :
      name ∈ (l.prune now).2.logs.toList.map (·.1) := mem_names_of_held_ne_nil h
  rw [prune_fst _ now (l.prune now).2.logs.nodup_names hall, List.countP_eq_zero]
  intro e he
  obtain ⟨name, -, he⟩ := List.mem_flatMap.1 he
  rw [held_prune] at he
  have hlive : !e.isExpired l.retention.maxAge now := (List.mem_filter.1 he).2
  change ¬ e.isExpired l.retention.maxAge now = true
  simpa using hlive

/-- **A changelog is a log of bounded length and age.** From the empty changelog there are any
calls, the clock not going backwards. Then every call is answered from the records that stand: those
that have not been taken out, forgotten or evicted. The entries of a resource are the live ones of
these; the last is the last of them; taking it out gives it and leaves the others; recording evicts
the oldest of them if there are as many as are kept at most, and no other; and never is more held
than that. Pruning counts the records still held that have expired, of whatever resources, and at
the same time again it counts none; it makes no difference to the answers of any later calls. A call
about one resource leaves what is held of every other. -/
theorem standing_of_calls (r : Retention) (calls : List (Nat × Call α)) (now : Nat)
    (hclock : (calls.map (·.1) ++ [now]).Pairwise (· ≤ ·)) :
    let run := carryOut Call.perform ⟨r, ∅⟩ calls
    let ideal := carryOut (Standing.perform r) (fun _ => []) calls
    let l := run.2
    run.1 = ideal.1 ∧
      (∀ resource,
        l.entries resource now = r.live now (ideal.2 resource) ∧
        l.last? resource now = (l.entries resource now).getLast? ∧
        (l.popLast resource now).1 = l.last? resource now ∧
        (l.popLast resource now).2.entries resource now = (l.entries resource now).dropLast ∧
        (∀ actor change, (l.record resource actor change now).entries resource now =
          (if 0 < r.maxEntries && r.maxEntries ≤ (l.entries resource now).length then
            (l.entries resource now).tail
          else l.entries resource now) ++ [⟨change, actor, now⟩]) ∧
        (0 < r.maxEntries → (l.held resource).length ≤ r.maxEntries)) ∧
      (∀ resources : List String, resources.Nodup →
        (∀ resource, l.held resource ≠ [] → resource ∈ resources) →
        (l.prune now).1 = (resources.flatMap l.held).countP (·.isExpired r.maxAge now)) ∧
      ((l.prune now).2.prune now).1 = 0 ∧
      (∀ later : List (Nat × Call α), (now :: later.map (·.1)).Pairwise (· ≤ ·) →
        (carryOut Call.perform (l.prune now).2 later).1 = (carryOut Call.perform l later).1) ∧
      ∀ (call : Call α) (resource other : String), call.resource? = some resource →
        other ≠ resource → (call.perform now l).2.held other = l.held other := by
  intro run ideal l
  obtain ⟨hcalls, -, hlast⟩ := List.pairwise_append.1 hclock
  have hstart : (0 :: calls.map (·.1)).Pairwise (· ≤ ·) :=
    List.pairwise_cons.2 ⟨fun t _ => Nat.zero_le t, hcalls⟩
  have hempty : Follows ⟨r, ∅⟩ 0 (fun _ => [] : Timelines α) := .empty r
  obtain ⟨hanswers, hretention, hfollows⟩ := hempty.carryOut hstart
  have hnow : ∀ t ∈ 0 :: calls.map (·.1), t ≤ now := by
    intro t ht
    rcases List.mem_cons.1 ht with rfl | ht
    · exact Nat.zero_le now
    · exact hlast t ht now (List.mem_singleton.2 rfl)
  have h : Follows l now ideal.2 := hfollows now hnow
  have hr : l.retention = r := hretention
  refine ⟨hanswers, ?_, ?_, prune_prune_fst l now, ?_, ?_⟩
  · intro resource
    refine ⟨hr ▸ h.entries_eq resource, h.last?_eq resource, popLast_fst l resource now,
      h.entries_popLast resource, ?_, hr ▸ (h resource).bounded⟩
    intro actor change
    exact hr ▸ h.entries_record resource actor change
  · intro resources hdistinct hall
    exact hr ▸ prune_fst l now hdistinct hall
  · intro later hlater
    have hpruned : (l.prune now).2.retention = l.retention := rfl
    rw [(h.carryOut hlater).1, (h.prune.carryOut hlater).1, hpruned]
  · intro call resource other hcall hother
    exact held_perform_of_ne now l hcall hother

/-- Three records of gold and one of fame. -/
def purse : List (Nat × Call Nat) :=
  [(0, .record "gold" "alice" 1), (4, .record "gold" "alice" 2), (5, .record "gold" "bob" 3),
    (9, .entries "gold"), (10, .popLast "gold"), (12, .record "fame" "bob" 7)]

/-- Of two records at most and of ten milliseconds, the first gold is evicted, the last is taken out
and the second expires; the fame stays. -/
theorem standing_of_purse :
    (purse.map Prod.fst ++ [15]).Pairwise (· ≤ ·) ∧
      let l := (carryOut Call.perform ⟨⟨10, 2⟩, ∅⟩ purse).2
      (l.entries "gold" 15).map ChangeEntry.change = [] ∧
        (l.entries "fame" 15).map ChangeEntry.change = [7] ∧
        ∀ later : List (Nat × Call Nat), (15 :: later.map (·.1)).Pairwise (· ≤ ·) →
          (carryOut Call.perform (l.prune 15).2 later).1 = (carryOut Call.perform l later).1 := by
  have hclock : (purse.map Prod.fst ++ [15]).Pairwise (· ≤ ·) := by decide
  obtain ⟨-, hentries, -, -, hlater, -⟩ := standing_of_calls ⟨10, 2⟩ purse 15 hclock
  refine ⟨hclock, ?_, ?_, hlater⟩
  · rw [(hentries "gold").1]
    decide
  · rw [(hentries "fame").1]
    decide

end ChatBot.Changelog
