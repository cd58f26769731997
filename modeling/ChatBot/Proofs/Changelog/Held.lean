import ChatBot.Changelog
import ChatBot.Proofs.NameMap

/-!
# What a changelog holds

Each operation on a changelog changes what it holds for one resource, in a way that is said here
once; only pruning reaches all of them. Records of one resource come in the order of their times, so
those that have expired stand before those that are live (`expired_append_live`), and dropping the
expired ones at the front drops all of them.
-/

set_option autoImplicit false

namespace ChatBot

variable {α : Type}

/-- The changes that count at a time. -/
def Retention.live (r : Retention) (now : Nat) (entries : List (ChangeEntry α)) :
    List (ChangeEntry α) :=
  entries.filter fun e => !e.isExpired r.maxAge now

namespace Changelog

/-! ## One resource -/

/-- The entries that are shown of a resource are those held for it that have not expired. -/
theorem entries_eq_live (l : Changelog α) (resource : String) (now : Nat) :
    l.entries resource now = l.retention.live now (l.held resource) := rfl

/-- An empty changelog holds nothing. -/
@[simp] theorem held_empty (r : Retention) (resource : String) :
    (⟨r, ∅⟩ : Changelog α).held resource = [] := by
  simp [held]

/-- A recorded change comes behind what the trimming has left of the ones before. -/
@[simp] theorem held_record (l : Changelog α) (name actor : String) (change : α) (now : Nat) :
    (l.record name actor change now).held name =
      trimmed l.retention now (l.held name) ++ [⟨change, actor, now⟩] := by
  simp [record, held]

/-- Recording a change leaves what is held for other resources. -/
theorem held_record_of_ne (l : Changelog α) {name other : String} (h : other ≠ name)
    (actor : String) (change : α) (now : Nat) :
    (l.record name actor change now).held other = l.held other := by
  simp [record, held, Std.ExtTreeMap.getElem?_insert, h.symm]

/-- Nothing is held for a resource that has been cleared. -/
@[simp] theorem held_clear (l : Changelog α) (name : String) : (l.clear name).held name = [] := by
  simp [clear, held]

/-- Clearing a resource leaves what is held for other ones. -/
theorem held_clear_of_ne (l : Changelog α) {name other : String} (h : other ≠ name) :
    (l.clear name).held other = l.held other := by
  simp [clear, held, Std.ExtTreeMap.getElem?_erase, h.symm]

/-- What is popped is the last live entry. -/
theorem popLast_fst (l : Changelog α) (resource : String) (now : Nat) :
    (l.popLast resource now).1 = l.last? resource now := by
  unfold popLast
  split
  · next h => rw [h]
  · next h => rw [h]

/-- Popping takes away the last entry that is held, unless no entry is live. -/
theorem held_popLast (l : Changelog α) (resource : String) (now : Nat) :
    (l.popLast resource now).2.held resource =
      if (l.last? resource now).isSome then (l.held resource).dropLast else l.held resource := by
  unfold popLast
  split
  · next h => simp [h, held]
  · next h => simp [h]

/-- Popping leaves what is held for other resources. -/
theorem held_popLast_of_ne (l : Changelog α) {resource other : String} (h : other ≠ resource)
    (now : Nat) : (l.popLast resource now).2.held other = l.held other := by
  unfold popLast
  split
  · simp [held, Std.ExtTreeMap.getElem?_insert, h.symm]
  · rfl

/-! ## All resources -/

/-- A resource that has records is listed with them. -/
theorem mem_logs {l : Changelog α} {log : String × List (ChangeEntry α)}
    (h : log ∈ l.logs.toList) : l.held log.1 = log.2 := by
  have hget : l.logs[log.1]? = some log.2 := Std.ExtTreeMap.mem_toList_iff_getElem?_eq_some.1 h
  rw [held, hget, Option.getD_some]

/-- A resource for which something is held is listed. -/
theorem mem_names_of_held_ne_nil {l : Changelog α} {resource : String}
    (h : l.held resource ≠ []) : resource ∈ l.logs.toList.map (·.1) := by
  cases hget : l.logs[resource]? with
  | none => exact absurd (by rw [held, hget, Option.getD_none]) h
  | some log =>
    exact List.mem_map.2 ⟨(resource, log),
      Std.ExtTreeMap.mem_toList_iff_getElem?_eq_some.2 hget, rfl⟩

/-- Pruning drops what has expired, of every resource. -/
theorem held_prune (l : Changelog α) (now : Nat) (resource : String) :
    (l.prune now).2.held resource = l.retention.live now (l.held resource) := by
  let live := l.logs.toList.map fun log => (log.1, l.retention.live now log.2)
  let kept := live.filter fun log => !log.2.isEmpty
  have hlogs : (l.prune now).2.logs = NameMap.ofList kept := rfl
  have hdistinct : (kept.map (·.1)).Nodup := by
    have hnames : (live.map (·.1)).Nodup := by
      rw [List.map_map]
      exact l.logs.nodup_names
    exact hnames.sublist (List.filter_sublist.map _)
  have hkept (es : List (ChangeEntry α)) : (NameMap.ofList kept)[resource]? = some es ↔
      ∃ log, l.logs[resource]? = some log ∧ es = l.retention.live now log ∧ es ≠ [] := by
    rw [NameMap.getElem?_ofList hdistinct]
    simp only [kept, live, List.mem_filter, List.mem_map, Prod.mk.injEq, Bool.not_eq_true',
      List.isEmpty_eq_false_iff]
    constructor
    · rintro ⟨⟨⟨_, log⟩, hlog, rfl, rfl⟩, hne⟩
      exact ⟨log, Std.ExtTreeMap.mem_toList_iff_getElem?_eq_some.1 hlog, rfl, hne⟩
    · rintro ⟨log, hlog, rfl, hne⟩
      exact ⟨⟨⟨_, log⟩, Std.ExtTreeMap.mem_toList_iff_getElem?_eq_some.2 hlog, rfl, rfl⟩, hne⟩
  rw [held, hlogs]
  cases hget : (NameMap.ofList kept)[resource]? with
  | some es =>
    obtain ⟨log, hlog, rfl, -⟩ := (hkept es).1 hget
    rw [held, hlog, Option.getD_some, Option.getD_some]
  | none =>
    cases hlog : l.logs[resource]? with
    | none => simp [held, hlog, Retention.live]
    | some log =>
      -- what is not kept had nothing that was live
      rw [held, hlog, Option.getD_some, Option.getD_none]
      cases hlive : l.retention.live now log with
      | nil => rfl
      | cons e es =>
        have hsome := (hkept (e :: es)).2 ⟨log, hlog, hlive.symm, List.cons_ne_nil e es⟩
        rw [hget] at hsome
        cases hsome

/-- All that is held, found by a list of names without repetition that misses no resource with
records. -/
theorem perm_flatMap_held (l : Changelog α) {names : List String} (hnames : names.Nodup)
    (hall : ∀ name, l.held name ≠ [] → name ∈ names) :
    (names.flatMap l.held).Perm l.logs.values.flatten := by
  let taken := fun name => !(l.held name).isEmpty
  have htaken (names : List String) :
      (names.filter taken).flatMap l.held = names.flatMap l.held := by
    induction names with
    | nil => rfl
    | cons name names ih =>
      rw [List.filter_cons, List.flatMap_cons, ← ih]
      cases hheld : l.held name <;> simp [taken, hheld]
  have hvalues : (l.logs.toList.map (·.1)).flatMap l.held = l.logs.values.flatten := by
    rw [NameMap.values, List.flatMap_def, List.map_map]
    refine congrArg List.flatten (List.map_congr_left ?_)
    intro log hlog
    exact mem_logs hlog
  have hperm : (names.filter taken).Perm ((l.logs.toList.map (·.1)).filter taken) := by
    refine (List.perm_ext_iff_of_nodup (hnames.sublist List.filter_sublist)
      (l.logs.nodup_names.sublist List.filter_sublist)).2 ?_
    intro name
    simp only [List.mem_filter, taken, Bool.not_eq_true', List.isEmpty_eq_false_iff,
      and_congr_left_iff]
    intro hheld
    exact iff_of_true (hall name hheld) (mem_names_of_held_ne_nil hheld)
  rw [← htaken, ← hvalues, ← htaken (l.logs.toList.map (·.1))]
  exact hperm.flatMap_right l.held

/-- Pruning says how many of the records that are held have expired. -/
theorem prune_fst (l : Changelog α) (now : Nat) {names : List String} (hnames : names.Nodup)
    (hall : ∀ name, l.held name ≠ [] → name ∈ names) :
    (l.prune now).1 = (names.flatMap l.held).countP (·.isExpired l.retention.maxAge now) := by
  rw [(perm_flatMap_held l hnames hall).countP_eq, List.countP_eq_length_filter,
    List.filter_flatten, ← List.flatMap_def]
  rfl

/-! ## Records in the order of their times -/

/-- Whatever was recorded before an expired entry has expired, too. -/
theorem isExpired_of_le {maxAge now : Nat} {e e' : ChangeEntry α}
    (h : e.recordedAt ≤ e'.recordedAt) (hexpired : e'.isExpired maxAge now) :
    e.isExpired maxAge now := by
  simp only [ChangeEntry.isExpired, decide_eq_true_eq] at hexpired ⊢
  omega

/-- An entry that has expired stays expired. -/
theorem isExpired_mono {maxAge now now' : Nat} (h : now ≤ now') {e : ChangeEntry α}
    (hexpired : e.isExpired maxAge now) : e.isExpired maxAge now' := by
  simp only [ChangeEntry.isExpired, decide_eq_true_eq] at hexpired ⊢
  omega

variable {r : Retention} {now : Nat} {entries : List (ChangeEntry α)}

/-- Of two stretches of entries, those of each that are live stay. -/
theorem live_append (es es' : List (ChangeEntry α)) :
    r.live now (es ++ es') = r.live now es ++ r.live now es' :=
  List.filter_append ..

/-- Nothing is live where everything has expired. -/
theorem live_eq_nil (h : ∀ e ∈ entries, e.isExpired r.maxAge now) : r.live now entries = [] := by
  refine List.filter_eq_nil_iff.2 ?_
  intro e he
  simp [h e he]

/-- If the entries are in order and the first of them is live, all are. -/
theorem live_cons {e : ChangeEntry α}
    (h : (e :: entries).Pairwise fun e e' => e.recordedAt ≤ e'.recordedAt)
    (hlive : e.isExpired r.maxAge now = false) :
    ∀ e' ∈ e :: entries, !e'.isExpired r.maxAge now := by
  intro e' he'
  have hle : e.recordedAt ≤ e'.recordedAt := by
    rcases List.mem_cons.1 he' with rfl | he'
    · exact Nat.le_refl _
    · exact (List.pairwise_cons.1 h).1 e' he'
  rw [Bool.not_eq_true', Bool.eq_false_iff]
  intro hlate
  simp [isExpired_of_le hle hlate] at hlive

/-- Of records in the order of their times, the live ones come last. -/
theorem expired_append_live (h : entries.Pairwise fun e e' => e.recordedAt ≤ e'.recordedAt) :
    entries.filter (·.isExpired r.maxAge now) ++ r.live now entries = entries := by
  induction entries with
  | nil => rfl
  | cons e entries ih =>
    cases hexpired : e.isExpired r.maxAge now with
    | true =>
      rw [Retention.live, List.filter_cons_of_pos hexpired,
        List.filter_cons_of_neg (by simp [hexpired])]
      exact congrArg (e :: ·) (ih (List.pairwise_cons.1 h).2)
    | false =>
      have hall := live_cons h hexpired
      rw [Retention.live, List.filter_eq_self.2 hall, List.filter_eq_nil_iff.2, List.nil_append]
      intro e' he'
      simpa using hall e' he'

/-- Of changes in the order of their times, the latest count. -/
theorem live_suffix (maxAge now : Nat) {entries : List (ChangeEntry α)}
    (h : entries.Pairwise fun e e' => e.recordedAt ≤ e'.recordedAt) :
    (entries.filter fun e => !e.isExpired maxAge now) <:+ entries :=
  ⟨_, expired_append_live (r := { maxAge }) h⟩

/-- If the entries are in order, it is at their front that the expired ones are. -/
theorem dropWhile_isExpired (h : entries.Pairwise fun e e' => e.recordedAt ≤ e'.recordedAt) :
    entries.dropWhile (·.isExpired r.maxAge now) = r.live now entries := by
  induction entries with
  | nil => rfl
  | cons e entries ih =>
    cases hexpired : e.isExpired r.maxAge now with
    | true =>
      rw [Retention.live, List.dropWhile_cons_of_pos hexpired,
        List.filter_cons_of_neg (by simp [hexpired])]
      exact ih (List.pairwise_cons.1 h).2
    | false =>
      rw [Retention.live, List.dropWhile_cons_of_neg (by simp [hexpired]),
        List.filter_eq_self.2 (live_cons h hexpired)]

/-- Recording makes room by dropping what has expired, and then the oldest record if all the room is
taken. -/
theorem trimmed_eq (h : entries.Pairwise fun e e' => e.recordedAt ≤ e'.recordedAt) :
    trimmed r now entries =
      if 0 < r.maxEntries && r.maxEntries ≤ (r.live now entries).length then
        (r.live now entries).tail
      else r.live now entries := by
  rw [trimmed, dropWhile_isExpired h, List.drop_one]

/-- Trimming makes room for one more entry where their number is bounded. -/
theorem length_trimmed_lt (h : entries.Pairwise fun e e' => e.recordedAt ≤ e'.recordedAt)
    (hbounded : 0 < r.maxEntries → entries.length ≤ r.maxEntries) (hpositive : 0 < r.maxEntries) :
    (trimmed r now entries).length < r.maxEntries := by
  have hlive : (r.live now entries).length ≤ r.maxEntries :=
    Nat.le_trans (List.length_filter_le ..) (hbounded hpositive)
  rw [trimmed_eq h]
  split
  · rw [List.length_tail]
    omega
  · next hroom =>
    simpa [hpositive] using hroom

/-- Only the oldest changes are dropped when another is recorded. -/
theorem trimmed_suffix (r : Retention) (now : Nat) (entries : List (ChangeEntry α)) :
    trimmed r now entries <:+ entries := by
  have hlive := List.dropWhile_suffix (l := entries) (·.isExpired r.maxAge now)
  unfold trimmed
  dsimp only
  split
  · exact (List.drop_suffix _ _).trans hlive
  · exact hlive

/-- Records in the order of their times, none of them later than now. -/
structure Timed (now : Nat) (entries : List (ChangeEntry α)) : Prop where
  ordered : entries.Pairwise fun e e' => e.recordedAt ≤ e'.recordedAt
  past : ∀ e ∈ entries, e.recordedAt ≤ now

namespace Timed

/-- No entries are in order. -/
theorem nil : Timed now ([] : List (ChangeEntry α)) :=
  ⟨.nil, by simp⟩

/-- What was in order at a time is in order at a later time. -/
theorem mono (h : Timed now entries) {now' : Nat} (hnow : now ≤ now') : Timed now' entries := by
  refine ⟨h.ordered, ?_⟩
  intro e he
  exact Nat.le_trans (h.past e he) hnow

/-- Entries stay in order when some of them are taken out. -/
theorem sublist (h : Timed now entries) {es : List (ChangeEntry α)} (hes : es.Sublist entries) :
    Timed now es := by
  refine ⟨h.ordered.sublist hes, ?_⟩
  intro e he
  exact h.past e (hes.subset he)

/-- Entries stay in order when one that is recorded now comes behind them. -/
theorem snoc (h : Timed now entries) {e : ChangeEntry α} (he : e.recordedAt = now) :
    Timed now (entries ++ [e]) := by
  refine ⟨List.pairwise_append.2 ⟨h.ordered, List.pairwise_singleton _ _, ?_⟩, ?_⟩
  · intro e' he' e'' he''
    rw [List.mem_singleton.1 he'', he]
    exact h.past e' he'
  · intro e' he'
    rcases List.mem_append.1 he' with he' | he'
    · exact h.past e' he'
    · have hlast : e' = e := List.mem_singleton.1 he'
      exact Nat.le_of_eq (hlast ▸ he)

end Timed

/-! ## Records by resource -/

/-- Records of each resource, oldest first. -/
abbrev Timelines (α : Type) : Type :=
  String → List (ChangeEntry α)

namespace Timelines

/-- The records with others in the place of those of a resource. -/
def set (s : Timelines α) (resource : String) (entries : List (ChangeEntry α)) : Timelines α :=
  fun other => if other = resource then entries else s other

/-- The records that are set for a resource are its records. -/
@[simp] theorem set_self (s : Timelines α) (resource : String) (entries : List (ChangeEntry α)) :
    s.set resource entries resource = entries := by
  simp [set]

/-- Setting the records of a resource leaves those of the others. -/
theorem set_of_ne (s : Timelines α) {resource other : String} (h : other ≠ resource)
    (entries : List (ChangeEntry α)) : s.set resource entries other = s other := by
  simp [set, h]

end Timelines

end Changelog

end ChatBot
