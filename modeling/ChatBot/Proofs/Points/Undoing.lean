import ChatBot.Proofs.Points.Calls

/-!
# Undoing what was charged and credited

The balances and the history are kept apart, and the history is bounded, so that undoing takes back
the right changes only as long as the latest records of a user are still held, in their order. Here
is why they are: a record drops others at the front alone, and only those that have expired or that
there is no room for. So, as long as there is room for them and none of them expires, the changes of
a user that are to be undone form a stack at the end of what is held of the user (`Stacked`). A
charge or a credit that succeeds pushes one record, an undone change takes one off, and what others
do leaves the stack alone.

Main statement: any number of changes are taken back by as many calls, in the opposite order, and
the balance is then what it was (`restored_of_roundTrip`). None of these calls panics, since taking
a change back leads to the balance that there was before it.
-/

set_option autoImplicit false

namespace ChatBot

namespace Changelog

variable {α : Type} {r : Retention} {now : Nat} {e : ChangeEntry α} {es : List (ChangeEntry α)}

/-- A change counts as long as it is no older than changes may be. -/
theorem isExpired_eq_false_iff {maxAge : Nat} :
    e.isExpired maxAge now = false ↔ now ≤ e.recordedAt + maxAge := by
  rw [ChangeEntry.isExpired, decide_eq_false_iff_not]
  omega

/-- The latest records stay when another is made, if none of them has expired and there is room for
one more. -/
theorem trimmed_append (older : List (ChangeEntry α))
    (hlive : ∀ e ∈ es, e.isExpired r.maxAge now = false)
    (hroom : 0 < r.maxEntries → es.length < r.maxEntries) :
    ∃ older', trimmed r now (older ++ es) = older' ++ es := by
  have hes : es.dropWhile (·.isExpired r.maxAge now) = es := by
    cases es with
    | nil => rfl
    | cons e es => exact List.dropWhile_cons_of_neg (by simp [hlive e List.mem_cons_self])
  have hdropped : (older ++ es).dropWhile (·.isExpired r.maxAge now) =
      older.dropWhile (·.isExpired r.maxAge now) ++ es := by
    rw [List.dropWhile_append, hes]
    split
    · next hempty => rw [List.isEmpty_iff.1 hempty, List.nil_append]
    · rfl
  rw [trimmed, hdropped]
  cases older.dropWhile (·.isExpired r.maxAge now) with
  | nil =>
    have hfree : ¬(0 < r.maxEntries && r.maxEntries ≤ es.length) = true := by
      simp only [Bool.and_eq_true, decide_eq_true_eq]
      intro hfull
      have hless := hroom hfull.1
      omega
    exact ⟨[], if_neg hfree⟩
  | cons first rest =>
    split
    · exact ⟨rest, rfl⟩
    · exact ⟨first :: rest, rfl⟩

/-- The latest change is found if it has not expired. -/
theorem last?_of_held {l : Changelog α} {resource : String} {older : List (ChangeEntry α)}
    (hheld : l.held resource = older ++ [e]) (hlive : e.isExpired l.retention.maxAge now = false) :
    l.last? resource now = some e := by
  rw [last?, hheld, List.getLast?_concat, Option.filter_some, hlive]
  rfl

/-- Where no change counts there is no latest one. -/
theorem last?_of_entries_eq_nil {l : Changelog α} {resource : String}
    (h : l.entries resource now = []) : l.last? resource now = none := by
  rw [last?, Option.filter_eq_none_iff]
  intro e he
  exact List.filter_eq_nil_iff.1 h e (List.mem_of_getLast? he)

end Changelog

namespace Points

open Stepwise

variable {ε : Type}

/-! ## The account of one user -/

/-- What a charge or a credit that has succeeded has changed the balance by. -/
def Carried.delta? (c : Carried) : Option Int64 :=
  match c.call, c.answer with
  | .charge _ amount _, .charged (.ok true) => some (-amount)
  | .credit _ amount _, .credited (.ok _) => some amount
  | _, _ => none

/-- The state that calls leave, each of them carried out at its time. -/
def leave (w : World ε) : List (Nat × Call) → World ε
  | [] => w
  | (now, call) :: calls => leave (call.program.run { w with clock := now }).2 calls

/-- The calls for a user among others. -/
def callsFor (user : String) (calls : List (Nat × Call)) : List (Nat × Call) :=
  calls.filter fun c => c.2.user = user

/-- What has been carried out for a user. -/
def carriedFor (user : String) (run : List Carried) : List Carried :=
  run.filter fun c => c.call.user = user

/-- The balance with changes taken back, the latest first, unless that leads to what is
no amount. -/
def unwound (balance : Int64) (es : List (ChangeEntry Int64)) : Option Int64 :=
  es.foldr (fun e b => b.bind fun b => amount? (b.toInt - e.change.toInt)) (some balance)

/-- The latest records of a user are these, and taking them back would leave this balance. -/
structure Stacked (l : PointsLedger) (user : String) (base : Int64)
    (es : List (ChangeEntry Int64)) : Prop where
  held : ∃ older, l.history.held user = older ++ es
  balance : unwound (l.balance user) es = some base

/-- Of several changes the last one is taken back first. -/
theorem unwound_concat (balance : Int64) (es : List (ChangeEntry Int64)) (e : ChangeEntry Int64) :
    unwound balance (es ++ [e]) =
      (amount? (balance.toInt - e.change.toInt)).bind fun rest => unwound rest es := by
  rw [unwound, List.foldr_append]
  change es.foldr _ (amount? (balance.toInt - e.change.toInt)) = _
  cases amount? (balance.toInt - e.change.toInt) with
  | some rest => rfl
  | none =>
    rw [Option.bind_none]
    induction es with
    | nil => rfl
    | cons e' es ih => rw [List.foldr_cons, ih, Option.bind_none]

/-- No call changes how long changes are kept. -/
theorem Call.retention_perform (c : Call) (now : Nat) (l : PointsLedger) :
    (c.perform now l).2.history.retention = l.history.retention := by
  cases c with
  | setBalance => rfl
  | charge =>
    simp only [perform]
    split
    · rfl
    · split <;> rfl
  | credit =>
    simp only [perform]
    split
    · rfl
    · split <;> rfl
  | undoLast user =>
    have hpopped : (l.history.popLast user now).2.retention = l.history.retention := by
      rw [Changelog.popLast]
      split <;> rfl
    simp only [perform]
    split
    · rfl
    · split <;> exact hpopped

/-- What a charge or a credit that succeeds does to the account. -/
theorem Call.perform_of_delta? {c : Call} {now : Nat} {l : PointsLedger} {delta : Int64}
    (h : Carried.delta? ⟨c, now, l, (c.perform now l).1, (c.perform now l).2⟩ = some delta) :
    ∃ actor sum, sum.toInt = (l.balance c.user).toInt + delta.toInt ∧
      (c.perform now l).2 = (l.setBalance c.user sum).note c.user actor delta now := by
  cases c with
  | setBalance => cases h
  | undoLast user =>
    simp only [perform] at h
    split at h
    · cases h
    · split at h <;> cases h
  | charge user amount actor =>
    simp only [perform] at h ⊢
    split at h
    · cases h
    · next hvalid =>
      split at h
      · cases h
      · next hcovered =>
        cases h
        rw [if_neg hvalid, if_neg hcovered]
        refine ⟨actor, _, ?_, rfl⟩
        rw [Int64.toInt_sub_of_le _ _ (Int64.not_lt.1 hvalid) (Int64.not_lt.1 hcovered),
          toInt_neg_of_nonneg (Int64.not_lt.1 hvalid), Int.sub_eq_add_neg]
        rfl
  | credit user amount actor =>
    simp only [perform] at h ⊢
    split at h
    · cases h
    · next hvalid =>
      rw [if_neg hvalid]
      cases hsum : amount? ((l.balance user).toInt + amount.toInt) with
      | none =>
        rw [hsum] at h
        cases h
      | some sum =>
        rw [hsum] at h
        cases h
        exact ⟨actor, sum, amount?_eq_some_iff.1 hsum, rfl⟩

section Stacked

variable {l : PointsLedger} {user : String} {base : Int64} {es : List (ChangeEntry Int64)}
  {now : Nat} {c : Call}

/-- No records, taken back, leave the balance as it is. -/
theorem Stacked.start (l : PointsLedger) (user : String) : Stacked l user (l.balance user) [] :=
  ⟨⟨l.history.held user, (List.append_nil _).symm⟩, rfl⟩

/-- Calls for others leave the stack alone. -/
theorem Stacked.elsewhere (h : Stacked l user base es) (hother : user ≠ c.user) (now : Nat) :
    Stacked (c.perform now l).2 user base es := by
  obtain ⟨hbalance, hheld⟩ := c.others_perform now l hother
  refine ⟨?_, ?_⟩
  · rw [hheld]
    exact h.held
  · rw [hbalance]
    exact h.balance

/-- A charge or a credit that succeeds puts its record on the stack. -/
theorem Stacked.push (h : Stacked l c.user base es)
    (hlive : ∀ e ∈ es, e.isExpired l.history.retention.maxAge now = false)
    (hroom : 0 < l.history.retention.maxEntries → es.length < l.history.retention.maxEntries)
    {delta : Int64}
    (hdelta : Carried.delta? ⟨c, now, l, (c.perform now l).1, (c.perform now l).2⟩ = some delta) :
    ∃ e : ChangeEntry Int64, e.change = delta ∧ e.recordedAt = now ∧
      Stacked (c.perform now l).2 c.user base (es ++ [e]) := by
  obtain ⟨actor, sum, hsum, hperform⟩ := Call.perform_of_delta? hdelta
  obtain ⟨older, hheld⟩ := h.held
  obtain ⟨older', htrimmed⟩ := Changelog.trimmed_append older hlive hroom
  refine ⟨⟨delta, actor, now⟩, rfl, rfl, ⟨older', ?_⟩, ?_⟩
  · have hnoted : (c.perform now l).2.history.held c.user =
        Changelog.trimmed l.history.retention now (l.history.held c.user) ++
          [⟨delta, actor, now⟩] := by
      rw [hperform]
      exact Changelog.held_record ..
    rw [hnoted, hheld, htrimmed, List.append_assoc]
  · have hbalance : (c.perform now l).2.balance c.user = sum := by
      rw [hperform]
      exact (balance_setBalance l c.user c.user _).trans (if_pos rfl)
    have hback : amount? (sum.toInt - delta.toInt) = some (l.balance c.user) := by
      rw [amount?_eq_some_iff, hsum, Int.add_sub_cancel]
    rw [unwound_concat, hbalance, hback, Option.bind_some]
    exact h.balance

/-- An undone change is the topmost one, and it is taken off the stack. -/
theorem Stacked.pop {e : ChangeEntry Int64} (h : Stacked l user base (es ++ [e]))
    (hlive : e.isExpired l.history.retention.maxAge now = false) :
    (Call.perform now l (.undoLast user)).1 = .undone (some e.change) ∧
      Stacked (Call.perform now l (.undoLast user)).2 user base es := by
  obtain ⟨older, hheld⟩ := h.held
  rw [← List.append_assoc] at hheld
  have hlast := Changelog.last?_of_held hheld hlive
  have hbalance := h.balance
  rw [unwound_concat] at hbalance
  obtain ⟨rest, hrest, hbase⟩ := Option.bind_eq_some_iff.1 hbalance
  simp only [Call.perform, hlast, hrest]
  refine ⟨trivial, ⟨older, ?_⟩, ?_⟩
  · show (l.history.popLast user now).2.held user = older ++ es
    rw [Changelog.held_popLast, hlast, Option.isSome_some, if_pos rfl, hheld, List.dropLast_concat]
  · rw [balance_setBalance, if_pos rfl]
    exact hbase

end Stacked

/-! ## Runs of calls -/

section Runs

variable {w : World ε} {user : String} {base : Int64} {es : List (ChangeEntry Int64)}
  {now : Nat} {c : Call} {calls : List (Nat × Call)}

/-- Calls leave what the later ones leave behind the first. -/
theorem leave_cons :
    leave w ((now, c) :: calls) =
      leave { w with clock := now, ledger := (c.perform now w.ledger).2 } calls := by
  rw [leave, Call.run_program]

/-- A call for the user is among the calls for this user. -/
theorem callsFor_cons_of_eq (h : c.user = user) :
    callsFor user ((now, c) :: calls) = (now, c) :: callsFor user calls :=
  List.filter_cons_of_pos (by simpa using h)

/-- A call for somebody else is not among the calls for the user. -/
theorem callsFor_cons_of_ne (h : c.user ≠ user) :
    callsFor user ((now, c) :: calls) = callsFor user calls :=
  List.filter_cons_of_neg (by simpa using h)

/-- What is carried out for the user is among what was carried out for this user. -/
theorem carriedFor_cons_of_eq {c : Carried} {run : List Carried} (h : c.call.user = user) :
    carriedFor user (c :: run) = c :: carriedFor user run :=
  List.filter_cons_of_pos (by simpa using h)

/-- What is carried out for somebody else is not among what was carried out for the user. -/
theorem carriedFor_cons_of_ne {c : Carried} {run : List Carried} (h : c.call.user ≠ user) :
    carriedFor user (c :: run) = carriedFor user run :=
  List.filter_cons_of_neg (by simpa using h)

/-- None of these times is later than one before it by more than the age that changes may have. -/
def WithinWindow (r : Retention) (times : List Nat) : Prop :=
  times.Pairwise fun t t' => t' ≤ t + r.maxAge

/-- Within the window no record has expired. -/
theorem WithinWindow.live {r : Retention} {t : Nat} {times : List Nat}
    (h : WithinWindow r (es.map (·.recordedAt) ++ t :: times)) :
    ∀ e ∈ es, e.isExpired r.maxAge t = false := by
  intro e he
  rw [Changelog.isExpired_eq_false_iff]
  have hlater := (List.pairwise_append.1 h).2.2
  exact hlater e.recordedAt (List.mem_map_of_mem he) t List.mem_cons_self

/-- The changes of a user that succeed, among any calls for others, are stacked in their order. -/
theorem Stacked.changed (h : Stacked w.ledger user base es)
    (hsucceed : ∀ c ∈ carriedFor user (carryOut w calls), c.delta?.isSome)
    (hroom : 0 < w.ledger.history.retention.maxEntries →
      es.length + (callsFor user calls).length ≤ w.ledger.history.retention.maxEntries)
    (hwindow : WithinWindow w.ledger.history.retention
      (es.map (·.recordedAt) ++ (callsFor user calls).map (·.1))) :
    ∃ more, Stacked (leave w calls).ledger user base (es ++ more) ∧
      (carriedFor user (carryOut w calls)).map (·.delta?) = more.map (fun e => some e.change) ∧
      more.map (·.recordedAt) = (callsFor user calls).map (·.1) := by
  -- the stack grows on the way, so room and window are asked of it together with the calls to come
  induction calls generalizing w es with
  | nil =>
    refine ⟨[], ?_, rfl, rfl⟩
    rw [List.append_nil]
    exact h
  | cons first calls ih =>
    obtain ⟨now, c⟩ := first
    let v : World ε := { w with clock := now, ledger := (c.perform now w.ledger).2 }
    have hretention : v.ledger.history.retention = w.ledger.history.retention :=
      c.retention_perform now w.ledger
    rw [carryOut_cons] at hsucceed ⊢
    rw [leave_cons]
    by_cases hown : c.user = user
    · rw [callsFor_cons_of_eq hown] at hroom hwindow ⊢
      rw [carriedFor_cons_of_eq hown] at hsucceed ⊢
      rw [List.length_cons] at hroom
      obtain ⟨hfirst, hrest⟩ := List.forall_mem_cons.1 hsucceed
      obtain ⟨delta, hdelta⟩ := Option.isSome_iff_exists.1 hfirst
      obtain ⟨e, hchange, htime, hpushed⟩ : ∃ e : ChangeEntry Int64, e.change = delta ∧
          e.recordedAt = now ∧ Stacked v.ledger user base (es ++ [e]) := by
        subst hown
        refine h.push hwindow.live (fun hpositive => ?_) hdelta
        have hfits := hroom hpositive
        omega
      have hroom' : 0 < v.ledger.history.retention.maxEntries →
          (es ++ [e]).length + (callsFor user calls).length ≤
            v.ledger.history.retention.maxEntries := by
        rw [hretention, List.length_append, List.length_singleton]
        intro hpositive
        have hfits := hroom hpositive
        omega
      have hwindow' : WithinWindow v.ledger.history.retention
          ((es ++ [e]).map (·.recordedAt) ++ (callsFor user calls).map (·.1)) := by
        rw [hretention, List.map_append, List.append_assoc, List.map_singleton, htime]
        exact hwindow
      obtain ⟨more, hstacked, hdeltas, htimes⟩ := ih hpushed hrest hroom' hwindow'
      refine ⟨e :: more, ?_, ?_, ?_⟩
      · rw [List.append_cons]
        exact hstacked
      · rw [List.map_cons, hdelta, List.map_cons, hchange, ← hdeltas]
      · rw [List.map_cons, htime, htimes, List.map_cons]
    · rw [callsFor_cons_of_ne hown] at hroom hwindow ⊢
      rw [carriedFor_cons_of_ne hown] at hsucceed ⊢
      rw [← hretention] at hroom hwindow
      exact ih (h.elsewhere (Ne.symm hown) now) hsucceed hroom hwindow

/-- As many undone changes as are stacked, among any calls for others, take the stack down. -/
theorem Stacked.undone (h : Stacked w.ledger user base es)
    (hundone : ∀ c ∈ callsFor user calls, c.2 = .undoLast user)
    (hlength : (callsFor user calls).length = es.length)
    (hwindow : WithinWindow w.ledger.history.retention
      (es.map (·.recordedAt) ++ (callsFor user calls).map (·.1))) :
    (carriedFor user (carryOut w calls)).map (·.answer) =
        es.reverse.map (fun e => .undone (some e.change)) ∧
      (leave w calls).ledger.balance user = base := by
  induction calls generalizing w es with
  | nil =>
    obtain rfl : es = [] := List.length_eq_zero_iff.1 hlength.symm
    exact ⟨rfl, Option.some.inj h.balance⟩
  | cons first calls ih =>
    obtain ⟨now, c⟩ := first
    let v : World ε := { w with clock := now, ledger := (c.perform now w.ledger).2 }
    have hretention : v.ledger.history.retention = w.ledger.history.retention :=
      c.retention_perform now w.ledger
    rw [carryOut_cons, leave_cons]
    by_cases hown : c.user = user
    · rw [callsFor_cons_of_eq hown] at hundone hlength hwindow
      rw [carriedFor_cons_of_eq hown]
      obtain ⟨hfirst, hrest⟩ := List.forall_mem_cons.1 hundone
      obtain rfl : c = .undoLast user := hfirst
      -- what is undone is the change on top of the stack
      cases es using List.reverseRecOn with
      | nil => cases hlength
      | append_singleton es e _ =>
        obtain ⟨hanswer, hpopped⟩ := h.pop (hwindow.live e (by simp))
        rw [List.length_cons, List.length_append, List.length_singleton] at hlength
        have hwindow' : WithinWindow v.ledger.history.retention
            (es.map (·.recordedAt) ++ (callsFor user calls).map (·.1)) := by
          rw [hretention]
          refine hwindow.sublist ?_
          rw [List.map_append, List.append_assoc]
          exact (List.Sublist.refl _).append (by simp)
        obtain ⟨hanswers, hbalance⟩ := ih (w := v) hpopped hrest (by omega) hwindow'
        refine ⟨?_, hbalance⟩
        rw [List.map_cons, hanswer, List.reverse_concat, List.map_cons, ← hanswers]
    · rw [callsFor_cons_of_ne hown] at hundone hlength hwindow
      rw [carriedFor_cons_of_ne hown]
      rw [← hretention] at hwindow
      exact ih (h.elsewhere (Ne.symm hown) now) hundone hlength hwindow

/-- Charges and credits of a user that succeed, with any calls for others among them, and after them
as many calls that undo the user's latest change, again with any calls for others among them. There
is room for the changes, and none of them expires on the way. -/
structure RoundTrip (w : World ε) (user : String) (changes undos : List (Nat × Call)) : Prop where
  succeed : ∀ c ∈ carriedFor user (carryOut w changes), c.delta?.isSome
  undo : ∀ c ∈ callsFor user undos, c.2 = .undoLast user
  even : (callsFor user undos).length = (callsFor user changes).length
  room : w.ledger.history.retention.maxEntries = 0 ∨
    (callsFor user changes).length ≤ w.ledger.history.retention.maxEntries
  window : WithinWindow w.ledger.history.retention
    ((callsFor user changes ++ callsFor user undos).map (·.1))

/-- The history is kept by the same policy all the time. -/
theorem retention_leave (w : World ε) (calls : List (Nat × Call)) :
    (leave w calls).ledger.history.retention = w.ledger.history.retention := by
  induction calls generalizing w with
  | nil => rfl
  | cons first calls ih =>
    obtain ⟨now, c⟩ := first
    rw [leave_cons, ih]
    exact c.retention_perform now w.ledger

/-- Undoing does nothing where no change counts any more. -/
theorem run_undoLast_of_changes_eq_nil {v : World ε} (h : v.ledger.changes user v.clock = []) :
    (undoLast user).run v = (.returned none, v) := by
  have hlast : v.ledger.history.last? user v.clock = none := Changelog.last?_of_entries_eq_nil h
  simp only [undoLast, PointsLedger.popChange, Changelog.popLast, hlast, bind_eq, run_bind, run_act]
  rfl

/-- **Undoing is an exact inverse.** However the ledger stands and whatever is called for others
meanwhile, as many undone changes as there were charges and credits

* answer what these have changed the balance by, the latest first;
* leave the balance that there was before them;
* touch neither the balance nor the history of anybody else;

and undoing does nothing where no change counts any more. -/
theorem restored_of_roundTrip {changes undos : List (Nat × Call)}
    (h : RoundTrip w user changes undos) :
    let changed := carriedFor user (carryOut w changes)
    let undone := carriedFor user (carryOut (leave w changes) undos)
    undone.map (·.answer) = changed.reverse.map (fun c => .undone c.delta?) ∧
    (leave (leave w changes) undos).ledger.balance user = w.ledger.balance user ∧
    (∀ c ∈ undone, ∀ other, other ≠ user → c.after.balance other = c.before.balance other ∧
      c.after.history.held other = c.before.history.held other) ∧
    ∀ v : World ε, v.ledger.changes user v.clock = [] →
      (undoLast user).run v = (.returned none, v) := by
  intro changed undone
  have hwindow := h.window
  rw [List.map_append] at hwindow
  -- the changes are stacked on the balance of the start, and then the stack is taken down
  obtain ⟨es, hstacked, hdeltas, htimes⟩ := (Stacked.start w.ledger user).changed h.succeed
    (by
      intro hpositive
      rw [List.length_nil, Nat.zero_add]
      exact h.room.resolve_left (by omega))
    (List.pairwise_append.1 hwindow).1
  rw [List.nil_append] at hstacked
  have hlength : (callsFor user undos).length = es.length := by
    have hes := congrArg List.length htimes
    rw [List.length_map, List.length_map] at hes
    rw [h.even, hes]
  obtain ⟨hanswers, hbalance⟩ := hstacked.undone h.undo hlength (by
    rw [retention_leave, htimes]
    exact hwindow)
  refine ⟨?_, hbalance, fun c hc other hother => ?_, fun v => run_undoLast_of_changes_eq_nil⟩
  · calc undone.map (·.answer)
        = (es.map fun e => some e.change).reverse.map Answer.undone := by
          rw [hanswers, ← List.map_reverse, List.map_map]
          rfl
      _ = changed.reverse.map fun c => .undone c.delta? := by
          rw [← hdeltas, ← List.map_reverse, List.map_map]
          rfl
  · obtain ⟨hmem, huser⟩ := List.mem_filter.1 hc
    have huser : c.call.user = user := by simpa using huser
    exact (settled_of_mem_carryOut hmem).others other (huser ▸ hother)

end Runs

namespace Purse

/-- A ledger that keeps two changes of each user, with a gift in the history. -/
def funded : World Unit :=
  leave { ledger := { history := ⟨{ maxAge := 60, maxEntries := 2 }, ∅⟩ }, extra := () }
    [(0, .setBalance "7" 5), (0, .credit "7" 5 "gift")]

def changes : List (Nat × Call) :=
  [(10, .charge "7" 4 "price"), (11, .credit "8" 3 "gift"), (12, .credit "7" 1 "gift")]

def undos : List (Nat × Call) :=
  [(20, .undoLast "7"), (21, .undoLast "8"), (70, .undoLast "7")]

/-- A charge and a credit are taken back, the credit first, also where there is no room for what was
before. -/
theorem restored_purse :
    RoundTrip funded "7" changes undos ∧
    (carriedFor "7" (carryOut (leave funded changes) undos)).map (·.answer) =
      [.undone (some 1), .undone (some (-4))] ∧
    ((leave (leave funded changes) undos).ledger.balance "7").toInt = 10 := by
  have hroundTrip : RoundTrip funded "7" changes undos := by
    refine ⟨by decide +kernel, ?_, by decide +kernel, .inr (by decide +kernel), ?_⟩
    · intro c hc
      have hundos : callsFor "7" undos = [(20, .undoLast "7"), (70, .undoLast "7")] := rfl
      rw [hundos] at hc
      simp only [List.mem_cons, List.not_mem_nil, or_false] at hc
      rcases hc with rfl | rfl <;> rfl
    · unfold WithinWindow
      decide +kernel
  obtain ⟨hanswers, hbalance, -, -⟩ := restored_of_roundTrip hroundTrip
  refine ⟨hroundTrip, ?_, ?_⟩
  · have hdeltas : ((carriedFor "7" (carryOut funded changes)).reverse.map (·.delta?)) =
        [some 1, some (-4)] := by decide +kernel
    have hmap := congrArg (List.map Answer.undone) hdeltas
    rw [List.map_map] at hmap
    exact hanswers.trans hmap
  · rw [hbalance]
    decide +kernel

end Purse

end Points

end ChatBot
