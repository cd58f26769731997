import ChatBot.Proofs.Changelog.Held
import ChatBot.Proofs.Points.Tally
import Mathlib.Algebra.Group.Int.Defs
import Mathlib.Algebra.Group.Nat.Defs

/-!
# The ledger beside a sheet of whole numbers

Balances and amounts are whole numbers of sixty-four bits, and a call that would make a balance need
more of them panics. A `Sheet` keeps the same books in whole numbers of any size. Main statement
(`settled_and_read_carryOut`): whatever calls are made, each that answers does exactly what it
should, and each that panics has come to what is no amount (`Settled`); the ledger answers as the
sheet does and has the balances of the sheet after every call, if and only if no balance of the
sheet ever needs more than sixty-four bits.

A charge never panics, since what it leaves lies between zero and the balance before. What may panic
are a credit and an undone change.
-/

set_option autoImplicit false

namespace ChatBot.Points

open Stepwise

variable {ε : Type}

/-! ## Calls -/

/-- A call on the ledger that concerns one user. -/
inductive Call where
  | setBalance (user : String) (amount : Int64)
  | charge (user : String) (amount : Int64) (actor : String)
  | credit (user : String) (amount : Int64) (actor : String)
  | undoLast (user : String)

/-- What a call answers, balances told as whole numbers. -/
inductive Answer where
  | done
  | charged (result : Except PointsError Bool)
  | credited (result : Except PointsError Int)
  | undone (delta : Option Int64)
  | panicked

namespace Call

/-- The user whose balance a call is about. -/
def user : Call → String
  | setBalance user _ => user
  | charge user _ _ => user
  | credit user _ _ => user
  | undoLast user => user

/-- The program of a call, with its answer put as the ledger gives it. -/
def program : Call → Activity ε Answer
  | setBalance user amount => do
    Stepwise.change fun w => { w with ledger := w.ledger.setBalance user amount }
    return .done
  | charge user amount actor => do
    return .charged (← Points.charge noOutage user amount actor)
  | credit user amount actor => do
    match ← Points.credit noOutage user amount actor with
    | .returned result => return .credited (result.map Int64.toInt)
    | .panicked => return .panicked
  | undoLast user => do
    match ← Points.undoLast user with
    | .returned delta => return .undone delta
    | .panicked => return .panicked

/-- What a call answers and makes of the ledger, with nobody in between. -/
def perform (now : Nat) (l : PointsLedger) : Call → Answer × PointsLedger
  | setBalance user amount => (.done, l.setBalance user amount)
  | charge user amount actor =>
    if amount < 0 then (.charged (.error (.invalidAmount amount)), l)
    else if l.balance user < amount then (.charged (.ok false), l)
    else (.charged (.ok true),
      (l.setBalance user (l.balance user - amount)).note user actor (-amount) now)
  | credit user amount actor =>
    if amount < 0 then (.credited (.error (.invalidAmount amount)), l)
    else
      match amount? ((l.balance user).toInt + amount.toInt) with
      | none => (.panicked, l)
      | some sum => (.credited (.ok sum.toInt), (l.setBalance user sum).note user actor amount now)
  | undoLast user =>
    match l.history.last? user now with
    | none => (.undone none, l)
    | some e =>
      let popped := { l with history := (l.history.popLast user now).2 }
      match amount? ((l.balance user).toInt - e.change.toInt) with
      | none => (.panicked, popped)
      | some rest => (.undone (some e.change), popped.setBalance user rest)

/-- The program of a call, with nobody in between, answers and leaves what the call does. -/
theorem run_program (c : Call) (w : World ε) :
    c.program.run w =
      ((c.perform w.clock w.ledger).1, { w with ledger := (c.perform w.clock w.ledger).2 }) := by
  cases c with
  | setBalance user amount => rfl
  | charge user amount actor =>
    simp only [program, Points.charge, noOutage, perform, PointsLedger.withdraw]
    split
    · rfl
    · simp only [bind_eq, bind_assoc, run_bind, run_act]
      split
      · rfl
      · rfl
  | credit user amount actor =>
    simp only [program, Points.credit, noOutage, perform, PointsLedger.deposit]
    split
    · rfl
    · simp only [bind_eq, bind_assoc, run_bind, run_act]
      cases amount? ((w.ledger.balance user).toInt + amount.toInt) <;> rfl
  | undoLast user =>
    simp only [program, Points.undoLast, perform, PointsLedger.popChange, bind_eq, bind_assoc,
      run_bind, run_act, Changelog.popLast_fst]
    cases hlast : w.ledger.history.last? user w.clock with
    | none => simp [Changelog.popLast, hlast]
    | some e =>
      -- the change is out of the history before it is known whether it can be reverted
      let popped : PointsLedger :=
        { w.ledger with history := (w.ledger.history.popLast user w.clock).2 }
      have hbalance : popped.balance user = w.ledger.balance user := rfl
      simp only [Option.map_some, run_bind, run_act]
      cases hrest : amount? ((w.ledger.balance user).toInt - e.change.toInt) with
      | none =>
        rw [PointsLedger.revert_of_none (l := popped) (hbalance ▸ hrest)]
        rfl
      | some rest =>
        rw [PointsLedger.revert_of_some (l := popped) (hbalance ▸ hrest)]
        rfl

end Call

/-- A call that has been carried out: its time, its answer, and the ledger before and after it. -/
structure Carried where
  call : Call
  now : Nat
  before : PointsLedger
  answer : Answer
  after : PointsLedger

/-- Carries out calls one after the other, each at its time. -/
def carryOut (w : World ε) : List (Nat × Call) → List Carried
  | [] => []
  | (now, call) :: calls =>
    let (answer, v) := call.program.run { w with clock := now }
    ⟨call, now, w.ledger, answer, v.ledger⟩ :: carryOut v calls

/-! ## What each call does -/

/-- What the history holds of a user once a change is noted. -/
def noted (l : PointsLedger) (user actor : String) (delta : Int64) (now : Nat) :
    List (ChangeEntry Int64) :=
  Changelog.trimmed l.history.retention now (l.history.held user) ++ [⟨delta, actor, now⟩]

/-- The answer of a call fits what has become of the user's balance and history. A credit panics
just if the sum is no amount, and so does undoing just if the difference is none: the balance is
then left as it is, while the change that was to be undone is out of the history. -/
def Carried.Kept (c : Carried) : Prop :=
  match c.call, c.answer with
  | .setBalance user amount, .done =>
    c.after.balance user = amount ∧ c.after.history = c.before.history
  | .charge user amount actor, .charged result =>
    (result = .error (.invalidAmount amount) ↔ amount < 0) ∧
    (result = .ok true ↔ 0 ≤ amount ∧ amount ≤ c.before.balance user) ∧
    (result = .ok true →
      (c.after.balance user).toInt = (c.before.balance user).toInt - amount.toInt ∧
      c.after.history.held user = noted c.before user actor (-amount) c.now ∧
      (-amount).toInt = -amount.toInt) ∧
    (result ≠ .ok true → c.after = c.before)
  | .credit user amount actor, .credited result =>
    (amount < 0 → result = .error (.invalidAmount amount) ∧ c.after = c.before) ∧
    (0 ≤ amount → result = .ok (c.after.balance user).toInt ∧
      (c.after.balance user).toInt = (c.before.balance user).toInt + amount.toInt ∧
      c.after.history.held user = noted c.before user actor amount c.now)
  | .credit user amount _, .panicked =>
    0 ≤ amount ∧ 2 ^ 63 ≤ (c.before.balance user).toInt + amount.toInt ∧ c.after = c.before
  | .undoLast user, .undone delta =>
    delta = (c.before.history.last? user c.now).map (·.change) ∧
    (delta = none → c.after = c.before) ∧
    (∀ d, delta = some d →
      (c.after.balance user).toInt = (c.before.balance user).toInt - d.toInt ∧
      c.after.history.held user = (c.before.history.held user).dropLast)
  | .undoLast user, .panicked =>
    (∃ e, c.before.history.last? user c.now = some e ∧
      ((c.before.balance user).toInt - e.change.toInt < -2 ^ 63 ∨
        2 ^ 63 ≤ (c.before.balance user).toInt - e.change.toInt)) ∧
    c.after.balance user = c.before.balance user ∧
    c.after.history.held user = (c.before.history.held user).dropLast
  | _, _ => False

/-- A call did what it should to its user, and nothing to anybody else. -/
structure Carried.Settled (c : Carried) : Prop where
  kept : c.Kept
  others : ∀ u, u ≠ c.call.user →
    c.after.balance u = c.before.balance u ∧ c.after.history.held u = c.before.history.held u

/-- The whole numbers that are no amounts need more than sixty-four bits. -/
theorem out_of_range {n : Int} (h : amount? n = none) : n < -2 ^ 63 ∨ 2 ^ 63 ≤ n := by
  have hmin : Int64.minValue.toInt = -2 ^ 63 := by decide
  have hmax : Int64.maxValue.toInt = 2 ^ 63 - 1 := by decide
  rcases amount?_eq_none_iff.1 h with hless | hmore
  · exact .inl (hmin ▸ hless)
  · omega

/-- The opposite of an amount that is not negative is an amount. -/
theorem toInt_neg_of_nonneg {amount : Int64} (h : 0 ≤ amount) :
    (-amount).toInt = -amount.toInt := by
  rw [Int64.toInt_neg]
  have hless := amount.toInt_lt
  have hzero : 0 ≤ amount.toInt := Int64.le_iff_toInt_le.1 h
  exact Int.bmod_eq_of_le (by omega) (by omega)

section Kept

variable (user actor : String) (amount : Int64) (now : Nat) (l : PointsLedger)

/-- A charge takes what the balance covers, so what is left is an amount. -/
theorem kept_charge : Carried.Kept ⟨.charge user amount actor, now, l,
    (Call.perform now l (.charge user amount actor)).1,
    (Call.perform now l (.charge user amount actor)).2⟩ := by
  unfold Carried.Kept Call.perform
  dsimp only
  by_cases hneg : amount < 0
  · simp [hneg, Int64.not_le.2 hneg]
  · have hpos : 0 ≤ amount := Int64.not_lt.1 hneg
    by_cases hlt : l.balance user < amount
    · simp [hneg, hlt, Int64.not_le.2 hlt]
    · have hle : amount ≤ l.balance user := Int64.not_lt.1 hlt
      simp only [hneg, hlt, if_false]
      refine ⟨by simp, by simp [hpos, hle], fun _ => ⟨?_, ?_, toInt_neg_of_nonneg hpos⟩, by simp⟩
      · show (((l.setBalance user _).balance user)).toInt = _
        rw [balance_setBalance, if_pos rfl]
        exact Int64.toInt_sub_of_le _ _ hpos hle
      · exact Changelog.held_record ..

/-- A credit adds the amount, or it panics because the sum is too great. -/
theorem kept_credit : Carried.Kept ⟨.credit user amount actor, now, l,
    (Call.perform now l (.credit user amount actor)).1,
    (Call.perform now l (.credit user amount actor)).2⟩ := by
  unfold Carried.Kept Call.perform
  dsimp only
  by_cases hneg : amount < 0
  · simp [hneg, Int64.not_le.2 hneg]
  · have hpos : 0 ≤ amount := Int64.not_lt.1 hneg
    rw [if_neg hneg]
    cases hsum : amount? ((l.balance user).toInt + amount.toInt) with
    | none =>
      have hle := (l.balance user).le_toInt
      have hamount : 0 ≤ amount.toInt := Int64.le_iff_toInt_le.1 hpos
      refine ⟨hpos, ?_, rfl⟩
      rcases out_of_range hsum with hless | hmore
      · omega
      · exact hmore
    | some sum =>
      have hbalance : ((l.setBalance user sum).note user actor amount now).balance user = sum := by
        show ((l.setBalance user _).balance user) = _
        rw [balance_setBalance, if_pos rfl]
      refine ⟨fun h => absurd h hneg, fun _ => ⟨by rw [hbalance], ?_, ?_⟩⟩
      · rw [hbalance]
        exact amount?_eq_some_iff.1 hsum
      · exact Changelog.held_record ..

/-- An undone change is taken off the balance, or the call panics because that leaves no amount. -/
theorem kept_undoLast : Carried.Kept ⟨.undoLast user, now, l,
    (Call.perform now l (.undoLast user)).1, (Call.perform now l (.undoLast user)).2⟩ := by
  unfold Carried.Kept Call.perform
  dsimp only
  cases hlast : l.history.last? user now with
  | none => simp [hlast]
  | some e =>
    have hpopped : (l.history.popLast user now).2.held user = (l.history.held user).dropLast := by
      rw [Changelog.held_popLast, hlast, Option.isSome_some, if_pos rfl]
    dsimp only
    cases hrest : amount? ((l.balance user).toInt - e.change.toInt) with
    | none => exact ⟨⟨e, hlast, out_of_range hrest⟩, rfl, hpopped⟩
    | some rest =>
      refine ⟨by rw [hlast]; rfl, by simp, ?_⟩
      rintro d ⟨⟩
      refine ⟨?_, hpopped⟩
      show (((PointsLedger.setBalance _ user _).balance user)).toInt = _
      rw [balance_setBalance, if_pos rfl]
      exact amount?_eq_some_iff.1 hrest

end Kept

/-- Whatever the call, its answer fits what has become of the balance and the history. -/
theorem Call.kept_perform (c : Call) (now : Nat) (l : PointsLedger) :
    Carried.Kept ⟨c, now, l, (c.perform now l).1, (c.perform now l).2⟩ := by
  cases c with
  | setBalance user amount => exact ⟨by simp [perform, balance_setBalance], rfl⟩
  | charge user amount actor => exact kept_charge user actor amount now l
  | credit user amount actor => exact kept_credit user actor amount now l
  | undoLast user => exact kept_undoLast user now l

/-- Whatever the call, other users keep their balances and their histories. -/
theorem Call.others_perform (c : Call) (now : Nat) (l : PointsLedger) {u : String}
    (h : u ≠ c.user) : (c.perform now l).2.balance u = l.balance u ∧
      (c.perform now l).2.history.held u = l.history.held u := by
  have hset (l : PointsLedger) (n : Int64) : (l.setBalance c.user n).balance u = l.balance u := by
    rw [balance_setBalance, if_neg h]
  cases c with
  | setBalance user amount => exact ⟨hset l amount, rfl⟩
  | charge user amount actor =>
    simp only [perform]
    split
    · exact ⟨rfl, rfl⟩
    · split
      · exact ⟨rfl, rfl⟩
      · exact ⟨hset l _, Changelog.held_record_of_ne _ h ..⟩
  | credit user amount actor =>
    simp only [perform]
    split
    · exact ⟨rfl, rfl⟩
    · split
      · exact ⟨rfl, rfl⟩
      · exact ⟨hset l _, Changelog.held_record_of_ne _ h ..⟩
  | undoLast user =>
    simp only [perform]
    split
    · exact ⟨rfl, rfl⟩
    · have hpopped := Changelog.held_popLast_of_ne l.history h now
      split
      · exact ⟨rfl, hpopped⟩
      · exact ⟨hset { l with history := (l.history.popLast user now).2 } _, hpopped⟩

/-- Whatever the call, it does what it should to its user, and nothing to anybody else. -/
theorem Call.settled_perform (c : Call) (now : Nat) (l : PointsLedger) :
    Carried.Settled ⟨c, now, l, (c.perform now l).1, (c.perform now l).2⟩ :=
  ⟨c.kept_perform now l, fun _ hu => c.others_perform now l hu⟩

/-! ## The sheet -/

/-- The books of a ledger in whole numbers of any size. -/
structure Sheet where
  balances : String → Int
  history : Changelog Int64

namespace Sheet

/-- A ledger read off as a sheet. -/
def of (l : PointsLedger) : Sheet :=
  ⟨fun u => (l.balance u).toInt, l.history⟩

/-- Every balance fits in sixty-four bits. -/
def Fits (s : Sheet) : Prop :=
  ∀ u, -2 ^ 63 ≤ s.balances u ∧ s.balances u < 2 ^ 63

/-- Sets the balance of one user on the sheet. -/
def setBalance (s : Sheet) (user : String) (n : Int) : Sheet :=
  { s with balances := fun u => if u = user then n else s.balances u }

/-- Records a change on the sheet. -/
def note (s : Sheet) (user actor : String) (delta : Int64) (now : Nat) : Sheet :=
  { s with history := s.history.record user actor delta now }

/-- What a call answers and makes of the sheet. -/
def perform (now : Nat) (s : Sheet) : Call → Answer × Sheet
  | .setBalance user amount => (.done, s.setBalance user amount.toInt)
  | .charge user amount actor =>
    if amount < 0 then (.charged (.error (.invalidAmount amount)), s)
    else if s.balances user < amount.toInt then (.charged (.ok false), s)
    else (.charged (.ok true),
      (s.setBalance user (s.balances user - amount.toInt)).note user actor (-amount) now)
  | .credit user amount actor =>
    if amount < 0 then (.credited (.error (.invalidAmount amount)), s)
    else (.credited (.ok (s.balances user + amount.toInt)),
      (s.setBalance user (s.balances user + amount.toInt)).note user actor amount now)
  | .undoLast user =>
    match s.history.last? user now with
    | none => (.undone none, s)
    | some e => (.undone (some e.change),
        ({ s with history := (s.history.popLast user now).2 }).setBalance user
          (s.balances user - e.change.toInt))

/-- Carries out calls one after the other, each at its time, and gives each answer with the sheet
after it. -/
def carryOut (s : Sheet) : List (Nat × Call) → List (Answer × Sheet)
  | [] => []
  | (now, call) :: calls => s.perform now call :: carryOut (s.perform now call).2 calls

/-- A balance on the sheet is that of the ledger, as a whole number. -/
theorem balances_of (l : PointsLedger) (user : String) :
    (of l).balances user = (l.balance user).toInt := rfl

/-- The history on the sheet is that of the ledger. -/
theorem history_of (l : PointsLedger) : (of l).history = l.history := rfl

/-- The balances of a ledger fit. -/
theorem fits_of (l : PointsLedger) : (of l).Fits := by
  intro u
  exact ⟨(l.balance u).le_toInt, (l.balance u).toInt_lt⟩

/-- Setting a balance in the ledger sets it on the sheet. -/
theorem of_setBalance (l : PointsLedger) (user : String) (n : Int64) :
    of (l.setBalance user n) = (of l).setBalance user n.toInt := by
  apply congrArg (Sheet.mk · l.history)
  funext u
  rw [balance_setBalance, apply_ite Int64.toInt]
  rfl

/-- A sum that fits is an amount. -/
theorem Fits.exists_amount {s : Sheet} {user : String} {n : Int} (h : (s.setBalance user n).Fits) :
    ∃ a : Int64, amount? n = some a ∧ a.toInt = n := by
  have hroom := h user
  simp only [setBalance, if_true] at hroom
  cases hn : amount? n with
  | none =>
    have hout := out_of_range hn
    omega
  | some a => exact ⟨a, rfl, amount?_eq_some_iff.1 hn⟩

/-- A call needs room for the balance of its own user only. -/
theorem Fits.perform {s : Sheet} (hs : s.Fits) (now : Nat) (c : Call)
    (h : -2 ^ 63 ≤ (s.perform now c).2.balances c.user ∧
      (s.perform now c).2.balances c.user < 2 ^ 63) : (s.perform now c).2.Fits := by
  intro u
  by_cases hu : u = c.user
  · subst hu
    exact h
  · have hset (s : Sheet) (n : Int) : (s.setBalance c.user n).balances u = s.balances u :=
      if_neg hu
    have hsame : (s.perform now c).2.balances u = s.balances u := by
      cases c with
      | setBalance user amount => exact hset s amount.toInt
      | charge user amount actor =>
        simp only [Sheet.perform]
        split
        · rfl
        · split
          · rfl
          · exact hset s _
      | credit user amount actor =>
        simp only [Sheet.perform]
        split
        · rfl
        · exact hset s _
      | undoLast user =>
        simp only [Sheet.perform]
        split
        · rfl
        · exact hset { s with history := _ } _
    rw [hsame]
    exact hs u

/-- As long as the balances of the sheet fit, the ledger does as the sheet. -/
theorem perform_of {now : Nat} {l : PointsLedger} {c : Call}
    (h : ((of l).perform now c).2.Fits) :
    (of l).perform now c = ((c.perform now l).1, of (c.perform now l).2) := by
  cases c with
  | setBalance user amount =>
    simp only [perform, Call.perform, of_setBalance]
  | charge user amount actor =>
    have hcovers : (of l).balances user < amount.toInt ↔ l.balance user < amount :=
      Int64.lt_iff_toInt_lt.symm
    simp only [perform, Call.perform]
    by_cases hneg : amount < 0
    · rw [if_pos hneg, if_pos hneg]
    · rw [if_neg hneg, if_neg hneg]
      by_cases hlt : l.balance user < amount
      · rw [if_pos hlt, if_pos (hcovers.2 hlt)]
      · have hsum : (l.balance user - amount).toInt = (of l).balances user - amount.toInt :=
          Int64.toInt_sub_of_le _ _ (Int64.not_lt.1 hneg) (Int64.not_lt.1 hlt)
        -- a charge that is covered cannot leave the amounts, so nothing is asked of the sheet here
        rw [if_neg hlt, if_neg fun h => hlt (hcovers.1 h)]
        apply congrArg (Prod.mk _)
        show _ = ((of (l.setBalance user _)).note user actor (-amount) now)
        rw [of_setBalance, hsum]
  | credit user amount actor =>
    simp only [perform, Call.perform, balances_of] at h ⊢
    by_cases hneg : amount < 0
    · rw [if_pos hneg, if_pos hneg]
    · rw [if_neg hneg] at h
      have hroom : ((of l).setBalance user ((l.balance user).toInt + amount.toInt)).Fits := h
      obtain ⟨sum, hamount, hsum⟩ := hroom.exists_amount
      rw [if_neg hneg, if_neg hneg, hamount, ← hsum]
      apply congrArg (Prod.mk _)
      show _ = ((of (l.setBalance user _)).note user actor amount now)
      rw [of_setBalance]
  | undoLast user =>
    simp only [perform, Call.perform, balances_of, history_of] at h ⊢
    cases hlast : l.history.last? user now with
    | none => rfl
    | some e =>
      rw [hlast] at h
      obtain ⟨rest, hamount, hrest⟩ := Fits.exists_amount h
      dsimp only
      rw [hamount, ← hrest]
      apply congrArg (Prod.mk _)
      show _ = of (PointsLedger.setBalance _ user rest)
      rw [of_setBalance]
      rfl

end Sheet

/-! ## Runs of calls -/

section Runs

variable {w : World ε} {calls : List (Nat × Call)}

/-- Calls are carried out one at a time, each on the ledger that the one before it leaves. -/
theorem carryOut_cons (now : Nat) (c : Call) :
    carryOut w ((now, c) :: calls) =
      ⟨c, now, w.ledger, (c.perform now w.ledger).1, (c.perform now w.ledger).2⟩ ::
        carryOut { w with clock := now, ledger := (c.perform now w.ledger).2 } calls := by
  rw [carryOut]
  simp only [Call.run_program]

/-- Every call that is carried out does what it should. -/
theorem settled_of_mem_carryOut {c : Carried} (h : c ∈ carryOut w calls) : c.Settled := by
  induction calls generalizing w with
  | nil => cases h
  | cons first calls ih =>
    rw [carryOut_cons] at h
    rcases List.mem_cons.1 h with rfl | h
    · exact first.2.settled_perform first.1 w.ledger
    · exact ih h

/-- What a call that was carried out answered, and the sheet of what it left. -/
def Carried.read (c : Carried) : Answer × Sheet :=
  (c.answer, Sheet.of c.after)

/-- The ledger gives the answers of the sheet for all calls just if no balance on the sheet ever
grows too large. -/
theorem read_carryOut_iff :
    (carryOut w calls).map Carried.read = (Sheet.of w.ledger).carryOut calls ↔
      ∀ p ∈ (Sheet.of w.ledger).carryOut calls, p.2.Fits := by
  constructor
  · intro hagree p hp
    rw [← hagree] at hp
    obtain ⟨c, -, rfl⟩ := List.mem_map.1 hp
    exact Sheet.fits_of c.after
  · intro hfits
    induction calls generalizing w with
    | nil => rfl
    | cons first calls ih =>
      obtain ⟨now, c⟩ := first
      rw [Sheet.carryOut] at hfits ⊢
      have hfirst := Sheet.perform_of (hfits _ List.mem_cons_self)
      rw [hfirst] at hfits ⊢
      rw [carryOut_cons, List.map_cons]
      apply congrArg (List.cons _)
      exact ih fun p hp => hfits p (List.mem_cons_of_mem _ hp)

/-- **The ledger is exact as far as sixty-four bits reach.** Of any calls, made one after the other
at any times,

* each is settled: a charge succeeds if and only if its amount is not negative and covered, and
  then takes exactly the amount; a refused call changes nothing; a credit answers the new balance,
  which is exactly the sum, unless the sum is no amount, at which it panics and changes nothing; an
  undone change takes exactly its delta off the balance, unless that leaves no amount, at which the
  call panics and leaves the balance; nobody else is touched;
* all answers and balances are those of the sheet of whole numbers if and only if no balance of the
  sheet is ever out of range. -/
theorem settled_and_read_carryOut (w : World ε) (calls : List (Nat × Call)) :
    (∀ c ∈ carryOut w calls, c.Settled) ∧
    ((carryOut w calls).map Carried.read = (Sheet.of w.ledger).carryOut calls ↔
      ∀ p ∈ (Sheet.of w.ledger).carryOut calls, p.2.Fits) :=
  ⟨fun _ => settled_of_mem_carryOut, read_carryOut_iff⟩

end Runs

namespace Purse

def calls : List (Nat × Call) :=
  [(0, .setBalance "7" 5), (1, .charge "7" 3 "price"), (2, .charge "7" 3 "price"),
    (3, .credit "7" 2 "gift"), (4, .undoLast "7")]

def start : World Unit where
  extra := ()

/-- Five points pay a price of three once. -/
theorem read_purse :
    (∀ c ∈ carryOut start calls, c.Settled) ∧
    (carryOut start calls).map Carried.read = (Sheet.of start.ledger).carryOut calls ∧
    (carryOut start calls).map (fun c => (c.after.balance "7").toInt) = [5, 2, 2, 4, 2] := by
  obtain ⟨hsettled, hread⟩ := settled_and_read_carryOut start calls
  refine ⟨hsettled, hread.2 ?_, by decide +kernel⟩
  have hfits := Sheet.fits_of start.ledger
  have h₁ := hfits.perform 0 (.setBalance "7" 5) (by decide +kernel)
  have h₂ := h₁.perform 1 (.charge "7" 3 "price") (by decide +kernel)
  have h₃ := h₂.perform 2 (.charge "7" 3 "price") (by decide +kernel)
  have h₄ := h₃.perform 3 (.credit "7" 2 "gift") (by decide +kernel)
  have h₅ := h₄.perform 4 (.undoLast "7") (by decide +kernel)
  simp only [calls, Sheet.carryOut, List.forall_mem_cons, h₁, h₂, h₃, h₄, h₅, true_and]
  simp

/-- A credit to a full balance does not raise it, and gives no new balance: it panics. -/
theorem credit_panics :
    ∃ c ∈ carryOut start [(0, .setBalance "7" 9223372036854775807), (0, .credit "7" 1 "gift")],
      c.call = .credit "7" 1 "gift" ∧ c.answer = .panicked ∧
      (c.before.balance "7").toInt = 9223372036854775807 ∧
      (c.after.balance "7").toInt = 9223372036854775807 :=
  ⟨_, List.mem_cons_of_mem _ List.mem_cons_self, rfl, rfl, by decide +kernel, by decide +kernel⟩

end Purse

end ChatBot.Points
