import ChatBot.Points.PriceGate
import ChatBot.Proofs.Dispatch.Bookkeeping
import ChatBot.Proofs.Points.Prices

/-!
# The tally of a dispatch

While a line is taken through the handlers, its sender has paid nothing, or has paid one price and
could get it back. `Tally` says so about a scene of the dispatch: every balance is the one of the
start, less the price for the sender; the balance of the start covered the price; and the pending
compensations for points are the refund of the price, or none.

Every program of a dispatch takes a tally to a tally. Bystanders leave it as it is
(`Bystander.ensures`), the price gate is the only one that pays (`ensures_gate`), and a stop brings
it back to nothing paid (`ensures_stop`). On the way no balance becomes negative that was not so at
the start (`Solvent`).
-/

set_option autoImplicit false

namespace ChatBot.Points

open Stepwise

variable {ε : Type}

/-- The part of the shared state that points are about: the ledger and the prices. -/
def books (w : World ε) : PointsLedger × PriceTable :=
  (w.ledger, w.prices)

/-- The books are among the affairs of the handlers. -/
theorem keeps_books {α : Type} {p : Activity ε α} (h : p.Keeps World.affairs) : p.Keeps books :=
  h.comp fun a => (a.ledger, a.prices)

/-- A handler that has nothing to do with points: no step of it changes the ledger or a price, and
it registers compensations for other resources only, which do not change them either. -/
structure Bystander (h : Handler ε) : Prop where
  spares : ∀ (i : Invocation) (log : RollbackLog ε), ((h i).run log).Keeps books
  registers : ∀ (i : Invocation) (s : Scene ε), ∃ entries : List (RollbackEntry ε),
    (s.play (h i)).2.log = entries.foldl RollbackLog.add s.log ∧
      ∀ e ∈ entries, e.resource ≠ resource ∧ e.compensation.Keeps books

/-- No balance is negative that was not so in `w`. -/
def Solvent (w w' : World ε) : Prop :=
  ∀ user, 0 ≤ w.ledger.balance user → 0 ≤ w'.ledger.balance user

/-- A program that leaves the books alone makes no balance negative. -/
theorem Solvent.throughout {α : Type} {w w' : World ε} (hs : Solvent w w') {p : Activity ε α}
    (h : p.Keeps books) : p.Throughout (Solvent w) w' := by
  refine h.throughout (fun v v' hv => ?_) hs
  have hledger : v'.ledger = v.ledger := congrArg Prod.fst hv
  intro hsolvent u hu
  rw [hledger]
  exact hsolvent u hu

/-- Between the states `w` and `v` the user has paid the price, if any, and nobody else has paid or
received anything. -/
structure Paid (w : World ε) (user : String) (paid : Option Int64) (v : World ε) : Prop where
  prices : v.prices = w.prices
  balances : ∀ u, v.ledger.balance u = w.ledger.balance u - if u = user then paid.getD 0 else 0
  covered : ∀ p ∈ paid, 0 ≤ p ∧ p ≤ w.ledger.balance user

/-- Since the state `w` the user has paid the price, if any, and would get it back. -/
structure Tally (w : World ε) (user : String) (paid : Option Int64) (s : Scene ε) : Prop extends
    Paid w user paid s.world where
  refundable : s.log.entries.filter (fun e => e.resource == resource) =
    paid.toList.map (refund noOutage user)
  spared : ∀ e ∈ s.log.entries, e.resource ≠ resource → e.compensation.Keeps books

/-! ## Tallies -/

section Tally

variable {w : World ε} {user : String} {paid : Option Int64} {s s' : Scene ε}

/-- At the start nothing is paid. -/
theorem Tally.start (w : World ε) (user : String) : Tally w user none ⟨w, {}⟩ where
  prices := rfl
  balances := by simp
  covered := by simp
  refundable := rfl
  spared := by simp

/-- Paying leaves no balance negative that was not. -/
theorem Paid.solvent {v : World ε} (h : Paid w user paid v) : Solvent w v := by
  intro u hu
  rw [h.balances]
  split
  · rename_i heq
    subst heq
    cases paid with
    | none => simpa using hu
    | some p =>
      obtain ⟨hprice, hcovered⟩ := h.covered p rfl
      exact Int64.sub_nonneg_of_le hprice hcovered
  · simpa using hu

/-- What is paid shows in the books only. -/
theorem Paid.of_books {v v' : World ε} (h : Paid w user paid v) (hbooks : books v' = books v) :
    Paid w user paid v' := by
  obtain ⟨hledger, hprices⟩ := Prod.mk.inj hbooks
  refine ⟨hprices.trans h.prices, fun u => ?_, h.covered⟩
  rw [hledger, h.balances]

/-- A tally shows in the books and the log only. -/
theorem Tally.of_books (t : Tally w user paid s) (hbooks : books s'.world = books s.world)
    (hlog : s'.log = s.log) : Tally w user paid s' := by
  refine ⟨t.toPaid.of_books hbooks, ?_, ?_⟩
  · rw [hlog, t.refundable]
  · rw [hlog]
    exact t.spared

/-- What has nothing to do with points can be registered at any time. -/
theorem Tally.registered {entries : List (RollbackEntry ε)} (t : Tally w user paid s)
    (h : ∀ e ∈ entries, e.resource ≠ resource ∧ e.compensation.Keeps books) :
    Tally w user paid { s with log := entries.foldl RollbackLog.add s.log } := by
  induction entries generalizing s with
  | nil => exact t
  | cons e rest ih =>
    obtain ⟨hne, hkeeps⟩ := h e List.mem_cons_self
    refine ih (s := { s with log := s.log.add e }) ?_ fun f hf => h f (List.mem_cons_of_mem e hf)
    refine ⟨t.toPaid, ?_, ?_⟩
    · have hfilter : ∀ f ∈ s.log.entries,
          ((f.resource == resource) && (f.resource != e.resource)) = (f.resource == resource) := by
        intro f _
        by_cases hf : f.resource = resource
        · have hfe : f.resource ≠ e.resource := fun h => hne (h.symm.trans hf)
          simp [hf, hf ▸ hfe]
        · simp [hf]
      rw [← t.refundable, RollbackLog.add, List.filter_append, List.filter_filter,
        List.filter_congr hfilter, List.filter_cons_of_neg (by simpa using hne)]
      simp
    · intro f hf
      rcases List.mem_append.1 hf with hf | hf
      · exact t.spared f (List.mem_filter.1 hf).1
      · obtain rfl := List.mem_singleton.1 hf
        exact fun _ => hkeeps

/-- A program over the shared state that leaves the books alone leaves what is paid as it is. -/
theorem Paid.ensures_lift {α : Type} (h : Paid w user paid s.world) {p : Activity ε α}
    (hp : p.Keeps books) {Q : α → Scene ε → Prop}
    (hQ : Paid w user paid (p.run s.world).2 → Q (p.run s.world).1 ⟨(p.run s.world).2, s.log⟩) :
    s.Ensures (Solvent w) (StateT.lift p) Q :=
  Scene.ensures_lift (h.solvent.throughout hp) (hQ (h.of_books (hp.run s.world)))

/-- A program over the shared state that leaves the books alone leaves a tally as it is. -/
theorem Tally.ensures_lift {α : Type} (t : Tally w user paid s) {p : Activity ε α}
    (hp : p.Keeps books) {Q : α → Scene ε → Prop}
    (hQ : Tally w user paid ⟨(p.run s.world).2, s.log⟩ →
      Q (p.run s.world).1 ⟨(p.run s.world).2, s.log⟩) :
    s.Ensures (Solvent w) (StateT.lift p) Q :=
  t.toPaid.ensures_lift hp fun _ => hQ (t.of_books (hp.run s.world) rfl)

/-- A bystander leaves a tally as it is. -/
theorem Bystander.ensures {h : Handler ε} (hb : Bystander h) (t : Tally w user paid s)
    (i : Invocation) :
    s.Ensures (Solvent w) (h i) fun _ s' => Tally w user paid s' := by
  have hkeeps := hb.spares i s.log
  refine ⟨t.solvent.throughout hkeeps, ?_⟩
  obtain ⟨entries, hlog, hentries⟩ := hb.registers i s
  have hbooks : books (s.play (h i)).2.world = books s.world := hkeeps.run s.world
  exact (t.registered hentries).of_books hbooks hlog

/-! ## The price gate -/

/-- Setting a balance sets that of the user, and leaves the others. -/
theorem balance_setBalance (l : PointsLedger) (user u : String) (amount : Int64) :
    (l.setBalance user amount).balance u = if u = user then amount else l.balance u := by
  unfold PointsLedger.balance PointsLedger.setBalance
  rw [Std.ExtTreeMap.getElem?_insert]
  by_cases h : user = u
  · simp [h]
  · simp [h, Ne.symm h]

/-- With the refund of a covered price registered, it is a tally that the price is paid. -/
theorem Tally.charged {price : Int64} (t : Tally w user none s) (hprice : 0 ≤ price)
    (hcovered : price ≤ s.world.ledger.balance user) {v : World ε}
    (hprices : v.prices = s.world.prices)
    (hbalances : ∀ u, v.ledger.balance u =
      (s.world.ledger.setBalance user (s.world.ledger.balance user - price)).balance u) :
    Tally w user (some price) ⟨v, s.log.add (refund noOutage user price)⟩ := by
  refine ⟨⟨hprices.trans t.prices, fun u => ?_, fun p hp => ?_⟩, ?_, fun f hf hne => ?_⟩
  · rw [hbalances, balance_setBalance]
    by_cases hu : u = user
    · subst hu
      simp [t.balances]
    · simp [hu, t.balances]
  · obtain rfl : price = p := by simpa using hp
    refine ⟨hprice, ?_⟩
    simpa [t.balances] using hcovered
  · have hnone : ∀ f ∈ s.log.entries, f.resource ≠ resource := by
      simpa [List.filter_eq_nil_iff] using t.refundable
    have hfilter : (s.log.entries.filter fun f => f.resource != resource).filter
        (fun f => f.resource == resource) = [] := by
      rw [List.filter_eq_nil_iff]
      intro f hf
      simpa using hnone f (List.mem_filter.1 hf).1
    rw [RollbackLog.add, List.filter_append]
    exact congrArg (· ++ [refund noOutage user price]) hfilter
  · rcases List.mem_append.1 hf with hf | hf
    · exact t.spared f (List.mem_filter.1 hf).1 hne
    · obtain rfl := List.mem_singleton.1 hf
      exact absurd rfl hne

/-- A user who has paid nothing is charged. It is a tally again once the refund is registered. -/
theorem ensures_charge (t : Tally w user none s) (price : Int64) (actor : String) :
    s.Ensures (Solvent w) (StateT.lift (charge noOutage user price actor)) fun r s' =>
      (r = .ok true → Tally w user (some price)
        { s' with log := s'.log.add (refund noOutage user price) }) ∧
      (r ≠ .ok true → Tally w user none s') := by
  have hsolvent := t.solvent
  unfold charge
  dsimp only [noOutage]
  by_cases hneg : price < 0
  · rw [if_pos hneg]
    refine t.ensures_lift (keeps_done _) fun t' => ⟨fun h => ?_, fun _ => t'⟩
    cases h
  · rw [if_neg hneg]
    by_cases hlt : s.world.ledger.balance user < price
    · have hw : s.world.ledger.withdraw user price = (false, s.world.ledger) := if_pos hlt
      refine Scene.ensures_lift (Throughout.bind ⟨hsolvent, ?_⟩ ?_) ?_
      · simp only [hw]
        exact hsolvent
      · simp only [run_act, hw]
        exact hsolvent
      · simp only [bind_eq, run_bind, run_act, hw]
        exact ⟨fun h => (by cases h), fun _ => t⟩
    · have hw : s.world.ledger.withdraw user price =
          (true, s.world.ledger.setBalance user (s.world.ledger.balance user - price)) :=
        if_neg hlt
      -- The state with the balance charged, before and after the note in the history.
      have tally : ∀ v : World ε, v.prices = s.world.prices → (∀ u, v.ledger.balance u =
          (s.world.ledger.setBalance user (s.world.ledger.balance user - price)).balance u) →
          Tally w user (some price) ⟨v, s.log.add (refund noOutage user price)⟩ :=
        fun v => t.charged (Int64.not_lt.1 hneg) (Int64.not_lt.1 hlt)
      have solvent : ∀ v : World ε, v.prices = s.world.prices → (∀ u, v.ledger.balance u =
          (s.world.ledger.setBalance user (s.world.ledger.balance user - price)).balance u) →
          Solvent w v := fun v hprices hv => (tally v hprices hv).solvent
      refine Scene.ensures_lift (Throughout.bind ⟨hsolvent, ?_⟩ ?_) ?_
      · simp only [hw]
        exact solvent _ rfl fun _ => rfl
      · simp only [run_act, hw]
        exact ⟨solvent _ rfl fun _ => rfl, solvent _ rfl fun _ => rfl⟩
      · simp only [bind_eq, run_bind, run_act, hw]
        exact ⟨fun _ => tally _ rfl fun _ => rfl, fun h => absurd rfl h⟩

/-- The gate takes what the line costs, or stops the line with nothing paid. -/
theorem ensures_gate (t : Tally w user none s) (tr : Locale.Translator) {i : Invocation}
    (hi : i.message.sender.id = user) :
    s.Ensures (Solvent w) (gate tr noOutage i) fun v s' =>
      ∃ paid, Tally w user paid s' ∧ ∀ own, v = .allowed own → paid = w.prices.cost i.param := by
  unfold gate
  refine Scene.Ensures.bind (R := fun found s' => found = w.prices.match? i.param ∧
    Tally w user none s') ?_ ?_
  · refine t.ensures_lift (keeps_read _) fun t' => ⟨?_, t'⟩
    rw [run_read, t.prices]
  · rintro found s' ⟨rfl, t'⟩
    have hcost := w.prices.match?_eq_cost i.param
    cases hmatch : w.prices.match? i.param with
    | none =>
      rw [hmatch] at hcost
      exact Scene.ensures_pure t'.solvent ⟨none, t', fun _ _ => hcost⟩
    | some found =>
      obtain ⟨command, price⟩ := found
      rw [hmatch] at hcost
      dsimp only
      rw [hi]
      refine (ensures_charge t' price "price").bind fun r left hr => ?_
      cases r with
      | error e => exact Scene.ensures_pure (hr.2 nofun).solvent ⟨none, hr.2 nofun, nofun⟩
      | ok charged =>
        cases charged with
        | false => exact Scene.ensures_pure (hr.2 nofun).solvent ⟨none, hr.2 nofun, nofun⟩
        | true =>
          have paid := hr.1 rfl
          refine Scene.Ensures.bind (R := fun _ last => Tally w user (some price) last)
            (Scene.ensures_register (s := left) paid.solvent paid) fun _ last t' => ?_
          exact Scene.ensures_pure t'.solvent ⟨some price, t', fun _ _ => hcost⟩

/-! ## Giving back -/

/-- The refund brings all balances back, and makes none negative on the way. -/
theorem Tally.refunded {price : Int64} (t : Tally w user (some price) s) :
    (refund (ε := ε) noOutage user price).compensation.Throughout (Solvent w) s.world ∧
      ∀ v, ((refund noOutage user price).compensation.run s.world).2 = v →
        v.prices = w.prices ∧ ∀ u, v.ledger.balance u = w.ledger.balance u := by
  obtain ⟨hprice, hcovered⟩ := t.covered price rfl
  -- The sum is the balance of the start, so it is an amount.
  have hsum : amount? ((s.world.ledger.balance user).toInt + price.toInt) =
      some (w.ledger.balance user) := by
    rw [amount?_eq_some_iff, t.balances, if_pos rfl, Option.getD_some,
      Int64.toInt_sub_of_le _ _ hprice hcovered, Int.sub_add_cancel]
  have hdeposit : s.world.ledger.deposit user price = (some (w.ledger.balance user),
      s.world.ledger.setBalance user (w.ledger.balance user)) := by
    rw [PointsLedger.deposit, hsum]
  have hback : ∀ u, (s.world.ledger.setBalance user (w.ledger.balance user)).balance u =
      w.ledger.balance u := by
    intro u
    rw [balance_setBalance]
    by_cases hu : u = user
    · subst hu
      rw [if_pos rfl]
    · rw [if_neg hu, t.balances, if_neg hu, Int64.sub_zero]
  have solvent : ∀ v : World ε, (∀ u, v.ledger.balance u = w.ledger.balance u) → Solvent w v := by
    intro v hv u hu
    rwa [hv]
  unfold refund credit
  dsimp only [noOutage]
  rw [if_neg (Int64.not_lt.2 hprice)]
  simp only [bind_eq, bind_assoc]
  -- The deposit, and then its note in the history.
  refine ⟨Throughout.bind ⟨t.solvent, ?_⟩ ?_, ?_⟩
  · simp only [hdeposit]
    exact solvent _ hback
  · simp only [run_act, hdeposit]
    exact ⟨solvent _ hback, solvent _ hback⟩
  · rintro v rfl
    simp only [run_bind, run_act, hdeposit]
    exact ⟨t.prices, hback⟩

/-- Compensations that are carried out bring a tally back to nothing paid. -/
theorem Tally.carriedOut {entries : List (RollbackEntry ε)} {v : World ε}
    (t : Tally w user paid ⟨v, ⟨entries⟩⟩) :
    (RollbackLog.carryOut entries).Throughout (Solvent w) v ∧
      Tally w user none ⟨((RollbackLog.carryOut entries).run v).2, {}⟩ := by
  induction entries generalizing v paid with
  | nil =>
    have hpaid : paid = none := by
      simpa using t.refundable.symm
    subst hpaid
    exact ⟨t.solvent, t⟩
  | cons e rest ih =>
    -- What the compensation of `e` leaves is a tally of the rest.
    have next : e.compensation.Throughout (Solvent w) v ∧
        ∃ paid', Tally w user paid' ⟨(e.compensation.run v).2, ⟨rest⟩⟩ := by
      have hspared : ∀ f ∈ rest, f.resource ≠ resource → f.compensation.Keeps books :=
        fun f hf => t.spared f (List.mem_cons_of_mem e hf)
      have hrefundable := t.refundable
      by_cases he : e.resource = resource
      · rw [List.filter_cons_of_pos (by simpa using he)] at hrefundable
        cases paid with
        | none => cases hrefundable
        | some p =>
          obtain ⟨rfl, hrest⟩ := List.cons.inj hrefundable
          obtain ⟨hthrough, hrun⟩ := t.refunded
          obtain ⟨hprices, hbalances⟩ := hrun _ rfl
          exact ⟨hthrough, none, ⟨hprices, by simpa using hbalances, by simp⟩, hrest, hspared⟩
      · rw [List.filter_cons_of_neg (by simpa using he)] at hrefundable
        have hkeeps := t.spared e List.mem_cons_self he
        have t' : Tally w user paid ⟨v, ⟨rest⟩⟩ :=
          ⟨t.toPaid, hrefundable, hspared⟩
        exact ⟨t.solvent.throughout hkeeps, paid, t'.of_books (hkeeps.run v) rfl⟩
    obtain ⟨hthrough, paid', t'⟩ := next
    rw [RollbackLog.carryOut]
    cases hworked : (e.compensation.run v).1 with
    | true =>
      have counted : Tally w user paid'
          ⟨((World.count .rollbackReplayed).run (e.compensation.run v).2).2, ⟨rest⟩⟩ :=
        t'.of_books rfl rfl
      obtain ⟨hrest, hlast⟩ := ih counted
      refine ⟨hthrough.bind ?_, ?_⟩
      · rw [hworked]
        exact ⟨t'.solvent, hrest⟩
      · simp only [bind_eq, run_bind, hworked]
        exact hlast
    | false =>
      obtain ⟨hrest, hlast⟩ := ih t'
      refine ⟨hthrough.bind ?_, ?_⟩
      · rw [hworked]
        exact hrest
      · simp only [bind_eq, run_bind, hworked]
        exact hlast

/-- The order of the pending compensations does not matter. -/
theorem Tally.reverse (t : Tally w user paid s) :
    Tally w user paid ⟨s.world, ⟨s.log.entries.reverse⟩⟩ := by
  refine ⟨t.toPaid, ?_, ?_⟩
  · rw [List.filter_reverse, t.refundable]
    cases paid <;> rfl
  · intro e he
    exact t.spared e (List.mem_reverse.1 he)

/-- A stop gives back what was paid, and does not deliver. -/
theorem ensures_stop (t : Tally w user paid s) (reason : FailureReason)
    (earlier own : List OutboundMessage) :
    s.Ensures (Solvent w) (Dispatcher.stop reason earlier own) fun r s' =>
      r.1 ≠ .delivered ∧ Tally w user none s' := by
  unfold Dispatcher.stop
  refine Scene.Ensures.bind (R := fun _ s' => Tally w user paid s') ?_ fun _ s' t' => ?_
  · exact t.ensures_lift (keeps_books (Dispatcher.keeps_countFailure reason)) fun t' => t'
  · obtain ⟨hthrough, hlast⟩ := t'.reverse.carriedOut
    refine Scene.Ensures.bind (R := fun _ s' => Tally w user none s') ?_ fun n s' t' => ?_
    · exact Scene.ensures_replay hthrough hlast
    · refine Scene.ensures_pure t'.solvent ⟨?_, t'⟩
      split <;> simp

end Tally

end ChatBot.Points
