import ChatBot.Proofs.Dispatch.Planning
import ChatBot.Proofs.Dispatch.Reference
import ChatBot.Proofs.Points.Tally

/-!
# A dispatch with a price gate

What a dispatch does to the points if the price gate is registered among bystanders. The loop takes
a tally to a tally: before the gate nothing is paid, behind it what the line costs, and a stop
brings it back to nothing (`ensures_runPlan`). So a line that is delivered, and does not skip the
gate, takes its cost from its sender; every other line takes nothing (`dispatch_paid`).
-/

set_option autoImplicit false

namespace ChatBot.Points

open Stepwise Dispatcher

variable {ε : Type} {d : Dispatcher ε} {m : ChatMessage} {caps : Capabilities} {cache : Nat}
  {w : World ε} {user : String} {paid : Option Int64} {s : Scene ε}

/-- What is paid when a dispatch ends: the price if it delivers, and nothing if it stops. -/
def kept (state : DispatchState) (price : Option Int64) : Option Int64 :=
  if state = .delivered then price else none

/-- One round of the loop. The handler takes the tally from `paid` to `paid'` if it allows the line,
and a detached handler leaves it as it is. -/
theorem ensures_runPlan_cons (paid' : Option Int64) {p : Planned ε} {rest : List (Planned ε)}
    {price : Option Int64} (t : Tally w user paid s)
    (handler : ∀ i s, i.message = m → i.param = p.param → Tally w user paid s →
      s.Ensures (Solvent w) (p.registration.handler i) fun v s' =>
        ∃ q, Tally w user q s' ∧ ∀ own, v = .allowed own → q = paid')
    (detached : p.registration.mode = .fireAndForget → paid = paid')
    (loop : ∀ responses s, Tally w user paid' s →
      s.Ensures (Solvent w) (runPlan d m caps cache false responses rest) fun r s' =>
        Tally w user (kept r.1 price) s')
    (responses : List OutboundMessage) :
    s.Ensures (Solvent w) (runPlan d m caps cache false responses (p :: rest)) fun r s' =>
      Tally w user (kept r.1 price) s' := by
  have stopped : ∀ {q s} reason earlier own, Tally w user q s →
      s.Ensures (Solvent w) (stop reason earlier own) fun r s' =>
        Tally w user (kept r.1 price) s' := by
    intro q s reason earlier own t
    refine (ensures_stop t reason earlier own).mono fun r s' h => ?_
    rw [kept, if_neg h.1]
    exact h.2
  rw [runPlan_cons]
  refine Scene.Ensures.bind (R := fun _ s' => Tally w user paid s') ?_ fun permitted s' t' => ?_
  · exact t.ensures_lift (keeps_books (keeps_checkPermission _ _ _ _)) fun t' => t'
  · unfold attend
    cases hmode : p.registration.mode with
    | fireAndForget =>
      -- a detached handler is only queued, and the loop goes on without its verdict
      have hpaid := detached hmode
      subst hpaid
      cases permitted with
      | false => exact loop responses s' t'
      | true =>
        refine Scene.Ensures.bind (R := fun _ s' => Tally w user paid s') ?_
          fun _ s'' t'' => loop responses s'' t''
        exact t'.ensures_lift (keeps_books (keeps_enqueue _)) fun t' => t'
    | awaited =>
      cases permitted with
      | false => exact stopped .permission responses [] t'
      | true =>
        refine (handler _ s' rfl rfl t').bind fun v s'' h => ?_
        obtain ⟨q, t'', hq⟩ := h
        cases v with
        | allowed own =>
          obtain rfl := hq own rfl
          exact loop (responses ++ own) s'' t''
        | denied own => exact stopped .denied responses own t''
        | error => exact stopped .error responses [] t''
        | panic => exact stopped .panic responses [] t''

/-- Bystanders in the plan leave what is paid as it is, until one of them stops the line. -/
theorem ensures_runPlan_bystanders {plan : List (Planned ε)}
    (bystanders : ∀ p ∈ plan, Bystander p.registration.handler)
    (responses : List OutboundMessage) (t : Tally w user paid s) :
    s.Ensures (Solvent w) (runPlan d m caps cache false responses plan) fun r s' =>
      Tally w user (kept r.1 paid) s' := by
  induction plan generalizing responses s with
  | nil => exact Scene.ensures_pure t.solvent t
  | cons p rest ih =>
    have hp : Bystander p.registration.handler := bystanders p List.mem_cons_self
    have hrest : ∀ q ∈ rest, Bystander q.registration.handler := by
      intro q hq
      exact bystanders q (List.mem_cons_of_mem p hq)
    refine ensures_runPlan_cons paid t (fun i s _ _ t => ?_) (fun _ => rfl)
      (fun responses s t => ih hrest responses t) responses
    exact (hp.ensures t i).mono fun v s' t' => ⟨paid, t', fun _ _ => rfl⟩

/-- With the gate among bystanders in the plan, what is paid at the end is the cost of the line. -/
theorem ensures_runPlan_gate {tr : Locale.Translator} {front back : List (Planned ε)}
    {g : Planned ε} (hg : g.registration = gateRegistration tr noOutage)
    (bystanders : ∀ p ∈ front ++ back, Bystander p.registration.handler)
    (hsender : m.sender.id = user) (responses : List OutboundMessage) (t : Tally w user none s) :
    s.Ensures (Solvent w) (runPlan d m caps cache false responses (front ++ g :: back))
      fun r s' => Tally w user (kept r.1 (w.prices.cost g.param)) s' := by
  induction front generalizing responses s with
  | nil =>
    refine ensures_runPlan_cons (w.prices.cost g.param) t (fun i s hm hp t => ?_)
      (fun hmode => ?_) (fun responses s t => ensures_runPlan_bystanders bystanders responses t)
      responses
    · rw [hg, ← hp]
      exact ensures_gate t tr (hm ▸ hsender)
    · rw [hg] at hmode
      cases hmode
  | cons p rest ih =>
    have hp : Bystander p.registration.handler := bystanders p List.mem_cons_self
    have hrest : ∀ q ∈ rest ++ back, Bystander q.registration.handler := by
      intro q hq
      exact bystanders q (List.mem_cons_of_mem p hq)
    refine ensures_runPlan_cons none t (fun i s _ _ t => ?_) (fun _ => rfl)
      (fun responses s t => ih hrest responses t) responses
    exact (hp.ensures t i).mono fun v s' t' => ⟨none, t', fun _ _ => rfl⟩

/-! ## The whole dispatch -/

/-- What a line takes from its sender, from the state in which it comes in and the state in which
its dispatch ends: nothing if it may skip the gate, or is not delivered. -/
def fee (d : Dispatcher ε) (m : ChatMessage) (w : World ε) (state : DispatchState) :
    Option Int64 :=
  if d.HonoursSkip m w then none else kept state (w.prices.cost m.text)

/-- A line that is not delivered takes nothing. -/
theorem fee_eq_none {state : DispatchState} (h : state ≠ .delivered) : fee d m w state = none := by
  unfold fee kept
  rw [if_neg h, ite_self]

/-- The handlers that are due: bystanders, and the gate unless the line may skip it. -/
theorem ensures_runPlan_due {tr : Locale.Translator} {before after : Registry ε}
    (hregistry : d.registry = before ++ gateRegistration tr noOutage :: after)
    (bystanders : ∀ r ∈ before ++ after, Bystander r.handler)
    (t : Tally w m.sender.id none s) :
    s.Ensures (Solvent w) (runPlan d m caps cache false [] (d.due m w)) fun r s' =>
      Tally w m.sender.id (fee d m w r.1) s' := by
  have hany : (gateRegistration (ε := ε) tr noOutage).pattern = .any := rfl
  obtain ⟨front, back, hplan, hmem⟩ := Registry.plan_of_any before after hany m.text
  have hbystanders : ∀ p ∈ front ++ back, Bystander p.registration.handler := by
    intro p hp
    exact bystanders _ (hmem p hp)
  unfold due fee
  rw [hregistry, hplan]
  by_cases hskip : d.HonoursSkip m w
  · rw [if_pos hskip]
    simp only [if_pos hskip]
    refine (ensures_runPlan_bystanders (fun p hp => ?_) [] t).mono fun r s' t' => ?_
    · obtain ⟨hp, hskippable⟩ := List.mem_filter.1 hp
      refine hbystanders p (Registry.mem_append_of_ne hp fun h => ?_)
      rw [h] at hskippable
      cases hskippable
    · unfold kept at t'
      split at t' <;> exact t'
  · rw [if_neg hskip]
    simp only [if_neg hskip]
    rw [← PriceTable.cost_spaced_words w.prices m.text]
    exact ensures_runPlan_gate rfl hbystanders rfl [] t

/-- What follows the loop leaves what is paid as it is. -/
theorem ensures_answer (h : Paid w user paid s.world) (state : DispatchState)
    (responses : List OutboundMessage) :
    s.Ensures (Solvent w) (answer m state responses) fun o s' =>
      o.state = state ∧ Paid w user paid s'.world := by
  unfold answer
  cases m.quiet with
  | true => exact h.ensures_lift (keeps_books (keeps_finish _ _)) fun h' => ⟨rfl, h'⟩
  | false =>
    refine Scene.Ensures.bind (R := fun _ s' => Paid w user paid s'.world) ?_ fun _ s' h' => ?_
    · exact h.ensures_lift (keeps_books (keeps_deliverAll _)) fun h' => h'
    · refine Scene.Ensures.bind (R := fun _ s' => Paid w user paid s'.world) ?_ fun _ s' h' => ?_
      · refine h'.ensures_lift ?_ fun h' => h'
        exact keeps_change fun _ => rfl
      · exact h'.ensures_lift (keeps_books (keeps_finish _ _)) fun h' => ⟨rfl, h'⟩

/-- A dispatch takes the fee of the line from its sender, and nothing else. -/
theorem ensures_conduct {tr : Locale.Translator} {before after : Registry ε}
    (hregistry : d.registry = before ++ gateRegistration tr noOutage :: after)
    (bystanders : ∀ r ∈ before ++ after, Bystander r.handler) (m : ChatMessage) (w : World ε) :
    Scene.Ensures ⟨w, {}⟩ (Solvent w) (d.conduct m) fun o s' =>
      Paid w m.sender.id (fee d m w o.state) s'.world := by
  have t := Tally.start w m.sender.id
  -- a dispatch that ends ahead of its handlers has touched no balance
  have ended : ∀ state : DispatchState, state ≠ .delivered →
      Scene.Ensures ⟨w, {}⟩ (Solvent w) (StateT.lift (finish state [])) fun o s' =>
        Paid w m.sender.id (fee d m w o.state) s'.world := by
    intro state h
    refine t.toPaid.ensures_lift (keeps_books (keeps_finish _ _)) fun h' => ?_
    rw [run_finish, fee_eq_none h]
    exact h'
  unfold conduct
  refine Scene.Ensures.bind (R := fun _ s' => s' = ⟨w, {}⟩)
    (t.ensures_lift (keeps_read _) fun _ => rfl) ?_
  rintro ignored _ rfl
  cases ignored with
  | true => exact ended .ignored nofun
  | false =>
    refine Scene.Ensures.bind (R := fun _ s' => s' = ⟨w, {}⟩)
      (t.ensures_lift (keeps_read _) fun _ => rfl) ?_
    rintro moderated _ rfl
    cases moderated with
    | true => exact ended .moderated nofun
    | false =>
      refine Scene.Ensures.bind (R := fun record s' => record = w.directory.find? m.sender.id ∧
        s' = ⟨{ w with lookups := w.lookups + 1 }, {}⟩) ?_ ?_
      · exact t.ensures_lift (keeps_act fun _ => rfl) fun _ => ⟨rfl, rfl⟩
      rintro _ _ ⟨rfl, rfl⟩
      have found : Tally w m.sender.id none ⟨{ w with lookups := w.lookups + 1 }, {}⟩ :=
        t.of_books rfl rfl
      refine Scene.Ensures.bind (R := fun cache s' => cache = w.caches.length ∧
        s' = ⟨w.opened d.owners m.sender, {}⟩) ?_ ?_
      · exact found.ensures_lift (keeps_act fun _ => rfl) fun _ => ⟨rfl, rfl⟩
      rintro _ _ ⟨rfl, rfl⟩
      have opened : Tally w m.sender.id none ⟨w.opened d.owners m.sender, {}⟩ :=
        t.of_books rfl rfl
      refine Scene.Ensures.bind (R := fun known s' =>
        known = .ofSender (d.owners.capabilities (w.directory.find? m.sender.id) m.sender) ∧
          s' = ⟨w.opened d.owners m.sender, {}⟩) ?_ ?_
      · refine opened.ensures_lift (keeps_read _) fun _ => ⟨?_, rfl⟩
        rw [run_read, World.opened, List.getElem?_concat_length, Option.getD_some]
      rintro _ _ ⟨rfl, rfl⟩
      rw [ofSender_standing]
      dsimp only
      rw [runPlan_eq_filter, plan_filter_eq_due]
      refine (ensures_runPlan_due hregistry bystanders opened).bind fun r s' t' => ?_
      refine Scene.Ensures.bind (R := fun _ s' => Paid w m.sender.id (fee d m w r.1) s'.world)
        ⟨t'.solvent, t'.toPaid⟩ fun _ s'' h => ?_
      refine Scene.Ensures.mono (ensures_answer h r.1 r.2) fun o s' h => ?_
      rw [h.1]
      exact h.2

/-- What a dispatch does to the points, on the way and at the end. -/
theorem dispatch_paid {tr : Locale.Translator} {before after : Registry ε}
    (hregistry : d.registry = before ++ gateRegistration tr noOutage :: after)
    (bystanders : ∀ r ∈ before ++ after, Bystander r.handler) (m : ChatMessage) (w : World ε) :
    (d.dispatch m).Throughout (Solvent w) w ∧
      Paid w m.sender.id (fee d m w ((d.dispatch m).run w).1.state) ((d.dispatch m).run w).2 := by
  obtain ⟨hthrough, hpaid⟩ := ensures_conduct hregistry bystanders m w
  refine ⟨hthrough.bind hthrough.last, ?_⟩
  rw [run_dispatch]
  exact hpaid

end ChatBot.Points
