import ChatBot.Proofs.Console.Answers
import ChatBot.Proofs.Dispatch.Reference
import ChatBot.Proofs.Phases
import ChatBot.Proofs.Points.Tally
import Mathlib.Logic.Function.Basic

/-!
# How the bot on a console serves a line

Whatever other dispatches do in between, the dispatch of a line that asks for a hug either pays for
it and delivers one, or finds that the points do not suffice and says so; every other dispatch
leaves all accounts as they are. Main statement: `phased_dispatch`.
-/

set_option autoImplicit false

namespace ChatBot.Console

open ChatBot.Template Stepwise

/-! ## Accounts -/

/-- What a user has, and what has been delivered to the user. -/
structure Account where
  balance : Int64
  hugs : Nat
  refusals : Nat

/-- The accounts of all users. -/
def accounts (w : World Unit) (user : String) : Account where
  balance := w.ledger.balance user
  hugs := w.delivered.countP fun r => r.sender.id = user && isHug r
  refusals := w.delivered.countP fun r => r.sender.id = user && isRefusal r

/-- How far a dispatch is with a hug. -/
inductive Phase where
  /-- It may still take the price. -/
  | asking
  /-- The price is paid, and the hug is owed. -/
  | serving
  /-- The points did not suffice, which has not been said yet. -/
  | refusing
  /-- The accounts are no longer touched. -/
  | silent
  deriving DecidableEq

/-- What a step does to the accounts on the way from phase to phase of a dispatch for a user. -/
inductive Posts (user : String) :
    Phase → (String → Account) → (String → Account) → Phase → Prop where
  | stays (ph : Phase) (a : String → Account) : Posts user ph a a ph
  | pays (a : String → Account) (covered : ¬ (a user).balance < 10) :
      Posts user .asking a
        (Function.update a user { a user with balance := (a user).balance - 10 }) .serving
  | lacks (a : String → Account) (short : (a user).balance < 10) :
      Posts user .asking a a .refusing
  | hugs (a : String → Account) :
      Posts user .serving a
        (Function.update a user { a user with hugs := (a user).hugs + 1 }) .silent
  | refuses (a : String → Account) :
      Posts user .refusing a
        (Function.update a user { a user with refusals := (a user).refusals + 1 }) .silent

/-- What a step of a dispatch for a user does: it leaves the directory alone, and posts to the
accounts. -/
def Deals (user : String) (ph : Phase) (w w' : World Unit) (ph' : Phase) : Prop :=
  w'.directory = w.directory ∧ Posts user ph (accounts w) (accounts w') ph'

/-- The state in which the bot serves: nobody is ignored and nothing is blocked, prices and commands
are those of the start, and no cache denies a viewer what viewers may do. -/
structure Serves (w : World Unit) : Prop where
  moderation : w.moderation = {}
  prices : w.prices = Console.prices
  commands : w.commands = book
  admits : ∀ p ∈ w.caches, ∀ user, p.decision? user .viewer ≠ some false

variable {user : String} {ph : Phase} {w w' : World Unit}

/-- Whether a state is one in which the bot serves is told by what serving goes by and works on. -/
theorem Serves.of_counter (h : counter w' = counter w) (hw : Serves w) : Serves w' := by
  simp only [counter, Prod.mk.injEq] at h
  obtain ⟨hmoderation, hprices, hcommands, hcaches, -⟩ := h
  exact ⟨hmoderation.trans hw.moderation, hprices.trans hw.prices, hcommands.trans hw.commands,
    hcaches ▸ hw.admits⟩

/-- A step that leaves what serving goes by and works on is one that any phase may take. -/
theorem deals_of_counter (h : counter w' = counter w) : Deals user ph w w' ph := by
  simp only [counter, Prod.mk.injEq] at h
  obtain ⟨-, -, -, -, hdirectory, hbalances, hdelivered⟩ := h
  have haccounts : accounts w' = accounts w := by
    funext user
    simp only [accounts, PointsLedger.balance, hbalances, hdelivered]
  refine ⟨hdirectory, ?_⟩
  rw [haccounts]
  exact .stays ph _

/-- A program that leaves what serving works on stays in its phase. -/
theorem phased_of_keeps {α : Type} {Q : α → Prop} {p : Activity Unit α} (h : p.Keeps counter)
    (hQ : p.Yields Q) : p.Phased Serves (Deals user) (fun ph' a => ph' = ph ∧ Q a) ph :=
  phased_of_each (h.each.mono fun _ _ hw hI => ⟨hI.of_counter hw, deals_of_counter hw⟩) hQ

/-- Reading takes no phase further. -/
theorem phased_read {α : Type} {Q : α → Prop} {f : World Unit → α} (h : ∀ w, Serves w → Q (f w)) :
    (Stepwise.read f : Activity Unit α).Phased Serves (Deals user) (fun ph' a => ph' = ph ∧ Q a)
      ph :=
  fun w hw => ⟨hw, ph, deals_of_counter rfl, rfl, h w hw⟩

/-! ## Permission -/

/-- A change of a cache that denies viewers nothing new takes no phase further. -/
theorem phased_changeCache (cache : Nat) {f : PermissionCache → PermissionCache}
    (hf : ∀ p : PermissionCache, (∀ user, p.decision? user .viewer ≠ some false) →
      ∀ user, (f p).decision? user .viewer ≠ some false) :
    (World.changeCache cache f).Phased Serves (Deals user) (fun ph' _ => ph' = ph) ph := by
  refine phased_change fun w hw => ⟨⟨hw.moderation, hw.prices, hw.commands, ?_⟩, ph, ?_, rfl⟩
  · intro p hp
    obtain ⟨k, hk⟩ := List.getElem?_of_mem hp
    rw [List.getElem?_modify] at hk
    obtain ⟨q, hq, rfl⟩ := Option.map_eq_some_iff.1 hk
    have hadmits := hw.admits q (List.mem_of_getElem? hq)
    split
    · exact hf q hadmits
    · exact hadmits
  · exact ⟨rfl, .stays ph _⟩

/-- Anybody may do what viewers may do. -/
theorem phased_checkPermission (owners : Owners) (cache : Nat) (asked : String) :
    (checkPermission owners cache asked .viewer).Phased Serves (Deals user)
      (fun ph' allowed => ph' = ph ∧ allowed = true) ph := by
  -- whatever is known of the user, the decision is to allow
  have hdecide (caps : Option Capabilities) : ((World.changeCache cache
      (·.decide asked .viewer (Owners.permits caps .viewer))).bind fun _ =>
        .done (Owners.permits caps .viewer) : Activity Unit Bool).Phased Serves (Deals user)
      (fun ph' allowed => ph' = ph ∧ allowed = true) ph := by
    have hpermits : Owners.permits caps .viewer = true := by simp [Owners.permits]
    refine phased_bind (phased_changeCache cache fun p hp other => ?_) fun ph' _ hph => ?_
    · rw [PermissionCache.decide, PermissionCache.decision?, List.lookup_cons, hpermits]
      split
      · simp
      · exact hp other
    · exact ⟨hph, hpermits⟩
  refine phased_bind (phased_read (Q := fun p : PermissionCache =>
    ∀ user, p.decision? user .viewer ≠ some false) fun w hw => ?_) ?_
  · cases hcache : w.caches[cache]? with
    | none => simp [PermissionCache.decision?]
    | some p => exact hw.admits p (List.mem_of_getElem? hcache)
  · rintro ph' p ⟨rfl, hp⟩
    cases hdecision : p.decision? asked .viewer with
    | some allowed =>
      refine ⟨rfl, ?_⟩
      cases allowed with
      | true => rfl
      | false => exact absurd hdecision (hp asked)
    | none =>
      cases hknown : p.known[asked]? with
      | some caps => exact hdecide caps
      | none =>
        refine phased_bind (phased_of_keeps (keeps_act fun _ => rfl) (yields_true _)) ?_
        rintro _ record ⟨rfl, -⟩
        refine phased_bind (phased_changeCache cache fun q hq => hq) ?_
        rintro _ _ rfl
        exact hdecide (owners.capabilitiesOf record)

/-! ## Programs with a log -/

/-- From a phase and a log on, a program of a dispatch for a user deals as it may; its end has a
property. -/
def Performs {α : Type} (user : String) (p : Undoable Unit α) (ph : Phase) (l : RollbackLog Unit)
    (Q : Phase → α → RollbackLog Unit → Prop) : Prop :=
  (p.run l).Phased Serves (Deals user) (fun ph' r => Q ph' r.1 r.2) ph

section Performs

variable {α β : Type} {l : RollbackLog Unit} {Q : Phase → α → RollbackLog Unit → Prop}

/-- Programs of a dispatch in a row: the second goes on from the phase and the log of the first. -/
theorem performs_bind {Q' : Phase → β → RollbackLog Unit → Prop} {p : Undoable Unit α}
    {k : α → Undoable Unit β} (hp : Performs user p ph l Q)
    (hk : ∀ ph' a l', Q ph' a l' → Performs user (k a) ph' l' Q') :
    Performs user (p >>= k) ph l Q' := by
  unfold Performs
  rw [StateT.run_bind]
  exact phased_bind hp fun ph' r hr => hk ph' r.1 r.2 hr

/-- A program over the shared state alone leaves the log. -/
theorem performs_lift {Q : Phase → α → Prop} {p : Activity Unit α}
    (h : p.Phased Serves (Deals user) Q ph) :
    Performs user (StateT.lift p) ph l fun ph' a l' => Q ph' a ∧ l' = l := by
  unfold Performs
  rw [StateT.run_lift]
  exact phased_bind h fun ph' a ha => ⟨ha, rfl⟩

end Performs

/-! ## What changes accounts -/

/-- Setting a balance changes the account of its user alone. -/
theorem accounts_setBalance (w : World Unit) (user : String) (amount : Int64) :
    accounts { w with ledger := w.ledger.setBalance user amount } =
      Function.update (accounts w) user { accounts w user with balance := amount } := by
  funext other
  by_cases h : other = user
  · subst h
    simp [accounts, Points.balance_setBalance]
  · simp [accounts, Points.balance_setBalance, h]

/-- The accounts after a delivery. -/
theorem accounts_deliver (w : World Unit) (r : OutboundMessage) (user : String) :
    accounts { w with delivered := w.delivered ++ [r] } user =
      { accounts w user with
        hugs := (accounts w user).hugs + if r.sender.id = user && isHug r then 1 else 0
        refusals := (accounts w user).refusals +
          if r.sender.id = user && isRefusal r then 1 else 0 } := by
  simp [accounts, List.countP_append, List.countP_singleton]

/-- A hug that is delivered counts for the one whom it is sent to. -/
theorem accounts_deliver_hug (w : World Unit) {r : OutboundMessage} (hhug : isHug r = true)
    (hrefusal : isRefusal r = false) :
    accounts { w with delivered := w.delivered ++ [r] } =
      Function.update (accounts w) r.sender.id
        { accounts w r.sender.id with hugs := (accounts w r.sender.id).hugs + 1 } := by
  funext other
  rw [accounts_deliver]
  by_cases h : other = r.sender.id
  · simp [h, hhug, hrefusal]
  · simp [h, Ne.symm h]

/-- A refusal that is delivered counts for the one whom it is sent to. -/
theorem accounts_deliver_refusal (w : World Unit) {r : OutboundMessage} (hhug : isHug r = false)
    (hrefusal : isRefusal r = true) :
    accounts { w with delivered := w.delivered ++ [r] } =
      Function.update (accounts w) r.sender.id
        { accounts w r.sender.id with refusals := (accounts w r.sender.id).refusals + 1 } := by
  funext other
  rw [accounts_deliver]
  by_cases h : other = r.sender.id
  · simp [h, hhug, hrefusal]
  · simp [h, Ne.symm h]

/-- Any other message counts for nobody. -/
theorem accounts_deliver_other (w : World Unit) {r : OutboundMessage} (hhug : isHug r = false)
    (hrefusal : isRefusal r = false) :
    accounts { w with delivered := w.delivered ++ [r] } = accounts w := by
  funext other
  rw [accounts_deliver, hhug, hrefusal]
  simp

/-- Serving goes on whatever becomes of the ledger. -/
theorem Serves.ledger (hw : Serves w) (ledger : PointsLedger) : Serves { w with ledger } :=
  ⟨hw.moderation, hw.prices, hw.commands, hw.admits⟩

/-- Serving goes on whatever has been delivered. -/
theorem Serves.delivered (hw : Serves w) (delivered : List OutboundMessage) :
    Serves { w with delivered } :=
  ⟨hw.moderation, hw.prices, hw.commands, hw.admits⟩

/-! ## The price gate -/

/-- Charging ten points takes them, or finds that they are not there. -/
theorem phased_charge : (Points.charge Points.noOutage user 10 "price").Phased Serves (Deals user)
    (fun ph charged => (ph = .serving ∧ charged = .ok true) ∨
      (ph = .refusing ∧ charged = .ok false)) .asking := by
  refine phased_bind (Q := fun ph' charged =>
    (ph' = .serving ∧ charged = true) ∨ (ph' = .refusing ∧ charged = false)) ?_ ?_
  · refine phased_act fun w hw => ?_
    by_cases hshort : w.ledger.balance user < 10
    · have hwithdraw : w.ledger.withdraw user 10 = (false, w.ledger) := if_pos hshort
      dsimp only
      rw [hwithdraw]
      exact ⟨hw.ledger _, .refusing, ⟨rfl, .lacks _ hshort⟩, .inr ⟨rfl, rfl⟩⟩
    · have hwithdraw : w.ledger.withdraw user 10 =
          (true, w.ledger.setBalance user (w.ledger.balance user - 10)) := if_neg hshort
      dsimp only
      rw [hwithdraw]
      refine ⟨hw.ledger _, .serving, ⟨rfl, ?_⟩, .inl ⟨rfl, rfl⟩⟩
      rw [accounts_setBalance]
      exact .pays _ hshort
  · rintro _ _ (⟨rfl, rfl⟩ | ⟨rfl, rfl⟩)
    · refine phased_bind (phased_of_keeps (keeps_change fun _ => rfl) (yields_true _)) ?_
      rintro _ _ ⟨rfl, -⟩
      exact .inl ⟨rfl, rfl⟩
    · exact .inr ⟨rfl, rfl⟩

variable {l : RollbackLog Unit} {i : Invocation}

/-- Looking a price up finds that of the start, and takes no phase further. -/
theorem performs_match? (line : String) :
    Performs user (StateT.lift (Stepwise.read fun w => w.prices.match? line)) ph l
      fun ph' found l' => ph' = ph ∧ found = Console.prices.match? line ∧ l' = l := by
  have hread : (Stepwise.read fun w => w.prices.match? line : Activity Unit _).Phased Serves
      (Deals user) (fun ph' found => ph' = ph ∧ found = Console.prices.match? line) ph :=
    phased_read fun w hw => by rw [hw.prices]
  exact (performs_lift hread).mono fun _ _ h => ⟨h.1.1, h.1.2, h.2⟩

/-- The gate lets a hug through that is paid, and tells a sender who cannot pay. -/
theorem performs_gate_of_asks (hasks : asksForHug i.param = true) :
    Performs i.message.sender.id (Points.gate Locale.english Points.noOutage i) .asking {}
      fun ph v l => (ph = .serving ∧ v = .allowed []) ∨
        (ph = .refusing ∧ v = .denied [Points.notEnough Locale.english i "!hug" 10] ∧ l = {}) := by
  have hmatch : Console.prices.match? i.param = some ("!hug", 10) := by
    rw [match?_prices, if_pos hasks]
  unfold Points.gate
  apply performs_bind (performs_match? i.param)
  rintro _ _ _ ⟨rfl, rfl, rfl⟩
  rw [hmatch]
  apply performs_bind (performs_lift phased_charge)
  rintro _ _ _ ⟨⟨rfl, rfl⟩ | ⟨rfl, rfl⟩, rfl⟩
  · exact .inl ⟨rfl, rfl⟩
  · exact .inr ⟨rfl, rfl, rfl⟩

/-- The gate has nothing to do with any other line. -/
theorem performs_gate_of_not (hasks : asksForHug i.param = false) :
    Performs user (Points.gate Locale.english Points.noOutage i) ph l
      fun ph' v _ => ph' = ph ∧ v = .allowed [] := by
  have hmatch : Console.prices.match? i.param = none := by
    rw [match?_prices, if_neg (by simp [hasks])]
  unfold Points.gate
  apply performs_bind (performs_match? i.param)
  rintro _ _ _ ⟨rfl, rfl, rfl⟩
  rw [hmatch]
  exact ⟨rfl, rfl⟩

/-! ## The custom commands -/

section Responder

variable {e : Engine} {owners : Owners} {param : String}

/-- A command with one response that everybody may have gives what that comes to. -/
theorem phased_respond {r : CustomResponse} {Q : List OutboundMessage → Prop}
    (hviewer : r.permission = .viewer) (hstop : r.stopIfExecuted = false)
    (h : (Commands.renderResponse (ε := Unit) e i param r).Keeps counter ∧
      (Commands.renderResponse (ε := Unit) e i param r).Yields Q) :
    (Commands.respond e owners i param [r]).Phased Serves (Deals user)
      (fun ph' rs => ph' = ph ∧ Q rs) ph := by
  unfold Commands.respond
  rw [hviewer]
  apply phased_bind (phased_checkPermission owners i.cache i.message.sender.id)
  rintro _ _ ⟨rfl, rfl⟩
  apply phased_bind (phased_of_keeps h.1 h.2)
  rintro _ own ⟨rfl, hown⟩
  rw [hstop]
  refine ⟨rfl, ?_⟩
  show Q (own ++ [])
  rwa [List.append_nil]

/-- Looking a command up finds that of the start, and takes no phase further. -/
theorem performs_find? (line : String) :
    Performs user (StateT.lift (Stepwise.read fun w => w.commands.find? line)) ph l
      fun ph' found l' => ph' = ph ∧ found = book.find? line ∧ l' = l := by
  have hread : (Stepwise.read fun w => w.commands.find? line : Activity Unit _).Phased Serves
      (Deals user) (fun ph' found => ph' = ph ∧ found = book.find? line) ph :=
    phased_read fun w hw => by rw [hw.commands]
  exact (performs_lift hread).mono fun _ _ h => ⟨h.1.1, h.1.2, h.2⟩

/-- The custom commands answer a line that asks for a hug with one hug. -/
theorem performs_responder_of_asks (he : e.filters = {}) (hasks : asksForHug i.param = true) :
    Performs user (Commands.responder e owners Locale.english i) ph l fun ph' v _ =>
      ph' = ph ∧ ∃ r, v = .allowed [r] ∧ IsHugOf i.message.sender r := by
  obtain ⟨param, hfind⟩ := find?_book_of_asks hasks
  unfold Commands.responder
  apply performs_bind (performs_find? i.param)
  rintro _ _ _ ⟨rfl, rfl, rfl⟩
  rw [hfind]
  dsimp only
  rw [if_neg (by decide)]
  refine performs_bind (performs_lift (phased_respond rfl rfl
    (renderResponse_hug he List.mem_cons_self))) ?_
  rintro _ _ _ ⟨⟨rfl, r, rfl, hr⟩, rfl⟩
  exact ⟨rfl, r, rfl, hr⟩

/-- The custom commands answer any other line with messages that are neither hugs nor refusals. -/
theorem performs_responder_of_not (hasks : asksForHug i.param = false) :
    Performs user (Commands.responder e owners Locale.english i) ph l fun ph' v _ =>
      ph' = ph ∧ ∃ rs, v = .allowed rs ∧ ∀ r ∈ rs, IsOther r := by
  unfold Commands.responder
  apply performs_bind (performs_find? i.param)
  rintro _ _ _ ⟨rfl, rfl, rfl⟩
  rcases find?_book_of_not hasks with hfind | ⟨param, hfind⟩
  · rw [hfind]
    exact ⟨rfl, [], rfl, by simp⟩
  · rw [hfind]
    dsimp only
    rw [if_neg (by decide)]
    refine performs_bind (performs_lift (phased_respond rfl rfl
      (renderResponse_points List.mem_cons_self))) ?_
    rintro _ rs _ ⟨⟨rfl, hrs⟩, rfl⟩
    exact ⟨rfl, rs, rfl, hrs⟩

end Responder

/-! ## The dispatch of a line -/

/-- The price gate in the plan for a line. -/
def plannedGate (line : String) : Planned Unit :=
  ⟨0, Points.gateRegistration Locale.english Points.noOutage, "", spaced (Text.words line)⟩

/-- The custom commands in the plan for a line. -/
def plannedResponder (e : Engine) (owners : Owners) (line : String) : Planned Unit :=
  ⟨1, Commands.responderRegistration e owners Locale.english, "", spaced (Text.words line)⟩

/-- The plan for any line is the price gate, and then the custom commands. -/
theorem plan_dispatcherOf (e : Engine) (owners : Owners) (line : String) :
    (dispatcherOf e owners).registry.plan line =
      [plannedGate line, plannedResponder e owners line] :=
  rfl

/-- The responses are those that are due in a phase. -/
def Due (sender : Sender) (ph : Phase) (responses : List OutboundMessage) : Prop :=
  (ph = .serving ∧ ∃ r, responses = [r] ∧ IsHugOf sender r) ∨
    (ph = .refusing ∧ ∃ r, responses = [r] ∧ IsRefusalOf sender r) ∨
    (ph = .silent ∧ ∀ r ∈ responses, IsOther r)

section Dispatch

open Dispatcher

variable {d : Dispatcher Unit} {m : ChatMessage} {caps : Capabilities} {cache : Nat}

/-- A viewer's handler runs, and its verdict says how the plan goes on. -/
theorem performs_runPlan_cons {p : Planned Unit} {rest : List (Planned Unit)}
    {Q : Phase → Verdict → RollbackLog Unit → Prop}
    {Q' : Phase → DispatchState × List OutboundMessage → RollbackLog Unit → Prop}
    (hmode : p.registration.mode = .awaited) (hviewer : p.registration.permission = .viewer)
    (handler : Performs user (p.registration.handler (invocation m caps cache p)) ph l Q)
    (responses : List OutboundMessage)
    (next : ∀ ph' v l', Q ph' v l' → Performs user (match v with
      | .allowed own => runPlan d m caps cache false (responses ++ own) rest
      | .denied own => stop .denied responses own
      | .error => stop .error responses []
      | .panic => stop .panic responses []) ph' l' Q') :
    Performs user (runPlan d m caps cache false responses (p :: rest)) ph l Q' := by
  rw [runPlan_cons, hviewer]
  apply performs_bind (performs_lift (phased_checkPermission d.owners cache m.sender.id))
  rintro _ _ _ ⟨⟨rfl, rfl⟩, rfl⟩
  unfold attend
  rw [hmode]
  exact performs_bind handler next

/-- A dispatch that is stopped with nothing to give back keeps its responses. -/
theorem performs_stop (reason : FailureReason) (earlier own : List OutboundMessage) :
    Performs user (stop reason earlier own) ph {} fun ph' r _ =>
      ph' = ph ∧ r.2 = earlier ++ own := by
  refine performs_bind (performs_lift (phased_of_keeps (keeps_change fun _ => rfl)
    (yields_true _))) ?_
  rintro ph' _ _ ⟨⟨hph, -⟩, rfl⟩
  refine performs_bind (Q := fun ph'' n _ => ph'' = ph' ∧ n = 0) ⟨rfl, rfl⟩ ?_
  rintro _ _ _ ⟨rfl, rfl⟩
  exact ⟨hph, rfl⟩

/-- A line that asks for a hug is paid for and served, or refused; any other line is answered
without a hug. -/
theorem performs_runPlan {e : Engine} (he : e.filters = {}) (owners : Owners) :
    Performs m.sender.id (runPlan (dispatcherOf e owners) m caps cache false []
        ((dispatcherOf e owners).registry.plan m.text))
      (if asksForHug m.text then .asking else .silent) {} fun ph r _ => Due m.sender ph r.2 := by
  rw [plan_dispatcherOf]
  have hparam := asksForHug_spaced_words m.text
  -- every line is given to the gate, and then to the responder unless the gate refuses
  let gate := invocation m caps cache (plannedGate m.text)
  let responder := invocation m caps cache (plannedResponder e owners m.text)
  cases hasks : asksForHug m.text with
  | true =>
    rw [hasks] at hparam
    rw [if_pos rfl]
    have hgate := performs_gate_of_asks (i := gate) hparam
    have hresponder (l : RollbackLog Unit) : Performs m.sender.id
        (Commands.responder e owners Locale.english responder) .serving l fun ph v _ =>
          ph = .serving ∧ ∃ r, v = .allowed [r] ∧ IsHugOf m.sender r :=
      performs_responder_of_asks he hparam
    apply performs_runPlan_cons (p := plannedGate m.text) rfl rfl hgate []
    rintro _ _ l (⟨rfl, rfl⟩ | ⟨rfl, rfl, rfl⟩)
    · refine performs_runPlan_cons (p := plannedResponder e owners m.text) rfl rfl (hresponder l)
        ([] ++ []) ?_
      rintro _ _ _ ⟨rfl, r, rfl, hr⟩
      exact .inl ⟨rfl, r, rfl, hr⟩
    · apply Phased.mono (performs_stop .denied [] _)
      rintro _ r ⟨rfl, hr⟩
      exact .inr (.inl ⟨rfl, _, hr, isRefusalOf_notEnough (i := gate)⟩)
  | false =>
    rw [hasks] at hparam
    rw [if_neg (by decide)]
    have hgate : Performs m.sender.id (Points.gate Locale.english Points.noOutage gate) .silent {}
        fun ph v _ => ph = .silent ∧ v = .allowed [] :=
      performs_gate_of_not hparam
    have hresponder (l : RollbackLog Unit) : Performs m.sender.id
        (Commands.responder e owners Locale.english responder) .silent l fun ph v _ =>
          ph = .silent ∧ ∃ rs, v = .allowed rs ∧ ∀ r ∈ rs, IsOther r :=
      performs_responder_of_not hparam
    apply performs_runPlan_cons (p := plannedGate m.text) rfl rfl hgate []
    rintro _ _ l ⟨rfl, rfl⟩
    refine performs_runPlan_cons (p := plannedResponder e owners m.text) rfl rfl (hresponder l)
      ([] ++ []) ?_
    rintro _ _ _ ⟨rfl, rs, rfl, hrs⟩
    exact .inr (.inr ⟨rfl, by simpa using hrs⟩)

/-- What is due is delivered. -/
theorem phased_deliverAll {sender : Sender} {responses : List OutboundMessage}
    (due : Due sender ph responses) :
    (deliverAll responses).Phased Serves (Deals sender.id) (fun ph' _ => ph' = .silent) ph := by
  have hlast {w : World Unit} {r : OutboundMessage} (hw : Serves w) {ph : Phase}
      (h : Posts sender.id ph (accounts w)
        (accounts { w with delivered := w.delivered ++ [r] }) .silent) :
      Serves { w with delivered := w.delivered ++ [r] } ∧ ∃ ph', Deals sender.id ph w
        { w with delivered := w.delivered ++ [r] } ph' ∧ ph' = .silent :=
    ⟨hw.delivered _, .silent, ⟨rfl, h⟩, rfl⟩
  rcases due with ⟨rfl, r, rfl, hr⟩ | ⟨rfl, r, rfl, hr⟩ | ⟨rfl, hothers⟩
  · refine phased_bind (phased_change fun w hw => hlast hw ?_) fun _ _ h => h
    rw [accounts_deliver_hug w hr.hug hr.refusal, hr.sender_eq]
    exact .hugs _
  · refine phased_bind (phased_change fun w hw => hlast hw ?_) fun _ _ h => h
    rw [accounts_deliver_refusal w hr.hug hr.refusal, hr.sender_eq]
    exact .refuses _
  · induction responses with
    | nil => exact rfl
    | cons r rest ih =>
      obtain ⟨hr, hrest⟩ := List.forall_mem_cons.1 hothers
      refine phased_bind (Q := fun ph' _ => ph' = .silent)
        (phased_change fun w hw => hlast hw ?_) ?_
      · rw [accounts_deliver_other w hr.1 hr.2]
        exact .stays _ _
      · rintro _ _ rfl
        exact ih hrest

/-- Opening the cache of a dispatch takes no phase further. -/
theorem phased_openCache (caps : Capabilities) :
    (World.openCache (.ofSender caps)).Phased Serves (Deals user) (fun ph' _ => ph' = ph) ph := by
  refine phased_act fun w hw => ⟨⟨hw.moderation, hw.prices, hw.commands, ?_⟩, ph,
    ⟨rfl, .stays ph _⟩, rfl⟩
  intro p hp
  rcases List.mem_append.1 hp with hp | hp
  · exact hw.admits p hp
  · obtain rfl := List.mem_singleton.1 hp
    intro user h
    cases h

/-- Counting the end of a dispatch takes no phase further. -/
theorem phased_finish (state : DispatchState) (responses : List OutboundMessage) :
    (finish state responses).Phased Serves (Deals user) (fun ph' _ => ph' = ph) ph := by
  refine phased_bind (phased_of_keeps (keeps_change fun _ => rfl) (yields_true _)) ?_
  rintro _ _ ⟨rfl, -⟩
  exact rfl

/-- The dispatch of a line that asks for a hug deals with the account of its sender, and any other
dispatch leaves all accounts as they are. -/
theorem phased_dispatch {e : Engine} (he : e.filters = {}) (owners : Owners)
    (hskip : m.skip = false) (hquiet : m.quiet = false) :
    ((dispatcherOf e owners).dispatch m).Phased Serves (Deals m.sender.id)
      (fun ph _ => ph = .silent) (if asksForHug m.text then .asking else .silent) := by
  have hkeeps {α : Type} {ph : Phase} {l : RollbackLog Unit} {p : Activity Unit α}
      (h : p.Keeps counter) : Performs m.sender.id (StateT.lift p) ph l
        fun ph' _ l' => ph' = ph ∧ l' = l :=
    Phased.mono (performs_lift (phased_of_keeps h (yields_true p))) fun _ _ h => ⟨h.1.1, h.2⟩
  have hconduct : Performs m.sender.id (conduct (dispatcherOf e owners) m)
      (if asksForHug m.text then .asking else .silent) {} fun ph _ _ => ph = .silent := by
    -- the phase moves with the plan and with the delivery of its responses, and nowhere else
    unfold conduct
    refine performs_bind (performs_lift (phased_read (Q := (· = false)) fun w hw => ?_)) ?_
    · rw [hw.moderation]
      rfl
    rintro _ _ _ ⟨⟨rfl, rfl⟩, rfl⟩
    refine performs_bind (performs_lift (phased_read (Q := (· = false)) fun w hw => ?_)) ?_
    · rw [hw.moderation]
      rfl
    rintro _ _ _ ⟨⟨rfl, rfl⟩, rfl⟩
    apply performs_bind (hkeeps (keeps_act fun _ => rfl))
    rintro _ record _ ⟨rfl, rfl⟩
    apply performs_bind (performs_lift (phased_openCache _))
    rintro _ cache _ ⟨rfl, rfl⟩
    apply performs_bind (hkeeps (keeps_read _))
    rintro _ known _ ⟨rfl, rfl⟩
    rw [hskip, hquiet]
    apply performs_bind (performs_runPlan he owners)
    rintro ph ⟨state, responses⟩ l due
    refine performs_bind (Q := fun ph' _ _ => ph' = ph) rfl ?_
    rintro _ _ _ rfl
    apply performs_bind (performs_lift (phased_deliverAll due))
    rintro _ _ _ ⟨rfl, rfl⟩
    refine performs_bind (hkeeps (keeps_change fun _ => rfl)) ?_
    rintro _ _ _ ⟨rfl, rfl⟩
    exact Phased.mono (performs_lift (phased_finish state responses)) fun _ _ h => h.1
  exact phased_bind hconduct fun _ _ h => h

end Dispatch

end ChatBot.Console
