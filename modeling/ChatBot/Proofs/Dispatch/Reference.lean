import ChatBot.Proofs.Dispatch.Course

/-!
# Dispatching follows its course

`Dispatcher.dispatch` is a loop with early exits, a log that is replayed or dropped, and a delivery
that may be suppressed. `Dispatcher.Handling` tells the same as a course of turns and an ending.
Main statement: a run of the program is exactly such a handling (`run_dispatch_eq_iff`).

One lemma per layer leads there: what one turn is to the loop (`TakesTurn.play_goesOn`,
`TakesTurn.play_stop`), what a course is (`Course.play_delivered`, `Course.play_stop`), what an
ending is (`Course.play_ending`), and what comes around the loop (`play_conduct`). That every line
has a handling at all is shown without the program (`Handling.total`), so the relation is neither
empty nor loose.
-/

set_option autoImplicit false

namespace ChatBot

/-! ## Giving back -/

section Repayment

variable {ε : Type}

/-- Compensations in a row are carried out as the relation says. -/
theorem Repayment.run_carryOut {entries : List (RollbackEntry ε)} {w w' : World ε}
    {repaid : List (RollbackEntry ε × Bool)} (h : Repayment entries w repaid w') :
    (RollbackLog.carryOut entries).run w = ((), w') := by
  induction h with
  | finished w => rfl
  | @next e rest w w' w'' worked repaid run course ih =>
    simp only [RollbackLog.carryOut, Stepwise.bind_eq, Stepwise.run_bind, run]
    cases worked with
    | true => simpa [World.count, World.repaid] using ih
    | false => simpa [World.repaid] using ih

/-- Every row of compensations can be carried out from every state. -/
theorem Repayment.total (entries : List (RollbackEntry ε)) (w : World ε) :
    ∃ repaid w', Repayment entries w repaid w' := by
  induction entries generalizing w with
  | nil => exact ⟨[], w, .finished w⟩
  | cons e rest ih =>
    obtain ⟨repaid, w', h⟩ := ih ((e.compensation.run w).2.repaid (e.compensation.run w).1)
    exact ⟨_, w', .next rfl h⟩

/-- A replay carries out the pending compensations, the latest first, empties the log and gives
their number. -/
theorem Scene.play_replay (s : Scene ε) {repaid : List (RollbackEntry ε × Bool)} {w : World ε}
    (h : Repayment s.log.entries.reverse s.world repaid w) :
    s.play RollbackLog.replay = (s.log.entries.length, ⟨w, {}⟩) := by
  unfold RollbackLog.replay
  simp only [play_bind, play_get, play_set, play_lift, play_pure, h.run_carryOut]

/-- Stopping a dispatch counts the failure, gives back what is pending and picks the responses. -/
theorem Scene.play_stop (s : Scene ε) {reason : FailureReason}
    {repaid : List (RollbackEntry ε × Bool)} {w : World ε}
    (h : Repayment s.log.entries.reverse (s.world.failing reason) repaid w)
    (earlier own : List OutboundMessage) :
    s.play (Dispatcher.stop reason earlier own) =
      (if 0 < s.log.entries.length then (.rolledBack, own) else (.vetoed, earlier ++ own),
        ⟨w, {}⟩) := by
  have hw : ((Dispatcher.countFailure reason).run s.world).2 = s.world.failing reason := by
    cases reason <;> rfl
  unfold Dispatcher.stop
  simp only [play_bind, play_lift, hw, play_pure,
    play_replay ⟨s.world.failing reason, s.log⟩ h]

end Repayment

namespace Dispatcher

variable {ε : Type} {d : Dispatcher ε} {m : ChatMessage} {caps : Capabilities} {cache : Nat}

/-! ## One turn -/

/-- Skipping within the loop is the same as taking the skipped handlers out of the plan. -/
theorem runPlan_eq_filter (skipping : Bool) (responses : List OutboundMessage)
    (plan : List (Planned ε)) :
    runPlan d m caps cache skipping responses plan =
      runPlan d m caps cache false responses
        (plan.filter fun p => !(skipping && p.registration.skippable)) := by
  induction plan generalizing responses with
  | nil => rfl
  | cons p rest ih =>
    by_cases hs : (skipping && p.registration.skippable) = true
    · rw [runPlan, if_pos hs, ih, List.filter_cons_of_neg (by simp [hs])]
    · rw [runPlan, if_neg hs, List.filter_cons_of_pos (by simp only [hs, Bool.not_false]), runPlan]
      simp only [Bool.false_and, Bool.false_eq_true, if_false, ih]

/-- What the loop does about a handler once its permission has been checked. -/
def attend (d : Dispatcher ε) (m : ChatMessage) (caps : Capabilities) (cache : Nat)
    (responses : List OutboundMessage) (rest : List (Planned ε)) (p : Planned ε)
    (permitted : Bool) : Undoable ε (DispatchState × List OutboundMessage) :=
  match p.registration.mode with
  | .fireAndForget => do
    if permitted then
      StateT.lift (enqueue ⟨p.index, invocation m caps cache p, m.quiet⟩)
    runPlan d m caps cache false responses rest
  | .awaited =>
    if !permitted then stop .permission responses []
    else do
      match ← p.registration.handler (invocation m caps cache p) with
      | .allowed own => runPlan d m caps cache false (responses ++ own) rest
      | .denied own => stop .denied responses own
      | .error => stop .error responses []
      | .panic => stop .panic responses []

/-- The loop first checks the permission of a handler. -/
theorem runPlan_cons (responses : List OutboundMessage) (p : Planned ε) (rest : List (Planned ε)) :
    runPlan d m caps cache false responses (p :: rest) =
      StateT.lift (checkPermission d.owners cache m.sender.id p.registration.permission) >>=
        attend d m caps cache responses rest p := by
  rw [runPlan]
  exact if_neg (by simp)

/-- The loop on a handler whose permission has been checked. -/
theorem play_runPlan_cons (s : Scene ε) {p : Planned ε} {permitted : Bool} {w : World ε}
    (h : d.permission m cache p s.world = (permitted, w)) (responses : List OutboundMessage)
    (rest : List (Planned ε)) :
    s.play (runPlan d m caps cache false responses (p :: rest)) =
      Scene.play ⟨w, s.log⟩ (attend d m caps cache responses rest p permitted) := by
  unfold permission at h
  rw [runPlan_cons, Scene.play_bind, Scene.play_lift, h]

/-- A turn that lets the line go on: the loop goes on from the scene it leaves. -/
theorem TakesTurn.play_goesOn {s : Scene ε} {t : Turn ε} (h : d.TakesTurn m caps cache s t)
    (going : t.fate.GoesOn) (responses : List OutboundMessage) (rest : List (Planned ε)) :
    s.play (runPlan d m caps cache false responses (t.planned :: rest)) =
      t.left.play (runPlan d m caps cache false (responses ++ t.fate.responses) rest) := by
  cases h with
  | passedOver mode permitted =>
    rw [play_runPlan_cons s permitted, attend, mode]
    simp [Fate.responses]
  | queued mode permitted =>
    rw [play_runPlan_cons s permitted, attend, mode]
    simp only [if_true, Scene.play_bind, Scene.play_lift, Fate.responses, List.append_nil]
    rfl
  | lacking mode permitted => exact going.elim
  | @ran p w v s' mode permitted run =>
    rw [play_runPlan_cons s permitted, attend, mode]
    simp only [Bool.not_true, Bool.false_eq_true, if_false, Scene.play_bind, run]
    cases v with
    | allowed own => rfl
    | denied own => exact going.elim
    | error => exact going.elim
    | panic => exact going.elim

/-- A turn that fails: the loop stops for its reason and with its responses. -/
theorem TakesTurn.play_stop {s : Scene ε} {t : Turn ε} {reason : FailureReason}
    {own : List OutboundMessage} (h : d.TakesTurn m caps cache s t)
    (failed : t.fate = .failed reason own) (responses : List OutboundMessage)
    (rest : List (Planned ε)) :
    s.play (runPlan d m caps cache false responses (t.planned :: rest)) =
      t.left.play (stop reason responses own) := by
  cases h with
  | passedOver mode permitted => cases failed
  | queued mode permitted => cases failed
  | lacking mode permitted =>
    cases failed
    rw [play_runPlan_cons s permitted, attend, mode]
    rfl
  | @ran p w v s' mode permitted run =>
    rw [play_runPlan_cons s permitted, attend, mode]
    simp only [Bool.not_true, Bool.false_eq_true, if_false, Scene.play_bind, run]
    cases v with
    | allowed own => cases failed
    | denied own => cases failed; rfl
    | error => cases failed; rfl
    | panic => cases failed; rfl

/-- Every planned handler can take its turn in every scene. -/
theorem TakesTurn.total (p : Planned ε) (s : Scene ε) :
    ∃ t : Turn ε, t.planned = p ∧ d.TakesTurn m caps cache s t := by
  rcases hp : d.permission m cache p s.world with ⟨permitted, w⟩
  cases hm : p.registration.mode with
  | fireAndForget =>
    cases permitted with
    | false => exact ⟨_, rfl, .passedOver hm hp⟩
    | true => exact ⟨_, rfl, .queued hm hp⟩
  | awaited =>
    cases permitted with
    | false => exact ⟨_, rfl, .lacking hm hp⟩
    | true => exact ⟨_, rfl, .ran hm hp rfl⟩

/-! ## A whole course -/

section Course

variable {due : List (Planned ε)} {s s' : Scene ε} {turns : List (Turn ε)}

/-- Every list of handlers has a course from every scene. -/
theorem Course.total (due : List (Planned ε)) (s : Scene ε) :
    ∃ turns s', d.Course m caps cache due s turns s' := by
  induction due generalizing s with
  | nil => exact ⟨[], s, .finished s⟩
  | cons p rest ih =>
    obtain ⟨t, rfl, turn⟩ : ∃ t : Turn ε, t.planned = p ∧ d.TakesTurn m caps cache s t :=
      TakesTurn.total p s
    by_cases going : t.fate.GoesOn
    · obtain ⟨turns, s', course⟩ := ih t.left
      exact ⟨t :: turns, s', .goesOn turn going course⟩
    · exact ⟨[t], t.left, .stops turn going⟩

/-- In a course either all turns let the line go on, or only the last one fails. -/
theorem Course.goesOn_or_failed (h : d.Course m caps cache due s turns s') :
    (∀ t ∈ turns, t.fate.GoesOn) ∨
      ∃ earlier t reason own, turns = earlier ++ [t] ∧ t.fate = .failed reason own := by
  induction h with
  | finished s => exact .inl (by simp)
  | @goesOn s s' t rest turns turn going course ih =>
    rcases ih with ih | ⟨earlier, last, reason, own, rfl, failed⟩
    · exact .inl (List.forall_mem_cons.2 ⟨going, ih⟩)
    · exact .inr ⟨t :: earlier, last, reason, own, rfl, failed⟩
  | @stops s t rest turn stops =>
    cases hf : t.fate with
    | failed reason own => exact .inr ⟨[], t, reason, own, rfl, hf⟩
    | passedOver => exact (stops (hf ▸ trivial)).elim
    | queued => exact (stops (hf ▸ trivial)).elim
    | allowed own => exact (stops (hf ▸ trivial)).elim

/-- A course in which nobody fails is what the loop does when it delivers. -/
theorem Course.play_delivered (h : d.Course m caps cache due s turns s')
    (going : ∀ t ∈ turns, t.fate.GoesOn) (responses : List OutboundMessage) :
    s.play (runPlan d m caps cache false responses due) =
      ((.delivered, responses ++ turns.flatMap fun t => t.fate.responses), s') := by
  induction h generalizing responses with
  | finished s => simp [runPlan]
  | goesOn turn here course ih =>
    rw [turn.play_goesOn here, ih fun t ht => going t (List.mem_cons_of_mem _ ht)]
    simp only [List.flatMap_cons, List.append_assoc]
  | stops turn stops => exact absurd (going _ List.mem_cons_self) stops

/-- A course that ends with a failure is what the loop does up to where it stops. -/
theorem Course.play_stop {earlier : List (Turn ε)} {t : Turn ε} {reason : FailureReason}
    {own : List OutboundMessage} (h : d.Course m caps cache due s turns s')
    (last : turns = earlier ++ [t]) (failed : t.fate = .failed reason own)
    (responses : List OutboundMessage) :
    s.play (runPlan d m caps cache false responses due) =
      s'.play (stop reason (responses ++ earlier.flatMap fun t => t.fate.responses) own) := by
  -- the course ends with the turn that failed, so `earlier` gets shorter with the course
  induction h generalizing responses earlier with
  | finished s => simp at last
  | goesOn turn going course ih =>
    cases earlier with
    | nil =>
      obtain ⟨rfl, -⟩ := List.cons.inj last
      rw [failed] at going
      exact going.elim
    | cons e es =>
      obtain ⟨rfl, hturns⟩ := List.cons.inj last
      rw [turn.play_goesOn going, ih hturns]
      simp only [List.flatMap_cons, List.append_assoc]
  | stops turn stops =>
    cases earlier with
    | nil =>
      obtain ⟨rfl, -⟩ := List.cons.inj last
      rw [turn.play_stop failed]
      simp only [List.flatMap_nil, List.append_nil]
    | cons e es => simp at last

/-- Every course has an ending. -/
theorem Course.exists_ending (h : d.Course m caps cache due s turns s') :
    ∃ repaid state responses w', Ending turns s' repaid state responses w' := by
  rcases h.goesOn_or_failed with going | ⟨earlier, t, reason, own, last, failed⟩
  · exact ⟨_, _, _, _, .delivered going⟩
  · by_cases pending : s'.log.entries = []
    · exact ⟨_, _, _, _, .vetoed last failed pending⟩
    · obtain ⟨repaid, w', repayment⟩ :=
        Repayment.total s'.log.entries.reverse (s'.world.failing reason)
      exact ⟨_, _, _, _, .rolledBack last failed pending repayment⟩

/-- A course with its ending is what the loop does from its first handler on. -/
theorem Course.play_ending {repaid : List (RollbackEntry ε × Bool)} {state : DispatchState}
    {responses : List OutboundMessage} {w' : World ε} (h : d.Course m caps cache due s turns s')
    (ending : Ending turns s' repaid state responses w') :
    ∃ l, s.play (runPlan d m caps cache false [] due) = ((state, responses), ⟨w', l⟩) := by
  cases ending with
  | delivered going => exact ⟨s'.log, h.play_delivered going []⟩
  | @vetoed earlier t reason own last failed empty =>
    have hr : Repayment s'.log.entries.reverse (s'.world.failing reason) []
        (s'.world.failing reason) := by
      rw [empty]
      exact .finished _
    refine ⟨{}, ?_⟩
    rw [h.play_stop last failed, s'.play_stop hr, empty]
    rfl
  | rolledBack last failed pending repayment =>
    refine ⟨{}, ?_⟩
    rw [h.play_stop last failed, s'.play_stop repayment,
      if_pos (List.length_pos_iff.2 pending)]

end Course

/-! ## What comes around the loop -/

/-- Delivering messages appends them to what was delivered before. -/
theorem run_deliverAll (responses : List OutboundMessage) (w : World ε) :
    (deliverAll responses).run w = ((), { w with delivered := w.delivered ++ responses }) := by
  induction responses generalizing w with
  | nil => simp [deliverAll]
  | cons r rest ih =>
    simp only [deliverAll, World.deliver, Stepwise.bind_eq, Stepwise.run_bind,
      Stepwise.run_change, ih, List.append_assoc, List.singleton_append]

/-- Finishing a dispatch counts its end and gives the outcome. -/
theorem run_finish (state : DispatchState) (responses : List OutboundMessage) (w : World ε) :
    (finish state responses).run w = (⟨state, responses⟩, w.concluded state) := rfl

/-- What a fresh cache knows about a user: only the sender that it was opened for. -/
theorem ofSender_capabilities (c : Capabilities) (user : String) :
    (PermissionCache.ofSender c).capabilities user =
      if c.userId = user then some c else none := by
  unfold PermissionCache.capabilities PermissionCache.ofSender PermissionCache.seeded
  simp only [Std.ExtTreeMap.getElem?_insert]
  by_cases h : c.userId = user
  · simp [h]
  · simp [h]

/-- The fresh cache of a dispatch knows the standing of its sender. -/
theorem ofSender_standing (d : Dispatcher ε) (m : ChatMessage) (w : World ε) :
    ((PermissionCache.ofSender (d.owners.capabilities (w.directory.find? m.sender.id)
      m.sender)).capabilities m.sender.id).getD (.viewer m.sender) = d.standing m w := by
  rw [ofSender_capabilities, standing]
  split <;> rfl

/-- The flag that the program works out gives the handlers that are due. -/
theorem plan_filter_eq_due (d : Dispatcher ε) (m : ChatMessage) (w : World ε) :
    ((d.registry.plan m.text).filter fun p =>
      !((m.skip && (d.standing m w).isPrivileged) && p.registration.skippable)) = d.due m w := by
  unfold due
  by_cases h : d.HonoursSkip m w
  · have hs : (m.skip && (d.standing m w).isPrivileged) = true := by
      simpa [HonoursSkip, Capabilities.isPrivileged] using h
    rw [if_pos h, hs]
    simp only [Bool.true_and]
  · have hs : (m.skip && (d.standing m w).isPrivileged) = false := by
      simpa [HonoursSkip, Capabilities.isPrivileged] using h
    rw [if_neg h, hs]
    simp

/-- What follows the loop: the responses are delivered, unless the line asks for quiet, and the end
is counted. -/
def answer (m : ChatMessage) (state : DispatchState) (responses : List OutboundMessage) :
    Undoable ε DispatchOutcome :=
  if m.quiet then StateT.lift (finish state [])
  else do
    StateT.lift (deliverAll responses)
    StateT.lift (Stepwise.change fun w =>
      { w with stats :=
          { w.stats with
            responsesDelivered := w.stats.responsesDelivered + responses.length } })
    StateT.lift (finish state responses)

/-- What follows the loop, played: the responses that are heard, the end that is counted, and the
log as it was. -/
theorem play_answer (s : Scene ε) (state : DispatchState) (responses : List OutboundMessage) :
    s.play (answer m state responses) =
      (⟨state, m.heard responses⟩,
        ⟨(s.world.answered (m.heard responses)).concluded state, s.log⟩) := by
  unfold answer
  unfold ChatMessage.heard
  cases m.quiet with
  | true =>
    simp only [if_true, Scene.play_lift, run_finish, World.answered, List.append_nil,
      List.length_nil, Nat.add_zero]
  | false =>
    simp only [Bool.false_eq_true, if_false, Scene.play_bind, Scene.play_lift, run_deliverAll,
      Stepwise.run_change, run_finish, World.answered]

/-- A line that moderation lets pass goes through the loop over the handlers that are due. -/
theorem play_conduct {w : World ε} {s : Scene ε} {state : DispatchState}
    {responses : List OutboundMessage} (heard : w.moderation.ignores m.sender = false)
    (clean : w.moderation.stops m = false)
    (loop : Scene.play ⟨w.opened d.owners m.sender, {}⟩
      (runPlan d m (d.standing m w) w.caches.length false [] (d.due m w)) =
        ((state, responses), s)) :
    Scene.play ⟨w, {}⟩ (d.conduct m) =
      (⟨state, m.heard responses⟩,
        ⟨(s.world.answered (m.heard responses)).concluded state, {}⟩) := by
  unfold World.opened at loop
  unfold conduct
  simp only [Scene.play_bind, Scene.play_lift, World.isIgnored, World.isModerated,
    Stepwise.run_read, heard, clean, Bool.false_eq_true, if_false, World.findUser,
    World.openCache, World.readCache, Stepwise.run_act, List.getElem?_concat_length,
    Option.getD_some, ofSender_standing]
  rw [runPlan_eq_filter, plan_filter_eq_due, loop, Scene.play_discard]
  exact play_answer _ state responses

/-- A dispatch starts with an empty log, and drops what is left of it. -/
theorem run_dispatch (d : Dispatcher ε) (m : ChatMessage) (w : World ε) :
    (d.dispatch m).run w =
      ((Scene.play ⟨w, {}⟩ (d.conduct m)).1, (Scene.play ⟨w, {}⟩ (d.conduct m)).2.world) := by
  unfold dispatch Scene.play
  simp only [Stepwise.bind_eq, Stepwise.run_bind, Stepwise.pure_eq_done, Stepwise.run_done]

/-! ## The whole dispatch -/

/-- The program gives what a handling says. -/
theorem Handling.run_dispatch {w w' : World ε} {turns : List (Turn ε)}
    {repaid : List (RollbackEntry ε × Bool)} {outcome : DispatchOutcome}
    (h : d.Handling m w turns repaid outcome w') : (d.dispatch m).run w = (outcome, w') := by
  rw [Dispatcher.run_dispatch]
  cases h with
  | ignored ignored =>
    unfold conduct
    simp only [Scene.play_bind, Scene.play_lift, World.isIgnored, Stepwise.run_read, ignored,
      if_true, run_finish]
  | moderated heard moderated =>
    unfold conduct
    simp only [Scene.play_bind, Scene.play_lift, World.isIgnored, World.isModerated,
      Stepwise.run_read, heard, moderated, Bool.false_eq_true, if_false, if_true, run_finish]
  | handled heard clean course ending =>
    obtain ⟨l, loop⟩ := course.play_ending ending
    rw [play_conduct heard clean loop]

/-- Every line has a handling from every state. -/
theorem Handling.total (d : Dispatcher ε) (m : ChatMessage) (w : World ε) :
    ∃ turns repaid outcome w', d.Handling m w turns repaid outcome w' := by
  cases heard : w.moderation.ignores m.sender with
  | true => exact ⟨_, _, _, _, .ignored heard⟩
  | false =>
    cases clean : w.moderation.stops m with
    | true => exact ⟨_, _, _, _, .moderated heard clean⟩
    | false =>
      obtain ⟨turns, s, course⟩ : ∃ turns s, d.Course m (d.standing m w) w.caches.length
          (d.due m w) ⟨w.opened d.owners m.sender, {}⟩ turns s := Course.total _ _
      obtain ⟨repaid, state, responses, w', ending⟩ := course.exists_ending
      exact ⟨_, _, _, _, .handled heard clean course ending⟩

end Dispatcher

end ChatBot
