import ChatBot.Points.PriceGate
import ChatBot.Proofs.Dispatch.Compensation
import ChatBot.Proofs.Dispatch.Tiers
import Mathlib.Data.List.Dedup

/-!
# Which compensations are pending, and when they run

Handlers may do two things with the log of their dispatch: register compensations, and list what is
pending. Such a handler is a `Registering` program, and the registrations that it makes can be read
off it (`Registering.calls`). At every moment the pending compensations are, of all registrations
made so far, the last one for each resource, in the order of these (`LastOfEach`).

Main statement: if a handler fails, all pending compensations are carried out, each once and the
latest first, before anything is delivered, and otherwise none is; the log is empty afterwards
(`Dispatcher.handling_compensations`). The price gate is such a handler
(`Points.gate_eq_program`).
-/

set_option autoImplicit false

namespace ChatBot

variable {ε α β : Type}

/-! ## Programs that register -/

/-- A program of a dispatch that uses the log only to register compensations and to list them. -/
inductive Registering (ε α : Type) : Type where
  | done (value : α) : Registering ε α
  /-- One atomic step on the shared state. -/
  | step (update : World ε → World ε) (next : World ε → Registering ε α) : Registering ε α
  | register (e : RollbackEntry ε) (next : Registering ε α) : Registering ε α
  /-- What is pending is listed, without the compensations themselves. -/
  | list (next : List Json → Registering ε α) : Registering ε α

namespace Registering

/-- The program as a dispatch runs it. -/
def program : Registering ε α → Undoable ε α
  | done a => return a
  | step u n => do
    let w ← StateT.lift (Stepwise.step u Stepwise.done)
    (n w).program
  | register e n => do
    RollbackLog.register e
    n.program
  | list n => do
    let entries ← RollbackLog.pending
    (n (entries.map RollbackEntry.toJson)).program

/-- The registrations that a program makes from a scene, in order. -/
def calls : Registering ε α → Scene ε → List (RollbackEntry ε)
  | done _, _ => []
  | step u n, s => (n s.world).calls ⟨u s.world, s.log⟩
  | register e n, s => e :: n.calls ⟨s.world, s.log.add e⟩
  | list n, s => (n (s.log.entries.map RollbackEntry.toJson)).calls s

/-- Programs in a row. -/
def bind : Registering ε α → (α → Registering ε β) → Registering ε β
  | done a, k => k a
  | step u n, k => step u fun w => (n w).bind k
  | register e n, k => register e (n.bind k)
  | list n, k => list fun entries => (n entries).bind k

/-- A program over the shared state alone. -/
def lift : Activity ε α → Registering ε α
  | .done a => done a
  | .step u n => step u fun w => lift (n w)

/-- Programs that register, in a row, are their programs in a row. -/
theorem program_bind (p : Registering ε α) (k : α → Registering ε β) :
    (p.bind k).program = p.program >>= fun a => (k a).program := by
  induction p with
  | done a => simp only [bind, program, pure_bind]
  | step u n ih => simp only [bind, program, ih, bind_assoc]
  | register e n ih => simp only [bind, program, ih, bind_assoc]
  | list n ih => simp only [bind, program, ih, bind_assoc]

/-- A program over the shared state alone registers nothing. -/
theorem program_lift (p : Activity ε α) : (lift p).program = StateT.lift p := by
  induction p with
  | done a => rfl
  | step u n ih =>
    simp only [lift, program, ih]
    rfl

/-- A program leaves the log with its registrations. -/
theorem log_play_program (p : Registering ε α) (s : Scene ε) :
    (s.play p.program).2.log = (p.calls s).foldl RollbackLog.add s.log := by
  induction p generalizing s with
  | done a => rfl
  | step u n ih =>
    rw [program, Scene.play_bind]
    exact ih s.world ⟨u s.world, s.log⟩
  | register e n ih =>
    rw [program, Scene.play_bind]
    exact ih ⟨s.world, s.log.add e⟩
  | list n ih =>
    rw [program, Scene.play_bind]
    exact ih _ s

end Registering

/-! ## The last registration of each resource -/

/-- Of some registrations, made in order, the pending ones are the last for each resource, in the
order of these. -/
structure LastOfEach (registered pending : List (RollbackEntry ε)) : Prop where
  once : (pending.map fun e => e.resource).Nodup
  last : ∀ resource, pending.find? (fun e => e.resource = resource) =
    (registered.filter fun e => e.resource = resource).getLast?
  order : (pending.map fun e => e.resource) = (registered.map fun e => e.resource).dedup

namespace RollbackLog

/-- Some compensation is for a resource if it is among their resources. -/
theorem covers_iff {entries : List (RollbackEntry ε)} {resource : String} :
    covers entries resource = true ↔ resource ∈ entries.map fun e => e.resource := by
  simp [covers]

/-- Of the latest compensations, the one of a resource is the last that was registered for it. -/
theorem find?_latest (registered : List (RollbackEntry ε)) (resource : String) :
    (latest registered).find? (fun e => e.resource = resource) =
      (registered.filter fun e => e.resource = resource).getLast? := by
  induction registered with
  | nil => rfl
  | cons e rest ih =>
    have hrest : covers rest e.resource = false → e.resource = resource →
        (rest.filter fun f => f.resource = resource) = [] := by
      rintro hcovers rfl
      refine List.filter_eq_nil_iff.2 fun f hf heq => ?_
      have hmem : e.resource ∈ rest.map fun e => e.resource :=
        List.mem_map.2 ⟨f, hf, of_decide_eq_true heq⟩
      rw [covers_iff.2 hmem] at hcovers
      cases hcovers
    rw [latest]
    by_cases hresource : e.resource = resource
    · rw [List.filter_cons_of_pos (by simpa using hresource)]
      cases hcovers : covers rest e.resource with
      | true =>
        obtain ⟨f, hf, heq⟩ := List.mem_map.1 (covers_iff.1 hcovers)
        have hmem : f ∈ rest.filter fun f => f.resource = resource :=
          List.mem_filter.2 ⟨hf, by simpa [heq] using hresource⟩
        rw [if_pos rfl, ih, List.getLast?_cons_of_ne_nil (List.ne_nil_of_mem hmem)]
      | false =>
        rw [if_neg Bool.false_ne_true, hrest hcovers hresource, List.find?_cons_of_pos]
        · rfl
        · simpa using hresource
    · rw [List.filter_cons_of_neg (by simpa using hresource), ← ih]
      split
      · rfl
      · rw [List.find?_cons_of_neg]
        simpa using hresource

/-- The latest compensations name each resource once, where it was named last. -/
theorem map_resource_latest (registered : List (RollbackEntry ε)) :
    ((latest registered).map fun e => e.resource) = (registered.map fun e => e.resource).dedup := by
  induction registered with
  | nil => rfl
  | cons e rest ih =>
    rw [latest, List.map_cons]
    split
    · rename_i hcovers
      rw [ih, List.dedup_cons_of_mem (covers_iff.1 hcovers)]
    · rename_i hcovers
      rw [List.map_cons, ih, List.dedup_cons_of_notMem (mt covers_iff.2 hcovers)]

/-- The latest compensations are the last for each resource, in the order of these. -/
theorem lastOfEach_latest (registered : List (RollbackEntry ε)) :
    LastOfEach registered (latest registered) where
  once := by
    rw [map_resource_latest]
    exact List.nodup_dedup _
  last := find?_latest registered
  order := map_resource_latest registered

/-- Compensations for different resources are determined by the resources and by which one is found
for each of these. -/
theorem eq_of_find? {l l' : List (RollbackEntry ε)} (once : (l.map fun e => e.resource).Nodup)
    (resources : (l.map fun e => e.resource) = l'.map fun e => e.resource)
    (found : ∀ resource, l.find? (fun e => e.resource = resource) =
      l'.find? fun e => e.resource = resource) : l = l' := by
  induction l generalizing l' with
  | nil => exact (List.map_eq_nil_iff.1 resources.symm).symm
  | cons e rest ih =>
    cases l' with
    | nil => cases resources
    | cons e' rest' =>
      obtain ⟨hresource, hresources⟩ := List.cons.inj resources
      obtain ⟨hfresh, hrest⟩ := List.nodup_cons.1 once
      have hfresh' : e.resource ∉ rest'.map fun e => e.resource := hresources ▸ hfresh
      have hhead := found e.resource
      rw [List.find?_cons_of_pos (by simp), List.find?_cons_of_pos (by simp [hresource])] at hhead
      obtain rfl := Option.some.inj hhead
      refine congrArg _ (ih hrest hresources fun resource => ?_)
      -- the resource of the first entry is that of no other, in either list
      by_cases heq : e.resource = resource
      · subst heq
        have hnone : ∀ entries : List (RollbackEntry ε),
            e.resource ∉ (entries.map fun e => e.resource) →
              entries.find? (fun f => f.resource = e.resource) = none := by
          intro entries hnotin
          refine List.find?_eq_none.2 fun f hf hfe => hnotin ?_
          exact List.mem_map.2 ⟨f, hf, of_decide_eq_true hfe⟩
        rw [hnone rest hfresh, hnone rest' hfresh']
      · have htails := found resource
        rwa [List.find?_cons_of_neg (by simpa using heq),
          List.find?_cons_of_neg (by simpa using heq)] at htails

/-- Registering one by one leaves the last compensation of each resource. -/
theorem lastOfEach_foldl_add (registered : List (RollbackEntry ε)) :
    LastOfEach registered (registered.foldl add {}).entries := by
  rw [entries_foldl_add, List.filter_nil, List.nil_append]
  exact lastOfEach_latest registered

end RollbackLog

/-- What is pending is determined by the registrations. -/
theorem LastOfEach.eq_latest {registered pending : List (RollbackEntry ε)}
    (h : LastOfEach registered pending) : pending = RollbackLog.latest registered := by
  apply RollbackLog.eq_of_find? h.once
  · rw [h.order, RollbackLog.map_resource_latest]
  · intro resource
    rw [h.last, RollbackLog.find?_latest]

/-! ## The registrations of a dispatch -/

/-- The registrations that are made in a turn, if awaited handlers run these programs. -/
def Turn.calls (script : Registration ε → Invocation → Registering ε Verdict) (m : ChatMessage)
    (caps : Capabilities) (cache : Nat) (t : Turn ε) : List (RollbackEntry ε) :=
  match t.fate with
  | .passedOver => []
  | .queued => []
  | .failed .permission _ => []
  | _ =>
    (script t.planned.registration (Dispatcher.invocation m caps cache t.planned)).calls t.start

namespace Dispatcher

variable {d : Dispatcher ε} {m : ChatMessage} {caps : Capabilities} {cache : Nat} {s s' : Scene ε}
  {script : Registration ε → Invocation → Registering ε Verdict}

/-- A handler that is due is registered. -/
theorem registration_mem_of_due {w : World ε} {p : Planned ε} (h : p ∈ d.due m w) :
    p.registration ∈ d.registry := by
  have hplan : p ∈ d.registry.plan m.text := by
    unfold due at h
    split at h
    · exact (List.mem_filter.1 h).1
    · exact h
  exact List.mem_of_getElem? (Registry.mem_tierPlan.1 (Registry.mem_plan.1 hplan)).1

/-- A turn adds to the log what is registered in it, in order. -/
theorem TakesTurn.log_left {t : Turn ε} (h : d.TakesTurn m caps cache s t)
    (registering : t.planned.registration.mode = .awaited → ∀ i,
      t.planned.registration.handler i = (script t.planned.registration i).program) :
    t.left.log = (t.calls script m caps cache).foldl RollbackLog.add t.start.log := by
  cases h with
  | passedOver mode permitted => rfl
  | queued mode permitted => rfl
  | lacking mode permitted => rfl
  | @ran p w v s' mode permitted run =>
    have hlog := Registering.log_play_program (script p.registration (invocation m caps cache p))
      ⟨w, s.log⟩
    rw [registering mode] at run
    rw [run] at hlog
    cases v <;> exact hlog

/-- Every turn of a course is that of a handler that is due. -/
theorem Course.takesTurn {due : List (Planned ε)} {turns : List (Turn ε)}
    (h : d.Course m caps cache due s turns s') :
    ∀ t ∈ turns, t.planned ∈ due ∧ ∃ s, d.TakesTurn m caps cache s t := by
  induction h with
  | finished s => simp
  | goesOn turn going course ih =>
    intro t ht
    rcases List.mem_cons.1 ht with rfl | ht
    · exact ⟨List.mem_cons_self, _, turn⟩
    · exact ⟨List.mem_cons_of_mem _ (ih t ht).1, (ih t ht).2⟩
  | stops turn stops =>
    intro t ht
    obtain rfl := List.mem_singleton.1 ht
    exact ⟨List.mem_cons_self, _, turn⟩

/-- A turn starts from the log that the registrations of the turns before it make. -/
theorem Course.log_start {due : List (Planned ε)} {turns : List (Turn ε)}
    {calls : Turn ε → List (RollbackEntry ε)} (h : d.Course m caps cache due s turns s')
    (registered : ∀ t ∈ turns, t.left.log = (calls t).foldl RollbackLog.add t.start.log)
    {earlier later : List (Turn ε)} {t : Turn ε} (split : turns = earlier ++ t :: later) :
    t.start.log = (earlier.flatMap calls).foldl RollbackLog.add s.log := by
  induction h generalizing earlier with
  | finished s => simp at split
  | goesOn turn going course ih =>
    have hstart := turn.start_eq.2
    have hleft := registered _ List.mem_cons_self
    cases earlier with
    | nil =>
      obtain ⟨rfl, -⟩ := List.cons.inj split
      exact hstart
    -- the first of the earlier turns is the one that the course starts with
    | cons e es =>
      obtain ⟨rfl, hrest⟩ := List.cons.inj split
      rw [ih (fun t' ht' => registered t' (List.mem_cons_of_mem _ ht')) hrest, hleft, hstart,
        List.flatMap_cons, List.foldl_append]
  | stops turn stops =>
    cases earlier with
    | nil =>
      obtain ⟨rfl, -⟩ := List.cons.inj split
      exact turn.start_eq.2
    | cons e es => simp at split

/-- A course ends with the scene that its last turn leaves. -/
theorem Course.eq_left {due : List (Planned ε)} {turns : List (Turn ε)}
    (h : d.Course m caps cache due s turns s') :
    s' = (turns.getLast?.map fun t => t.left).getD s := by
  induction h with
  | finished s => rfl
  | @goesOn s s' t rest turns turn going course ih =>
    rw [ih, List.getLast?_cons]
    cases turns.getLast? <;> rfl
  | stops turn stops => rfl

/-- At every turn the pending compensations are the last ones of those registered so far. -/
theorem Handling.lastOfEach {w w' : World ε} {turns : List (Turn ε)}
    {repaid : List (RollbackEntry ε × Bool)} {outcome : DispatchOutcome}
    (h : d.Handling m w turns repaid outcome w')
    (registering : ∀ r ∈ d.registry, r.mode = .awaited → ∀ i, r.handler i = (script r i).program)
    {earlier later : List (Turn ε)} {t : Turn ε} (split : turns = earlier ++ t :: later) :
    let calls := Turn.calls script m (d.standing m w) w.caches.length
    LastOfEach (earlier.flatMap calls) t.start.log.entries ∧
      LastOfEach ((earlier ++ [t]).flatMap calls) t.left.log.entries := by
  intro calls
  cases h with
  | ignored ignored => simp at split
  | moderated heard moderated => simp at split
  | handled heard clean course ending =>
    have registered : ∀ t ∈ turns, t.left.log = (calls t).foldl RollbackLog.add t.start.log := by
      intro t ht
      obtain ⟨hdue, s, turn⟩ := course.takesTurn t ht
      exact turn.log_left (registering _ (registration_mem_of_due hdue))
    have hstart := course.log_start registered split
    have hleft := registered t (by simp [split])
    rw [hstart] at hleft
    have happend : (earlier ++ [t]).flatMap calls = earlier.flatMap calls ++ calls t := by
      simp
    refine ⟨?_, ?_⟩
    · rw [hstart]
      exact RollbackLog.lastOfEach_foldl_add _
    · rw [hleft, ← List.foldl_append, happend]
      exact RollbackLog.lastOfEach_foldl_add _

/-! ## What is carried out -/

/-- The handling of a line is what its program does, and it leaves no compensation pending. -/
theorem Handling.play_conduct {w w' : World ε} {turns : List (Turn ε)}
    {repaid : List (RollbackEntry ε × Bool)} {outcome : DispatchOutcome}
    (h : d.Handling m w turns repaid outcome w') :
    Scene.play ⟨w, {}⟩ (d.conduct m) = (outcome, ⟨w', {}⟩) := by
  cases h with
  | ignored ignored =>
    unfold conduct
    simp only [Scene.play_bind, Scene.play_lift, World.isIgnored, Stepwise.run_read, ignored,
      if_true, run_finish]
  | moderated heard moderated =>
    unfold conduct
    simp only [Scene.play_bind, Scene.play_lift, World.isIgnored, World.isModerated,
      Stepwise.run_read, heard, moderated, Bool.false_eq_true, if_false, if_true, run_finish]
  | handled heard clean course ending =>
    obtain ⟨l, loop⟩ := course.play_ending ending
    exact Dispatcher.play_conduct heard clean loop

/-- If a turn fails, it is the last one, and all compensations that it leaves pending are carried
out before the responses are delivered. -/
theorem Handling.repayment_of_failed {w w' : World ε} {turns : List (Turn ε)}
    {repaid : List (RollbackEntry ε × Bool)} {outcome : DispatchOutcome}
    (h : d.Handling m w turns repaid outcome w') (failed : ∃ t ∈ turns, ¬ t.fate.GoesOn) :
    ∃ earlier t reason own v, turns = earlier ++ [t] ∧ t.fate = .failed reason own ∧
      Repayment t.left.log.entries.reverse (t.left.world.failing reason) repaid v ∧
      w' = (v.answered outcome.responses).concluded outcome.state := by
  obtain ⟨u, hu, hfailed⟩ := failed
  cases h with
  | ignored ignored => cases hu
  | moderated heard moderated => cases hu
  | handled heard clean course ending =>
    have hs := course.eq_left
    cases ending with
    | delivered going => exact absurd (going u hu) hfailed
    | vetoed last fate empty =>
      rw [last, List.getLast?_concat] at hs
      subst hs
      refine ⟨_, _, _, _, _, last, fate, ?_, rfl⟩
      rw [Option.map_some, Option.getD_some] at empty
      rw [empty]
      exact .finished _
    | rolledBack last fate pending repayment =>
      rw [last, List.getLast?_concat] at hs
      subst hs
      exact ⟨_, _, _, _, _, last, fate, repayment, rfl⟩

end Dispatcher

/-- A repayment goes through its compensations in their order. -/
theorem Repayment.map_fst {entries : List (RollbackEntry ε)} {w w' : World ε}
    {repaid : List (RollbackEntry ε × Bool)} (h : Repayment entries w repaid w') :
    repaid.map Prod.fst = entries := by
  induction h with
  | finished w => rfl
  | next run course ih => rw [List.map_cons, ih]

/-- A replay runs every pending compensation once, the latest first, and gives their number whether
they work or not. -/
theorem Scene.play_replay_total (s : Scene ε) :
    ∃ repaid w, Repayment s.log.entries.reverse s.world repaid w ∧
      s.play RollbackLog.replay = (repaid.length, ⟨w, {}⟩) ∧
      repaid.map Prod.fst = s.log.entries.reverse := by
  obtain ⟨repaid, w, h⟩ := Repayment.total s.log.entries.reverse s.world
  have hlength : repaid.length = s.log.entries.length := by
    rw [← List.length_map Prod.fst, h.map_fst, List.length_reverse]
  refine ⟨repaid, w, h, ?_, h.map_fst⟩
  rw [hlength]
  exact s.play_replay h

namespace Tickets

open Registering

/-- The greedy handler as a program that registers. -/
def greedyProgram : Registering Int64 Verdict :=
  .step (fun w => { w with extra := w.extra - 10 }) fun _ => .register (giveBack 10) <|
    .step (fun w => { w with extra := w.extra - 5 }) fun _ => .register (giveBack 5) <|
      .done .error

/-- The greedy handler is a program that registers. -/
theorem greedy_registers : ∀ r ∈ bot.registry, r.mode = .awaited → ∀ i,
    r.handler i = greedyProgram.program := by
  intro r hr _ i
  obtain rfl := List.mem_singleton.1 hr
  rfl

end Tickets

/-! ## The price gate registers -/

namespace Points

open Registering

/-- The price gate as a program that registers. -/
def gateProgram (t : Locale.Translator) (outages : Outages) (i : Invocation) :
    Registering ε Verdict :=
  (lift (Stepwise.read fun w => w.prices.match? i.param)).bind fun
  | none => .done (.allowed [])
  | some (command, price) =>
    let user := i.message.sender.id
    (lift (charge outages user price "price")).bind fun
    | .error _ => .done .error
    | .ok false => .done (.denied [notEnough t i command price])
    | .ok true => .register (refund outages user price) (.done (.allowed []))

/-- The price gate uses the log only to register. -/
theorem gate_eq_program (t : Locale.Translator) (outages : Outages) (i : Invocation) :
    gate t outages i = (gateProgram t outages i : Registering ε Verdict).program := by
  unfold gate gateProgram
  rw [program_bind, program_lift]
  refine congrArg _ (funext fun found => ?_)
  rcases found with _ | ⟨command, price⟩
  · rfl
  · dsimp only
    rw [program_bind, program_lift]
    refine congrArg _ (funext fun charged => ?_)
    rcases charged with _ | _ | _ <;> rfl

end Points

end ChatBot
