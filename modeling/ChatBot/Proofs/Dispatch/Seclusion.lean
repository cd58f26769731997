import ChatBot.Proofs.Dispatch.Jobs

/-!
# Dispatches that detached handlers do not disturb

The program of a dispatch does not depend on the detached handlers (`dispatch_withDetached`), and
what these register for compensation is never looked at (`play_withDetached`). If they leave alone
what awaited handlers go by (`Secluded`), then the dispatches go the same way whenever the jobs
start and whatever these do. Main statement: `settled_and_undisturbed`.
-/

set_option autoImplicit false

namespace ChatBot

open Stepwise

variable {ε γ : Type}

/-! ## Other detached handlers -/

/-- A registration that keeps its handler if that is awaited, and has another one otherwise. -/
def Registration.detachedBy (r : Registration ε) (h : Handler ε) : Registration ε :=
  match r.mode with
  | .awaited => r
  | .fireAndForget => { r with handler := h }

namespace Registration

variable (r : Registration ε) (h : Handler ε)

/-- An awaited handler is kept. -/
theorem detachedBy_awaited (hmode : r.mode = .awaited) : r.detachedBy h = r := by
  simp only [detachedBy, hmode]

/-- A detached handler is replaced. -/
theorem detachedBy_detached (hmode : r.mode = .fireAndForget) :
    r.detachedBy h = { r with handler := h } := by
  simp only [detachedBy, hmode]

/-- What is so of the handler that is kept and of the one in its place is so either way. -/
theorem detachedBy_cases {P : Registration ε → Prop} (awaited : r.mode = .awaited → P r)
    (detached : r.mode = .fireAndForget → P { r with handler := h }) : P (r.detachedBy h) := by
  cases hmode : r.mode with
  | awaited => rw [detachedBy_awaited r h hmode]; exact awaited hmode
  | fireAndForget => rw [detachedBy_detached r h hmode]; exact detached hmode

/-- Another handler is registered for the same lines. -/
@[simp] theorem pattern_detachedBy : (r.detachedBy h).pattern = r.pattern :=
  detachedBy_cases (P := fun q => q.pattern = r.pattern) r h (fun _ => rfl) fun _ => rfl

/-- Another handler is registered in the same tier. -/
@[simp] theorem priority_detachedBy : (r.detachedBy h).priority = r.priority :=
  detachedBy_cases (P := fun q => q.priority = r.priority) r h (fun _ => rfl) fun _ => rfl

/-- Another handler asks for the same permission. -/
@[simp] theorem permission_detachedBy : (r.detachedBy h).permission = r.permission :=
  detachedBy_cases (P := fun q => q.permission = r.permission) r h (fun _ => rfl) fun _ => rfl

/-- Another handler is run in the same mode. -/
@[simp] theorem mode_detachedBy : (r.detachedBy h).mode = r.mode :=
  detachedBy_cases (P := fun q => q.mode = r.mode) r h (fun _ => rfl) fun _ => rfl

/-- Another handler is skipped on the same lines. -/
@[simp] theorem skippable_detachedBy : (r.detachedBy h).skippable = r.skippable :=
  detachedBy_cases (P := fun q => q.skippable = r.skippable) r h (fun _ => rfl) fun _ => rfl

end Registration

namespace Dispatcher

/-- The dispatcher with other detached handlers, given by their numbers. -/
def withDetached (d : Dispatcher ε) (g : Nat → Handler ε) : Dispatcher ε :=
  { d with registry := d.registry.mapIdx fun k r => r.detachedBy (g k) }

/-- A planned handler that has another one in its place if nobody waits for it. -/
def replan (g : Nat → Handler ε) (p : Planned ε) : Planned ε :=
  { p with registration := p.registration.detachedBy (g p.index) }

variable {d : Dispatcher ε} {g : Nat → Handler ε} {m : ChatMessage}

/-- Other detached handlers are planned in a tier where the first ones were. -/
theorem planTier_detachedBy (numbered : List (Registration ε × Nat)) (written tokens : List String)
    (priority : Priority) :
    Registry.planTier (numbered.map fun r => (r.1.detachedBy (g r.2), r.2)) written tokens
        priority =
      (Registry.planTier numbered written tokens priority).map (replan g) := by
  have hlongest : (((numbered.map fun r => (r.1.detachedBy (g r.2), r.2)).filter
      fun r => r.1.priority = priority).filterMap fun r => r.1.pattern.matchLength? tokens) =
      (numbered.filter fun r => r.1.priority = priority).filterMap
        fun r => r.1.pattern.matchLength? tokens := by
    simp only [List.filter_map, List.filterMap_map, Function.comp_def,
      Registration.priority_detachedBy, Registration.pattern_detachedBy]
  unfold Registry.planTier
  dsimp only
  rw [hlongest, List.map_append]
  congr 1
  · split
    · rfl
    · simp only [List.filter_map, List.map_map, Function.comp_def,
        Registration.priority_detachedBy, Registration.pattern_detachedBy]
      rfl
  · simp only [List.filter_map, List.map_map, Function.comp_def,
      Registration.priority_detachedBy, Registration.pattern_detachedBy]
    rfl

/-- Other detached handlers are planned where the first ones were. -/
theorem plan_withDetached (line : String) :
    (d.withDetached g).registry.plan line = (d.registry.plan line).map (replan g) := by
  have hnumbered : (d.withDetached g).registry.zipIdx =
      d.registry.zipIdx.map fun r => (r.1.detachedBy (g r.2), r.2) := by
    apply List.ext_getElem?
    intro k
    simp only [withDetached, List.getElem?_zipIdx, List.getElem?_mapIdx, List.getElem?_map,
      Option.map_map, Function.comp_def, Nat.zero_add]
  unfold Registry.plan
  rw [hnumbered, List.map_flatMap]
  refine congrArg (List.flatMap · Priority.descending) (funext fun priority => ?_)
  exact planTier_detachedBy d.registry.zipIdx (Text.words line) (lowerWords line) priority

/-- Running a plan does the same whatever the detached handlers are, since it only queues them. -/
theorem runPlan_withDetached (caps : Capabilities) (cache : Nat) (skipping : Bool)
    (responses : List OutboundMessage) (plan : List (Planned ε)) :
    runPlan (d.withDetached g) m caps cache skipping responses (plan.map (replan g)) =
      runPlan d m caps cache skipping responses plan := by
  induction plan generalizing responses with
  | nil => rfl
  | cons p rest ih =>
    simp only [List.map_cons, runPlan, ih]
    simp only [replan, Registration.skippable_detachedBy, Registration.permission_detachedBy]
    cases hmode : p.registration.mode with
    | awaited => rw [Registration.detachedBy_awaited _ _ hmode, hmode]; rfl
    | fireAndForget => rw [Registration.mode_detachedBy, hmode]; rfl

/-- The program of a dispatch does not depend on the detached handlers. -/
theorem dispatch_withDetached (d : Dispatcher ε) (g : Nat → Handler ε) (m : ChatMessage) :
    (d.withDetached g).dispatch m = d.dispatch m := by
  have hconduct : conduct (d.withDetached g) m = conduct d m := by
    unfold conduct
    simp only [plan_withDetached, runPlan_withDetached]
    rfl
  unfold dispatch
  rw [hconduct]

/-- The handler of a number, with other detached handlers. -/
theorem getElem?_withDetached (k : Nat) :
    (d.withDetached g).registry[k]? = d.registry[k]?.map fun r => r.detachedBy (g k) :=
  List.getElem?_mapIdx

/-- Detached handlers that come to the same verdicts in the same steps do the same jobs, whatever
they register. -/
theorem runJob_withDetached
    (same : ∀ k r, d.registry[k]? = some r → r.mode = .fireAndForget → ∀ i,
      (g k i).run' {} = (r.handler i).run' {}) (job : DetachedJob) :
    (d.withDetached g).runJob job = d.runJob job := by
  have hverdict (h : Handler ε) :
      ((h job.invocation).run {}).bind (fun result => close job result.1) =
        ((h job.invocation).run' {}).bind (close job) :=
    (Stepwise.bind_assoc ((h job.invocation).run {}) (fun result => .done result.1)
      (close job)).symm
  cases hr : d.registry[job.handler]? with
  | none =>
    have hnone : (d.withDetached g).registry[job.handler]? = none := by
      rw [getElem?_withDetached, hr, Option.map_none]
    rw [runJob, runJob, hr, hnone]
  | some r =>
    have hsome : (d.withDetached g).registry[job.handler]? =
        some (r.detachedBy (g job.handler)) := by
      rw [getElem?_withDetached, hr, Option.map_some]
    rw [runJob_eq hr, runJob_eq hsome]
    cases hmode : r.mode with
    | awaited => rw [Registration.detachedBy_awaited r _ hmode]
    | fireAndForget =>
      rw [Registration.detachedBy_detached r _ hmode, hverdict, hverdict,
        same job.handler r hr hmode job.invocation]

end Dispatcher

/-! ## What awaited handlers go by -/

/-- What the dispatcher and the awaited handlers go by, where the latter look at a part of the
affairs only. -/
def World.regarded (f : Affairs ε → γ) (w : World ε) :
    Directory × Moderation × List PermissionCache × γ :=
  (w.directory, w.moderation, w.caches, f w.affairs)

/-- The states are the same for whoever goes by the part `f` of the affairs. -/
def Alike (f : Affairs ε → γ) (w w' : World ε) : Prop :=
  w.regarded f = w'.regarded f

/-- Awaited handlers, and the compensations that they register, go by the part `f` of the affairs,
and detached handlers leave that part and the permission caches alone. -/
structure Secluded (f : Affairs ε → γ) (r : Registration ε) : Prop where
  awaited : r.mode = .awaited → ∀ i,
    (r.handler i).Within (fun _ p => p.Respects (Alike f)) (·.Respects (Alike f))
  detached : r.mode = .fireAndForget → ∀ i, ((r.handler i).run {}).Keeps (World.regarded f)

section Alike

variable {f : Affairs ε → γ} {w w' : World ε}

/-- States that are alike have the same directory. -/
theorem Alike.directory (h : Alike f w w') : w.directory = w'.directory :=
  congrArg Prod.fst h

/-- States that are alike have the same moderation. -/
theorem Alike.moderation (h : Alike f w w') : w.moderation = w'.moderation :=
  congrArg (·.2.1) h

/-- States that are alike have the same caches. -/
theorem Alike.caches (h : Alike f w w') : w.caches = w'.caches :=
  congrArg (·.2.2.1) h

/-- States that are alike stay so with other caches. -/
theorem Alike.change_caches (h : Alike f w w') (caches : List PermissionCache) :
    Alike f { w with caches } { w' with caches } := by
  have haffairs : f w.affairs = f w'.affairs := congrArg (·.2.2.2) h
  exact Prod.ext h.directory (Prod.ext h.moderation (Prod.ext rfl haffairs))

/-- A change that nobody regards. -/
theorem respects_change_of_kept {u : World ε → World ε}
    (h : ∀ w, (u w).regarded f = w.regarded f) : (Stepwise.change u).Respects (Alike f) :=
  respects_change fun w w' hw => (h w).trans (hw.trans (h w').symm)

/-- A change of a cache treats states that are alike alike. -/
theorem respects_changeCache (cache : Nat) (g : PermissionCache → PermissionCache) :
    (World.changeCache cache g).Respects (Alike f) := by
  apply respects_change
  intro w w' h
  rw [h.caches]
  exact h.change_caches _

/-- Finding a user treats states that are alike alike. -/
theorem respects_findUser (id : String) : (World.findUser id).Respects (Alike f) :=
  respects_act fun _ _ h => ⟨congrArg (·.find? id) h.directory, h⟩

/-- A check of a permission treats states that are alike alike. -/
theorem respects_checkPermission (owners : Owners) (cache : Nat) (user : String)
    (required : Tier) : (checkPermission owners cache user required).Respects (Alike f) := by
  have decided (caps : Option Capabilities) := respects_changeCache (f := f) cache
    (·.decide user required (Owners.permits caps required))
  refine respects_bind (respects_read fun w w' h => ?_) fun p => ?_
  · rw [h.caches]
  · split
    · exact respects_done _
    · split
      · exact respects_bind (respects_done _) fun caps =>
          respects_bind (decided caps) fun _ => respects_done _
      · refine respects_bind (respects_findUser user) fun record => ?_
        refine respects_bind (respects_changeCache cache _) fun _ => ?_
        exact respects_bind (respects_done _) fun caps =>
          respects_bind (decided caps) fun _ => respects_done _

/-- Where all handlers are secluded, a dispatch treats states that are alike alike. -/
theorem Dispatcher.respects_dispatch {d : Dispatcher ε} (secluded : ∀ r ∈ d.registry, Secluded f r)
    (m : ChatMessage) : (d.dispatch m).Respects (Alike f) := by
  have haccustomed : d.Accustomed m (fun _ p => p.Respects (Alike f)) (·.Respects (Alike f)) :=
    { stricter := fun _ h => h
      ignored := respects_read fun w w' h => by rw [h.moderation]
      moderated := respects_read fun w w' h => by rw [h.moderation]
      found := respects_findUser m.sender.id
      opened := fun caps => respects_act fun w w' h => by
        rw [h.caches]
        exact ⟨rfl, h.change_caches _⟩
      known := fun cache => respects_read fun w w' h => by rw [h.caches]
      checked := fun cache required => respects_checkPermission d.owners cache m.sender.id required
      queued := fun p _ _ _ _ => respects_change_of_kept fun w => by split <;> rfl
      failed := fun _ => respects_change_of_kept fun _ => rfl
      repaid := respects_change_of_kept fun _ => rfl
      delivered := fun _ => respects_change_of_kept fun _ => rfl
      answered := fun _ => respects_change_of_kept fun _ => rfl
      concluded := fun _ _ => respects_bind (respects_change_of_kept fun _ => rfl)
        fun _ => respects_done _
      handlers := fun p hp hmode i =>
        (secluded p.registration (mem_registry_of_plan hp)).awaited hmode i }
  exact haccustomed.dispatch (habit_respects _)

/-- Where all handlers are secluded, a job leaves all that dispatches go by. -/
theorem Dispatcher.keeps_runJob {d : Dispatcher ε} (secluded : ∀ r ∈ d.registry, Secluded f r)
    {job : DetachedJob} (h : d.Detaches job) : (d.runJob job).Keeps (World.regarded f) := by
  obtain ⟨r, hr, hmode⟩ := h
  rw [runJob_eq hr]
  refine keeps_bind ((secluded r (List.mem_of_getElem? hr)).detached hmode job.invocation)
    fun result => ?_
  exact (each_close (P := fun w w' => w'.regarded f = w.regarded f) (fun _ _ => rfl) (fun _ => rfl)
    (fun _ _ => rfl) job result.1).keeps

end Alike

/-! ## Runs with other jobs -/

/-- The cue belongs to the jobs and not to the dispatches. -/
def Cue.isDetached : Cue ε → Bool
  | .move (.dispatch _) => false
  | .move (.job _) => true
  | .start => true
  | .meanwhile _ => false

namespace Bench

/-- The cues that do not belong to jobs. -/
def attended (cues : List (Cue ε)) : List (Cue ε) :=
  cues.filter fun cue => !cue.isDetached

/-- What the moves of dispatches have found and left, as far as it is regarded. -/
def course (f : Affairs ε → γ) (b : Bench ε) :
    List (Nat × (Directory × Moderation × List PermissionCache × γ) ×
      (Directory × Moderation × List PermissionCache × γ)) :=
  b.moves.filterMap fun
    | (.dispatch i, m) => some (i, m.found.regarded f, m.left.regarded f)
    | (.job _, _) => none

/-- All dispatches have come to the same point by the same moves, as far as it is regarded. -/
structure Agrees (f : Affairs ε → γ) (b b' : Bench ε) : Prop where
  dispatches : b.dispatches = b'.dispatches
  world : Alike f b.world b'.world
  course : b.course f = b'.course f

section Agrees

variable {f : Affairs ε → γ} {d d' : Dispatcher ε} {lines : List ChatMessage} {b b' b'' : Bench ε}

/-- A bench agrees with itself. -/
theorem agrees_refl (b : Bench ε) : Agrees f b b :=
  ⟨rfl, rfl, rfl⟩

/-- Agreement goes both ways. -/
theorem Agrees.symm (h : Agrees f b b') : Agrees f b' b :=
  ⟨h.dispatches.symm, Eq.symm h.world, h.course.symm⟩

/-- Agreement goes on from bench to bench. -/
theorem Agrees.trans (h : Agrees f b b') (h' : Agrees f b' b'') : Agrees f b b'' :=
  ⟨h.dispatches.trans h'.dispatches, Eq.trans h.world h'.world, h.course.trans h'.course⟩

/-- What jobs do is not regarded. -/
theorem Accounted.take_detached (h : Accounted d lines b)
    (secluded : ∀ r ∈ d.registry, Secluded f r) {cue : Cue ε} (hcue : cue.isDetached = true) :
    Agrees f (b.take d cue) b := by
  cases cue with
  | move who =>
    cases who with
    | dispatch i => cases hcue
    | job j =>
      cases hj : b.jobs[j]? with
      | none => simpa only [Bench.take, hj] using agrees_refl b
      | some p =>
        cases p with
        | done a => simpa only [Bench.take, hj] using agrees_refl b
        | step u n =>
          have hkeeps :=
            h.of_runJob (fun job hjob => (Dispatcher.keeps_runJob secluded hjob).each) hj
          rw [take_job hj]
          refine ⟨rfl, (hkeeps b.world).1, ?_⟩
          show List.filterMap _ (b.moves ++ [_]) = _
          rw [List.filterMap_append]
          exact List.append_nil _
  | start =>
    cases hqueue : b.world.queue with
    | nil => simpa only [Bench.take, hqueue] using agrees_refl b
    | cons job rest =>
      rw [take_start hqueue]
      exact ⟨rfl, rfl, rfl⟩
  | meanwhile change => cases hcue

/-- What dispatches do is determined by what is regarded. -/
theorem Agrees.take (h : Agrees f b b') {cue : Cue ε} (hcue : cue.isDetached = false)
    (respects : ∀ p ∈ b.dispatches, p.Respects (Alike f))
    (elsewhere : ∀ change, cue = .meanwhile change → ∀ w w', Alike f w w' →
      Alike f (change w) (change w')) :
    Agrees f (b.take d cue) (b'.take d' cue) := by
  cases cue with
  | move who =>
    cases who with
    | dispatch i =>
      cases hi : b.dispatches[i]? with
      | none =>
        have hi' := h.dispatches ▸ hi
        simpa only [Bench.take, hi, hi'] using h
      | some p =>
        have hi' := h.dispatches ▸ hi
        cases p with
        | done a => simpa only [Bench.take, hi, hi'] using h
        | step u n =>
          obtain ⟨hu, hn, -⟩ := respects _ (List.mem_of_getElem? hi) b.world b'.world h.world
          rw [take_dispatch hi, take_dispatch hi']
          refine ⟨?_, hu, ?_⟩
          · show b.dispatches.set i _ = b'.dispatches.set i _
            rw [h.dispatches, hn]
          · show List.filterMap _ (b.moves ++ [_]) = List.filterMap _ (b'.moves ++ [_])
            rw [List.filterMap_append, List.filterMap_append]
            apply congrArg₂ (· ++ ·) h.course
            show [(i, _, _)] = [(i, _, _)]
            rw [h.world, hu]
    | job j => cases hcue
  | start => cases hcue
  | meanwhile change => exact ⟨h.dispatches, elsewhere change rfl _ _ h.world, h.course⟩

/-- The part of a run that is regarded is that of its dispatches alone. -/
theorem agrees_attended (lines : List ChatMessage) (modest : ∀ r ∈ d.registry, Modest r)
    (secluded : ∀ r ∈ d.registry, Secluded f r) {w : World ε} (hqueue : w.queue = [])
    (hdetached : w.detached = {}) {cues : List (Cue ε)}
    (elsewhere : ∀ change, .meanwhile change ∈ cues →
      (∀ w, (change w).queueing = w.queueing) ∧
      ∀ w w', Alike f w w' → Alike f (change w) (change w')) :
    Agrees f ((ofLines d lines w).play d cues) ((ofLines d lines w).play d (attended cues)) := by
  -- on the last cue: what it finds has been accounted for by the run up to it
  induction cues using List.reverseRecOn with
  | nil => exact agrees_refl _
  | append_singleton cues cue ih =>
    have hearlier := fun change hmem => elsewhere change (List.mem_append_left _ hmem)
    have hagrees := ih hearlier
    have haccounted : Accounted d lines ((ofLines d lines w).play d cues) :=
      accounted_play hqueue hdetached modest fun change hmem => (hearlier change hmem).1
    rw [attended, List.filter_append, ← attended, play_snoc]
    cases hcue : cue.isDetached with
    | true =>
      rw [List.filter_cons_of_neg (by simp [hcue]), List.filter_nil, List.append_nil]
      exact (haccounted.take_detached secluded hcue).trans hagrees
    | false =>
      rw [List.filter_cons_of_pos (by simp [hcue]), List.filter_nil, play_snoc]
      refine hagrees.take hcue (fun p hp => ?_) fun change hchange => ?_
      · obtain ⟨i, hi⟩ := List.getElem?_of_mem hp
        have hlt := (List.getElem?_eq_some_iff.1 hi).1
        rw [haccounted.dispatches] at hlt
        have hprogram := Dispatcher.respects_dispatch secluded lines[i]
        exact (haccounted.dispatched (List.getElem?_eq_getElem hlt) hi).respects (fun _ => rfl)
          hprogram
      · exact (elsewhere change (hchange ▸ List.mem_append_right _ List.mem_cons_self)).2

/-- Without cues for jobs it does not matter what the detached handlers are. -/
theorem play_attended_withDetached (g : Nat → Handler ε) (b : Bench ε) (cues : List (Cue ε)) :
    b.play (d.withDetached g) (attended cues) = b.play d (attended cues) := by
  induction cues generalizing b with
  | nil => rfl
  | cons cue cues ih =>
    cases hcue : cue.isDetached with
    | true =>
      rw [attended, List.filter_cons_of_neg (by simp [hcue])]
      exact ih b
    | false =>
      have htake : b.take (d.withDetached g) cue = b.take d cue := by
        cases cue with
        | move who =>
          cases who with
          | dispatch i => rfl
          | job j => cases hcue
        | start => cases hcue
        | meanwhile change => rfl
      rw [attended, List.filter_cons_of_pos (by simp [hcue])]
      show (b.take (d.withDetached g) cue).play _ (attended cues) = _
      rw [htake]
      exact ih _

/-- A bench before its first cue is the same whatever the detached handlers are. -/
theorem ofLines_withDetached (g : Nat → Handler ε) (w : World ε) :
    ofLines (d.withDetached g) lines w = ofLines d lines w := by
  unfold ofLines
  rw [funext (Dispatcher.dispatch_withDetached d g)]

/-- What detached handlers register makes no difference at all. -/
theorem play_withDetached {g : Nat → Handler ε}
    (same : ∀ k r, d.registry[k]? = some r → r.mode = .fireAndForget → ∀ i,
      (g k i).run' {} = (r.handler i).run' {}) (w : World ε) (cues : List (Cue ε)) :
    (ofLines (d.withDetached g) lines w).play (d.withDetached g) cues =
      (ofLines d lines w).play d cues := by
  have htake (b : Bench ε) (cue : Cue ε) : b.take (d.withDetached g) cue = b.take d cue := by
    cases cue with
    | move who => cases who <;> rfl
    | start =>
      unfold Bench.take
      simp only [startJob, Dispatcher.runJob_withDetached same]
    | meanwhile change => rfl
  rw [ofLines_withDetached, play, play, funext fun b => funext (htake b)]

/-- Detached handlers that leave alone what awaited ones go by may be replaced by any others that do
so, and the jobs may be started and moved at any other times. -/
theorem agrees_withDetached {g : Nat → Handler ε} (modest : ∀ r ∈ d.registry, Modest r)
    (secluded : ∀ r ∈ d.registry, Secluded f r)
    (others : ∀ k i, ((g k i).run {}).Keeps fun w => (w.queueing, w.regarded f)) {w : World ε}
    (hqueue : w.queue = []) (hdetached : w.detached = {}) {cues cues' : List (Cue ε)}
    (hcues : attended cues' = attended cues)
    (elsewhere : ∀ change, .meanwhile change ∈ cues →
      (∀ w, (change w).queueing = w.queueing) ∧
      ∀ w w', Alike f w w' → Alike f (change w) (change w')) :
    Agrees f ((ofLines (d.withDetached g) lines w).play (d.withDetached g) cues')
      ((ofLines d lines w).play d cues) := by
  have hregistered {P : Registration ε → Prop} (awaited : ∀ r ∈ d.registry, r.mode = .awaited → P r)
      (detached : ∀ r ∈ d.registry, r.mode = .fireAndForget → ∀ k, P { r with handler := g k }) :
      ∀ r ∈ (d.withDetached g).registry, P r := by
    intro r hr
    obtain ⟨k, hk⟩ := List.getElem?_of_mem hr
    rw [Dispatcher.getElem?_withDetached] at hk
    obtain ⟨q, hq, rfl⟩ := Option.map_eq_some_iff.1 hk
    have hmem := List.mem_of_getElem? hq
    exact Registration.detachedBy_cases q (g k) (awaited q hmem) fun hmode =>
      detached q hmem hmode k
  have hmodest : ∀ r ∈ (d.withDetached g).registry, Modest r :=
    hregistered (fun r hr _ => modest r hr) fun r _ hmode k =>
      ⟨fun h => absurd (hmode.symm.trans h) (by decide), fun _ i => (others k i).comp Prod.fst⟩
  have hsecluded : ∀ r ∈ (d.withDetached g).registry, Secluded f r :=
    hregistered (fun r hr _ => secluded r hr) fun r _ hmode k =>
      ⟨fun h => absurd (hmode.symm.trans h) (by decide), fun _ i => (others k i).comp Prod.snd⟩
  have hmeanwhile : ∀ change, .meanwhile change ∈ cues' → .meanwhile change ∈ cues := by
    intro change hmem
    have hattended : .meanwhile change ∈ attended cues' := List.mem_filter.2 ⟨hmem, rfl⟩
    rw [hcues] at hattended
    exact (List.mem_filter.1 hattended).1
  -- both runs are compared with the one that has no cues for jobs
  have hother := agrees_attended lines hmodest hsecluded hqueue hdetached
    fun change hmem => elsewhere change (hmeanwhile change hmem)
  have hown := agrees_attended lines modest secluded hqueue hdetached elsewhere
  rw [play_attended_withDetached, ofLines_withDetached, hcues] at hother
  rw [ofLines_withDetached]
  exact hother.trans hown.symm

/-- Whatever the order of the moves: each job that was queued is started once, in the order of
queueing, and can be brought to its end; by then it has delivered what its handler has answered
unless the line asked for quiet, and it has been counted once, as failed if the handler has failed
or broken down. What detached handlers register makes no difference to anything. And if they leave
alone what awaited handlers go by, then neither what they do otherwise nor when they do it makes
a difference to the dispatches. -/
theorem settled_and_undisturbed (modest : ∀ r ∈ d.registry, Modest r) {w : World ε}
    (hqueue : w.queue = []) (hdetached : w.detached = {}) (lines : List ChatMessage)
    (cues : List (Cue ε))
    (elsewhere : ∀ change, .meanwhile change ∈ cues → ∀ w, (change w).queueing = w.queueing) :
    let b := (ofLines d lines w).play d cues
    b.offered = b.started ++ b.world.queue ∧
    (∃ b', Leads d b b' ∧ b'.Finished) ∧
    (b.Finished → b.started = b.offered ∧ ∃ verdict : Nat → Verdict,
      (∀ j job, b.started[j]? = some job → ∃ r own rest, d.registry[job.handler]? = some r ∧
        r.mode = .fireAndForget ∧ b.movesOf (.job j) = own ++ rest ∧
        Settled ((r.handler job.invocation).run {}) job own rest (verdict j)) ∧
      b.world.detached.queued = b.started.length ∧
      b.world.detached.failed =
        ((Finset.range b.started.length).filter fun j => (verdict j).answer? = none).card ∧
      b.world.detached.completed + b.world.detached.failed = b.world.detached.queued) ∧
    (∀ g : Nat → Handler ε,
      (∀ k r, d.registry[k]? = some r → r.mode = .fireAndForget → ∀ i,
        (g k i).run' {} = (r.handler i).run' {}) →
      (ofLines (d.withDetached g) lines w).play (d.withDetached g) cues = b) ∧
    ∀ (γ : Type) (f : Affairs ε → γ) (g : Nat → Handler ε) (cues' : List (Cue ε)),
      (∀ r ∈ d.registry, Secluded f r) →
      (∀ k i, ((g k i).run {}).Keeps fun w => (w.queueing, w.regarded f)) →
      (∀ change, .meanwhile change ∈ cues → ∀ w w', Alike f w w' →
        Alike f (change w) (change w')) →
      attended cues' = attended cues →
      Agrees f ((ofLines (d.withDetached g) lines w).play (d.withDetached g) cues') b := by
  intro b
  have haccounted : Accounted d lines b := accounted_play hqueue hdetached modest elsewhere
  refine ⟨haccounted.queue, haccounted.exists_finished modest, haccounted.settled modest,
    fun g same => play_withDetached same w cues, ?_⟩
  intro γ f g cues' secluded others meanwhile hcues
  exact agrees_withDetached modest secluded others hqueue hdetached hcues fun change hmem =>
    ⟨elsewhere change hmem, meanwhile change hmem⟩

end Agrees

/-! ## Two detached handlers -/

namespace Doorbell

/-- An awaited handler that counts the lines, in the first number. -/
def porter : Registration (Nat × Nat) where
  name := "porter"
  pattern := .any
  handler := fun i => do
    StateT.lift (Stepwise.change fun w => { w with extra := (w.extra.1 + 1, w.extra.2) })
    return .allowed [i.reply "Come in!"]

/-- A detached handler that counts in the second number, registers how to take that back, and
denies. -/
def bell : Registration (Nat × Nat) where
  name := "bell"
  pattern := .any
  mode := .fireAndForget
  handler := fun i => do
    StateT.lift (Stepwise.change fun w => { w with extra := (w.extra.1, w.extra.2 + 1) })
    RollbackLog.register ⟨"rings", i.message.sender.id, 1, do
      Stepwise.change fun w => { w with extra := (w.extra.1, w.extra.2 - 1) }
      return true⟩
    return .denied [i.reply "Ding!"]

/-- A detached handler that breaks down. -/
def dog : Registration (Nat × Nat) where
  name := "dog"
  pattern := .any
  mode := .fireAndForget
  handler := fun _ => return .panic

def house : Dispatcher (Nat × Nat) where
  registry := [bell, porter, dog]

def visit : ChatMessage where
  sender := ⟨"1", "alice"⟩
  text := "hello"

/-- The dog is started before the dispatch has ended, and moves before the bell. -/
def order : List (Cue (Nat × Nat)) :=
  List.replicate 12 (.move (.dispatch 0)) ++ [.start, .start, .move (.job 1), .move (.job 0)] ++
    List.replicate 12 (.move (.dispatch 0)) ++ List.replicate 4 (.move (.job 0))

/-- The handlers of the house are modest. -/
theorem modest_house : ∀ r ∈ house.registry, Modest r := by
  intro r hr
  simp only [house, List.mem_cons, List.not_mem_nil, or_false] at hr
  rcases hr with rfl | rfl | rfl
  · exact ⟨nofun, fun _ _ _ => ⟨rfl, trivial⟩⟩
  · exact ⟨fun _ _ _ hl => ⟨fun _ => ⟨rfl, trivial⟩, fun _ => hl⟩, nofun⟩
  · exact ⟨nofun, fun _ _ => trivial⟩

/-- The porter goes by the first number alone. -/
theorem secluded_house : ∀ r ∈ house.registry, Secluded (fun a => a.extra.1) r := by
  intro r hr
  simp only [house, List.mem_cons, List.not_mem_nil, or_false] at hr
  rcases hr with rfl | rfl | rfl
  · exact ⟨nofun, fun _ _ _ => ⟨rfl, trivial⟩⟩
  · refine ⟨fun _ _ _ hl => ⟨fun w w' h => ⟨?_, rfl, trivial⟩, fun _ => hl⟩, nofun⟩
    have hcount : w.extra.1 = w'.extra.1 := congrArg (·.2.2.2) h
    exact Prod.ext h.directory (Prod.ext h.moderation (Prod.ext h.caches (congrArg (· + 1) hcount)))
  · exact ⟨nofun, fun _ _ => trivial⟩

/-- With this order, all dispatches and jobs of the house come to their ends. -/
theorem finished_house :
    ((ofLines house [visit] { extra := (0, 0) }).play house order).Finished := by
  refine ⟨fun p hp => ?_, rfl, fun p hp => ?_⟩
  · obtain rfl := List.mem_singleton.1 hp
    exact ⟨_, rfl⟩
  · exact List.eq_of_mem_replicate (n := 2) hp

/-- Both jobs are started once, one of them completes and the other one fails; and the visit is
dispatched in the same way if both fail at once and long after it. -/
theorem rung_once :
    let b := (ofLines house [visit] { extra := (0, 0) }).play house order
    let silent : Nat → Handler (Nat × Nat) := fun _ _ => return .error
    b.started = b.offered ∧ b.started.length = 2 ∧
      b.world.detached.completed + b.world.detached.failed = 2 ∧
      b.world.delivered.map (·.text) = ["Come in!", "Ding!"] ∧
      Agrees (fun a => a.extra.1) ((ofLines (house.withDetached silent) [visit]
        { extra := (0, 0) }).play (house.withDetached silent) (attended order ++ [.start])) b := by
  intro b silent
  obtain ⟨-, -, hsettled, -, hundisturbed⟩ := settled_and_undisturbed modest_house
    (w := { extra := (0, 0) }) rfl rfl [visit] order (by simp [order])
  obtain ⟨hstarted, verdict, -, hqueued, -, hcounted⟩ := hsettled finished_house
  have hlength : b.started.length = 2 := rfl
  refine ⟨hstarted, hlength, hcounted.trans (hqueued.trans hlength), rfl, ?_⟩
  refine hundisturbed Nat (fun a => a.extra.1) silent _ secluded_house (fun _ _ => trivial)
    (by simp [order]) rfl

end Doorbell

end Bench

end ChatBot
