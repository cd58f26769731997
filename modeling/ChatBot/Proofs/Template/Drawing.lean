import ChatBot.Proofs.Moderation.Phrases
import ChatBot.Proofs.NameMap
import ChatBot.Proofs.Template.Registrations
import Mathlib.Data.List.NodupEquivFin

/-!
# Among whom a user is drawn

A filter `(random.<scope>)` lists the users of its scope, asks for the record of each, passes over
those who are ignored, and draws one of the rest. Who that rest is can be said without the two
lookups: the users whom the directory holds, who meet the conditions of the scope, and whose names
are not ignored in any case (`Eligible`).

Main statement: the numbers that can be drawn and the eligible users stand for each other one to
one, and without an eligible user the draw gives the text for nobody (`drawn_among_eligible`). Two
things are behind it: every record stands under its own id, so that no user is listed twice
(`Directory.Built.id_eq`), and an id without a record is passed over (`filterMap_list`).
-/

set_option autoImplicit false

namespace ChatBot

/-! ## Who is ignored -/

namespace Moderation

/-- The names on the list of ignored senders after one more request. -/
def noted (names : List String) : Request → List String
  | .ignore username => username :: names
  | .unignore username => names.filter fun name => Text.lower name != Text.lower username
  | .block _ => names

/-- The names that requests leave on the list of ignored senders. -/
def ignoredNames (requests : List Request) : List String :=
  requests.foldl noted []

/-- The moderation ignores these names, in any case. -/
def Ignores (m : Moderation) (names : List String) : Prop :=
  ∀ p, p ∈ m.ignored ↔ ∃ name ∈ names, Text.lower name = p

/-- A request changes whom the moderation ignores as it changes the list of names. -/
theorem Ignores.answer {m : Moderation} {names : List String} (h : m.Ignores names)
    (request : Request) : (m.answer request).Ignores (noted names request) := by
  intro p
  cases request with
  | ignore username =>
    rw [Moderation.answer, ignore, noted]
    split
    · rename_i hin
      rw [h p, List.exists_mem_cons_iff]
      refine ⟨Or.inr, fun hp => hp.elim (fun heq => ?_) id⟩
      rw [← heq]
      exact (h _).1 (List.contains_iff_mem.1 hin)
    · rw [List.mem_cons, h p, List.exists_mem_cons_iff, eq_comm]
  | unignore username =>
    rw [Moderation.answer, unignore, noted]
    simp only [List.mem_filter, h p, bne_iff_ne]
    constructor
    · rintro ⟨⟨name, hname, rfl⟩, hne⟩
      exact ⟨name, ⟨hname, hne⟩, rfl⟩
    · rintro ⟨name, ⟨hname, hne⟩, rfl⟩
      exact ⟨⟨name, hname, rfl⟩, hne⟩
  | block phrase =>
    rw [Moderation.answer, block, noted]
    split <;> exact h p

/-- After some requests, the moderation ignores the names that they leave on the list. -/
theorem ignores_after (requests : List Request) :
    (({} : Moderation).after requests).Ignores (ignoredNames requests) := by
  induction requests using List.reverseRecOn with
  | nil => simp [Ignores, after, ignoredNames]
  | append_singleton requests request ih =>
    rw [after, ignoredNames, List.foldl_concat, List.foldl_concat]
    exact ih.answer request

/-- A name is ignored if it is on the list, in any case. -/
theorem Ignores.ignoresName_iff {m : Moderation} {names : List String} (h : m.Ignores names)
    (username : String) :
    m.ignoresName username = true ↔ ∃ name ∈ names, Text.lower name = Text.lower username := by
  rw [ignoresName, List.contains_iff_mem]
  exact h _

end Moderation

/-! ## Whom a directory lists -/

namespace Directory

/-- The directories that adding, forgetting and changing users leads to, whatever ids without a
record they list. -/
inductive Built : Directory → Prop where
  | empty (unrecorded : List String) : Built { unrecorded }
  | upsert {d : Directory} (u : UserRecord) : Built d → Built (d.upsert u)
  | remove {d : Directory} (id : String) : Built d → Built (d.remove id)
  | setOnline {d : Directory} (id : String) (online : Bool) :
    Built d → Built (d.setOnline id online)

variable {d : Directory} {id : String} {u : UserRecord}

/-- Every record stands under its own id. -/
theorem Built.id_eq (built : d.Built) (h : d.find? id = some u) : u.id = id := by
  induction built generalizing id u with
  | empty unrecorded => simp [find?] at h
  | upsert v _ ih =>
    rw [find?, Directory.upsert, Std.ExtTreeMap.getElem?_insert] at h
    split at h
    · rename_i heq
      cases h
      exact Std.LawfulEqCmp.eq_of_compare heq
    · exact ih h
  | remove forgotten _ ih =>
    rw [find?, Directory.remove, Std.ExtTreeMap.getElem?_erase] at h
    split at h
    · cases h
    · exact ih h
  | @setOnline d changed online _ ih =>
    rw [Directory.setOnline] at h
    cases hfound : d.find? changed with
    | none =>
      rw [hfound] at h
      exact ih h
    | some v =>
      rw [hfound, find?, Std.ExtTreeMap.getElem?_insert] at h
      split at h
      · rename_i heq
        cases h
        exact (ih hfound).trans (Std.LawfulEqCmp.eq_of_compare heq)
      · exact ih h

/-- The users whom the directory holds. -/
def users (d : Directory) : List UserRecord :=
  d.records.toList.map (·.2)

/-- A user is held by a directory if the record is found under its own id. -/
theorem Built.mem_users (built : d.Built) : u ∈ d.users ↔ d.find? u.id = some u := by
  rw [users, List.mem_map]
  constructor
  · rintro ⟨⟨id, v⟩, hmem, rfl⟩
    have hfound : d.find? id = some v := Std.ExtTreeMap.mem_toList_iff_getElem?_eq_some.1 hmem
    rwa [built.id_eq hfound]
  · intro h
    exact ⟨(u.id, u), Std.ExtTreeMap.mem_toList_iff_getElem?_eq_some.2 h, rfl⟩

/-- No user is held twice. -/
theorem Built.nodup_users (built : d.Built) : d.users.Nodup := by
  have hids : d.users.map (·.id) = d.records.toList.map (·.1) := by
    rw [users, List.map_map]
    refine List.map_congr_left fun entry hentry => ?_
    exact built.id_eq (Std.ExtTreeMap.mem_toList_iff_getElem?_eq_some.1 hentry)
  refine List.Nodup.of_map (·.id) ?_
  rw [hids]
  exact NameMap.nodup_names d.records

/-- The records of the ids that are listed for a filter. -/
theorem filterMap_list (ghosts : ∀ id ∈ d.unrecorded, d.find? id = none) (f : UserFilter) :
    (d.list f).filterMap d.find? = d.users.filter f.admits := by
  have hghosts : d.unrecorded.filterMap d.find? = [] := List.filterMap_eq_nil_iff.2 ghosts
  have hfound : ∀ entry ∈ d.records.toList.filter fun entry => f.admits entry.2,
      d.find? entry.1 = some entry.2 := fun entry hentry =>
    Std.ExtTreeMap.mem_toList_iff_getElem?_eq_some.1 (List.mem_filter.1 hentry).1
  rw [list, List.filterMap_append, hghosts, List.append_nil, List.filterMap_map, users,
    List.filter_map, ← List.filterMap_eq_map]
  exact List.filterMap_congr hfound

end Directory

namespace Template

variable {ε : Type}

/-! ## Who is eligible -/

/-- A user who may be drawn. -/
structure Eligible (d : Directory) (ignored : List String) (scope : RandomScope)
    (u : UserRecord) : Prop where
  held : d.find? u.id = some u
  online : scope ∈ [.onlineViewer, .onlineFollower, .onlineSubscriber] → u.isOnline = true
  follower : scope ∈ [.follower, .onlineFollower] → u.isFollower = true
  subscriber : scope ∈ [.subscriber, .onlineSubscriber] → u.isSubscriber = true
  /-- The name is that of nobody who is ignored, in any case. -/
  heard : ∀ name ∈ ignored, Text.lower name ≠ Text.lower u.username

/-- The filter of a scope asks for the standing that its name says. -/
theorem admits_userFilter_iff (scope : RandomScope) (u : UserRecord) :
    scope.userFilter.admits u = true ↔
      (scope ∈ [.onlineViewer, .onlineFollower, .onlineSubscriber] → u.isOnline = true) ∧
      (scope ∈ [.follower, .onlineFollower] → u.isFollower = true) ∧
      (scope ∈ [.subscriber, .onlineSubscriber] → u.isSubscriber = true) := by
  cases scope <;> simp [RandomScope.userFilter, UserFilter.admits]

/-- The users among whom a draw is made. -/
def pool (d : Directory) (m : Moderation) (scope : RandomScope) : List UserRecord :=
  (d.users.filter scope.userFilter.admits).filter fun u => !m.ignoresName u.username

/-- No user is in the pool twice. -/
theorem nodup_pool {d : Directory} (built : d.Built) (m : Moderation) (scope : RandomScope) :
    (pool d m scope).Nodup :=
  (built.nodup_users.filter _).filter _

/-- The users among whom a draw is made are those who may be drawn. -/
theorem mem_pool_iff {d : Directory} (built : d.Built) {m : Moderation} {names : List String}
    (hm : m.Ignores names) {scope : RandomScope} {u : UserRecord} :
    u ∈ pool d m scope ↔ Eligible d names scope u := by
  have hheard : (!m.ignoresName u.username) = true ↔
      ∀ name ∈ names, Text.lower name ≠ Text.lower u.username := by
    rw [Bool.not_eq_true', ← Bool.not_eq_true, hm.ignoresName_iff]
    simp
  rw [pool, List.mem_filter, List.mem_filter, built.mem_users, admits_userFilter_iff, hheard]
  constructor
  · rintro ⟨⟨hheld, honline, hfollower, hsubscriber⟩, hheard⟩
    exact ⟨hheld, honline, hfollower, hsubscriber, hheard⟩
  · rintro ⟨hheld, honline, hfollower, hsubscriber, hheard⟩
    exact ⟨⟨hheld, honline, hfollower, hsubscriber⟩, hheard⟩

/-! ## Drawing -/

/-- Every id is looked up once, and the users found who are not ignored are kept. -/
theorem run_eligible (ids : List String) (w : World ε) :
    (eligible ids).run w =
      (((ids.filterMap w.directory.find?).filter fun u =>
        !w.moderation.ignoresName u.username).map (·.username),
        { w with lookups := w.lookups + ids.length }) := by
  induction ids generalizing w with
  | nil => rfl
  | cons id rest ih =>
    simp only [eligible, World.findUser, Stepwise.bind_eq, Stepwise.run_bind, Stepwise.run_act]
    cases hfound : w.directory.find? id with
    | none =>
      dsimp only
      rw [ih, List.filterMap_cons_none hfound]
      simp only [List.length_cons, Nat.add_assoc, Nat.add_comm 1]
    | some u =>
      simp only [World.isIgnored, Stepwise.run_bind, Stepwise.run_read, ih, Stepwise.pure_eq_done,
        Stepwise.run_done, List.filterMap_cons_some hfound, List.filter_cons, Moderation.ignores]
      cases w.moderation.ignoresName u.username <;>
        simp [Nat.add_assoc, Nat.add_comm 1]

/-- A draw gives the name of one of the pool, or the text for nobody. -/
theorem run_drawUser (e : Engine) (scope : RandomScope) {d : Directory} {m : Moderation}
    (ghosts : ∀ id ∈ d.unrecorded, d.find? id = none) {w : World ε} (hd : w.directory = d)
    (hm : w.moderation = m) :
    ((drawUser e scope).run w).1 =
      if h : 0 < (pool d m scope).length then
        ((pool d m scope).get ((e.drawBelow _ h).run w).1).username
      else e.config.unknownUser := by
  subst hd hm
  have hrun : (eligible (w.directory.list scope.userFilter)).run w =
      ((pool w.directory w.moderation scope).map (·.username),
        { w with lookups := w.lookups + (w.directory.list scope.userFilter).length }) := by
    rw [run_eligible, Directory.filterMap_list ghosts, pool]
  unfold drawUser
  simp only [Stepwise.bind_eq, World.listUsers, Stepwise.run_bind, Stepwise.run_read, hrun]
  by_cases h : 0 < (pool w.directory w.moderation scope).length
  · have hnames : 0 < ((pool w.directory w.moderation scope).map (·.username)).length := by
      rwa [List.length_map]
    rw [dif_pos h, dif_pos hnames]
    simp [Engine.drawBelow, hrun]
  · have hnames : ¬ 0 < ((pool w.directory w.moderation scope).map (·.username)).length := by
      rwa [List.length_map]
    rw [dif_neg h, dif_neg hnames]
    rfl

/-- The names of the `random` family that stand for draws among users. -/
theorem classify_random {written : String} {scope : RandomScope}
    (hscope : (written, scope) ∈ RandomScope.byName) (r : FilterRegistry) {name : String}
    (hname : Text.trim name = "random." ++ written) : r.classify name = .randomUser scope := by
  have hbuiltin : classifyBuiltin (Text.trim name) = some (.randomUser scope) := by
    rw [hname]
    simp only [RandomScope.byName, List.mem_cons, Prod.mk.injEq, List.not_mem_nil, or_false]
      at hscope
    rcases hscope with
      ⟨rfl, rfl⟩ | ⟨rfl, rfl⟩ | ⟨rfl, rfl⟩ | ⟨rfl, rfl⟩ | ⟨rfl, rfl⟩ | ⟨rfl, rfl⟩ <;> rfl
  rw [FilterRegistry.classify, FilterRegistry.classifyTrimmed, hbuiltin]

/-- With random numbers that all are one of the numbers below a bound, that number is drawn. -/
theorem run_drawBelow_constant (e : Engine) {n : Nat} (i : Fin n) (positive : 0 < n)
    (w : World ε) : (({ e with entropy := fun _ => i.val }.drawBelow n positive).run w).1 = i :=
  Fin.ext (Nat.mod_eq_of_lt i.isLt)

/-- **Users are drawn among the eligible ones, each by one number.** For every directory, whatever
ids without a record it lists, every list of ignored names and every scope, the eligible users can
be numbered from zero, each with one number. Wherever a filter `random.<scope>` is evaluated over
them, one of their numbers is drawn, and the text is the name of the user who has it; when nobody is
eligible, it is the text for that. Each of the numbers is drawn by some source of random numbers, so
that nobody who is eligible is passed over. -/
theorem drawn_among_eligible {d : Directory} (built : d.Built)
    (ghosts : ∀ id ∈ d.unrecorded, d.find? id = none) (requests : List Moderation.Request)
    {written : String} {scope : RandomScope} (hscope : (written, scope) ∈ RandomScope.byName) :
    ∃ (n : Nat) (user : Fin n ≃
        {u : UserRecord // Eligible d (Moderation.ignoredNames requests) scope u}),
      ∀ (e : Engine) (s : Stage ε) (a : FilterArgs), s.world.directory = d →
        s.world.moderation = ({} : Moderation).after requests →
        Text.trim a.name = "random." ++ written →
          (n = 0 → (s.play (evaluateNamed e a)).1 = e.config.unknownUser) ∧
          (∀ positive : 0 < n, (s.play (evaluateNamed e a)).1 =
            (user ((e.drawBelow n positive).run s.world).1).1.username) ∧
          ∀ i : Fin n, ∃ entropy : Entropy,
            (∀ positive, (({ e with entropy }.drawBelow n positive).run s.world).1 = i) ∧
            (s.play (evaluateNamed { e with entropy } a)).1 = (user i).1.username := by
  let m := ({} : Moderation).after requests
  have hmem (u : UserRecord) : u ∈ pool d m scope ↔
      Eligible d (Moderation.ignoredNames requests) scope u :=
    mem_pool_iff built (Moderation.ignores_after requests)
  -- the pool lists everyone eligible once, so its places are the numbers
  let user := (List.Nodup.getEquiv (pool d m scope) (nodup_pool built m scope)).trans
    (Equiv.subtypeEquivRight hmem)
  refine ⟨(pool d m scope).length, user, fun e s a hdirectory hmoderation hname => ?_⟩
  have hdrawn (e : Engine) : (s.play (evaluateNamed e a)).1 =
      if h : 0 < (pool d m scope).length then
        (user ((e.drawBelow _ h).run s.world).1).1.username
      else e.config.unknownUser := by
    have hfilter : (s.play (evaluateNamed e a)).1 =
        ((drawUser e scope).run (s.counted (.filterEvaluation "random_user")).world).1 := by
      rw [evaluateNamed, classify_random hscope e.filters hname, Stage.play_bind, Stage.play_count,
        evaluate, Stage.play_lift]
      rfl
    rw [hfilter, run_drawUser e scope ghosts (w := (s.counted _).world) hdirectory hmoderation]
    rfl
  refine ⟨fun hnobody => ?_, fun positive => ?_, fun i => ?_⟩
  · rw [hdrawn, dif_neg (by rw [hnobody]; exact Nat.lt_irrefl 0)]
  · rw [hdrawn, dif_pos positive]
  · have positive : 0 < (pool d m scope).length := Nat.zero_lt_of_lt i.isLt
    refine ⟨fun _ => i.val, fun positive => run_drawBelow_constant e i positive s.world, ?_⟩
    rw [hdrawn, dif_pos positive, run_drawBelow_constant e i positive s.world]

/-! Somebody who is ignored in another case, somebody who is not ignored any more, somebody who is
offline, and an id without a record. -/

namespace Raffle

def directory : Directory :=
  ((((Directory.mk ∅ ["9"]).upsert
    { id := "1", username := "alice", isFollower := true, isOnline := true }).upsert
    { id := "2", username := "bob", isFollower := true, isOnline := true }).upsert
    { id := "3", username := "Carol", isFollower := true, isOnline := true }).upsert
    { id := "4", username := "dan", isFollower := true }

def requests : List Moderation.Request :=
  [.ignore "BOB", .ignore "carol", .unignore "CAROL"]

/-- An engine that draws odd numbers. -/
def engine : Engine where
  entropy := fun n => 2 * n + 5

def start : Stage Unit where
  context := { sender := ⟨"4", "dan"⟩, capabilities := .viewer ⟨"4", "dan"⟩ }
  world := { directory, moderation := .after {} requests, extra := () }

/-- Two of the four are eligible, and the odd number stands for the second of them. -/
theorem draws_carol :
    directory.Built ∧ (∀ id ∈ directory.unrecorded, directory.find? id = none) ∧
      ("online.follower", RandomScope.onlineFollower) ∈ RandomScope.byName ∧
      Moderation.ignoredNames requests = ["BOB"] ∧
      (start.play (renderNodes engine 0 (parse "(random.online.follower)"))).1 = "Carol" ∧
      ∃ (n : Nat) (user : Fin n ≃ {u : UserRecord //
          Eligible directory (Moderation.ignoredNames requests) .onlineFollower u})
        (positive : 0 < n),
        (user ((engine.drawBelow n positive).run start.world).1).1.username = "Carol" ∧
        ∀ i : Fin n, ∃ entropy : Entropy,
          (start.play (evaluateNamed { engine with entropy } ⟨"random.online.follower", []⟩)).1 =
            (user i).1.username := by
  have built : directory.Built := .upsert _ (.upsert _ (.upsert _ (.upsert _ (.empty _))))
  have ghosts : ∀ id ∈ directory.unrecorded, directory.find? id = none := by
    intro id hid
    obtain rfl : id = "9" := List.mem_singleton.1 hid
    decide +kernel
  have hscope : ("online.follower", RandomScope.onlineFollower) ∈ RandomScope.byName := by decide
  refine ⟨built, ghosts, hscope, by decide +kernel, by decide +kernel, ?_⟩
  obtain ⟨n, user, hdraws⟩ := drawn_among_eligible (ε := Unit) built ghosts requests hscope
  obtain ⟨hnobody, hsomebody, heach⟩ := hdraws engine start ⟨"random.online.follower", []⟩ rfl rfl
    (by decide +kernel)
  have htext : (start.play (evaluateNamed engine ⟨"random.online.follower", []⟩)).1 = "Carol" := by
    decide +kernel
  rw [htext] at hnobody hsomebody
  have positive : 0 < n := Nat.pos_of_ne_zero fun hzero => by
    have hunknown : "Carol" = engine.config.unknownUser := hnobody hzero
    exact absurd hunknown (by decide)
  refine ⟨n, user, positive, (hsomebody positive).symm, fun i => ?_⟩
  obtain ⟨entropy, -, hi⟩ := heach i
  exact ⟨entropy, hi⟩

end Raffle

end Template

end ChatBot
