import ChatBot.Proofs.Console.Books

/-!
# Ten hugs for everybody

Whoever speaks for the first time is given a hundred points before the line is dispatched, a hug
costs ten of them, and nothing else costs or gives any. So every user is given the first ten hugs
that are asked for, and refused all others, whatever else is said and in whatever order the
dispatches go on. Main statement: `sells_ten_hugs`.
-/

set_option autoImplicit false

namespace ChatBot.Console

open ChatBot.Template Stepwise

/-- A bot that has started knows no filters, and has heard nothing yet. -/
theorem exists_start_eq {around : Surroundings} {settings : Settings} {entropy : Entropy}
    {c : Console} (h : Console.start around settings entropy = .ok c) :
    ∃ e owners store, e.filters = {} ∧ c = {
      dispatcher := dispatcherOf e owners
      world := { store, prices := Console.prices, commands := book, extra := () } } := by
  unfold Console.start Engine.ofConfig? at h
  split at h
  · cases h
  · split at h
    · cases h
    · next engine hengine =>
      split at hengine
      · obtain rfl := Option.some_inj.1 hengine
        obtain rfl := Except.ok.inj h
        exact ⟨_, _, _, rfl, rfl⟩
      · cases hengine

/-- The books before the first line. -/
theorem books_ofLines {around : Surroundings} {settings : Settings} {entropy : Entropy}
    {c : Console} (h : Console.start around settings entropy = .ok c) (user : String)
    (lines : List String) :
    Books user (wished user lines) (Session.ofLines c lines) none [] := by
  obtain ⟨e, owners, store, -, rfl⟩ := exists_start_eq h
  have hunknown : ({} : Directory).find? user = none := Std.ExtTreeMap.getElem?_empty
  have hserves : Serves { store, prices := Console.prices, commands := book, extra := () } :=
    ⟨rfl, rfl, rfl, nofun⟩
  refine ⟨hserves, rfl, nofun, .nil, ?_, fun _ => rfl, fun hcustomer => ?_⟩
  · show 0 + 0 + wished user lines = _
    omega
  · exact absurd (newcomer_none.2 hunknown) hcustomer

/-- A dispatch that has ended has said what it had to say. -/
theorem silent_of_done {pool : List (Activity Unit DispatchOutcome)} {crew : List (String × Phase)}
    (h : List.Forall₂ Mans pool crew) (hdone : ∀ p ∈ pool, ∃ outcome, p = .done outcome) :
    ∀ c ∈ crew, c.2 = .silent := by
  induction h with
  | nil => exact nofun
  | cons hmans _ ih =>
    obtain ⟨⟨outcome, rfl⟩, hrest⟩ := List.forall_mem_cons.1 hdone
    exact List.forall_mem_cons.2 ⟨hmans, ih hrest⟩

/-- The books of a session that has come to its end. -/
theorem Books.final {user : String} {wanted : Nat} {s : Session} {guest : Option Guest}
    {crew : List (String × Phase)} (h : Books user wanted s guest crew) (hend : s.Finished) :
    (accounts s.world user).hugs = min wanted 10 ∧
      (accounts s.world user).refusals = wanted - min wanted 10 := by
  obtain ⟨hserves, hentering, hvalid, hmans, hwanted, hnewcomer, hpurse⟩ := h
  have hcount (ph : Phase) (hph : ph ≠ .silent) : crew.count (user, ph) = 0 :=
    List.count_eq_zero.2 fun hmem => hph (silent_of_done hmans hend.dispatches _ hmem)
  have hheard : heard user crew (accounts s.world user) =
      (accounts s.world user).hugs + (accounts s.world user).refusals := by
    rw [heard, hcount _ (by decide), hcount _ (by decide), hcount _ (by decide)]
    rfl
  have hpaid : paid user crew (accounts s.world user) = (accounts s.world user).hugs := by
    rw [paid, hcount _ (by decide)]
    rfl
  have hrefused : refused user crew (accounts s.world user) =
      (accounts s.world user).refusals := by
    rw [refused, hcount _ (by decide)]
    rfl
  obtain rfl : guest = none := by
    rw [hend.entering] at hentering
    exact Option.map_eq_none_iff.1 hentering.symm
  rw [hheard, hend.lines] at hwanted
  have hall : (accounts s.world user).hugs + (accounts s.world user).refusals = wanted := hwanted
  by_cases hnew : Newcomer user s.world.directory none
  · have hzero := hnewcomer hnew
    omega
  · obtain ⟨hle, -, hspent⟩ := hpurse hnew
    rw [hpaid] at hle hspent
    rw [hrefused] at hspent
    omega

/-- Wherever a session has got to, it can be brought to its end; and once it has come to its end,
every user has got the hugs asked for up to ten, and a refusal for every other wish. -/
theorem sells_ten_hugs {around : Surroundings} {settings : Settings} {entropy : Entropy}
    {c : Console} (hstart : Console.start around settings entropy = .ok c) (lines : List String)
    (turns : List Turn) :
    let s := (Session.ofLines c lines).play c.dispatcher turns
    (∃ s', Session.Leads c.dispatcher s s' ∧ s'.Finished) ∧
      (s.Finished → ∀ user,
        s.world.delivered.countP (fun r => r.sender.id = user && isHug r) =
            min (wished user lines) 10 ∧
          s.world.delivered.countP (fun r => r.sender.id = user && isRefusal r) =
            wished user lines - min (wished user lines) 10) := by
  intro s
  refine ⟨Session.exists_finished s, fun hend user => ?_⟩
  have hbooks := books_ofLines hstart user lines
  obtain ⟨e, owners, store, he, rfl⟩ := exists_start_eq hstart
  obtain ⟨guest, crew, hplayed⟩ := hbooks.play he owners turns
  exact hplayed.final hend

namespace Party

/-- Ada asks for more hugs than she can pay, and Bob and nobody have something else to say. -/
def lines : List String :=
  "Bob: hello\n" :: "hello, all\n" :: "bob: !points\n" ::
    (List.replicate 11 "Ada: !hug Bob\n" ++ ["BOB:!HUG", " ada : please !hug"])

/-- Surroundings in which every text can be used and nothing can be reached. -/
def around : Surroundings where
  isServerUrl := fun _ => true
  isEndpoint := fun _ => true
  isAgent := fun _ => true
  client := Http.offline

/-- In eleven lines ada asks for a hug eleven times: the console starts, and some turns bring the
session to an end at which she has had ten hugs and one refusal. -/
theorem ada_refused_once : ∃ c : Console, Console.start around {} (fun _ => 7) = .ok c ∧
    ∃ turns, ((Session.ofLines c lines).play c.dispatcher turns).Finished ∧
      ((Session.ofLines c lines).play c.dispatcher turns).world.delivered.countP
          (fun r => r.sender.id = "ada" && isHug r) = 10 ∧
        ((Session.ofLines c lines).play c.dispatcher turns).world.delivered.countP
          (fun r => r.sender.id = "ada" && isRefusal r) = 1 := by
  obtain ⟨c, hstart⟩ : ∃ c, Console.start around {} (fun _ => 7) = .ok c := ⟨_, rfl⟩
  have hwished : wished "ada" lines = 11 := by decide
  obtain ⟨⟨s, ⟨turns, rfl⟩, hend⟩, -⟩ := sells_ten_hugs hstart lines []
  have hcounts := (sells_ten_hugs hstart lines turns).2 hend "ada"
  rw [hwished] at hcounts
  exact ⟨c, hstart, turns, hend, hcounts⟩

end Party

end ChatBot.Console
