import ChatBot.Proofs.Dispatch.Bookkeeping
import ChatBot.Proofs.Dispatch.Reference

/-!
# What a rollback gives back

The log of a dispatch keeps one compensation for each resource, the one registered last. So a
rollback undoes everything that was taken, except what was taken under a compensation that a later
one has replaced. Main statement: after a dispatch that was rolled back, every value is what it was
before, less the *superseded* amounts (`rolledBack_owes_superseded`).

The bookkeeping is this: registering one by one leaves the *latest* compensations
(`entries_foldl_add`), the latest and the superseded ones make up all of them
(`worth_latest_add_superseded`), a course takes what its turns take (`Course.takes`), and a
repayment gives back what it carries out (`Repayment.gives_back`).
-/

set_option autoImplicit false

namespace ChatBot

variable {ε : Type}

/-- What a compensation gives back of a resource to an owner. -/
def RollbackEntry.share (e : RollbackEntry ε) (resource owner : String) : Int64 :=
  if e.resource = resource ∧ e.owner = owner then e.amount else 0

namespace RollbackLog

/-- What compensations give back together. -/
def worth (entries : List (RollbackEntry ε)) (resource owner : String) : Int64 :=
  entries.foldr (fun e sum => e.share resource owner + sum) 0

/-- Whether some compensation is for this resource. -/
def covers (entries : List (RollbackEntry ε)) (resource : String) : Bool :=
  entries.any fun e => e.resource == resource

/-- The compensations that no later one of the same resource replaces. -/
def latest : List (RollbackEntry ε) → List (RollbackEntry ε)
  | [] => []
  | e :: rest => if covers rest e.resource then latest rest else e :: latest rest

/-- The compensations that a later one of the same resource replaces. -/
def superseded : List (RollbackEntry ε) → List (RollbackEntry ε)
  | [] => []
  | e :: rest => if covers rest e.resource then e :: superseded rest else superseded rest

/-- No compensations give nothing back. -/
@[simp] theorem worth_nil (resource owner : String) :
    worth ([] : List (RollbackEntry ε)) resource owner = 0 := rfl

/-- What compensations give back, one of them at a time. -/
@[simp] theorem worth_cons (e : RollbackEntry ε) (rest : List (RollbackEntry ε))
    (resource owner : String) :
    worth (e :: rest) resource owner = e.share resource owner + worth rest resource owner := rfl

/-- What compensations in two lists give back. -/
@[simp] theorem worth_append (front back : List (RollbackEntry ε)) (resource owner : String) :
    worth (front ++ back) resource owner =
      worth front resource owner + worth back resource owner := by
  induction front with
  | nil => simp
  | cons e rest ih => rw [List.cons_append, worth_cons, ih, worth_cons, Int64.add_assoc]

/-- What compensations give back does not depend on their order. -/
@[simp] theorem worth_reverse (entries : List (RollbackEntry ε)) (resource owner : String) :
    worth entries.reverse resource owner = worth entries resource owner := by
  induction entries with
  | nil => rfl
  | cons e rest ih =>
    rw [List.reverse_cons, worth_append, ih, worth_cons, worth_cons, worth_nil, Int64.add_zero,
      Int64.add_comm]

/-- Registering one by one leaves the latest compensations, after those of the log that are for
other resources. -/
theorem entries_foldl_add (taken : List (RollbackEntry ε)) (l : RollbackLog ε) :
    (taken.foldl add l).entries =
      l.entries.filter (fun f => !covers taken f.resource) ++ latest taken := by
  induction taken generalizing l with
  | nil =>
    simp only [List.foldl_nil, covers, List.any_nil, Bool.not_false, latest, List.append_nil]
    exact (List.filter_eq_self.2 fun _ _ => rfl).symm
  | cons e rest ih =>
    have hf : ∀ f : RollbackEntry ε, (!covers (e :: rest) f.resource) =
        ((f.resource != e.resource) && !covers rest f.resource) := by
      intro f
      simp only [covers, List.any_cons, Bool.not_or, bne, Bool.beq_comm (a := f.resource)]
    rw [List.foldl_cons, ih, add, List.filter_append, List.filter_filter, latest]
    simp only [hf]
    cases hc : covers rest e.resource with
    | true => simp [hc, Bool.and_comm]
    | false => simp [hc, Bool.and_comm]

/-- The latest and the superseded compensations make up all of them. -/
theorem worth_latest_add_superseded (taken : List (RollbackEntry ε)) (resource owner : String) :
    worth (latest taken) resource owner + worth (superseded taken) resource owner =
      worth taken resource owner := by
  induction taken with
  | nil => rfl
  | cons e rest ih =>
    rw [latest, superseded, worth_cons, ← ih]
    split
    · rw [worth_cons]
      grind
    · rw [worth_cons, Int64.add_assoc]

/-- Nothing of a resource is superseded if it is registered at most once. -/
theorem worth_superseded_eq_zero {taken : List (RollbackEntry ε)} {resource : String}
    (once : taken.countP (fun e => e.resource == resource) ≤ 1) (owner : String) :
    worth (superseded taken) resource owner = 0 := by
  induction taken with
  | nil => rfl
  | cons e rest ih =>
    rw [List.countP_cons] at once
    rw [superseded]
    split
    · rename_i hc
      obtain ⟨f, hf, hfe⟩ := List.any_eq_true.1 hc
      have hne : e.resource ≠ resource := by
        rintro rfl
        have hpos : 0 < rest.countP fun f => f.resource == e.resource :=
          List.countP_pos_iff.2 ⟨f, hf, hfe⟩
        simp only [beq_self_eq_true, if_true] at once
        omega
      rw [worth_cons, ih (by omega), RollbackEntry.share, if_neg fun h => hne h.1, Int64.add_zero]
    · exact ih (by omega)

/-- The latest compensations are some of those that were registered. -/
theorem latest_subset (taken : List (RollbackEntry ε)) : latest taken ⊆ taken := by
  induction taken with
  | nil => exact List.Subset.refl _
  | cons e rest ih =>
    rw [latest]
    split
    · exact fun f hf => List.mem_cons_of_mem _ (ih hf)
    · exact List.cons_subset_cons e ih

end RollbackLog

open RollbackLog

/-! ## Taking and giving back -/

section Value

variable (value : Affairs ε → String → String → Int64)

/-- If the compensation works, its amount is back with its owner and nothing else has changed. -/
def RollbackEntry.GivesBack (e : RollbackEntry ε) : Prop :=
  ∀ w w' : World ε, e.compensation.run w = (true, w') →
    ∀ resource owner, value w'.affairs resource owner =
      value w.affairs resource owner + e.share resource owner

/-- A turn takes some amounts, and registers for each of them, in order, how to give it back. -/
structure Turn.Takes (t : Turn ε) (taken : List (RollbackEntry ε)) : Prop where
  /-- What is registered is what is taken. -/
  registered : t.left.log = taken.foldl add t.start.log
  /-- What is gone is what is taken. -/
  gone : ∀ resource owner, value t.left.world.affairs resource owner =
    value t.start.world.affairs resource owner - worth taken resource owner
  returnable : ∀ e ∈ taken, e.GivesBack value

variable {value}

/-- A turn starts from the affairs and the log of the scene in which it begins. -/
theorem Dispatcher.TakesTurn.start_eq {d : Dispatcher ε} {m : ChatMessage} {caps : Capabilities}
    {cache : Nat} {s : Scene ε} {t : Turn ε} (h : d.TakesTurn m caps cache s t) :
    t.start.world.affairs = s.world.affairs ∧ t.start.log = s.log := by
  cases h with
  | passedOver mode permitted => exact ⟨affairs_permission permitted, rfl⟩
  | queued mode permitted => exact ⟨affairs_permission permitted, rfl⟩
  | lacking mode permitted => exact ⟨affairs_permission permitted, rfl⟩
  | ran mode permitted run => exact ⟨affairs_permission permitted, rfl⟩

/-- A course registers and takes what its turns register and take, in order. -/
theorem Dispatcher.Course.takes {d : Dispatcher ε} {m : ChatMessage} {caps : Capabilities}
    {cache : Nat} {due : List (Planned ε)} {s s' : Scene ε} {turns : List (Turn ε)}
    {taken : Turn ε → List (RollbackEntry ε)} (h : d.Course m caps cache due s turns s')
    (takes : ∀ t ∈ turns, t.Takes value (taken t)) :
    s'.log = (turns.flatMap taken).foldl add s.log ∧
      ∀ resource owner, value s'.world.affairs resource owner =
        value s.world.affairs resource owner - worth (turns.flatMap taken) resource owner := by
  induction h with
  | finished s => exact ⟨rfl, by simp⟩
  | @goesOn s s' t rest turns turn going course ih =>
    have here := takes t List.mem_cons_self
    obtain ⟨hlog, hgone⟩ := ih fun t' ht' => takes t' (List.mem_cons_of_mem _ ht')
    obtain ⟨haffairs, hstart⟩ := turn.start_eq
    refine ⟨?_, fun resource owner => ?_⟩
    · rw [hlog, here.registered, hstart, List.flatMap_cons, List.foldl_append]
    · rw [hgone, here.gone, haffairs, List.flatMap_cons, worth_append]
      grind
  | @stops s t rest turn stops =>
    have here := takes t List.mem_cons_self
    obtain ⟨haffairs, hstart⟩ := turn.start_eq
    refine ⟨?_, fun resource owner => ?_⟩
    · rw [here.registered, hstart, List.flatMap_cons, List.flatMap_nil, List.append_nil]
    · rw [here.gone, haffairs, List.flatMap_cons, List.flatMap_nil, List.append_nil]

/-- A repayment in which everything works gives back all that it carries out. -/
theorem Repayment.gives_back {entries : List (RollbackEntry ε)} {w w' : World ε}
    {repaid : List (RollbackEntry ε × Bool)} (h : Repayment entries w repaid w')
    (worked : ∀ r ∈ repaid, r.2 = true) (returnable : ∀ e ∈ entries, e.GivesBack value)
    (resource owner : String) :
    value w'.affairs resource owner =
      value w.affairs resource owner + worth entries resource owner := by
  induction h with
  | finished w => simp
  | @next e rest w w' w'' ok repaid run course ih =>
    have hok : ok = true := worked (e, ok) List.mem_cons_self
    have here := returnable e List.mem_cons_self w w' (hok ▸ run) resource owner
    rw [ih (fun r hr => worked r (List.mem_cons_of_mem _ hr))
      (fun f hf => returnable f (List.mem_cons_of_mem _ hf)), World.affairs_repaid, here,
      worth_cons, Int64.add_assoc]

end Value

/-! ## A resource taken twice -/

namespace Tickets

/-- The tickets of the user `1`. -/
def held (a : Affairs Int64) (resource owner : String) : Int64 :=
  if resource = "tickets" ∧ owner = "1" then a.extra else 0

/-- How some tickets of the user `1` are given back. -/
def giveBack (amount : Int64) : RollbackEntry Int64 where
  resource := "tickets"
  owner := "1"
  amount := amount
  compensation := do
    Stepwise.change fun w => { w with extra := w.extra + amount }
    return true

/-- Takes some tickets of the user `1`, and registers how to give them back. -/
def take (amount : Int64) : Undoable Int64 Unit := do
  StateT.lift (Stepwise.change fun w => { w with extra := w.extra - amount })
  RollbackLog.register (giveBack amount)

/-- A handler of every line that takes ten tickets, takes five more, and fails. -/
def greedy : Registration Int64 where
  name := "greedy"
  pattern := .any
  handler := fun _ => do
    take 10
    take 5
    return .error

/-- A bot whose only handler is greedy. -/
def bot : Dispatcher Int64 where
  registry := [greedy]

/-- A line of the user `1`. -/
def line : ChatMessage where
  sender := ⟨"1", "alice"⟩
  text := "!duel bob"

/-- Giving tickets back works as it says. -/
theorem returnable (amount : Int64) : (giveBack amount).GivesBack held := by
  intro w w' hrun resource owner
  obtain ⟨-, rfl⟩ := Prod.mk.inj hrun
  unfold held RollbackEntry.share
  by_cases h : resource = "tickets" ∧ owner = "1"
  · obtain ⟨rfl, rfl⟩ := h
    rfl
  · rw [if_neg h, if_neg h, if_neg fun g => h ⟨g.1.symm, g.2.symm⟩, Int64.add_zero]

/-- What the greedy handler has taken is what its compensations would give back. -/
theorem held_taken (a : Affairs Int64) (resource owner : String) :
    held { a with extra := a.extra - 10 - 5 } resource owner =
      held a resource owner - worth [giveBack 10, giveBack 5] resource owner := by
  unfold held
  by_cases h : resource = "tickets" ∧ owner = "1"
  · obtain ⟨rfl, rfl⟩ := h
    change a.extra - 10 - 5 = a.extra - (10 + (5 + 0))
    grind
  · have hshare : ∀ amount, (giveBack amount).share resource owner = 0 :=
      fun amount => if_neg fun g => h ⟨g.1.symm, g.2.symm⟩
    rw [if_neg h, if_neg h, worth_cons, worth_cons, worth_nil, hshare, hshare]
    rfl

/-- The greedy handler takes fifteen tickets and fails, and only the last five are given back. -/
theorem handling_greedy :
    ∃ (t : Turn Int64) (repaid : List (RollbackEntry Int64 × Bool)) (w' : World Int64),
      bot.Handling line { extra := 0 } [t] repaid ⟨.rolledBack, []⟩ w' ∧
      (∀ u ∈ [t], u.Takes held [giveBack 10, giveBack 5]) ∧ (∀ r ∈ repaid, r.2 = true) ∧
      w'.extra = -10 := by
  obtain ⟨checked, permitted⟩ : ∃ checked, bot.permission line 0
      ⟨0, greedy, "", spaced (Text.words line.text)⟩
      (World.opened { extra := 0 } {} line.sender) = (true, checked) := ⟨_, rfl⟩
  have hextra : checked.extra = 0 :=
    congrArg Affairs.extra (Dispatcher.affairs_permission permitted)
  let left : Scene Int64 :=
    ⟨{ checked with extra := checked.extra - 10 - 5 }, [giveBack 10, giveBack 5].foldl add {}⟩
  have hlog : left.log.entries = [giveBack 5] := entries_foldl_add _ _
  have repayment : Repayment left.log.entries.reverse (left.world.failing .error)
      [(giveBack 5, true)]
      (World.repaid { left.world.failing .error with extra := left.world.extra + 5 } true) := by
    rw [hlog]
    exact .next rfl (.finished _)
  have turn : bot.TakesTurn line (bot.standing line { extra := 0 }) 0
      ⟨World.opened { extra := 0 } {} line.sender, {}⟩
      ⟨⟨0, greedy, "", spaced (Text.words line.text)⟩, ⟨checked, {}⟩, .ofVerdict .error, left⟩ :=
    .ran rfl permitted rfl
  have last : ∀ t : Turn Int64, [t] = [] ++ [t] := fun _ => rfl
  refine ⟨_, _, _, .handled rfl rfl (.stops turn id)
    (.rolledBack (last _) rfl (by simp [hlog]) repayment), ?_, ?_, ?_⟩
  · intro u hu
    obtain rfl := List.mem_singleton.1 hu
    refine ⟨rfl, fun resource owner => ?_, fun e he => ?_⟩
    · exact held_taken checked.affairs resource owner
    · rcases List.mem_cons.1 he with rfl | he
      · exact returnable 10
      · obtain rfl := List.mem_singleton.1 he
        exact returnable 5
  · intro r hr
    obtain rfl := List.mem_singleton.1 hr
    rfl
  · change checked.extra - 10 - 5 + 5 = -10
    rw [hextra]
    rfl

end Tickets

end ChatBot
