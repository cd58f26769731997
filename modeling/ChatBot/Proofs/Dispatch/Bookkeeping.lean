import ChatBot.Proofs.Dispatch.Course
import ChatBot.Proofs.Stepwise

/-!
# What the dispatcher keeps its hands off

The dispatcher itself only does bookkeeping: it counts, fills the permission caches, hands jobs to
the detached queue and delivers messages. Everything else in the shared state is the *affairs* of
the handlers. No step of the dispatcher's own programs changes them, so what a dispatch does to the
affairs is what its handlers and their compensations do.
-/

set_option autoImplicit false

namespace ChatBot

/-- The part of the shared state that only handlers and compensations change. -/
structure Affairs (ε : Type) where
  directory : Directory
  moderation : Moderation
  store : VariableStore
  ledger : PointsLedger
  prices : PriceTable
  commands : CommandBook
  clock : Nat
  draws : Nat
  fetches : Nat
  requests : List Http.Request
  extra : ε

variable {ε : Type}

/-- The affairs in a shared state. -/
def World.affairs (w : World ε) : Affairs ε where
  directory := w.directory
  moderation := w.moderation
  store := w.store
  ledger := w.ledger
  prices := w.prices
  commands := w.commands
  clock := w.clock
  draws := w.draws
  fetches := w.fetches
  requests := w.requests
  extra := w.extra

namespace World

/-- Opening the cache of a dispatch leaves the affairs. -/
@[simp] theorem affairs_opened (w : World ε) (owners : Owners) (sender : Sender) :
    (w.opened owners sender).affairs = w.affairs := rfl

/-- Queueing a job leaves the affairs. -/
@[simp] theorem affairs_offered (w : World ε) (job : DetachedJob) :
    (w.offered job).affairs = w.affairs := by
  unfold offered
  split <;> rfl

/-- Counting a failure leaves the affairs. -/
@[simp] theorem affairs_failing (w : World ε) (reason : FailureReason) :
    (w.failing reason).affairs = w.affairs := rfl

/-- Counting a compensation leaves the affairs. -/
@[simp] theorem affairs_repaid (w : World ε) (worked : Bool) :
    (w.repaid worked).affairs = w.affairs := by
  cases worked <;> rfl

/-- Counting what is delivered leaves the affairs. -/
@[simp] theorem affairs_answered (w : World ε) (responses : List OutboundMessage) :
    (w.answered responses).affairs = w.affairs := rfl

/-- Counting the end of a dispatch leaves the affairs. -/
@[simp] theorem affairs_concluded (w : World ε) (state : DispatchState) :
    (w.concluded state).affairs = w.affairs := rfl

end World

open Stepwise

/-- Asking a permission cache may look up a user and learn from it, and nothing more. -/
theorem keeps_checkPermission_of {γ : Type} {f : World ε → γ}
    (hlookups : ∀ w, f { w with lookups := w.lookups + 1 } = f w)
    (hcaches : ∀ w caches, f { w with caches } = f w) (owners : Owners) (cache : Nat)
    (user : String) (required : Tier) : (checkPermission owners cache user required).Keeps f := by
  have learned (g : PermissionCache → PermissionCache) :
      (World.changeCache cache g).Keeps f := keeps_change fun w => hcaches w _
  refine keeps_bind (keeps_read _) fun p => ?_
  split
  · exact keeps_done _
  · split
    · exact keeps_bind (keeps_done _) fun _ => keeps_bind (learned _) fun _ => keeps_done _
    · refine keeps_bind (keeps_act hlookups) fun _ => keeps_bind (learned _) fun _ => ?_
      exact keeps_bind (keeps_done _) fun _ => keeps_bind (learned _) fun _ => keeps_done _

/-- No check of a permission changes the affairs. -/
theorem keeps_checkPermission (owners : Owners) (cache : Nat) (user : String) (required : Tier) :
    (checkPermission owners cache user required).Keeps (World.affairs (ε := ε)) :=
  keeps_checkPermission_of (fun _ => rfl) (fun _ _ => rfl) owners cache user required

namespace Dispatcher

/-- Queueing a job does not change the affairs on the way. -/
theorem keeps_enqueue (job : DetachedJob) : (enqueue job).Keeps (World.affairs (ε := ε)) :=
  keeps_change fun w => w.affairs_offered job

/-- Counting a failure does not change the affairs on the way. -/
theorem keeps_countFailure (reason : FailureReason) :
    (countFailure reason).Keeps (World.affairs (ε := ε)) :=
  keeps_change fun _ => rfl

/-- Delivering responses does not change the affairs. -/
theorem keeps_deliverAll (responses : List OutboundMessage) :
    (deliverAll responses).Keeps (World.affairs (ε := ε)) := by
  induction responses with
  | nil => exact keeps_done _
  | cons r rest ih => exact keeps_bind (keeps_change fun _ => rfl) fun _ => ih

/-- The end of a dispatch does not change the affairs. -/
theorem keeps_finish (state : DispatchState) (responses : List OutboundMessage) :
    (finish state responses).Keeps (World.affairs (ε := ε)) :=
  keeps_bind (keeps_change fun _ => rfl) fun _ => keeps_done _

/-- Whatever the cache answers, the affairs are as they were. -/
theorem affairs_permission {d : Dispatcher ε} {m : ChatMessage} {cache : Nat} {p : Planned ε}
    {w w' : World ε} {permitted : Bool} (h : d.permission m cache p w = (permitted, w')) :
    w'.affairs = w.affairs := by
  have hk := (keeps_checkPermission (ε := ε) d.owners cache m.sender.id
    p.registration.permission).run w
  unfold permission at h
  rwa [h] at hk

end Dispatcher

end ChatBot
