import ChatBot.Proofs.Dispatch.Course

/-!
# What a permission cache answers

The cache of a dispatch stands between its checks and the directory. It starts with the sender, who
has been resolved by the identity in the message, and looks everybody else up by id. As long as the
directory stays as it is, the cache answers every check from one fixed assignment of capabilities
to users (`Owners.seen`), however often and in whatever order it is asked. Main statement: these are
the answers of the directory itself, except about the sender's own entry where the directory says
less of the sender than the message does (`answers_of_consulted`).
-/

set_option autoImplicit false

namespace ChatBot

variable {ε : Type}

namespace Owners

/-- The capabilities of a user by the id alone. -/
def lookedUp (o : Owners) (directory : Directory) (user : String) : Option Capabilities :=
  o.capabilitiesOf (directory.find? user)

/-- The capabilities that the cache of a dispatch goes by: those that the sender was resolved to,
under the id that they carry, and those of the record for everybody else. -/
def seen (o : Owners) (directory : Directory) (sender : Sender) (user : String) :
    Option Capabilities :=
  let resolved := o.capabilities (directory.find? sender.id) sender
  if user = resolved.userId then some resolved else o.lookedUp directory user

end Owners

/-! ## Sound caches -/

namespace PermissionCache

/-- The cache knows and has decided nothing but what is true, and who is not known to it may be
looked up. -/
structure Sound (p : PermissionCache) (lookUp truth : String → Option Capabilities) : Prop where
  known : ∀ user caps, p.known[user]? = some caps → caps = truth user
  unknown : ∀ user, p.known[user]? = none → lookUp user = truth user
  decided : ∀ user required allowed, p.decision? user required = some allowed →
    allowed = Owners.permits (truth user) required

variable {p : PermissionCache} {lookUp truth : String → Option Capabilities}

/-- A cache that learns of a user knows of this one, and of the others what it knew. -/
theorem getElem?_learn {user other : String} {found : Option Capabilities} :
    (p.learn user found).known[other]? = if user = other then some found else p.known[other]? := by
  rw [learn, Std.ExtTreeMap.getElem?_insert]
  simp

/-- A cache that decides has this decision, and the others that it had. -/
theorem decision?_decide {user other : String} {required tier : Tier} {allowed : Bool} :
    (p.decide user required allowed).decision? other tier =
      if other = user ∧ tier = required then some allowed else p.decision? other tier := by
  rw [PermissionCache.decide, decision?, List.lookup_cons]
  by_cases hsame : other = user ∧ tier = required
  · rw [if_pos hsame, hsame.1, hsame.2, beq_self_eq_true]
  · have hne : ((other, tier) == (user, required)) = false := by simpa using hsame
    rw [if_neg hsame, hne]
    rfl

/-- A cache that has just been opened for a sender is sound. -/
theorem sound_ofSender (owners : Owners) (directory : Directory) (sender : Sender) :
    (ofSender (owners.capabilities (directory.find? sender.id) sender)).Sound
      (owners.lookedUp directory) (owners.seen directory sender) := by
  let resolved := owners.capabilities (directory.find? sender.id) sender
  have hknown (user : String) : (ofSender resolved).known[user]? =
      if user = resolved.userId then some (some resolved) else none := by
    simp [ofSender, seeded, Std.ExtTreeMap.getElem?_insert, eq_comm (a := user)]
  have hseen (user : String) : owners.seen directory sender user =
      if user = resolved.userId then some resolved else owners.lookedUp directory user := rfl
  refine ⟨?_, ?_, ?_⟩
  · intro user caps hcaps
    rw [hknown] at hcaps
    rw [hseen]
    split at hcaps
    · next huser => rw [if_pos huser, ← Option.some_inj.1 hcaps]
    · cases hcaps
  · intro user hnone
    rw [hknown] at hnone
    rw [hseen]
    split at hnone
    · cases hnone
    · next huser => rw [if_neg huser]
  · intro user required allowed hdecided
    cases hdecided

/-- A sound cache that looks a user up is sound. -/
theorem Sound.learn (h : p.Sound lookUp truth) {user : String} (hnone : p.known[user]? = none) :
    (p.learn user (lookUp user)).Sound lookUp truth := by
  refine ⟨?_, ?_, h.decided⟩
  · intro other caps hcaps
    rw [getElem?_learn] at hcaps
    split at hcaps
    · next hsame =>
      rw [← hsame, ← Option.some_inj.1 hcaps]
      exact h.unknown user hnone
    · exact h.known other caps hcaps
  · intro other hother
    rw [getElem?_learn] at hother
    split at hother
    · cases hother
    · exact h.unknown other hother

/-- A sound cache that decides by what is true is sound. -/
theorem Sound.decide (h : p.Sound lookUp truth) (user : String) (required : Tier) :
    (p.decide user required (Owners.permits (truth user) required)).Sound lookUp truth := by
  refine ⟨h.known, h.unknown, ?_⟩
  intro other tier allowed hdecided
  rw [decision?_decide] at hdecided
  split at hdecided
  · next hsame =>
    obtain ⟨rfl, rfl⟩ := hsame
    exact (Option.some_inj.1 hdecided).symm
  · exact h.decided other tier allowed hdecided

end PermissionCache

/-! ## Checks -/

/-- What comes of a check against a cache, while the directory is as given. -/
inductive Consults (owners : Owners) (directory : Directory) (p : PermissionCache) (user : String)
    (required : Tier) : Bool → PermissionCache → Prop
  | decided {allowed : Bool} (hdecided : p.decision? user required = some allowed) :
      Consults owners directory p user required allowed p
  | known {caps : Option Capabilities} (hknown : p.known[user]? = some caps) :
      Consults owners directory p user required (Owners.permits caps required)
        (p.decide user required (Owners.permits caps required))
  | found (hunknown : p.known[user]? = none) :
      Consults owners directory p user required
        (Owners.permits (owners.lookedUp directory user) required)
        ((p.learn user (owners.lookedUp directory user)).decide user required
          (Owners.permits (owners.lookedUp directory user) required))

/-- A change of a cache changes no other one. -/
theorem getElem?_changeCache (cache : Nat) (f : PermissionCache → PermissionCache) (w : World ε) :
    ((World.changeCache cache f).run w).2.caches[cache]? = w.caches[cache]?.map f := by
  simp [World.changeCache]

/-- A check does to its cache what is said above, and leaves the directory alone. -/
theorem consults_check {owners : Owners} {cache : Nat} {w : World ε} {p : PermissionCache}
    (hp : w.caches[cache]? = some p) (user : String) (required : Tier) :
    let checked := (checkPermission owners cache user required).run w
    checked.2.directory = w.directory ∧ ∃ p', checked.2.caches[cache]? = some p' ∧
      Consults owners w.directory p user required checked.1 p' := by
  have hread : (World.readCache cache).run w = (p, w) := by
    rw [World.readCache, Stepwise.run_read, hp, Option.getD_some]
  unfold checkPermission
  simp only [Stepwise.bind_eq, Stepwise.run_bind, hread]
  cases hdecision : p.decision? user required with
  | some allowed => exact ⟨rfl, p, hp, .decided hdecision⟩
  | none =>
    cases hknown : p.known[user]? with
    | some caps =>
      refine ⟨rfl, _, ?_, .known hknown⟩
      have hchanged := getElem?_changeCache cache
        (·.decide user required (Owners.permits caps required)) w
      rwa [hp] at hchanged
    | none =>
      refine ⟨rfl, _, ?_, .found hknown⟩
      let found := owners.lookedUp w.directory user
      let looked := ((World.findUser user).run w).2
      have hlearned := getElem?_changeCache cache (·.learn user found) looked
      have hdecided := getElem?_changeCache cache
        (·.decide user required (Owners.permits found required))
        ((World.changeCache cache (·.learn user found)).run looked).2
      have hlooked : looked.caches[cache]? = some p := hp
      rw [hlearned, hlooked] at hdecided
      exact hdecided

/-- A sound cache answers with the truth, and stays sound. -/
theorem PermissionCache.Sound.consult {owners : Owners} {directory : Directory}
    {truth : String → Option Capabilities} {p p' : PermissionCache} {user : String}
    {required : Tier} {allowed : Bool} (h : p.Sound (owners.lookedUp directory) truth)
    (hconsults : Consults owners directory p user required allowed p') :
    allowed = Owners.permits (truth user) required ∧
      p'.Sound (owners.lookedUp directory) truth := by
  cases hconsults with
  | decided hdecided => exact ⟨h.decided user required allowed hdecided, h⟩
  | @known caps hknown =>
    have hcaps := h.known user caps hknown
    rw [hcaps]
    exact ⟨rfl, h.decide user required⟩
  | found hunknown =>
    have hlearned := h.learn hunknown
    rw [h.unknown user hunknown] at hlearned ⊢
    exact ⟨rfl, hlearned.decide user required⟩

/-- The dispatch's cache of a number is sound for a sender, and the directory is the one that the
sender was resolved by. -/
structure World.Trusts (w : World ε) (owners : Owners) (directory : Directory) (sender : Sender)
    (cache : Nat) : Prop where
  directory_eq : w.directory = directory
  sound : ∃ p, w.caches[cache]? = some p ∧
    p.Sound (owners.lookedUp directory) (owners.seen directory sender)

section Checks

variable {owners : Owners} {directory : Directory} {sender : Sender} {cache : Nat} {w : World ε}

/-- A check is answered by what the cache goes by, and leaves it sound. -/
theorem World.Trusts.check (h : w.Trusts owners directory sender cache) (user : String)
    (required : Tier) :
    ((checkPermission owners cache user required).run w).1 =
        Owners.permits (owners.seen directory sender user) required ∧
      ((checkPermission owners cache user required).run w).2.Trusts owners directory sender
        cache := by
  obtain ⟨p, hp, hsound⟩ := h.sound
  obtain ⟨hdirectory, p', hp', hconsults⟩ := consults_check hp user required
  rw [h.directory_eq] at hconsults
  obtain ⟨hanswer, hsound'⟩ := hsound.consult hconsults
  exact ⟨hanswer, hdirectory.trans h.directory_eq, p', hp', hsound'⟩

end Checks

/-- A check without a cache looks the user up, unless a viewer may do it. -/
theorem run_checkUncached (owners : Owners) (user : String) (required : Tier) (w : World ε) :
    ((checkUncached owners user required).run w).1 =
      Owners.permits (owners.lookedUp w.directory user) required := by
  unfold checkUncached
  split
  · next hviewer => simp [hviewer, Owners.permits]
  · rfl

/-! ## A dispatch and its cache -/

/-- The states that come after the cache of a dispatch has been opened for its sender in a state, by
checks against this cache. In between, everything may change but this cache and the directory. -/
inductive Consulted (owners : Owners) (sender : Sender) (w₀ : World ε) : World ε → Prop
  | opened : Consulted owners sender w₀ (w₀.opened owners sender)
  | checked {w : World ε} (h : Consulted owners sender w₀ w) (user : String) (required : Tier) :
      Consulted owners sender w₀ ((checkPermission owners w₀.caches.length user required).run w).2
  | elsewhere {w w' : World ε} (h : Consulted owners sender w₀ w)
      (hdirectory : w'.directory = w.directory)
      (hcache : w'.caches[w₀.caches.length]? = w.caches[w₀.caches.length]?) :
      Consulted owners sender w₀ w'

/-- The cache of a dispatch can be trusted in every state that comes after it was opened. -/
theorem Consulted.trusts {owners : Owners} {sender : Sender} {w₀ w : World ε}
    (h : Consulted owners sender w₀ w) :
    w.Trusts owners w₀.directory sender w₀.caches.length := by
  induction h with
  | opened =>
    refine ⟨rfl, _, ?_, PermissionCache.sound_ofSender owners w₀.directory sender⟩
    rw [World.opened, List.getElem?_concat_length]
  | checked _ user required ih => exact (ih.check user required).2
  | elsewhere _ hdirectory hcache ih =>
    obtain ⟨p, hp, hsound⟩ := ih.sound
    exact ⟨hdirectory.trans ih.directory_eq, p, hcache.trans hp, hsound⟩

/-- What is seen of a sender without a record. -/
theorem Owners.seen_of_none {owners : Owners} {directory : Directory} {sender : Sender}
    (hnone : directory.find? sender.id = none) (user : String) (required : Tier) :
    permits (owners.seen directory sender user) required =
      if user = sender.id ∧ owners.includes sender.username then true
      else permits (owners.lookedUp directory user) required := by
  have hlooked : owners.lookedUp directory sender.id = none := by
    rw [lookedUp, hnone, capabilitiesOf, Option.map_none]
  by_cases howner : owners.includes sender.username
  · have hseen : owners.seen directory sender user = if user = sender.id then
        some { Capabilities.viewer sender with isCaster := true, tier := .caster }
        else owners.lookedUp directory user := by
      simp [seen, capabilities, hnone, howner, Capabilities.viewer]
    rw [hseen]
    by_cases huser : user = sender.id
    · rw [if_pos huser, if_pos ⟨huser, howner⟩]
      cases required <;> rfl
    · rw [if_neg huser, if_neg fun h => huser h.1]
  · have hseen : owners.seen directory sender user = if user = sender.id then
        some (Capabilities.viewer sender) else owners.lookedUp directory user := by
      simp [seen, capabilities, hnone, howner, Capabilities.viewer]
    have hstranger : ¬(user = sender.id ∧ owners.includes sender.username) := fun h => howner h.2
    rw [if_neg hstranger, hseen]
    by_cases huser : user = sender.id
    · rw [if_pos huser, huser, hlooked]
      cases required <;> rfl
    · rw [if_neg huser]

/-- What is seen of a sender with a record. -/
theorem Owners.seen_of_some {owners : Owners} {directory : Directory} {sender : Sender}
    {record : UserRecord} (hrecord : directory.find? sender.id = some record) (user : String) :
    owners.seen directory sender user =
      if user = record.id then owners.capabilitiesOf (some record)
      else owners.lookedUp directory user := by
  simp [seen, capabilities, hrecord, Capabilities.ofRecord, capabilitiesOf]

/-- **The cache of a dispatch answers as the directory does, but for its sender.** From the opening
of the cache on, as long as the directory does not change, there are any checks of any users. If the
directory has a record of the sender under the sender's id, the cache answers every check as an
uncached check is answered. If it has no record of the sender, the same holds, except that a sender
with the name of an owner is taken for one: the cache then admits the sender's id to every tier,
while the uncached check admits it only to what a viewer may do. If the record that it gives for the
sender carries another id, the cache goes by that record for that other id. -/
theorem answers_of_consulted (owners : Owners) (sender : Sender) {w₀ w : World ε}
    (h : Consulted owners sender w₀ w) (user : String) (required : Tier) :
    let answer := ((checkPermission owners w₀.caches.length user required).run w).1
    let uncached := ((checkUncached owners user required).run w).1
    (∀ record, w₀.directory.find? sender.id = some record →
      (record.id = sender.id → answer = uncached) ∧
      (user ≠ record.id → answer = uncached) ∧
      (user = record.id →
        answer = Owners.permits (owners.capabilitiesOf (some record)) required)) ∧
    (w₀.directory.find? sender.id = none →
      (owners.includes sender.username = false → answer = uncached) ∧
      (user ≠ sender.id → answer = uncached) ∧
      (user = sender.id → uncached = decide (required = .viewer) ∧
        (owners.includes sender.username = true → answer = true))) := by
  intro answer uncached
  have htrusts := h.trusts
  have hanswer : answer = Owners.permits (owners.seen w₀.directory sender user) required :=
    (htrusts.check user required).1
  have huncached : uncached = Owners.permits (owners.lookedUp w₀.directory user) required := by
    rw [← htrusts.directory_eq]
    exact run_checkUncached owners user required w
  rw [hanswer, huncached]
  refine ⟨?_, ?_⟩
  · intro record hrecord
    rw [Owners.seen_of_some hrecord]
    refine ⟨?_, ?_, ?_⟩
    · intro hid
      split
      · next huser => rw [huser, hid, Owners.lookedUp, hrecord]
      · rfl
    · intro huser
      rw [if_neg huser]
    · intro huser
      rw [if_pos huser]
  · intro hnone
    rw [Owners.seen_of_none hnone]
    refine ⟨?_, ?_, ?_⟩
    · intro howner
      rw [if_neg (by simp [howner])]
    · intro huser
      rw [if_neg fun h => huser h.1]
    · intro huser
      refine ⟨?_, fun howner => if_pos ⟨huser, howner⟩⟩
      rw [huser, Owners.lookedUp, hnone]
      simp [Owners.capabilitiesOf, Owners.permits]

/-! ## Senders of whom the directory says less -/

namespace Stranger

def alice : Sender := ⟨"1", "alice"⟩

def owners : Owners := .ofNames ["alice"]

/-- Nobody is recorded when the cache is opened for an owner. -/
def asked : World Unit :=
  World.opened { extra := () } owners alice

/-- A directory that gives the record of a moderator for the id of another user. -/
def mislaid : Directory where
  records := NameMap.ofList [("1", { id := "2", username := "bob", isModerator := true })]

/-- An owner without a record is admitted by the cache and not by the uncached check; so is the
bearer of the id that stands in a record which is kept under the sender's. -/
theorem cache_disagrees :
    (Consulted owners alice { extra := () } asked ∧
      ((checkPermission owners 0 "1" .moderator).run asked).1 = true ∧
      ((checkUncached owners "1" .moderator).run asked).1 = false) ∧
    let w : World Unit := World.opened { directory := mislaid, extra := () } {} alice
    Consulted {} alice { directory := mislaid, extra := () } w ∧
      ((checkPermission {} 0 "2" .moderator).run w).1 = true ∧
      ((checkUncached {} "2" .moderator).run w).1 = false := by
  refine ⟨⟨.opened, ?_, ?_⟩, .opened, ?_, ?_⟩ <;> decide +kernel

/-- About others they agree, also after she has been asked about. -/
theorem agrees_about_others :
    let w := ((checkPermission owners 0 "1" .moderator).run asked).2
    Consulted owners alice { extra := () } w ∧
      ((checkPermission owners 0 "2" .vip).run w).1 =
        ((checkUncached owners "2" .vip).run w).1 := by
  intro w
  have hconsulted : Consulted owners alice { extra := () } w :=
    .checked .opened "1" .moderator
  have hnone : ({ extra := () } : World Unit).directory.find? alice.id = none := by decide +kernel
  obtain ⟨-, hstranger⟩ := answers_of_consulted owners alice hconsulted "2" .vip
  exact ⟨hconsulted, (hstranger hnone).2.1 (by decide)⟩

end Stranger

end ChatBot
