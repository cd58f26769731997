import ChatBot.Proofs.Permission.Asking
import Mathlib.Data.Finset.Card
import Mathlib.Data.Finset.Dedup

/-!
# One snapshot for each user

While a dispatch lasts the directory may change at any time, between any two checks. Its cache still
goes by one set of capabilities for each user: those that the directory gave when the user was first
asked about, and for the sender those that were found when the cache was opened (`firstSeen`). Each
check keeps the cache a record of the first sight of every user (`Recalls.consult`), and so does
every sequence of them. Main statement: all answers about a user are those of that one snapshot
(`answers_of_questioned`).
-/

set_option autoImplicit false

namespace ChatBot

variable {ε : Type}

/-! ## First sights -/

/-- A check that has been made. -/
structure Ask where
  user : String
  required : Tier
  /-- The directory as it was then. -/
  directory : Directory
  /-- What the check came to. -/
  allowed : Bool

section

variable (owners : Owners) (start : Directory) (sender : Sender)

/-- What was found of a user at first sight, if the user has been looked up at all: the sender when
the cache was opened, the others when they were first asked about. -/
def firstSeen (asks : List Ask) (user : String) : Option (Option Capabilities) :=
  if user = sender.id then some (some (owners.capabilities (start.find? sender.id) sender))
  else (asks.find? (·.user = user)).map fun ask => owners.lookedUp ask.directory user

/-- The users that have been looked up. -/
def lookedUpBy (asks : List Ask) : Finset String :=
  insert sender.id (asks.map (·.user)).toFinset

end

section

variable {owners : Owners} {start : Directory} {sender : Sender} {asks : List Ask}

/-- What has been seen stays as it was seen. -/
theorem firstSeen_append {user : String} {caps : Option Capabilities}
    (h : firstSeen owners start sender asks user = some caps) (more : List Ask) :
    firstSeen owners start sender (asks ++ more) user = some caps := by
  rw [firstSeen] at h ⊢
  split at h
  case isTrue hsender => rw [if_pos hsender, h]
  case isFalse hother =>
    obtain ⟨ask, hask, hcaps⟩ := Option.map_eq_some_iff.1 h
    rw [if_neg hother, List.find?_append, hask, Option.some_or, Option.map_some, hcaps]

/-- One more check of another user changes nothing of what was seen first. -/
theorem firstSeen_concat_of_ne {user : String} {ask : Ask} (hne : ask.user ≠ user) :
    firstSeen owners start sender (asks ++ [ask]) user =
      firstSeen owners start sender asks user := by
  have hlast : [ask].find? (·.user = user) = none := by simpa using hne
  rw [firstSeen, firstSeen, List.find?_append, hlast, Option.or_none]

/-- A user who is looked up for the first time is seen as the directory has it now. -/
theorem firstSeen_concat_of_none (ask : Ask)
    (h : firstSeen owners start sender asks ask.user = none) :
    firstSeen owners start sender (asks ++ [ask]) ask.user =
      some (owners.lookedUp ask.directory ask.user) := by
  rw [firstSeen] at h ⊢
  split at h
  case isTrue => cases h
  case isFalse hother =>
    rw [if_neg hother, List.find?_append, Option.map_eq_none_iff.1 h, Option.none_or,
      List.find?_singleton, if_pos (by simp), Option.map_some]

/-- Nothing has been seen of those who have not been looked up. -/
theorem firstSeen_eq_none_iff {user : String} :
    firstSeen owners start sender asks user = none ↔ user ∉ lookedUpBy sender asks := by
  rw [firstSeen, lookedUpBy, Finset.mem_insert, List.mem_toFinset]
  split
  case isTrue hsender => simp [hsender]
  case isFalse hother => simp [hother]

/-- One more check has looked its user up. -/
theorem lookedUpBy_concat (ask : Ask) :
    lookedUpBy sender (asks ++ [ask]) = insert ask.user (lookedUpBy sender asks) := by
  ext user
  simp only [lookedUpBy, List.map_append, List.map_cons, List.map_nil, Finset.mem_insert,
    List.mem_toFinset, List.mem_append, List.mem_singleton]
  tauto

/-- Asking about a user again adds nothing. -/
theorem seen_concat_of_seen (ask : Ask) {caps : Option Capabilities}
    (h : firstSeen owners start sender asks ask.user = some caps) :
    (∀ user, firstSeen owners start sender (asks ++ [ask]) user =
      firstSeen owners start sender asks user) ∧
      lookedUpBy sender (asks ++ [ask]) = lookedUpBy sender asks := by
  refine ⟨fun user => ?_, ?_⟩
  · by_cases huser : ask.user = user
    · rw [← huser, h, firstSeen_append h]
    · exact firstSeen_concat_of_ne huser
  · have hin : ask.user ∈ lookedUpBy sender asks := by
      refine Decidable.byContradiction fun hnot => ?_
      rw [firstSeen_eq_none_iff.2 hnot] at h
      cases h
    rw [lookedUpBy_concat, Finset.insert_eq_of_mem hin]

end

/-! ## Caches that recall -/

/-- The cache holds of each user what was found at first sight, it has decided by that, and so has
every check that was made. -/
structure PermissionCache.Recalls (p : PermissionCache) (owners : Owners) (start : Directory)
    (sender : Sender) (asks : List Ask) : Prop where
  known : ∀ user, p.known[user]? = firstSeen owners start sender asks user
  decided : ∀ user required allowed, p.decision? user required = some allowed →
    ∃ caps, firstSeen owners start sender asks user = some caps ∧
      allowed = Owners.permits caps required
  answered : ∀ ask ∈ asks, ∃ caps, firstSeen owners start sender asks ask.user = some caps ∧
    ask.allowed = Owners.permits caps ask.required
  lookups : p.lookups = (lookedUpBy sender asks).card

namespace PermissionCache

variable {p : PermissionCache} {owners : Owners} {start : Directory} {sender : Sender}
  {asks : List Ask}

/-- A cache that has just been opened holds the sender as seen then, and recalls no checks. -/
theorem recalls_ofSender (owners : Owners) {start : Directory} {sender : Sender}
    (hfiled : ∀ record, start.find? sender.id = some record → record.id = sender.id) :
    (ofSender (owners.capabilities (start.find? sender.id) sender)).Recalls owners start sender
      [] := by
  have hid : (owners.capabilities (start.find? sender.id) sender).userId = sender.id := by
    cases hfind : start.find? sender.id with
    | none => rw [Owners.capabilities]; split <;> rfl
    | some record => exact hfiled record hfind
  refine ⟨fun user => ?_, fun user required allowed hdecided => ?_, fun ask hask => ?_, ?_⟩
  · simp [ofSender, seeded, firstSeen, Std.ExtTreeMap.getElem?_insert, hid, eq_comm (a := user)]
  · cases hdecided
  · cases hask
  · rfl

/-- One more check leaves a cache that recalls, if it is answered by the first sight of its user and
no other decision comes to be known. -/
theorem Recalls.concat (h : p.Recalls owners start sender asks) {ask : Ask}
    {caps : Option Capabilities}
    (hseen : firstSeen owners start sender (asks ++ [ask]) ask.user = some caps)
    (hallowed : ask.allowed = Owners.permits caps ask.required) {p' : PermissionCache}
    (hknown : ∀ user, p'.known[user]? = firstSeen owners start sender (asks ++ [ask]) user)
    (hdecided : ∀ user required allowed, p'.decision? user required = some allowed →
      p.decision? user required = some allowed ∨
        user = ask.user ∧ allowed = Owners.permits caps required)
    (hlookups : p'.lookups = (lookedUpBy sender (asks ++ [ask])).card) :
    p'.Recalls owners start sender (asks ++ [ask]) := by
  refine ⟨hknown, fun user required allowed hdecision => ?_, fun earlier hearlier => ?_, hlookups⟩
  · rcases hdecided user required allowed hdecision with hold | ⟨rfl, hnew⟩
    · obtain ⟨found, hfound, hallowed⟩ := h.decided user required allowed hold
      exact ⟨found, firstSeen_append hfound _, hallowed⟩
    · exact ⟨caps, hseen, hnew⟩
  · rcases List.mem_append.1 hearlier with hold | hnew
    · obtain ⟨found, hfound, hallowed⟩ := h.answered earlier hold
      exact ⟨found, firstSeen_append hfound _, hallowed⟩
    · rw [List.mem_singleton.1 hnew]
      exact ⟨caps, hseen, hallowed⟩

/-- **One check.** It is answered by the first sight of the user, and the cache goes on
to recall. -/
theorem Recalls.consult (h : p.Recalls owners start sender asks) {directory : Directory}
    {user : String} {required : Tier} {allowed : Bool} {p' : PermissionCache}
    (hconsults : Consults owners directory p user required allowed p') :
    p'.Recalls owners start sender (asks ++ [⟨user, required, directory, allowed⟩]) := by
  have hdecide {p : PermissionCache} (caps : Option Capabilities) (other : String) (tier : Tier)
      (answer : Bool) (hanswer : (p.decide user required (Owners.permits caps required)).decision?
        other tier = some answer) :
      p.decision? other tier = some answer ∨
        other = user ∧ answer = Owners.permits caps tier := by
    rw [decision?_decide] at hanswer
    split at hanswer
    · next hsame =>
      obtain ⟨rfl, rfl⟩ := hsame
      exact Or.inr ⟨rfl, (Option.some_inj.1 hanswer).symm⟩
    · exact Or.inl hanswer
  -- the cache answers by a decision, by what it knows, or by a lookup
  cases hconsults with
  | decided hdecided =>
    obtain ⟨caps, hcaps, hallowed⟩ := h.decided user required allowed hdecided
    obtain ⟨hsame, hlooked⟩ := seen_concat_of_seen
      ⟨user, required, directory, allowed⟩ hcaps
    refine h.concat (firstSeen_append hcaps _) hallowed (fun other => ?_) (fun _ _ _ => Or.inl) ?_
    · rw [hsame, h.known]
    · rw [hlooked, h.lookups]
  | @known caps hknown =>
    have hcaps : firstSeen owners start sender asks user = some caps :=
      (h.known user).symm.trans hknown
    obtain ⟨hsame, hlooked⟩ := seen_concat_of_seen
      ⟨user, required, directory, Owners.permits caps required⟩ hcaps
    refine h.concat (firstSeen_append hcaps _) rfl (fun other => ?_) (hdecide caps) ?_
    · rw [hsame, ← h.known]
      rfl
    · rw [hlooked, ← h.lookups]
      rfl
  | found hunknown =>
    have hnone : firstSeen owners start sender asks user = none :=
      (h.known user).symm.trans hunknown
    let caps := owners.lookedUp directory user
    let ask : Ask := ⟨user, required, directory, Owners.permits caps required⟩
    have hseen := firstSeen_concat_of_none ask hnone
    refine h.concat hseen rfl (fun other => ?_) (fun other tier answer hanswer => ?_) ?_
    · show (p.learn user caps).known[other]? = _
      rw [getElem?_learn]
      split
      case isTrue huser => rw [← huser]; exact hseen.symm
      case isFalse huser => rw [firstSeen_concat_of_ne huser, h.known]
    · exact hdecide caps other tier answer hanswer
    · show p.lookups + 1 = _
      rw [lookedUpBy_concat, Finset.card_insert_of_notMem (firstSeen_eq_none_iff.1 hnone),
        h.lookups]

end PermissionCache

/-! ## Sequences of checks -/

/-- The states that come after the cache of a dispatch has been opened for its sender in a state,
with the checks that were made against the cache, in their order. In between, everything may change
but this cache, also the directory. -/
inductive Questioned (owners : Owners) (sender : Sender) (w₀ : World ε) :
    List Ask → World ε → Prop
  | opened : Questioned owners sender w₀ [] (w₀.opened owners sender)
  | asked {asks : List Ask} {w : World ε} (h : Questioned owners sender w₀ asks w) (user : String)
      (required : Tier) :
      Questioned owners sender w₀
        (asks ++ [⟨user, required, w.directory,
          ((checkPermission owners w₀.caches.length user required).run w).1⟩])
        ((checkPermission owners w₀.caches.length user required).run w).2
  | elsewhere {asks : List Ask} {w w' : World ε} (h : Questioned owners sender w₀ asks w)
      (hcache : w'.caches[w₀.caches.length]? = w.caches[w₀.caches.length]?) :
      Questioned owners sender w₀ asks w'

section

variable {owners : Owners} {sender : Sender} {w₀ w : World ε} {asks : List Ask}

/-- Whatever the checks, the cache recalls them. -/
theorem Questioned.recalls (h : Questioned owners sender w₀ asks w)
    (hfiled : ∀ record, w₀.directory.find? sender.id = some record → record.id = sender.id) :
    ∃ p, w.caches[w₀.caches.length]? = some p ∧ p.Recalls owners w₀.directory sender asks := by
  induction h with
  | opened =>
    refine ⟨_, ?_, PermissionCache.recalls_ofSender owners hfiled⟩
    rw [World.opened, List.getElem?_concat_length]
  | asked _ user required ih =>
    obtain ⟨p, hp, hrecalls⟩ := ih
    obtain ⟨-, p', hp', hconsults⟩ := consults_check hp user required
    exact ⟨p', hp', hrecalls.consult hconsults⟩
  | elsewhere _ hcache ih =>
    obtain ⟨p, hp, hrecalls⟩ := ih
    exact ⟨p, hcache.trans hp, hrecalls⟩

/-- Capabilities permit what a viewer may do, and what their tier reaches. -/
theorem permits_iff {caps : Option Capabilities} {required : Tier} :
    Owners.permits caps required = true ↔
      required = .viewer ∨ ∃ found, caps = some found ∧ required ≤ found.tier := by
  cases caps <;> simp [Owners.permits, Capabilities.satisfies]

/-- Whatever permits a tier permits every lower one. -/
theorem permits_of_le {caps : Option Capabilities} {required lower : Tier} (hle : lower ≤ required)
    (h : Owners.permits caps required = true) : Owners.permits caps lower = true := by
  rw [permits_iff] at h ⊢
  rcases h with rfl | ⟨found, hfound, htier⟩
  · cases lower
    case viewer => exact Or.inl rfl
    all_goals exact absurd hle (by decide)
  · exact Or.inr ⟨found, hfound, Nat.le_trans hle htier⟩

/-- **One snapshot for each user.** From the opening of the cache on there are any checks of any
users, and in between the directory changes at will. Then the cache says of every user what was
found at first sight, all answers about a user are given by that alone, so that a user who was
admitted to a tier is admitted to every lower one, earlier and later, and every user has been looked
up once. -/
theorem answers_of_questioned (h : Questioned owners sender w₀ asks w)
    (hfiled : ∀ record, w₀.directory.find? sender.id = some record → record.id = sender.id) :
    let seen := firstSeen owners w₀.directory sender asks
    ∃ p, w.caches[w₀.caches.length]? = some p ∧
      (∀ user, p.capabilities user = (seen user).join) ∧
      (∀ ask ∈ asks, ask.allowed = true ↔
        ask.required = .viewer ∨
          ∃ found, seen ask.user = some (some found) ∧ ask.required ≤ found.tier) ∧
      (∀ ask ∈ asks, ∀ other ∈ asks, other.user = ask.user → other.required ≤ ask.required →
        ask.allowed = true → other.allowed = true) ∧
      p.lookups = (insert sender.id (asks.map (·.user)).toFinset).card := by
  intro seen
  obtain ⟨p, hp, hrecalls⟩ := h.recalls hfiled
  refine ⟨p, hp, fun user => ?_, fun ask hask => ?_, fun ask hask other hother huser hle => ?_,
    hrecalls.lookups⟩
  · rw [PermissionCache.capabilities, hrecalls.known]
  · obtain ⟨caps, hcaps, hallowed⟩ := hrecalls.answered ask hask
    have hseen : seen ask.user = some caps := hcaps
    rw [hallowed, permits_iff, hseen]
    simp only [Option.some_inj]
  · obtain ⟨caps, hcaps, hallowed⟩ := hrecalls.answered ask hask
    obtain ⟨caps', hcaps', hallowed'⟩ := hrecalls.answered other hother
    rw [huser, hcaps] at hcaps'
    rw [hallowed, hallowed', ← Option.some_inj.1 hcaps']
    exact permits_of_le hle

end

namespace Demotion

def alice : Sender := ⟨"1", "alice"⟩

/-- Bob is a moderator. -/
def before : World Unit where
  directory := Directory.upsert {} { id := "2", username := "bob", isModerator := true }
  extra := ()

/-- He has been asked about as such, and then his record is lost. -/
def demoted : World Unit :=
  { ((checkPermission {} 0 "2" .moderator).run (before.opened {} alice)).2 with directory := {} }

def after : World Unit := ((checkPermission {} 0 "2" .vip).run demoted).2

/-- Bob has been looked up as a moderator, and is admitted as one in the same dispatch when his
record has been lost. -/
theorem admitted_after_demotion :
    let asks : List Ask :=
      [⟨"2", .moderator, before.directory, true⟩, ⟨"2", .vip, {}, true⟩]
    Questioned {} alice before asks after ∧
      (∀ record, before.directory.find? alice.id = some record → record.id = alice.id) ∧
      ∃ p, after.caches[0]? = some p ∧ (p.capabilities "2").map (·.tier) = some .moderator ∧
        p.lookups = 2 := by
  intro asks
  have hdemoted : Questioned {} alice before [⟨"2", .moderator, before.directory, true⟩] demoted :=
    .elsewhere (.asked .opened "2" .moderator) rfl
  have hquestioned : Questioned {} alice before asks after := .asked hdemoted "2" .vip
  have hfiled : ∀ record, before.directory.find? alice.id = some record → record.id = alice.id := by
    have hnone : before.directory.find? alice.id = none := by decide +kernel
    intro record hrecord
    rw [hnone] at hrecord
    cases hrecord
  obtain ⟨p, hp, hcapabilities, -, -, hlookups⟩ := answers_of_questioned hquestioned hfiled
  refine ⟨hquestioned, hfiled, p, hp, ?_, hlookups⟩
  rw [hcapabilities]
  decide +kernel

end Demotion

end ChatBot
