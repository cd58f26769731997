import ChatBot.Proofs.Console.Serving
import ChatBot.Proofs.Console.Session
import Mathlib.Data.List.Forall2

/-!
# The books of a session

Of every user it can be told at any time what has become of the lines that ask for a hug: it has
not been read yet, its sender is being welcomed, its dispatch is on its way, or a hug or a refusal
has been delivered. And whoever has been given points has as many left as the hugs have not cost
that have been paid. Main statement: `Books.play`, all turns of a session leave the books in order.
-/

set_option autoImplicit false

namespace ChatBot.Console

open ChatBot.Template Stepwise

/-! ## Lists that are changed in one place -/

section Lists

variable {α β : Type} {i : Nat}

/-- What replacing an entry does to the number of times that anything occurs. -/
theorem count_set_add [BEq α] [LawfulBEq α] [DecidableEq α] {l : List α} {a : α}
    (h : l[i]? = some a) (b x : α) :
    (l.set i b).count x + (if a = x then 1 else 0) = l.count x + (if b = x then 1 else 0) := by
  obtain ⟨hi, rfl⟩ := List.getElem?_eq_some_iff.1 h
  rw [List.count_set hi]
  by_cases hx : l[i] = x
  · have hpos : 0 < l.count x := List.count_pos_iff.2 (hx ▸ List.getElem_mem hi)
    simp only [hx, beq_self_eq_true, if_true, beq_iff_eq]
    omega
  · simp only [hx, beq_iff_eq, if_false]
    omega

/-- Of two lists that are related entry by entry, entries at the same place can be replaced by
related ones. -/
theorem exists_forall₂_set {R : α → β → Prop} {l : List α} {l' : List β} {a : α}
    (h : List.Forall₂ R l l') (hi : l[i]? = some a) :
    ∃ b, l'[i]? = some b ∧ R a b ∧
      ∀ a' b', R a' b' → List.Forall₂ R (l.set i a') (l'.set i b') := by
  induction h generalizing i with
  | nil => simp at hi
  | cons hab hrest ih =>
    cases i with
    | zero =>
      obtain rfl := Option.some_inj.1 hi
      exact ⟨_, rfl, hab, fun a' b' h' => .cons h' hrest⟩
    | succ i =>
      obtain ⟨b, hb, hR, hset⟩ := ih hi
      exact ⟨b, hb, hR, fun a' b' h' => .cons hab (hset a' b' h')⟩

end Lists

/-! ## Wishes -/

/-- The line comes from the user, whose id is what stands before the first colon, trimmed and in
lower case; and the first word after the colon is the hug command. -/
def wishes (user line : String) : Bool :=
  match Text.splitOnce (withoutBreak line) ":" with
  | none => false
  | some (name, text) => Text.lower (Text.trim name) = user && asksForHug text

/-- How often a user asks for a hug in some lines. -/
def wished (user : String) (lines : List String) : Nat :=
  lines.countP (wishes user)

/-- The message asks for a hug for the user. -/
def isWishOf (user : String) (m : ChatMessage) : Bool :=
  m.sender.id = user && asksForHug m.text

/-- A line is a wish of a user if a message can be read off it that is one. -/
theorem wishes_eq (user line : String) :
    wishes user line = (message? line).any (isWishOf user) := by
  unfold wishes message?
  cases Text.splitOnce (withoutBreak line) ":" with
  | none => rfl
  | some parts =>
    obtain ⟨name, text⟩ := parts
    have hasks : asksForHug (Text.trim text) = asksForHug text := by
      rw [asksForHug, asksForHug, lowerWords, lowerWords, words_trim]
    simp [isWishOf, hasks]

/-! ## One user -/

/-- What is left of the points to start with after some hugs. -/
def left (hugs : Nat) : Int64 :=
  startingPoints - 10 * Int64.ofNat hugs

/-- The points of a newcomer run short after ten hugs, and no earlier. -/
theorem left_lt_iff {hugs : Nat} (h : hugs ≤ 10) : left hugs < 10 ↔ hugs = 10 := by
  revert hugs
  decide

/-- A hug takes ten points off those that are left. -/
theorem left_sub {hugs : Nat} (h : hugs < 10) : left hugs - 10 = left (hugs + 1) := by
  revert hugs
  decide

/-- How many of a user's wishes have come to a dispatch, ended or not. -/
def heard (user : String) (crew : List (String × Phase)) (a : Account) : Nat :=
  a.hugs + a.refusals + crew.count (user, .asking) + crew.count (user, .serving) +
    crew.count (user, .refusing)

/-- How many hugs a user has paid. -/
def paid (user : String) (crew : List (String × Phase)) (a : Account) : Nat :=
  a.hugs + crew.count (user, .serving)

/-- How often a user could not pay. -/
def refused (user : String) (crew : List (String × Phase)) (a : Account) : Nat :=
  a.refusals + crew.count (user, .refusing)

/-- The purse of a user who has been given points. -/
structure Purse (paid refused : Nat) (balance : Int64) : Prop where
  paid_le : paid ≤ 10
  balance_eq : balance = left paid
  /-- Nobody is refused a hug who could pay. -/
  paid_eq : 0 < refused → paid = 10

section Purse

variable {paid refused : Nat} {balance : Int64}

/-- A hug that is paid for keeps the books of a purse. -/
theorem Purse.pay (h : Purse paid refused balance) (covered : ¬ balance < 10) :
    Purse (paid + 1) refused (balance - 10) := by
  obtain ⟨hle, rfl, hrefused⟩ := h
  have hlt : paid < 10 := Nat.lt_of_le_of_ne hle fun heq => covered ((left_lt_iff hle).2 heq)
  refine ⟨hlt, left_sub hlt, fun hpos => ?_⟩
  have := hrefused hpos
  omega

/-- A refusal keeps the books of a purse, since nothing is taken. -/
theorem Purse.lack (h : Purse paid refused balance) (short : balance < 10) :
    Purse paid (refused + 1) balance := by
  obtain ⟨hle, rfl, -⟩ := h
  exact ⟨hle, rfl, fun _ => (left_lt_iff hle).1 short⟩

end Purse

/-- Who has not come to a dispatch has paid nothing. -/
theorem purse_of_unheard {user : String} {crew : List (String × Phase)} {a : Account}
    (hheard : heard user crew a = 0) (hbalance : a.balance = startingPoints) :
    Purse (paid user crew a) (refused user crew a) a.balance := by
  unfold heard at hheard
  have hpaid : paid user crew a = 0 := by
    unfold paid
    omega
  have hrefused : refused user crew a = 0 := by
    unfold refused
    omega
  rw [hpaid, hrefused, hbalance]
  exact ⟨by omega, rfl, by omega⟩

/-- Whose dispatch that of a message is, and its first phase. -/
def entry (m : ChatMessage) : String × Phase :=
  (m.sender.id, if asksForHug m.text then .asking else .silent)

section Append

variable {user : String} {m : ChatMessage} {crew : List (String × Phase)} {a : Account}

/-- A new dispatch counts for no phase behind the first ones. -/
theorem count_append_entry {ph : Phase} (h : ph ≠ .asking ∧ ph ≠ .silent) :
    (crew ++ [entry m]).count (user, ph) = crew.count (user, ph) := by
  rw [List.count_append, List.count_singleton, entry]
  split <;> simp [h.1.symm, h.2.symm]

/-- A new dispatch has been heard, and adds one wish if it is one. -/
theorem heard_append : heard user (crew ++ [entry m]) a =
    heard user crew a + if isWishOf user m then 1 else 0 := by
  have hasking : (crew ++ [entry m]).count (user, .asking) =
      crew.count (user, .asking) + if isWishOf user m then 1 else 0 := by
    rw [List.count_append, List.count_singleton, entry, isWishOf]
    cases asksForHug m.text <;> simp
  unfold heard
  rw [hasking, count_append_entry (by decide), count_append_entry (by decide)]
  omega

/-- A new dispatch has not been paid for. -/
theorem paid_append : paid user (crew ++ [entry m]) a = paid user crew a := by
  rw [paid, paid, count_append_entry (by decide)]

/-- A new dispatch has not been refused. -/
theorem refused_append : refused user (crew ++ [entry m]) a = refused user crew a := by
  rw [refused, refused, count_append_entry (by decide)]

end Append

section Posts

variable {user name : String} {crew : List (String × Phase)} {ph ph' : Phase} {i : Nat}
  {a a' : String → Account}

/-- A posting is in nobody else's account. -/
theorem Posts.other (h : Posts name ph a a' ph') (huser : user ≠ name) : a' user = a user := by
  cases h with
  | stays | lacks => rfl
  | pays | hugs | refuses => exact Function.update_of_ne huser _ _

/-- A move of one user's dispatch leaves the counts of another user. -/
theorem count_other (hi : crew[i]? = some (name, ph)) (huser : user ≠ name) (ph' x : Phase) :
    (crew.set i (name, ph')).count (user, x) = crew.count (user, x) := by
  have hcount := count_set_add hi (name, ph') (user, x)
  simpa [huser.symm] using hcount

/-- A move of a user's dispatch takes it from one phase to the next. -/
theorem count_own (hi : crew[i]? = some (user, ph)) (ph' x : Phase) :
    (crew.set i (user, ph')).count (user, x) + (if ph = x then 1 else 0) =
      crew.count (user, x) + (if ph' = x then 1 else 0) := by
  have hcount := count_set_add hi (user, ph') (user, x)
  simpa using hcount

/-- No step of a dispatch loses a wish or adds one. -/
theorem Posts.heard_eq (h : Posts name ph a a' ph') (hi : crew[i]? = some (name, ph)) :
    heard user (crew.set i (name, ph')) (a' user) = heard user crew (a user) := by
  unfold heard
  by_cases huser : user = name
  · subst huser
    have hasking := count_own hi ph' .asking
    have hserving := count_own hi ph' .serving
    have hrefusing := count_own hi ph' .refusing
    cases h <;> simp at hasking hserving hrefusing ⊢ <;> omega
  · rw [h.other huser, count_other hi huser, count_other hi huser, count_other hi huser]

/-- Every step of a dispatch leaves the purse in order. -/
theorem Posts.purse (h : Posts name ph a a' ph') (hi : crew[i]? = some (name, ph))
    (hp : Purse (paid user crew (a user)) (refused user crew (a user)) (a user).balance) :
    Purse (paid user (crew.set i (name, ph')) (a' user))
      (refused user (crew.set i (name, ph')) (a' user)) (a' user).balance := by
  unfold paid refused at hp ⊢
  by_cases huser : user = name
  · subst huser
    have hserving := count_own hi ph' .serving
    have hrefusing := count_own hi ph' .refusing
    cases h with
    | stays =>
      rw [Nat.add_right_cancel hserving, Nat.add_right_cancel hrefusing]
      exact hp
    | pays _ covered =>
      simp only [reduceCtorEq, ↓reduceIte, Nat.add_zero] at hserving hrefusing
      rw [Function.update_self, hserving, hrefusing]
      exact hp.pay covered
    | lacks _ short =>
      simp only [reduceCtorEq, ↓reduceIte, Nat.add_zero] at hserving hrefusing
      rw [hserving, hrefusing]
      exact hp.lack short
    | hugs =>
      simp only [reduceCtorEq, ↓reduceIte, Nat.add_zero] at hserving hrefusing
      rw [← hserving] at hp
      rw [Function.update_self, hrefusing, Nat.add_right_comm]
      exact hp
    | refuses =>
      simp only [reduceCtorEq, ↓reduceIte, Nat.add_zero] at hserving hrefusing
      rw [← hrefusing] at hp
      rw [Function.update_self, hserving, Nat.add_right_comm]
      exact hp
  · rw [h.other huser, count_other hi huser, count_other hi huser]
    exact hp

end Posts

/-! ## The welcome -/

/-- Entering a user into the directory changes what is found for that user alone. -/
theorem find?_upsert (d : Directory) (u : UserRecord) (id : String) :
    (d.upsert u).find? id = if u.id = id then some u else d.find? id := by
  rw [Directory.find?, Directory.upsert, Std.ExtTreeMap.getElem?_insert]
  simp [Directory.find?]

/-- How far a welcome is. -/
inductive Stage where
  /-- It asks whether the sender is known. -/
  | asks
  /-- The sender is to be entered into the directory. -/
  | enters
  /-- The sender is entered, and is to be given points. -/
  | funds
  /-- There is nothing left to do. -/
  | ended
  deriving DecidableEq

/-- What is left of a welcome. -/
def Stage.program (s : Sender) : Stage → Activity Unit Unit
  | asks => welcome s
  | enters => (enter s).bind fun _ => fund s
  | funds => fund s
  | ended => .done ()

/-- Whether a sender is entered depends on the directory when it is asked. -/
theorem welcome_eq (s : Sender) :
    welcome s = .step (fun w => { w with lookups := w.lookups + 1 }) fun w =>
      if w.directory.find? s.id = none then Stage.enters.program s else Stage.ended.program s := by
  unfold welcome World.findUser
  apply congrArg (Stepwise.step _)
  funext w
  dsimp only [Stepwise.bind]
  cases w.directory.find? s.id with
  | none =>
    rw [if_pos rfl]
    rfl
  | some record =>
    rw [if_neg (Option.some_ne_none record)]
    rfl

/-- Whether the directory is as it is in this stage of a welcome. -/
def Stage.Fits (d : Directory) (id : String) : Stage → Prop
  | asks => True
  | enters => d.find? id = none
  | funds | ended => d.find? id ≠ none

/-- A message whose sender is welcomed, and how far that is. -/
structure Guest where
  message : ChatMessage
  stage : Stage

/-- The message comes from the console, and the welcome goes by the directory. -/
structure Guest.Valid (d : Directory) (g : Guest) : Prop where
  skip : g.message.skip = false
  quiet : g.message.quiet = false
  fits : g.stage.Fits d g.message.sender.id

/-- The user has not been given points. -/
def Newcomer (user : String) (d : Directory) (guest : Option Guest) : Prop :=
  d.find? user = none ∨ ∃ g ∈ guest, g.stage = .funds ∧ g.message.sender.id = user

section Newcomer

variable {user : String} {d : Directory} {m : ChatMessage}

/-- With nobody at the door, a newcomer is one who is not in the directory. -/
theorem newcomer_none : Newcomer user d none ↔ d.find? user = none := by
  simp [Newcomer]

/-- Unless points are about to be given, a newcomer is one who is not in the directory. -/
theorem newcomer_some {stage : Stage} (h : stage ≠ .funds) :
    Newcomer user d (some ⟨m, stage⟩) ↔ d.find? user = none := by
  simp [Newcomer, h]

/-- The welcome is about to give the sender points. -/
theorem newcomer_funds :
    Newcomer user d (some ⟨m, .funds⟩) ↔ d.find? user = none ∨ m.sender.id = user := by
  simp [Newcomer]

end Newcomer

/-! ## The books -/

/-- A program is the dispatch of a user in a phase. -/
def Mans (p : Activity Unit DispatchOutcome) (c : String × Phase) : Prop :=
  p.Phased Serves (Deals c.1) (fun ph _ => ph = .silent) c.2

/-- What holds of a user who asks for some hugs in a session, whose guest and dispatches are as far
as is said. -/
structure Books (user : String) (wanted : Nat) (s : Session) (guest : Option Guest)
    (crew : List (String × Phase)) : Prop where
  serves : Serves s.world
  entering : s.entering = guest.map fun g => (g.message, g.stage.program g.message.sender)
  valid : ∀ g ∈ guest, g.Valid s.world.directory
  mans : List.Forall₂ Mans s.dispatches crew
  wanted_eq : heard user crew (accounts s.world user) +
    (guest.toList.map (·.message)).countP (isWishOf user) + wished user s.lines = wanted
  newcomer : Newcomer user s.world.directory guest → heard user crew (accounts s.world user) = 0
  purse : ¬ Newcomer user s.world.directory guest →
    Purse (paid user crew (accounts s.world user)) (refused user crew (accounts s.world user))
      (accounts s.world user).balance

section Books

variable {user : String} {wanted : Nat} {s : Session} {guest : Option Guest}
  {crew : List (String × Phase)} {d : Dispatcher Unit}

/-- A step of a dispatch leaves the books in order. -/
theorem Books.dispatch (h : Books user wanted s guest crew) (i : Nat) :
    ∃ crew', Books user wanted (s.take d (.dispatch i)) guest crew' := by
  show ∃ crew', Books user wanted { s with
    dispatches := (advance i s.dispatches s.world).1
    world := (advance i s.dispatches s.world).2 } guest crew'
  cases hp : s.dispatches[i]? with
  | none =>
    rw [advance_of_none hp]
    exact ⟨crew, h⟩
  | some p =>
    cases p with
    | done outcome =>
      rw [advance_of_done hp]
      exact ⟨crew, h⟩
    | step u n =>
      rw [advance_of_step hp]
      obtain ⟨⟨name, ph⟩, hc, hmans, hset⟩ := exists_forall₂_set h.mans hp
      obtain ⟨hserves, ph', ⟨hdirectory, hposts⟩, hnext⟩ := hmans s.world h.serves
      have hheard : heard user (crew.set i (name, ph')) (accounts (u s.world) user) =
          heard user crew (accounts s.world user) :=
        hposts.heard_eq hc
      refine ⟨crew.set i (name, ph'), hserves, h.entering, ?_, hset _ _ hnext, ?_, ?_, ?_⟩
      · rw [hdirectory]
        exact h.valid
      · rw [hheard]
        exact h.wanted_eq
      · rw [hdirectory, hheard]
        exact h.newcomer
      · rw [hdirectory]
        exact fun hcustomer => hposts.purse hc (h.purse hcustomer)

/-- What the reader does to a session in which the crew is as it was and the user has the same
account. -/
theorem Books.of_same {s' : Session} {guest' : Option Guest} (h : Books user wanted s guest crew)
    (hserves : Serves s'.world)
    (hentering : s'.entering = guest'.map fun g => (g.message, g.stage.program g.message.sender))
    (hvalid : ∀ g ∈ guest', g.Valid s'.world.directory) (hdispatches : s'.dispatches = s.dispatches)
    (haccount : accounts s'.world user = accounts s.world user)
    (hwanted : (guest'.toList.map (·.message)).countP (isWishOf user) + wished user s'.lines =
      (guest.toList.map (·.message)).countP (isWishOf user) + wished user s.lines)
    (hnewcomer : Newcomer user s'.world.directory guest' ↔ Newcomer user s.world.directory guest) :
    Books user wanted s' guest' crew := by
  refine ⟨hserves, hentering, hvalid, ?_, ?_, ?_, ?_⟩
  · rw [hdispatches]
    exact h.mans
  · have := h.wanted_eq
    rw [haccount]
    omega
  · rw [haccount, hnewcomer]
    exact h.newcomer
  · rw [haccount, hnewcomer]
    exact h.purse

/-- The reader takes a line. -/
theorem Books.next {line : String} {rest : List String} (h : Books user wanted s none crew)
    (hlines : s.lines = line :: rest) :
    Books user wanted (s.read d) ((message? line).map (⟨·, .asks⟩)) crew := by
  have hentering : s.entering = none := h.entering
  have hread : s.read d = { s with
      lines := rest
      entering := (message? line).map fun m => (m, welcome m.sender) } := by
    simp only [Session.read, hentering, hlines]
  rw [hread]
  refine h.of_same h.serves ?_ ?_ rfl rfl ?_ ?_
  · rw [Option.map_map]
    rfl
  · intro g hg
    obtain ⟨m, hm, rfl⟩ := Option.map_eq_some_iff.1 hg
    obtain ⟨parts, -, rfl⟩ := Option.map_eq_some_iff.1 hm
    exact ⟨rfl, rfl, trivial⟩
  · rw [hlines, wished, wished, List.countP_cons, wishes_eq]
    cases message? line with
    | none => simp
    | some m => simp [List.countP_singleton, Nat.add_comm]
  · rw [newcomer_none]
    cases message? line with
    | none => exact newcomer_none
    | some m => exact newcomer_some (by decide)

/-- The reader goes on with a welcome that asks whether the sender is known. -/
theorem Books.asks {m : ChatMessage} (h : Books user wanted s (some ⟨m, .asks⟩) crew) :
    ∃ guest', Books user wanted (s.read d) (some guest') crew := by
  obtain ⟨lines, entering, dispatches, world⟩ := s
  obtain rfl : entering = some (m, welcome m.sender) := h.entering
  have hvalid := h.valid _ rfl
  have hnext (stage : Stage) (hstage : stage ≠ .funds)
      (hfits : stage.Fits world.directory m.sender.id) :
      Books user wanted ⟨lines, some (m, stage.program m.sender), dispatches,
        { world with lookups := world.lookups + 1 }⟩ (some ⟨m, stage⟩) crew := by
    refine h.of_same (Serves.of_counter (w := world) rfl h.serves) rfl ?_ rfl rfl rfl ?_
    · rintro _ ⟨⟩
      exact ⟨hvalid.skip, hvalid.quiet, hfits⟩
    · rw [newcomer_some hstage, newcomer_some (by decide)]
  rw [welcome_eq]
  show ∃ guest', Books user wanted ⟨lines, some (m, if world.directory.find? m.sender.id = none
    then Stage.enters.program m.sender else Stage.ended.program m.sender), dispatches,
    { world with lookups := world.lookups + 1 }⟩ (some guest') crew
  split
  · next hfind => exact ⟨_, hnext .enters (by decide) hfind⟩
  · next hfind => exact ⟨_, hnext .ended (by decide) hfind⟩

/-- The reader enters the sender into the directory. -/
theorem Books.enters {m : ChatMessage} (h : Books user wanted s (some ⟨m, .enters⟩) crew) :
    Books user wanted (s.read d) (some ⟨m, .funds⟩) crew := by
  obtain ⟨lines, entering, dispatches, world⟩ := s
  obtain rfl : entering = some (m, (enter m.sender).bind fun _ => fund m.sender) := h.entering
  have hvalid := h.valid _ rfl
  have hserves : Serves world := h.serves
  refine h.of_same ⟨hserves.moderation, hserves.prices, hserves.commands, hserves.admits⟩ rfl ?_
    rfl rfl rfl ?_
  · rintro _ ⟨⟩
    refine ⟨hvalid.skip, hvalid.quiet, ?_⟩
    show (world.directory.upsert _).find? _ ≠ none
    rw [find?_upsert, if_pos rfl]
    exact Option.some_ne_none _
  · rw [newcomer_funds, newcomer_some (by decide)]
    show (world.directory.upsert _).find? _ = none ∨ _ ↔ _
    rw [find?_upsert]
    by_cases huser : m.sender.id = user
    · have hfits : world.directory.find? m.sender.id = none := hvalid.fits
      rw [← huser]
      exact iff_of_true (.inr rfl) hfits
    · rw [if_neg huser]
      exact or_iff_left huser

/-- The reader gives the sender points. -/
theorem Books.funds {m : ChatMessage} (h : Books user wanted s (some ⟨m, .funds⟩) crew) :
    Books user wanted (s.read d) (some ⟨m, .ended⟩) crew := by
  obtain ⟨lines, entering, dispatches, world⟩ := s
  obtain rfl : entering = some (m, fund m.sender) := h.entering
  have hvalid := h.valid _ rfl
  have hvalid' : ∀ g ∈ some (⟨m, .ended⟩ : Guest), g.Valid world.directory := by
    rintro _ ⟨⟩
    exact ⟨hvalid.skip, hvalid.quiet, hvalid.fits⟩
  have hserves := Serves.ledger h.serves (world.ledger.setBalance m.sender.id startingPoints)
  have haccounts := accounts_setBalance world m.sender.id startingPoints
  by_cases huser : m.sender.id = user
  · subst huser
    have hheard : heard m.sender.id crew (accounts world m.sender.id) = 0 :=
      h.newcomer (newcomer_funds.2 (.inr rfl))
    have haccount := congrFun haccounts m.sender.id
    rw [Function.update_self] at haccount
    -- giving points adds no hugs and no refusals
    have hheard' : heard m.sender.id crew (accounts { world with
        ledger := world.ledger.setBalance m.sender.id startingPoints } m.sender.id) =
        heard m.sender.id crew (accounts world m.sender.id) := by
      rw [haccount]
      rfl
    refine ⟨hserves, rfl, hvalid', h.mans, ?_, ?_, ?_⟩
    · exact (congrArg (· + _ + _) hheard').trans h.wanted_eq
    · exact fun _ => hheard'.trans hheard
    · exact fun _ => purse_of_unheard (hheard'.trans hheard) (congrArg Account.balance haccount)
  · refine h.of_same hserves rfl hvalid' rfl ?_ rfl ?_
    · exact (congrFun haccounts user).trans (Function.update_of_ne (Ne.symm huser) _ _)
    · rw [newcomer_some (by decide), newcomer_funds]
      exact (or_iff_left huser).symm

/-- The reader starts the dispatch of the sender. -/
theorem Books.ended {m : ChatMessage} {e : Engine} (he : e.filters = {}) (owners : Owners)
    (h : Books user wanted s (some ⟨m, .ended⟩) crew) :
    ∃ crew', Books user wanted (s.read (dispatcherOf e owners)) none crew' := by
  obtain ⟨lines, entering, dispatches, world⟩ := s
  obtain rfl : entering = some (m, .done ()) := h.entering
  have hvalid := h.valid _ rfl
  have hmans : Mans ((dispatcherOf e owners).dispatch m) (entry m) :=
    phased_dispatch he owners hvalid.skip hvalid.quiet
  have hheard : heard user (crew ++ [entry m]) (accounts world user) =
      heard user crew (accounts world user) + if isWishOf user m then 1 else 0 :=
    heard_append
  have hnewcomer : Newcomer user world.directory none ↔
      Newcomer user world.directory (some ⟨m, .ended⟩) := by
    rw [newcomer_none, newcomer_some (by decide)]
  refine ⟨crew ++ [entry m], h.serves, rfl, nofun, List.rel_append h.mans (.cons hmans .nil),
    ?_, ?_, ?_⟩
  · have hwanted := h.wanted_eq
    simp only [Option.toList_some, List.map_cons, List.map_nil, List.countP_singleton] at hwanted
    show heard user (crew ++ [entry m]) (accounts world user) + 0 + wished user lines = wanted
    rw [hheard]
    exact hwanted
  · intro hnew
    have huser : m.sender.id ≠ user := by
      rintro rfl
      exact hvalid.fits (newcomer_none.1 hnew)
    show heard user (crew ++ [entry m]) (accounts world user) = 0
    rw [hheard, h.newcomer (hnewcomer.1 hnew), isWishOf]
    simp [huser]
  · intro hcustomer
    rw [paid_append, refused_append]
    exact h.purse fun hnew => hcustomer (hnewcomer.2 hnew)

/-- Every turn leaves the books in order. -/
theorem Books.take {e : Engine} (he : e.filters = {}) (owners : Owners)
    (h : Books user wanted s guest crew) (turn : Turn) :
    ∃ guest' crew', Books user wanted (s.take (dispatcherOf e owners) turn) guest' crew' := by
  cases turn with
  | dispatch i => exact ⟨guest, h.dispatch i⟩
  | reader =>
    cases guest with
    | none =>
      cases hlines : s.lines with
      | cons line rest => exact ⟨_, crew, h.next hlines⟩
      | nil =>
        have hentering : s.entering = none := h.entering
        have hread : s.take (dispatcherOf e owners) .reader = s := by
          simp only [Session.take, Session.read, hentering, hlines]
        rw [hread]
        exact ⟨none, crew, h⟩
    | some g =>
      obtain ⟨m, stage⟩ := g
      cases stage with
      | asks =>
        obtain ⟨guest', hasks⟩ := h.asks
        exact ⟨some guest', crew, hasks⟩
      | enters => exact ⟨_, crew, h.enters⟩
      | funds => exact ⟨_, crew, h.funds⟩
      | ended => exact ⟨none, h.ended he owners⟩

/-- Whatever the turns, the books of a user are kept. -/
theorem Books.play {e : Engine} (he : e.filters = {}) (owners : Owners)
    (h : Books user wanted s guest crew) (turns : List Turn) :
    ∃ guest' crew', Books user wanted (s.play (dispatcherOf e owners) turns) guest' crew' := by
  induction turns generalizing s guest crew with
  | nil => exact ⟨guest, crew, h⟩
  | cons turn rest ih =>
    obtain ⟨guest', crew', h'⟩ := h.take he owners turn
    exact ih h'

end Books

end ChatBot.Console
