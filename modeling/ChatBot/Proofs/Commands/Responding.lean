import ChatBot.Commands.Responder
import ChatBot.Proofs.Commands.Matchers
import ChatBot.Proofs.Dispatch.Bookkeeping
import ChatBot.Proofs.Dispatch.Scene
import ChatBot.Proofs.Permission.Asking
import ChatBot.Proofs.Template.Writes
import ChatBot.Proofs.Variables.Steps

/-!
# What a custom command answers

A line that starts with custom commands is answered by the longest of them (`Made.find?_cases`). Its
responses are gone through in order, and those that the sender is not permitted to have are passed
over. The others are *performed*: each is rendered once, in a context made for it alone and in the
state that the one before it has left. Main statement: the responses performed are the permitted
ones up to the first that ends the run, and the messages are what they come to, one after the other;
nothing else changes, and no line is denied (`play_responder`).

To consult a permission cache is to change it, so the performances follow one another only up to the
caches (`Linked`). The cache gives the same answers all along because a rendering leaves the caches
and the directory alone (`standings_renderText`).
-/

set_option autoImplicit false

namespace ChatBot

open Stepwise Template

variable {ε : Type}

/-! ## The longest command of a line -/

namespace CommandBook

/-- An enabled command of the book whose words a line starts with, in any case. -/
structure Begins (b : CommandBook) (line : String) (c : CustomCommand) : Prop where
  kept : b.commands[c.command]? = some c
  enabled : c.enabled = true
  begins : Text.words c.command <+: lowerWords line

/-- No enabled command that the line starts with has more words. -/
structure Longest (b : CommandBook) (line : String) (c : CustomCommand) : Prop
    extends b.Begins line c where
  longest : ∀ other, b.Begins line other →
    (Text.words other.command).length ≤ (Text.words c.command).length

/-- What is left of a line behind a command. -/
def rest (line : String) (c : CustomCommand) : String :=
  spaced ((Text.words line).drop (Text.words c.command).length)

variable {b : CommandBook} {line name : String} {c : CustomCommand}

/-- What the search tries: the enabled command that a beginning of the line is, with the rest. -/
def beginning? (b : CommandBook) (line : String) (n : Nat) : Option (CustomCommand × String) :=
  match b.commands[spaced ((lowerWords line).take n)]? with
  | some c => if c.enabled then some (c, spaced ((Text.words line).drop n)) else none
  | none => none

/-- The name of a kept command is its words, spaced out. -/
theorem Named.spaced_words_command (named : b.Named) (h : b.commands[name]? = some c) :
    spaced (Text.words c.command) = c.command := by
  obtain ⟨rfl, text, htext⟩ := named name c h
  rw [← htext, normalForm, words_spaced lowerWords_word]

/-- What is found for the first words of a line is an enabled command of so many words that the line
starts with, and the rest of the line. -/
theorem Named.beginning?_eq_some_iff (named : b.Named) {n : Nat}
    (hn : n ≤ (lowerWords line).length) {found : CustomCommand × String} :
    b.beginning? line n = some found ↔ b.Begins line found.1 ∧
      (Text.words found.1.command).length = n ∧ found.2 = rest line found.1 := by
  constructor
  · intro h
    unfold beginning? at h
    split at h
    · rename_i c hget
      split at h
      · rename_i henabled
        cases h
        obtain ⟨hname, -⟩ := named _ c hget
        have hwords : Text.words c.command = (lowerWords line).take n := by
          rw [hname, words_spaced fun w hw => lowerWords_word w (List.mem_of_mem_take hw)]
        have hlength : (Text.words c.command).length = n := by
          rw [hwords, List.length_take_of_le hn]
        refine ⟨⟨hname ▸ hget, henabled, hwords ▸ List.take_prefix n _⟩, hlength, ?_⟩
        rw [rest, hlength]
      · cases h
    · cases h
  · rintro ⟨hbegins, rfl, hrest⟩
    have hname : spaced ((lowerWords line).take (Text.words found.1.command).length) =
        found.1.command := by
      rw [← List.prefix_iff_eq_take.1 hbegins.begins, named.spaced_words_command hbegins.kept]
    unfold beginning?
    rw [hname, hbegins.kept]
    dsimp only
    rw [if_pos hbegins.enabled, ← rest, ← hrest]

/-- The search finds the longest enabled command that a line starts with, if there is any. -/
theorem Made.find?_cases (made : b.Made) (line : String) :
    (b.find? line = none ∧ ∀ c, ¬ b.Begins line c) ∨
      ∃ c, b.Longest line c ∧ b.find? line = some (c, rest line c) := by
  have hfind : b.find? line = longestBeginning (b.beginning? line) (lowerWords line).length := rfl
  have htried {c : CustomCommand} (h : b.Begins line c) :
      b.beginning? line (Text.words c.command).length = some (c, rest line c) :=
    (made.named.beginning?_eq_some_iff h.begins.length_le).2 ⟨h, rfl, rfl⟩
  rcases longestBeginning_cases (b.beginning? line) (lowerWords line).length with
    ⟨hnone, hall⟩ | ⟨n, found, -, hle, hhit, hmore, hsome⟩
  · refine .inl ⟨hfind.trans hnone, fun c hbegins => ?_⟩
    -- a command has at least one word, so it has been tried
    have hne : (Text.words c.command).length ≠ 0 := by
      obtain ⟨-, text, htext⟩ := made.named _ c hbegins.kept
      have hvalid := made.valid _ c hbegins.kept
      rw [← htext] at hvalid ⊢
      rw [normalForm, words_spaced lowerWords_word]
      exact fun hzero => lowerWords_ne_nil hvalid (List.length_eq_zero_iff.1 hzero)
    have hmiss := hall _ hne hbegins.begins.length_le
    rw [htried hbegins] at hmiss
    cases hmiss
  · obtain ⟨hbegins, hlength, hrest⟩ := (made.named.beginning?_eq_some_iff hle).1 hhit
    refine .inr ⟨found.1, ⟨hbegins, fun other hother => ?_⟩, ?_⟩
    · refine Nat.le_of_not_lt fun hlonger => ?_
      have hmiss := hmore _ (hlength ▸ hlonger) hother.begins.length_le
      rw [htried hother] at hmiss
      cases hmiss
    · rw [hfind, hsome, ← hrest]

end CommandBook

/-! ## What a rendering leaves alone -/

/-- What permissions are told by: the directory and the permission caches. -/
def World.standings (w : World ε) : Directory × List PermissionCache :=
  (w.directory, w.caches)

/-- No filter changes what permissions are told by. -/
theorem filtering_standings (e : Engine) :
    Filtering (fun p : Activity ε _ => p.Keeps World.standings)
      (fun p : Render ε _ => ∀ s : Stage ε,
        (s.play p).2.world.standings = s.world.standings) e where
  steps := filterSteps_keeps_of (fun _ _ => rfl) (fun _ _ => rfl) (fun _ _ => rfl)
    (fun _ _ _ => rfl) e
  pure _ _ := rfl
  bind hp hk s := by
    rw [Stage.play_bind]
    exact (hk _ _).trans (hp s)
  lift h s := by
    rw [Stage.play_lift]
    exact h.run s.world
  look _ _ := rfl
  ask _ _ _ _ _ := rfl
  keep _ _ := rfl

/-- A rendering changes neither the directory nor the permission caches. -/
theorem standings_renderText (e : Engine) (text : String) (s : Stage ε) :
    (s.play (renderText e text)).2.world.standings = s.world.standings := by
  have hvariable (name : String) (silent : Bool) (source : String) (s : Stage ε) :
      (s.play (renderVariable e name silent source)).2.world.standings = s.world.standings := by
    rw [(play_renderVariable e name silent source s).1]
    exact ((Variables.writeSteps_keeps (fun _ _ => rfl) (fun _ _ => rfl) e.disturbances
      name).resolve s.context.operand s.context.capabilities silent).run s.world
  have hcounted (s : Stage ε) (c : Counter) :
      (s.counted c).world.standings = s.world.standings := rfl
  unfold renderText render
  simp only [Stage.play_bind, Stage.play_count, Stage.play_get, Stage.play_set, Stage.play_pure,
    hcounted]
  exact (filtering_standings e).renderNodes hvariable 0 (parse text) s

/-- Whether a cache can be trusted depends on the directory and the caches alone. -/
theorem World.Trusts.of_standings {owners : Owners} {directory : Directory} {sender : Sender}
    {cache : Nat} {w w' : World ε} (h : w.Trusts owners directory sender cache)
    (hkept : w'.standings = w.standings) : w'.Trusts owners directory sender cache := by
  obtain ⟨hdirectory, hcaches⟩ := Prod.mk.inj hkept
  exact ⟨hdirectory.trans h.directory_eq, hcaches ▸ h.sound⟩

namespace Commands

/-! ## The context of a response -/

/-- Whom a command is aimed at: the first word behind it without the marks of a mention, or the
sender if nothing is left of that. -/
def addressee (sender : Sender) (rest : String) : String :=
  let name := String.ofList (((Text.words rest).headD "").toList.dropWhile (· == '@'))
  if name = "" then sender.username else name

/-- The target of a response is the addressee of the line. -/
theorem target_eq_addressee (sender : Sender) (rest : String) :
    target sender rest = addressee sender rest := by
  unfold target addressee
  cases Text.words rest with
  | nil => rfl
  | cons word others =>
    simp only [List.headD_cons, List.isEmpty_iff, String.ofList_eq_empty_iff]

/-- A context for the rest of a line that has nothing in it from elsewhere. -/
def freshContext (i : Invocation) (rest : String) : RenderContext where
  sender := i.message.sender
  capabilities := i.capabilities
  params := NameMap.ofList [("sender", i.message.sender.username), ("param", rest),
    ("touser", addressee i.message.sender rest)]
  operand := if rest = "" then none else some rest
  byProducts := ∅
  skip := i.message.skip
  quiet := i.message.quiet
  notifications := []

/-- What is left of a line is blank only if it is empty. -/
theorem isBlankText_rest (line : String) (c : CustomCommand) :
    Text.isBlankText (CommandBook.rest line c) = decide (CommandBook.rest line c = "") := by
  have hrest : Text.words (CommandBook.rest line c) =
      (Text.words line).drop (Text.words c.command).length :=
    words_spaced fun w hw => Text.isBlank_of_mem_words (List.mem_of_mem_drop hw)
  refine Bool.eq_iff_iff.2 ⟨fun hblank => decide_eq_true ?_, fun hempty => ?_⟩
  -- no word is left in a blank text, and this one is made of its words
  · have hwords := words_trim (CommandBook.rest line c)
    rw [Text.trim_of_isBlankText hblank, hrest] at hwords
    rw [CommandBook.rest, ← hwords]
    rfl
  · rw [of_decide_eq_true hempty]
    rfl

/-- The context of a response for what is left of a line has nothing in it from elsewhere. -/
theorem responseContext_rest (i : Invocation) (line : String) (c : CustomCommand) :
    responseContext i (CommandBook.rest line c) = freshContext i (CommandBook.rest line c) := by
  simp only [responseContext, freshContext, RenderContext.ofSender, RenderContext.withParam,
    RenderContext.withOperand, RenderContext.withFlags, NameMap.ofList, List.foldl_cons,
    List.foldl_nil, isBlankText_rest, target_eq_addressee, decide_eq_true_eq]

/-! ## Performances -/

/-- The responses up to the first that ends the run, which is the last one. -/
def upToFirst (ends : CustomResponse → Bool) (rs : List CustomResponse) : List CustomResponse :=
  rs.takeWhile (fun r => !ends r) ++ (rs.find? ends).toList

/-- The responses up to the first that ends the run, one response at a time. -/
theorem upToFirst_cons (ends : CustomResponse → Bool) (r : CustomResponse)
    (rs : List CustomResponse) :
    upToFirst ends (r :: rs) = if ends r then [r] else r :: upToFirst ends rs := by
  unfold upToFirst
  cases h : ends r <;> simp [h]

/-- Whether the sender stands high enough for a response. -/
def isPermitted (owners : Owners) (directory : Directory) (sender : Sender) (r : CustomResponse) :
    Bool :=
  Owners.permits (owners.seen directory sender sender.id) r.permission

/-- The responses that are performed. -/
def performed (permitted : CustomResponse → Bool) (rs : List CustomResponse) :
    List CustomResponse :=
  (upToFirst (fun r => permitted r && r.stopIfExecuted) rs).filter permitted

section Performed

variable {permitted : CustomResponse → Bool} {r : CustomResponse}

/-- A response that is not permitted is passed over. -/
theorem performed_cons_of_not (h : permitted r = false) (rs : List CustomResponse) :
    performed permitted (r :: rs) = performed permitted rs := by
  simp [performed, upToFirst_cons, h]

/-- A permitted response is performed, and it is the last one if it ends the run. -/
theorem performed_cons (h : permitted r = true) (rs : List CustomResponse) :
    performed permitted (r :: rs) =
      r :: if r.stopIfExecuted then [] else performed permitted rs := by
  cases hstop : r.stopIfExecuted <;> simp [performed, upToFirst_cons, h, hstop]

end Performed

/-- A response that is rendered, and the state which that finds. -/
structure Performance (ε : Type) where
  response : CustomResponse
  before : World ε

/-- What is sent for a rendering: its text as a reply, unless that is blank, and a message for each
notice of a change. -/
def sentFor (sender : Sender) (out : RenderOutput) : List OutboundMessage :=
  (if Text.isBlankText out.text then [] else [{ text := out.text, sender }]) ++
    out.notifications.map fun n => {
      text := n.text
      sender
      attrs := NameMap.ofList [("kind", "notification"), ("variable", n.variableName)] }

/-- The messages for a rendering are the reply and the notices. -/
theorem messages_eq_sentFor (i : Invocation) (out : RenderOutput) :
    messages i out = sentFor i.message.sender out := rfl

namespace Performance

variable (e : Engine) (c : RenderContext)

/-- The response rendered in a context: what that gives, and the stage that it leaves. -/
def rendered (p : Performance ε) : RenderOutput × Stage ε :=
  Stage.play { context := c, world := p.before } (renderText e p.response.text)

/-- What is sent for a performance. -/
def sent (p : Performance ε) : List OutboundMessage :=
  sentFor c.sender (p.rendered e c).1

end Performance

/-- The state without what checks of permissions may change. -/
def unasked (w : World ε) : World ε :=
  { w with lookups := 0, caches := [] }

/-- From one state to another by these performances, each in the state that the one before it has
left; in between, only permissions are checked. -/
def Linked (e : Engine) (c : RenderContext) (w : World ε) :
    List (Performance ε) → World ε → Prop
  | [], w' => unasked w' = unasked w
  | p :: ps, w' => unasked p.before = unasked w ∧ Linked e c (p.rendered e c).2.world ps w'

/-- A chain of performances may start from any state that differs in the checks of permissions
alone. -/
theorem Linked.congr {e : Engine} {c : RenderContext} {w v w' : World ε}
    {ps : List (Performance ε)} (h : Linked e c v ps w') (hsame : unasked v = unasked w) :
    Linked e c w ps w' := by
  cases ps with
  | nil => exact Eq.trans h hsame
  | cons p ps => exact ⟨h.1.trans hsame, h.2⟩

section Respond

variable {e : Engine} {owners : Owners} {directory : Directory} {i : Invocation} {rest : String}
  {w : World ε}

/-- Rendering a response sends what its performance sends, and leaves the state that the rendering
leaves. -/
theorem run_renderResponse (r : CustomResponse) (w : World ε) :
    (renderResponse e i rest r).run w =
      (Performance.sent e (responseContext i rest) ⟨r, w⟩,
        (Performance.rendered e (responseContext i rest) ⟨r, w⟩).2.world) := by
  have hsender : (responseContext i rest).sender = i.message.sender := rfl
  simp only [renderResponse, bind_eq, run_bind, pure_eq_done, run_done, messages_eq_sentFor,
    Performance.sent, Performance.rendered, Stage.play, hsender]

/-- The run after the permission for its first response has been checked. -/
theorem run_respond_cons (r : CustomResponse) (rs : List CustomResponse) (w : World ε) :
    (respond e owners i rest (r :: rs)).run w =
      let checked := (checkPermission owners i.cache i.message.sender.id r.permission).run w
      let p : Performance ε := ⟨r, checked.2⟩
      let own := p.sent e (responseContext i rest)
      let after := (p.rendered e (responseContext i rest)).2.world
      let others := (respond e owners i rest rs).run after
      if checked.1 then if r.stopIfExecuted then (own, after) else (own ++ others.1, others.2)
      else (respond e owners i rest rs).run checked.2 := by
  rw [respond, bind_eq, run_bind]
  dsimp only
  split
  · rw [bind_eq, run_bind, run_renderResponse]
    dsimp only
    split
    · rw [pure_eq_done, run_done]
    · rw [bind_eq, run_bind, pure_eq_done, run_done]
  · rfl

/-- Responses in order come to the performances of those that are performed. -/
theorem run_respond (e : Engine) (rest : String)
    (trusts : w.Trusts owners directory i.message.sender i.cache)
    (rs : List CustomResponse) :
    ∃ ps : List (Performance ε),
      ps.map (·.response) = performed (isPermitted owners directory i.message.sender) rs ∧
      Linked e (responseContext i rest) w ps ((respond e owners i rest rs).run w).2 ∧
      ((respond e owners i rest rs).run w).1 =
        ps.flatMap (Performance.sent e (responseContext i rest)) := by
  induction rs generalizing w with
  | nil => exact ⟨[], rfl, rfl, rfl⟩
  | cons r rs ih =>
    obtain ⟨hanswer, hchecked⟩ := trusts.check i.message.sender.id r.permission
    have hunasked := (keeps_checkPermission_of (f := unasked) (fun _ => rfl) (fun _ _ => rfl)
      owners i.cache i.message.sender.id r.permission).run w
    rw [run_respond_cons]
    generalize (checkPermission owners i.cache i.message.sender.id r.permission).run w = checked
      at hanswer hchecked hunasked
    obtain ⟨allowed, v⟩ := checked
    obtain rfl : allowed = isPermitted owners directory i.message.sender r := hanswer
    dsimp only at hchecked hunasked ⊢
    cases hpermitted : isPermitted owners directory i.message.sender r with
    | false =>
      obtain ⟨ps, hresponses, hlinked, hsent⟩ := ih hchecked
      rw [performed_cons_of_not hpermitted]
      exact ⟨ps, hresponses, hlinked.congr hunasked, hsent⟩
    | true =>
      let p : Performance ε := ⟨r, v⟩
      have hafter : (p.rendered e (responseContext i rest)).2.world.Trusts owners directory
          i.message.sender i.cache :=
        hchecked.of_standings (standings_renderText e r.text _)
      rw [performed_cons hpermitted]
      simp only [if_true]
      cases r.stopIfExecuted with
      | true =>
        simp only [if_true]
        exact ⟨[p], rfl, ⟨hunasked, rfl⟩, (List.flatMap_singleton _ p).symm⟩
      | false =>
        obtain ⟨ps, hresponses, hlinked, hsent⟩ := ih hafter
        simp only [Bool.false_eq_true, if_false]
        refine ⟨p :: ps, congrArg (r :: ·) hresponses, ⟨hunasked, hlinked⟩, ?_⟩
        rw [List.flatMap_cons, ← hsent]

end Respond

/-- **What the handler of custom commands answers.** Let the book of commands be made by its
operations, and let the permission cache of an invocation be that of its sender. Then the line is
allowed, and nothing is registered to be undone. If no enabled command begins the line, there are no
messages and nothing changes. Otherwise the longest such command answers. If it has no responses,
the notice of that is the only message. If it has some, those that the sender is permitted to have
are performed in order, up to the first that ends the run: each is rendered once, in a context made
afresh from the line and in the state that the one before it has left, and what is sent is what they
come to, one after the other. -/
theorem play_responder (e : Engine) (owners : Owners) (t : Locale.Translator) {i : Invocation}
    {directory : Directory} {s : Scene ε} (made : s.world.commands.Made)
    (trusts : s.world.Trusts owners directory i.message.sender i.cache) :
    ∃ sent w', s.play (responder e owners t i) = (.allowed sent, { s with world := w' }) ∧
      (((∀ c, ¬ s.world.commands.Begins i.param c) ∧ sent = [] ∧ w' = s.world) ∨
        ∃ c, s.world.commands.Longest i.param c ∧
          ((c.responses = [] ∧ w' = s.world ∧
              sent = [i.reply (t.localize "customcmds.no-response" (NameMap.ofList [
                ("sender", .str i.message.sender.username), ("command", .str c.command)]))]) ∨
            (c.responses ≠ [] ∧ ∃ ps : List (Performance ε),
              let context := freshContext i (CommandBook.rest i.param c)
              ps.map (·.response) =
                performed (isPermitted owners directory i.message.sender) c.responses ∧
              Linked e context s.world ps w' ∧
              sent = ps.flatMap (Performance.sent e context)))) := by
  have hread : (read fun w : World ε => w.commands.find? i.param).run s.world =
      (s.world.commands.find? i.param, s.world) := run_read _ _
  unfold responder
  rw [Scene.play_bind, Scene.play_lift, hread]
  dsimp only
  rcases made.find?_cases i.param with ⟨hfind, hnone⟩ | ⟨c, hlongest, hfind⟩
  · rw [hfind]
    exact ⟨[], s.world, rfl, .inl ⟨hnone, rfl, rfl⟩⟩
  · rw [hfind]
    dsimp only
    cases hresponses : c.responses with
    | nil => exact ⟨_, s.world, rfl, .inr ⟨c, hlongest, .inl ⟨hresponses, rfl, rfl⟩⟩⟩
    | cons r rs =>
      obtain ⟨ps, hperformed, hlinked, hsent⟩ := run_respond e
        (CommandBook.rest i.param c) trusts (r :: rs)
      rw [responseContext_rest] at hlinked hsent
      rw [List.isEmpty_cons, if_neg Bool.false_ne_true, Scene.play_bind, Scene.play_lift, hsent]
      refine ⟨_, _, rfl, .inr ⟨c, hlongest, .inr ⟨?_, ps, ?_, hlinked, rfl⟩⟩⟩
      · exact hresponses ▸ List.cons_ne_nil r rs
      · exact hresponses ▸ hperformed

namespace Counting

def alice : Sender := ⟨"1", "alice"⟩

/-- Two responses for everybody, with one for moderators before and another one behind. -/
def responses : List CustomResponse := [
  { text := "reset", permission := .moderator, stopIfExecuted := true },
  { text := "$touser: $_count" },
  { text := "$param $_count", stopIfExecuted := true },
  { text := "late" }]

def book : CommandBook :=
  ⟨(∅ : NameMap CustomCommand).insert "!count" { command := "!count", responses }⟩

def scene : Scene Unit where
  world := World.opened {
    commands := book
    store := {
      table := ⟨NameMap.ofList [("$_count", { name := "$_count", kind := .number, value := "0" })]⟩
      announcement := "counted" }
    extra := () } {} alice

def invocation : Invocation where
  message := { sender := alice, text := "!Count  +" }
  capabilities := .viewer alice
  command := ""
  param := "!Count +"
  cache := 0

def played : Verdict × Scene Unit :=
  scene.play (responder {} {} Locale.english invocation)

/-- The book of the fixture has been made by creating its command. -/
theorem book_made : book.Made := by
  have hname : normalForm "!count" = "!count" := by decide +kernel
  exact .create .empty (CommandBook.create_eq_ok hname (by decide +kernel)
    Std.ExtTreeMap.getElem?_empty)

/-- The only command of the fixture. -/
theorem eq_of_kept {c : CustomCommand} (h : book.commands[c.command]? = some c) :
    c = { command := "!count", responses } := by
  rw [book, Std.ExtTreeMap.getElem?_insert] at h
  split at h
  · exact (Option.some_inj.1 h).symm
  · simp at h

/-- The second response shows what the first one has written. -/
theorem counted_twice :
    book.Made ∧ scene.world.Trusts {} {} alice 0 ∧
      ∃ ps : List (Performance Unit),
        ps.map (·.response.text) = ["$touser: $_count", "$param $_count"] ∧
        Linked {} (freshContext invocation "+") scene.world ps played.2.world ∧
        played.1 = .allowed (ps.flatMap (Performance.sent {} (freshContext invocation "+"))) ∧
        (ps.flatMap (Performance.sent {} (freshContext invocation "+"))).map (·.text) =
          ["+: 0", "counted", "+ 1", "counted"] := by
  have htrusts : scene.world.Trusts {} {} alice 0 := Consulted.opened.trusts
  have htexts : (match played.1 with
      | .allowed sent => sent.map (·.text)
      | _ => []) = ["+: 0", "counted", "+ 1", "counted"] := by decide +kernel
  obtain ⟨sent, w', hplayed, hcases⟩ := play_responder {} {} Locale.english (i := invocation)
    book_made htrusts
  rw [played, hplayed] at htexts
  replace htexts : sent.map (·.text) = ["+: 0", "counted", "+ 1", "counted"] := htexts
  rcases hcases with ⟨-, rfl, -⟩ | ⟨c, hlongest, ⟨hnone, -⟩ | ⟨-, ps, hps, hlinked, hsent⟩⟩
  · cases htexts
  · rw [eq_of_kept hlongest.kept] at hnone
    cases hnone
  · obtain rfl := eq_of_kept hlongest.kept
    have hrest : CommandBook.rest invocation.param { command := "!count", responses } = "+" := by
      decide +kernel
    rw [hrest] at hlinked hsent
    refine ⟨book_made, htrusts, ps, ?_, ?_, ?_, hsent ▸ htexts⟩
    · have htexts := congrArg (List.map CustomResponse.text) hps
      rw [List.map_map] at htexts
      exact htexts.trans (by decide +kernel)
    · rw [played, hplayed]
      exact hlinked
    · rw [played, hplayed, hsent]

end Counting

end Commands

end ChatBot
