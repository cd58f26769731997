import ChatBot.Console
import ChatBot.Proofs.Commands.Matchers
import ChatBot.Proofs.NameMap
import ChatBot.Proofs.Traces

/-!
# What the bot on a console says

The bot has one priced command. A line that begins with it costs ten points and is answered by a
text that the sender hugs somebody (`gives_hug`), or refused with a text about points
(`notEnough_eq`); every other line is answered otherwise or not at all. The three kinds of texts
are told apart by how they end.
-/

set_option autoImplicit false

namespace ChatBot.Console

open ChatBot.Template Stepwise

/-- What serving goes by and works on. -/
def counter (w : World Unit) :=
  (w.moderation, w.prices, w.commands, w.caches, w.directory, w.ledger.balances, w.delivered)

/-! ## Prices and commands -/

/-- The words of a line begin with the hug command, in any case. -/
def asksForHug (line : String) : Bool :=
  (lowerWords line).head? = some "!hug"

/-- A line asks for a hug if it starts with the command, in any case. -/
theorem asksForHug_iff (line : String) :
    asksForHug line = true ↔ lowerWords "!hug" <+: lowerWords line := by
  have hwords : lowerWords "!hug" = ["!hug"] := rfl
  rw [asksForHug, decide_eq_true_eq, hwords]
  cases lowerWords line with
  | nil => simp
  | cons w ws => simp [eq_comm]

/-- Whether a line asks for a hug depends on its words alone. -/
theorem asksForHug_spaced_words (line : String) :
    asksForHug (spaced (Text.words line)) = asksForHug line := by
  rw [asksForHug, asksForHug, lowerWords_spaced_words]

/-- The one price of the console. -/
theorem getElem?_prices (name : String) :
    Console.prices.prices[name]? = if "!hug" = name then some 10 else none := by
  have hprices : Console.prices.prices = (∅ : NameMap Int64).insert "!hug" 10 := rfl
  rw [hprices, Std.ExtTreeMap.getElem?_insert]
  simp

/-- Hugs have a price, and nothing else has. -/
theorem match?_prices (line : String) :
    Console.prices.match? line = if asksForHug line then some ("!hug", 10) else none := by
  have made : Console.prices.Made := .set "!hug" 10 .empty
  have priced : Console.prices.Prices ["!hug"] := by
    intro text
    rw [PriceTable.priceOf, getElem?_prices]
    simp [show normalForm "!hug" = "!hug" from rfl]
  cases hasks : asksForHug line with
  | true =>
    have hlongest : LongestOf ["!hug"] line "!hug" :=
      ⟨List.mem_singleton_self _, (asksForHug_iff line).1 hasks, by simp⟩
    obtain ⟨amount, hamount, -, hmatch⟩ :=
      PriceTable.match?_of_longestOf made (by decide) priced hlongest
    obtain rfl : (10 : Int64) = amount := Option.some_inj.1 hamount
    exact hmatch
  | false =>
    refine PriceTable.match?_of_none made priced fun text htext hbegins => ?_
    obtain rfl := List.mem_singleton.1 htext
    rw [(asksForHug_iff line).2 hbegins] at hasks
    cases hasks

/-- The hug command. -/
def hug : CustomCommand where
  command := "!hug"
  responses := [{ text := "$sender hugs $touser (random.number-1-to-100)% hard!" }]

/-- The other command. -/
def points : CustomCommand where
  command := "!points"
  responses := [{ text := "$sender, try !hug for 10 points" }]

/-- The commands of the console. -/
theorem commands_book :
    book.commands = ((∅ : NameMap CustomCommand).insert "!hug" hug).insert "!points" points := rfl

/-- The book of the console has been made by creating its commands. -/
theorem made_book : book.Made := by
  have hhug : ({} : CommandBook).create "!hug" hug.responses =
      .ok (hug, ⟨(∅ : NameMap CustomCommand).insert "!hug" hug⟩) :=
    CommandBook.create_eq_ok rfl (by decide) rfl
  have hpoints : CommandBook.create ⟨(∅ : NameMap CustomCommand).insert "!hug" hug⟩ "!points"
      points.responses = .ok (points, book) :=
    CommandBook.create_eq_ok rfl (by decide) rfl
  exact .create (.create .empty hhug) hpoints

/-- The two commands of the console, by their names. -/
theorem getElem?_book (name : String) :
    book.commands[name]? =
      if "!points" = name then some points else if "!hug" = name then some hug else none := by
  rw [commands_book, Std.ExtTreeMap.getElem?_insert, Std.ExtTreeMap.getElem?_insert]
  simp

/-- Both commands of the console are enabled. -/
theorem enables_book : book.Enables ["!hug", "!points"] := by
  intro text
  rw [CommandBook.get?, getElem?_book]
  simp only [List.mem_cons, List.not_mem_nil, or_false, exists_eq_or_imp, exists_eq_left,
    show normalForm "!hug" = "!hug" from rfl, show normalForm "!points" = "!points" from rfl]
  split
  · next h => simp [← h, points]
  · split
    · next h => simp [← h, hug]
    · next h h' => simp [h, h']

/-- A line that asks for a hug is answered by the hug command. -/
theorem find?_book_of_asks {line : String} (hasks : asksForHug line = true) :
    ∃ param, book.find? line = some (hug, param) := by
  have hlength : ∀ other ∈ ["!hug", "!points"], (lowerWords other).length ≤ 1 := by decide
  have hlongest : LongestOf ["!hug", "!points"] line "!hug" :=
    ⟨List.mem_cons_self, (asksForHug_iff line).1 hasks, fun other hother _ => hlength other hother⟩
  obtain ⟨c, hc, -, hfind⟩ :=
    CommandBook.find?_of_longestOf made_book (by decide) enables_book hlongest
  obtain rfl := Option.some_inj.1 hc
  exact ⟨_, hfind⟩

/-- Any other line is answered by the other command, or not at all. -/
theorem find?_book_of_not {line : String} (hasks : asksForHug line = false) :
    book.find? line = none ∨ ∃ param, book.find? line = some (points, param) := by
  rcases longestOf_or_none ["!hug", "!points"] line with hnone | ⟨text, hlongest⟩
  · exact .inl (CommandBook.find?_of_none made_book enables_book hnone)
  · obtain ⟨c, hc, -, hfind⟩ :=
      CommandBook.find?_of_longestOf made_book (by decide) enables_book hlongest
    have htext := hlongest.mem
    simp only [List.mem_cons, List.not_mem_nil, or_false] at htext
    rcases htext with rfl | rfl
    · rw [(asksForHug_iff line).2 hlongest.begins] at hasks
      cases hasks
    · obtain rfl := Option.some_inj.1 hc
      exact .inr ⟨_, hfind⟩

/-! ## Rendering the answers -/

/-- A rendering in this context leaves the context and what serving works on as they are, and gives
what has the property. -/
def Gives {α : Type} (c : RenderContext) (p : Render Unit α) (Q : α → Prop) : Prop :=
  (p.run c).Keeps counter ∧ (p.run c).Yields fun r => Q r.1 ∧ r.2 = c

section Gives

variable {α β : Type} {c : RenderContext} {Q : α → Prop} {e : Engine}

/-- A text that is there gives what is so of it. -/
theorem gives_pure {a : α} (h : Q a) : Gives c (pure a) Q :=
  ⟨trivial, h, rfl⟩

/-- Reading the context gives the context. -/
theorem gives_get {Q : RenderContext → Prop} (h : Q c) : Gives c get Q :=
  ⟨trivial, h, rfl⟩

/-- What a rendering gives in two parts, each from the same context. -/
theorem gives_bind {Q' : β → Prop} {p : Render Unit α} {k : α → Render Unit β} (hp : Gives c p Q)
    (hk : ∀ a, Q a → Gives c (k a) Q') : Gives c (p >>= k) Q' := by
  obtain ⟨hkeeps, hyields⟩ := hp
  have hnext (r : α × RenderContext) (hr : Q r.1 ∧ r.2 = c) : Gives c (k r.1) Q' ∧ r.2 = c :=
    ⟨hk r.1 hr.1, hr.2⟩
  unfold Gives
  rw [StateT.run_bind]
  refine ⟨?_, yields_bind hyields fun r hr => ?_⟩
  · refine Each.keeps (each_bind hkeeps.each hyields fun r hr => ?_)
    rw [hr.2]
    exact (hnext r hr).1.1.each
  · rw [hr.2]
    exact (hnext r hr).1.2

/-- A program that leaves what serving works on can be done on the way, whatever it gives. -/
theorem gives_lift {p : Activity Unit α} (h : p.Keeps counter) :
    Gives c (StateT.lift p) fun _ => True := by
  unfold Gives
  rw [StateT.run_lift]
  exact ⟨keeps_bind h fun _ => keeps_done _,
    yields_bind (yields_true p) fun _ _ => ⟨trivial, rfl⟩⟩

/-- Literal text gives itself. -/
theorem gives_literal (depth : Nat) (text : String) :
    Gives c (renderNode e depth (.literal text)) (· = text) := by
  rw [renderNode]
  exact gives_pure rfl

/-- A reference to a parameter gives its value. -/
theorem gives_param {name value : String} (h : c.params[name]? = some value) (depth : Nat)
    (silent : Bool) (source : String) :
    Gives c (renderNode e depth (.reference name silent false source)) (· = value) := by
  rw [renderNode, if_neg (by decide), renderParam]
  refine gives_bind (gives_get (Q := (· = c)) rfl) fun c' hc' => ?_
  obtain rfl := hc'
  exact gives_pure (by rw [h, Option.getD_some])

/-- No nodes give no text. -/
theorem gives_nodes_nil (depth : Nat) : Gives c (renderNodes e depth []) (· = "") := by
  rw [renderNodes]
  exact gives_pure rfl

/-- Nodes give the text of the first one and then that of the others. -/
theorem gives_nodes_cons {depth : Nat} {n : Node} {rest : List Node} {text more : String → Prop}
    {Q : String → Prop} (hn : Gives c (renderNode e depth n) text)
    (hrest : Gives c (renderNodes e depth rest) more) (h : ∀ s t, text s → more t → Q (s ++ t)) :
    Gives c (renderNodes e depth (n :: rest)) Q := by
  rw [renderNodes]
  exact gives_bind hn fun s hs => gives_bind hrest fun t ht => gives_pure (h s t hs ht)

/-- The filter of the hug command draws a number, or stands too deep and is left as it is. -/
theorem gives_random (he : e.filters = {}) (source : String) :
    Gives c (renderNode e 0 (.filter [[.literal "random.number-1-to-100"]] source))
      fun _ => True := by
  have hkind : e.filters.classify ("random.number-1-to-100" ++ "") =
      .randomNumber 1 100 (by omega) := by
    rw [he]
    rfl
  have hcount (k : Counter) : (World.count (ε := Unit) k).Keeps counter :=
    keeps_change fun _ => rfl
  rw [renderNode]
  split
  · exact gives_pure trivial
  · simp only [renderSegments]
    rw [if_neg (by decide)]
    refine gives_bind (Q := (· = "random.number-1-to-100" ++ "")) ?_ fun name hname => ?_
    · exact gives_nodes_cons (gives_literal _ _) (gives_nodes_nil _) fun s t hs ht => by rw [hs, ht]
    · subst hname
      refine gives_bind (gives_pure (Q := (· = [])) rfl) fun args hargs => ?_
      subst hargs
      unfold evaluateNamed
      rw [hkind]
      refine gives_bind (gives_lift (hcount _)) fun _ _ => ?_
      refine gives_bind (gives_lift ?_) fun n _ => gives_pure trivial
      exact keeps_bind (keeps_act fun _ => rfl) fun _ => keeps_done _

/-- A rendering from a context without notices has none to give. -/
theorem gives_render {nodes : List Node} {Q : String → Prop} (hc : c.notifications = [])
    (h : Gives c (renderNodes e 0 nodes) Q) :
    Gives c (render e nodes) fun out => Q out.text ∧ out.notifications = [] := by
  unfold render
  refine gives_bind h fun text htext => ?_
  refine gives_bind (gives_lift (keeps_change fun _ => rfl)) fun _ _ => ?_
  refine gives_bind (gives_get (Q := (· = c)) rfl) fun c' hc' => ?_
  obtain rfl := hc'
  refine gives_bind (Q := fun _ => True) ?_ fun _ _ => gives_pure ⟨htext, hc⟩
  -- the notices are dropped, of which there are none
  refine ⟨trivial, trivial, ?_⟩
  exact congrArg (fun n => { c' with notifications := n }) hc.symm

end Gives

section Answers

variable {e : Engine} {i : Invocation} {param : String}

/-- In the context of a response the sender is known by name. -/
theorem params_sender :
    (Commands.responseContext i param).params["sender"]? = some i.message.sender.username := by
  show (((NameMap.ofList _).insert "param" _).insert "touser" _)["sender"]? = _
  simp only [NameMap.ofList, List.foldl_cons, List.foldl_nil, Std.ExtTreeMap.getElem?_insert]
  rfl

/-- In the context of a response the target is known by name. -/
theorem params_touser : (Commands.responseContext i param).params["touser"]? =
    some (Commands.target i.message.sender param) :=
  Std.ExtTreeMap.getElem?_insert_self

/-- Whatever comes before a text that ends in some way, together they end in this way. -/
theorem gives_nodes_before {c : RenderContext} {depth : Nat} {n : Node} {rest : List Node}
    {text : String → Prop} {ending : String} (hn : Gives c (renderNode e depth n) text)
    (hrest : Gives c (renderNodes e depth rest) fun t => ∃ before, t = before ++ ending) :
    Gives c (renderNodes e depth (n :: rest)) fun t => ∃ before, t = before ++ ending := by
  refine gives_nodes_cons hn hrest ?_
  rintro s _ - ⟨before, rfl⟩
  exact ⟨s ++ before, (String.append_assoc ..).symm⟩

/-- The template of a hug gives the text of a hug and no notice, whatever is drawn. -/
theorem gives_hug (he : e.filters = {}) :
    Gives (Commands.responseContext i param)
      (renderText e "$sender hugs $touser (random.number-1-to-100)% hard!") fun out =>
        (∃ middle, out.text = i.message.sender.username ++ " hugs " ++ (middle ++ "% hard!")) ∧
          out.notifications = [] := by
  have hparse : parse "$sender hugs $touser (random.number-1-to-100)% hard!" = [
      .reference "sender" false false "$sender", .literal " hugs ",
      .reference "touser" false false "$touser", .literal " ",
      .filter [[.literal "random.number-1-to-100"]] "(random.number-1-to-100)",
      .literal "% hard!"] := rfl
  have hending : Gives (Commands.responseContext i param) (renderNodes e 0 [.literal "% hard!"])
      fun t => ∃ before, t = before ++ "% hard!" := by
    refine gives_nodes_cons (gives_literal 0 "% hard!") (gives_nodes_nil 0) ?_
    rintro _ _ rfl rfl
    exact ⟨"", rfl⟩
  have hafter := gives_nodes_before (gives_param params_touser 0 false "$touser")
    (gives_nodes_before (gives_literal 0 " ")
      (gives_nodes_before (gives_random he "(random.number-1-to-100)") hending))
  have hmiddle : Gives (Commands.responseContext i param) (renderNodes e 0 [.literal " hugs ",
      .reference "touser" false false "$touser", .literal " ",
      .filter [[.literal "random.number-1-to-100"]] "(random.number-1-to-100)",
      .literal "% hard!"]) fun t => ∃ middle, t = " hugs " ++ (middle ++ "% hard!") := by
    refine gives_nodes_cons (gives_literal 0 " hugs ") hafter ?_
    rintro _ _ rfl ⟨middle, rfl⟩
    exact ⟨middle, rfl⟩
  unfold renderText
  rw [hparse]
  refine gives_render (Q := fun t =>
    ∃ middle, t = i.message.sender.username ++ " hugs " ++ (middle ++ "% hard!")) rfl ?_
  refine gives_nodes_cons (gives_param params_sender 0 false "$sender") hmiddle ?_
  rintro _ _ rfl ⟨middle, rfl⟩
  exact ⟨middle, (String.append_assoc ..).symm⟩

/-- The template about points gives its text and no notice. -/
theorem gives_points :
    Gives (Commands.responseContext i param) (renderText e "$sender, try !hug for 10 points")
      fun out => out.text = i.message.sender.username ++ ", try !hug for 10 points" ∧
        out.notifications = [] := by
  have hparse : parse "$sender, try !hug for 10 points" = [
      .reference "sender" false false "$sender", .literal ", try !hug for 10 points"] := rfl
  unfold renderText
  rw [hparse]
  refine gives_render
    (Q := (· = i.message.sender.username ++ ", try !hug for 10 points")) rfl ?_
  refine gives_nodes_cons (gives_param params_sender 0 false "$sender") (gives_nodes_cons
    (gives_literal 0 _) (gives_nodes_nil 0) (Q := (· = ", try !hug for 10 points")) ?_) ?_
  · rintro _ _ rfl rfl
    rfl
  · rintro _ _ rfl rfl
    rfl

end Answers

/-! ## Telling texts apart -/

/-- A message that is printed as the reply of the hug command. -/
def isHug (r : OutboundMessage) : Bool :=
  (r.sender.username ++ " hugs ").toList.isPrefixOf (printed r).toList &&
    "% hard!".toList.isSuffixOf (printed r).toList

/-- A message that is printed as the refusal of a hug. -/
def isRefusal (r : OutboundMessage) : Bool :=
  printed r = "Sorry, " ++ r.sender.username ++ ", but you don't have 10 points to use !hug"

/-- A reply is printed as its text. -/
theorem printed_reply (i : Invocation) (text : String) : printed (i.reply text) = text := by
  have hkind : (i.reply text).attrs["kind"]? = none := Std.ExtTreeMap.getElem?_empty
  rw [printed, hkind]
  rfl

/-- The last character of a text that ends in another one. -/
theorem getLast?_append {front back : String} {c : Char} (h : back.toList.getLast? = some c) :
    (front ++ back).toList.getLast? = some c := by
  rw [String.toList_append, List.getLast?_append, h]
  rfl

/-- What the template of a hug gives is told as a hug. -/
theorem isHug_reply {i : Invocation} {middle : String} :
    isHug (i.reply (i.message.sender.username ++ " hugs " ++ (middle ++ "% hard!"))) = true := by
  let front := i.message.sender.username ++ " hugs "
  have hchars : (front ++ (middle ++ "% hard!")).toList =
      front.toList ++ (middle.toList ++ "% hard!".toList) := by
    rw [String.toList_append, String.toList_append (s := middle)]
  rw [isHug, printed_reply, Bool.and_eq_true, List.isPrefixOf_iff_prefix,
    List.isSuffixOf_iff_suffix, hchars]
  refine ⟨List.prefix_append _ _, ?_⟩
  rw [← List.append_assoc]
  exact List.suffix_append _ _

/-- Hugs end with an exclamation mark. -/
theorem isHug_eq_false {r : OutboundMessage} {c : Char}
    (h : (printed r).toList.getLast? = some c) (hc : c ≠ '!') : isHug r = false := by
  refine Bool.eq_false_iff.2 fun hhug => hc ?_
  obtain ⟨front, hfront⟩ := List.isSuffixOf_iff_suffix.1 (Bool.and_eq_true _ _ ▸ hhug).2
  rw [← hfront, List.getLast?_append] at h
  exact (Option.some_inj.1 h).symm

/-- Refusals end with the command. -/
theorem isRefusal_eq_false {r : OutboundMessage} {c : Char}
    (h : (printed r).toList.getLast? = some c) (hc : c ≠ 'g') : isRefusal r = false := by
  refine Bool.eq_false_iff.2 fun hrefusal => hc ?_
  rw [of_decide_eq_true hrefusal] at h
  rw [getLast?_append (c := 'g') rfl] at h
  exact (Option.some_inj.1 h).symm

/-- The English wording of a refusal. -/
theorem getElem?_english : Locale.english.entries[Locale.notEnoughPoints]? = some
    ("Sorry, " ++ Locale.place "sender" ++ ", but you don't have " ++ Locale.place "amount" ++
      " points to use " ++ Locale.place "command") := by
  rfl

/-- The values for the places, in the order in which these are filled. -/
theorem toList_params (username : String) :
    (NameMap.ofList [("sender", .str username), ("amount", .int (10 : Int64).toInt),
      ("command", .str "!hug")] : NameMap Json).toList =
      [("amount", .int 10), ("command", .str "!hug"), ("sender", .str username)] := by
  have hten : (10 : Int64).toInt = 10 := by decide
  have hamount : compare "amount" "command" = .lt ∧ compare "amount" "sender" = .lt := by decide
  have hcommand : compare "command" "sender" = .lt := by decide
  rw [hten]
  refine NameMap.toList_ofList (by simp) (by simp [hamount, hcommand]) fun e => ?_
  rw [List.mem_cons, List.mem_cons, List.mem_cons, List.mem_cons, List.mem_cons, List.mem_cons]
  tauto

/-- What a sender is told who cannot pay. -/
theorem notEnough_eq (i : Invocation) :
    Points.notEnough Locale.english i "!hug" 10 = i.reply ("Sorry, " ++
      i.message.sender.username ++ ", but you don't have 10 points to use !hug") := by
  let username := i.message.sender.username
  -- the name is filled in last, so nothing is looked for in it
  have hfilled : Text.replaceFrom "\x7b\x7bsender\x7d\x7d".toList username.toList 0
      "Sorry, \x7b\x7bsender\x7d\x7d, but you don't have 10 points to use !hug".toList =
      "Sorry, ".toList ++ (username.toList ++
        ", but you don't have 10 points to use !hug".toList) := rfl
  refine congrArg i.reply ?_
  unfold Locale.Translator.localize
  rw [getElem?_english]
  show Locale.fillPlaces _ _ = _
  unfold Locale.fillPlaces
  rw [toList_params]
  show Text.replaceAll "Sorry, \x7b\x7bsender\x7d\x7d, but you don't have 10 points to use !hug"
    "\x7b\x7bsender\x7d\x7d" username = _
  rw [Text.replaceAll, if_neg (by decide), hfilled, String.ofList_append, String.ofList_append,
    String.ofList_toList, String.ofList_toList, String.ofList_toList, String.append_assoc]

/-! ## The messages of the commands -/

section Messages

variable {e : Engine} {i : Invocation} {param : String}

/-- A text that has something in it besides blanks is sent as a reply. -/
theorem messages_eq {out : RenderOutput} {front middle back : String} {c : Char}
    (htext : out.text = front ++ middle ++ back) (hmem : c ∈ middle.toList)
    (hc : Text.isBlank c = false) (hnotices : out.notifications = []) :
    Commands.messages i out = [i.reply out.text] := by
  have hblank : Text.isBlankText out.text = false := by
    rw [Text.isBlankText, htext, List.all_eq_false]
    refine ⟨c, ?_, by simp [hc]⟩
    simp [hmem]
  rw [Commands.messages, hblank, hnotices]
  rfl

/-- What holds of the messages that a rendering gives holds of what a response comes to. -/
theorem renderResponse_of_gives {r : CustomResponse} {Q : RenderOutput → Prop}
    {M : List OutboundMessage → Prop}
    (h : Gives (Commands.responseContext i param) (renderText e r.text) Q)
    (hQ : ∀ out, Q out → M (Commands.messages i out)) :
    (Commands.renderResponse (ε := Unit) e i param r).Keeps counter ∧
      (Commands.renderResponse (ε := Unit) e i param r).Yields M :=
  ⟨keeps_bind h.1 fun _ => keeps_done _, yields_bind h.2 fun out hout => hQ out.1 hout.1⟩

/-- A message that is no reply to a hug. -/
def IsOther (r : OutboundMessage) : Prop :=
  isHug r = false ∧ isRefusal r = false

/-- The reply of the hug command. -/
structure IsHugOf (sender : Sender) (r : OutboundMessage) : Prop where
  sender_eq : r.sender = sender
  hug : isHug r = true
  refusal : isRefusal r = false

/-- The refusal of a hug. -/
structure IsRefusalOf (sender : Sender) (r : OutboundMessage) : Prop where
  sender_eq : r.sender = sender
  hug : isHug r = false
  refusal : isRefusal r = true

/-- The answer to a sender who is short of points is a refusal. -/
theorem isRefusalOf_notEnough :
    IsRefusalOf i.message.sender (Points.notEnough Locale.english i "!hug" 10) := by
  rw [notEnough_eq]
  refine ⟨rfl, ?_, ?_⟩
  · apply isHug_eq_false (c := 'g')
    · rw [printed_reply]
      exact getLast?_append rfl
    · decide
  · rw [isRefusal, printed_reply]
    exact decide_eq_true rfl

/-- The response to a wish leaves what serving works on, and is one hug. -/
theorem renderResponse_hug (he : e.filters = {}) {r : CustomResponse} (hr : r ∈ hug.responses) :
    (Commands.renderResponse (ε := Unit) e i param r).Keeps counter ∧
      (Commands.renderResponse (ε := Unit) e i param r).Yields fun rs =>
        ∃ reply, rs = [reply] ∧ IsHugOf i.message.sender reply := by
  obtain rfl := List.mem_singleton.1 hr
  refine renderResponse_of_gives (gives_hug he) ?_
  rintro out ⟨⟨middle, htext⟩, hnotices⟩
  have hmessages : Commands.messages i out = [i.reply out.text] :=
    messages_eq (c := 'h') htext (by decide) rfl hnotices
  have hlast : (printed (i.reply out.text)).toList.getLast? = some '!' := by
    rw [printed_reply, htext]
    exact getLast?_append (getLast?_append rfl)
  refine ⟨i.reply out.text, hmessages, rfl, ?_, isRefusal_eq_false hlast (by decide)⟩
  rw [htext]
  exact isHug_reply

/-- The response about points leaves what serving works on, and is neither a hug nor a refusal. -/
theorem renderResponse_points {r : CustomResponse} (hr : r ∈ points.responses) :
    (Commands.renderResponse (ε := Unit) e i param r).Keeps counter ∧
      (Commands.renderResponse (ε := Unit) e i param r).Yields fun rs => ∀ r ∈ rs, IsOther r := by
  obtain rfl := List.mem_singleton.1 hr
  refine renderResponse_of_gives gives_points ?_
  rintro out ⟨htext, hnotices⟩
  have hfront : out.text = i.message.sender.username ++ ", try !hug for 10 points" ++ "" := by
    rw [htext, String.append_empty]
  have hmessages : Commands.messages i out = [i.reply out.text] :=
    messages_eq (c := 't') hfront (by decide) rfl hnotices
  have hlast : (printed (i.reply out.text)).toList.getLast? = some 's' := by
    rw [printed_reply, htext]
    exact getLast?_append rfl
  rw [hmessages]
  intro r hr
  obtain rfl := List.mem_singleton.1 hr
  exact ⟨isHug_eq_false hlast (by decide), isRefusal_eq_false hlast (by decide)⟩

end Messages

end ChatBot.Console
