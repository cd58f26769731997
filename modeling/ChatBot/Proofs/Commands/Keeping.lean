import ChatBot.Proofs.Commands.Responding
import ChatBot.Proofs.NameMap
import ChatBot.Proofs.Template.Lookup
import Mathlib.Logic.Function.Basic

/-!
# The book of commands as a map

A call names its command by a text in any case and spacing, and only the normal form of the text
counts. It stands for an operation of the book (`perform`); a call that fails leaves the book as it
is (`keeping`).

The book keeps no more than a map from names to entries, and a call does to the book what it does to
the map: it is refused for what stands under its name, or it changes that and nothing else
(`Named.perform_entries`). Main statement: so it is after any calls on an empty book, and then the
names are normal forms of the grammar of command names, the listing has each once in order, and a
line is answered by the longest enabled command that it starts with (`kept_as_map`).
-/

set_option autoImplicit false

namespace ChatBot

open Text

/-! ## Names of commands -/

/-- A text and its normal form have the same words in lower case. -/
theorem lowerWords_normalForm (text : String) : lowerWords (normalForm text) = lowerWords text := by
  have hwords : words (normalForm text) = lowerWords text := words_spaced lowerWords_word
  rw [lowerWords, hwords, lowerWords, List.map_map]
  exact List.map_congr_left fun w _ => lower_lower w

/-- A name is its own normal form. -/
theorem normalForm_normalForm (text : String) : normalForm (normalForm text) = normalForm text := by
  rw [normalForm, lowerWords_normalForm, ← normalForm]

/-- The grammar of command names: words of letters, numbers, underscores and hyphens with single
spaces between them, and an optional exclamation mark in front. -/
def CommandName (name : String) : Prop :=
  ∃ mark : String, (mark = "" ∨ mark = "!") ∧ ∃ ws : List String, ws ≠ [] ∧
    (∀ w ∈ ws, w ≠ "" ∧ ∀ c ∈ w.toList, isCommandChar c = true) ∧ name = mark ++ spaced ws

/-- Whether some pieces are words of a command name. -/
def areCommandWords (pieces : List (List Char)) : Bool :=
  pieces.all fun word => !word.isEmpty && word.all isCommandChar

/-- The pieces between the blanks of a text are words of a command name just if the text is such
words, spaced out. -/
theorem areCommandWords_splitAt_iff {cs : List Char} :
    areCommandWords (splitAt ' ' cs) = true ↔ ∃ ws : List String, ws ≠ [] ∧
      (∀ w ∈ ws, w ≠ "" ∧ ∀ c ∈ w.toList, isCommandChar c = true) ∧ cs = (spaced ws).toList := by
  rw [splitAt_eq_splitOn]
  simp only [areCommandWords, List.all_eq_true, Bool.and_eq_true, Bool.not_eq_true',
    List.isEmpty_eq_false_iff]
  constructor
  · intro h
    refine ⟨(cs.splitOn ' ').map String.ofList, by simp, fun w hw => ?_, ?_⟩
    · obtain ⟨piece, hpiece, rfl⟩ := List.mem_map.1 hw
      rw [String.toList_ofList]
      exact ⟨by simpa using (h piece hpiece).1, (h piece hpiece).2⟩
    · rw [toList_spaced]
      simp [List.intercalate_splitOn]
  · rintro ⟨ws, hne, hwords, rfl⟩ piece hpiece
    -- no word holds a space, so they fall apart again
    rw [toList_spaced, List.splitOn_intercalate _ _ (by simpa using hne)] at hpiece
    · obtain ⟨w, hw, rfl⟩ := List.mem_map.1 hpiece
      exact ⟨by simpa using (hwords w hw).1, (hwords w hw).2⟩
    · rintro piece hpiece hspace
      obtain ⟨w, hw, rfl⟩ := List.mem_map.1 hpiece
      exact absurd ((hwords w hw).2 ' ' hspace) (by decide +kernel)

/-- Behind an exclamation mark, the words of a name are looked at. -/
theorem isCommandName_of_mark {name : String} {cs : List Char} (h : name.toList = '!' :: cs) :
    isCommandName name = areCommandWords (splitAt ' ' cs) := by
  unfold isCommandName
  rw [h]
  rfl

/-- Without an exclamation mark, the whole name is looked at. -/
theorem isCommandName_of_no_mark {name : String} (h : ∀ cs, name.toList ≠ '!' :: cs) :
    isCommandName name = areCommandWords (splitAt ' ' name.toList) := by
  unfold isCommandName
  dsimp only
  split
  · next cs hcs => exact absurd hcs (h cs)
  · rfl

/-- Words of a command name do not begin with the mark. -/
theorem spaced_ne_mark {ws : List String}
    (h : ∀ w ∈ ws, w ≠ "" ∧ ∀ c ∈ w.toList, isCommandChar c = true) (hne : ws ≠ [])
    (cs : List Char) : (spaced ws).toList ≠ '!' :: cs := by
  intro hcs
  have hwords := areCommandWords_splitAt_iff.2 ⟨ws, hne, h, rfl⟩
  have hnot : isCommandChar '!' = false := by decide +kernel
  rw [hcs, splitAt, if_neg (by decide)] at hwords
  split at hwords <;> simp [areCommandWords, hnot] at hwords

/-- The check of names accepts the names of the grammar and no others. -/
theorem isCommandName_iff {name : String} : isCommandName name = true ↔ CommandName name := by
  constructor
  · intro h
    by_cases hmark : ∃ cs, name.toList = '!' :: cs
    · obtain ⟨cs, hcs⟩ := hmark
      rw [isCommandName_of_mark hcs] at h
      obtain ⟨ws, hne, hwords, rfl⟩ := areCommandWords_splitAt_iff.1 h
      refine ⟨"!", .inr rfl, ws, hne, hwords, String.toList_inj.1 ?_⟩
      rw [hcs, String.toList_append]
      rfl
    · rw [isCommandName_of_no_mark (not_exists.1 hmark)] at h
      obtain ⟨ws, hne, hwords, hname⟩ := areCommandWords_splitAt_iff.1 h
      refine ⟨"", .inl rfl, ws, hne, hwords, ?_⟩
      rw [String.empty_append, String.toList_inj.1 hname]
  · rintro ⟨mark, hmark, ws, hne, hwords, rfl⟩
    have hsplit := areCommandWords_splitAt_iff.2 ⟨ws, hne, hwords, rfl⟩
    rcases hmark with rfl | rfl
    · rw [String.empty_append, isCommandName_of_no_mark (spaced_ne_mark hwords hne)]
      exact hsplit
    · rw [isCommandName_of_mark String.toList_append]
      exact hsplit

/-! ## Calls -/

namespace CommandBook

/-- What is kept of a command under its name. -/
structure Entry where
  enabled : Bool
  responses : List CustomResponse
  deriving DecidableEq

/-- The command that an entry under a name stands for. -/
def Entry.command (e : Entry) (name : String) : CustomCommand :=
  { command := name, enabled := e.enabled, responses := e.responses }

/-- What is asked for a command. -/
inductive Request where
  | create (responses : List CustomResponse)
  | delete
  | setEnabled (enabled : Bool)
  | addResponse (response : CustomResponse)
  | updateResponse (index : Nat) (response : CustomResponse)
  | removeResponse (index : Nat)

/-- A request for the command that a text names. -/
structure Call where
  text : String
  request : Request

/-- What a call gives back besides the book: a command that was created or removed, or a response
that was removed. -/
structure Reply where
  command : Option CustomCommand := none
  response : Option CustomResponse := none

/-- The operation of the book that a call stands for. -/
def perform (b : CommandBook) (call : Call) : Except CommandError (Reply × CommandBook) :=
  match call.request with
  | .create responses =>
    (b.create call.text responses).map fun (created, b') => ({ command := some created }, b')
  | .delete => (b.delete call.text).map fun (removed, b') => ({ command := some removed }, b')
  | .setEnabled enabled => (b.setEnabled call.text enabled).map ({}, ·)
  | .addResponse response => (b.addResponse call.text response).map ({}, ·)
  | .updateResponse index response => (b.updateResponse call.text index response).map ({}, ·)
  | .removeResponse index =>
    (b.removeResponse call.text index).map fun (removed, b') => ({ response := some removed }, b')

/-- What is kept after a call: a call that fails changes nothing. -/
def keeping {σ : Type} (perform : σ → Call → Except CommandError (Reply × σ)) (s : σ)
    (call : Call) : σ :=
  match perform s call with
  | .ok (_, s') => s'
  | .error _ => s

/-- The book after some calls on an empty one. -/
def after (calls : List Call) : CommandBook :=
  calls.foldl (keeping perform) {}

/-! ## Calls on a map -/

namespace Request

/-- The number of the response that a request is about. -/
def index? : Request → Option Nat
  | updateResponse index _ => some index
  | removeResponse index => some index
  | _ => none

/-- Why a request for a command is refused, if it is, when this entry stands under its name. -/
def error? (text : String) (entry : Option Entry) (request : Request) : Option CommandError :=
  match request, entry with
  | create _, _ =>
    if isCommandName (normalForm text) = false then some (.invalidCommand text)
    else entry.map fun _ => .alreadyExists (normalForm text)
  | _, none => some (.notFound (normalForm text))
  | _, some e =>
    match request.index? with
    | some index =>
      if index < e.responses.length then none
      else some (.responseIndex (normalForm text) index)
    | none => none

/-- The entry that a request leaves under the name of its command. -/
def result (entry : Option Entry) : Request → Option Entry
  | create responses => some { enabled := true, responses }
  | delete => none
  | setEnabled enabled => entry.map fun e => { e with enabled }
  | addResponse response => entry.map fun e => { e with responses := e.responses ++ [response] }
  | updateResponse index response => entry.map fun e =>
    { e with responses := e.responses.take index ++ response :: e.responses.drop (index + 1) }
  | removeResponse index => entry.map fun e =>
    { e with responses := e.responses.take index ++ e.responses.drop (index + 1) }

/-- What a request gives back. -/
def reply (name : String) (entry : Option Entry) : Request → Reply
  | create responses => { command := some (Entry.command { enabled := true, responses } name) }
  | delete => { command := entry.map (·.command name) }
  | removeResponse index => { response := entry.bind (·.responses[index]?) }
  | _ => {}

end Request

/-- The entries under all names. -/
abbrev Entries := String → Option Entry

namespace Entries

/-- A call on a map: it is refused for what stands under its name, or changes that alone. -/
def perform (m : Entries) (call : Call) : Except CommandError (Reply × Entries) :=
  let name := normalForm call.text
  match call.request.error? call.text (m name) with
  | some e => .error e
  | none =>
    .ok (call.request.reply name (m name),
      Function.update m name (call.request.result (m name)))

/-- The map after some calls on the empty one. -/
def after (calls : List Call) : Entries :=
  calls.foldl (keeping perform) fun _ => none

end Entries

/-- The map that a book keeps. -/
def entries (b : CommandBook) : Entries :=
  fun name => b.commands[name]?.map fun c => { enabled := c.enabled, responses := c.responses }

/-- What is kept under one name alone changes the map there alone. -/
theorem entries_of_getElem? {b b' : CommandBook} {name : String} {k : Option CustomCommand}
    (h : ∀ other, b'.commands[other]? = if name = other then k else b.commands[other]?) :
    b'.entries = Function.update b.entries name
      (k.map fun c => { enabled := c.enabled, responses := c.responses }) := by
  funext other
  rw [entries, h, Function.update_apply]
  by_cases hname : name = other
  · rw [if_pos hname, if_pos hname.symm]
  · rw [if_neg hname, if_neg (Ne.symm hname), entries]

/-- Inserting a command updates the map under its name. -/
theorem entries_insert (b : CommandBook) (name : String) (c : CustomCommand) :
    entries ⟨b.commands.insert name c⟩ = Function.update b.entries name
      (some { enabled := c.enabled, responses := c.responses }) := by
  refine entries_of_getElem? (k := some c) fun other => ?_
  simp only [Std.ExtTreeMap.getElem?_insert, Std.LawfulEqCmp.compare_eq_iff_eq]

/-- Erasing a command takes the entry under its name out of the map. -/
theorem entries_erase (b : CommandBook) (name : String) :
    entries ⟨b.commands.erase name⟩ = Function.update b.entries name none := by
  refine entries_of_getElem? (k := none) fun other => ?_
  simp only [Std.ExtTreeMap.getElem?_erase, Std.LawfulEqCmp.compare_eq_iff_eq]

/-- Where every command stands under its own name, the entry tells the command. -/
theorem Named.getElem?_eq {b : CommandBook} (named : b.Named) (name : String) :
    b.commands[name]? = (b.entries name).map (·.command name) := by
  unfold entries
  cases hget : b.commands[name]? with
  | none => rfl
  | some c =>
    obtain ⟨rfl, -⟩ := named name c hget
    rfl

/-- Modifying a command looks up its entry first, and fails where there is none. -/
theorem Named.modify_eq {b : CommandBook} (named : b.Named) (text : String)
    (f : CustomCommand → Except CommandError CustomCommand) :
    b.modify text f =
      match b.entries (normalForm text) with
      | none => .error (.notFound (normalForm text))
      | some e => (f (e.command (normalForm text))).map fun c =>
        ⟨b.commands.insert (normalForm text) c⟩ := by
  unfold CommandBook.modify
  dsimp only
  rw [named.getElem?_eq]
  cases b.entries (normalForm text) with
  | none => rfl
  | some e =>
    dsimp only [Option.map_some]
    cases f (e.command (normalForm text)) <;> rfl

/-- A call does to a book what it does to the map that the book keeps. -/
theorem Named.perform_entries {b : CommandBook} (named : b.Named) (call : Call) :
    (b.perform call).map (Prod.map id entries) = b.entries.perform call := by
  obtain ⟨text, request⟩ := call
  have hget := named.getElem?_eq (normalForm text)
  have hmodify := named.modify_eq text
  have hinsert := entries_insert b (normalForm text)
  -- where both sides reply alike, only the maps are left to compare
  have hkeep (reply : Reply) {m m' : Entries} (h : m = m') :
      (Except.ok (reply, m) : Except CommandError _) = .ok (reply, m') := by rw [h]
  unfold CommandBook.perform Entries.perform Request.error?
  cases request with
  | create responses =>
    simp only [create, hget]
    cases isCommandName (normalForm text) with
    | false => rfl
    | true =>
      cases b.entries (normalForm text) with
      | none => exact hkeep _ (hinsert _)
      | some e => rfl
  | delete =>
    simp only [delete, hget]
    cases b.entries (normalForm text) with
    | none => rfl
    | some e => exact hkeep _ (entries_erase b _)
  | setEnabled enabled =>
    simp only [setEnabled, hmodify]
    cases b.entries (normalForm text) with
    | none => rfl
    | some e => exact hkeep _ (hinsert _)
  | addResponse response =>
    simp only [addResponse, hmodify]
    cases b.entries (normalForm text) with
    | none => rfl
    | some e => exact hkeep _ (hinsert _)
  | updateResponse index response =>
    simp only [updateResponse, hmodify]
    cases b.entries (normalForm text) with
    | none => rfl
    | some e =>
      have hlength : (e.command (normalForm text)).responses.length = e.responses.length := rfl
      dsimp only [Request.index?]
      by_cases hindex : index < e.responses.length
      · rw [if_pos (hlength ▸ hindex), if_pos hindex]
        refine hkeep _ ((hinsert _).trans ?_)
        rw [Entry.command, List.set_eq_take_append_cons_drop, if_pos hindex]
        rfl
      · rw [if_neg (hlength ▸ hindex), if_neg hindex]
        rfl
  | removeResponse index =>
    simp only [removeResponse, hget]
    cases b.entries (normalForm text) with
    | none => rfl
    | some e =>
      have hresponses : (e.command (normalForm text)).responses = e.responses := rfl
      simp only [Option.map_some, hresponses, Request.index?]
      cases hresponse : e.responses[index]? with
      | none =>
        rw [if_neg (Nat.not_lt.2 (List.getElem?_eq_none_iff.1 hresponse))]
        rfl
      | some response =>
        have hreply : Request.reply (normalForm text) (some e) (.removeResponse index) =
            { response := some response } := congrArg (Reply.mk none) hresponse
        rw [if_pos (List.getElem?_eq_some_iff.1 hresponse).1, hreply]
        refine hkeep _ ((hinsert _).trans ?_)
        rw [List.eraseIdx_eq_take_drop_succ]
        rfl

/-! ## Any calls on an empty book -/

/-- What is kept after one more call. -/
theorem after_concat (calls : List Call) (call : Call) :
    after (calls ++ [call]) = keeping perform (after calls) call :=
  List.foldl_append

/-- What the map is after one more call. -/
theorem Entries.after_concat (calls : List Call) (call : Call) :
    Entries.after (calls ++ [call]) = keeping Entries.perform (Entries.after calls) call :=
  List.foldl_append

/-- A call that fails changes nothing. -/
theorem keeping_of_error {b : CommandBook} {call : Call} {e : CommandError}
    (h : b.perform call = .error e) : keeping perform b call = b := by
  rw [keeping, h]

/-- A call that succeeds leaves what it gives back. -/
theorem keeping_of_ok {b b' : CommandBook} {call : Call} {reply : Reply}
    (h : b.perform call = .ok (reply, b')) : keeping perform b call = b' := by
  rw [keeping, h]

/-- If a mapped result is good, the result was good before it was mapped. -/
theorem exists_of_map_eq_ok {α β : Type} {x : Except CommandError α} {f : α → β} {y : β}
    (h : x.map f = .ok y) : ∃ a, x = .ok a ∧ f a = y := by
  cases x with
  | error e => cases h
  | ok a => exact ⟨a, rfl, Except.ok.inj h⟩

/-- Whatever call succeeds on a book that calls have made, the new book is made by calls. -/
theorem Made.of_perform {b b' : CommandBook} (made : b.Made) {call : Call} {reply : Reply}
    (h : b.perform call = .ok (reply, b')) : b'.Made := by
  obtain ⟨text, request⟩ := call
  cases request with
  | create =>
    obtain ⟨_, hok, ⟨⟩⟩ := exists_of_map_eq_ok h
    exact made.create hok
  | delete =>
    obtain ⟨_, hok, ⟨⟩⟩ := exists_of_map_eq_ok h
    exact made.delete hok
  | setEnabled =>
    obtain ⟨_, hok, ⟨⟩⟩ := exists_of_map_eq_ok h
    exact made.setEnabled hok
  | addResponse =>
    obtain ⟨_, hok, ⟨⟩⟩ := exists_of_map_eq_ok h
    exact made.addResponse hok
  | updateResponse =>
    obtain ⟨_, hok, ⟨⟩⟩ := exists_of_map_eq_ok h
    exact made.updateResponse hok
  | removeResponse =>
    obtain ⟨_, hok, ⟨⟩⟩ := exists_of_map_eq_ok h
    exact made.removeResponse hok

/-- Whatever the calls, the book after them is made by calls. -/
theorem made_after (calls : List Call) : (after calls).Made := by
  induction calls using List.reverseRecOn with
  | nil => exact .empty
  | append_singleton calls call ih =>
    rw [after_concat, keeping]
    split
    · rename_i h
      exact ih.of_perform h
    · exact ih

/-- The book after some calls keeps the map after them. -/
theorem entries_after (calls : List Call) : (after calls).entries = Entries.after calls := by
  induction calls using List.reverseRecOn with
  | nil =>
    funext name
    exact congrArg (Option.map _) Std.ExtTreeMap.getElem?_empty
  | append_singleton calls call ih =>
    have hperform := (made_after calls).named.perform_entries call
    rw [ih] at hperform
    rw [after_concat, Entries.after_concat, keeping, keeping, ← hperform]
    cases (after calls).perform call with
    | error => exact ih
    | ok => rfl

section Kept

variable {b : CommandBook}

/-- Getting a command reads the map at the normal form of the text. -/
theorem Named.get?_eq (named : b.Named) (text : String) :
    b.get? text = (b.entries (normalForm text)).map (·.command (normalForm text)) :=
  named.getElem?_eq (normalForm text)

/-- A name under which something is kept is its own normal form. -/
theorem Named.normalForm_eq (named : b.Named) {name : String} {c : CustomCommand}
    (h : b.commands[name]? = some c) : normalForm name = name := by
  obtain ⟨-, text, rfl⟩ := named name c h
  exact normalForm_normalForm text

/-- The listed commands are those that stand under their own names. -/
theorem Named.mem_list_iff (named : b.Named) {c : CustomCommand} :
    c ∈ b.list ↔ b.commands[c.command]? = some c := by
  rw [list, NameMap.values, List.mem_map]
  constructor
  · rintro ⟨⟨name, c⟩, hmem, rfl⟩
    have hget := Std.ExtTreeMap.mem_toList_iff_getElem?_eq_some.1 hmem
    rwa [(named name c hget).1]
  · intro hget
    exact ⟨(c.command, c), Std.ExtTreeMap.mem_toList_iff_getElem?_eq_some.2 hget, rfl⟩

/-- Commands are listed in the order of their names, each once. -/
theorem Named.sorted_list (named : b.Named) :
    b.list.Pairwise fun c d => c.command < d.command := by
  rw [list, NameMap.values, List.pairwise_map]
  refine b.commands.ordered_keys_toList.imp_of_mem fun {x y} hx hy hlt => ?_
  have hkept {z : String × CustomCommand} (hz : z ∈ b.commands.toList) : z.2.command = z.1 :=
    (named z.1 z.2 (Std.ExtTreeMap.mem_toList_iff_getElem?_eq_some.1 hz)).1
  rw [hkept hx, hkept hy]
  exact compareOfLessAndEq_eq_lt.1 hlt

/-- What a call does to a book, read off the entry under the name it is about: it is refused for
what stands there, or gives the reply and leaves the entry that the map has. -/
theorem Named.perform_cases (named : b.Named) (call : Call) :
    let name := normalForm call.text
    (∃ e, call.request.error? call.text (b.entries name) = some e ∧ b.perform call = .error e) ∨
      call.request.error? call.text (b.entries name) = none ∧ ∃ b',
        b.perform call = .ok (call.request.reply name (b.entries name), b') ∧
        b'.entries = Function.update b.entries name (call.request.result (b.entries name)) := by
  intro name
  have hperform := named.perform_entries call
  unfold Entries.perform at hperform
  dsimp only at hperform
  cases herror : call.request.error? call.text (b.entries name) with
  | some e =>
    rw [herror] at hperform
    refine .inl ⟨e, rfl, ?_⟩
    cases hb : b.perform call with
    | error e' =>
      rw [hb] at hperform
      cases hperform
      rfl
    | ok =>
      rw [hb] at hperform
      cases hperform
  | none =>
    rw [herror] at hperform
    obtain ⟨⟨reply, b'⟩, hok, heq⟩ := exists_of_map_eq_ok hperform
    obtain ⟨hreply, hentries⟩ := Prod.mk.inj heq
    obtain rfl : reply = call.request.reply name (b.entries name) := hreply
    exact .inr ⟨rfl, b', hok, hentries⟩

/-- A call fails just if it is refused for the entry under its name. -/
theorem Named.fails_iff (named : b.Named) {call : Call} :
    (∃ e, b.perform call = .error e) ↔
      call.request.error? call.text (b.entries (normalForm call.text)) ≠ none := by
  rcases named.perform_cases call with ⟨e, herror, hperform⟩ | ⟨herror, b', hperform, -⟩
  · rw [herror]
    exact iff_of_true ⟨e, hperform⟩ (Option.some_ne_none e)
  · rw [herror, hperform]
    exact iff_of_false (by rintro ⟨_, ⟨⟩⟩) (· rfl)

/-- A call that succeeds replies what the map does and leaves the map as the map's call does. -/
theorem Named.entries_of_perform (named : b.Named) {b' : CommandBook} {call : Call} {reply : Reply}
    (h : b.perform call = .ok (reply, b')) :
    reply = call.request.reply (normalForm call.text) (b.entries (normalForm call.text)) ∧
      b'.entries = Function.update b.entries (normalForm call.text)
        (call.request.result (b.entries (normalForm call.text))) := by
  rcases named.perform_cases call with ⟨e, -, herror⟩ | ⟨-, b'', hok, hchanged⟩
  · rw [h] at herror
    cases herror
  · rw [h] at hok
    cases hok
    exact ⟨rfl, hchanged⟩

/-- Creating a command fails just if the name is none, or there is such a command already. -/
theorem Named.creation_fails_iff (named : b.Named) {text : String}
    {responses : List CustomResponse} :
    (∃ e, b.perform ⟨text, .create responses⟩ = .error e) ↔
      ¬ CommandName (normalForm text) ∨ ∃ c, b.get? text = some c := by
  rw [named.fails_iff, named.get?_eq, ← isCommandName_iff]
  unfold Request.error?
  cases isCommandName (normalForm text) <;> cases b.entries (normalForm text) <;> simp

/-- Any other request fails just if there is no such command, or no response of the number that it
gives. -/
theorem Named.change_fails_iff (named : b.Named) {text : String} {request : Request}
    (h : ∀ responses, request ≠ .create responses) :
    (∃ e, b.perform ⟨text, request⟩ = .error e) ↔
      ∀ c, b.get? text = some c → ∃ index ∈ request.index?, c.responses.length ≤ index := by
  rw [named.fails_iff, named.get?_eq]
  dsimp only
  cases b.entries (normalForm text) with
  | none =>
    cases request with
    | create responses => exact absurd rfl (h responses)
    | _ => exact iff_of_true (Option.some_ne_none _) fun _ hnone => by cases hnone
  | some e =>
    have herror : request.error? text (some e) ≠ none ↔
        ∃ index ∈ request.index?, e.responses.length ≤ index := by
      cases request with
      | create responses => exact absurd rfl (h responses)
      | _ => simp [Request.error?, Request.index?]
    rw [herror]
    simp [Entry.command]

/-- Texts of one normal form name one command. -/
theorem perform_congr {text other : String} (h : normalForm text = normalForm other)
    (request : Request) :
    (b.perform ⟨text, request⟩).toOption = (b.perform ⟨other, request⟩).toOption := by
  cases request with
  | create responses =>
    simp only [CommandBook.perform, create, h]
    cases isCommandName (normalForm other) <;> rfl
  | delete => simp only [CommandBook.perform, delete, h]
  | setEnabled => simp only [CommandBook.perform, setEnabled, modify, h]
  | addResponse => simp only [CommandBook.perform, addResponse, modify, h]
  | updateResponse => simp only [CommandBook.perform, updateResponse, modify, h]
  | removeResponse => simp only [CommandBook.perform, removeResponse, h]

/-- A line is for the command with the most words among those that are enabled and that it starts
with. -/
theorem Made.find?_of_begins (made : b.Made) {line : String} {c : CustomCommand} (hc : c ∈ b.list)
    (henabled : c.enabled = true) (hbegins : words c.command <+: lowerWords line)
    (hlongest : ∀ other ∈ b.list, other.enabled = true → words other.command <+: lowerWords line →
      (words other.command).length ≤ (words c.command).length) :
    b.find? line = some (c, rest line c) := by
  have hmem {other : CustomCommand} : other ∈ b.list ↔ b.commands[other.command]? = some other :=
    made.named.mem_list_iff
  have hlong : b.Begins line c := ⟨hmem.1 hc, henabled, hbegins⟩
  rcases made.find?_cases line with ⟨-, hnone⟩ | ⟨found, hfound, hfind⟩
  · exact absurd hlong (hnone c)
  · -- both are as long as the other, so they are the same beginning of the line
    have hle := hfound.longest c hlong
    have hge := hlongest found (hmem.2 hfound.kept) hfound.enabled hfound.begins
    have hwords : words found.command = words c.command := by
      rw [List.prefix_iff_eq_take.1 hfound.begins, List.prefix_iff_eq_take.1 hbegins,
        Nat.le_antisymm hge hle]
    have hname : found.command = c.command := by
      rw [← made.named.spaced_words_command hfound.kept, hwords,
        made.named.spaced_words_command hlong.kept]
    have hkept := hfound.kept
    rw [hname, hlong.kept] at hkept
    obtain rfl := Option.some_inj.1 hkept
    exact hfind

end Kept

/-- **The book is a map.** After any calls on an empty book,

* it holds what the map holds after the same calls, each entry as a command of its name, and further
  calls do the same to both;
* its names are normal forms of the grammar of command names;
* texts of one normal form name the same command, in every call;
* the listing has each command once, in the order of the names;
* a creation fails just if the text gives no command name or names a command, and any other call
  just if the text names none or its command has no response of the number that is asked for;
* a call that fails changes nothing, and one that does not changes the command it names, as asked,
  and no other;
* an enabled command is found on any line that starts with its words, unless the line starts with an
  enabled command of more words. -/
theorem kept_as_map (calls : List Call) :
    let b := after calls
    let m := Entries.after calls
    ((∀ name, b.commands[name]? = (m name).map (·.command name)) ∧
      ∀ call, (b.perform call).map (Prod.map id entries) = m.perform call) ∧
    (∀ name, m name ≠ none → normalForm name = name ∧ CommandName name) ∧
    (∀ text other, normalForm text = normalForm other →
      b.get? text = b.get? other ∧
      ∀ request, (b.perform ⟨text, request⟩).toOption = (b.perform ⟨other, request⟩).toOption) ∧
    ((b.list.Pairwise fun c d => c.command < d.command) ∧
      ∀ c, c ∈ b.list ↔ b.get? c.command = some c) ∧
    ((∀ text responses, (∃ e, b.perform ⟨text, .create responses⟩ = .error e) ↔
        ¬ CommandName (normalForm text) ∨ ∃ c, b.get? text = some c) ∧
      ∀ text request, (∀ responses, request ≠ .create responses) →
        ((∃ e, b.perform ⟨text, request⟩ = .error e) ↔
          ∀ c, b.get? text = some c → ∃ index ∈ request.index?, c.responses.length ≤ index)) ∧
    ((∀ call e, b.perform call = .error e → after (calls ++ [call]) = b) ∧
      ∀ call reply b', b.perform call = .ok (reply, b') →
        let name := normalForm call.text
        after (calls ++ [call]) = b' ∧ reply = call.request.reply name (m name) ∧
        b'.get? call.text = (call.request.result (m name)).map (·.command name) ∧
        ∀ text, normalForm text ≠ name → b'.get? text = b.get? text) ∧
    ∀ c ∈ b.list, c.enabled = true → ∀ line, words c.command <+: lowerWords line →
      (∀ other ∈ b.list, other.enabled = true → words other.command <+: lowerWords line →
        (words other.command).length ≤ (words c.command).length) →
      b.find? line = some (c, rest line c) := by
  intro b m
  have made : b.Made := made_after calls
  have named : b.Named := made.named
  have hentries : b.entries = m := entries_after calls
  refine ⟨⟨fun name => ?_, fun call => ?_⟩, fun name hname => ?_, fun text other hform => ?_,
    ⟨named.sorted_list, fun c => ?_⟩,
    ⟨fun text responses => named.creation_fails_iff, fun text request => named.change_fails_iff⟩,
    ⟨fun call e herror => ?_, fun call reply b' hok => ?_⟩,
    fun c hc henabled line hbegins => made.find?_of_begins hc henabled hbegins⟩
  · rw [named.getElem?_eq, hentries]
  · rw [named.perform_entries, hentries]
  · obtain ⟨e, he⟩ := Option.ne_none_iff_exists'.1 hname
    have hget : b.commands[name]? = some (e.command name) := by
      rw [named.getElem?_eq, hentries, he]
      rfl
    exact ⟨named.normalForm_eq hget, isCommandName_iff.1 (made.valid _ _ hget)⟩
  · exact ⟨by rw [get?, get?, hform], perform_congr hform⟩
  · rw [named.mem_list_iff, get?]
    constructor
    · intro hget
      rwa [named.normalForm_eq hget]
    · intro hget
      rwa [← (named _ c hget).1] at hget
  · exact (after_concat calls call).trans (keeping_of_error herror)
  · obtain ⟨hreply, hchanged⟩ := named.entries_of_perform hok
    have hget (text : String) : b'.get? text = _ := (made.of_perform hok).named.get?_eq text
    rw [hentries] at hreply hchanged
    refine ⟨(after_concat calls call).trans (keeping_of_ok hok), hreply, ?_, fun text hne => ?_⟩
    · rw [hget, hchanged, Function.update_self]
    · rw [hget, hchanged, Function.update_of_ne hne, named.get?_eq, hentries]

namespace Hugging

/-- A command and a longer one are created; the first loses its first response, by another spelling
of its name, and is then created in vain. -/
def calls : List Call := [
  ⟨"!Hug", .create [{ text := "hugs" }, { text := "hugs back" }]⟩,
  ⟨"!hug  Everyone", .create []⟩,
  ⟨" !HUG ", .removeResponse 0⟩,
  ⟨"!hug everyone", .setEnabled false⟩,
  ⟨"!hug", .create []⟩]

/-- What is kept of them. -/
def kept (name : String) : Option Entry :=
  if name = "!hug everyone" then some { enabled := false, responses := [] }
  else if name = "!hug" then some { enabled := true, responses := [{ text := "hugs back" }] }
  else none

/-- What the calls of the fixture leave in the map. -/
theorem after_calls : Entries.after calls = kept := by
  have hforms : calls.map (normalForm ·.text) =
      ["!hug", "!hug everyone", "!hug", "!hug everyone", "!hug"] := by decide +kernel
  have hnames : isCommandName "!hug" = true ∧ isCommandName "!hug everyone" = true := by
    decide +kernel
  simp only [calls, List.map_cons, List.map_nil, List.cons.injEq, and_true] at hforms
  obtain ⟨hfirst, hlonger, hspelled, hdisabled, hagain⟩ := hforms
  funext name
  simp [Entries.after, calls, keeping, Entries.perform, Request.error?, Request.result,
    Request.index?, hfirst, hlonger, hspelled, hdisabled, hagain, hnames, kept,
    Function.update_apply]
  split_ifs <;> rfl

/-- The command as it is kept. -/
def hug : CustomCommand :=
  { command := "!hug", responses := [{ text := "hugs back" }] }

/-- The command is kept in lower case with the response that is left, asking for a second one is an
error, and a line for the longer command, which is disabled, is for this one. -/
theorem hug_is_kept :
    (after calls).get? "  !hUG" = some hug ∧
    (∃ e, (after calls).perform ⟨"!HUG", .removeResponse 1⟩ = .error e) ∧
    (after calls).find? "!Hug Everyone here" = some (hug, "Everyone here") := by
  obtain ⟨⟨hkept, -⟩, -, hsame, ⟨-, hlist⟩, ⟨-, hchange⟩, -, hfind⟩ := kept_as_map calls
  rw [after_calls] at hkept
  have hform : normalForm "!hug" = "!hug" := by decide +kernel
  have hget : (after calls).get? "!hug" = some hug := by
    rw [get?, hform, hkept]
    rfl
  refine ⟨?_, ?_, ?_⟩
  · rw [← hget]
    exact (hsame _ _ (by decide +kernel)).1
  · refine (hchange _ _ fun _ => Request.noConfusion).2 fun c hc => ⟨1, rfl, ?_⟩
    rw [(hsame "!HUG" "!hug" (by decide +kernel)).1, hget] at hc
    cases hc
    decide
  · have hrest : rest "!Hug Everyone here" hug = "Everyone here" := by decide +kernel
    rw [← hrest]
    have hbegins : words hug.command <+: lowerWords "!Hug Everyone here" := by decide +kernel
    refine hfind hug ((hlist hug).2 hget) rfl _ hbegins fun other hother henabled _ => ?_
    have hname : (kept (normalForm other.command)).map (·.command (normalForm other.command)) =
        some other := (hkept _).symm.trans ((hlist other).1 hother)
    unfold kept at hname
    split_ifs at hname with heveryone hhug
    · rw [heveryone] at hname
      cases hname
      cases henabled
    · rw [hhug] at hname
      cases hname
      exact Nat.le_refl _
    · cases hname

end Hugging

end CommandBook

end ChatBot
