import ChatBot.Commands.Book
import ChatBot.Points.Prices
import ChatBot.Proofs.Commands.Words
import ChatBot.Proofs.Dispatch.Tiers
import ChatBot.Proofs.Text.LowerCase

/-!
# Three searches for a command

Which command a line starts with is asked in three places: when handlers are planned, when the
price of a line is looked up, and when a custom command is looked up. The first compares words, the
other two look for texts in maps. Main statement: over the same commands the three find the same
one, the longest, or all of them nothing (`searches_agree`).

A text in a map stands for words because words put together with spaces fall apart again
(`normalForm_eq_spaced_take_iff`); that needs that no word holds a blank, also in lower case.
-/

set_option autoImplicit false

namespace ChatBot

open Text

/-! ## Normal forms -/

/-- Words are not empty and have no blanks in them. -/
theorem lowerWords_word {line : String} : ∀ w ∈ lowerWords line,
    w.toList ≠ [] ∧ ∀ c ∈ w.toList, isBlank c = false := by
  intro w hw
  obtain ⟨v, hv, rfl⟩ := List.mem_map.1 hw
  exact lower_word (isBlank_of_mem_words hv)

/-- The normal form of a command is some beginning of a line exactly if its words are. -/
theorem normalForm_eq_spaced_take_iff {text line : String} {n : Nat} :
    normalForm text = spaced ((lowerWords line).take n) ↔
      lowerWords text = (lowerWords line).take n := by
  constructor
  · intro h
    have hwords := congrArg words h
    unfold normalForm at hwords
    rwa [words_spaced lowerWords_word,
      words_spaced fun w hw => lowerWords_word w (List.mem_of_mem_take hw)] at hwords
  · intro h
    rw [normalForm, h]

/-- A text whose normal form is a name of a command has a word. -/
theorem lowerWords_ne_nil {text : String} (h : isCommandName (normalForm text) = true) :
    lowerWords text ≠ [] := by
  intro hnil
  rw [normalForm, hnil] at h
  exact absurd h (by decide)

/-! ## Searching among commands -/

/-- Among some commands this one is the longest that a line starts with. -/
structure LongestOf (texts : List String) (line text : String) : Prop where
  mem : text ∈ texts
  begins : lowerWords text <+: lowerWords line
  longest : ∀ other ∈ texts, lowerWords other <+: lowerWords line →
    (lowerWords other).length ≤ (lowerWords text).length

/-- Two commands that are the longest ones a line starts with have the same words. -/
theorem LongestOf.unique {texts : List String} {line text other : String}
    (h : LongestOf texts line text) (hother : LongestOf texts line other) :
    lowerWords text = lowerWords other := by
  have hle := hother.longest text h.mem h.begins
  have hge := h.longest other hother.mem hother.begins
  have hlength := Nat.le_antisymm hle hge
  rw [List.prefix_iff_eq_take.1 h.begins, List.prefix_iff_eq_take.1 hother.begins, hlength]

/-- Among some commands there is a longest one that a line starts with, unless it starts
with none. -/
theorem longestOf_or_none (texts : List String) (line : String) :
    (∀ text ∈ texts, ¬ lowerWords text <+: lowerWords line) ∨
      ∃ text, LongestOf texts line text := by
  let fitting := texts.filter fun text => lowerWords text <+: lowerWords line
  have hfitting : ∀ text, text ∈ fitting ↔
      text ∈ texts ∧ lowerWords text <+: lowerWords line := by simp [fitting]
  -- the longest is one that fits with the greatest number of words
  cases hmax : (fitting.map fun text => (lowerWords text).length).max? with
  | none =>
    left
    intro text hmem hbegins
    have hnil := List.map_eq_nil_iff.1 (List.max?_eq_none_iff.1 hmax)
    have hin := (hfitting text).2 ⟨hmem, hbegins⟩
    rw [hnil] at hin
    cases hin
  | some n =>
    right
    obtain ⟨hmem, hle⟩ := List.max?_eq_some_iff.1 hmax
    obtain ⟨text, htext, rfl⟩ := List.mem_map.1 hmem
    obtain ⟨hin, hbegins⟩ := (hfitting text).1 htext
    refine ⟨text, hin, hbegins, fun other hother hprefix => ?_⟩
    apply hle
    exact List.mem_map_of_mem ((hfitting other).2 ⟨hother, hprefix⟩)

/-- The search finds the answer for the greatest number that has one. -/
theorem longestBeginning_eq_some {α : Type} {f : Nat → Option α} {n k : Nat} {a : α}
    (hk : k ≠ 0) (hkn : k ≤ n) (hf : f k = some a) (hnone : ∀ j, k < j → j ≤ n → f j = none) :
    longestBeginning f n = some a := by
  induction n with
  | zero => omega
  | succ n ih =>
    rw [longestBeginning]
    by_cases heq : k = n + 1
    · rw [← heq, hf]
    · have hn := hnone (n + 1) (by omega) (Nat.le_refl _)
      have hrest := ih (by omega) fun j hkj hjn => hnone j hkj (by omega)
      rw [hn]
      exact hrest

/-- The search finds nothing if no number has an answer. -/
theorem longestBeginning_eq_none {α : Type} {f : Nat → Option α} {n : Nat}
    (hnone : ∀ j, j ≤ n → f j = none) : longestBeginning f n = none := by
  induction n with
  | zero => rfl
  | succ n ih =>
    rw [longestBeginning, hnone (n + 1) (Nat.le_refl _)]
    exact ih fun j hj => hnone j (by omega)

section Search

variable {texts : List String} {line text : String} {α : Type} {f : Nat → Option α}

/-- A search from the longest beginning down that can only hit commands finds the longest one. -/
theorem search_of_longestOf (valid : ∀ text ∈ texts, isCommandName (normalForm text) = true)
    (h : LongestOf texts line text) {a : α} (hhit : f (lowerWords text).length = some a)
    (hmiss : ∀ n, (∀ other ∈ texts, normalForm other ≠ spaced ((lowerWords line).take n)) →
      f n = none) : longestBeginning f (lowerWords line).length = some a := by
  have hne := List.length_pos_iff.2 (lowerWords_ne_nil (valid text h.mem))
  refine longestBeginning_eq_some (by omega) h.begins.length_le hhit fun n hlt hle => ?_
  refine hmiss n fun other hother hform => ?_
  -- a hit further up would be a command with more words that the line starts with
  have htake := normalForm_eq_spaced_take_iff.1 hform
  have hlonger := h.longest other hother (htake ▸ List.take_prefix n _)
  rw [htake, List.length_take] at hlonger
  omega

/-- A search that can only hit commands finds nothing if the line starts with none. -/
theorem search_of_none (hnone : ∀ text ∈ texts, ¬ lowerWords text <+: lowerWords line)
    (hmiss : ∀ n, (∀ other ∈ texts, normalForm other ≠ spaced ((lowerWords line).take n)) →
      f n = none) : longestBeginning f (lowerWords line).length = none := by
  refine longestBeginning_eq_none fun n _ => hmiss n fun other hother hform => ?_
  have htake := normalForm_eq_spaced_take_iff.1 hform
  exact hnone other hother (htake ▸ List.take_prefix n _)

/-- The beginning of a line that is as long as a command it starts with is the command. -/
theorem LongestOf.spaced_take (h : LongestOf texts line text) :
    spaced ((lowerWords line).take (lowerWords text).length) = normalForm text :=
  (normalForm_eq_spaced_take_iff.2 (List.prefix_iff_eq_take.1 h.begins)).symm

end Search

/-! ## The price of a line -/

namespace PriceTable

/-- The tables that setting prices leads to. -/
inductive Made : PriceTable → Prop
  | empty : Made {}
  | set {t : PriceTable} (command : String) (price : Int64) : Made t → Made (t.set command price)

/-- Prices are positive and stand under normal forms. -/
theorem Made.sound {t : PriceTable} (made : t.Made) {name : String} {price : Int64}
    (h : t.prices[name]? = some price) : 0 < price ∧ ∃ text, normalForm text = name := by
  induction made with
  | empty => simp at h
  | set command amount _ ih =>
    unfold PriceTable.set at h
    split at h
    · rw [Std.ExtTreeMap.getElem?_erase] at h
      split at h
      · cases h
      · exact ih h
    · rename_i hpositive
      rw [Std.ExtTreeMap.getElem?_insert] at h
      split at h
      · rename_i heq
        cases h
        exact ⟨Int64.not_le.1 hpositive, command, Std.LawfulEqCmp.eq_of_compare heq⟩
      · exact ih h

/-- The commands that have a price are these. -/
def Prices (t : PriceTable) (texts : List String) : Prop :=
  ∀ text, t.priceOf text ≠ none ↔ ∃ other ∈ texts, normalForm other = normalForm text

variable {texts : List String} {t : PriceTable} {line text : String}

/-- No price stands under a name that is not among the priced ones. -/
theorem Made.getElem?_eq_none (made : t.Made) (priced : t.Prices texts) {name : String}
    (h : ∀ other ∈ texts, normalForm other ≠ name) : t.prices[name]? = none := by
  cases hget : t.prices[name]? with
  | none => rfl
  | some price =>
    obtain ⟨-, text, rfl⟩ := made.sound hget
    have hpriced : t.priceOf text ≠ none := by
      rw [priceOf, hget]
      exact Option.some_ne_none price
    obtain ⟨other, hother, heq⟩ := (priced text).1 hpriced
    exact absurd heq (h other hother)

/-- The search for a price finds the one of the longest command that the line starts with. -/
theorem match?_of_longestOf (made : t.Made)
    (valid : ∀ text ∈ texts, isCommandName (normalForm text) = true) (priced : t.Prices texts)
    (h : LongestOf texts line text) :
    ∃ amount, t.priceOf text = some amount ∧ 0 < amount ∧
      t.match? line = some (normalForm text, amount) := by
  obtain ⟨amount, hamount⟩ := Option.ne_none_iff_exists'.1 ((priced text).2 ⟨text, h.mem, rfl⟩)
  refine ⟨amount, hamount, (made.sound hamount).1, search_of_longestOf valid h ?_ fun n hn => ?_⟩
  · rw [h.spaced_take]
    exact congrArg (Option.map _) hamount
  · exact congrArg (Option.map _) (made.getElem?_eq_none priced hn)

/-- The search for a price finds nothing for a line that starts with no priced command. -/
theorem match?_of_none (made : t.Made) (priced : t.Prices texts)
    (h : ∀ text ∈ texts, ¬ lowerWords text <+: lowerWords line) : t.match? line = none :=
  search_of_none h fun _ hn => congrArg (Option.map _) (made.getElem?_eq_none priced hn)

end PriceTable

/-! ## The custom command of a line -/

namespace CommandBook

/-- The books that adding, removing and changing commands leads to. -/
inductive Made : CommandBook → Prop
  | empty : Made {}
  | create {b b' : CommandBook} {command : String} {responses : List CustomResponse}
      {created : CustomCommand} :
      Made b → b.create command responses = .ok (created, b') → Made b'
  | delete {b b' : CommandBook} {command : String} {removed : CustomCommand} :
      Made b → b.delete command = .ok (removed, b') → Made b'
  | setEnabled {b b' : CommandBook} {command : String} {enabled : Bool} :
      Made b → b.setEnabled command enabled = .ok b' → Made b'
  | addResponse {b b' : CommandBook} {command : String} {response : CustomResponse} :
      Made b → b.addResponse command response = .ok b' → Made b'
  | updateResponse {b b' : CommandBook} {command : String} {index : Nat}
      {response : CustomResponse} :
      Made b → b.updateResponse command index response = .ok b' → Made b'
  | removeResponse {b b' : CommandBook} {command : String} {index : Nat}
      {removed : CustomResponse} :
      Made b → b.removeResponse command index = .ok (removed, b') → Made b'

/-! What the operations make of a book. -/

section Operations

variable {b b' : CommandBook} {command : String}

/-- What creating a command makes of a book. -/
theorem of_create {responses : List CustomResponse} {created : CustomCommand}
    (h : b.create command responses = .ok (created, b')) :
    isCommandName (normalForm command) = true ∧ created.command = normalForm command ∧
      b' = ⟨b.commands.insert (normalForm command) created⟩ := by
  unfold CommandBook.create at h
  dsimp only at h
  split at h
  · cases h
  · rename_i hvalid
    split at h
    · cases h
    · cases h
      exact ⟨by simpa using hvalid, rfl, rfl⟩

/-- What deleting a command makes of a book. -/
theorem of_delete {removed : CustomCommand} (h : b.delete command = .ok (removed, b')) :
    b' = ⟨b.commands.erase (normalForm command)⟩ := by
  unfold CommandBook.delete at h
  dsimp only at h
  split at h
  · cases h
    rfl
  · cases h

/-- What modifying a command makes of a book: another command under the same name. -/
theorem of_modify {f : CustomCommand → Except CommandError CustomCommand}
    (h : b.modify command f = .ok b') :
    ∃ c c', b.commands[normalForm command]? = some c ∧ f c = .ok c' ∧
      b' = ⟨b.commands.insert (normalForm command) c'⟩ := by
  unfold CommandBook.modify at h
  dsimp only at h
  split at h
  · cases h
  · rename_i c hget
    split at h
    · rename_i c' hc'
      cases h
      exact ⟨c, c', hget, hc', rfl⟩
    · cases h

/-- What removing a response makes of a book: a command of the same name, under it. -/
theorem of_removeResponse {index : Nat} {removed : CustomResponse}
    (h : b.removeResponse command index = .ok (removed, b')) :
    ∃ c c', b.commands[normalForm command]? = some c ∧ c'.command = c.command ∧
      b' = ⟨b.commands.insert (normalForm command) c'⟩ := by
  unfold CommandBook.removeResponse at h
  dsimp only at h
  split at h
  · cases h
  · rename_i c hget
    split at h
    · cases h
    · cases h
      exact ⟨c, { c with responses := c.responses.eraseIdx index }, hget, rfl, rfl⟩

end Operations

/-- Every command stands under its own name, which is a normal form. -/
def Named (b : CommandBook) : Prop :=
  ∀ name c, b.commands[name]? = some c → c.command = name ∧ ∃ text, normalForm text = name

/-- A command that is inserted under its own name leaves every command under its own. -/
theorem Named.insert {b : CommandBook} (named : b.Named) {command : String} {c : CustomCommand}
    (h : c.command = normalForm command) :
    Named ⟨b.commands.insert (normalForm command) c⟩ := by
  intro name c' hget
  rw [Std.ExtTreeMap.getElem?_insert] at hget
  split at hget
  · rename_i heq
    obtain rfl := Std.LawfulEqCmp.eq_of_compare heq
    cases hget
    exact ⟨h, command, rfl⟩
  · exact named name c' hget

/-- Erasing a command leaves the others under their own names. -/
theorem Named.erase {b : CommandBook} (named : b.Named) (key : String) :
    Named ⟨b.commands.erase key⟩ := by
  intro name c hget
  rw [Std.ExtTreeMap.getElem?_erase] at hget
  split at hget
  · cases hget
  · exact named name c hget

/-- A change that leaves the names of commands keeps them named. -/
theorem Named.modify {b b' : CommandBook} (named : b.Named) {command : String}
    {f : CustomCommand → Except CommandError CustomCommand}
    (hf : ∀ c c', f c = .ok c' → c'.command = c.command)
    (h : b.modify command f = .ok b') : b'.Named := by
  obtain ⟨c, c', hget, hc', rfl⟩ := of_modify h
  apply named.insert
  rw [hf c c' hc', (named _ c hget).1]

/-- In a book that calls have made, every command stands under its own name. -/
theorem Made.named {b : CommandBook} (made : b.Made) : b.Named := by
  induction made with
  | empty =>
    intro name c hget
    simp at hget
  | create _ h ih =>
    obtain ⟨-, hcreated, rfl⟩ := of_create h
    exact ih.insert hcreated
  | delete _ h ih =>
    obtain rfl := of_delete h
    exact ih.erase _
  | setEnabled _ h ih =>
    refine ih.modify (fun c c' hc => ?_) h
    cases hc
    rfl
  | addResponse _ h ih =>
    refine ih.modify (fun c c' hc => ?_) h
    cases hc
    rfl
  | updateResponse _ h ih =>
    refine ih.modify (fun c c' hc => ?_) h
    split at hc
    · cases hc
      rfl
    · cases hc
  | removeResponse _ h ih =>
    obtain ⟨c, c', hget, hsame, rfl⟩ := of_removeResponse h
    exact ih.insert (hsame.trans (ih _ c hget).1)

/-- All commands stand under valid names. -/
def Valid (b : CommandBook) : Prop :=
  ∀ name c, b.commands[name]? = some c → isCommandName name = true

/-- A command that is inserted under a valid name leaves all names valid. -/
theorem Valid.insert {b : CommandBook} (valid : b.Valid) {name : String}
    (hname : isCommandName name = true) (c : CustomCommand) :
    Valid ⟨b.commands.insert name c⟩ := by
  intro other c' hget
  rw [Std.ExtTreeMap.getElem?_insert] at hget
  split at hget
  · rename_i heq
    rwa [← Std.LawfulEqCmp.eq_of_compare heq]
  · exact valid other c' hget

/-- Erasing a command leaves all names valid. -/
theorem Valid.erase {b : CommandBook} (valid : b.Valid) (key : String) :
    Valid ⟨b.commands.erase key⟩ := by
  intro name c hget
  rw [Std.ExtTreeMap.getElem?_erase] at hget
  split at hget
  · cases hget
  · exact valid name c hget

/-- Modifying a command leaves all names valid. -/
theorem Valid.modify {b b' : CommandBook} (valid : b.Valid) {command : String}
    {f : CustomCommand → Except CommandError CustomCommand}
    (h : b.modify command f = .ok b') : b'.Valid := by
  obtain ⟨c, c', hget, -, rfl⟩ := of_modify h
  exact valid.insert (valid _ c hget) c'

/-- In a book that calls have made, all names are valid. -/
theorem Made.valid {b : CommandBook} (made : b.Made) : b.Valid := by
  induction made with
  | empty =>
    intro name c hget
    simp at hget
  | create _ h ih =>
    obtain ⟨hvalid, -, rfl⟩ := of_create h
    exact ih.insert hvalid _
  | delete _ h ih =>
    obtain rfl := of_delete h
    exact ih.erase _
  | setEnabled _ h ih => exact ih.modify h
  | addResponse _ h ih => exact ih.modify h
  | updateResponse _ h ih => exact ih.modify h
  | removeResponse _ h ih =>
    obtain ⟨c, c', hget, -, rfl⟩ := of_removeResponse h
    exact ih.insert (ih _ c hget) c'

/-- A command can be created under a valid name that is free. -/
theorem create_eq_ok {b : CommandBook} {command name : String} {responses : List CustomResponse}
    (hname : normalForm command = name) (valid : isCommandName name = true)
    (fresh : b.commands[name]? = none) :
    b.create command responses =
      .ok ({ command := name, responses },
        ⟨b.commands.insert name { command := name, responses }⟩) := by
  subst hname
  simp [create, valid, fresh]

/-- The commands that are enabled are these. -/
def Enables (b : CommandBook) (texts : List String) : Prop :=
  ∀ text, (∃ c, b.get? text = some c ∧ c.enabled = true) ↔
    ∃ other ∈ texts, normalForm other = normalForm text

variable {texts : List String} {b : CommandBook} {line text : String}

/-- A command that is not among the enabled ones is kept disabled. -/
theorem Made.not_enabled (made : b.Made) (enabled : b.Enables texts) {name : String}
    (h : ∀ other ∈ texts, normalForm other ≠ name) {c : CustomCommand}
    (hget : b.commands[name]? = some c) : c.enabled = false := by
  obtain ⟨-, text, rfl⟩ := made.named name c hget
  apply Bool.eq_false_iff.2
  intro henabled
  obtain ⟨other, hother, heq⟩ := (enabled text).1 ⟨c, hget, henabled⟩
  exact h other hother heq

/-- The search for a custom command finds the longest one that the line starts with, and what is
left of the line. -/
theorem find?_of_longestOf (made : b.Made)
    (valid : ∀ text ∈ texts, isCommandName (normalForm text) = true) (enabled : b.Enables texts)
    (h : LongestOf texts line text) :
    ∃ c, b.get? text = some c ∧ c.command = normalForm text ∧
      b.find? line = some (c, spaced ((words line).drop (lowerWords text).length)) := by
  obtain ⟨c, hget, henabled⟩ := (enabled text).2 ⟨text, h.mem, rfl⟩
  have hstored : b.commands[normalForm text]? = some c := hget
  refine ⟨c, hget, (made.named _ c hget).1, search_of_longestOf valid h ?_ fun n hn => ?_⟩
  · rw [h.spaced_take, hstored]
    exact if_pos henabled
  · split
    · rename_i c' hc'
      rw [made.not_enabled enabled hn hc']
      rfl
    · rfl

/-- The search for a custom command finds nothing for a line that starts with no enabled one. -/
theorem find?_of_none (made : b.Made) (enabled : b.Enables texts)
    (h : ∀ text ∈ texts, ¬ lowerWords text <+: lowerWords line) : b.find? line = none := by
  refine search_of_none h fun n hn => ?_
  split
  · rename_i c hc
    rw [made.not_enabled enabled hn hc]
    rfl
  · rfl

end CommandBook

/-! ## The handler of a line -/

namespace Registry

variable {ε : Type}

/-- The commands that are registered in a tier are these, each once. -/
def Registers (r : Registry ε) (tier : Priority) (texts : List String) : Prop :=
  ((r.filter fun q => q.priority = tier ∧ q.pattern ≠ .any).map Registration.pattern).Perm
    (texts.map CommandPattern.ofCommand)

variable {r : Registry ε} {tier : Priority} {texts : List String} {line text : String}

/-- Words are a pattern of the tier just if they are those of one of the commands. -/
theorem Registers.mem_iff (registered : r.Registers tier texts) {words : List String} :
    (∃ q ∈ r, q.priority = tier ∧ q.pattern = .command words) ↔
      ∃ text ∈ texts, lowerWords text = words := by
  have hmem := List.Perm.mem_iff registered (a := CommandPattern.command words)
  simp only [List.mem_map, List.mem_filter, decide_eq_true_eq, CommandPattern.ofCommand,
    CommandPattern.command.injEq] at hmem
  rw [← hmem]
  constructor
  · rintro ⟨q, hq, hpriority, hpattern⟩
    exact ⟨q, ⟨hq, hpriority, by rw [hpattern]; simp⟩, hpattern⟩
  · rintro ⟨q, ⟨hq, hpriority, -⟩, hpattern⟩
    exact ⟨q, hq, hpriority, hpattern⟩

/-- The words of a pattern are those of a command pattern. -/
theorem mem_words? {p : CommandPattern} {words : List String} :
    words ∈ p.words? ↔ p = .command words := by
  cases p <;> simp [CommandPattern.words?, eq_comm]

/-- The longest words of a tier are those of the longest command. -/
theorem Registers.longest_iff (registered : r.Registers tier texts)
    (valid : ∀ text ∈ texts, isCommandName (normalForm text) = true) {words : List String} :
    r.Longest tier line words ↔ ∃ text, LongestOf texts line text ∧ lowerWords text = words := by
  constructor
  · intro h
    obtain ⟨text, htext, rfl⟩ := registered.mem_iff.1 h.registered
    refine ⟨text, ⟨htext, h.begins, fun other hother hbegins => ?_⟩, rfl⟩
    obtain ⟨q, hq, hpriority, hpattern⟩ := registered.mem_iff.2 ⟨other, hother, rfl⟩
    exact h.longest q hq hpriority _ (mem_words?.2 hpattern) hbegins
  · rintro ⟨text, h, rfl⟩
    refine ⟨lowerWords_ne_nil (valid text h.mem), registered.mem_iff.2 ⟨text, h.mem, rfl⟩,
      h.begins, ?_⟩
    intro q hq hpriority words hwords hbegins
    obtain ⟨other, hother, rfl⟩ :=
      registered.mem_iff.1 ⟨q, hq, hpriority, mem_words?.1 hwords⟩
    exact h.longest other hother hbegins

/-- A registered command has one registration in its tier. -/
theorem Registers.length_filter (registered : r.Registers tier texts)
    (distinct : (texts.map normalForm).Nodup) (h : text ∈ texts) :
    ((r.tier tier).filter fun q => q.1.pattern = .ofCommand text).length = 1 := by
  have hcount : ((r.filter fun q => q.priority = tier ∧ q.pattern ≠ .any).map
      Registration.pattern).count (.ofCommand text) = 1 := by
    rw [List.Perm.count_eq registered]
    apply List.count_eq_one_of_mem
    -- commands of one pattern have one normal form
    · refine List.Nodup.of_map (fun p => spaced (p.words?.getD [])) ?_
      rw [List.map_map]
      exact distinct
    · exact List.mem_map_of_mem h
  rw [List.count, List.countP_map, List.countP_filter] at hcount
  have hmap : (r.tier tier).countP (fun q => decide (q.1.pattern = .ofCommand text)) =
      (r.filter (·.priority = tier)).countP fun q => decide (q.pattern = .ofCommand text) := by
    rw [← map_fst_tier, List.countP_map]
    rfl
  rw [← List.countP_eq_length_filter, hmap, List.countP_filter, ← hcount]
  refine List.countP_congr fun q _ => ?_
  have hcommand : CommandPattern.ofCommand text ≠ .any := CommandPattern.noConfusion
  simp only [Function.comp_apply, decide_eq_true_eq, Bool.and_eq_true, beq_iff_eq]
  constructor
  · rintro ⟨hpattern, hpriority⟩
    exact ⟨hpattern, hpriority, hpattern ▸ hcommand⟩
  · rintro ⟨hpattern, hpriority, -⟩
    exact ⟨hpattern, hpriority⟩

/-- Only the registration of the longest command is planned for its command. -/
theorem Registers.asCommand_eq_none (registered : r.Registers tier texts)
    (valid : ∀ text ∈ texts, isCommandName (normalForm text) = true)
    {q : Registration ε × Nat} (hq : q ∈ r.tier tier)
    (h : ∀ text, LongestOf texts line text → q.1.pattern ≠ .ofCommand text) :
    r.asCommand line q = none := by
  refine Option.eq_none_iff_forall_ne_some.2 fun p hp => ?_
  obtain ⟨words, hpattern, hlongest, -⟩ := asCommand_eq_some_iff.1 hp
  rw [(mem_tier.1 hq).2] at hlongest
  obtain ⟨text, htext, rfl⟩ := (registered.longest_iff valid).1 hlongest
  exact h text htext hpattern

/-- Of the commands of a tier, a plan has the longest one that the line starts with, once, with what
is left of the line. -/
theorem plan_of_longestOf (registered : r.Registers tier texts)
    (valid : ∀ text ∈ texts, isCommandName (normalForm text) = true)
    (distinct : (texts.map normalForm).Nodup) (h : LongestOf texts line text) :
    ∃ p, ((r.plan line).filter fun p =>
        p.registration.priority = tier ∧ p.registration.pattern ≠ .any) = [p] ∧
      p.registration.pattern = .ofCommand text ∧ p.command = normalForm text ∧
      p.param = spaced ((words line).drop (lowerWords text).length) := by
  obtain ⟨q, hq⟩ := List.length_eq_one_iff.1 (registered.length_filter distinct h.mem)
  have hmem : q ∈ (r.tier tier).filter fun q => q.1.pattern = .ofCommand text := by
    rw [hq]
    exact List.mem_singleton_self q
  obtain ⟨htier, hpattern⟩ := List.mem_filter.1 hmem
  replace hpattern : q.1.pattern = .ofCommand text := of_decide_eq_true hpattern
  have hlongest : r.Longest q.1.priority line (lowerWords text) := by
    rw [(mem_tier.1 htier).2]
    exact (registered.longest_iff valid).2 ⟨text, h, rfl⟩
  have hplanned := asCommand_eq_some_iff.2 ⟨_, hpattern, hlongest, rfl⟩
  -- the other registrations of the tier are for commands that are not the longest
  have hothers : (r.tier tier).filterMap (r.asCommand line) =
      ((r.tier tier).filter fun q => q.1.pattern = .ofCommand text).filterMap
        (r.asCommand line) := by
    rw [List.filterMap_filter]
    refine List.filterMap_congr fun q hq => ?_
    split
    · rfl
    · rename_i hne
      refine registered.asCommand_eq_none valid hq fun other hother heq => ?_
      apply hne
      rw [heq]
      exact decide_eq_true (congrArg CommandPattern.command (hother.unique h))
  refine ⟨⟨q.2, q.1, normalForm text, _⟩, ?_, hpattern, rfl, rfl⟩
  rw [filter_plan_eq_filterMap, hothers, hq, List.filterMap_cons_some hplanned]
  rfl

/-- A plan has no command of a tier for a line that starts with none of them. -/
theorem plan_of_none (registered : r.Registers tier texts)
    (valid : ∀ text ∈ texts, isCommandName (normalForm text) = true)
    (h : ∀ text ∈ texts, ¬ lowerWords text <+: lowerWords line) :
    ((r.plan line).filter fun p =>
      p.registration.priority = tier ∧ p.registration.pattern ≠ .any) = [] := by
  rw [filter_plan_eq_filterMap]
  refine List.filterMap_eq_nil_iff.2 fun q hq => ?_
  refine registered.asCommand_eq_none valid hq fun text htext _ => ?_
  exact h text htext.mem htext.begins

end Registry

/-- **The three searches agree.** Valid commands of distinct normal forms are registered once each
in a tier, they have prices, and they are enabled as custom commands, and nothing else is. Then for
every line either it starts with none of them, no handler of the tier is planned for a command, and
there is no price and no custom command; or the longest of them that it starts with is the one
whose handler is planned, whose price is found and which is found as a custom command, and the
handler and the custom command are given the same rest of the line. -/
theorem searches_agree {ε : Type} {texts : List String} {r : Registry ε} {tier : Priority}
    {t : PriceTable} {b : CommandBook}
    (valid : ∀ text ∈ texts, isCommandName (normalForm text) = true)
    (distinct : (texts.map normalForm).Nodup) (registered : r.Registers tier texts)
    (madeTable : t.Made) (priced : t.Prices texts) (madeBook : b.Made)
    (enabled : b.Enables texts) (line : String) :
    let planned := (r.plan line).filter fun p =>
      p.registration.priority = tier ∧ p.registration.pattern ≠ .any
    ((∀ text ∈ texts, ¬ lowerWords text <+: lowerWords line) ∧ planned = [] ∧
      t.match? line = none ∧ b.find? line = none) ∨
    ∃ text, LongestOf texts line text ∧
      let rest := spaced ((words line).drop (lowerWords text).length)
      (∃ p, planned = [p] ∧ p.registration.pattern = .ofCommand text ∧
        p.command = normalForm text ∧ p.param = rest) ∧
      (∃ amount, t.priceOf text = some amount ∧ 0 < amount ∧
        t.match? line = some (normalForm text, amount)) ∧
      ∃ c, b.get? text = some c ∧ c.command = normalForm text ∧
        b.find? line = some (c, rest) := by
  intro planned
  rcases longestOf_or_none texts line with hnone | ⟨text, h⟩
  · left
    exact ⟨hnone, Registry.plan_of_none registered valid hnone,
      PriceTable.match?_of_none madeTable priced hnone,
      CommandBook.find?_of_none madeBook enabled hnone⟩
  · right
    refine ⟨text, h, ?_, ?_, ?_⟩
    · exact Registry.plan_of_longestOf registered valid distinct h
    · exact PriceTable.match?_of_longestOf madeTable valid priced h
    · exact CommandBook.find?_of_longestOf madeBook valid enabled h

/-! A command and a longer one that starts with it. -/

namespace Giving

/-- The two commands. -/
def texts : List String := ["!points", "!Points  GIVE"]

/-- A registry of the two, with a handler of every line between them and a command of another tier
behind. -/
def registry : Registry Unit := [
  { name := "points", pattern := .ofCommand "!points", handler := fun _ => pure .error },
  { name := "listener", pattern := .any, handler := fun _ => pure .error },
  { name := "give", pattern := .ofCommand "!points give", handler := fun _ => pure .error },
  { name := "late", pattern := .ofCommand "!points", priority := .low,
    handler := fun _ => pure .error }]

/-- A table of their prices. -/
def prices : PriceTable := (PriceTable.set {} "!points" 1).set "!points give" 10

/-- A book with the two in it. -/
def book : CommandBook where
  commands := ((∅ : NameMap CustomCommand).insert "!points" { command := "!points" }).insert
    "!points give" { command := "!points give" }

/-- The names of the two commands in the fixture. -/
theorem normalForms : texts.map normalForm = ["!points", "!points give"] := by decide +kernel

/-- The names of the fixture, told apart. -/
theorem exists_normalForm {name : String} :
    (∃ other ∈ texts, normalForm other = name) ↔ name = "!points" ∨ name = "!points give" := by
  rw [← List.mem_map, normalForms]
  simp

/-- The prices of the fixture have been set one after the other. -/
theorem prices_made : prices.Made :=
  .set "!points give" 10 (.set "!points" 1 .empty)

/-- The commands of the fixture are those that have a price. -/
theorem prices_prices : prices.Prices texts := by
  intro text
  have hpoints : normalForm "!points" = "!points" := by decide +kernel
  have hgive : normalForm "!points give" = "!points give" := by decide +kernel
  rw [exists_normalForm]
  unfold prices PriceTable.set PriceTable.priceOf
  rw [if_neg (by decide), if_neg (by decide), hpoints, hgive]
  simp only [Std.ExtTreeMap.getElem?_insert, Std.ExtTreeMap.getElem?_empty,
    Std.LawfulEqCmp.compare_eq_iff_eq]
  grind

/-- The book of the fixture has been made by creating its commands. -/
theorem book_made : book.Made := by
  have hpoints : normalForm "!points" = "!points" := by decide +kernel
  have hgive : normalForm "!points give" = "!points give" := by decide +kernel
  apply CommandBook.Made.create (.create .empty (CommandBook.create_eq_ok hpoints ?_ ?_))
    (CommandBook.create_eq_ok hgive ?_ ?_)
  · decide +kernel
  · exact Std.ExtTreeMap.getElem?_empty
  · decide +kernel
  · simp

/-- The commands of the fixture are those that are enabled. -/
theorem book_enables : book.Enables texts := by
  intro text
  rw [exists_normalForm]
  unfold book CommandBook.get?
  simp only [Std.ExtTreeMap.getElem?_insert, Std.ExtTreeMap.getElem?_empty,
    Std.LawfulEqCmp.compare_eq_iff_eq]
  split
  · rename_i hgive
    exact iff_of_true ⟨_, rfl, rfl⟩ (.inr hgive.symm)
  · split
    · rename_i hpoints
      exact iff_of_true ⟨_, rfl, rfl⟩ (.inl hpoints.symm)
    · rename_i hgive hpoints
      refine iff_of_false (by simp) ?_
      rintro (h | h)
      · exact hpoints h.symm
      · exact hgive h.symm

/-- The commands of the fixture are those of the normal tier. -/
theorem registry_registers : registry.Registers .normal texts := by
  unfold Registry.Registers registry texts
  decide +kernel

/-- A line that gives points starts with both; the longer one counts everywhere. -/
theorem give_is_found :
    (∃ p, ((registry.plan " !POINTS give  Bob 10").filter fun p =>
        p.registration.priority = .normal ∧ p.registration.pattern ≠ .any) = [p] ∧
      p.command = "!points give" ∧ p.param = "Bob 10") ∧
    (prices.match? " !POINTS give  Bob 10").map Prod.fst = some "!points give" ∧
    (book.find? " !POINTS give  Bob 10").map (fun found => (found.1.command, found.2)) =
      some ("!points give", "Bob 10") := by
  have hvalid : ∀ text ∈ texts, isCommandName (normalForm text) = true := by decide +kernel
  have hdistinct : (texts.map normalForm).Nodup := by decide +kernel
  have hbegins : lowerWords "!Points  GIVE" <+: lowerWords " !POINTS give  Bob 10" := by
    decide +kernel
  have hmem : "!Points  GIVE" ∈ texts := List.mem_cons_of_mem _ List.mem_cons_self
  have hform : normalForm "!Points  GIVE" = "!points give" := by decide +kernel
  rcases searches_agree hvalid hdistinct registry_registers prices_made prices_prices book_made
    book_enables " !POINTS give  Bob 10" with ⟨hnone, -⟩ | ⟨text, h, hplan, hprice, hfind⟩
  · exact absurd hbegins (hnone _ hmem)
  · have htext : text = "!Points  GIVE" := by
      have hlonger := h.longest _ hmem hbegins
      rcases List.mem_cons.1 h.mem with rfl | hrest
      · exact absurd hlonger (by decide +kernel)
      · exact List.mem_singleton.1 hrest
    subst htext
    have hrest : spaced ((words " !POINTS give  Bob 10").drop
        (lowerWords "!Points  GIVE").length) = "Bob 10" := by decide +kernel
    rw [hform, hrest] at hplan
    rw [hform] at hprice
    rw [hform, hrest] at hfind
    obtain ⟨p, hp, -, hcommand, hparam⟩ := hplan
    obtain ⟨amount, -, -, hmatch⟩ := hprice
    obtain ⟨c, -, hname, hfound⟩ := hfind
    refine ⟨⟨p, hp, hcommand, hparam⟩, ?_, ?_⟩
    · rw [hmatch]
      rfl
    · rw [hfound, ← hname]
      rfl

end Giving

end ChatBot
