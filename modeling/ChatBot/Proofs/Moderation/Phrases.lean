import ChatBot.Moderation
import ChatBot.Proofs.Text.FinalSigma

/-!
# What a blocked phrase stops

Nothing takes a phrase off the list again, so whatever is asked of the moderation, exactly the
phrases blocked so far are on it (`mem_blocked_after`). A phrase on the list stops every line it
stands in, whatever is around it, as long as its capital sigmas keep their forms there
(`stops_of_block`): the phrase and the line are put in lower case apart from each other, and at the
end of a phrase a sigma has the form of the end of a word, while in the line the word may go on
(`not_stops_longer_word`).
-/

set_option autoImplicit false

namespace ChatBot

open Text

namespace Moderation

/-- What is asked of the moderation. -/
inductive Request where
  | ignore (username : String)
  | unignore (username : String)
  | block (phrase : String)

/-- The moderation after one request. -/
def answer (m : Moderation) : Request → Moderation
  | .ignore username => m.ignore username
  | .unignore username => m.unignore username
  | .block phrase => m.block phrase

/-- The moderation after requests, in their order. -/
def after (m : Moderation) (requests : List Request) : Moderation :=
  requests.foldl answer m

/-- Blocking a phrase adds its lower case to the blocked phrases. -/
theorem mem_blocked_block {m : Moderation} {phrase p : String} :
    p ∈ (m.block phrase).blocked ↔ p ∈ m.blocked ∨ p = lower phrase := by
  rw [block]
  split
  case isTrue hin =>
    refine ⟨Or.inl, fun hp => hp.elim id fun heq => ?_⟩
    rw [heq]
    exact List.contains_iff_mem.1 hin
  case isFalse => rw [List.mem_cons, or_comm]

/-- Ignoring somebody leaves the blocked phrases. -/
theorem blocked_ignore (m : Moderation) (username : String) :
    (m.ignore username).blocked = m.blocked := by
  rw [ignore]
  split <;> rfl

/-- A request adds the phrase that it blocks, if it blocks one, and takes none away. -/
theorem mem_blocked_answer {m : Moderation} {request : Request} {p : String} :
    p ∈ (m.answer request).blocked ↔
      p ∈ m.blocked ∨ ∃ phrase, request = .block phrase ∧ p = lower phrase := by
  cases request with
  | ignore username => simp [answer, blocked_ignore]
  | unignore username => simp [answer, unignore]
  | block phrase => simp [answer, mem_blocked_block]

/-- On the list are the phrases that were on it before and those blocked since. -/
theorem mem_blocked_after {m : Moderation} {requests : List Request} {p : String} :
    p ∈ (m.after requests).blocked ↔
      p ∈ m.blocked ∨ ∃ phrase, .block phrase ∈ requests ∧ p = lower phrase := by
  induction requests generalizing m with
  | nil => simp [after]
  | cons request requests ih =>
    have hrest : (m.after (request :: requests)) = (m.answer request).after requests := rfl
    rw [hrest, ih, mem_blocked_answer, or_assoc]
    refine or_congr_right ⟨?_, ?_⟩
    · rintro (⟨phrase, rfl, hp⟩ | ⟨phrase, hin, hp⟩)
      · exact ⟨phrase, List.mem_cons_self, hp⟩
      · exact ⟨phrase, List.mem_cons_of_mem _ hin, hp⟩
    · rintro ⟨phrase, hin, hp⟩
      rcases List.mem_cons.1 hin with hhere | hthere
      · exact Or.inl ⟨phrase, hhere.symm, hp⟩
      · exact Or.inr ⟨phrase, hthere, hp⟩

/-- A line is stopped if, in lower case, it contains a blocked phrase. -/
theorem stops_iff {m : Moderation} {message : ChatMessage} :
    m.stops message = true ↔ ∃ p ∈ m.blocked, contains (lower message.text) p = true := by
  rw [stops, List.any_eq_true]

/-- A phrase that is blocked stays so, so that every line is stopped that contains it in
lower case. -/
theorem stops_of_contains (m : Moderation) {requests : List Request} {phrase : String}
    {message : ChatMessage} (hblocked : .block phrase ∈ requests)
    (hcontains : contains (lower message.text) (lower phrase) = true) :
    (m.after requests).stops message = true :=
  stops_iff.2 ⟨lower phrase, mem_blocked_after.2 (Or.inr ⟨phrase, hblocked, rfl⟩), hcontains⟩

/-- A blocked phrase stops every line it stands in between texts that leave its capital sigmas their
forms, whatever else is asked of the moderation before and after. -/
theorem stops_of_block (m : Moderation) {requests : List Request} {front phrase back : String}
    {message : ChatMessage} (hblocked : .block phrase ∈ requests)
    (htext : message.text = front ++ phrase ++ back) (hforms : KeepsSigmas front phrase back) :
    (m.after requests).stops message = true := by
  refine stops_of_contains m hblocked ?_
  rw [htext]
  exact contains_lower hforms

/-- A phrase that ends behind its sigma stops a Greek word that it stands in. -/
theorem stops_between_greek :
    Request.block "ΟΔΟΣ!" ∈ [.block "ΟΔΟΣ!", .unignore "alice"] ∧
      KeepsSigmas "ΠΑΡ" "ΟΔΟΣ!" "Α" ∧
      (({} : Moderation).after [.block "ΟΔΟΣ!", .unignore "alice"]).stops
        { sender := ⟨"1", "alice"⟩, text := "ΠΑΡ" ++ "ΟΔΟΣ!" ++ "Α" } = true := by
  have hblocked : Request.block "ΟΔΟΣ!" ∈ [.block "ΟΔΟΣ!", .unignore "alice"] :=
    List.mem_cons_self
  have hforms : KeepsSigmas "ΠΑΡ" "ΟΔΟΣ!" "Α" := by decide +kernel
  exact ⟨hblocked, hforms, stops_of_block {} hblocked rfl hforms⟩

/-- The last letter of a phrase is taken for the end of a word, also where the word goes on. -/
theorem not_stops_longer_word :
    (({} : Moderation).after [.block "ΟΔΟΣ"]).stops
      { sender := ⟨"1", "alice"⟩, text := "" ++ "ΟΔΟΣ" ++ "Α" } = false := by
  decide +kernel

/-- A phrase whose capital sigmas stand between characters that are not looked through stops every
line it stands in. -/
theorem stops_of_enclosed (m : Moderation) {requests : List Request} {phrase : String}
    (hblocked : .block phrase ∈ requests)
    (henclosed : ∀ u v, phrase.toList = u ++ 'Σ' :: v →
      (∃ c ∈ u, isCaseIgnorable c = false) ∧ ∃ c ∈ v, isCaseIgnorable c = false)
    {message : ChatMessage} {front back : String} (htext : message.text = front ++ phrase ++ back) :
    (m.after requests).stops message = true := by
  refine stops_of_contains m hblocked ?_
  rw [htext]
  exact contains_lower (keepsSigmas_of_enclosed henclosed front back)

end Moderation

end ChatBot
