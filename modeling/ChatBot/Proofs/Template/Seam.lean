import ChatBot.Proofs.Template.Grammar
import ChatBot.Proofs.Template.Lexing

/-!
# Templates put together

Two template texts in a row are read one after the other if the first one is *finished*: it does not
end in a character that may belong together with what follows (`Ends`), and it leaves no parenthesis
open (`unclosed`). Then its tokens are followed by those of the second text (`tokens_append`).

The nodes need not follow each other in the same way, for plain text on both sides of the seam is
one literal. Main statement: the nodes of the two texts are those of the first, and behind them,
joined with the plain text that these end with, those of the second (`parse_append`). So a
parenthesis that the second text leaves open makes plain text of that text alone.
-/

set_option autoImplicit false

namespace ChatBot.Template

/-! ## Tokens across the seam -/

/-- The text does not end in a backslash, a dollar sign, a mark of references or a character of
identifiers. -/
def Ends (cs : List Char) : Prop :=
  ∀ c ∈ cs.getLast?, c ∉ ['\\', '$', '!', '_'] ∧ Text.isAsciiAlnum c = false

instance (cs : List Char) : Decidable (Ends cs) :=
  decidable_of_iff (cs.getLast?.all fun c =>
    decide (c ∉ ['\\', '$', '!', '_'] ∧ Text.isAsciiAlnum c = false)) (by
      unfold Ends
      cases cs.getLast? <;> simp)

/-- Where a text may be cut behind it, a later part of it may, too. -/
theorem Ends.of_append {front back : List Char} (h : Ends (front ++ back)) : Ends back := by
  intro c hc
  apply h
  rw [List.getLast?_append, hc]
  rfl

/-- Where a text may be cut behind it, the text without its first character may, too. -/
theorem Ends.of_cons {c : Char} {cs : List Char} (h : Ends (c :: cs)) : Ends cs := by
  rw [← List.singleton_append] at h
  exact h.of_append

/-- A text that ends has something behind each of its backslashes and dollar signs. -/
theorem Ends.ne_nil {c : Char} {cs : List Char} (h : Ends (c :: cs)) (hc : c ∈ ['\\', '$']) :
    cs ≠ [] := by
  rintro rfl
  have hmarks : ['\\', '$'] ⊆ ['\\', '$', '!', '_'] := by decide
  exact (h c rfl).1 (hmarks hc)

/-- The characters of a reference behind its dollar sign. -/
def IsReferenceChar (c : Char) : Prop :=
  c = '!' ∨ isIdentifierChar c = true

/-- A text that ends does not end within a reference. -/
theorem Ends.not_beginning {cs reference : List Char} (h : Ends cs) (hne : cs ≠ [])
    (hreference : ∀ c ∈ reference, IsReferenceChar c) : ¬ cs <+: reference := by
  intro hfront
  have hlast := List.getLast?_eq_some_getLast hne
  obtain ⟨hnot, halnum⟩ := h _ hlast
  simp only [List.mem_cons, List.not_mem_nil, or_false, not_or] at hnot
  obtain ⟨-, -, hbang, hunderscore⟩ := hnot
  rcases hreference _ (hfront.subset (List.getLast_mem hne)) with hmark | hidentifier
  · exact hbang hmark
  · unfold isIdentifierChar at hidentifier
    rw [halnum, Bool.false_or, beq_iff_eq] at hidentifier
    exact hunderscore hidentifier

section Refers

variable {cs identifier behind : List Char} {silent persisted : Bool}

/-- The marks and the identifier of a reference are made of its characters. -/
theorem Refers.isReferenceChar (h : Refers cs silent persisted identifier behind) :
    ∀ c ∈ (if silent then ['!'] else []) ++ (if persisted then ['_'] else []) ++ identifier,
      IsReferenceChar c := by
  intro c hc
  rcases List.mem_append.1 hc with hc | hc
  · rcases List.mem_append.1 hc with hc | hc
    · left
      cases silent with
      | true => exact List.mem_singleton.1 hc
      | false => cases hc
    · right
      cases persisted with
      | true =>
        obtain rfl := List.mem_singleton.1 hc
        rfl
      | false => cases hc
  · exact .inr (h.spelled c hc)

/-- A reference within a text that ends is one whatever follows the text. -/
theorem Refers.append (h : Refers cs silent persisted identifier behind) (ends : Ends cs)
    (more : List Char) : Refers (cs ++ more) silent persisted identifier (behind ++ more) where
  text := by rw [h.text, List.append_assoc _ behind]
  marked := h.marked
  named := h.named
  spelled := h.spelled
  longest := by
    cases behind with
    | cons c rest => exact h.longest
    | nil =>
      have hcs := h.text
      rw [List.append_nil] at hcs
      have hne : cs ≠ [] := by
        rw [hcs]
        exact fun hnil => h.named (List.append_eq_nil_iff.1 hnil).2
      exact absurd (hcs ▸ List.prefix_rfl) (ends.not_beginning hne h.isReferenceChar)

/-- What follows a text that ends makes no reference of what is none within the text. -/
theorem Refers.of_append {more : List Char}
    (h : Refers (cs ++ more) silent persisted identifier behind) (ends : Ends cs) (hne : cs ≠ []) :
    ∃ rest, Refers cs silent persisted identifier rest := by
  rcases List.append_eq_append_iff.1 h.text with ⟨rest, hreference, -⟩ | ⟨rest, hcs, hbehind⟩
  · have hfront := List.prefix_append cs rest
    rw [← hreference] at hfront
    exact absurd hfront (ends.not_beginning hne h.isReferenceChar)
  · refine ⟨rest, hcs, h.marked, h.named, h.spelled, fun c hc => ?_⟩
    apply h.longest
    rw [hbehind, List.head?_append, hc]
    rfl

end Refers

/-- Cutting a text that ends does not depend on what follows it. -/
theorem Lexes.append {cs more : List Char} {ts us : List Token} (h : Lexes Refers cs ts)
    (ends : Ends cs) (hmore : Lexes Refers more us) : Lexes Refers (cs ++ more) (ts ++ us) := by
  -- what follows matters only where a rule looks beyond what it reads
  induction h with
  | done => exact hmore
  | escaped escapable rest ih => exact .escaped escapable (ih ends.of_cons.of_cons)
  | @backslash cs ts lone rest ih =>
    obtain ⟨d, ds, rfl⟩ := List.exists_cons_of_ne_nil (ends.ne_nil (by simp))
    exact .backslash lone (ih ends.of_cons)
  | opening rest ih => exact .opening (ih ends.of_cons)
  | closing rest ih => exact .closing (ih ends.of_cons)
  | bar rest ih => exact .bar (ih ends.of_cons)
  | reference refers rest ih =>
    have hbehind := ends.of_cons
    rw [refers.text] at hbehind
    exact .reference (refers.append ends.of_cons more) (ih hbehind.of_append)
  | dollar lone rest ih =>
    refine .dollar (fun silent persisted identifier behind refers => ?_) (ih ends.of_cons)
    obtain ⟨rest, hrefers⟩ := refers.of_append ends.of_cons (ends.ne_nil (by simp))
    exact lone silent persisted identifier rest hrefers
  | plain other rest ih => exact .plain other (ih ends.of_cons)

/-- The tokens of a text that ends are followed by those of the next text. -/
theorem tokens_append {cs : List Char} (ends : Ends cs) (more : List Char) :
    tokens (cs ++ more) = tokens cs ++ tokens more :=
  ((lexes_tokens cs).append ends (lexes_tokens more)).eq_tokens.symm

/-! ## Parentheses that are open -/

/-- How many parentheses are open behind a token if `n` are open in front of it. A parenthesis that
closes nothing is plain text. -/
def Token.unclosed (n : Nat) : Token → Nat
  | opening => n + 1
  | closing => n - 1
  | _ => n

/-- How many parentheses tokens leave open. -/
def unclosed (ts : List Token) : Nat :=
  ts.foldl Token.unclosed 0

namespace Builder

/-- A token opens and closes as many regions as it opens and closes parentheses. -/
theorem length_stack_step (b : Builder) (t : Token) :
    (b.step t).stack.length = t.unclosed b.stack.length := by
  obtain ⟨root, stack⟩ := b
  cases stack with
  | nil => cases t <;> rfl
  | cons top below =>
    cases t with
    | closing => cases below <;> rfl
    | opening => rfl
    | char c escaped => rfl
    | reference silent persisted identifier => rfl
    | bar => rfl

/-- The stack holds a region for each parenthesis that is open. -/
theorem length_stack_foldl (ts : List Token) (b : Builder) :
    (ts.foldl step b).stack.length = ts.foldl Token.unclosed b.stack.length := by
  induction ts generalizing b with
  | nil => rfl
  | cons t ts ih => rw [List.foldl_cons, List.foldl_cons, ih, length_stack_step]

end Builder

/-! ## Nodes across the seam -/

/-- **Templates put together.** Behind a text that is finished another one is parsed as it would be
alone; only plain text on both sides of the seam becomes one literal. -/
theorem parse_append {front : String} (ends : Ends front.toList)
    (closed : unclosed (tokens front.toList) = 0) :
    ∃ nodes text, parse front = nodes ++ addText text [] ∧
      ∀ back, parse (front ++ back) = nodes ++ addText text (parse back) := by
  have hstack : ((tokens front.toList).foldl Builder.step {}).stack = [] := by
    rw [← List.length_eq_zero_iff, Builder.length_stack_foldl]
    exact closed
  obtain ⟨root, hroot⟩ : ∃ root, (tokens front.toList).foldl Builder.step {} = ⟨root, []⟩ :=
    ⟨_, congrArg (Builder.mk _) hstack⟩
  refine ⟨root.nodes.reverse, root.literal.reverse, ?_, fun back => ?_⟩
  · have hfinish := Builder.finish_eq root []
    rw [parse, ofTokens, hroot, hfinish]
    rfl
  · have hback : parse back = template (tokens back.toList) := ofTokens_eq_template _
    rw [hback, parse, ofTokens, String.toList_append, tokens_append ends, List.foldl_append, hroot,
      Builder.finish_foldl]
    rfl

end ChatBot.Template
