import ChatBot.Template.Token

/-!
# How a template text is cut into tokens

The cutting rules as a relation between texts and token lists, `Lexes`, with one clause for each
kind of token and no order of trial between the clauses. Main statement: the tokenizer gives the
one token list that the rules allow (`lexes_iff`).

The only rule that looks ahead is that of references, and `Lexes` is told over any such rule. The
rule that the tokenizer follows is `Refers`. A mark counts whenever it stands in its place, so an
underscore right behind the dollar sign, or behind its exclamation mark, always makes the reference
persisted and is never the start of the identifier; and the identifier takes all identifier
characters there are. It is the longest match of the two optional marks and an identifier
(`LongestMatch`), but for one case: the match does not go back on a mark, so that an underscore with
no identifier behind it is no reference (`refers_iff_longestMatch`).
-/

set_option autoImplicit false

namespace ChatBot.Template

/-- A rule for references: which texts behind a dollar sign start with the rest of a reference, by
its exclamation mark, its underscore, its identifier, and what is left behind it. -/
abbrev ReferenceRule := List Char → Bool → Bool → List Char → List Char → Prop

/-- The text behind a dollar sign starts with a match of an optional exclamation mark, an optional
underscore and an identifier, and with no longer one. -/
structure LongestMatch (cs : List Char) (silent persisted : Bool) (identifier rest : List Char) :
    Prop where
  /-- The exclamation mark, the underscore and the identifier follow each other. -/
  text : cs = (if silent then ['!'] else []) ++ (if persisted then ['_'] else []) ++ identifier ++
    rest
  named : identifier ≠ []
  spelled : ∀ c ∈ identifier, isIdentifierChar c = true
  /-- It stops where no identifier character follows. -/
  longest : ∀ c ∈ rest.head?, isIdentifierChar c = false
  /-- An underscore in the place of the mark is the mark, if that leaves an identifier. -/
  greedy : persisted = false → identifier.head? = some '_' → identifier = ['_']

/-- The text behind a dollar sign starts with the rest of a reference: the marks, and as long an
identifier as there is. -/
structure Refers (cs : List Char) (silent persisted : Bool) (identifier rest : List Char) :
    Prop where
  /-- The exclamation mark, the underscore and the identifier follow each other. -/
  text : cs = (if silent then ['!'] else []) ++ (if persisted then ['_'] else []) ++ identifier ++
    rest
  /-- An underscore in the place of the mark is the mark. -/
  marked : persisted = false → identifier.head? ≠ some '_'
  named : identifier ≠ []
  spelled : ∀ c ∈ identifier, isIdentifierChar c = true
  /-- It stops where no identifier character follows. -/
  longest : ∀ c ∈ rest.head?, isIdentifierChar c = false

/-- The text is cut into the tokens, with a rule for references. -/
inductive Lexes (Rule : ReferenceRule) : List Char → List Token → Prop where
  | done : Lexes Rule [] []
  /-- A backslash makes one of five characters plain text. -/
  | escaped {d : Char} {cs : List Char} {ts : List Token}
      (escapable : d ∈ ['(', ')', '$', '|', '\\']) (rest : Lexes Rule cs ts) :
      Lexes Rule ('\\' :: d :: cs) (.char d true :: ts)
  /-- Any other backslash is plain text itself. -/
  | backslash {cs : List Char} {ts : List Token}
      (lone : ∀ d ∈ cs.head?, d ∉ ['(', ')', '$', '|', '\\'])
      (rest : Lexes Rule cs ts) : Lexes Rule ('\\' :: cs) (.char '\\' false :: ts)
  | opening {cs : List Char} {ts : List Token} (rest : Lexes Rule cs ts) :
      Lexes Rule ('(' :: cs) (.opening :: ts)
  | closing {cs : List Char} {ts : List Token} (rest : Lexes Rule cs ts) :
      Lexes Rule (')' :: cs) (.closing :: ts)
  | bar {cs : List Char} {ts : List Token} (rest : Lexes Rule cs ts) :
      Lexes Rule ('|' :: cs) (.bar :: ts)
  | reference {cs identifier behind : List Char} {silent persisted : Bool} {ts : List Token}
      (refers : Rule cs silent persisted identifier behind) (rest : Lexes Rule behind ts) :
      Lexes Rule ('$' :: cs) (.reference silent persisted identifier :: ts)
  /-- Any other dollar sign is plain text. -/
  | dollar {cs : List Char} {ts : List Token}
      (lone : ∀ silent persisted identifier behind, ¬ Rule cs silent persisted identifier behind)
      (rest : Lexes Rule cs ts) : Lexes Rule ('$' :: cs) (.char '$' false :: ts)
  /-- All other characters are plain text. -/
  | plain {c : Char} {cs : List Char} {ts : List Token} (other : c ∉ ['\\', '(', ')', '|', '$'])
      (rest : Lexes Rule cs ts) : Lexes Rule (c :: cs) (.char c false :: ts)

/-! ## References -/

/-- The characters that a backslash escapes are the marks of templates and the backslash itself. -/
theorem isEscapable_iff (c : Char) : isEscapable c = true ↔ c ∈ ['(', ')', '$', '|', '\\'] := by
  simp [isEscapable, or_assoc]

/-- A mark that stands there is taken, and no other character is. -/
theorem takeChar_spec (c : Char) (cs : List Char) :
    cs = (if (takeChar c cs).1 then [c] else []) ++ (takeChar c cs).2 ∧
      ((takeChar c cs).1 = false → (takeChar c cs).2.head? ≠ some c) := by
  cases cs with
  | nil => exact ⟨rfl, fun _ => by simp [takeChar]⟩
  | cons d ds =>
    rw [takeChar]
    split
    · rename_i h
      exact ⟨by simp [h], fun h => by cases h⟩
    · rename_i h
      exact ⟨rfl, fun _ => by simpa using h⟩

/-- A character that may stand in front of a text is taken off it. -/
theorem takeChar_append {c : Char} {taken : Bool} {cs : List Char}
    (h : taken = false → cs.head? ≠ some c) :
    takeChar c ((if taken then [c] else []) ++ cs) = (taken, cs) := by
  cases taken with
  | true => exact if_pos rfl
  | false =>
    cases cs with
    | nil => rfl
    | cons d ds => exact if_neg (by simpa using h rfl)

/-- What stops a run of characters does not belong to it. -/
theorem head?_dropWhile_not {p : Char → Bool} (cs : List Char) :
    ∀ c ∈ (cs.dropWhile p).head?, p c = false := by
  intro c hc
  have h := List.head?_dropWhile_not p cs
  rw [Option.mem_def] at hc
  simpa [hc] using h

/-- The scanner finds the references that the rules allow. -/
theorem Refers.referenceAt?_eq {cs identifier behind : List Char} {silent persisted : Bool}
    (h : Refers cs silent persisted identifier behind) :
    referenceAt? cs = some (.reference silent persisted identifier) := by
  obtain ⟨c, tail, hid⟩ := List.exists_cons_of_ne_nil h.named
  have hc : isIdentifierChar c = true := h.spelled c (hid ▸ List.mem_cons_self)
  have hunderscore : persisted = false → (identifier ++ behind).head? ≠ some '_' := by
    simpa [hid] using h.marked
  have hbang : silent = false →
      ((if persisted then ['_'] else []) ++ (identifier ++ behind)).head? ≠ some '!' := by
    intro _
    cases persisted with
    | true => simp
    | false =>
      rw [hid]
      rintro heq
      obtain rfl : c = '!' := by simpa using heq
      exact absurd hc (by decide)
  have htake : (identifier ++ behind).takeWhile isIdentifierChar = identifier := by
    rw [List.takeWhile_append_of_pos h.spelled]
    cases behind with
    | nil => simp
    | cons d ds => simp [h.longest d rfl]
  have htext := h.text
  rw [List.append_assoc, List.append_assoc] at htext
  rw [referenceAt?, htext, takeChar_append hbang]
  dsimp only
  rw [takeChar_append hunderscore]
  dsimp only
  rw [htake, if_neg (by simpa using h.named)]

/-- The references that the scanner finds are those that the rules allow. -/
theorem refers_of_referenceAt? {cs : List Char} {t : Token} (h : referenceAt? cs = some t) :
    ∃ silent persisted identifier behind, t = .reference silent persisted identifier ∧
      Refers cs silent persisted identifier behind := by
  obtain ⟨hbang, -⟩ := takeChar_spec '!' cs
  obtain ⟨hunderscore, hmark⟩ := takeChar_spec '_' (takeChar '!' cs).2
  rw [referenceAt?] at h
  dsimp only at h
  split at h
  · cases h
  · rename_i hne
    refine ⟨_, _, _, (takeChar '_' (takeChar '!' cs).2).2.dropWhile isIdentifierChar,
      (Option.some.inj h).symm, ?_, ?_, by simpa using hne, ?_, head?_dropWhile_not _⟩
    · rw [List.append_assoc, List.takeWhile_append_dropWhile, List.append_assoc, ← hunderscore,
        ← hbang]
    · intro hp
      have hhead := hmark hp
      cases hcs : (takeChar '_' (takeChar '!' cs).2).2 with
      | nil => simp
      | cons c ds =>
        rw [hcs] at hhead
        rw [List.takeWhile_cons]
        split
        · exact hhead
        · simp
    · exact List.all_eq_true.1 List.all_takeWhile

/-- References are the longest matches, apart from an underscore that has no identifier
behind it. -/
theorem refers_iff_longestMatch {cs identifier behind : List Char} {silent persisted : Bool} :
    Refers cs silent persisted identifier behind ↔
      LongestMatch cs silent persisted identifier behind ∧
        (persisted = false → identifier ≠ ['_']) := by
  constructor
  · intro h
    refine ⟨⟨h.text, h.named, h.spelled, h.longest, fun hp hhead => ?_⟩, ?_⟩
    · exact absurd hhead (h.marked hp)
    · rintro hp rfl
      exact h.marked hp rfl
  · rintro ⟨h, halone⟩
    exact ⟨h.text, fun hp hhead => halone hp (h.greedy hp hhead), h.named, h.spelled, h.longest⟩

/-- What a reference takes off the text, apart from the dollar sign. -/
theorem Refers.drop {cs identifier behind : List Char} {silent persisted : Bool}
    (h : Refers cs silent persisted identifier behind) :
    cs.drop ((Token.reference silent persisted identifier).raw.length - 1) = behind := by
  rw [h.text]
  refine List.drop_left' ?_
  cases silent <;> cases persisted <;> simp [Token.raw, Token.referenceText]

/-! ## The tokenizer -/

/-- Skipping characters is leaving them out. -/
theorem tokensFrom_eq_drop (skip : Nat) (cs : List Char) :
    tokensFrom skip cs = tokens (cs.drop skip) := by
  induction cs generalizing skip with
  | nil => cases skip <;> simp [tokens, tokensFrom]
  | cons c cs ih =>
    cases skip with
    | zero => rfl
    | succ n => rw [tokensFrom, ih, List.drop_succ_cons]

/-- Behind a backslash, the next character decides. -/
theorem tokens_backslash {cs : List Char} :
    tokens ('\\' :: cs) = match cs with
      | d :: ds =>
        if isEscapable d then .char d true :: tokens ds else .char '\\' false :: tokens cs
      | [] => [.char '\\' false] := by
  cases cs with
  | nil => rfl
  | cons d ds =>
    simp only [tokens, tokensFrom, if_true]

/-- Behind a dollar sign, a reference is looked for. -/
theorem tokens_dollar {cs : List Char} :
    tokens ('$' :: cs) = match referenceAt? cs with
      | some t => t :: tokens (cs.drop (t.raw.length - 1))
      | none => .char '$' false :: tokens cs := by
  rw [tokens, tokensFrom.eq_def]
  simp only [tokensFrom_eq_drop]
  rfl

/-- Any other character stands for itself. -/
theorem tokens_plain {c : Char} {cs : List Char} (h : c ∉ ['\\', '(', ')', '|', '$']) :
    tokens (c :: cs) = .char c false :: tokens cs := by
  simp only [List.mem_cons, List.not_mem_nil, or_false, not_or] at h
  obtain ⟨hbackslash, hopening, hclosing, hbar, hdollar⟩ := h
  rw [tokens, tokensFrom.eq_def]
  simp only [hbackslash, hopening, hclosing, hbar, hdollar, if_false]
  rfl

/-- The rules allow only what the tokenizer gives. -/
theorem Lexes.eq_tokens {cs : List Char} {ts : List Token} (h : Lexes Refers cs ts) :
    ts = tokens cs := by
  induction h with
  | done => rfl
  | @escaped d cs ts escapable rest ih =>
    rw [tokens_backslash, ih]
    exact (if_pos ((isEscapable_iff d).2 escapable)).symm
  | @backslash cs ts lone rest ih =>
    rw [tokens_backslash, ih]
    cases cs with
    | nil => rfl
    | cons d ds => exact (if_neg fun h => lone d rfl ((isEscapable_iff d).1 h)).symm
  | opening rest ih => rw [ih]; rfl
  | closing rest ih => rw [ih]; rfl
  | bar rest ih => rw [ih]; rfl
  | reference refers rest ih =>
    rw [tokens_dollar, refers.referenceAt?_eq, ih, ← refers.drop]
  | @dollar cs ts lone rest ih =>
    rw [tokens_dollar, ih]
    cases h : referenceAt? cs with
    | none => rfl
    | some t =>
      obtain ⟨silent, persisted, identifier, behind, -, refers⟩ := refers_of_referenceAt? h
      exact (lone _ _ _ _ refers).elim
  | plain other rest ih => rw [tokens_plain other, ih]

/-- Behind a reference no more characters are left. -/
theorem Refers.length_le {cs identifier behind : List Char} {silent persisted : Bool}
    (h : Refers cs silent persisted identifier behind) : behind.length ≤ cs.length := by
  rw [h.text]
  simp only [List.length_append]
  omega

/-- The rules allow what the tokenizer gives. -/
theorem lexes_tokens (cs : List Char) : Lexes Refers cs (tokens cs) := by
  -- A token may take several characters at once, so the induction is on the length.
  induction hn : cs.length using Nat.strongRecOn generalizing cs with
  | ind n ih =>
    subst hn
    cases cs with
    | nil => exact .done
    | cons c cs =>
      have next (ds : List Char) (h : ds.length ≤ cs.length) : Lexes Refers ds (tokens ds) :=
        ih ds.length (Nat.lt_succ_of_le h) ds rfl
      have here := next cs (Nat.le_refl _)
      by_cases hplain : c ∉ ['\\', '(', ')', '|', '$']
      · rw [tokens_plain hplain]
        exact .plain hplain here
      · rw [Decidable.not_not] at hplain
        simp only [List.mem_cons, List.not_mem_nil, or_false] at hplain
        rcases hplain with rfl | rfl | rfl | rfl | rfl
        · rw [tokens_backslash]
          cases cs with
          | nil => exact .backslash (fun _ h => by cases h) .done
          | cons d ds =>
            dsimp only
            split
            · rename_i h
              exact .escaped ((isEscapable_iff d).1 h) (next ds (Nat.le_succ _))
            · rename_i h
              refine .backslash (fun e he => ?_) here
              obtain rfl : d = e := by simpa using he
              exact fun hmem => h ((isEscapable_iff d).2 hmem)
        · exact .opening here
        · exact .closing here
        · exact .bar here
        · rw [tokens_dollar]
          cases href : referenceAt? cs with
          | some t =>
            obtain ⟨silent, persisted, identifier, behind, rfl, refers⟩ :=
              refers_of_referenceAt? href
            dsimp only
            rw [refers.drop]
            exact .reference refers (next behind refers.length_le)
          | none =>
            refine .dollar (fun silent persisted identifier behind refers => ?_) here
            rw [refers.referenceAt?_eq] at href
            cases href

/-- No cutting loses anything of the text. -/
theorem Lexes.flatMap_raw {cs : List Char} {ts : List Token} (h : Lexes Refers cs ts) :
    ts.flatMap Token.raw = cs := by
  induction h with
  | done => rfl
  | escaped escapable rest ih => rw [List.flatMap_cons, ih]; rfl
  | backslash lone rest ih => rw [List.flatMap_cons, ih]; rfl
  | opening rest ih => rw [List.flatMap_cons, ih]; rfl
  | closing rest ih => rw [List.flatMap_cons, ih]; rfl
  | bar rest ih => rw [List.flatMap_cons, ih]; rfl
  | reference refers rest ih =>
    rw [List.flatMap_cons, ih, refers.text]
    simp [Token.raw, Token.referenceText]
  | dollar lone rest ih => rw [List.flatMap_cons, ih]; rfl
  | plain other rest ih => rw [List.flatMap_cons, ih]; rfl

/-- **The tokenizer follows the cutting rules.** -/
theorem lexes_iff (cs : List Char) (ts : List Token) : Lexes Refers cs ts ↔ ts = tokens cs := by
  constructor
  · exact Lexes.eq_tokens
  · rintro rfl
    exact lexes_tokens cs

end ChatBot.Template
