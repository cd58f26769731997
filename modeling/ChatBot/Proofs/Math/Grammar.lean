import ChatBot.Math.Expression

/-!
# The grammar of expressions

What expressions are, told without reading them: a `Derivation` is a tree that says how a text is
made by the rules

```
sum     = product | sum ('+' | '-') product
product = signed | product ('*' | '/' | '%') signed
signed  = power | ('-' | '+') signed
power   = primary | primary '^' signed
primary = number | '(' sum ')'
```

A derivation has a text, a depth, which is the greatest number of parentheses, signs and exponents
that stand around one of its parts, and a value if all of its numbers can be read. Sums and
products are both *chains* of operands, which group to the left.

Main statement: a text has one derivation at most (`Derivation.text_injective`). A derivation that
is followed by more text can be told from its beginning as long as the text behind it cannot go on
with it (`Stops`); for chains it is shown first that of two of them that start the same text one
goes on where the other ends (`Derivation.Extends`).
-/

set_option autoImplicit false

namespace ChatBot.Math

variable {α : Type}

/-! ## Derivations -/

/-- The two kinds of chains. -/
inductive Rank where
  | sum
  | product

/-- The kinds of phrases. -/
inductive Category where
  | chain (r : Rank)
  | signed
  | power
  | primary

/-- What the operands of a chain are. -/
def Rank.operand : Rank → Category
  | sum => .chain .product
  | product => .signed

/-- The operators of a chain. -/
inductive Operator : Rank → Type where
  | plus : Operator .sum
  | minus : Operator .sum
  | times : Operator .product
  | divided : Operator .product
  | modulo : Operator .product

namespace Operator

variable {r : Rank}

/-- The character that an operator is written with. -/
def symbol : Operator r → Char
  | plus => '+'
  | minus => '-'
  | times => '*'
  | divided => '/'
  | modulo => '%'

/-- What an operator computes. -/
def apply (A : Arithmetic α) : Operator r → α → α → α
  | plus => A.add
  | minus => A.sub
  | times => A.mul
  | divided => A.div
  | modulo => A.rem

end Operator

/-- The ways to make a phrase of each kind. -/
inductive Derivation : Category → Type where
  | single {r : Rank} (operand : Derivation r.operand) : Derivation (.chain r)
  /-- A chain with one more operand behind it. -/
  | join {r : Rank} (front : Derivation (.chain r)) (op : Operator r)
      (operand : Derivation r.operand) : Derivation (.chain r)
  | unsigned (d : Derivation .power) : Derivation .signed
  | sign (negative : Bool) (d : Derivation .signed) : Derivation .signed
  | plain (d : Derivation .primary) : Derivation .power
  | raised (base : Derivation .primary) (exponent : Derivation .signed) : Derivation .power
  /-- A run of digits and points. -/
  | number (digits : List Char) (nonempty : digits ≠ [])
      (spelled : ∀ c ∈ digits, isNumberChar c = true) : Derivation .primary
  | group (d : Derivation (.chain .sum)) : Derivation .primary

/-- The character of a sign. -/
def signChar (negative : Bool) : Char :=
  if negative then '-' else '+'

/-- The two signs have different characters. -/
theorem signChar_inj {negative negative' : Bool} (h : signChar negative = signChar negative') :
    negative = negative' := by
  revert h
  cases negative <;> cases negative' <;> decide

namespace Derivation

variable {c : Category}

/-- The text that a derivation makes. -/
def text : {c : Category} → Derivation c → List Char
  | _, single d => d.text
  | _, join front op d => front.text ++ op.symbol :: d.text
  | _, unsigned d => d.text
  | _, sign negative d => signChar negative :: d.text
  | _, plain d => d.text
  | _, raised base exponent => base.text ++ '^' :: exponent.text
  | _, number digits _ _ => digits
  | _, group d => '(' :: (d.text ++ [')'])

/-- The greatest number of parentheses, signs and exponents around a part. -/
def depth : {c : Category} → Derivation c → Nat
  | _, single d => d.depth
  | _, join front _ d => max front.depth d.depth
  | _, unsigned d => d.depth
  | _, sign _ d => d.depth + 1
  | _, plain d => d.depth
  | _, raised base exponent => max base.depth (exponent.depth + 1)
  | _, number _ _ _ => 0
  | _, group d => d.depth + 1

/-- The value of a derivation, if all numbers in it can be read. -/
def value? (A : Arithmetic α) : {c : Category} → Derivation c → Option α
  | _, single d => d.value? A
  | _, join front op d => do return op.apply A (← front.value? A) (← d.value? A)
  | _, unsigned d => d.value? A
  | _, sign negative d => do
    let v ← d.value? A
    return if negative then A.neg v else v
  | _, plain d => d.value? A
  | _, raised base exponent => do return A.pow (← base.value? A) (← exponent.value? A)
  | _, number digits _ _ => A.read? digits
  | _, group d => d.value? A

/-- No phrase is empty. -/
theorem text_ne_nil (d : Derivation c) : d.text ≠ [] := by
  induction d with
  | single d ih => exact ih
  | unsigned d ih => exact ih
  | plain d ih => exact ih
  | number digits nonempty spelled => exact nonempty
  | _ => simp [text]

end Derivation

/-! ## What may follow a phrase -/

/-- The operator that a character stands for in a chain. -/
def operator? : (r : Rank) → Char → Option (Operator r)
  | .sum, c => if c = '+' then some .plus else if c = '-' then some .minus else none
  | .product, c =>
    if c = '*' then some .times
    else if c = '/' then some .divided
    else if c = '%' then some .modulo
    else none

/-- The operator that a character stands for is the one that is written with it. -/
theorem operator?_eq_some_iff {r : Rank} {c : Char} {op : Operator r} :
    operator? r c = some op ↔ c = op.symbol := by
  constructor
  · intro h
    cases r with
    | sum =>
      simp only [operator?] at h
      split at h
      · cases h; assumption
      split at h
      · cases h; assumption
      · cases h
    | product =>
      simp only [operator?] at h
      split at h
      · cases h; assumption
      split at h
      · cases h; assumption
      split at h
      · cases h; assumption
      · cases h
  · rintro rfl
    cases op <;> rfl

/-- Operators of a chain have different characters. -/
theorem Operator.symbol_inj {r : Rank} {op op' : Operator r} (h : op.symbol = op'.symbol) :
    op = op' :=
  Option.some.inj ((operator?_eq_some_iff.2 rfl).symm.trans (operator?_eq_some_iff.2 h))

/-- Whether a phrase may go on with a character, right behind it. -/
def Category.goesOnWith : Category → Char → Bool
  | primary, c => isNumberChar c
  | power, c => isNumberChar c || c == '^'
  | signed, c => isNumberChar c || c == '^'
  | chain .product, c => isNumberChar c || c == '^' || (operator? .product c).isSome
  | chain .sum, c =>
    isNumberChar c || c == '^' || (operator? .product c).isSome || (operator? .sum c).isSome

/-- A phrase ends in front of a text: the text does not go on with it. -/
def Stops (c : Category) (rest : List Char) : Prop :=
  ∀ x ∈ rest.head?, c.goesOnWith x = false

/-- Every phrase may end where the text does. -/
theorem stops_nil (c : Category) : Stops c [] := by
  simp [Stops]

/-- A phrase ends in front of a character that it does not go on with. -/
theorem stops_cons {c : Category} {x : Char} {rest : List Char} :
    Stops c (x :: rest) ↔ c.goesOnWith x = false := by
  simp [Stops]

/-- An operand ends in front of an operator of its chain. -/
theorem stops_operator {r : Rank} (op : Operator r) (rest : List Char) :
    Stops r.operand (op.symbol :: rest) := by
  rw [stops_cons]
  cases op <;> rfl

/-- A phrase that goes on with fewer characters ends in more places. -/
theorem Stops.mono {c c' : Category} {rest : List Char} (h : Stops c rest)
    (hcc : ∀ x, c.goesOnWith x = false → c'.goesOnWith x = false) : Stops c' rest :=
  fun x hx => hcc x (h x hx)

/-- Where a chain ends its last operand ends, and no operator follows. -/
theorem stops_chain_iff {r : Rank} {rest : List Char} :
    Stops (.chain r) rest ↔ Stops r.operand rest ∧ ∀ x ∈ rest.head?, operator? r x = none := by
  cases rest with
  | nil => simp [Stops]
  | cons x rest => cases r <;> simp [stops_cons, Rank.operand, Category.goesOnWith]

/-- Where a power ends, a primary ends. -/
theorem Stops.primary_of_power {rest : List Char} (h : Stops .power rest) : Stops .primary rest :=
  h.mono fun x hx => by simp_all [Category.goesOnWith]

/-- A primary ends in front of an exponent. -/
theorem stops_primary_caret (cs : List Char) : Stops .primary ('^' :: cs) :=
  stops_cons.2 rfl

/-- A sum ends in front of a closing parenthesis. -/
theorem stops_sum_closing (cs : List Char) : Stops (.chain .sum) (')' :: cs) :=
  stops_cons.2 rfl

/-- Where a power ends, no exponent follows. -/
theorem Stops.ne_caret {rest : List Char} (h : Stops .power rest) (cs : List Char) :
    rest ≠ '^' :: cs := by
  rintro rfl
  exact absurd (stops_cons.1 h) (by decide)

/-! ## One derivation at most -/

namespace Derivation

variable {r : Rank}

/-- A chain starts with another one. -/
inductive Extends : Derivation (.chain r) → Derivation (.chain r) → Prop where
  | refl {d : Derivation (.chain r)} : Extends d d
  | join {front d : Derivation (.chain r)} (h : Extends front d) (op : Operator r)
      (operand : Derivation r.operand) : Extends front (.join d op operand)

/-- A chain that goes on goes on with an operator. -/
theorem Extends.eq_or_text {front d : Derivation (.chain r)} (h : Extends front d) :
    front = d ∨ ∃ (op : Operator r) (cs : List Char), d.text = front.text ++ op.symbol :: cs := by
  induction h with
  | refl => exact .inl rfl
  | join h op operand ih =>
    refine .inr ?_
    obtain rfl | ⟨op', cs, hd⟩ := ih
    · exact ⟨op, operand.text, rfl⟩
    · exact ⟨op', cs ++ op.symbol :: operand.text, by simp [text, hd]⟩

/-- Chains that start with one another are the same. -/
theorem Extends.antisymm {d d' : Derivation (.chain r)} (h : Extends d d') (h' : Extends d' d) :
    d = d' := by
  obtain rfl | ⟨op, cs, hd⟩ := h.eq_or_text
  · rfl
  obtain rfl | ⟨op', cs', hd'⟩ := h'.eq_or_text
  · rfl
  have := congrArg List.length hd
  have := congrArg List.length hd'
  simp only [List.length_append, List.length_cons] at *
  omega

/-- A derivation is determined by what it starts, wherever it ends. -/
def Determined {c : Category} (d : Derivation c) : Prop :=
  ∀ (d' : Derivation c) (rest rest' : List Char), d.text ++ rest = d'.text ++ rest' →
    Stops c rest → Stops c rest' → d = d'

/-- Of two chains that start the same text, one starts with the other. -/
def Comparable (d : Derivation (.chain r)) : Prop :=
  ∀ (d' : Derivation (.chain r)) (rest rest' : List Char), d.text ++ rest = d'.text ++ rest' →
    Stops r.operand rest → Stops r.operand rest' → Extends d d' ∨ Extends d' d

/-- The text of a chain, in front of anything, is that of the chain before its last operand, the
operator and the operand. -/
theorem text_join_append (front : Derivation (.chain r)) (op : Operator r)
    (operand : Derivation r.operand) (rest : List Char) :
    (join front op operand).text ++ rest = front.text ++ op.symbol :: (operand.text ++ rest) := by
  simp [text]

/-- The text of a power, in front of anything, is that of its base, the caret and the exponent. -/
theorem text_raised_append (base : Derivation .primary) (exponent : Derivation .signed)
    (rest : List Char) :
    (raised base exponent).text ++ rest = base.text ++ '^' :: (exponent.text ++ rest) := by
  simp [text]

/-- The text of a group, in front of anything, is that of the sum in its parentheses. -/
theorem text_group_append (d : Derivation (.chain .sum)) (rest : List Char) :
    (group d).text ++ rest = '(' :: (d.text ++ ')' :: rest) := by
  simp [text]

/-- A chain starts with its first operand. -/
theorem extends_of_single {d : Derivation r.operand} (h : d.Determined) :
    ∀ (d' : Derivation (.chain r)) (rest rest' : List Char), (single d).text ++ rest =
      d'.text ++ rest' → Stops r.operand rest → Stops r.operand rest' → Extends (single d) d'
  | single d', rest, rest', htext, hrest, hrest' => by
    rw [h d' rest rest' htext hrest hrest']
    exact .refl
  | join front op operand, rest, rest', htext, hrest, _ => by
    rw [text_join_append] at htext
    exact (extends_of_single h front rest _ htext hrest (stops_operator op _)).join op operand

/-- A chain of one operand can be compared with any other one. -/
theorem comparable_single {d : Derivation r.operand} (h : d.Determined) :
    (single d).Comparable :=
  fun d' rest rest' htext hrest hrest' =>
    .inl (extends_of_single h d' rest rest' htext hrest hrest')

/-- Behind a chain that starts with another one there is the same operand as behind that one. -/
theorem comparable_join {front : Derivation (.chain r)} {operand : Derivation r.operand}
    (hfront : front.Comparable) (hoperand : operand.Determined) (op : Operator r) :
    (join front op operand).Comparable := by
  intro d' rest rest' htext hrest hrest'
  have htext' := htext
  rw [text_join_append] at htext'
  obtain h | h := hfront d' _ rest' htext' (stops_operator op _) hrest'
  · clear htext'
    induction h generalizing rest' with
    | refl => exact .inr (.join .refl op operand)
    | @join d h op' operand' ih =>
      have htext' := htext
      rw [text_join_append d] at htext'
      obtain h' | h' := ih _ htext' (stops_operator op' _)
      · exact .inl (h'.join op' operand')
      · cases h' with
        | refl => exact .inl (.join .refl op' operand')
        | join h' =>
          obtain rfl := h.antisymm h'
          rw [text_join_append, List.append_cancel_left_eq, List.cons.injEq] at htext'
          obtain rfl := Operator.symbol_inj htext'.1
          obtain rfl := hoperand operand' rest rest' htext'.2 hrest hrest'
          exact .inl .refl
  · exact .inr (h.join op operand)

/-- Where neither of two comparable chains can go on, they are the same. -/
theorem Comparable.determined {d : Derivation (.chain r)} (h : d.Comparable) : d.Determined := by
  have ended {d d' : Derivation (.chain r)} {rest rest' : List Char}
      (htext : d.text ++ rest = d'.text ++ rest') (hrest : Stops (.chain r) rest)
      (h : Extends d d') : d = d' := by
    obtain heq | ⟨op, cs, hd'⟩ := h.eq_or_text
    · exact heq
    · rw [hd', List.append_assoc, List.append_cancel_left_eq] at htext
      have := (stops_chain_iff.1 hrest).2 op.symbol (by simp [htext])
      rw [operator?_eq_some_iff.2 rfl] at this
      cases this
  intro d' rest rest' htext hrest hrest'
  obtain h | h := h d' rest rest' htext (stops_chain_iff.1 hrest).1 (stops_chain_iff.1 hrest').1
  · exact ended htext hrest h
  · exact (ended htext.symm hrest' h).symm

/-- A primary starts with a parenthesis, a digit or a point. -/
theorem primary_head (d : Derivation .primary) :
    ∃ x cs, d.text = x :: cs ∧ (x = '(' ∨ isNumberChar x = true) := by
  cases d with
  | number digits nonempty spelled =>
    obtain ⟨x, cs, rfl⟩ := List.exists_cons_of_ne_nil nonempty
    exact ⟨x, cs, rfl, .inr (spelled x List.mem_cons_self)⟩
  | group d => exact ⟨_, _, rfl, .inl rfl⟩

/-- A power starts with a parenthesis or with a character of a number. -/
theorem power_head (d : Derivation .power) :
    ∃ x cs, d.text = x :: cs ∧ (x = '(' ∨ isNumberChar x = true) := by
  cases d with
  | plain d => exact d.primary_head
  | raised base exponent =>
    obtain ⟨x, cs, htext, hx⟩ := base.primary_head
    exact ⟨x, cs ++ '^' :: exponent.text, by simp [text, htext], hx⟩

/-- A power does not start with a sign. -/
theorem power_ne_sign (d : Derivation .power) (negative : Bool) (rest cs : List Char) :
    d.text ++ rest ≠ signChar negative :: cs := by
  obtain ⟨x, tail, htext, hx⟩ := d.power_head
  rw [htext]
  rintro ⟨⟩
  revert hx
  cases negative <;> decide

/-- A run of digits and points does not start with a parenthesis. -/
theorem number_ne_group {digits : List Char} (nonempty : digits ≠ [])
    (spelled : ∀ x ∈ digits, isNumberChar x = true) (rest cs : List Char) :
    digits ++ rest ≠ '(' :: cs := by
  obtain ⟨x, tail, rfl⟩ := List.exists_cons_of_ne_nil nonempty
  rintro ⟨⟩
  exact absurd (spelled '(' List.mem_cons_self) (by decide)

/-- Where a run of digits and points stops, it is the longest one. -/
theorem takeWhile_number {digits rest : List Char} (spelled : ∀ x ∈ digits, isNumberChar x = true)
    (hrest : Stops .primary rest) : (digits ++ rest).takeWhile isNumberChar = digits := by
  rw [List.takeWhile_append_of_pos spelled]
  cases rest with
  | nil => simp
  | cons x rest =>
    have hx : isNumberChar x = false := stops_cons.1 hrest
    simp [hx]

mutual

/-- Every derivation is determined by what it starts, by induction on the derivation. -/
theorem determined : {c : Category} → (d : Derivation c) → d.Determined
  | _, single d => (comparable_single (determined d)).determined
  | _, join front op d => (comparable_join (comparable front) (determined d) op).determined
  | _, unsigned d => by
    intro d' rest rest' htext hrest hrest'
    cases d' with
    | unsigned d' => exact congrArg unsigned (determined d d' rest rest' htext hrest hrest')
    | sign negative d' => exact absurd htext (d.power_ne_sign negative rest _)
  | _, sign negative d => by
    intro d' rest rest' htext hrest hrest'
    cases d' with
    | unsigned d' => exact absurd htext.symm (d'.power_ne_sign negative rest' _)
    | sign negative' d' =>
      obtain ⟨hsign, htail⟩ := List.cons.inj htext
      obtain rfl := signChar_inj hsign
      exact congrArg (sign negative) (determined d d' rest rest' htail hrest hrest')
  | _, plain d => by
    intro d' rest rest' htext hrest hrest'
    cases d' with
    | plain d' =>
      exact congrArg plain
        (determined d d' rest rest' htext hrest.primary_of_power hrest'.primary_of_power)
    | raised base exponent =>
      -- a power that is not raised has no caret behind it
      rw [text_raised_append] at htext
      obtain rfl := determined d base rest _ htext hrest.primary_of_power (stops_primary_caret _)
      exact absurd (List.append_cancel_left htext) (hrest.ne_caret _)
  | _, raised base exponent => by
    intro d' rest rest' htext hrest hrest'
    rw [text_raised_append] at htext
    cases d' with
    | plain d' =>
      obtain rfl := determined base d' _ rest' htext (stops_primary_caret _) hrest'.primary_of_power
      exact absurd (List.append_cancel_left htext).symm (hrest'.ne_caret _)
    | raised base' exponent' =>
      rw [text_raised_append] at htext
      obtain rfl := determined base base' _ _ htext (stops_primary_caret _) (stops_primary_caret _)
      have htail := (List.cons.inj (List.append_cancel_left htext)).2
      exact congrArg (raised base) (determined exponent exponent' rest rest' htail hrest hrest')
  | _, number digits nonempty spelled => by
    intro d' rest rest' htext hrest hrest'
    cases d' with
    | number digits' nonempty' spelled' =>
      have hdigits := takeWhile_number spelled hrest
      rw [show digits ++ rest = digits' ++ rest' from htext, takeWhile_number spelled' hrest']
        at hdigits
      subst hdigits
      rfl
    | group d' => exact absurd htext (number_ne_group nonempty spelled rest _)
  | _, group d => by
    intro d' rest rest' htext hrest hrest'
    cases d' with
    | number digits nonempty spelled =>
      exact absurd htext.symm (number_ne_group nonempty spelled rest' _)
    | group d' =>
      rw [text_group_append, text_group_append] at htext
      have htail := (List.cons.inj htext).2
      exact congrArg group
        (determined d d' _ _ htail (stops_sum_closing rest) (stops_sum_closing rest'))

/-- Of two chains that start the same text, one starts with the other, by induction on
one of them. -/
theorem comparable {r : Rank} : (d : Derivation (.chain r)) → d.Comparable
  | single d => comparable_single (determined d)
  | join front op d => comparable_join (comparable front) (determined d) op

end

/-- **A text has one derivation at most.** -/
theorem text_injective {c : Category} {d d' : Derivation c} (h : d.text = d'.text) : d = d' :=
  determined d d' [] [] (by simp [h]) (stops_nil c) (stops_nil c)

end Derivation

end ChatBot.Math
