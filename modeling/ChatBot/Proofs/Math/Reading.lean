import ChatBot.Proofs.Math.Grammar

/-!
# Reading follows the grammar

The reader of a kind of phrase, with some levels left, against the derivations of that kind. What it
reads is a derivation that fits into the levels, and it gives up for lack of levels only where the
text leads further down than they go (`reader_outcome`). A derivation that fits is read whenever the
text behind it does not go on with it (`complete`), and where the text leads further down the reader
does give up (`reader_tooDeep`).

The two loops, of products and of sums, are one loop over the operands of a chain.
-/

set_option autoImplicit false

namespace ChatBot.Math

variable {α : Type}

/-! ## The readers -/

/-- Reads what stands one level deeper than a reader with `n` levels below it. -/
def below (A : Arithmetic α) : Nat → Reader α
  | 0 => fun _ => .error .tooDeep
  | n + 1 => signed A n

/-- One level deeper, signed powers are read. -/
theorem below_succ (A : Arithmetic α) (n : Nat) : below A (n + 1) = signed A n := rfl

/-- A signed power is read over what is read one level deeper. -/
theorem signed_eq (A : Arithmetic α) (n : Nat) : signed A n = signedOver A (below A n) := by
  cases n <;> rfl

/-- The reader of a kind of phrase with `n` levels below it. -/
def reader (A : Arithmetic α) (n : Nat) : Category → Reader α
  | .chain .sum => sum A (signed A n)
  | .chain .product => product A (signed A n)
  | .signed => signed A n
  | .power => power A (below A n)
  | .primary => primary A (below A n)

/-- Reads more operands of a chain, at most `fuel` of them, onto the value of those before. -/
def chainRest (A : Arithmetic α) (r : Rank) (operand : Reader α) : Nat → α → Reader α
  | 0, value, cs => .ok (value, cs)
  | _ + 1, value, [] => .ok (value, [])
  | fuel + 1, value, c :: cs =>
    match operator? r c with
    | none => .ok (value, c :: cs)
    | some op =>
      match operand cs with
      | .ok (v, rest) => chainRest A r operand fuel (op.apply A value v) rest
      | .error e => .error e

/-- The rest of a product is that of a chain of factors. -/
theorem productRest_eq (A : Arithmetic α) (operand : Reader α) (fuel : Nat) :
    productRest A operand fuel = chainRest A .product operand fuel := by
  induction fuel with
  | zero => rfl
  | succ fuel ih =>
    funext value cs
    cases cs with
    | nil => rfl
    | cons c cs =>
      simp only [productRest, chainRest, operator?, ih]
      split
      · rename_i heq; cases heq; rfl
      · rename_i heq; cases heq; rfl
      · rename_i heq; cases heq; rfl
      · rename_i htimes hover hmodulo
        rw [if_neg fun h : c = '*' => htimes cs (by rw [h]),
          if_neg fun h : c = '/' => hover cs (by rw [h]),
          if_neg fun h : c = '%' => hmodulo cs (by rw [h])]

/-- The rest of a sum is that of a chain of terms. -/
theorem sumRest_eq (A : Arithmetic α) (signed : Reader α) (fuel : Nat) :
    sumRest A signed fuel = chainRest A .sum (product A signed) fuel := by
  induction fuel with
  | zero => rfl
  | succ fuel ih =>
    funext value cs
    cases cs with
    | nil => rfl
    | cons c cs =>
      simp only [sumRest, chainRest, operator?, ih]
      split
      · rename_i heq; cases heq; rfl
      · rename_i heq; cases heq; rfl
      · rename_i hplus hminus
        rw [if_neg fun h : c = '+' => hplus cs (by rw [h]),
          if_neg fun h : c = '-' => hminus cs (by rw [h])]

/-- A chain is its first operand and those behind it. -/
theorem reader_chain (A : Arithmetic α) (n : Nat) (r : Rank) (cs : List Char) :
    reader A n (.chain r) cs =
      match reader A n r.operand cs with
      | .ok (v, rest) => chainRest A r (reader A n r.operand) rest.length v rest
      | .error e => .error e := by
  cases r with
  | sum =>
    rcases hfirst : product A (signed A n) cs with e | ⟨v, rest⟩ <;>
      simp only [reader, Rank.operand, Math.sum, hfirst, sumRest_eq]
  | product =>
    rcases hfirst : signed A n cs with e | ⟨v, rest⟩ <;>
      simp only [reader, Rank.operand, Math.product, hfirst, productRest_eq]

/-- Reads what stands in parentheses. -/
def inner (A : Arithmetic α) (n : Nat) : Reader α :=
  sum A (below A n)

/-- In parentheses, sums are read. -/
theorem inner_succ (A : Arithmetic α) (n : Nat) : inner A (n + 1) = reader A n (.chain .sum) := rfl

/-- Behind a sign, a signed power is read one level deeper. -/
theorem reader_sign (A : Arithmetic α) (n : Nat) (negative : Bool) (cs : List Char) :
    reader A n .signed (signChar negative :: cs) =
      match below A n cs with
      | .ok (v, rest) => .ok (if negative then A.neg v else v, rest)
      | .error e => .error e := by
  rw [reader, signed_eq]
  cases negative with
  | true => rfl
  | false =>
    change below A n cs = _
    cases below A n cs <;> rfl

/-- What does not start with a sign is a power. -/
theorem reader_unsigned (A : Arithmetic α) (n : Nat) {cs : List Char}
    (h : ∀ negative rest, cs ≠ signChar negative :: rest) :
    reader A n .signed cs = reader A n .power cs := by
  rw [reader, signed_eq]
  unfold signedOver
  split
  · exact absurd rfl (h true _)
  · exact absurd rfl (h false _)
  · rfl

/-- A signed power without a sign is a power. -/
theorem reader_unsigned_text (A : Arithmetic α) (n : Nat) (d : Derivation .power)
    (rest : List Char) : reader A n .signed (d.text ++ rest) = reader A n .power (d.text ++ rest) :=
  reader_unsigned A n fun negative cs => d.power_ne_sign negative rest cs

/-- Reads an exponent behind a base that has been read. -/
theorem reader_raised {A : Arithmetic α} {n : Nat} {cs rest : List Char} {v : α}
    (h : reader A n .primary cs = .ok (v, '^' :: rest)) :
    reader A n .power cs =
      match below A n rest with
      | .ok (e, rest) => .ok (A.pow v e, rest)
      | .error e => .error e := by
  rw [reader] at h
  rcases hraised : below A n rest with e | ⟨e, rest⟩ <;>
    simp only [reader, power, h, hraised]

/-- A primary without an exponent is a power. -/
theorem reader_plain {A : Arithmetic α} {n : Nat} {cs rest : List Char} {v : α}
    (h : reader A n .primary cs = .ok (v, rest)) (hrest : ∀ tail, rest ≠ '^' :: tail) :
    reader A n .power cs = .ok (v, rest) := by
  rw [reader] at h
  simp only [reader, power, h]

/-- In parentheses, a sum is read, and the closing one must follow. -/
theorem reader_group (A : Arithmetic α) (n : Nat) (cs : List Char) :
    reader A n .primary ('(' :: cs) =
      match inner A n cs with
      | .ok (v, ')' :: rest) => .ok (v, rest)
      | .ok (_, d :: _) => .error (.unexpectedChar d)
      | .ok (_, []) => .error .unexpectedEnd
      | .error e => .error e := rfl

/-- When the sum in parentheses could be read, the next character decides. -/
theorem reader_group_of_ok {A : Arithmetic α} {n : Nat} {cs rest : List Char} {v : α}
    (h : inner A n cs = .ok (v, rest)) :
    reader A n .primary ('(' :: cs) =
      match rest.head? with
      | some d => if d = ')' then .ok (v, rest.tail) else .error (.unexpectedChar d)
      | none => .error .unexpectedEnd := by
  rw [reader_group, h]
  cases rest with
  | nil => rfl
  | cons d rest =>
    by_cases hd : d = ')'
    · subst hd
      rfl
    · simp [hd]

/-- Digits and points, as many as there are, are read as a number. -/
theorem reader_digits (A : Arithmetic α) (n : Nat) {c : Char} (hc : isNumberChar c = true)
    (cs : List Char) :
    reader A n .primary (c :: cs) =
      match A.read? ((c :: cs).takeWhile isNumberChar) with
      | some v => .ok (v, (c :: cs).dropWhile isNumberChar)
      | none => .error (.invalidNumber (String.ofList ((c :: cs).takeWhile isNumberChar))) := by
  have hopening : c ≠ '(' := by
    rintro rfl
    exact absurd hc (by decide)
  rcases hnumber : A.read? ((c :: cs).takeWhile isNumberChar) with _ | v <;>
    simp only [reader, primary, if_neg hopening, if_pos hc, hnumber]

/-! ## What comes of reading -/

/-- Read from the front, a text leads into `n` parentheses, signs and exponents that stand around
one another; all numbers on the way can be read. -/
inductive Reaches (A : Arithmetic α) : Category → Nat → List Char → Prop where
  | here {c : Category} {cs : List Char} : Reaches A c 0 cs
  | single {r : Rank} {n : Nat} {cs : List Char} (h : Reaches A r.operand n cs) :
      Reaches A (.chain r) n cs
  | join {r : Rank} {n : Nat} {cs : List Char} {v : α} (front : Derivation (.chain r))
      (hv : front.value? A = some v) (op : Operator r) (h : Reaches A r.operand n cs) :
      Reaches A (.chain r) n (front.text ++ op.symbol :: cs)
  | unsigned {n : Nat} {cs : List Char} (h : Reaches A .power n cs) : Reaches A .signed n cs
  | sign {n : Nat} {cs : List Char} (negative : Bool) (h : Reaches A .signed n cs) :
      Reaches A .signed (n + 1) (signChar negative :: cs)
  | plain {n : Nat} {cs : List Char} (h : Reaches A .primary n cs) : Reaches A .power n cs
  | exponent {n : Nat} {cs : List Char} {v : α} (base : Derivation .primary)
      (hv : base.value? A = some v) (h : Reaches A .signed n cs) :
      Reaches A .power (n + 1) (base.text ++ '^' :: cs)
  | group {n : Nat} {cs : List Char} (h : Reaches A (.chain .sum) n cs) :
      Reaches A .primary (n + 1) ('(' :: cs)

/-- What may come of reading a kind of phrase off the front of a text with less than `n` levels: a
phrase and its value, or one of four errors. -/
inductive Outcome (A : Arithmetic α) (c : Category) (n : Nat) :
    List Char → Except MathError (α × List Char) → Prop where
  | reads (d : Derivation c) {v : α} (hv : d.value? A = some v) (hdepth : d.depth < n)
      (rest : List Char) : Outcome A c n (d.text ++ rest) (.ok (v, rest))
  | tooDeep {cs : List Char} (h : Reaches A c n cs) : Outcome A c n cs (.error .tooDeep)
  | unexpectedChar {cs : List Char} (x : Char) : Outcome A c n cs (.error (.unexpectedChar x))
  | unexpectedEnd {cs : List Char} : Outcome A c n cs (.error .unexpectedEnd)
  | invalidNumber {cs : List Char} (text : String) :
      Outcome A c n cs (.error (.invalidNumber text))

section Outcomes

variable {A : Arithmetic α} {n : Nat} {c : Category}

/-- What has been read is a phrase with the value, of the depth that there is room for. -/
theorem Outcome.exists_derivation {cs rest : List Char} {v : α}
    (h : Outcome A c n cs (.ok (v, rest))) :
    ∃ d : Derivation c, d.value? A = some v ∧ d.depth < n ∧ cs = d.text ++ rest := by
  cases h with
  | reads d hv hdepth => exact ⟨d, hv, hdepth, rfl⟩

/-- The error of a part is the error of the whole. -/
theorem Outcome.error {c' : Category} {n' : Nat} {cs cs' : List Char} {e : MathError}
    (h : Outcome A c n cs (.error e)) (hreaches : Reaches A c n cs → Reaches A c' n' cs') :
    Outcome A c' n' cs' (.error e) := by
  cases h with
  | tooDeep h => exact .tooDeep (hreaches h)
  | unexpectedChar x => exact .unexpectedChar x
  | unexpectedEnd => exact .unexpectedEnd
  | invalidNumber text => exact .invalidNumber text

/-- What may come of reading a primary, given what may come of what stands in parentheses. -/
theorem outcome_primary (hinner : ∀ cs, Outcome A (.chain .sum) n cs (inner A n cs))
    (cs : List Char) : Outcome A .primary (n + 1) cs (reader A n .primary cs) := by
  cases cs with
  | nil => exact .unexpectedEnd
  | cons x cs =>
    simp only [reader, primary]
    split
    · rename_i hx
      subst hx
      have hread := hinner cs
      rw [inner] at hread
      split
      · rename_i v rest heq
        rw [heq] at hread
        obtain ⟨d, hv, hdepth, rfl⟩ := hread.exists_derivation
        rw [← Derivation.text_group_append]
        exact .reads (.group d) hv (Nat.succ_lt_succ hdepth) rest
      · exact .unexpectedChar _
      · exact .unexpectedEnd
      · rename_i e heq
        rw [heq] at hread
        exact hread.error .group
    split
    · rename_i hx
      split
      · rename_i v hv
        have hne : (x :: cs).takeWhile isNumberChar ≠ [] := by simp [hx]
        have := Outcome.reads (n := n + 1)
          (.number _ hne (List.all_eq_true.1 List.all_takeWhile)) hv (Nat.succ_pos n)
          ((x :: cs).dropWhile isNumberChar)
        rwa [Derivation.text, List.takeWhile_append_dropWhile] at this
      · exact .invalidNumber _
    · exact .unexpectedChar x

/-- What may come of reading a power, given what may come of its base and its exponent. -/
theorem outcome_power (hprimary : ∀ cs, Outcome A .primary (n + 1) cs (reader A n .primary cs))
    (hbelow : ∀ cs, Outcome A .signed n cs (below A n cs)) (cs : List Char) :
    Outcome A .power (n + 1) cs (reader A n .power cs) := by
  have hread := hprimary cs
  simp only [reader, power] at hread ⊢
  split
  · rename_i w rest heq
    rw [heq] at hread
    obtain ⟨base, hw, hdepth, rfl⟩ := hread.exists_derivation
    have hread' := hbelow rest
    split
    · rename_i u rest' heq'
      rw [heq'] at hread'
      obtain ⟨exponent, hu, hdepth', rfl⟩ := hread'.exists_derivation
      rw [← Derivation.text_raised_append]
      refine .reads _ (by simp [Derivation.value?, hw, hu]) ?_ rest'
      simp only [Derivation.depth]
      omega
    · rename_i e heq'
      rw [heq'] at hread'
      exact hread'.error (.exponent base hw)
  · rename_i w rest _ heq
    rw [heq] at hread
    obtain ⟨base, hw, hdepth, rfl⟩ := hread.exists_derivation
    exact .reads (.plain base) hw hdepth rest
  · rename_i e heq
    rw [heq] at hread
    exact hread.error .plain

/-- What may come of reading a signed power, given what may come of what is behind its sign. -/
theorem outcome_signed (hpower : ∀ cs, Outcome A .power (n + 1) cs (reader A n .power cs))
    (hbelow : ∀ cs, Outcome A .signed n cs (below A n cs)) (cs : List Char) :
    Outcome A .signed (n + 1) cs (reader A n .signed cs) := by
  -- both signs are read alike
  have hsign (negative : Bool) (cs : List Char) : Outcome A .signed (n + 1)
      (signChar negative :: cs) (reader A n .signed (signChar negative :: cs)) := by
    have hread := hbelow cs
    rw [reader_sign]
    split
    · rename_i v rest heq
      rw [heq] at hread
      obtain ⟨d, hv, hdepth, rfl⟩ := hread.exists_derivation
      exact .reads (.sign negative d) (by simp [Derivation.value?, hv]) (Nat.succ_lt_succ hdepth)
        rest
    · rename_i e heq
      rw [heq] at hread
      exact hread.error (.sign negative)
  by_cases h : ∃ negative rest, cs = signChar negative :: rest
  · obtain ⟨negative, rest, rfl⟩ := h
    exact hsign negative rest
  · have hread := hpower cs
    rw [reader_unsigned A n fun negative rest heq => h ⟨negative, rest, heq⟩]
    cases hr : reader A n .power cs with
    | ok p =>
      rw [hr] at hread
      obtain ⟨d, hv, hdepth, rfl⟩ := hread.exists_derivation
      exact .reads (.unsigned d) hv hdepth p.2
    | error e =>
      rw [hr] at hread
      exact hread.error .unsigned

/-- The loop makes a chain longer. -/
theorem outcome_chainRest {r : Rank} {operand : Reader α}
    (hoperand : ∀ cs, Outcome A r.operand n cs (operand cs)) (fuel : Nat) {cs : List Char} {w : α}
    {front : Derivation (.chain r)} (hw : front.value? A = some w) (hdepth : front.depth < n) :
    Outcome A (.chain r) n (front.text ++ cs) (chainRest A r operand fuel w cs) := by
  induction fuel generalizing cs w front with
  | zero => exact .reads front hw hdepth cs
  | succ fuel ih =>
    cases cs with
    | nil => exact .reads front hw hdepth []
    | cons x cs =>
      simp only [chainRest]
      split
      · exact .reads front hw hdepth (x :: cs)
      · rename_i op hop
        obtain rfl := operator?_eq_some_iff.1 hop
        have hread := hoperand cs
        split
        · rename_i u rest heq
          rw [heq] at hread
          obtain ⟨d, hu, hd, rfl⟩ := hread.exists_derivation
          rw [← Derivation.text_join_append]
          refine ih (by simp [Derivation.value?, hw, hu]) ?_
          simp only [Derivation.depth]
          omega
        · rename_i e heq
          rw [heq] at hread
          exact hread.error (.join front hw op)

/-- What may come of reading a chain, given what may come of its operands. -/
theorem outcome_chain {r : Rank}
    (hoperand : ∀ cs, Outcome A r.operand (n + 1) cs (reader A n r.operand cs)) (cs : List Char) :
    Outcome A (.chain r) (n + 1) cs (reader A n (.chain r) cs) := by
  have hread := hoperand cs
  rw [reader_chain]
  split
  · rename_i w rest heq
    rw [heq] at hread
    obtain ⟨d, hw, hdepth, rfl⟩ := hread.exists_derivation
    have hvalue : (Derivation.single d).value? A = some w := hw
    exact outcome_chainRest hoperand _ hvalue hdepth
  · rename_i e heq
    rw [heq] at hread
    exact hread.error .single

/-- What may come of reading each kind of phrase, given what may come of what stands one level
deeper. -/
theorem outcome_step (hinner : ∀ cs, Outcome A (.chain .sum) n cs (inner A n cs))
    (hbelow : ∀ cs, Outcome A .signed n cs (below A n cs)) (c : Category) :
    ∀ cs, Outcome A c (n + 1) cs (reader A n c cs) := by
  have hprimary := outcome_primary hinner
  have hpower := outcome_power hprimary hbelow
  have hsigned := outcome_signed hpower hbelow
  have hproduct := outcome_chain (r := .product) hsigned
  match c with
  | .primary => exact hprimary
  | .power => exact hpower
  | .signed => exact hsigned
  | .chain .product => exact hproduct
  | .chain .sum => exact outcome_chain (r := .sum) hproduct

end Outcomes

/-- What a reader reads is a phrase that fits into its levels, and it gives up for lack of levels
only where the text leads further down. -/
theorem reader_outcome (A : Arithmetic α) (n : Nat) (c : Category) (cs : List Char) :
    Outcome A c (n + 1) cs (reader A n c cs) := by
  induction n generalizing c cs with
  | zero => exact outcome_step (fun _ => .tooDeep .here) (fun _ => .tooDeep .here) c cs
  | succ n ih => exact outcome_step (ih (.chain .sum)) (ih .signed) c cs

/-- A reader that reads anything leaves less than there was. -/
theorem reader_progress {A : Arithmetic α} {n : Nat} {c : Category} {cs rest : List Char} {v : α}
    (h : reader A n c cs = .ok (v, rest)) : rest.length < cs.length := by
  obtain ⟨d, -, -, rfl⟩ := (h ▸ reader_outcome A n c cs).exists_derivation
  have := List.length_pos_iff.2 d.text_ne_nil
  rw [List.length_append]
  omega

/-! ## What is derived is read -/

section Complete

variable {A : Arithmetic α} {n : Nat}

/-- The loop over the operands of a chain never runs out of fuel. -/
theorem chainRest_fuel (r : Rank) (c : Category) {fuel fuel' : Nat} {cs : List Char} (v : α)
    (h : cs.length ≤ fuel) (h' : cs.length ≤ fuel') :
    chainRest A r (reader A n c) fuel v cs = chainRest A r (reader A n c) fuel' v cs := by
  induction fuel generalizing fuel' cs v with
  | zero =>
    obtain rfl := List.length_eq_zero_iff.1 (Nat.le_zero.1 h)
    cases fuel' <;> rfl
  | succ fuel ih =>
    cases cs with
    | nil => cases fuel' <;> rfl
    | cons x cs =>
      cases fuel' with
      | zero => simp at h'
      | succ fuel' =>
        rw [List.length_cons, Nat.add_le_add_iff_right] at h h'
        simp only [chainRest]
        split
        · rfl
        split
        · rename_i u rest hread
          have := reader_progress hread
          exact ih _ (by omega) (by omega)
        · rfl

/-- The loop takes an operator and the operand behind it. -/
theorem chainRest_operator {r : Rank} (op : Operator r) {cs rest : List Char} {v w : α}
    (h : reader A n r.operand cs = .ok (w, rest)) :
    chainRest A r (reader A n r.operand) (op.symbol :: cs).length v (op.symbol :: cs) =
      chainRest A r (reader A n r.operand) rest.length (op.apply A v w) rest := by
  simp only [List.length_cons, chainRest, operator?_eq_some_iff.2 rfl, h]
  exact chainRest_fuel r _ _ (Nat.le_of_lt (reader_progress h)) (Nat.le_refl _)

/-- An error in the operand behind an operator is that of the chain. -/
theorem chainRest_error {r : Rank} (op : Operator r) {cs : List Char} (v : α) {e : MathError}
    (h : reader A n r.operand cs = .error e) :
    chainRest A r (reader A n r.operand) (op.symbol :: cs).length v (op.symbol :: cs) =
      .error e := by
  simp only [List.length_cons, chainRest, operator?_eq_some_iff.2 rfl, h]

/-- The loop ends where the chain does. -/
theorem chainRest_stops {r : Rank} {rest : List Char} (h : Stops (.chain r) rest)
    (operand : Reader α) (v : α) :
    chainRest A r operand rest.length v rest = .ok (v, rest) := by
  cases rest with
  | nil => rfl
  | cons x rest =>
    have hx := (stops_chain_iff.1 h).2 x rfl
    simp only [List.length_cons, chainRest, hx]

/-- The digits of a number are read as its value where it ends. -/
theorem reader_number (A : Arithmetic α) (n : Nat) {digits rest : List Char} {v : α}
    (nonempty : digits ≠ []) (spelled : ∀ x ∈ digits, isNumberChar x = true)
    (hrest : Stops .primary rest) (hv : A.read? digits = some v) :
    reader A n .primary (digits ++ rest) = .ok (v, rest) := by
  have htake := Derivation.takeWhile_number spelled hrest
  have hdrop : (digits ++ rest).dropWhile isNumberChar = rest := by
    have := List.takeWhile_append_dropWhile (p := isNumberChar) (l := digits ++ rest)
    rw [htake] at this
    exact List.append_cancel_left this
  obtain ⟨x, tail, rfl⟩ := List.exists_cons_of_ne_nil nonempty
  rw [List.cons_append] at htake hdrop ⊢
  rw [reader_digits A n (spelled x List.mem_cons_self), htake, hdrop, hv]

/-- A phrase that fits into the levels is read where the text behind it does not go on with it. -/
def Complete (A : Arithmetic α) {c : Category} (d : Derivation c) : Prop :=
  ∀ n v rest, d.depth ≤ n → d.value? A = some v → Stops c rest →
    reader A n c (d.text ++ rest) = .ok (v, rest)

/-- A chain that fits into the levels is read up to its last operand. -/
def Leads (A : Arithmetic α) {r : Rank} (d : Derivation (.chain r)) : Prop :=
  ∀ n v rest, d.depth ≤ n → d.value? A = some v → Stops r.operand rest →
    reader A n (.chain r) (d.text ++ rest) =
      chainRest A r (reader A n r.operand) rest.length v rest

/-- A chain that is read up to its last operand is read as a whole where the text does not go on
with it. -/
theorem Leads.complete {r : Rank} {d : Derivation (.chain r)} (h : Leads A d) : Complete A d := by
  intro n v rest hdepth hv hrest
  rw [h n v rest hdepth hv (stops_chain_iff.1 hrest).1, chainRest_stops hrest]

/-- A chain of one operand is read if the operand is. -/
theorem leads_single {r : Rank} {d : Derivation r.operand} (h : Complete A d) :
    Leads A (.single d) := by
  intro n v rest hdepth hv hrest
  rw [reader_chain, show (Derivation.single d).text = d.text from rfl, h n v rest hdepth hv hrest]

/-- A chain is read up to its last operand if the chain before that is, and the operand is read. -/
theorem leads_join {r : Rank} {front : Derivation (.chain r)} {d : Derivation r.operand}
    (hfront : Leads A front) (hd : Complete A d) (op : Operator r) :
    Leads A (.join front op d) := by
  intro n v rest hdepth hv hrest
  simp only [Derivation.depth, Nat.max_le] at hdepth
  simp only [Derivation.value?, Option.bind_eq_bind, Option.bind_eq_some_iff, Option.pure_def,
    Option.some.injEq] at hv
  obtain ⟨w, hw, u, hu, rfl⟩ := hv
  rw [Derivation.text_join_append, hfront n w _ hdepth.1 hw (stops_operator op _),
    chainRest_operator op (hd n u rest hdepth.2 hu hrest)]

mutual

/-- Every phrase that fits into the levels is read, by induction on its derivation. -/
theorem complete : {c : Category} → (d : Derivation c) → Complete A d
  | _, .single d => (leads_single (complete d)).complete
  | _, .join front op d => (leads_join (leads front) (complete d) op).complete
  | _, .unsigned d => by
    intro n v rest hdepth hv hrest
    exact (reader_unsigned_text A n d rest).trans (complete d n v rest hdepth hv hrest)
  | _, .sign negative d => by
    intro n v rest hdepth hv hrest
    simp only [Derivation.value?, Option.bind_eq_bind, Option.bind_eq_some_iff, Option.pure_def,
      Option.some.injEq] at hv
    obtain ⟨w, hw, rfl⟩ := hv
    cases n with
    | zero => exact absurd hdepth (Nat.not_succ_le_zero _)
    | succ n =>
      have hread := complete d n w rest (Nat.le_of_succ_le_succ hdepth) hw hrest
      rw [Derivation.text, List.cons_append, reader_sign, below_succ, ← reader, hread]
  | _, .plain d => by
    intro n v rest hdepth hv hrest
    exact reader_plain (complete d n v rest hdepth hv hrest.primary_of_power) hrest.ne_caret
  | _, .raised base exponent => by
    intro n v rest hdepth hv hrest
    simp only [Derivation.depth, Nat.max_le] at hdepth
    simp only [Derivation.value?, Option.bind_eq_bind, Option.bind_eq_some_iff, Option.pure_def,
      Option.some.injEq] at hv
    obtain ⟨w, hw, u, hu, rfl⟩ := hv
    cases n with
    | zero => exact absurd hdepth.2 (Nat.not_succ_le_zero _)
    | succ n =>
      have hbase := complete base (n + 1) w ('^' :: (exponent.text ++ rest)) hdepth.1 hw
        (stops_primary_caret _)
      have hexponent := complete exponent n u rest (Nat.le_of_succ_le_succ hdepth.2) hu hrest
      rw [Derivation.text_raised_append, reader_raised hbase, below_succ, ← reader, hexponent]
  | _, .number digits nonempty spelled => by
    intro n v rest hdepth hv hrest
    exact reader_number A n nonempty spelled hrest hv
  | _, .group d => by
    intro n v rest hdepth hv hrest
    cases n with
    | zero => exact absurd hdepth (Nat.not_succ_le_zero _)
    | succ n =>
      have hread := complete d n v (')' :: rest) (Nat.le_of_succ_le_succ hdepth) hv
        (stops_sum_closing rest)
      rw [Derivation.text_group_append, reader_group, inner_succ, hread]
      rfl

/-- Every chain that fits into the levels is read up to its last operand, by induction on its
derivation. -/
theorem leads {r : Rank} : (d : Derivation (.chain r)) → Leads A d
  | .single d => leads_single (complete d)
  | .join front op d => leads_join (leads front) (complete d) op

end

end Complete

/-! ## Where the levels run out -/

section TooDeep

variable {A : Arithmetic α}

/-- A phrase that does not fit into the levels is given up. -/
def Refused (A : Arithmetic α) {c : Category} (d : Derivation c) : Prop :=
  ∀ n v rest, n < d.depth → d.value? A = some v →
    reader A n c (d.text ++ rest) = .error .tooDeep

/-- An error in the first operand is that of the chain. -/
theorem reader_chain_error {n : Nat} {r : Rank} {cs : List Char} {e : MathError}
    (h : reader A n r.operand cs = .error e) : reader A n (.chain r) cs = .error e := by
  rw [reader_chain, h]

/-- An error in the base is that of the power. -/
theorem reader_power_error {n : Nat} {cs : List Char} {e : MathError}
    (h : reader A n .primary cs = .error e) : reader A n .power cs = .error e := by
  rw [reader] at h
  simp only [reader, power, h]

/-- A chain is given up at an operand behind it. -/
theorem reader_join_error {n : Nat} {r : Rank} {front : Derivation (.chain r)} {v : α}
    (hfront : Refused A front) (hv : front.value? A = some v) (op : Operator r) {cs : List Char}
    (h : reader A n r.operand cs = .error .tooDeep) :
    reader A n (.chain r) (front.text ++ op.symbol :: cs) = .error .tooDeep := by
  by_cases hdepth : front.depth ≤ n
  · rw [leads front n v _ hdepth hv (stops_operator op _), chainRest_error op v h]
  · exact hfront n v _ (Nat.lt_of_not_le hdepth) hv

/-- A base that fits, with an exponent that leads too deep, is given up. -/
theorem reader_exponent_error {n : Nat} {base : Derivation .primary} {v : α}
    (hbase : Refused A base) (hv : base.value? A = some v) {cs : List Char}
    (h : below A n cs = .error .tooDeep) :
    reader A n .power (base.text ++ '^' :: cs) = .error .tooDeep := by
  by_cases hdepth : base.depth ≤ n
  · rw [reader_raised (complete base n v _ hdepth hv (stops_primary_caret _)), h]
  · exact reader_power_error (hbase n v _ (Nat.lt_of_not_le hdepth) hv)

/-- Every phrase that does not fit into the levels is given up, by induction on its derivation. -/
theorem refused {c : Category} (d : Derivation c) : Refused A d := by
  induction d with
  | single d ih => exact fun n v rest h hv => reader_chain_error (ih n v rest h hv)
  | join front op d ihfront ih =>
    intro n v rest h hv
    simp only [Derivation.value?, Option.bind_eq_bind, Option.bind_eq_some_iff, Option.pure_def,
      Option.some.injEq] at hv
    obtain ⟨w, hw, u, hu, rfl⟩ := hv
    rw [Derivation.text_join_append]
    by_cases hd : n < d.depth
    · exact reader_join_error ihfront hw op (ih n u rest hd hu)
    · refine ihfront n w _ ?_ hw
      simp only [Derivation.depth] at h
      omega
  | unsigned d ih =>
    intro n v rest h hv
    exact (reader_unsigned_text A n d rest).trans (ih n v rest h hv)
  | sign negative d ih =>
    intro n v rest h hv
    simp only [Derivation.value?, Option.bind_eq_bind, Option.bind_eq_some_iff, Option.pure_def,
      Option.some.injEq] at hv
    obtain ⟨w, hw, rfl⟩ := hv
    rw [Derivation.text, List.cons_append, reader_sign]
    cases n with
    | zero => rfl
    | succ n => rw [below_succ, ← reader, ih n w rest (Nat.lt_of_succ_lt_succ h) hw]
  | plain d ih => exact fun n v rest h hv => reader_power_error (ih n v rest h hv)
  | raised base exponent ihbase ih =>
    intro n v rest h hv
    simp only [Derivation.value?, Option.bind_eq_bind, Option.bind_eq_some_iff, Option.pure_def,
      Option.some.injEq] at hv
    obtain ⟨w, hw, u, hu, rfl⟩ := hv
    rw [Derivation.text_raised_append]
    by_cases hexponent : n ≤ exponent.depth
    · refine reader_exponent_error ihbase hw ?_
      cases n with
      | zero => rfl
      | succ n => exact ih n u rest hexponent hu
    · refine reader_power_error (ihbase n w _ ?_ hw)
      simp only [Derivation.depth] at h
      omega
  | number digits nonempty spelled => exact fun n v rest h => absurd h (Nat.not_lt_zero n)
  | group d ih =>
    intro n v rest h hv
    rw [Derivation.text_group_append, reader_group]
    cases n with
    | zero => rfl
    | succ n => rw [inner_succ, ih n v _ (Nat.lt_of_succ_lt_succ h) hv]

/-- What leads down behind no sign starts with none. -/
theorem Reaches.ne_sign {n : Nat} {cs : List Char} (h : Reaches A .power (n + 1) cs)
    (negative : Bool) (rest : List Char) : cs ≠ signChar negative :: rest := by
  cases h with
  | plain h =>
    cases h with
    | group h => cases negative <;> simp [signChar]
  | @exponent _ cs _ base hv h =>
    exact (Derivation.plain base).power_ne_sign negative ('^' :: cs) rest

/-- A reader gives up where the text leads below its levels. -/
theorem reader_tooDeep {c : Category} {k : Nat} {cs : List Char} (h : Reaches A c k cs) {n : Nat}
    (hn : n < k) : reader A n c cs = .error .tooDeep := by
  induction h generalizing n with
  | here => exact absurd hn (Nat.not_lt_zero n)
  | single h ih => exact reader_chain_error (ih hn)
  | join front hv op h ih => exact reader_join_error (refused front) hv op (ih hn)
  | @unsigned k cs h ih =>
    cases k with
    | zero => exact absurd hn (Nat.not_lt_zero n)
    | succ k => exact (reader_unsigned A n h.ne_sign).trans (ih hn)
  | sign negative h ih =>
    rw [reader_sign]
    cases n with
    | zero => rfl
    | succ n => rw [below_succ, ← reader, ih (Nat.lt_of_succ_lt_succ hn)]
  | plain h ih => exact reader_power_error (ih hn)
  | exponent base hv h ih =>
    refine reader_exponent_error (refused base) hv ?_
    cases n with
    | zero => rfl
    | succ n => exact ih (Nat.lt_of_succ_lt_succ hn)
  | group h ih =>
    rw [reader_group]
    cases n with
    | zero => rfl
    | succ n => rw [inner_succ, ih (Nat.lt_of_succ_lt_succ hn)]

end TooDeep

end ChatBot.Math
