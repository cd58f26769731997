import ChatBot.Proofs.Math.Reading

/-!
# Reading with a position and a counter

Expressions read in another way: there is one list of characters, a position in it, and one counter
of the parentheses, signs and exponents that are open. The counter is raised in front of what stands
deeper and lowered behind it, and nothing may stand deeper than the limit. Here some steps may be at
*fault*, which is no error of the expression: taking a piece out of the list whose ends are not in
order or not in the list, and lowering a counter that stands at zero.

Main statement: nothing is ever at fault, and the outcome is that of the reader for the levels that
are left (`track_eq`); what reads anything moves the position on and leaves the counter as it was.
-/

set_option autoImplicit false

namespace ChatBot.Math

variable {α β : Type}

/-- Where reading stands. -/
structure Cursor where
  position : Nat := 0
  /-- How many parentheses, signs and exponents are open. -/
  depth : Nat := 0

/-- A part of the reading that moves the cursor. It may end in an error, and it may be at fault,
which is `none`. -/
abbrev Track := StateT Cursor (ExceptT MathError Option)

namespace Track

/-- A step that is at fault. -/
def fault : Track α := fun _ => none

/-- The character at the cursor. -/
def peek (cs : List Char) : Track (Option Char) := do
  return cs[(← get).position]?

/-- Moves on by one character. -/
def advance : Track Unit :=
  modify fun s => { s with position := s.position + 1 }

/-- Raises the counter, unless that is too deep. -/
def descend : Track Unit := do
  modify fun s => { s with depth := s.depth + 1 }
  if maxLevels < (← get).depth then throw .tooDeep

/-- Lowers the counter; it must not stand at zero. -/
def ascend : Track Unit := do
  let s ← get
  if s.depth = 0 then fault else set { s with depth := s.depth - 1 }

/-- The characters from a position up to another; both must be in the list, and in order. -/
def slice (cs : List Char) (start stop : Nat) : Track (List Char) :=
  if start ≤ stop ∧ stop ≤ cs.length then return (cs.take stop).drop start else fault

/-- Reads what stands one level deeper. -/
def nested (t : Track α) : Track α := do
  descend
  let v ← t
  ascend
  return v

/-- Moves on behind a run of digits and points, of at most `fuel` characters. -/
def skipNumber (cs : List Char) : Nat → Track Unit
  | 0 => return ()
  | fuel + 1 => do
    if (← peek cs).any isNumberChar then
      advance
      skipNumber cs fuel

/-- Reads a number or a sum in parentheses. -/
def primary (A : Arithmetic α) (cs : List Char) (sum : Track α) : Track α := do
  match ← peek cs with
  | none => throw .unexpectedEnd
  | some c =>
    if c = '(' then
      advance
      let v ← nested sum
      match ← peek cs with
      | some c => if c = ')' then do advance; return v else throw (.unexpectedChar c)
      | none => throw .unexpectedEnd
    else if isNumberChar c then
      let start := (← get).position
      skipNumber cs cs.length
      let digits ← slice cs start (← get).position
      match A.read? digits with
      | some v => return v
      | none => throw (.invalidNumber (String.ofList digits))
    else throw (.unexpectedChar c)

/-- Reads a primary with an optional exponent. -/
def power (A : Arithmetic α) (cs : List Char) (primary signed : Track α) : Track α := do
  let v ← primary
  if (← peek cs) = some '^' then
    advance
    return A.pow v (← nested signed)
  else return v

/-- Reads a power behind any signs. -/
def signed (A : Arithmetic α) (cs : List Char) (power signed : Track α) : Track α := do
  match ← peek cs with
  | some c =>
    if c = '-' then do advance; return A.neg (← nested signed)
    else if c = '+' then do advance; nested signed
    else power
  | none => power

/-- Reads more operands of a chain, at most `fuel` of them, onto the value of those before. -/
def chainRest (A : Arithmetic α) (cs : List Char) (r : Rank) (operand : Track α) :
    Nat → α → Track α
  | 0, v => return v
  | fuel + 1, v => do
    match (← peek cs).bind (operator? r) with
    | some op =>
      advance
      chainRest A cs r operand fuel (op.apply A v (← operand))
    | none => return v

/-- Reads the operands of a chain. -/
def chain (A : Arithmetic α) (cs : List Char) (r : Rank) (operand : Track α) : Track α := do
  chainRest A cs r operand cs.length (← operand)

end Track

/-- Reads a kind of phrase, where `again` reads the signed powers that stand deeper. -/
def trackOver (A : Arithmetic α) (cs : List Char) (again : Track α) (c : Category) : Track α :=
  let primary := Track.primary A cs (Track.chain A cs .sum (Track.chain A cs .product again))
  let power := Track.power A cs primary again
  let signed := Track.signed A cs power again
  let product := Track.chain A cs .product signed
  match c with
  | .primary => primary
  | .power => power
  | .signed => signed
  | .chain .product => product
  | .chain .sum => Track.chain A cs .sum product

/-- Reads a signed power, with at most `calls` of them one inside another. -/
def trackSigned (A : Arithmetic α) (cs : List Char) : Nat → Track α
  | 0 => Track.fault
  | calls + 1 => trackOver A cs (trackSigned A cs calls) .signed

/-- Reads a kind of phrase with a cursor. The limit of the counter is met before the calls run
out. -/
def track (A : Arithmetic α) (cs : List Char) (c : Category) : Track α :=
  trackOver A cs (trackSigned A cs maxLevels) c

/-- The value of an expression, read with a cursor. -/
def trackEvaluate (A : Arithmetic α) (text : String) : Option (Except MathError α) :=
  let cs := text.toList.filter fun c => !Text.isBlank c
  match track A cs (.chain .sum) {} with
  | some (.ok (v, s)) =>
    match cs[s.position]? with
    | some c => some (.error (.unexpectedChar c))
    | none => some (if A.isFinite v then .ok v else .error .notFinite)
  | some (.error e) => some (.error e)
  | none => none

/-! ## Running the steps -/

namespace Track

variable {t : Track α} {f : α → Track β} {s s' : Cursor} {v : α}

/-- A part that succeeds hands its value and the cursor on. -/
theorem bind_ok (h : t s = some (.ok (v, s'))) : (t >>= f) s = f v s' := by
  change (t s >>= _) = _
  rw [h]
  rfl

/-- An error of the first part is that of the whole. -/
theorem bind_error {e : MathError} (h : t s = some (.error e)) :
    (t >>= f) s = some (.error e) := by
  change (t s >>= _) = _
  rw [h]
  rfl

/-- Reading the cursor gives it. -/
theorem get_eq (s : Cursor) : (get : Track Cursor) s = some (.ok (s, s)) := rfl

/-- The character at the cursor, if there is one. -/
theorem peek_eq (cs : List Char) (s : Cursor) :
    peek cs s = some (.ok (cs[s.position]?, s)) := rfl

/-- Advancing moves the cursor by one. -/
theorem advance_eq (s : Cursor) :
    advance s = some (.ok ((), { s with position := s.position + 1 })) := rfl

/-- Descending raises the counter below the limit. -/
theorem descend_eq {s : Cursor} (h : s.depth < maxLevels) :
    descend s = some (.ok ((), { s with depth := s.depth + 1 })) := by
  change (if maxLevels < s.depth + 1 then throw .tooDeep else pure () : Track Unit)
    { s with depth := s.depth + 1 } = _
  rw [if_neg (by omega)]
  rfl

/-- Descending is an error at the limit. -/
theorem descend_error {s : Cursor} (h : maxLevels ≤ s.depth) :
    descend s = some (.error .tooDeep) := by
  change (if maxLevels < s.depth + 1 then throw .tooDeep else pure () : Track Unit)
    { s with depth := s.depth + 1 } = _
  rw [if_pos (by omega)]
  rfl

/-- Ascending lowers a counter that does not stand at zero. -/
theorem ascend_eq (p k : Nat) : ascend ⟨p, k + 1⟩ = some (.ok ((), ⟨p, k⟩)) := rfl

/-- A slice within the bounds is the characters between them. -/
theorem slice_eq {cs : List Char} {start stop : Nat} (h : start ≤ stop ∧ stop ≤ cs.length)
    (s : Cursor) : slice cs start stop s = some (.ok ((cs.take stop).drop start, s)) := by
  rw [slice, if_pos h]
  rfl

end Track

/-! ## The two ways of reading -/

section Tracks

variable {A : Arithmetic α} {cs : List Char} {k n : Nat}

/-- An outcome of reading with a cursor is that of reading without one: the cursor stands in front
of the rest, and the counter at `k`. -/
inductive Tracked (cs : List Char) (k : Nat) :
    Except MathError (α × List Char) → Option (Except MathError (α × Cursor)) → Prop where
  | reads (v : α) {used rest : List Char} (h : cs = used ++ rest) :
      Tracked cs k (.ok (v, rest)) (some (.ok (v, ⟨used.length, k⟩)))
  | fails (e : MathError) : Tracked cs k (.error e) (some (.error e))

/-- With the counter at `k`, a part of the reading does what a reader does, wherever it starts. -/
def Tracks (cs : List Char) (k : Nat) (t : Track α) (R : Reader α) : Prop :=
  ∀ used rest, cs = used ++ rest → Tracked cs k (R rest) (t ⟨used.length, k⟩)

/-- Two parts in a row, of which the first has gone as it does without a cursor. -/
theorem Tracked.bind {res : Except MathError (α × List Char)} {t : Track α} {s : Cursor}
    (h : Tracked cs k res (t s)) {res' : Except MathError (β × List Char)} {f : α → Track β}
    (hreads : ∀ v used rest, cs = used ++ rest → res = .ok (v, rest) →
      Tracked cs k res' (f v ⟨used.length, k⟩))
    (hfails : ∀ e, res = .error e → res' = .error e) : Tracked cs k res' ((t >>= f) s) := by
  generalize ht : t s = out at h
  cases h with
  | reads v h =>
    rw [Track.bind_ok ht]
    exact hreads v _ _ h rfl
  | fails e =>
    rw [Track.bind_error ht, hfails e rfl]
    exact .fails e

/-- The character at the cursor is the first one of the rest. -/
theorem peek_at {used rest : List Char} (hcs : cs = used ++ rest) :
    Track.peek cs ⟨used.length, k⟩ = some (.ok (rest.head?, ⟨used.length, k⟩)) := by
  rw [Track.peek_eq, hcs, List.getElem?_append_right (Nat.le_refl _), Nat.sub_self,
    List.head?_eq_getElem?]

/-- A character is the part of the list that the cursor moves over. -/
theorem append_cons (used : List Char) (c : Char) (rest : List Char) :
    used ++ c :: rest = used ++ [c] ++ rest := by
  simp

/-- With the counter and the levels that are left making up the limit, reading one level deeper
meets the limit just where the levels run out. -/
theorem tracks_nested {t : Track α} {R : Nat → Reader α} (hnk : n + k = maxLevels)
    (hzero : ∀ cs, R 0 cs = .error .tooDeep)
    (hsucc : ∀ m, n = m + 1 → Tracks cs (k + 1) t (R (m + 1))) :
    Tracks cs k (Track.nested t) (R n) := by
  intro used rest hcs
  cases n with
  | zero =>
    have hlast : maxLevels ≤ k := by omega
    rw [hzero, Track.nested, Track.bind_error (Track.descend_error (s := ⟨used.length, k⟩) hlast)]
    exact .fails _
  | succ m =>
    have hleft : k < maxLevels := by omega
    rw [Track.nested, Track.bind_ok (Track.descend_eq (s := ⟨used.length, k⟩) hleft)]
    have h := hsucc m rfl used rest hcs
    generalize R (m + 1) rest = res at h ⊢
    generalize ht : t ⟨used.length, k + 1⟩ = out at h
    cases h with
    | reads v h =>
      rw [Track.bind_ok ht, Track.bind_ok (Track.ascend_eq _ _)]
      exact .reads v h
    | fails e =>
      rw [Track.bind_error ht]
      exact .fails e

/-- The cursor moves on over a character. -/
theorem advance_append (used : List Char) (c : Char) :
    Track.advance ⟨used.length, k⟩ = some (.ok ((), ⟨(used ++ [c]).length, k⟩)) := by
  rw [Track.advance_eq, List.length_append]
  rfl

/-- The cursor is moved behind the characters of a number. -/
theorem skipNumber_eq {fuel : Nat} {used rest : List Char} (h : rest.length ≤ fuel) :
    Track.skipNumber (used ++ rest) fuel ⟨used.length, k⟩ =
      some (.ok ((), ⟨(used ++ rest.takeWhile isNumberChar).length, k⟩)) := by
  -- what has been read grows by each character, so it varies with what is left
  induction fuel generalizing used rest with
  | zero =>
    obtain rfl := List.length_eq_zero_iff.1 (Nat.le_zero.1 h)
    rw [List.takeWhile_nil, List.append_nil]
    rfl
  | succ fuel ih =>
    rw [Track.skipNumber, Track.bind_ok (peek_at rfl)]
    cases rest with
    | nil =>
      rw [List.takeWhile_nil, List.append_nil]
      rfl
    | cons c rest =>
      rw [List.head?_cons, Option.any_some]
      cases hc : isNumberChar c with
      | true =>
        have hmore : Track.skipNumber ((used ++ [c]) ++ rest) fuel ⟨(used ++ [c]).length, k⟩ =
            some (.ok ((), ⟨((used ++ [c]) ++ rest.takeWhile isNumberChar).length, k⟩)) :=
          ih (Nat.le_of_succ_le_succ h)
        rw [if_pos rfl, Track.bind_ok (advance_append used c), append_cons used c rest, hmore,
          List.takeWhile_cons_of_pos hc, append_cons used c (rest.takeWhile _)]
      | false =>
        rw [if_neg Bool.false_ne_true, List.takeWhile_cons_of_neg (by simp [hc]), List.append_nil]
        rfl

/-- The slice between two positions of the cursor is what has been read between them. -/
theorem slice_at {used piece rest : List Char} (hcs : cs = used ++ piece ++ rest) (s : Cursor) :
    Track.slice cs used.length (used ++ piece).length s = some (.ok (piece, s)) := by
  rw [Track.slice_eq (by simp [hcs]), hcs, List.take_left, List.drop_left]

/-- A group is read with a cursor as without one. -/
theorem tracks_group {sum : Track α} (hsum : Tracks cs k (Track.nested sum) (inner A n))
    {used rest : List Char} (hcs : cs = used ++ '(' :: rest) :
    Tracked cs k (reader A n .primary ('(' :: rest)) (Track.primary A cs sum ⟨used.length, k⟩) := by
  rw [Track.primary, Track.bind_ok (peek_at hcs)]
  change Tracked _ k _ ((Track.advance >>= _) _)
  rw [Track.bind_ok (advance_append used '(')]
  refine (hsum (used ++ ['(']) rest (by rw [hcs, append_cons])).bind ?_ ?_
  · intro v used' rest' hcs' hres
    rw [reader_group_of_ok hres, Track.bind_ok (peek_at hcs')]
    cases rest' with
    | nil => exact .fails _
    | cons d rest' =>
      simp only [List.head?_cons, List.tail_cons]
      split
      · rw [Track.bind_ok (advance_append used' d)]
        exact .reads v (by rw [hcs', append_cons])
      · exact .fails _
  · intro e hres
    rw [reader_group, hres]

/-- Digits are read with a cursor as without one. -/
theorem tracks_digits {sum : Track α} {c : Char} (hc : isNumberChar c = true)
    {used rest : List Char} (hcs : cs = used ++ c :: rest) :
    Tracked cs k (reader A n .primary (c :: rest)) (Track.primary A cs sum ⟨used.length, k⟩) := by
  have hopening : c ≠ '(' := by
    rintro rfl
    exact absurd hc (by decide)
  have hsplit : cs = used ++ (c :: rest).takeWhile isNumberChar ++
      (c :: rest).dropWhile isNumberChar := by
    rw [hcs, List.append_assoc, List.takeWhile_append_dropWhile]
  have hskip : Track.skipNumber cs cs.length ⟨used.length, k⟩ =
      some (.ok ((), ⟨(used ++ (c :: rest).takeWhile isNumberChar).length, k⟩)) := by
    rw [hcs]
    exact skipNumber_eq (by simp)
  rw [reader_digits A n hc, Track.primary, Track.bind_ok (peek_at hcs)]
  simp only [List.head?_cons, if_neg hopening, if_pos hc]
  rw [Track.bind_ok (Track.get_eq _), Track.bind_ok hskip, Track.bind_ok (Track.get_eq _),
    Track.bind_ok (slice_at hsplit _)]
  cases A.read? ((c :: rest).takeWhile isNumberChar) with
  | some v => exact .reads v hsplit
  | none => exact .fails _

/-- A primary is read with a cursor as without one. -/
theorem tracks_primary {sum : Track α} (hsum : Tracks cs k (Track.nested sum) (inner A n)) :
    Tracks cs k (Track.primary A cs sum) (reader A n .primary) := by
  intro used rest hcs
  cases rest with
  | nil =>
    rw [Track.primary, Track.bind_ok (peek_at hcs)]
    exact .fails _
  | cons c rest =>
    by_cases hopening : c = '('
    · subst hopening
      exact tracks_group hsum hcs
    by_cases hc : isNumberChar c = true
    · exact tracks_digits hc hcs
    · rw [Track.primary, Track.bind_ok (peek_at hcs)]
      simp only [List.head?_cons, reader, Math.primary, if_neg hopening, if_neg hc]
      exact .fails _

/-- A power is read with a cursor as without one. -/
theorem tracks_power {primary signed : Track α}
    (hprimary : Tracks cs k primary (reader A n .primary))
    (hsigned : Tracks cs k (Track.nested signed) (below A n)) :
    Tracks cs k (Track.power A cs primary signed) (reader A n .power) := by
  intro used rest hcs
  refine (hprimary used rest hcs).bind ?_ fun e hres => reader_power_error hres
  intro v used' rest' hcs' hres
  rw [Track.bind_ok (peek_at hcs')]
  by_cases hcaret : ∃ tail, rest' = '^' :: tail
  · obtain ⟨tail, rfl⟩ := hcaret
    rw [List.head?_cons, if_pos rfl, Track.bind_ok (advance_append used' '^'), reader_raised hres]
    refine (hsigned (used' ++ ['^']) tail (by rw [hcs', append_cons])).bind ?_ ?_
    · intro w used'' rest'' hcs'' hres'
      rw [hres']
      exact .reads _ hcs''
    · intro e hres'
      rw [hres']
  · have hhead : rest'.head? ≠ some '^' := by
      cases rest' with
      | nil => simp
      | cons d tail => exact fun h => hcaret ⟨tail, by simpa using h⟩
    rw [reader_plain hres fun tail h => hcaret ⟨tail, h⟩, if_neg hhead]
    exact .reads v hcs'

/-- A signed power is read with a cursor as without one. -/
theorem tracks_signed {power signed : Track α}
    (hpower : Tracks cs k power (reader A n .power))
    (hsigned : Tracks cs k (Track.nested signed) (below A n)) :
    Tracks cs k (Track.signed A cs power signed) (reader A n .signed) := by
  intro used rest hcs
  rw [Track.signed, Track.bind_ok (peek_at hcs)]
  cases rest with
  | nil =>
    rw [reader_unsigned A n (by simp)]
    exact hpower used [] hcs
  | cons c rest =>
    simp only [List.head?_cons]
    split
    · rename_i hc
      subst hc
      rw [Track.bind_ok (advance_append used '-'), show '-' = signChar true from rfl, reader_sign]
      refine (hsigned (used ++ ['-']) rest (by rw [hcs, append_cons])).bind ?_ ?_
      · intro v used' rest' hcs' hres
        rw [hres]
        exact .reads _ hcs'
      · intro e hres
        rw [hres]
    split
    · rename_i hc
      subst hc
      rw [Track.bind_ok (advance_append used '+'), show '+' = signChar false from rfl, reader_sign]
      have hread := hsigned (used ++ ['+']) rest (by rw [hcs, append_cons])
      cases hres : below A n rest <;> rwa [hres] at hread
    · rename_i hminus hplus
      rw [reader_unsigned A n]
      · exact hpower used _ hcs
      · rintro negative tail ⟨⟩
        cases negative
        · exact hplus rfl
        · exact hminus rfl

/-- The rest of a chain is read with a cursor as without one, by induction on the number of operands
that may come. -/
theorem tracks_chainRest {r : Rank} {operand : Track α}
    (hoperand : Tracks cs k operand (reader A n r.operand)) {fuel : Nat} {used rest : List Char}
    (hcs : cs = used ++ rest) (hfuel : rest.length ≤ fuel) (v : α) :
    Tracked cs k (chainRest A r (reader A n r.operand) rest.length v rest)
      (Track.chainRest A cs r operand fuel v ⟨used.length, k⟩) := by
  induction fuel generalizing used rest v with
  | zero =>
    obtain rfl := List.length_eq_zero_iff.1 (Nat.le_zero.1 hfuel)
    exact .reads v hcs
  | succ fuel ih =>
    rw [Track.chainRest, Track.bind_ok (peek_at hcs)]
    cases rest with
    | nil => exact .reads v hcs
    | cons c rest =>
      rw [List.head?_cons, Option.bind_some]
      cases hop : operator? r c with
      | none =>
        simp only [List.length_cons, chainRest, hop]
        exact .reads v hcs
      | some op =>
        obtain rfl := operator?_eq_some_iff.1 hop
        change Tracked cs k _ ((Track.advance >>= _) _)
        rw [Track.bind_ok (advance_append used op.symbol)]
        refine (hoperand (used ++ [op.symbol]) rest (by rw [hcs, append_cons])).bind ?_ ?_
        · intro w used' rest' hcs' hres
          rw [chainRest_operator op hres]
          exact ih hcs' (Nat.le_of_lt_succ (Nat.lt_of_lt_of_le
            (Nat.lt_trans (reader_progress hres) (Nat.lt_succ_self _)) hfuel)) _
        · intro e hres
          exact chainRest_error op v hres

/-- A chain is read with a cursor as without one. -/
theorem tracks_chain {r : Rank} {operand : Track α}
    (hoperand : Tracks cs k operand (reader A n r.operand)) :
    Tracks cs k (Track.chain A cs r operand) (reader A n (.chain r)) := by
  intro used rest hcs
  refine (hoperand used rest hcs).bind ?_ fun e hres => reader_chain_error hres
  intro v used' rest' hcs' hres
  rw [reader_chain, hres]
  exact tracks_chainRest hoperand hcs' (by simp [hcs']) v

/-- Each kind of phrase is read with a cursor as without one if what stands deeper is. -/
theorem tracks_over {again : Track α} (hsigned : Tracks cs k (Track.nested again) (below A n))
    (hsum : Tracks cs k (Track.nested (Track.chain A cs .sum (Track.chain A cs .product again)))
      (inner A n)) (c : Category) : Tracks cs k (trackOver A cs again c) (reader A n c) := by
  have hprimary := tracks_primary hsum
  have hpower := tracks_power hprimary hsigned
  have hsigned := tracks_signed hpower hsigned
  have hproduct := tracks_chain (r := .product) hsigned
  match c with
  | .primary => exact hprimary
  | .power => exact hpower
  | .signed => exact hsigned
  | .chain .product => exact hproduct
  | .chain .sum => exact tracks_chain (r := .sum) hproduct

/-- With as many levels left as the counter leaves, the two ways of reading agree. -/
theorem tracks_reader (A : Arithmetic α) (cs : List Char) {n k : Nat} (hnk : n + k = maxLevels)
    (calls : Nat) (hcalls : n ≤ calls) (c : Category) :
    Tracks cs k (trackOver A cs (trackSigned A cs calls) c) (reader A n c) := by
  -- a level deeper the counter has one more and the reader one less, and their sum stays
  induction n generalizing k calls c with
  | zero =>
    exact tracks_over (tracks_nested (R := below A) hnk (fun _ => rfl) (by simp))
      (tracks_nested (R := inner A) hnk (fun _ => rfl) (by simp)) c
  | succ n ih =>
    obtain ⟨calls, rfl⟩ := Nat.exists_eq_add_of_lt hcalls
    have hdeeper := ih (k := k + 1) (by omega) (n + calls) (Nat.le_add_right ..)
    refine tracks_over (tracks_nested (R := below A) hnk (fun _ => rfl) ?_)
      (tracks_nested (R := inner A) hnk (fun _ => rfl) ?_) c
    · rintro m ⟨⟩
      exact hdeeper .signed
    · rintro m ⟨⟩
      exact hdeeper (.chain .sum)

/-- Whatever is read at a cursor, the position moves on and the counter is as it was. -/
theorem track_progress {c : Category} {s s' : Cursor} {v : α} (hposition : s.position ≤ cs.length)
    (hdepth : s.depth ≤ maxLevels) (h : track A cs c s = some (.ok (v, s'))) :
    s.position < s'.position ∧ s'.position ≤ cs.length ∧ s'.depth = s.depth := by
  have hsplit : cs = cs.take s.position ++ cs.drop s.position := (List.take_append_drop ..).symm
  have hread := tracks_reader A cs (Nat.sub_add_cancel hdepth) maxLevels (Nat.sub_le ..) c
    _ _ hsplit
  rw [List.length_take_of_le hposition] at hread
  change Tracked cs s.depth _ (track A cs c s) at hread
  rw [h] at hread
  generalize hres : reader A _ c (cs.drop s.position) = res at hread
  cases hread with
  | @reads _ used rest hcs =>
    have hrest := reader_progress hres
    have hlength := congrArg List.length hcs
    rw [List.length_drop] at hrest
    rw [List.length_append] at hlength
    exact ⟨by simp only; omega, by simp only; omega, rfl⟩

/-- Reading with a cursor is never at fault, and comes to the same. -/
theorem trackEvaluate_eq (A : Arithmetic α) (text : String) :
    trackEvaluate A text = some (evaluateIn A text) := by
  unfold trackEvaluate evaluateIn
  generalize text.toList.filter (fun c => !Text.isBlank c) = cs
  dsimp only
  have hread := tracks_reader A cs (Nat.add_zero maxLevels) maxLevels (Nat.le_refl _)
    (.chain .sum) [] cs rfl
  change Tracked cs 0 (Math.sum A (signed A maxLevels) cs) (track A cs (.chain .sum) {}) at hread
  generalize Math.sum A (signed A maxLevels) cs = res at hread ⊢
  generalize track A cs (.chain .sum) {} = out at hread ⊢
  cases hread with
  | @reads v used rest hcs =>
    have hhead : cs[used.length]? = rest.head? := by
      rw [hcs, List.getElem?_append_right (Nat.le_refl _), Nat.sub_self, List.head?_eq_getElem?]
    dsimp only
    rw [hhead]
    cases rest with
    | nil => rfl
    | cons c rest => rfl
  | fails e => rfl

end Tracks

end ChatBot.Math
