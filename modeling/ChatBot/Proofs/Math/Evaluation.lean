import ChatBot.Proofs.Math.Counting

/-!
# The value of an expression

What evaluating an expression gives, in terms of its grammar and for every arithmetic
(`evaluateIn_follows_grammar`): the value of the one derivation that the text has without its
blanks, if that fits into sixty-four levels and is a number; and which error where there is none.
-/

set_option autoImplicit false

namespace ChatBot.Math

variable {α : Type}

/-- The text is that of a sum that fits into the levels and has the value. -/
def HasValue (A : Arithmetic α) (cs : List Char) (v : α) : Prop :=
  ∃ d : Derivation (.chain .sum), d.text = cs ∧ d.depth ≤ maxLevels ∧ d.value? A = some v

/-- The error of a text that is no expression. -/
inductive MathError.IsSyntax : MathError → Prop where
  | unexpectedChar (c : Char) : IsSyntax (.unexpectedChar c)
  | unexpectedEnd : IsSyntax .unexpectedEnd
  | invalidNumber (text : String) : IsSyntax (.invalidNumber text)

/-- A sum is read to the end of the text exactly if the text is one. -/
theorem reader_eq_ok_iff (A : Arithmetic α) (cs : List Char) (v : α) :
    reader A maxLevels (.chain .sum) cs = .ok (v, []) ↔ HasValue A cs v := by
  constructor
  · intro h
    obtain ⟨d, hv, hdepth, rfl⟩ := (h ▸ reader_outcome A _ (.chain .sum) cs).exists_derivation
    exact ⟨d, (List.append_nil _).symm, Nat.le_of_lt_succ hdepth, hv⟩
  · rintro ⟨d, rfl, hdepth, hv⟩
    have h := complete d maxLevels v [] hdepth hv (stops_nil _)
    rwa [List.append_nil] at h

/-- A text has one value at most. -/
theorem HasValue.unique {A : Arithmetic α} {cs : List Char} {v v' : α} (h : HasValue A cs v)
    (h' : HasValue A cs v') : v = v' := by
  obtain ⟨d, rfl, -, hv⟩ := h
  obtain ⟨d', htext, -, hv'⟩ := h'
  obtain rfl := Derivation.text_injective htext
  exact Option.some.inj (hv.symm.trans hv')

/-- A text that has a value does not lead too deep. -/
theorem HasValue.not_reaches {A : Arithmetic α} {cs : List Char} {v : α} (h : HasValue A cs v) :
    ¬ Reaches A (.chain .sum) (maxLevels + 1) cs := by
  intro hreaches
  have hread := (reader_eq_ok_iff A cs v).2 h
  rw [reader_tooDeep hreaches (Nat.lt_succ_self _)] at hread
  cases hread

/-- What may come of an evaluation: a value that may not be finite, the error of what is nested too
deeply, or that of a text that is no expression. -/
inductive Evaluates (A : Arithmetic α) (cs : List Char) : Except MathError α → Prop where
  | value {v : α} (h : HasValue A cs v) :
      Evaluates A cs (if A.isFinite v then .ok v else .error .notFinite)
  | tooDeep (h : Reaches A (.chain .sum) (maxLevels + 1) cs) : Evaluates A cs (.error .tooDeep)
  | noExpression {e : MathError} (he : e.IsSyntax) (hvalue : ∀ v, ¬ HasValue A cs v)
      (hreaches : ¬ Reaches A (.chain .sum) (maxLevels + 1) cs) : Evaluates A cs (.error e)

/-- A text that cannot be read to its end has no value, and unless it was given up for lack of
levels it does not lead too deep. -/
theorem Evaluates.of_read {A : Arithmetic α} {cs : List Char} {e : MathError}
    {res : Except MathError (α × List Char)} (hres : reader A maxLevels (.chain .sum) cs = res)
    (he : e.IsSyntax) (hvalue : ∀ v, res ≠ .ok (v, [])) (hdeep : res ≠ .error .tooDeep) :
    Evaluates A cs (.error e) := by
  refine .noExpression he (fun v h => hvalue v ?_) (fun h => hdeep ?_)
  · rw [← hres, (reader_eq_ok_iff A cs v).2 h]
  · rw [← hres, reader_tooDeep h (Nat.lt_succ_self _)]

/-- What the evaluation of an expression comes to is one of the things that may come of it. -/
theorem evaluateIn_evaluates (A : Arithmetic α) (text : String) :
    Evaluates A (text.toList.filter fun c => !Text.isBlank c) (evaluateIn A text) := by
  unfold evaluateIn
  generalize text.toList.filter (fun c => !Text.isBlank c) = cs
  have hread := reader_outcome A maxLevels (.chain .sum) cs
  generalize hres : reader A maxLevels (.chain .sum) cs = res at hread
  change sum A (signed A maxLevels) cs = res at hres
  rw [hres]
  cases hread with
  | @reads d v hv hdepth rest =>
    cases rest with
    | nil => exact .value ((reader_eq_ok_iff A _ v).1 hres)
    | cons c rest => exact .of_read hres (.unexpectedChar c) (by simp) (by simp)
  | tooDeep h => exact .tooDeep h
  | unexpectedChar c => exact .of_read hres (.unexpectedChar c) (by simp) (by simp)
  | unexpectedEnd => exact .of_read hres .unexpectedEnd (by simp) (by simp)
  | invalidNumber text => exact .of_read hres (.invalidNumber text) (by simp) (by simp)

section Errors

variable {A : Arithmetic α} {cs : List Char} {res : Except MathError α}

/-- An evaluation succeeds with a value if the text has it and it is finite. -/
theorem Evaluates.eq_ok_iff (h : Evaluates A cs res) (v : α) :
    res = .ok v ↔ HasValue A cs v ∧ A.isFinite v = true := by
  cases h with
  | @value w h =>
    constructor
    · intro heq
      split at heq
      · rename_i hfinite
        obtain rfl := Except.ok.inj heq
        exact ⟨h, hfinite⟩
      · cases heq
    · rintro ⟨h', hfinite⟩
      obtain rfl := h.unique h'
      rw [if_pos hfinite]
  | tooDeep hreaches => exact iff_of_false (by simp) fun h => h.1.not_reaches hreaches
  | noExpression he hvalue _ => exact iff_of_false (by simp) fun h => hvalue v h.1

/-- An evaluation ends with a value that is not finite if the text has one that is not. -/
theorem Evaluates.eq_notFinite_iff (h : Evaluates A cs res) :
    res = .error .notFinite ↔ ∃ v, HasValue A cs v ∧ A.isFinite v = false := by
  cases h with
  | @value w h =>
    constructor
    · intro heq
      split at heq
      · cases heq
      · rename_i hfinite
        exact ⟨w, h, by simpa using hfinite⟩
    · rintro ⟨v, h', hfinite⟩
      obtain rfl := h.unique h'
      rw [if_neg (by simp [hfinite])]
  | tooDeep hreaches =>
    exact iff_of_false (by simp) fun ⟨v, h, _⟩ => h.not_reaches hreaches
  | noExpression he hvalue _ =>
    exact iff_of_false (by rintro ⟨⟩; cases he) fun ⟨v, h, _⟩ => hvalue v h

/-- An evaluation is given up if the text leads too deep. -/
theorem Evaluates.eq_tooDeep_iff (h : Evaluates A cs res) :
    res = .error .tooDeep ↔ Reaches A (.chain .sum) (maxLevels + 1) cs := by
  cases h with
  | value h =>
    refine iff_of_false ?_ h.not_reaches
    split <;> simp
  | tooDeep hreaches => exact iff_of_true rfl hreaches
  | noExpression he _ hreaches => exact iff_of_false (by rintro ⟨⟩; cases he) hreaches

/-- In all other cases the text is no expression. -/
theorem Evaluates.exists_syntax (h : Evaluates A cs res) (hvalue : ∀ v, ¬ HasValue A cs v)
    (hreaches : ¬ Reaches A (.chain .sum) (maxLevels + 1) cs) :
    ∃ e : MathError, e.IsSyntax ∧ res = .error e := by
  cases h with
  | value h => exact absurd h (hvalue _)
  | tooDeep h => exact absurd h hreaches
  | noExpression he => exact ⟨_, he, rfl⟩

end Errors

/-- **Evaluating an expression follows the grammar.** For every arithmetic and every text, read
without its blanks: the value is that of a derivation of the text in which nothing stands deeper
than the levels, if it is finite; if it is not, that is the error. The text is nested too deeply
exactly if it leads into more parentheses, signs and exponents than there are levels, and otherwise
it is no expression. No text has two derivations. Read with a position and a counter, the text comes
to the same, without a fault, and each phrase that is read moves the position on and leaves the
counter as it was. -/
theorem evaluateIn_follows_grammar (A : Arithmetic α) (text : String) :
    let cs := text.toList.filter fun c => !Text.isBlank c
    (∀ v, evaluateIn A text = .ok v ↔ HasValue A cs v ∧ A.isFinite v = true) ∧
    (evaluateIn A text = .error .notFinite ↔ ∃ v, HasValue A cs v ∧ A.isFinite v = false) ∧
    (evaluateIn A text = .error .tooDeep ↔ Reaches A (.chain .sum) (maxLevels + 1) cs) ∧
    ((∀ v, ¬ HasValue A cs v) → ¬ Reaches A (.chain .sum) (maxLevels + 1) cs →
      ∃ e : MathError, e.IsSyntax ∧ evaluateIn A text = .error e) ∧
    (∀ d d' : Derivation (.chain .sum), d.text = cs → d'.text = cs → d = d') ∧
    trackEvaluate A text = some (evaluateIn A text) ∧
    ∀ (c : Category) (s s' : Cursor) (v : α), s.position ≤ cs.length → s.depth ≤ maxLevels →
      track A cs c s = some (.ok (v, s')) → s.position < s'.position ∧ s'.depth = s.depth := by
  intro cs
  have h : Evaluates A cs (evaluateIn A text) := evaluateIn_evaluates A text
  refine ⟨h.eq_ok_iff, h.eq_notFinite_iff, h.eq_tooDeep_iff, h.exists_syntax, ?_,
    trackEvaluate_eq A text, ?_⟩
  · intro d d' hd hd'
    exact Derivation.text_injective (hd.trans hd'.symm)
  · intro c s s' v hposition hdepth hread
    obtain ⟨hmoved, -, hsame⟩ := track_progress hposition hdepth hread
    exact ⟨hmoved, hsame⟩

end ChatBot.Math
