import ChatBot.Proofs.Changelog.Held

/-!
# Recording alone

A resource to which records are only added loses them for two reasons: they expire, or there is no
room. Its *life* is the list of all records ever made for it. Of these, what is held makes the same
records count as if nothing had ever been dropped: the live ones, and of these the most recent, as
many as are kept at most (`Retains.live_eq`).
-/

set_option autoImplicit false

namespace ChatBot

variable {α : Type}

/-- The most recent records, as many as are kept at most. -/
def Retention.recent (r : Retention) (entries : List (ChangeEntry α)) : List (ChangeEntry α) :=
  if 0 < r.maxEntries then entries.drop (entries.length - r.maxEntries) else entries

/-- If there are no more entries than may be kept, all of them are recent. -/
theorem Retention.recent_of_length_le {r : Retention} {entries : List (ChangeEntry α)}
    (h : 0 < r.maxEntries → entries.length ≤ r.maxEntries) : r.recent entries = entries := by
  unfold recent
  split
  · next hpositive => rw [Nat.sub_eq_zero_of_le (h hpositive), List.drop_zero]
  · rfl

namespace Changelog

/-- What is held of a resource at a time, beside its life: either only expired records have been
dropped, or others as well and there is no room for more. -/
structure Retains (r : Retention) (now : Nat) (held life : List (ChangeEntry α)) : Prop where
  dropped : ∃ gone, life = gone ++ held ∧
    ((∀ e ∈ gone, e.isExpired r.maxAge now) ∨ 0 < r.maxEntries ∧ held.length = r.maxEntries)
  timed : Timed now life
  bounded : 0 < r.maxEntries → held.length ≤ r.maxEntries

namespace Retains

variable {r : Retention} {now : Nat} {held life : List (ChangeEntry α)}

/-- Nothing is retained of nothing. -/
theorem nil : Retains r now ([] : List (ChangeEntry α)) [] :=
  ⟨⟨[], rfl, .inl (by simp)⟩, .nil, by simp⟩

/-- What is retained of a life are its last entries. -/
theorem held_suffix (h : Retains r now held life) : held <:+ life := by
  obtain ⟨gone, rfl, -⟩ := h.dropped
  exact List.suffix_append gone held

/-- What is retained is in the order in which it was recorded. -/
theorem held_ordered (h : Retains r now held life) :
    held.Pairwise fun e e' => e.recordedAt ≤ e'.recordedAt :=
  (h.timed.sublist h.held_suffix.sublist).ordered

/-- What is retained of a life stays so as time goes on. -/
theorem mono (h : Retains r now held life) {now' : Nat} (hnow : now ≤ now') :
    Retains r now' held life := by
  obtain ⟨gone, hsplit, hgone⟩ := h.dropped
  refine ⟨⟨gone, hsplit, hgone.imp_left ?_⟩, h.timed.mono hnow, h.bounded⟩
  intro hexpired e he
  exact isExpired_mono hnow (hexpired e he)

/-- What counts is the most recent part of what is live. -/
theorem live_eq (h : Retains r now held life) :
    r.live now held = r.recent (r.live now life) := by
  obtain ⟨gone, rfl, hgone⟩ := h.dropped
  rw [live_append]
  have hbounded : 0 < r.maxEntries → (r.live now held).length ≤ r.maxEntries := fun hpositive =>
    Nat.le_trans (List.length_filter_le ..) (h.bounded hpositive)
  cases hlive : r.live now gone with
  | nil => rw [List.nil_append, Retention.recent_of_length_le hbounded]
  | cons e es =>
    -- a record that has been dropped is live, and so all later ones are: they take all the room
    obtain ⟨he, hlate⟩ := List.mem_filter.1 (hlive ▸ List.mem_cons_self : e ∈ r.live now gone)
    have hfull : 0 < r.maxEntries ∧ held.length = r.maxEntries := by
      rcases hgone with hexpired | hfull
      · simp [hexpired e he] at hlate
      · exact hfull
    have hheld : r.live now held = held := by
      refine List.filter_eq_self.2 ?_
      intro e' he'
      rw [Bool.not_eq_true', Bool.eq_false_iff]
      intro hexpired
      have hle := (List.pairwise_append.1 h.timed.ordered).2.2 e he e' he'
      simp [isExpired_of_le hle hexpired] at hlate
    rw [hheld, Retention.recent, if_pos hfull.1, ← hfull.2, List.length_append,
      Nat.add_sub_cancel, List.drop_left]

/-- Where there is room for another live record, all that is missing from the live ones has expired:
records for which there was no room have done so since. -/
theorem expired_append (h : Retains r now held life)
    (hroom : 0 < r.maxEntries → (r.live now held).length < r.maxEntries) :
    ∃ expired, life = expired ++ r.live now held ∧ ∀ e ∈ expired, e.isExpired r.maxAge now := by
  obtain ⟨gone, rfl, hgone⟩ := h.dropped
  let expired := held.filter (·.isExpired r.maxAge now)
  have hheld : expired ++ r.live now held = held := expired_append_live h.held_ordered
  have hlate : ∀ e ∈ expired, e.isExpired r.maxAge now := fun e he => (List.mem_filter.1 he).2
  have hbefore : ∀ e ∈ gone, e.isExpired r.maxAge now := by
    rcases hgone with hgone | ⟨hpositive, hfull⟩
    · exact hgone
    · -- all the room was taken, so that some of what is held must have expired
      intro e he
      have hne : expired ≠ [] := by
        intro hnil
        rw [hnil, List.nil_append] at hheld
        have hless := hroom hpositive
        rw [hheld] at hless
        omega
      obtain ⟨first, hfirst⟩ := List.exists_mem_of_ne_nil expired hne
      have hmem : first ∈ held := (List.mem_filter.1 hfirst).1
      exact isExpired_of_le ((List.pairwise_append.1 h.timed.ordered).2.2 e he first hmem)
        (hlate first hfirst)
  refine ⟨gone ++ expired, by rw [List.append_assoc, hheld], ?_⟩
  intro e he
  exact (List.mem_append.1 he).elim (hbefore e) (hlate e)

/-- Recording adds to the life, and retains it. -/
theorem record (h : Retains r now held life) {e : ChangeEntry α} (he : e.recordedAt = now) :
    Retains r now (trimmed r now held ++ [e]) (life ++ [e]) := by
  refine ⟨?_, h.timed.snoc he, ?_⟩
  · rw [trimmed_eq h.held_ordered]
    split
    · next hfull =>
      -- everything held is live, and the oldest of it goes
      obtain ⟨gone, hsplit, -⟩ := h.dropped
      simp only [Bool.and_eq_true, decide_eq_true_eq] at hfull
      obtain ⟨hpositive, hmany⟩ := hfull
      have hall : r.live now held = held :=
        List.filter_sublist.eq_of_length_le (Nat.le_trans (h.bounded hpositive) hmany)
      rw [hall] at hmany ⊢
      have hlength : held.length = r.maxEntries := Nat.le_antisymm (h.bounded hpositive) hmany
      cases held with
      | nil => simp [← hlength] at hpositive
      | cons oldest rest =>
        refine ⟨gone ++ [oldest], by simp [hsplit], .inr ⟨hpositive, ?_⟩⟩
        simpa using hlength
    · next hfree =>
      obtain ⟨expired, hsplit, hexpired⟩ := h.expired_append (by simpa using hfree)
      exact ⟨expired, by rw [hsplit, List.append_assoc], .inl hexpired⟩
  · intro hpositive
    rw [List.length_append, List.length_singleton]
    exact length_trimmed_lt h.held_ordered h.bounded hpositive

end Retains

end Changelog

end ChatBot
