import ChatBot.Dispatch.Registry

/-!
# Handlers of every line

Whatever else is registered, a handler of every line is planned exactly once for each line, with the
whole line as its parameter (`Registry.plan_of_any`): in its tier it comes after the commands, and
the other tiers do not have it.
-/

set_option autoImplicit false

namespace ChatBot.Registry

variable {ε : Type} {numbered front back : List (Registration ε × Nat)}
  {written tokens : List String}

/-- What a tier plans is registered with its priority. -/
theorem mem_planTier {priority : Priority} {p : Planned ε}
    (h : p ∈ planTier numbered written tokens priority) :
    (p.registration, p.index) ∈ numbered ∧ p.registration.priority = priority := by
  unfold planTier at h
  rcases List.mem_append.1 h with h | h
  · split at h
    · cases h
    · obtain ⟨r, hr, rfl⟩ := List.mem_map.1 h
      simpa using (List.mem_filter.1 hr).1
  · obtain ⟨r, hr, rfl⟩ := List.mem_map.1 h
    simpa using (List.mem_filter.1 hr).1

/-- What is in a list stays in it without another element. -/
theorem mem_append_of_ne {α : Type} {front back : List α} {a b : α}
    (h : a ∈ front ++ b :: back) (hne : a ≠ b) : a ∈ front ++ back := by
  rcases List.mem_append.1 h with h | h
  · exact List.mem_append_left back h
  · rcases List.mem_cons.1 h with h | h
    · exact absurd h hne
    · exact List.mem_append_right front h

/-- In its tier a handler of every line is planned once. -/
theorem planTier_of_any (written tokens : List String) {r : Registration ε}
    (hany : r.pattern = .any) (k : Nat) (hnumbered : numbered = front ++ (r, k) :: back) :
    ∃ before after, planTier numbered written tokens r.priority =
        before ++ ⟨k, r, "", spaced written⟩ :: after ∧
      ∀ p ∈ before ++ after, (p.registration, p.index) ∈ front ++ back := by
  let others (rs : List (Registration ε × Nat)) : List (Planned ε) :=
    ((rs.filter fun q => q.1.priority = r.priority).filter fun q => q.1.pattern = .any).map
      fun q => ⟨q.2, q.1, "", spaced written⟩
  have hothers : others numbered = others front ++ ⟨k, r, "", spaced written⟩ :: others back := by
    simp [others, hnumbered, hany]
  have mem_others : ∀ rs, ∀ p ∈ others rs, (p.registration, p.index) ∈ rs := by
    intro rs p hp
    obtain ⟨q, hq, rfl⟩ := List.mem_map.1 hp
    exact (List.mem_filter.1 (List.mem_filter.1 hq).1).1
  -- A command of the tier matches some words, and the handler of every line matches none.
  obtain ⟨commands, hplan, hcommands⟩ : ∃ commands,
      planTier numbered written tokens r.priority = commands ++ others numbered ∧
        ∀ p ∈ commands, (p.registration, p.index) ∈ front ++ back := by
    refine ⟨_, rfl, fun p hp => ?_⟩
    split at hp
    · cases hp
    · obtain ⟨q, hq, rfl⟩ := List.mem_map.1 hp
      obtain ⟨hq, hmatch⟩ := List.mem_filter.1 hq
      have hmem := (List.mem_filter.1 hq).1
      rw [hnumbered] at hmem
      refine mem_append_of_ne hmem fun h => ?_
      have hq : q.1 = r := congrArg Prod.fst h
      rw [hq, hany] at hmatch
      cases of_decide_eq_true hmatch
  refine ⟨commands ++ others front, others back, ?_, ?_⟩
  · rw [hplan, hothers, List.append_assoc]
  · intro p hp
    rcases List.mem_append.1 hp with hp | hp
    · rcases List.mem_append.1 hp with hp | hp
      · exact hcommands p hp
      · exact List.mem_append_left back (mem_others front p hp)
    · exact List.mem_append_right front (mem_others back p hp)

/-- A handler of every line is planned once, and all other planned handlers are other ones. -/
theorem plan_of_any (before after : Registry ε) {r : Registration ε} (hany : r.pattern = .any)
    (line : String) :
    ∃ front back, Registry.plan (before ++ r :: after) line =
        front ++ ⟨before.length, r, "", spaced (Text.words line)⟩ :: back ∧
      ∀ p ∈ front ++ back, p.registration ∈ before ++ after := by
  have hnumbered : (before ++ r :: after).zipIdx =
      before.zipIdx ++ (r, before.length) :: after.zipIdx (before.length + 1) := by
    rw [List.zipIdx_append, List.zipIdx_cons, Nat.zero_add]
  -- the handler stands in the tier of its priority, and in no other
  obtain ⟨higher, lower, htiers, hother⟩ : ∃ higher lower,
      Priority.descending = higher ++ r.priority :: lower ∧ r.priority ∉ higher ++ lower := by
    cases r.priority with
    | highest => exact ⟨[], _, rfl, by decide⟩
    | high => exact ⟨[.highest], _, rfl, by decide⟩
    | normal => exact ⟨[.highest, .high], _, rfl, by decide⟩
    | low => exact ⟨[.highest, .high, .normal], _, rfl, by decide⟩
  have hregistered : ∀ p : Planned ε, (p.registration, p.index) ∈
      before.zipIdx ++ after.zipIdx (before.length + 1) → p.registration ∈ before ++ after := by
    intro p hp
    rcases List.mem_append.1 hp with hp | hp
    · exact List.mem_append_left after (List.fst_mem_of_mem_zipIdx hp)
    · exact List.mem_append_right before (List.fst_mem_of_mem_zipIdx hp)
  let tier := planTier (before ++ r :: after).zipIdx (Text.words line) (lowerWords line)
  have htier : ∀ priority ∈ higher ++ lower, ∀ p ∈ tier priority,
      p.registration ∈ before ++ after := by
    intro priority hpriority p hp
    obtain ⟨hmem, hp⟩ := mem_planTier hp
    rw [hnumbered] at hmem
    refine hregistered p (mem_append_of_ne hmem fun h => ?_)
    have hr : p.registration = r := congrArg Prod.fst h
    exact hother (hr ▸ hp ▸ hpriority)
  obtain ⟨front, back, hplan, hmem⟩ :=
    planTier_of_any (Text.words line) (lowerWords line) hany _ hnumbered
  refine ⟨higher.flatMap tier ++ front, back ++ lower.flatMap tier, ?_, ?_⟩
  · unfold plan
    rw [htiers, List.flatMap_append, List.flatMap_cons, hplan]
    simp [tier]
  · intro p hp
    rcases List.mem_append.1 hp with hp | hp
    · rcases List.mem_append.1 hp with hp | hp
      · obtain ⟨priority, hpriority, hp⟩ := List.mem_flatMap.1 hp
        exact htier priority (List.mem_append_left lower hpriority) p hp
      · exact hregistered p (hmem p (List.mem_append_left back hp))
    · rcases List.mem_append.1 hp with hp | hp
      · exact hregistered p (hmem p (List.mem_append_right front hp))
      · obtain ⟨priority, hpriority, hp⟩ := List.mem_flatMap.1 hp
        exact htier priority (List.mem_append_right higher hpriority) p hp

end ChatBot.Registry
