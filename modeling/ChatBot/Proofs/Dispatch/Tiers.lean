import ChatBot.Proofs.Dispatch.Planning
import Mathlib.Data.List.Nodup

/-!
# What each tier plans

The plan of a line is told without its two passes: of the commands of a tier, the longest one that
the line starts with is `Registry.Longest`, and a tier plans the handlers of that command and then
its handlers of every line, each kind in the order of registration (`Registry.tierPlan`). Main
statement: that is what `Registry.plan` gives, with all that follows from it (`plan_eq_tiers`).

The two passes agree with it because a length says which beginning of the line is meant
(`matchLength?_eq_max_iff`).
-/

set_option autoImplicit false

namespace ChatBot

variable {ε : Type}

/-- The words of a pattern, if it is the pattern of a command. -/
def CommandPattern.words? : CommandPattern → Option (List String)
  | command words => some words
  | any => none

/-- A planned handler without its number. -/
def Planned.unnumbered (p : Planned ε) : Registration ε × String × String :=
  (p.registration, p.command, p.param)

namespace Registry

/-- Among the commands of a tier these words are the longest that the line starts with. -/
structure Longest (r : Registry ε) (tier : Priority) (line : String) (words : List String) :
    Prop where
  nonempty : words ≠ []
  registered : ∃ q ∈ r, q.priority = tier ∧ q.pattern = .command words
  begins : words <+: lowerWords line
  longest : ∀ q ∈ r, q.priority = tier → ∀ other ∈ q.pattern.words?, other <+: lowerWords line →
    other.length ≤ words.length

instance (r : Registry ε) (tier : Priority) (line : String) (words : List String) :
    Decidable (r.Longest tier line words) :=
  decidable_of_iff
    (words ≠ [] ∧ (∃ q ∈ r, q.priority = tier ∧ q.pattern = .command words) ∧
      words <+: lowerWords line ∧
      ∀ q ∈ r, q.priority = tier → ∀ other ∈ q.pattern.words?, other <+: lowerWords line →
        other.length ≤ words.length)
    ⟨fun ⟨h₁, h₂, h₃, h₄⟩ => ⟨h₁, h₂, h₃, h₄⟩, fun h => ⟨h.1, h.2, h.3, h.4⟩⟩

/-- The registrations of a tier with their numbers. -/
def tier (r : Registry ε) (priority : Priority) : List (Registration ε × Nat) :=
  r.zipIdx.filter fun q => q.1.priority = priority

/-- How a registration is planned for its command: with the words of the command, and with the
words behind them as they are written. -/
def asCommand (r : Registry ε) (line : String) (q : Registration ε × Nat) : Option (Planned ε) :=
  match q.1.pattern with
  | .command words =>
    if r.Longest q.1.priority line words then
      some ⟨q.2, q.1, spaced words, spaced ((Text.words line).drop words.length)⟩
    else none
  | .any => none

/-- How a registration is planned if it is for every line. -/
def asAny (line : String) (q : Registration ε × Nat) : Option (Planned ε) :=
  match q.1.pattern with
  | .command _ => none
  | .any => some ⟨q.2, q.1, "", spaced (Text.words line)⟩

/-- What a tier plans: the handlers of its longest command, and those of every line. -/
def tierPlan (r : Registry ε) (line : String) (priority : Priority) : List (Planned ε) :=
  (r.tier priority).filterMap (r.asCommand line) ++ (r.tier priority).filterMap (asAny line)

variable {r : Registry ε} {priority : Priority} {line : String}

/-- A tier has the registrations of its priority, each with its number. -/
theorem mem_tier {q : Registration ε × Nat} :
    q ∈ r.tier priority ↔ r[q.2]? = some q.1 ∧ q.1.priority = priority := by
  unfold tier
  rw [List.mem_filter, List.mem_zipIdx_iff_getElem?, decide_eq_true_iff]

/-- The registrations of a tier, without their numbers. -/
theorem map_fst_tier : (r.tier priority).map Prod.fst = r.filter (·.priority = priority) := by
  unfold tier
  have hmap := List.filter_map (f := Prod.fst) (l := r.zipIdx)
    (p := fun q : Registration ε => decide (q.priority = priority))
  rw [List.zipIdx_map_fst] at hmap
  exact hmap.symm

/-! ## The longest match -/

/-- A pattern matches with as many words as its command has, which are not none. -/
theorem matchLength?_eq_some_iff {tokens : List String} {p : CommandPattern} {n : Nat} :
    p.matchLength? tokens = some n ↔
      ∃ words, p = .command words ∧ words ≠ [] ∧ words <+: tokens ∧ words.length = n := by
  cases p with
  | any => simp [CommandPattern.matchLength?]
  | command words =>
    simp [CommandPattern.matchLength?, List.isPrefixOf_iff_prefix, and_assoc]

/-- A pattern matches with the greatest length of a tier exactly if its command is the longest. -/
theorem matchLength?_eq_max_iff {q : Registration ε × Nat} (hq : q ∈ r.tier priority) {n : Nat}
    (hn : ((r.tier priority).filterMap fun q =>
      q.1.pattern.matchLength? (lowerWords line)).max? = some n) :
    q.1.pattern.matchLength? (lowerWords line) = some n ↔
      ∃ words, q.1.pattern = .command words ∧ r.Longest priority line words := by
  obtain ⟨hmem, hmax⟩ := List.max?_eq_some_iff.1 hn
  have hregistered : ∀ p ∈ r.tier priority, p.1 ∈ r ∧ p.1.priority = priority := by
    intro p hp
    obtain ⟨hget, hpriority⟩ := mem_tier.1 hp
    exact ⟨List.mem_of_getElem? hget, hpriority⟩
  constructor
  · intro h
    obtain ⟨words, hpattern, hne, hbegins, hlength⟩ := matchLength?_eq_some_iff.1 h
    refine ⟨words, hpattern, hne, ⟨q.1, (hregistered q hq).1, (hregistered q hq).2, hpattern⟩,
      hbegins, ?_⟩
    intro p hp hpriority other hother hprefix
    -- a command without words is never matched, but it is not longer either
    by_cases hempty : other = []
    · simp [hempty]
    · obtain ⟨k, hk⟩ := List.mem_iff_getElem?.1 hp
      have hpat : p.pattern = .command other := by
        cases hcase : p.pattern with
        | any => simp [hcase, CommandPattern.words?] at hother
        | command ws =>
          rw [hcase] at hother
          rw [Option.some.inj hother]
      have hmatch : p.pattern.matchLength? (lowerWords line) = some other.length :=
        matchLength?_eq_some_iff.2 ⟨other, hpat, hempty, hprefix, rfl⟩
      rw [hlength]
      apply hmax
      exact List.mem_filterMap.2 ⟨(p, k), mem_tier.2 ⟨hk, hpriority⟩, hmatch⟩
  · rintro ⟨words, hpattern, hlongest⟩
    obtain ⟨p, hp, hmatch⟩ := List.mem_filterMap.1 hmem
    obtain ⟨other, hother, -, hprefix, hlength⟩ := matchLength?_eq_some_iff.1 hmatch
    have hle : n ≤ words.length := by
      rw [← hlength]
      apply hlongest.longest p.1 (hregistered p hp).1 (hregistered p hp).2 other _ hprefix
      rw [hother]
      rfl
    have hown : q.1.pattern.matchLength? (lowerWords line) = some words.length :=
      matchLength?_eq_some_iff.2 ⟨words, hpattern, hlongest.nonempty, hlongest.begins, rfl⟩
    have hge : words.length ≤ n := hmax _ (List.mem_filterMap.2 ⟨q, hq, hown⟩)
    rw [hown, Nat.le_antisymm hge hle]

/-- A registration is planned for its command if that is the longest one of its tier that the line
starts with. -/
theorem asCommand_eq_some_iff {q : Registration ε × Nat} {p : Planned ε} :
    r.asCommand line q = some p ↔ ∃ words, q.1.pattern = .command words ∧
      r.Longest q.1.priority line words ∧
      p = ⟨q.2, q.1, spaced words, spaced ((Text.words line).drop words.length)⟩ := by
  unfold asCommand
  cases hpattern : q.1.pattern with
  | any => simp
  | command words =>
    simp only [Option.ite_none_right_eq_some, Option.some.injEq, CommandPattern.command.injEq]
    constructor
    · rintro ⟨hlongest, rfl⟩
      exact ⟨words, rfl, hlongest, rfl⟩
    · rintro ⟨_, rfl, hlongest, rfl⟩
      exact ⟨hlongest, rfl⟩

/-- The second pass keeps a registration if it matches with the greatest length of its tier. -/
theorem asCommand_of_max?_eq_some {q : Registration ε × Nat} (hq : q ∈ r.tier priority) {n : Nat}
    (hn : ((r.tier priority).filterMap fun q =>
      q.1.pattern.matchLength? (lowerWords line)).max? = some n) :
    r.asCommand line q =
      if q.1.pattern.matchLength? (lowerWords line) = some n then
        some ⟨q.2, q.1, spaced ((lowerWords line).take n), spaced ((Text.words line).drop n)⟩
      else none := by
  have hiff := matchLength?_eq_max_iff hq hn
  have hpriority := (mem_tier.1 hq).2
  split
  · rename_i h
    obtain ⟨words, hpattern, hlongest⟩ := hiff.1 h
    obtain ⟨words', hpattern', -, hbegins, hlength⟩ := matchLength?_eq_some_iff.1 h
    obtain rfl : words = words' := by
      rw [hpattern] at hpattern'
      exact CommandPattern.command.inj hpattern'
    rw [← hpriority] at hlongest
    rw [asCommand_eq_some_iff.2 ⟨words, hpattern, hlongest, rfl⟩, ← hlength,
      ← List.prefix_iff_eq_take.1 hbegins]
  · rename_i h
    refine Option.eq_none_iff_forall_ne_some.2 fun p hp => ?_
    obtain ⟨words, hpattern, hlongest, -⟩ := asCommand_eq_some_iff.1 hp
    rw [hpriority] at hlongest
    exact h (hiff.2 ⟨words, hpattern, hlongest⟩)

/-- No registration of a tier is planned for its command if the line starts with none of them. -/
theorem asCommand_of_max?_eq_none {q : Registration ε × Nat} (hq : q ∈ r.tier priority)
    (hn : ((r.tier priority).filterMap fun q =>
      q.1.pattern.matchLength? (lowerWords line)).max? = none) : r.asCommand line q = none := by
  refine Option.eq_none_iff_forall_ne_some.2 fun p hp => ?_
  obtain ⟨words, hpattern, hlongest, -⟩ := asCommand_eq_some_iff.1 hp
  have hmatch : q.1.pattern.matchLength? (lowerWords line) = some words.length :=
    matchLength?_eq_some_iff.2 ⟨words, hpattern, hlongest.nonempty, hlongest.begins, rfl⟩
  have hmem : words.length ∈ (r.tier priority).filterMap fun q =>
      q.1.pattern.matchLength? (lowerWords line) :=
    List.mem_filterMap.2 ⟨q, hq, hmatch⟩
  rw [List.max?_eq_none_iff.1 hn] at hmem
  cases hmem

/-- The two passes over a tier find the handlers of its longest command. -/
theorem planTier_eq_tierPlan (r : Registry ε) (line : String) (priority : Priority) :
    planTier r.zipIdx (Text.words line) (lowerWords line) priority = r.tierPlan line priority := by
  unfold planTier tierPlan
  change _ ++ ((r.tier priority).filter _).map _ = _
  refine congrArg₂ (· ++ ·) ?_ ?_
  · split
    · rename_i hn
      exact (List.filterMap_eq_nil_iff.2 fun q hq => asCommand_of_max?_eq_none hq hn).symm
    · rename_i n hn
      rw [← List.filterMap_eq_map', List.filterMap_filter]
      refine List.filterMap_congr fun q hq => ?_
      simp only [asCommand_of_max?_eq_some hq hn, decide_eq_true_eq]
  · rw [← List.filterMap_eq_map', List.filterMap_filter]
    refine List.filterMap_congr fun q _ => ?_
    unfold asAny
    cases q.1.pattern <;> simp

/-- The plan is that of one tier after the other, from the highest on. -/
theorem plan_eq_flatMap (r : Registry ε) (line : String) :
    r.plan line = Priority.descending.flatMap (r.tierPlan line) := by
  unfold plan
  exact congrArg (Priority.descending.flatMap ·) (funext (planTier_eq_tierPlan r line))

/-! ## What is planned -/

/-- A registration is planned for every line if that is its pattern, with the line as it
is written. -/
theorem asAny_eq_some_iff {q : Registration ε × Nat} {p : Planned ε} :
    asAny line q = some p ↔
      q.1.pattern = .any ∧ p = ⟨q.2, q.1, "", spaced (Text.words line)⟩ := by
  unfold asAny
  cases q.1.pattern <;> simp [eq_comm]

/-- A planned handler is registered under its number, for a tier, and it is planned either for the
longest command of that tier or for every line. -/
theorem mem_tierPlan {p : Planned ε} :
    p ∈ r.tierPlan line priority ↔ r[p.index]? = some p.registration ∧
      p.registration.priority = priority ∧
      ((∃ words, p.registration.pattern = .command words ∧ r.Longest priority line words ∧
          p.command = spaced words ∧
          p.param = spaced ((Text.words line).drop words.length)) ∨
        (p.registration.pattern = .any ∧ p.command = "" ∧
          p.param = spaced (Text.words line))) := by
  obtain ⟨k, q, command, param⟩ := p
  unfold tierPlan
  rw [List.mem_append, List.mem_filterMap, List.mem_filterMap]
  constructor
  · rintro (⟨⟨q', k'⟩, hq, h⟩ | ⟨⟨q', k'⟩, hq, h⟩)
    · obtain ⟨hget, rfl⟩ := mem_tier.1 hq
      obtain ⟨words, hpattern, hlongest, heq⟩ := asCommand_eq_some_iff.1 h
      cases heq
      exact ⟨hget, rfl, .inl ⟨words, hpattern, hlongest, rfl, rfl⟩⟩
    · obtain ⟨hget, rfl⟩ := mem_tier.1 hq
      obtain ⟨hpattern, heq⟩ := asAny_eq_some_iff.1 h
      cases heq
      exact ⟨hget, rfl, .inr ⟨hpattern, rfl, rfl⟩⟩
  · rintro ⟨hget, rfl, ⟨words, hpattern, hlongest, rfl, rfl⟩ | ⟨hpattern, rfl, rfl⟩⟩
    · exact .inl ⟨(q, k), mem_tier.2 ⟨hget, rfl⟩,
        asCommand_eq_some_iff.2 ⟨words, hpattern, hlongest, rfl⟩⟩
    · exact .inr ⟨(q, k), mem_tier.2 ⟨hget, rfl⟩, asAny_eq_some_iff.2 ⟨hpattern, rfl⟩⟩

/-- A planned handler is planned by its own tier. -/
theorem mem_plan {p : Planned ε} :
    p ∈ r.plan line ↔ p ∈ r.tierPlan line p.registration.priority := by
  rw [plan_eq_flatMap, List.mem_flatMap]
  constructor
  · rintro ⟨priority, -, h⟩
    rwa [(mem_tierPlan.1 h).2.1]
  · intro h
    refine ⟨p.registration.priority, ?_, h⟩
    cases p.registration.priority <;> decide

/-- The handlers that a plan has for commands of a tier are those that the tier plans for its
longest command. -/
theorem filter_plan_eq_filterMap (r : Registry ε) (line : String) (priority : Priority) :
    ((r.plan line).filter fun p =>
      p.registration.priority = priority ∧ p.registration.pattern ≠ .any) =
        (r.tier priority).filterMap (r.asCommand line) := by
  -- a tier contributes nothing but registrations of its own
  have htier : ∀ other, ((r.tierPlan line other).filter fun p =>
      p.registration.priority = priority ∧ p.registration.pattern ≠ .any) =
        if other = priority then (r.tier priority).filterMap (r.asCommand line) else [] := by
    intro other
    split
    · rename_i heq
      subst heq
      unfold tierPlan
      rw [List.filter_append, List.filter_eq_self.2, List.filter_eq_nil_iff.2, List.append_nil]
      · intro p hp
        obtain ⟨q, -, h⟩ := List.mem_filterMap.1 hp
        obtain ⟨hany, rfl⟩ := asAny_eq_some_iff.1 h
        simp [hany]
      · intro p hp
        obtain ⟨q, hq, h⟩ := List.mem_filterMap.1 hp
        obtain ⟨words, hpattern, -, rfl⟩ := asCommand_eq_some_iff.1 h
        simp [hpattern, (mem_tier.1 hq).2]
    · rename_i hne
      refine List.filter_eq_nil_iff.2 fun p hp => ?_
      simp [(mem_tierPlan.1 hp).2.1, hne]
  rw [plan_eq_flatMap, List.filter_flatMap]
  simp only [htier]
  cases priority <;> simp [Priority.descending]

/-! ## Every registration once -/

/-- What is planned from registrations keeps their numbers, and their order. -/
theorem map_index_sublist {f : Registration ε × Nat → Option (Planned ε)}
    (hf : ∀ q p, f q = some p → p.index = q.2) (l : List (Registration ε × Nat)) :
    ((l.filterMap f).map Planned.index).Sublist (l.map Prod.snd) := by
  induction l with
  | nil => exact List.Sublist.refl _
  | cons q rest ih =>
    cases h : f q with
    | none =>
      rw [List.filterMap_cons_none h]
      exact ih.cons q.2
    | some p =>
      rw [List.filterMap_cons_some h, List.map_cons, hf q p h]
      exact ih.cons_cons q.2

/-- No two registrations of a tier have the same number. -/
theorem nodup_map_snd_tier : ((r.tier priority).map Prod.snd).Nodup := by
  have hsub : ((r.tier priority).map Prod.snd).Sublist (r.zipIdx.map Prod.snd) :=
    List.filter_sublist.map _
  rw [List.zipIdx_map_snd] at hsub
  exact hsub.nodup List.nodup_range'

/-- A tier plans no registration twice: none is for a command and for every line. -/
theorem nodup_tierPlan : ((r.tierPlan line priority).map Planned.index).Nodup := by
  unfold tierPlan
  rw [List.map_append, List.nodup_append]
  refine ⟨?_, ?_, ?_⟩
  · refine (map_index_sublist (fun q p h => ?_) _).nodup nodup_map_snd_tier
    obtain ⟨words, -, -, rfl⟩ := asCommand_eq_some_iff.1 h
    rfl
  · refine (map_index_sublist (fun q p h => ?_) _).nodup nodup_map_snd_tier
    obtain ⟨-, rfl⟩ := asAny_eq_some_iff.1 h
    rfl
  -- a number that is planned in both ways would be that of a registration with two patterns
  · intro k hk k' hk' heq
    subst heq
    obtain ⟨p, hp, rfl⟩ := List.mem_map.1 hk
    obtain ⟨p', hp', hindex⟩ := List.mem_map.1 hk'
    obtain ⟨q, hq, h⟩ := List.mem_filterMap.1 hp
    obtain ⟨q', hq', h'⟩ := List.mem_filterMap.1 hp'
    obtain ⟨words, hpattern, -, rfl⟩ := asCommand_eq_some_iff.1 h
    obtain ⟨hany, rfl⟩ := asAny_eq_some_iff.1 h'
    have hget := (mem_tier.1 hq).1
    have hget' := (mem_tier.1 hq').1
    dsimp only at hindex
    rw [hindex, hget] at hget'
    rw [Option.some.inj hget', hany] at hpattern
    cases hpattern

/-- No registration is planned twice: each has one priority. -/
theorem nodup_plan : ((r.plan line).map Planned.index).Nodup := by
  rw [plan_eq_flatMap, List.map_flatMap, List.nodup_flatMap]
  refine ⟨fun priority _ => nodup_tierPlan, ?_⟩
  have hne : Priority.descending.Pairwise (· ≠ ·) := by decide
  refine hne.imp fun {a b} hab => ?_
  intro k hk hk'
  obtain ⟨p, hp, rfl⟩ := List.mem_map.1 hk
  obtain ⟨p', hp', hindex⟩ := List.mem_map.1 hk'
  obtain ⟨hget, hpriority, -⟩ := mem_tierPlan.1 hp
  obtain ⟨hget', hpriority', -⟩ := mem_tierPlan.1 hp'
  rw [hindex, hget] at hget'
  apply hab
  rw [← hpriority, ← hpriority', Option.some.inj hget']

/-! ## The order of registrations of different tiers -/

section Order

variable {r' : Registry ε}

/-- Which command is the longest depends on the registrations of its tier alone. -/
theorem Longest.of_filter {words : List String}
    (h : r'.filter (·.priority = priority) = r.filter (·.priority = priority))
    (hlongest : r.Longest priority line words) : r'.Longest priority line words := by
  have hmem : ∀ q : Registration ε, q.priority = priority → (q ∈ r' ↔ q ∈ r) := by
    intro q hq
    have hiff : q ∈ r'.filter (·.priority = priority) ↔ q ∈ r.filter (·.priority = priority) := by
      rw [h]
    simpa [hq] using hiff
  obtain ⟨q, hq, hpriority, hpattern⟩ := hlongest.registered
  refine ⟨hlongest.nonempty, ⟨q, (hmem q hpriority).2 hq, hpriority, hpattern⟩, hlongest.begins, ?_⟩
  intro p hp hpp
  exact hlongest.longest p ((hmem p hpp).1 hp) hpp

/-- How a registration is planned for its command does not depend on its number, apart from the
number itself, nor on registrations of other tiers. -/
theorem unnumbered_asCommand
    (h : r'.filter (·.priority = priority) = r.filter (·.priority = priority))
    {q : Registration ε × Nat} (hq : q.1.priority = priority) :
    (r'.asCommand line q).map Planned.unnumbered =
      (r.asCommand line (q.1, 0)).map Planned.unnumbered := by
  unfold asCommand
  cases hpattern : q.1.pattern with
  | any => rfl
  | command words =>
    have hiff : r'.Longest q.1.priority line words ↔ r.Longest q.1.priority line words := by
      rw [hq]
      exact ⟨Longest.of_filter h.symm, Longest.of_filter h⟩
    by_cases hlongest : r.Longest q.1.priority line words
    · simp only [if_pos hlongest, if_pos (hiff.2 hlongest)]
      rfl
    · simp only [if_neg hlongest, if_neg (mt hiff.1 hlongest)]

/-- A selection from a tier that does not look at the numbers is one from the registrations. -/
theorem map_unnumbered_filterMap {f : Registration ε × Nat → Option (Planned ε)}
    {g : Registration ε → Option (Registration ε × String × String)}
    (hf : ∀ q ∈ r.tier priority, (f q).map Planned.unnumbered = g q.1) :
    ((r.tier priority).filterMap f).map Planned.unnumbered =
      (r.filter (·.priority = priority)).filterMap g := by
  rw [List.map_filterMap, ← map_fst_tier, List.filterMap_map]
  exact List.filterMap_congr hf

/-- A tier plans the same of all registries in which it has the same registrations. -/
theorem map_unnumbered_tierPlan
    (h : r'.filter (·.priority = priority) = r.filter (·.priority = priority)) :
    (r'.tierPlan line priority).map Planned.unnumbered =
      (r.tierPlan line priority).map Planned.unnumbered := by
  have hany : ∀ q : Registration ε × Nat, (asAny line q).map Planned.unnumbered =
      (asAny line (q.1, 0)).map Planned.unnumbered := by
    intro q
    unfold asAny
    cases q.1.pattern <;> rfl
  let command (q : Registration ε) := (r.asCommand line (q, 0)).map Planned.unnumbered
  let any (q : Registration ε) := (asAny line (q, 0)).map Planned.unnumbered
  unfold tierPlan
  rw [List.map_append, List.map_append,
    map_unnumbered_filterMap (g := command) fun q hq => unnumbered_asCommand h (mem_tier.1 hq).2,
    map_unnumbered_filterMap (g := command) fun q hq => unnumbered_asCommand rfl (mem_tier.1 hq).2,
    map_unnumbered_filterMap (g := any) fun q _ => hany q,
    map_unnumbered_filterMap (g := any) fun q _ => hany q, h]

end Order

/-- **What is planned for a line.** The plan is that of the four tiers, the highest first, where a
tier plans, each in the order of registration, the handlers of the longest command registered in it
that the line starts with, and then its handlers of every line. Hence

* no registration is planned twice, and a command without words never;
* the longest command of a tier is planned whatever the other tiers plan;
* a planned command takes words that the line has, in lower case and as they are written;
* the order in which registrations of different tiers are made does not matter. -/
theorem plan_eq_tiers (r : Registry ε) (line : String) :
    r.plan line = [.highest, .high, .normal, .low].flatMap (r.tierPlan line) ∧
    ((r.plan line).map Planned.index).Nodup ∧
    (∀ p ∈ r.plan line, r[p.index]? = some p.registration ∧
      p.registration.pattern ≠ .command []) ∧
    (∀ k q words, r[k]? = some q → q.pattern = .command words →
      r.Longest q.priority line words →
        ⟨k, q, spaced words, spaced ((Text.words line).drop words.length)⟩ ∈ r.plan line) ∧
    (∀ p ∈ r.plan line, ∀ words, p.registration.pattern = .command words →
      words.length ≤ (lowerWords line).length ∧ words.length ≤ (Text.words line).length ∧
      p.command = spaced ((lowerWords line).take words.length) ∧
      p.param = spaced ((Text.words line).drop words.length)) ∧
    ∀ r' : Registry ε,
      (∀ priority, r'.filter (·.priority = priority) = r.filter (·.priority = priority)) →
        (r'.plan line).map Planned.unnumbered = (r.plan line).map Planned.unnumbered := by
  have hlength : (lowerWords line).length = (Text.words line).length := List.length_map _
  refine ⟨plan_eq_flatMap r line, nodup_plan, ?_, ?_, ?_, ?_⟩
  · intro p hp
    obtain ⟨hget, -, ⟨words, hpattern, hlongest, -⟩ | ⟨hpattern, -⟩⟩ :=
      mem_tierPlan.1 (mem_plan.1 hp)
    · refine ⟨hget, fun hempty => ?_⟩
      rw [hempty] at hpattern
      exact hlongest.nonempty (CommandPattern.command.inj hpattern).symm
    · exact ⟨hget, fun hempty => by rw [hempty] at hpattern; cases hpattern⟩
  · intro k q words hget hpattern hlongest
    exact mem_plan.2 (mem_tierPlan.2 ⟨hget, rfl, .inl ⟨words, hpattern, hlongest, rfl, rfl⟩⟩)
  · intro p hp words hwords
    obtain ⟨-, -, ⟨words', hpattern, hlongest, hcommand, hparam⟩ | ⟨hpattern, -⟩⟩ :=
      mem_tierPlan.1 (mem_plan.1 hp)
    · rw [hwords] at hpattern
      obtain rfl := CommandPattern.command.inj hpattern
      have hle := hlongest.begins.length_le
      refine ⟨hle, hlength ▸ hle, ?_, hparam⟩
      rw [hcommand, ← List.prefix_iff_eq_take.1 hlongest.begins]
    · rw [hwords] at hpattern
      cases hpattern
  · intro r' h
    rw [plan_eq_flatMap, plan_eq_flatMap, List.map_flatMap, List.map_flatMap]
    exact congrArg (Priority.descending.flatMap ·)
      (funext fun priority => map_unnumbered_tierPlan (h priority))

end Registry

end ChatBot
