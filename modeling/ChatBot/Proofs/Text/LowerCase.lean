import ChatBot.Text.Blank
import ChatBot.Text.LowerCase

/-!
# What lower case leads to

Lower-casing makes no blanks and loses no characters, so a word in lower case is still one word
(`lower_word`), and a text in lower case stays as it is (`lower_lower`). For the letters with a
partner these are facts about the table of letter case: none of its runs leads to a range of blanks
(`lowerRuns_apart`), and none leads to letters that have a partner themselves (`lowerRuns_beside`).
-/

set_option autoImplicit false

namespace ChatBot.Text

/-- The ranges in which the blanks lie. -/
def blankRanges : List (Nat × Nat) :=
  [(0x09, 0x0d), (0x20, 0x20), (0x85, 0x85), (0xa0, 0xa0), (0x1680, 0x1680), (0x2000, 0x200a),
    (0x2028, 0x2029), (0x202f, 0x202f), (0x205f, 0x205f), (0x3000, 0x3000)]

/-- Every blank lies in one of the ranges. -/
theorem mem_blankRanges_of_isBlank {c : Char} (h : isBlank c = true) :
    ∃ b ∈ blankRanges, b.1 ≤ c.toNat ∧ c.toNat ≤ b.2 := by
  unfold isBlank at h
  unfold blankRanges
  simp only [List.mem_cons, List.not_mem_nil, or_false, exists_eq_or_imp, exists_eq_left]
  dsimp only at h
  split at h <;> simp only [Bool.or_eq_true, Bool.and_eq_true, beq_iff_eq,
    decide_eq_true_eq] at h <;> omega

/-- The lower-case partners of a run of letters lie before or behind every range of blanks. -/
theorem lowerRuns_apart : ∀ run ∈ CaseTable.lowerRuns, ∀ b ∈ blankRanges,
    (run.2.1 : Int) + run.2.2.2 < b.1 ∨ (b.2 : Int) < run.1 + run.2.2.2 := by
  decide +kernel

/-- No range of blanks starts at zero. -/
theorem blankRanges_pos : ∀ b ∈ blankRanges, 0 < b.1 := by decide

/-- The character of a number is a blank only if the number lies in a range of blanks: a number that
is no character stands for the null character. -/
theorem mem_blankRanges_of_isBlank_ofNat {m : Nat} (h : isBlank (Char.ofNat m) = true) :
    ∃ b ∈ blankRanges, b.1 ≤ m ∧ m ≤ b.2 := by
  obtain ⟨b, hb, hlow, hhigh⟩ := mem_blankRanges_of_isBlank h
  have hpos := blankRanges_pos b hb
  unfold Char.ofNat at hlow hhigh
  by_cases hvalid : m.isValidChar
  · rw [dif_pos hvalid] at hlow hhigh
    exact ⟨b, hb, hlow, hhigh⟩
  · rw [dif_neg hvalid] at hlow
    exact absurd hlow (Nat.not_le.2 hpos)

/-- The lower case of a letter is no blank. -/
theorem isBlank_casePartner {n m : Nat} (h : casePartner CaseTable.lowerRuns n = some m) :
    isBlank (Char.ofNat m) = false := by
  obtain ⟨run, hfind, rfl⟩ := Option.map_eq_some_iff.1 h
  have hrange := List.find?_some hfind
  simp only [Bool.and_eq_true, decide_eq_true_eq] at hrange
  apply Bool.eq_false_iff.2
  intro hblank
  obtain ⟨b, hb, hlow, hhigh⟩ := mem_blankRanges_of_isBlank_ofNat hblank
  have hpos := blankRanges_pos b hb
  have happart := lowerRuns_apart run (List.mem_of_find?_eq_some hfind) b hb
  simp only [Int.ofNat_eq_natCast] at hlow hhigh
  omega

/-- A character that is no blank has a lower-case form, without blanks. -/
theorem lowerChar_word {c : Char} (hc : isBlank c = false) :
    lowerChar c ≠ [] ∧ ∀ d ∈ lowerChar c, isBlank d = false := by
  unfold lowerChar
  dsimp only
  split
  -- among the ASCII letters, the capital ones are moved to where no blanks are
  · split
    · rename_i hupper
      simp only [Bool.and_eq_true, decide_eq_true_eq] at hupper
      refine ⟨List.cons_ne_nil _ _, fun d hd => ?_⟩
      obtain rfl := List.mem_singleton.1 hd
      apply Bool.eq_false_iff.2
      intro hblank
      obtain ⟨b, hb, hlow, hhigh⟩ := mem_blankRanges_of_isBlank_ofNat hblank
      have hbelow : ∀ b ∈ blankRanges, b.2 < 0x61 ∨ 0x7f < b.1 := by decide
      have hrange := hbelow b hb
      omega
    · exact ⟨List.cons_ne_nil _ _, fun d hd => List.mem_singleton.1 hd ▸ hc⟩
  · split
    -- the only character with two in lower case
    · refine ⟨List.cons_ne_nil _ _, fun d hd => ?_⟩
      simp only [List.mem_cons, List.not_mem_nil, or_false] at hd
      rcases hd with rfl | rfl <;> rfl
    · split
      · rename_i m hm
        exact ⟨List.cons_ne_nil _ _, fun d hd => List.mem_singleton.1 hd ▸ isBlank_casePartner hm⟩
      · exact ⟨List.cons_ne_nil _ _, fun d hd => List.mem_singleton.1 hd ▸ hc⟩

/-- A word in lower case is a word: not empty, and without blanks. -/
theorem lowerFrom_word (before : List Char) {cs : List Char} (h : ∀ c ∈ cs, isBlank c = false) :
    (cs ≠ [] → lowerFrom before cs ≠ []) ∧ ∀ d ∈ lowerFrom before cs, isBlank d = false := by
  induction cs generalizing before with
  | nil => exact ⟨fun hne => absurd rfl hne, fun d hd => by cases hd⟩
  | cons c cs ih =>
    have hrest := (ih (c :: before) fun d hd => h d (List.mem_cons_of_mem c hd)).2
    have hhere : ∀ here : List Char, here ≠ [] ∧ (∀ d ∈ here, isBlank d = false) →
        (c :: cs ≠ [] → here ++ lowerFrom (c :: before) cs ≠ []) ∧
          ∀ d ∈ here ++ lowerFrom (c :: before) cs, isBlank d = false := by
      rintro here ⟨hne, hblank⟩
      refine ⟨fun _ hnil => hne (List.append_eq_nil_iff.1 hnil).1, fun d hd => ?_⟩
      rcases List.mem_append.1 hd with hd | hd
      · exact hblank d hd
      · exact hrest d hd
    rw [lowerFrom]
    apply hhere
    split
    · split
      · exact ⟨List.cons_ne_nil _ _, fun d hd => List.mem_singleton.1 hd ▸ rfl⟩
      · exact ⟨List.cons_ne_nil _ _, fun d hd => List.mem_singleton.1 hd ▸ rfl⟩
    · exact lowerChar_word (h c List.mem_cons_self)

/-- A word in lower case is a word. -/
theorem lower_word {w : String} (h : w.toList ≠ [] ∧ ∀ c ∈ w.toList, isBlank c = false) :
    (lower w).toList ≠ [] ∧ ∀ c ∈ (lower w).toList, isBlank c = false := by
  unfold lower
  rw [String.toList_ofList]
  have hword := lowerFrom_word [] h.2
  exact ⟨hword.1 h.1, hword.2⟩

/-! ## What is in lower case already -/

/-- Whether code points from `low` to `high`, with a gap between neighbours if `alternating`, lie
beside a run of letters or in its gaps. -/
def beside (low high : Nat) (alternating : Bool) (run : Nat × Nat × Nat × Int) : Bool :=
  Nat.blt high run.1 || (Nat.blt run.2.1 low ||
    (alternating && (Nat.beq run.2.2.1 2 && Nat.beq ((low + run.1) % 2) 1)))

/-- The lower-case partners of a run of letters have no partner themselves, and none is the dotted
capital I. -/
theorem lowerRuns_beside : (CaseTable.lowerRuns.all fun run =>
    ((0x130, 0x130, 1, 0) :: CaseTable.lowerRuns).all
      (beside (run.1 + run.2.2.2).toNat (run.2.1 + run.2.2.2).toNat
        (Nat.beq run.2.2.1 2 || Nat.beq run.1 run.2.1))) = true := by
  decide +kernel

/-- The distance to a partner leads to a code point. -/
theorem lowerRuns_nonneg : ∀ run ∈ CaseTable.lowerRuns, 0 ≤ (run.1 : Int) + run.2.2.2 := by
  decide +kernel

/-- Whether a code point is one of a run of letters. -/
def isIn (n : Nat) (run : Nat × Nat × Nat × Int) : Bool :=
  run.1 ≤ n && n ≤ run.2.1 && (n - run.1) % run.2.2.1 == 0

/-- The lower case of a letter in a run is in none of the runs. -/
theorem isIn_partner {n : Nat} {run other : Nat × Nat × Nat × Int}
    (hrun : run ∈ CaseTable.lowerRuns) (hn : isIn n run = true)
    (hother : other ∈ (0x130, 0x130, 1, 0) :: CaseTable.lowerRuns) :
    isIn (Int.ofNat n + run.2.2.2).toNat other = false := by
  have hbeside := List.all_eq_true.1 (List.all_eq_true.1 lowerRuns_beside run hrun) other hother
  have hnonneg := lowerRuns_nonneg run hrun
  simp only [beside, Bool.or_eq_true, Bool.and_eq_true, Nat.blt_eq, Nat.beq_eq] at hbeside
  simp only [isIn, Bool.and_eq_true, decide_eq_true_eq, beq_iff_eq] at hn
  apply Bool.eq_false_iff.2
  simp only [isIn, Int.ofNat_eq_natCast, ne_eq, Bool.and_eq_true, decide_eq_true_eq, beq_iff_eq]
  rintro ⟨⟨hlow, hhigh⟩, hgap⟩
  rcases hbeside with hbefore | hbehind | ⟨hrungap, hothergap, hodd⟩
  · omega
  · omega
  · -- both are run through in steps of two, and begin at different parities
    rw [hothergap] at hgap
    rcases hrungap with htwo | hone
    · rw [htwo] at hn
      omega
    · omega

/-- A character that lower-casing leaves as it is, wherever it stands. -/
def IsLowered (c : Char) : Prop :=
  lowerChar c = [c] ∧ c ≠ 'Σ'

/-- A character that has no partner is in lower case. -/
theorem isLowered_of_forall {c : Char} (hdotted : c.toNat ≠ 0x130)
    (hnone : ∀ run ∈ CaseTable.lowerRuns, isIn c.toNat run = false) : IsLowered c := by
  have hpartner : casePartner CaseTable.lowerRuns c.toNat = none := by
    refine Option.map_eq_none_iff.2 (List.find?_eq_none.2 fun run hrun => ?_)
    exact Bool.eq_false_iff.1 (hnone run hrun)
  have hcapital := hnone (65, 90, 1, 32) (by decide +kernel)
  refine ⟨?_, ?_⟩
  · unfold lowerChar
    dsimp only
    rw [hpartner]
    split
    · split
      · rename_i hupper
        simp [isIn, Nat.mod_one] at hcapital hupper
        omega
      · rfl
    · rw [if_neg (by simpa using hdotted)]
  · rintro rfl
    have hsigma := hnone (931, 939, 1, 32) (by decide +kernel)
    exact absurd hsigma (by decide)

/-- The lower case of a letter in a run stays as it is. -/
theorem isLowered_ofNat_partner {n : Nat} {run : Nat × Nat × Nat × Int}
    (hrun : run ∈ CaseTable.lowerRuns) (hn : isIn n run = true) :
    IsLowered (Char.ofNat (Int.ofNat n + run.2.2.2).toNat) := by
  generalize hm : (Int.ofNat n + run.2.2.2).toNat = m
  have hother : ∀ other ∈ (0x130, 0x130, 1, 0) :: CaseTable.lowerRuns, isIn m other = false :=
    fun other hother => hm ▸ isIn_partner hrun hn hother
  by_cases hvalid : m.isValidChar
  · have htoNat : (Char.ofNat m).toNat = m := by
      rw [Char.ofNat, dif_pos hvalid]
      rfl
    apply isLowered_of_forall
    · rw [htoNat]
      rintro rfl
      exact absurd (hother _ List.mem_cons_self) (by decide)
    · rw [htoNat]
      exact fun run hrun => hother run (List.mem_cons_of_mem _ hrun)
  · rw [Char.ofNat, dif_neg hvalid]
    exact ⟨by decide, by decide⟩

/-- The lower-case form of a character is in lower case. -/
theorem isLowered_of_mem_lowerChar {c d : Char} (hc : c ≠ 'Σ') (hd : d ∈ lowerChar c) :
    IsLowered d := by
  have hself (h : lowerChar c = [c]) : IsLowered d := by
    rw [h, List.mem_singleton] at hd
    rw [hd]
    exact ⟨h, hc⟩
  by_cases hascii : c.toNat < 0x80
  · by_cases hcapital : isIn c.toNat (65, 90, 1, 32) = true
    · have hlower : lowerChar c = [Char.ofNat (Int.ofNat c.toNat + 32).toNat] := by
        simp only [isIn, Nat.mod_one, Bool.and_eq_true, decide_eq_true_eq] at hcapital
        rw [lowerChar, if_pos hascii, if_pos (by simpa using hcapital.1)]
        rfl
      have hrun : (65, 90, 1, 32) ∈ CaseTable.lowerRuns := by decide +kernel
      have hsettled := isLowered_ofNat_partner hrun hcapital
      rw [hlower, List.mem_singleton] at hd
      rwa [hd]
    · apply hself
      simp only [isIn, Nat.mod_one, BEq.rfl, Bool.and_true] at hcapital
      rw [lowerChar, if_pos hascii, if_neg hcapital]
  · by_cases hdotted : c.toNat = 0x130
    · rw [lowerChar, if_neg hascii, if_pos (beq_iff_eq.2 hdotted)] at hd
      simp only [List.mem_cons, List.not_mem_nil, or_false] at hd
      rcases hd with rfl | rfl
      · exact ⟨by decide, by decide⟩
      · exact isLowered_of_forall (by decide) (by decide +kernel)
    · rw [lowerChar, if_neg hascii, if_neg (by simpa using hdotted)] at hself hd
      cases hpartner : casePartner CaseTable.lowerRuns c.toNat with
      | none =>
        rw [hpartner] at hself
        exact hself rfl
      | some m =>
        rw [hpartner] at hd
        obtain ⟨run, hfind, rfl⟩ := Option.map_eq_some_iff.1 hpartner
        rw [List.mem_singleton.1 hd]
        exact isLowered_ofNat_partner (List.mem_of_find?_eq_some hfind) (List.find?_some hfind)

/-- Every character of a text in lower case stays as it is. -/
theorem isLowered_of_mem_lowerFrom {before cs : List Char} {d : Char}
    (hd : d ∈ lowerFrom before cs) : IsLowered d := by
  induction cs generalizing before with
  | nil => cases hd
  | cons c cs ih =>
    rw [lowerFrom, List.mem_append] at hd
    rcases hd with hhere | hrest
    · split at hhere
      -- both forms of a sigma are small letters
      · have hsigma : d = 'ς' ∨ d = 'σ' := by
          split at hhere
          · exact .inl (List.mem_singleton.1 hhere)
          · exact .inr (List.mem_singleton.1 hhere)
        rcases hsigma with rfl | rfl
        · exact isLowered_of_forall (by decide) (by decide +kernel)
        · exact isLowered_of_forall (by decide) (by decide +kernel)
      · rename_i hc
        exact isLowered_of_mem_lowerChar (by simpa using hc) hhere
    · exact ih hrest

/-- A text whose characters stay as they are is in lower case. -/
theorem lowerFrom_of_isLowered (before : List Char) {cs : List Char}
    (h : ∀ c ∈ cs, IsLowered c) : lowerFrom before cs = cs := by
  induction cs generalizing before with
  | nil => rfl
  | cons c cs ih =>
    obtain ⟨hself, hsigma⟩ := h c List.mem_cons_self
    rw [lowerFrom, ih (c :: before) fun d hd => h d (List.mem_cons_of_mem c hd),
      if_neg (by simpa using hsigma), hself]
    rfl

/-- A text in lower case stays as it is. -/
theorem lower_lower (s : String) : lower (lower s) = lower s := by
  unfold lower
  rw [String.toList_ofList, lowerFrom_of_isLowered [] fun _ hd => isLowered_of_mem_lowerFrom hd]

end ChatBot.Text
