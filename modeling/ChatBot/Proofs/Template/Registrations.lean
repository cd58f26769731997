import ChatBot.Proofs.Template.Filters
import ChatBot.Proofs.Text.Trimming

/-!
# Names that filters are registered under

A name is one for filters if it is made of a few characters, dots among them, and its first part,
up to the first dot, does not belong to a built-in family. Each such name can be taken once. What
stands in front of a first dot has no dot in it, so it can neither be mistaken for a longer name nor
hide one: a name that is taken stands for its filter, and a name of a built-in family stands for
what it always did, since nothing in a registry begins with the first part of a family.

Main statement: this is so after any calls, whichever of them were refused (`registrations_stand`).
-/

set_option autoImplicit false

namespace ChatBot

/-! ## Texts with blanks around them -/

namespace Text

/-- The second text is the first one with blanks around it. -/
def Padded (s text : String) : Prop :=
  ∃ front back, text.toList = front ++ s.toList ++ back ∧
    (∀ c ∈ front, isBlank c = true) ∧ ∀ c ∈ back, isBlank c = true

/-- A text has no blanks around itself. -/
theorem padded_self (s : String) : Padded s s :=
  ⟨[], [], by simp, nofun, nofun⟩

/-- A text is what is left of it when it is trimmed, with blanks around that. -/
theorem padded_trim (text : String) : Padded (trim text) text := by
  obtain ⟨front, back, htext, hfront, hback⟩ := (trimmed_trimChars text.toList).margins
  exact ⟨front, back, by rw [trim, String.toList_ofList]; exact htext, hfront, hback⟩

/-- Trimming takes the blanks off a text that has none at its own ends. -/
theorem trim_of_padded {s text : String} (h : Padded s text)
    (hhead : ∀ c ∈ s.toList.head?, isBlank c = false)
    (hlast : ∀ c ∈ s.toList.getLast?, isBlank c = false) : trim text = s := by
  obtain ⟨front, back, htext, hfront, hback⟩ := h
  have htrimmed : Trimmed text.toList s.toList :=
    ⟨⟨front, back, htext, hfront, hback⟩, hhead, hlast⟩
  rw [trim, htrimmed.eq, String.ofList_toList]

/-- A text that begins with no blank keeps what stands up to a character that is no blank when it is
trimmed, with blanks around it or not. -/
theorem trim_of_padded_append {a b text : String} {c : Char} (hc : isBlank c = false)
    (ha : ∀ d ∈ (a.toList ++ [c]).head?, isBlank d = false)
    (h : Padded (a ++ String.singleton c ++ b) text) :
    ∃ b', trim text = a ++ String.singleton c ++ b' := by
  obtain ⟨front, back, htext, hfront, hback⟩ := h
  let kept := (b.toList ++ back).rdropWhile isBlank
  have hkept : kept ++ (b.toList ++ back).rtakeWhile isBlank = b.toList ++ back :=
    List.rdropWhile_append_rtakeWhile
  have htrimmed : Trimmed text.toList (a.toList ++ [c] ++ kept) := by
    refine ⟨⟨front, (b.toList ++ back).rtakeWhile isBlank, ?_, hfront, ?_⟩, ?_, ?_⟩
    · have hsplit : front ++ (a.toList ++ [c] ++ kept) ++ (b.toList ++ back).rtakeWhile isBlank =
          front ++ (a.toList ++ [c] ++ (kept ++ (b.toList ++ back).rtakeWhile isBlank)) := by
        simp only [List.append_assoc]
      rw [htext, hsplit, hkept]
      simp
    · exact fun d hd => List.mem_rtakeWhile_imp hd
    · intro d hd
      have hne : a.toList ++ [c] ≠ [] := by simp
      rw [List.head?_append_of_ne_nil _ hne] at hd
      exact ha d hd
    · intro d hd
      rw [List.getLast?_append] at hd
      by_cases hnil : kept = []
      · rw [hnil, List.getLast?_nil, Option.none_or, List.getLast?_concat] at hd
        cases hd
        exact hc
      · rw [List.getLast?_eq_some_getLast hnil, Option.some_or] at hd
        cases hd
        exact (Bool.not_eq_true _).mp (List.rdropWhile_last_not isBlank _ hnil)
  refine ⟨String.ofList kept, ?_⟩
  rw [trim, htrimmed.eq, ← String.toList_inj]
  simp

/-- A cut at a character is made where it occurs first. -/
theorem cutAt_singleton_eq_some_iff {separator : Char} {cs before after : List Char} :
    cutAt [separator] cs = some (before, after) ↔
      cs = before ++ separator :: after ∧ separator ∉ before := by
  induction cs generalizing before with
  | nil => simp [cutAt, afterPiece?]
  | cons c cs ih =>
    by_cases hc : separator = c
    · subst hc
      have hcut : cutAt [separator] (separator :: cs) = some ([], cs) := by
        simp [cutAt, afterPiece?]
      rw [hcut]
      cases before with
      | nil => simp [eq_comm]
      | cons d before =>
        simp only [Option.some_inj, Prod.mk.injEq, List.cons_append, List.cons.injEq,
          List.mem_cons, not_or]
        refine iff_of_false (by simp) ?_
        rintro ⟨⟨hd, -⟩, hne, -⟩
        exact hne hd
    · have hcut : cutAt [separator] (c :: cs) =
          (cutAt [separator] cs).map fun pieces => (c :: pieces.1, pieces.2) := by
        simp [cutAt, afterPiece?, hc]
      rw [hcut, Option.map_eq_some_iff]
      cases before with
      | nil =>
        refine iff_of_false (by simp) ?_
        rintro ⟨heq, -⟩
        exact hc (List.cons.inj heq).1.symm
      | cons d before =>
        constructor
        · rintro ⟨⟨before', after'⟩, hrest, heq⟩
          simp only [Prod.mk.injEq, List.cons.injEq] at heq
          obtain ⟨⟨rfl, rfl⟩, rfl⟩ := heq
          obtain ⟨rfl, hbefore⟩ := ih.1 hrest
          exact ⟨rfl, by simp [hc, hbefore]⟩
        · rintro ⟨heq, hbefore⟩
          obtain ⟨rfl, rfl⟩ := List.cons.inj heq
          rw [List.mem_cons, not_or] at hbefore
          exact ⟨(before, after), ih.2 ⟨rfl, hbefore.2⟩, rfl⟩

/-- A text is split at its first dot. -/
theorem splitOnce_dot_eq_some_iff {s before after : String} :
    splitOnce s "." = some (before, after) ↔ s = before ++ "." ++ after ∧ '.' ∉ before.toList := by
  have hdot : ".".toList = ['.'] := rfl
  have hchars : s = before ++ "." ++ after ↔ s.toList = before.toList ++ '.' :: after.toList := by
    rw [← String.toList_inj]
    simp
  rw [hchars, ← cutAt_singleton_eq_some_iff, splitOnce, hdot, Option.map_eq_some_iff]
  constructor
  · rintro ⟨⟨cs, ds⟩, hcut, heq⟩
    simp only [Prod.mk.injEq] at heq
    obtain ⟨rfl, rfl⟩ := heq
    rw [hcut, String.toList_ofList, String.toList_ofList]
  · intro hcut
    exact ⟨(before.toList, after.toList), hcut, by simp⟩

end Text

namespace Template

/-! ## Names of filters -/

/-- The characters of a filter's name, of which there is at least one. -/
structure FilterName (name : String) : Prop where
  ne_empty : name ≠ ""
  chars : ∀ c ∈ name.toList, c.isAlphanum = true ∨ c = '.' ∨ c = '_' ∨ c = '-'

/-- The first dotted part of a name is that of a built-in family. -/
def BuiltinName (name : String) : Prop :=
  ∃ part ∈ ["if", "random", "api", "math", "toPercent", "toFloat"],
    name = part ∨ ∃ rest, name = part ++ "." ++ rest

/-- ASCII letters and digits are the library's. -/
theorem isAsciiAlnum_eq_isAlphanum (c : Char) : Text.isAsciiAlnum c = c.isAlphanum := by
  have hupper : c.isUpper = true ↔ 65 ≤ c.toNat ∧ c.toNat ≤ 90 := decide_eq_true_iff
  have hlower : c.isLower = true ↔ 97 ≤ c.toNat ∧ c.toNat ≤ 122 :=
    Bool.and_eq_true_iff.trans (and_congr decide_eq_true_iff decide_eq_true_iff)
  have hdigit : c.isDigit = true ↔ 48 ≤ c.toNat ∧ c.toNat ≤ 57 :=
    Bool.and_eq_true_iff.trans (and_congr decide_eq_true_iff decide_eq_true_iff)
  have halphanum : c.isAlphanum = (c.isUpper || c.isLower || c.isDigit) := rfl
  rw [halphanum, Bool.eq_iff_iff]
  simp only [Text.isAsciiAlnum, Bool.or_eq_true, Bool.and_eq_true, decide_eq_true_eq, hupper,
    hlower, hdigit]
  omega

/-- No built-in family has a dot in its name. -/
theorem not_dot_mem_builtinParts : ∀ part ∈ builtinParts, '.' ∉ part.toList := by
  decide

/-- The first part of a name is what stands in front of its first dot. -/
theorem firstPart_dotted {first : String} (h : '.' ∉ first.toList) (rest : String) :
    firstPart (first ++ "." ++ rest) = first := by
  have hfirst : ∀ c ∈ first.toList, (c != '.') = true := by
    intro c hc
    rw [bne_iff_ne]
    rintro rfl
    exact h hc
  have hchars : (first ++ "." ++ rest).toList = first.toList ++ '.' :: rest.toList := by simp
  rw [firstPart, hchars, List.takeWhile_append_of_pos hfirst, List.takeWhile_cons_of_neg (by simp),
    List.append_nil, String.ofList_toList]

/-- A name without a dot is its own first part. -/
theorem firstPart_of_not_mem {name : String} (h : '.' ∉ name.toList) : firstPart name = name := by
  have hname : ∀ c ∈ name.toList, (c != '.') = true := by
    intro c hc
    rw [bne_iff_ne]
    rintro rfl
    exact h hc
  rw [firstPart, List.takeWhile_eq_self_iff.2 hname, String.ofList_toList]

/-- A name is either without a dot or written as its first part, a dot and the rest. -/
theorem exists_dotted (name : String) :
    '.' ∉ name.toList ∨ ∃ first rest, name = first ++ "." ++ rest ∧ '.' ∉ first.toList := by
  by_cases hmem : '.' ∈ name.toList
  · obtain ⟨before, after, hsplit, hbefore⟩ := List.eq_append_cons_of_mem hmem
    refine .inr ⟨String.ofList before, String.ofList after, ?_, by simpa using hbefore⟩
    rw [← String.toList_inj, hsplit]
    simp
  · exact .inl hmem

/-- A name is that of a built-in family if its first part is one of theirs. -/
theorem builtinName_iff {name : String} : BuiltinName name ↔ firstPart name ∈ builtinParts := by
  constructor
  · rintro ⟨part, hpart, rfl | ⟨rest, rfl⟩⟩
    · rwa [firstPart_of_not_mem (not_dot_mem_builtinParts _ hpart)]
    · rwa [firstPart_dotted (not_dot_mem_builtinParts part hpart)]
  · intro h
    refine ⟨firstPart name, h, ?_⟩
    rcases exists_dotted name with hplain | ⟨first, rest, rfl, hfirst⟩
    · exact .inl (firstPart_of_not_mem hplain).symm
    · rw [firstPart_dotted hfirst]
      exact .inr ⟨rest, rfl⟩

/-- There are no blanks in the name of a filter. -/
theorem FilterName.not_blank {name : String} (h : FilterName name) :
    ∀ c ∈ name.toList, Text.isBlank c = false := by
  intro c hc
  rcases h.chars c hc with halnum | rfl | rfl | rfl
  · rw [← isAsciiAlnum_eq_isAlphanum] at halnum
    simp only [Text.isAsciiAlnum, Bool.or_eq_true, Bool.and_eq_true, decide_eq_true_eq] at halnum
    have hascii : c.toNat < 0x80 := by omega
    simp only [Text.isBlank, hascii, if_true, Bool.or_eq_false_iff, beq_eq_false_iff_ne,
      Bool.and_eq_false_iff, decide_eq_false_iff_not]
    omega
  all_goals decide

/-- Blanks around a name are trimmed. -/
theorem FilterName.trim {name text : String} (h : FilterName name)
    (hpadded : Text.Padded name text) : Text.trim text = name :=
  Text.trim_of_padded hpadded (fun c hc => h.not_blank c (List.mem_of_head? hc)) fun c hc =>
    h.not_blank c (List.mem_of_getLast? hc)

/-- A name stays in its built-in family when it is trimmed, with blanks around it or not. -/
theorem BuiltinName.trim {name text : String} (h : BuiltinName name)
    (hpadded : Text.Padded name text) : BuiltinName (Text.trim text) := by
  obtain ⟨part, hpart, hname⟩ := h
  have hblank : ∀ part ∈ builtinParts, part.toList.all (fun c => !Text.isBlank c) = true := by
    decide
  have hchars : ∀ c ∈ part.toList, Text.isBlank c = false := by simpa using hblank part hpart
  rcases hname with rfl | ⟨rest, rfl⟩
  · refine ⟨name, hpart, .inl ?_⟩
    exact Text.trim_of_padded hpadded (fun c hc => hchars c (List.mem_of_head? hc)) fun c hc =>
      hchars c (List.mem_of_getLast? hc)
  · have hhead : ∀ c ∈ (part.toList ++ ['.']).head?, Text.isBlank c = false := by
      intro c hc
      rcases List.mem_append.1 (List.mem_of_head? hc) with hc | hc
      · exact hchars c hc
      · rw [List.mem_singleton.1 hc]
        decide
    obtain ⟨rest', htrim⟩ := Text.trim_of_padded_append (c := '.') (by decide) hhead hpadded
    exact ⟨part, hpart, .inr ⟨rest', htrim⟩⟩

/-- A name of no built-in family is not classified as one. -/
theorem classifyBuiltin_eq_none {name : String} (h : ¬ BuiltinName name) :
    classifyBuiltin name = none := by
  simp only [builtinName_iff, builtinParts, List.mem_cons, List.not_mem_nil, or_false, not_or] at h
  simp [classifyBuiltin, h]

/-! ## Registries -/

namespace FilterRegistry

variable {r r' : FilterRegistry} {name : String} {filter : CustomFilter}

/-- What a call of `register` requires, and what it does. -/
theorem register_eq_ok_iff : r.register name filter = .ok r' ↔
    (FilterName name ∧ ¬ BuiltinName name ∧ r.custom[name]? = none) ∧
      r' = ⟨r.custom.insert name filter⟩ := by
  have hname : (name.isEmpty || !name.toList.all isFilterNameChar) = true ↔ ¬ FilterName name := by
    rw [← not_iff_not, not_not]
    simp only [Bool.or_eq_true, not_or, Bool.not_eq_true, String.isEmpty_eq_false_iff,
      Bool.not_eq_false', List.all_eq_true]
    constructor
    · rintro ⟨hne, hchars⟩
      refine ⟨hne, fun c hc => ?_⟩
      have := hchars c hc
      simpa [isFilterNameChar, isAsciiAlnum_eq_isAlphanum, or_assoc] using this
    · rintro ⟨hne, hchars⟩
      refine ⟨hne, fun c hc => ?_⟩
      simpa [isFilterNameChar, isAsciiAlnum_eq_isAlphanum, or_assoc] using hchars c hc
  have hbuiltin : isBuiltin name = true ↔ BuiltinName name := by
    rw [builtinName_iff, isBuiltin, List.contains_iff_mem]
  rw [register]
  split
  · next hrefused => simp [hname.1 hrefused]
  · next hvalid =>
    rw [hname, not_not] at hvalid
    split
    · next hclash => simp [hbuiltin.1 hclash]
    · next hfree =>
      rw [hbuiltin] at hfree
      split
      · next found hfound => simp [hfound]
      · next hnew => simp [hvalid, hfree, hnew, eq_comm]

/-- The registries that registering leads to. -/
inductive Built : FilterRegistry → Prop
  | empty : Built {}
  | register {r r' : FilterRegistry} {name : String} {filter : CustomFilter} (built : Built r)
      (h : r.register name filter = .ok r') : Built r'

/-- What is registered stands under the name of a filter, and under none that is built in. -/
theorem Built.named (built : r.Built) (h : r.custom[name]? = some filter) :
    FilterName name ∧ ¬ BuiltinName name := by
  induction built with
  | empty => simp at h
  | @register r r' other filter' _ hregister ih =>
    obtain ⟨⟨hname, hfree, -⟩, rfl⟩ := register_eq_ok_iff.1 hregister
    rw [Std.ExtTreeMap.getElem?_insert] at h
    split at h
    · next heq =>
      obtain rfl := Std.LawfulEqCmp.eq_of_compare heq
      exact ⟨hname, hfree⟩
    · exact ih h

/-- Nothing is registered under a name of a built-in family. -/
theorem Built.getElem?_of_builtinName (built : r.Built) (h : BuiltinName name) :
    r.custom[name]? = none := by
  refine Option.eq_none_iff_forall_ne_some.2 fun filter hfilter => ?_
  exact (built.named hfilter).2 h

/-- A registered filter is found under its name, with any blanks around it. -/
theorem Built.classify_of_getElem? (built : r.Built) (h : r.custom[name]? = some filter)
    {text : String} (hpadded : Text.Padded name text) : r.classify text = .custom filter := by
  obtain ⟨hname, hfree⟩ := built.named h
  rw [classify, hname.trim hpadded, classifyTrimmed, classifyBuiltin_eq_none hfree, h]

/-- A name of a built-in family stands for what the family makes of it. -/
theorem Built.classify_of_builtinName (built : r.Built) (h : BuiltinName name) {text : String}
    (hpadded : Text.Padded name text) :
    r.classify text = (classifyBuiltin (Text.trim text)).getD .unknown := by
  have hbuiltin := h.trim hpadded
  rw [classify, classifyTrimmed]
  cases classifyBuiltin (Text.trim text) with
  | some kind => rfl
  | none =>
    rw [built.getElem?_of_builtinName hbuiltin]
    cases hsplit : Text.splitOnce (Text.trim text) "." with
    | none => rfl
    | some pieces =>
      -- what stands in front of the dot is the first part of the family
      obtain ⟨key, path⟩ := pieces
      obtain ⟨hname, hkey⟩ := Text.splitOnce_dot_eq_some_iff.1 hsplit
      have hpart : key ∈ builtinParts := by
        rw [builtinName_iff, hname, firstPart_dotted hkey] at hbuiltin
        exact hbuiltin
      have hnone : r.custom[key]? = none := built.getElem?_of_builtinName ⟨key, hpart, .inl rfl⟩
      simp [Std.ExtTreeMap.contains_eq_isSome_getElem?, hnone]

/-! ## Sequences of calls -/

/-- A call is accepted. -/
def Accepts (r : FilterRegistry) (name : String) (filter : CustomFilter) : Prop :=
  ∃ r', r.register name filter = .ok r'

/-- What calls that register filters under names make of the empty registry; those that are refused
leave it as it is. -/
def after (calls : List (String × CustomFilter)) : FilterRegistry :=
  calls.foldl (fun r call => ((r.register call.1 call.2).toOption).getD r) {}

/-- Among the calls is one that has registered the filter under the name. -/
def Accepted (calls : List (String × CustomFilter)) (name : String) (filter : CustomFilter) :
    Prop :=
  ∃ earlier later, calls = earlier ++ (name, filter) :: later ∧ (after earlier).Accepts name filter

/-- A call is accepted if its name is one of a filter, not built in, and free. -/
theorem accepts_iff : r.Accepts name filter ↔
    FilterName name ∧ ¬ BuiltinName name ∧ r.custom[name]? = none := by
  simp only [Accepts, register_eq_ok_iff, exists_and_left, exists_eq, and_true]

variable {calls : List (String × CustomFilter)}

/-- What the registry is after one more call. -/
theorem after_concat (calls : List (String × CustomFilter)) (name : String)
    (filter : CustomFilter) : after (calls ++ [(name, filter)]) =
      (((after calls).register name filter).toOption).getD (after calls) := by
  rw [after, List.foldl_concat]
  rfl

/-- A call that is refused leaves the registry. -/
theorem after_concat_of_not_accepts (h : ¬ (after calls).Accepts name filter) :
    after (calls ++ [(name, filter)]) = after calls := by
  rw [after_concat]
  cases hregister : (after calls).register name filter with
  | ok r' => exact absurd ⟨r', hregister⟩ h
  | error e => rfl

/-- What has been registered after one more call. -/
theorem accepted_concat_iff {call : String × CustomFilter} :
    Accepted (calls ++ [call]) name filter ↔
      Accepted calls name filter ∨ call = (name, filter) ∧ (after calls).Accepts name filter := by
  constructor
  · rintro ⟨earlier, later, hcalls, haccepts⟩
    cases later using List.reverseRecOn with
    | nil =>
      obtain ⟨rfl, rfl⟩ := List.append_inj' hcalls rfl |>.imp id List.singleton_inj.1
      exact .inr ⟨rfl, haccepts⟩
    | append_singleton later last _ =>
      have hsplit : calls ++ [call] = (earlier ++ (name, filter) :: later) ++ [last] := by
        rw [hcalls]
        simp
      exact .inl ⟨earlier, later, (List.append_inj' hsplit rfl).1, haccepts⟩
  · rintro (⟨earlier, later, rfl, haccepts⟩ | ⟨rfl, haccepts⟩)
    · exact ⟨earlier, later ++ [call], by simp, haccepts⟩
    · exact ⟨calls, [], rfl, haccepts⟩

/-- Whatever the calls, the registry after them has been built by registering. -/
theorem built_after (calls : List (String × CustomFilter)) : (after calls).Built := by
  induction calls using List.reverseRecOn with
  | nil => exact .empty
  | append_singleton calls call ih =>
    rw [after_concat]
    cases hregister : (after calls).register call.1 call.2 with
    | ok r' => exact .register ih hregister
    | error e => exact ih

/-- What is registered is what has been accepted. -/
theorem getElem?_after :
    (after calls).custom[name]? = some filter ↔ Accepted calls name filter := by
  induction calls using List.reverseRecOn with
  | nil =>
    refine iff_of_false (by simp [after]) ?_
    rintro ⟨earlier, later, hcalls, -⟩
    simp at hcalls
  | append_singleton calls call ih =>
    obtain ⟨other, filter'⟩ := call
    rw [accepted_concat_iff, ← ih, after_concat]
    cases hregister : (after calls).register other filter' with
    | error e =>
      have hrefused : ¬ (after calls).Accepts other filter' := by
        rintro ⟨r', h⟩
        rw [hregister] at h
        cases h
      refine (or_iff_left ?_).symm
      rintro ⟨hcall, haccepts⟩
      cases hcall
      exact hrefused haccepts
    | ok r' =>
      obtain ⟨⟨hname, hfree, hnew⟩, rfl⟩ := register_eq_ok_iff.1 hregister
      have haccepts : (after calls).Accepts other filter' := ⟨_, hregister⟩
      show ((after calls).custom.insert other filter')[name]? = some filter ↔ _
      rw [Std.ExtTreeMap.getElem?_insert]
      by_cases heq : other = name
      · subst heq
        rw [if_pos Std.ReflCmp.compare_self, hnew]
        simp only [Option.some_inj, reduceCtorEq, false_or, Prod.mk.injEq, true_and]
        exact ⟨fun h => ⟨h, h ▸ haccepts⟩, fun h => h.1⟩
      · rw [if_neg fun h => heq (Std.LawfulEqCmp.eq_of_compare h)]
        simp [heq]

/-- **Registrations neither shadow nor are shadowed.** After any calls, of which any may have been
refused,

* another call is accepted if and only if its name is one for filters, does not belong to a built-in
  family and has not been accepted before;
* a call that is refused changes nothing;
* every name that has been accepted stands for the filter of its call, also with blanks around it;
* a name of a built-in family stands for what it stands for in a fresh registry. -/
theorem registrations_stand (calls : List (String × CustomFilter)) :
    (∀ name filter, (after calls).Accepts name filter ↔
      FilterName name ∧ ¬ BuiltinName name ∧ ∀ other, ¬ Accepted calls name other) ∧
    (∀ name filter, ¬ (after calls).Accepts name filter →
      after (calls ++ [(name, filter)]) = after calls) ∧
    (∀ name filter, Accepted calls name filter → ∀ text, Text.Padded name text →
      (after calls).classify text = .custom filter) ∧
    ∀ name, BuiltinName name → ∀ text, Text.Padded name text →
      (after calls).classify text = ({} : FilterRegistry).classify text := by
  refine ⟨fun name filter => ?_, fun name filter => after_concat_of_not_accepts,
    fun name filter haccepted text hpadded => ?_, fun name hbuiltin text hpadded => ?_⟩
  · simp only [accepts_iff, Option.eq_none_iff_forall_ne_some, ne_eq, getElem?_after]
  · exact (built_after calls).classify_of_getElem? (getElem?_after.2 haccepted) hpadded
  · rw [(built_after calls).classify_of_builtinName hbuiltin hpadded,
      Built.empty.classify_of_builtinName hbuiltin hpadded]

namespace Shouting

def shout : CustomFilter := fun a _ => { text := some (a.args.headD "" ++ "!") }

def whisper : CustomFilter := fun _ _ => { text := none }

/-- A name that is registered twice, between one that is not for filters and one of a family. -/
def attempts : List (String × CustomFilter) :=
  [("loud voice", shout), ("shout.loud", shout), ("shout.loud", whisper), ("math.shout", shout)]

/-- The second attempt of the fixture is the one that is accepted. -/
theorem accepted_shout : Accepted attempts "shout.loud" shout :=
  ⟨[("loud voice", shout)], [("shout.loud", whisper), ("math.shout", shout)], rfl, _, rfl⟩

/-- The first registration of the name stands, and the family of `math` is as ever. -/
theorem stands_shout :
    Accepted attempts "shout.loud" shout ∧
      (after attempts).classify " shout.loud " = .custom shout ∧
      ¬ (after attempts).Accepts "shout.loud" whisper ∧
      after (attempts ++ [("shout.loud", whisper)]) = after attempts ∧
      BuiltinName "math.shout" ∧
      (after attempts).classify "math.shout" = ({} : FilterRegistry).classify "math.shout" := by
  obtain ⟨haccepts, hrefused, hstands, hbuiltin⟩ := registrations_stand attempts
  have hagain : ¬ (after attempts).Accepts "shout.loud" whisper := fun h =>
    ((haccepts _ _).1 h).2.2 shout accepted_shout
  have hmath : BuiltinName "math.shout" := ⟨"math", by decide, .inr ⟨"shout", rfl⟩⟩
  have hpadded : Text.Padded "shout.loud" " shout.loud " :=
    ⟨[' '], [' '], rfl, List.forall_mem_singleton.2 rfl, List.forall_mem_singleton.2 rfl⟩
  exact ⟨accepted_shout, hstands _ _ accepted_shout _ hpadded, hagain, hrefused _ _ hagain, hmath,
    hbuiltin _ hmath _ (Text.padded_self "math.shout")⟩

end Shouting

end FilterRegistry

end Template

end ChatBot
