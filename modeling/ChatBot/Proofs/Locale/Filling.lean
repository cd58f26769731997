import ChatBot.Locale
import ChatBot.Proofs.NameMap
import ChatBot.Variables.Operations

/-!
# Filling the places of a text

A text is made of stretches of plain text and of places, which hold a name between double braces. It
is filled name by name, each time throughout the text as it is by then. No occurrence of a place
reaches across another one (`replaceFrom_run`, `replaceFrom_hole`), so a turn fills the open places
of its name, and nothing else unless some stretch between open places looks like this place
(`replaceAll_written`). If no stretch does at the turn of any name, every value stands in the end as
it was given (`fills_verbatim`). But the stretches hold the values of earlier names, and such a
value is searched like the rest of the text (`Renamed.name_searched`).
-/

set_option autoImplicit false

namespace ChatBot

/-! ## Searching a text that is made of two -/

namespace Text

variable {piece value cs rest : List Char}

/-- Where the piece does not begin, the text is copied. -/
theorem replaceFrom_append_of_misses
    (misses : ∀ u s, cs = u ++ s → s ≠ [] → ¬ piece <+: s ++ rest) :
    replaceFrom piece value 0 (cs ++ rest) = cs ++ replaceFrom piece value 0 rest := by
  induction cs with
  | nil => rfl
  | cons c cs ih =>
    have hhere : ¬ (afterPiece? piece (c :: (cs ++ rest))).isSome := by
      intro hsome
      obtain ⟨r, hr⟩ := Option.isSome_iff_exists.1 hsome
      exact misses [] (c :: cs) rfl (List.cons_ne_nil _ _) ⟨r, (afterPiece?_eq_some.1 hr).symm⟩
    have hlater : ∀ u s, cs = u ++ s → s ≠ [] → ¬ piece <+: s ++ rest := by
      intro u s hcs
      exact misses (c :: u) s (by rw [hcs, List.cons_append])
    rw [List.cons_append, replaceFrom, if_neg hhere, ih hlater, List.cons_append]

/-- The characters of a piece that has been replaced are passed over. -/
theorem replaceFrom_skip (piece value cs rest : List Char) :
    replaceFrom piece value cs.length (cs ++ rest) = replaceFrom piece value 0 rest := by
  induction cs with
  | nil => rfl
  | cons c cs ih => rw [List.length_cons, List.cons_append, replaceFrom, ih]

/-- A piece gives way to the value. -/
theorem replaceFrom_piece (hne : piece ≠ []) :
    replaceFrom piece value 0 (piece ++ rest) = value ++ replaceFrom piece value 0 rest := by
  obtain ⟨c, cs, rfl⟩ := List.exists_cons_of_ne_nil hne
  have hhere : (afterPiece? (c :: cs) (c :: (cs ++ rest))).isSome := by
    rw [afterPiece?_eq_some.2 (List.cons_append).symm]
    rfl
  rw [List.cons_append, replaceFrom, if_pos hhere, List.length_cons, Nat.add_sub_cancel,
    replaceFrom_skip]

/-- A text that does not contain a piece stays as it is when the piece is replaced. -/
theorem replaceAll_of_not_contains {s piece : String} (h : contains s piece = false)
    (value : String) : replaceAll s piece value = s := by
  have hnone : replaceFrom piece.toList value.toList 0 (s.toList ++ []) =
      s.toList ++ replaceFrom piece.toList value.toList 0 [] := by
    refine replaceFrom_append_of_misses fun u t hsplit _ => ?_
    rintro ⟨r, hr⟩
    have hin : contains s piece = true :=
      occursIn_iff.2 ⟨u, r, by rw [hsplit, ← List.append_nil t, ← hr, List.append_assoc]⟩
    rw [h] at hin
    cases hin
  rw [replaceAll]
  split
  · rfl
  · rw [List.append_nil, replaceFrom, List.append_nil] at hnone
    rw [hnone, String.ofList_toList]

end Text

namespace Locale

/-! ## Texts in parts -/

/-- A part of a text with places. -/
inductive Part where
  | plain (text : String)
  | hole (name : String)
  deriving DecidableEq

namespace Part

/-- The part as it is written in the text. -/
def written : Part → String
  | plain text => text
  | hole name => place name

/-- The part when the places of a name are filled. -/
def fill (name value : String) : Part → Part
  | plain text => plain text
  | hole other => if other = name then plain value else hole other

/-- What is to be read in the end: a place gives way to its value as it was given. -/
def filled (params : NameMap Json) : Part → String
  | plain text => text
  | hole name => ((params[name]?).map Json.text).getD (place name)

end Part

/-- A text made of parts. -/
def written (parts : List Part) : String :=
  String.join (parts.map Part.written)

/-- The same text with a value in each place that has one. -/
def filled (params : NameMap Json) (parts : List Part) : String :=
  String.join (parts.map (Part.filled params))

/-- No brace occurs in a name. -/
def Bare (name : String) : Prop :=
  '\x7b' ∉ name.toList ∧ '\x7d' ∉ name.toList

instance (name : String) : Decidable (Bare name) :=
  inferInstanceAs (Decidable (_ ∧ _))

/-- The stretches of text between the open places, the first of them with `run` in front. -/
def stretches (run : String) : List Part → List String
  | [] => [run]
  | .plain text :: parts => stretches (run ++ text) parts
  | .hole _ :: parts => run :: stretches "" parts

/-- Nothing but the open places of a name looks like its place. The place of a name with braces in
it might also be put together from parts of other places. -/
def Clear (name : String) (parts : List Part) : Prop :=
  if Bare name then ∀ run ∈ stretches "" parts, Text.contains run (place name) = false
  else Text.contains (written parts) (place name) = false

instance (name : String) (parts : List Part) : Decidable (Clear name parts) :=
  inferInstanceAs (Decidable (if Bare name then _ else _))

/-- At the turn of each name, with those before it filled, nothing but its open places looks like
its place. -/
def ClearInTurn : List (String × Json) → List Part → Prop
  | [], _ => True
  | (name, value) :: params, parts =>
    Clear name parts ∧ ClearInTurn params (parts.map (Part.fill name value.text))

/-! ## One turn -/

/-- The place of a name is the name in two pairs of braces. -/
theorem toList_place (name : String) :
    (place name).toList = '\x7b' :: '\x7b' :: (name.toList ++ ['\x7d', '\x7d']) := by
  rw [place, String.toList_append, String.toList_append, List.append_assoc]
  rfl

/-- The place of a name is not empty. -/
theorem place_ne_nil (name : String) : (place name).toList ≠ [] := by
  rw [toList_place]
  exact List.cons_ne_nil _ _

/-- No brace opens right after the two at the front of a place. -/
theorem closing_ne {name : String} {r more : List Char} (hname : Bare name) :
    name.toList ++ ['\x7d', '\x7d'] ++ r ≠ '\x7b' :: more := by
  intro hmore
  rcases hchars : name.toList with - | ⟨c, cs⟩
  · rw [hchars] at hmore
    cases hmore
  · rw [hchars] at hmore
    refine hname.1 ?_
    rw [hchars, (List.cons.inj hmore).1]
    exact List.mem_cons_self

/-- A place is not cut in two by the beginning of a place. -/
theorem not_across {name : String} {s t r more : List Char} (hname : Bare name) (hs : s ≠ [])
    (ht : t ≠ []) (hst : (place name).toList = s ++ t) : t ++ r ≠ '\x7b' :: '\x7b' :: more := by
  intro hmore
  obtain ⟨d, t, rfl⟩ := List.exists_cons_of_ne_nil ht
  obtain ⟨c, s, rfl⟩ := List.exists_cons_of_ne_nil hs
  obtain ⟨hd, hafter⟩ := List.cons.inj hmore
  rw [toList_place] at hst
  have hcut := (List.cons.inj hst).2
  cases s with
  | nil =>
    -- cut between the two braces: a third one would have to follow
    have hclosing : name.toList ++ ['\x7d', '\x7d'] = t := (List.cons.inj hcut).2
    rw [← hclosing] at hafter
    exact closing_ne hname hafter
  | cons x s =>
    have hclosing : name.toList ++ ['\x7d', '\x7d'] = s ++ d :: t := (List.cons.inj hcut).2
    have hin : '\x7b' ∈ name.toList ++ ['\x7d', '\x7d'] := by
      rw [hclosing, hd]
      exact List.mem_append_right _ List.mem_cons_self
    exact hname.1 (by simpa using hin)

/-- An occurrence of a place that begins in a run of text ends there, if what follows is nothing or
a place. -/
theorem replaceFrom_run {name : String} (value : List Char) {run rest : List Char}
    (hname : Bare name)
    (hrun : Text.occursIn (place name).toList run = false)
    (hrest : rest = [] ∨ ∃ other more, rest = (place other).toList ++ more) :
    Text.replaceFrom (place name).toList value 0 (run ++ rest) =
      run ++ Text.replaceFrom (place name).toList value 0 rest := by
  refine Text.replaceFrom_append_of_misses fun u s hsplit hs => ?_
  rintro ⟨r, hr⟩
  have houtside : ∀ t, s ≠ (place name).toList ++ t := by
    intro t hst
    have hin : Text.occursIn (place name).toList run = true :=
      Text.occursIn_iff.2 ⟨u, t, by rw [hsplit, hst, List.append_assoc]⟩
    rw [hrun] at hin
    cases hin
  rcases List.append_eq_append_iff.1 hr with ⟨t, hst, -⟩ | ⟨t, hst, ht⟩
  · exact houtside t hst
  · have htne : t ≠ [] := by
      rintro rfl
      exact houtside [] (by rw [List.append_nil, hst, List.append_nil])
    rcases hrest with rfl | ⟨other, more, rfl⟩
    · exact htne (List.append_eq_nil_iff.1 ht.symm).1
    · rw [toList_place] at ht
      exact not_across hname hs htne hst ht.symm

/-- What stands in front of the first occurrence of a character is determined. -/
theorem eq_of_append_cons {c : Char} {u v x y : List Char} (hu : c ∉ u) (hv : c ∉ v)
    (h : u ++ c :: x = v ++ c :: y) : u = v := by
  induction u generalizing v with
  | nil =>
    cases v with
    | nil => rfl
    | cons d v => exact absurd ((List.cons.inj h).1 ▸ List.mem_cons_self) hv
  | cons d u ih =>
    cases v with
    | nil => exact absurd ((List.cons.inj h).1 ▸ List.mem_cons_self) hu
    | cons d' v =>
      obtain ⟨hd, hrest⟩ := List.cons.inj h
      rw [hd, ih (fun hin => hu (List.mem_cons_of_mem _ hin))
        (fun hin => hv (List.mem_cons_of_mem _ hin)) hrest]

/-- An occurrence of a place does not begin within the place of another name. -/
theorem replaceFrom_hole {name other : String} {value rest : List Char} (hname : Bare name)
    (hother : Bare other) (hne : other ≠ name) :
    Text.replaceFrom (place name).toList value 0 ((place other).toList ++ rest) =
      (place other).toList ++ Text.replaceFrom (place name).toList value 0 rest := by
  refine Text.replaceFrom_append_of_misses fun u s hsplit hs => ?_
  rintro ⟨r, hr⟩
  rw [toList_place] at hsplit hr
  rcases u with _ | ⟨c, _ | ⟨d, u⟩⟩
  · -- from the first brace on, the names would have to be the same
    rw [List.nil_append] at hsplit
    rw [← hsplit] at hr
    have hnames : name.toList ++ '\x7d' :: ('\x7d' :: r) =
        other.toList ++ '\x7d' :: ('\x7d' :: rest) := by
      simpa using hr
    exact hne (String.toList_inj.1 (eq_of_append_cons hname.2 hother.2 hnames).symm)
  · -- from the second brace on, there is no second one
    have htail : '\x7b' :: (other.toList ++ ['\x7d', '\x7d']) = s := (List.cons.inj hsplit).2
    rw [← htail] at hr
    exact closing_ne hother (List.cons.inj hr).2.symm
  · have htail : other.toList ++ ['\x7d', '\x7d'] = u ++ s :=
      (List.cons.inj (List.cons.inj hsplit).2).2
    obtain ⟨x, s, rfl⟩ := List.exists_cons_of_ne_nil hs
    have hin : '\x7b' ∈ other.toList ++ ['\x7d', '\x7d'] := by
      rw [htail, ← (List.cons.inj hr).1]
      exact List.mem_append_right _ List.mem_cons_self
    exact hother.1 (by simpa using hin)

/-- A text made of parts, one part at a time. -/
theorem written_cons (part : Part) (parts : List Part) :
    written (part :: parts) = part.written ++ written parts := by
  rw [written, List.map_cons, String.join_cons, written]

/-- The name of every place is free of braces. -/
def BareHoles (parts : List Part) : Prop :=
  ∀ name, .hole name ∈ parts → Bare name

/-- Replacing the place of a name fills its open places, if nothing else looks like it. -/
theorem replaceFrom_written {name : String} (value : String) (hname : Bare name)
    {parts : List Part} (hparts : BareHoles parts) {run : String}
    (hclear : ∀ s ∈ stretches run parts, Text.contains s (place name) = false) :
    Text.replaceFrom (place name).toList value.toList 0 (run ++ written parts).toList =
      (run ++ written (parts.map (Part.fill name value))).toList := by
  induction parts generalizing run with
  | nil =>
    have hrun : Text.occursIn (place name).toList run.toList = false :=
      hclear run List.mem_cons_self
    have hcopied := replaceFrom_run value.toList hname hrun (Or.inl rfl)
    rw [List.append_nil] at hcopied
    show Text.replaceFrom (place name).toList value.toList 0 (run ++ "").toList = (run ++ "").toList
    rw [String.append_empty, hcopied, Text.replaceFrom, List.append_nil]
  | cons part parts ih =>
    have hrest : BareHoles parts := fun other hin => hparts other (List.mem_cons_of_mem _ hin)
    rw [List.map_cons, written_cons, written_cons]
    cases part with
    | plain text =>
      rw [Part.written, ← String.append_assoc, ih hrest hclear, String.append_assoc]
      rfl
    | hole other =>
      have hrun : Text.occursIn (place name).toList run.toList = false :=
        hclear run List.mem_cons_self
      have hlater := @ih hrest "" fun s hs => hclear s (List.mem_cons_of_mem _ hs)
      rw [String.empty_append, String.empty_append] at hlater
      rw [String.toList_append, String.toList_append, Part.written,
        replaceFrom_run _ hname hrun (Or.inr ⟨other, _, rfl⟩), String.toList_append,
        String.toList_append, Part.fill]
      split
      case isTrue heq =>
        rw [heq, Text.replaceFrom_piece (place_ne_nil name), hlater]
        rfl
      case isFalse hne =>
        rw [replaceFrom_hole hname (hparts other List.mem_cons_self) hne, hlater]
        rfl

/-- A turn fills the open places of its name, if nothing else looks like its place. -/
theorem replaceAll_written {name : String} (value : String) {parts : List Part}
    (hparts : BareHoles parts) (hclear : Clear name parts) :
    Text.replaceAll (written parts) (place name) value =
      written (parts.map (Part.fill name value)) := by
  unfold Clear at hclear
  split at hclear
  case isTrue hname =>
    have hfilled := replaceFrom_written value hname hparts hclear
    rw [String.empty_append, String.empty_append] at hfilled
    have hne : (place name).isEmpty = false := by
      rw [String.isEmpty_eq_false_iff]
      exact fun hempty => place_ne_nil name (by rw [hempty]; rfl)
    rw [Text.replaceAll, hne, hfilled, String.ofList_toList]
    rfl
  case isFalse hname =>
    have hnone : ∀ part ∈ parts, part.fill name value = part := by
      intro part hin
      cases part with
      | plain text => rfl
      | hole other => exact if_neg fun heq : other = name => hname (heq ▸ hparts other hin)
    rw [Text.replaceAll_of_not_contains hclear, List.map_congr_left hnone, List.map_id']

/-! ## All turns -/

/-- Filling places leaves places whose names are free of braces. -/
theorem BareHoles.map_fill {parts : List Part} (h : BareHoles parts) (name value : String) :
    BareHoles (parts.map (Part.fill name value)) := by
  intro other hin
  obtain ⟨part, hpart, hfill⟩ := List.mem_map.1 hin
  cases part with
  | plain text => cases hfill
  | hole first =>
    rw [Part.fill] at hfill
    split at hfill
    · cases hfill
    · exact Part.hole.inj hfill ▸ h first hpart

/-- Replacing the places of one name after the other fills the parts in turn, as long as nothing
looks like a place that is none. -/
theorem foldl_written {params : List (String × Json)} {parts : List Part}
    (hparts : BareHoles parts) (hclear : ClearInTurn params parts) :
    params.foldl (fun text param => Text.replaceAll text (place param.1) param.2.text)
        (written parts) =
      written (parts.map fun part =>
        params.foldl (fun part param => part.fill param.1 param.2.text) part) := by
  induction params generalizing parts with
  | nil => rw [List.foldl_nil]; exact congrArg written (List.map_id' parts).symm
  | cons param params ih =>
    obtain ⟨hhere, hlater⟩ := hclear
    rw [List.foldl_cons, replaceAll_written _ hparts hhere, ih (hparts.map_fill _ _) hlater,
      List.map_map]
    rfl

/-- Filling places leaves plain text. -/
theorem foldl_fill_plain (params : List (String × Json)) (text : String) :
    params.foldl (fun part param => part.fill param.1 param.2.text) (Part.plain text) =
      .plain text := by
  induction params with
  | nil => rfl
  | cons param params ih => exact ih

/-- A place is filled with the first value of its name. -/
theorem written_foldl_fill_hole (params : List (String × Json)) (name : String) :
    (params.foldl (fun part param => part.fill param.1 param.2.text) (Part.hole name)).written =
      ((params.find? (·.1 == name)).map (·.2.text)).getD (place name) := by
  induction params with
  | nil => rfl
  | cons param params ih =>
    rw [List.foldl_cons, Part.fill, List.find?_cons]
    by_cases h : name = param.1
    · rw [if_pos h, foldl_fill_plain, beq_iff_eq.2 h.symm]
      rfl
    · rw [if_neg h, beq_eq_false_iff_ne.2 (Ne.symm h), ih]

/-- The first entry of a name in the listing of a map is its value. -/
theorem find?_toList (params : NameMap Json) (name : String) :
    (params.toList.find? (·.1 == name)).map (·.2) = params[name]? := by
  cases hfind : params.toList.find? (·.1 == name) with
  | none =>
    cases hget : params[name]? with
    | none => rfl
    | some value =>
      have hin := Std.ExtTreeMap.mem_toList_iff_getElem?_eq_some.2 hget
      exact absurd (beq_self_eq_true name) (List.find?_eq_none.1 hfind _ hin)
  | some param =>
    obtain ⟨other, value⟩ := param
    have hfound := List.find?_some hfind
    have hname : other = name := beq_iff_eq.1 hfound
    have hin := List.mem_of_find?_eq_some hfind
    rw [hname] at hin
    exact (Std.ExtTreeMap.mem_toList_iff_getElem?_eq_some.1 hin).symm

/-- A part that has been filled in turn is written as what is to be read in the end. -/
theorem written_foldl_fill (params : NameMap Json) (part : Part) :
    (params.toList.foldl (fun part param => part.fill param.1 param.2.text) part).written =
      part.filled params := by
  cases part with
  | plain text => rw [foldl_fill_plain]; rfl
  | hole name =>
    rw [written_foldl_fill_hole, Part.filled, ← find?_toList, Option.map_map]
    rfl

/-- If nothing looks like a place but the places, each value stands as it was given. -/
theorem fillPlaces_written {params : NameMap Json} {parts : List Part} (hparts : BareHoles parts)
    (hclear : ClearInTurn params.toList parts) :
    fillPlaces (written parts) params = filled params parts := by
  rw [fillPlaces, foldl_written hparts hclear, written, List.map_map, filled]
  exact congrArg String.join (List.map_congr_left fun part _ => written_foldl_fill params part)

/-! ## The texts of the bot -/

/-- The values that a notice of a change offers to its wording. -/
def noticeValues (name : String) (change : VariableChange) (c : Capabilities) : NameMap Json :=
  NameMap.ofList [
    ("sender", .str c.username), ("variable", .str name), ("value", .str change.newValue),
    ("old_value", .str change.oldValue)]

/-- Each value stands as it was given, whatever it is, if at the turn of each name nothing but its
open places looks like its place; and so in the messages and in the notices of changes. -/
theorem fills_verbatim {params : NameMap Json} {parts : List Part} (hparts : BareHoles parts)
    (hclear : ClearInTurn params.toList parts) :
    fillPlaces (written parts) params = filled params parts ∧
      (∀ (t : Translator) (key : String), t.entries[key]? = some (written parts) →
        t.localize key params = filled params parts) ∧
      ∀ (name : String) (change : VariableChange) (c : Capabilities),
        params = noticeValues name change c →
          (Variables.notification name (written parts) change c).text = filled params parts := by
  have hfilled := fillPlaces_written hparts hclear
  refine ⟨hfilled, fun t key hkey => ?_, fun name change c hparams => ?_⟩
  · rw [Translator.localize, hkey]
    exact hfilled
  · rw [hparams] at hfilled ⊢
    exact hfilled

namespace Debts

/-- Who owes how much, told twice. -/
def parts : List Part :=
  [.hole "sender", .plain " owes ", .hole "amount", .plain ", ", .hole "sender", .plain "!"]

/-- A name in braces, which is no place. -/
def params : NameMap Json :=
  NameMap.ofList [("sender", .str "\x7balice\x7d"), ("amount", .int 50)]

/-- A name that looks half like a place stays as it is in both of its places. -/
theorem owes_verbatim :
    BareHoles parts ∧ ClearInTurn params.toList parts ∧
      fillPlaces
          "\x7b\x7bsender\x7d\x7d owes \x7b\x7bamount\x7d\x7d, \x7b\x7bsender\x7d\x7d!"
          params =
        "\x7balice\x7d owes 50, \x7balice\x7d!" := by
  have hparts : BareHoles parts := by
    intro name hin
    simp only [parts, List.mem_cons, Part.hole.injEq, reduceCtorEq, false_or, List.not_mem_nil,
      or_false] at hin
    rcases hin with rfl | rfl | rfl <;> decide
  have hparams : params.toList =
      [("amount", .int 50), ("sender", .str "\x7balice\x7d")] := by rfl
  have hclear : ClearInTurn params.toList parts := by
    rw [hparams]
    exact ⟨by decide +kernel, by decide +kernel, trivial⟩
  have hfilled : filled params parts = "\x7balice\x7d owes 50, \x7balice\x7d!" := by
    decide +kernel
  exact ⟨hparts, hclear, (fills_verbatim hparts hclear).1.trans hfilled⟩

end Debts

namespace Renamed

/-- Who has set what to what. -/
def wording : List Part :=
  [.hole "sender", .plain ", ", .hole "variable", .plain " was set to ", .hole "value", .plain "."]

def change : VariableChange where
  oldValue := "hi"
  newValue := "bye"

/-- A sender who goes by the text of a place. -/
def stranger : Capabilities :=
  .viewer ⟨"1", "\x7b\x7bvalue\x7d\x7d"⟩

/-- The name of the sender is filled in before the value, which is then looked for in it. -/
theorem name_searched :
    (Variables.notification "$_quote" (written wording) change stranger).text =
        "bye, $_quote was set to bye." ∧
      filled (noticeValues "$_quote" change stranger) wording =
        "\x7b\x7bvalue\x7d\x7d, $_quote was set to bye." := by
  decide +kernel

end Renamed

/-! ## Values without an opening brace -/

/-- No stretch of text between places has a brace if no plain part has one. -/
theorem stretches_braceless {run : String} {parts : List Part} (hrun : '\x7b' ∉ run.toList)
    (hparts : ∀ text, .plain text ∈ parts → '\x7b' ∉ text.toList) :
    ∀ s ∈ stretches run parts, '\x7b' ∉ s.toList := by
  induction parts generalizing run with
  | nil =>
    intro s hs
    rwa [List.mem_singleton.1 hs]
  | cons part parts ih =>
    have hrest : ∀ text, .plain text ∈ parts → '\x7b' ∉ text.toList := fun text hin =>
      hparts text (List.mem_cons_of_mem _ hin)
    cases part with
    | plain text =>
      refine ih ?_ hrest
      rw [String.toList_append, List.mem_append, not_or]
      exact ⟨hrun, hparts text List.mem_cons_self⟩
    | hole name =>
      intro s hs
      rcases List.mem_cons.1 hs with rfl | hs
      · exact hrun
      · exact ih List.not_mem_nil hrest s hs

/-- A text without an opening brace contains no place. -/
theorem contains_place_braceless {s : String} (hs : '\x7b' ∉ s.toList) (name : String) :
    Text.contains s (place name) = false := by
  refine Bool.eq_false_iff.2 fun hin => ?_
  obtain ⟨u, v, huv⟩ := Text.occursIn_iff.1 hin
  refine hs ?_
  rw [huv, toList_place]
  simp

/-- Nothing looks like a place at any turn, if neither the text between the places nor a value has
an opening brace in it. -/
theorem clearInTurn_of_braceless {params : List (String × Json)} {parts : List Part}
    (hnames : ∀ param ∈ params, Bare param.1)
    (hvalues : ∀ param ∈ params, '\x7b' ∉ param.2.text.toList)
    (hparts : ∀ text, .plain text ∈ parts → '\x7b' ∉ text.toList) : ClearInTurn params parts := by
  induction params generalizing parts with
  | nil => trivial
  | cons param params ih =>
    obtain ⟨hname, hnames⟩ := List.forall_mem_cons.1 hnames
    obtain ⟨hvalue, hvalues⟩ := List.forall_mem_cons.1 hvalues
    refine ⟨?_, ih hnames hvalues fun text hin => ?_⟩
    · rw [Clear, if_pos hname]
      exact fun s hs => contains_place_braceless
        (stretches_braceless List.not_mem_nil hparts s hs) param.1
    · obtain ⟨part, hpart, hfill⟩ := List.mem_map.1 hin
      cases part with
      | plain first => exact Part.plain.inj hfill ▸ hparts first hpart
      | hole other =>
        rw [Part.fill] at hfill
        split at hfill
        · exact Part.plain.inj hfill ▸ hvalue
        · cases hfill

/-- A notice gives the sender's name and the values as they are, if none of them has an opening
brace in it. -/
theorem notification_braceless {parts : List Part} (hparts : BareHoles parts)
    (hplain : ∀ text, .plain text ∈ parts → '\x7b' ∉ text.toList) {name : String}
    {change : VariableChange} {c : Capabilities}
    (hvalues : ∀ s ∈ [c.username, name, change.newValue, change.oldValue], '\x7b' ∉ s.toList) :
    (Variables.notification name (written parts) change c).text =
      filled (noticeValues name change c) parts := by
  have hlisted : ∀ param ∈ (noticeValues name change c).toList, param ∈ [
      ("sender", .str c.username), ("variable", .str name), ("value", .str change.newValue),
      ("old_value", .str change.oldValue)] := by
    intro param hin
    refine (NameMap.getElem?_ofList ?_).1 (Std.ExtTreeMap.mem_toList_iff_getElem?_eq_some.1 hin)
    show ["sender", "variable", "value", "old_value"].Nodup
    decide
  refine fillPlaces_written hparts (clearInTurn_of_braceless (fun param hin => ?_)
    (fun param hin => ?_) hplain)
  · have hbare : ∀ s ∈ ["sender", "variable", "value", "old_value"], Bare s := by decide
    refine hbare _ ?_
    have hparam := hlisted param hin
    simp only [List.mem_cons, List.not_mem_nil, or_false] at hparam ⊢
    rcases hparam with rfl | rfl | rfl | rfl <;> simp
  · have hparam := hlisted param hin
    simp only [List.mem_cons, List.not_mem_nil, or_false] at hparam hvalues
    rcases hparam with rfl | rfl | rfl | rfl
    · exact hvalues _ (Or.inl rfl)
    · exact hvalues _ (Or.inr (Or.inl rfl))
    · exact hvalues _ (Or.inr (Or.inr (Or.inl rfl)))
    · exact hvalues _ (Or.inr (Or.inr (Or.inr rfl)))

end Locale

end ChatBot
