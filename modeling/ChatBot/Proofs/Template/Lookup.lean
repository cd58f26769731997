import ChatBot.Template.Lookup

/-!
# Where paths lead

A path is written with keys that hold no dot, with one dot between each two of them, and there is
one way to read it so (`dotted_iff`). A key leads from an object to the field of that name and, read
as a natural number, from a list to the item that stands there (`Reaches`).

Main statement: what a lookup comes to is the text of the value that the path leads to, and no text
if the path leads nowhere (`shows_iff`).
-/

set_option autoImplicit false

namespace ChatBot

/-! ## Dotted paths -/

namespace Text

/-- Splitting at a character is the library's. -/
theorem splitAt_eq_splitOn (separator : Char) (cs : List Char) :
    splitAt separator cs = cs.splitOn separator := by
  induction cs with
  | nil => rfl
  | cons c cs ih =>
    rw [splitAt, List.splitOn_cons_eq_if_modifyHead, ih]
    obtain ⟨piece, pieces, hpieces⟩ := List.exists_cons_of_ne_nil (List.splitOn_ne_nil separator cs)
    simp [hpieces]

/-- The character does not occur in the pieces it splits. -/
theorem not_mem_of_mem_splitAt {separator : Char} {cs piece : List Char}
    (h : piece ∈ splitAt separator cs) : separator ∉ piece := by
  induction cs generalizing piece with
  | nil =>
    rw [splitAt, List.mem_singleton] at h
    rw [h]
    exact List.not_mem_nil
  | cons c cs ih =>
    rw [splitAt] at h
    split at h
    · rcases List.mem_cons.1 h with rfl | h
      · exact List.not_mem_nil
      · exact ih h
    · rename_i hc
      have hcons {first : List Char} (hfirst : separator ∉ first) : separator ∉ c :: first := by
        rw [List.mem_cons, not_or]
        exact ⟨fun heq => hc heq.symm, hfirst⟩
      split at h
      · rw [List.mem_singleton] at h
        rw [h]
        exact hcons List.not_mem_nil
      · rename_i first pieces hpieces
        rw [hpieces] at ih
        rcases List.mem_cons.1 h with rfl | h
        · exact hcons (ih List.mem_cons_self)
        · exact ih (List.mem_cons_of_mem _ h)

end Text

namespace Template

/-- The path is written with these keys. -/
structure Dotted (keys : List String) (path : String) : Prop where
  ne_nil : keys ≠ []
  bare : ∀ key ∈ keys, '.' ∉ key.toList
  written : path = Text.joinWith "." keys

/-- A path is written with the keys that it is split into, and no others. -/
theorem dotted_iff {keys : List String} {path : String} :
    Dotted keys path ↔ keys = Text.splitOn path '.' := by
  have hdot : "." = String.singleton '.' := rfl
  constructor
  · rintro ⟨hne, hbare, rfl⟩
    have hpieces : ∀ piece ∈ keys.map String.toList, '.' ∉ piece := by simpa using hbare
    rw [Text.splitOn, Text.splitAt_eq_splitOn, hdot, Text.toList_joinWith,
      List.splitOn_intercalate '.' hpieces (by simpa using hne), List.map_map]
    simp
  · rintro rfl
    refine ⟨?_, fun key hkey => ?_, ?_⟩
    · simp [Text.splitOn, Text.splitAt_eq_splitOn]
    · obtain ⟨piece, hpiece, rfl⟩ := List.mem_map.1 hkey
      rw [String.toList_ofList]
      exact Text.not_mem_of_mem_splitAt hpiece
    · rw [← String.toList_inj, hdot, Text.toList_joinWith, Text.splitOn, Text.splitAt_eq_splitOn]
      simp [List.intercalate_splitOn]

/-- The keys lead from the first value to the second one: each into a field of an object, or, as a
natural number, into an item of a list. -/
inductive Reaches : Json → List String → Json → Prop where
  | here (v : Json) : Reaches v [] v
  | field {fields : List (String × Json)} {key : String} {v found : Json} {rest : List String}
      (named : fields.lookup key = some v) (reaches : Reaches v rest found) :
      Reaches (.obj fields) (key :: rest) found
  | item {items : List Json} {key : String} {n : Nat} {v found : Json} {rest : List String}
      (number : Number.readNat? key = some n) (stands : items[n]? = some v)
      (reaches : Reaches v rest found) : Reaches (.arr items) (key :: rest) found

/-- Following keys finds a value if they lead to it. -/
theorem follow?_eq_some_iff {v found : Json} {keys : List String} :
    follow? v keys = some found ↔ Reaches v keys found := by
  constructor
  · intro h
    induction keys generalizing v with
    | nil =>
      cases h
      exact .here _
    | cons key rest ih =>
      rw [follow?, Option.bind_eq_some_iff] at h
      obtain ⟨next, hnext, h⟩ := h
      cases v with
      | obj fields => exact .field hnext (ih h)
      | arr items =>
        obtain ⟨n, hn, hitem⟩ := Option.bind_eq_some_iff.1 hnext
        exact .item hn hitem (ih h)
      | null | bool | int | float | str => cases hnext
  · intro h
    induction h with
    | here => rfl
    | field named reaches ih => rw [follow?, stepInto?, named, Option.bind_some, ih]
    | item number stands reaches ih =>
      rw [follow?, stepInto?, number, Option.bind_some, stands, Option.bind_some, ih]

/-- The text is what a path shows of a value, if there is one: the text of the value that the keys
of the path lead to, and nothing if they lead nowhere. -/
def Shows (held : Option Json) (path text : String) : Prop :=
  ∃ keys, Dotted keys path ∧
    ((∃ v found, held = some v ∧ Reaches v keys found ∧ text = found.text) ∨
      ((∀ v, held = some v → ∀ found, ¬ Reaches v keys found) ∧ text = ""))

/-- A lookup comes to what the path shows, and there is one text that it shows. -/
theorem shows_iff {held : Option Json} {path text : String} (h : path ≠ "_response") :
    Shows held path text ↔ text = (held.map fun v => lookupPath v path).getD "" := by
  simp only [Shows, dotted_iff, exists_eq_left, ← follow?_eq_some_iff]
  cases held with
  | none => simp
  | some v =>
    rw [Option.map_some, Option.getD_some, lookupPath, if_neg h]
    cases hfollow : follow? v (Text.splitOn path '.') <;> simp [hfollow]

end Template

end ChatBot
