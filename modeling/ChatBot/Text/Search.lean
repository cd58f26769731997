/-!
# Searching and cutting texts

Finding a piece inside a text, replacing every occurrence of one, and cutting a text at a
separator. All of it goes from left to right, and occurrences do not overlap.
-/

set_option autoImplicit false

namespace ChatBot.Text

/-- What follows `piece` at the front of `cs`, if `cs` starts with it. -/
def afterPiece? : List Char → List Char → Option (List Char)
  | [], cs => some cs
  | _ :: _, [] => none
  | p :: ps, c :: cs => if p = c then afterPiece? ps cs else none

/-- What stands behind a piece is found if the text starts with the piece. -/
theorem afterPiece?_eq_some {piece cs rest : List Char} :
    afterPiece? piece cs = some rest ↔ cs = piece ++ rest := by
  induction piece generalizing cs with
  | nil => simp [afterPiece?, eq_comm]
  | cons p ps ih =>
    cases cs with
    | nil => simp [afterPiece?]
    | cons c cs =>
      unfold afterPiece?
      split
      · rename_i h; simp [h, ih]
      · rename_i h; simp [Ne.symm h]

/-- Whether `piece` occurs in `cs`. -/
def occursIn (piece : List Char) : List Char → Bool
  | [] => (afterPiece? piece []).isSome
  | c :: cs => (afterPiece? piece (c :: cs)).isSome || occursIn piece cs

/-- A piece occurs in a text that has it with something in front and behind. -/
theorem occursIn_iff {piece cs : List Char} :
    occursIn piece cs = true ↔ ∃ a b, cs = a ++ piece ++ b := by
  induction cs with
  | nil =>
    simp only [occursIn, Option.isSome_iff_exists, afterPiece?_eq_some]
    constructor
    · rintro ⟨r, h⟩; exact ⟨[], r, by simpa using h⟩
    · rintro ⟨a, b, h⟩
      refine ⟨[], ?_⟩
      have h := congrArg List.length h
      simp only [List.length_nil, List.length_append] at h
      have hp : piece = [] := List.length_eq_zero_iff.1 (by omega)
      simp [hp]
  | cons c cs ih =>
    simp only [occursIn, Bool.or_eq_true, Option.isSome_iff_exists, afterPiece?_eq_some, ih]
    constructor
    · rintro (⟨r, h⟩ | ⟨a, b, h⟩)
      · exact ⟨[], r, by simpa using h⟩
      · exact ⟨c :: a, b, by simp [h]⟩
    · rintro ⟨a, b, h⟩
      cases a with
      | nil => exact Or.inl ⟨b, by simpa using h⟩
      | cons x a =>
        simp only [List.cons_append, List.cons.injEq] at h
        exact Or.inr ⟨a, b, h.2⟩

/-- Whether a text contains another. -/
def contains (s piece : String) : Bool :=
  occursIn piece.toList s.toList

/-- Replaces each occurrence of `piece` in `cs`; `skip` characters at the front belong to an
occurrence that has been replaced already. -/
def replaceFrom (piece value : List Char) : Nat → List Char → List Char
  | _, [] => []
  | skip + 1, _ :: cs => replaceFrom piece value skip cs
  | 0, c :: cs =>
    if (afterPiece? piece (c :: cs)).isSome then
      value ++ replaceFrom piece value (piece.length - 1) cs
    else c :: replaceFrom piece value 0 cs

/-- A text with every occurrence of a piece, which is not empty, replaced by a value. -/
def replaceAll (s piece value : String) : String :=
  if piece.isEmpty then s
  else String.ofList (replaceFrom piece.toList value.toList 0 s.toList)

/-- Cuts characters at the first occurrence of a separator. -/
def cutAt (separator : List Char) : List Char → Option (List Char × List Char)
  | [] => (afterPiece? separator []).map fun rest => ([], rest)
  | c :: cs =>
    match afterPiece? separator (c :: cs) with
    | some rest => some ([], rest)
    | none => (cutAt separator cs).map fun (before, after) => (c :: before, after)

/-- The text before and the text after the first occurrence of a separator. -/
def splitOnce (s separator : String) : Option (String × String) :=
  (cutAt separator.toList s.toList).map fun (before, after) =>
    (String.ofList before, String.ofList after)

/-- What follows a beginning, if the text starts with it. -/
def after? (s beginning : String) : Option String :=
  (afterPiece? beginning.toList s.toList).map String.ofList

/-- The pieces between the occurrences of a character; always at least one. -/
def splitAt (separator : Char) : List Char → List (List Char)
  | [] => [[]]
  | c :: cs =>
    if c = separator then [] :: splitAt separator cs
    else
      match splitAt separator cs with
      | [] => [[c]]
      | piece :: pieces => (c :: piece) :: pieces

/-- The pieces of a text between the occurrences of a character. -/
def splitOn (s : String) (separator : Char) : List String :=
  (splitAt separator s.toList).map String.ofList

/-- Texts put together with a separator between neighbours. -/
def joinWith (separator : String) : List String → String
  | [] => ""
  | [s] => s
  | s :: t :: rest => s ++ separator ++ joinWith separator (t :: rest)

/-- Joining texts with a character is joining their characters. -/
theorem toList_joinWith (separator : Char) (texts : List String) :
    (joinWith (String.singleton separator) texts).toList =
      [separator].intercalate (texts.map String.toList) := by
  induction texts using joinWith.induct with
  | case1 => rfl
  | case2 s => simp [joinWith]
  | case3 s t rest ih =>
    rw [joinWith, String.toList_append, String.toList_append, ih]
    simp [List.intercalate_cons_cons]

end ChatBot.Text
