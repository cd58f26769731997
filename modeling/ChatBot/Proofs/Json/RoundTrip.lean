import ChatBot.Proofs.Json.Reading

/-!
# Written values read back

The text of a value is read as that value again, as long as the value is one that texts can carry:
whole numbers are within sixty-four bits, other numbers read back when they stand alone, the fields
of objects are in the order of their names, and lists and objects are not nested too deeply
(`Readable`). Main statement: `parse?_render`.
-/

set_option autoImplicit false

namespace ChatBot.Json

open ChatBot.Text

/-- Fields in the order of their names, each name once. -/
def Sorted (fields : List (String × Json)) : Prop :=
  fields.Pairwise fun f g => compare f.1 g.1 = .lt

/-- A value that is not lost in its text, inside at most `depth` further lists and objects. -/
inductive Readable : Nat → Json → Prop where
  | null (depth : Nat) : Readable depth null
  | bool (depth : Nat) (b : Bool) : Readable depth (bool b)
  | int (depth : Nat) {n : Int} (low : -2 ^ 63 ≤ n) (high : n < 2 ^ 64) : Readable depth (int n)
  | float (depth : Nat) {x : Float} (h : parse? (render (float x)) = some (float x)) :
    Readable depth (float x)
  | str (depth : Nat) (s : String) : Readable depth (str s)
  | arr {depth : Nat} {items : List Json} (h : ∀ v ∈ items, Readable depth v) :
    Readable (depth + 1) (arr items)
  | obj {depth : Nat} {fields : List (String × Json)} (sorted : Sorted fields)
    (h : ∀ f ∈ fields, Readable depth f.2) : Readable (depth + 1) (obj fields)

/-! ## Numbers that are not whole -/

/-- A digit may stand in a number. -/
theorem inNumber_of_isAsciiDigit {c : Char} (h : isAsciiDigit c) : inNumber c := by
  simp [inNumber, h]

/-- The digits of a natural number may stand in a number. -/
theorem inNumber_of_mem_decimalDigits {n : Nat} : ∀ c ∈ Number.decimalDigits n, inNumber c :=
  fun c hc => inNumber_of_isAsciiDigit (Number.isAsciiDigit_of_mem_decimalDigits c hc)

/-- Zeros may stand in a number. -/
theorem inNumber_of_mem_replicate {k : Nat} : ∀ c ∈ List.replicate k '0', inNumber c :=
  fun c hc => inNumber_of_isAsciiDigit (Number.isAsciiDigit_of_mem_replicate c hc)

/-- The characters of a decimal with a point may stand in a number. -/
theorem inNumber_of_mem_positional (d : Number.Decimal) (places : Nat) :
    ∀ c ∈ d.positional places, inNumber c := by
  unfold Number.Decimal.positional
  dsimp only
  generalize hwhole : (if 0 ≤ d.exponent then
    Number.decimalDigits d.digits ++ List.replicate d.exponent.toNat '0'
    else Number.decimalDigits d.digits) = whole
  have hdigits : ∀ c ∈ whole, inNumber c := by
    subst hwhole
    split
    · exact List.forall_mem_append.2 ⟨inNumber_of_mem_decimalDigits, inNumber_of_mem_replicate⟩
    · exact inNumber_of_mem_decimalDigits
  generalize hpadded :
    List.replicate ((-d.exponent).toNat + 1 - whole.length) '0' ++ whole = padded
  have hall : ∀ c ∈ padded, inNumber c := by
    subst hpadded
    exact List.forall_mem_append.2 ⟨inNumber_of_mem_replicate, hdigits⟩
  have hfront (k : Nat) : ∀ c ∈ padded.take k, inNumber c :=
    fun c hc => hall c (List.mem_of_mem_take hc)
  have hback (k : Nat) : ∀ c ∈ padded.drop k, inNumber c :=
    fun c hc => hall c (List.mem_of_mem_drop hc)
  split
  · exact hfront _
  · refine List.forall_mem_append.2 ⟨hfront _, List.forall_mem_cons.2 ⟨rfl, ?_⟩⟩
    exact List.forall_mem_append.2 ⟨hback _, inNumber_of_mem_replicate⟩

/-- The characters of a decimal with an exponent may stand in a number. -/
theorem inNumber_of_mem_scientific (d : Number.Decimal) : ∀ c ∈ scientific d, inNumber c := by
  unfold scientific
  dsimp only
  generalize hexponent : (Int.ofNat (Number.decimalDigits d.digits).length - 1 + d.exponent) = e
  have hdigits := inNumber_of_mem_decimalDigits (n := d.digits)
  have htail : ∀ c ∈ 'e' :: (if e < 0 then '-' else '+') :: Number.decimalDigits e.natAbs,
      inNumber c := by
    refine List.forall_mem_cons.2 ⟨rfl, List.forall_mem_cons.2 ⟨?_, inNumber_of_mem_decimalDigits⟩⟩
    split <;> rfl
  split
  · exact htail
  · next c hone =>
    rw [hone] at hdigits
    exact List.forall_mem_cons.2 ⟨hdigits c List.mem_cons_self, htail⟩
  · next c rest _ hmore =>
    rw [hmore] at hdigits
    obtain ⟨hfirst, hrest⟩ := List.forall_mem_cons.1 hdigits
    refine List.forall_mem_cons.2 ⟨hfirst, List.forall_mem_cons.2 ⟨rfl, ?_⟩⟩
    exact List.forall_mem_append.2 ⟨hrest, htail⟩

/-- A number is written with characters of numbers, or as null if it is not finite. -/
theorem inNumber_of_mem_floatChars (x : Float) :
    floatChars x = "null".toList ∨ ∀ c ∈ floatChars x, inNumber c := by
  unfold floatChars
  split
  · next negative m q _ =>
    right
    dsimp only
    generalize Number.shortest .even m q = d
    generalize Int.ofNat (Number.decimalDigits d.digits).length - 1 + d.exponent = top
    have htext : ∀ c ∈ if (-5 ≤ top && top < 16) = true then d.positional 1 else scientific d,
        inNumber c := by
      split
      · exact inNumber_of_mem_positional d 1
      · exact inNumber_of_mem_scientific d
    split
    · exact List.forall_mem_cons.2 ⟨rfl, htext⟩
    · exact htext
  · exact .inl rfl

/-- A character of a number is no space, and starts no other kind of value. -/
theorem not_inNumber {c : Char} (hc : inNumber c) : isSpace c = false ∧ c ≠ '"' ∧ c ≠ '[' ∧
    c ≠ '\x7b' ∧ c ≠ 'n' ∧ c ≠ 't' ∧ c ≠ 'f' := by
  have hne {d : Char} (hd : inNumber d = false) : c ≠ d := by
    rintro rfl
    rw [hd] at hc
    cases hc
  refine ⟨?_, hne rfl, hne rfl, hne rfl, hne rfl, hne rfl, hne rfl⟩
  have hblank := hne (d := ' ') rfl
  have hline := hne (d := '\n') rfl
  have htab := hne (d := '\t') rfl
  have hreturn := hne (d := '\r') rfl
  simp [isSpace, hblank, hline, htab, hreturn]

/-- A value that starts with a character of a number is read as a number. -/
theorem readValue_number {c : Char} (hc : inNumber c) (depth fuel : Nat) (tail : List Char) :
    readValue depth (fuel + 1) (c :: tail) =
      if c = '-' then readNumber true tail else readNumber false (c :: tail) := by
  obtain ⟨hspace, hquote, hbracket, hbrace, hn, ht, hf⟩ := not_inNumber hc
  have hfront : (c :: tail).dropWhile isSpace = c :: tail :=
    List.dropWhile_cons_of_neg (by simp [hspace])
  by_cases hminus : c = '-'
  · subst hminus
    rfl
  · simp [readValue, hfront, hquote, hbracket, hbrace, hn, ht, hf, hminus]

/-- If nothing but blanks is left behind a number, nothing is left, and the number is read wherever
it is not gone on with. -/
theorem readNumber_of_blanks {negative : Bool} {cs rest t : List Char} {v : Json}
    (hcs : ∀ d ∈ cs, inNumber d) (hspaces : rest.all isSpace = true)
    (hread : readNumber negative cs = some (v, rest)) (ht : Ends t) :
    readNumber negative (cs ++ t) = some (v, t) := by
  obtain ⟨hsuffix, hmore⟩ := endsSafely_readNumber negative hread
  have hnil : rest = [] := by
    refine List.eq_nil_iff_forall_not_mem.2 fun d hd => ?_
    have hspace := (not_inNumber (hcs d (hsuffix.subset hd))).1
    rw [List.all_eq_true.1 hspaces d hd] at hspace
    cases hspace
  rw [hmore t ht, hnil, List.nil_append]

/-- A number that reads back alone reads back wherever it is not gone on with. -/
theorem readValue_float {x : Float} (h : parse? (render (float x)) = some (float x))
    (depth fuel : Nat) {t : List Char} (ht : Ends t) :
    readValue depth (fuel + 1) (floatChars x ++ t) = some (float x, t) := by
  have htext : (render (float x)).toList = floatChars x := by
    simp [render, chars]
  unfold parse? at h
  dsimp only at h
  rw [htext] at h
  -- what is not finite is written `null`, which does not read back as a number
  rcases inNumber_of_mem_floatChars x with hnull | hall
  · rw [hnull] at h
    cases h
  · cases hcs : floatChars x with
    | nil =>
      rw [hcs] at h
      cases h
    | cons c tail =>
      rw [hcs] at h hall
      have hc := hall c List.mem_cons_self
      rw [readValue_number hc] at h
      rw [List.cons_append, readValue_number hc]
      split at h
      · next v rest hread =>
        split at h
        · next hspaces =>
          cases h
          by_cases hminus : c = '-'
          · rw [if_pos hminus] at hread ⊢
            exact readNumber_of_blanks (fun d hd => hall d (List.mem_cons_of_mem c hd)) hspaces
              hread ht
          · rw [if_neg hminus] at hread ⊢
            rw [← List.cons_append]
            exact readNumber_of_blanks hall hspaces hread ht
        · cases h
      · cases h

/-! ## Values -/

/-- The text of a value, where it ends, is read as the value. -/
def Reads (depth : Nat) (v : Json) : Prop :=
  ∀ (fuel : Nat) (t : List Char), Ends t → 2 * v.chars.length + 1 ≤ fuel →
    readValue depth fuel (v.chars ++ t) = some (v, t)

/-- The text of a whole number within the limits is read as the number. -/
theorem reads_int (depth : Nat) {n : Int} (low : -2 ^ 63 ≤ n) (high : n < 2 ^ 64) :
    Reads depth (int n) := by
  intro fuel t ht hfuel
  obtain ⟨fuel, rfl⟩ : ∃ k, fuel = k + 1 := ⟨fuel - 1, by omega⟩
  have hdigit {m : Nat} {c : Char} {tail : List Char} (hcs : Number.decimalDigits m = c :: tail) :
      isAsciiDigit c := Number.isAsciiDigit_of_mem_decimalDigits c (hcs ▸ List.mem_cons_self)
  cases n with
  | ofNat n =>
    have hn : n < Number.wordLimit := by
      have hlimit : Number.wordLimit = 2 ^ 64 := rfl
      rw [Int.ofNat_eq_natCast] at high
      omega
    obtain ⟨-, hread⟩ := endsSafely_readNumber _ (readNumber_decimalDigits false hn)
    simp only [chars, Number.wholeText, String.toList_ofList]
    have hread := hread t ht
    cases hcs : Number.decimalDigits n with
    | nil => exact absurd hcs Nat.toDigits_ne_nil
    | cons c tail =>
      rw [hcs] at hread
      have hminus : c ≠ '-' := by
        rintro rfl
        cases hdigit hcs
      rw [List.cons_append, readValue_number (inNumber_of_isAsciiDigit (hdigit hcs)),
        if_neg hminus]
      exact hread
  | negSucc n =>
    have hn : n + 1 ≤ Number.signedLimit := by
      have hlimit : Number.signedLimit = 2 ^ 63 := rfl
      omega
    have hword : n + 1 < Number.wordLimit := by
      have hlimit : Number.wordLimit = 2 * Number.signedLimit := rfl
      omega
    obtain ⟨-, hread⟩ := endsSafely_readNumber _ (readNumber_decimalDigits true hword)
    simp only [chars, Number.wholeText, String.toList_ofList]
    rw [List.cons_append, readValue_number rfl, if_pos rfl, hread t ht]
    simp [wholeNumber, Nat.not_lt.2 hn]
    omega

/-- The text of a string is read as the string. -/
theorem reads_str (depth : Nat) (s : String) : Reads depth (str s) := by
  intro fuel t _ hfuel
  obtain ⟨fuel, rfl⟩ : ∃ k, fuel = k + 1 := ⟨fuel - 1, by omega⟩
  have hread := readString?_stringChars s t
  simp only [chars, stringChars, List.cons_append, List.append_assoc, List.nil_append] at hread ⊢
  have hfront (cs : List Char) : ('"' :: cs).dropWhile isSpace = '"' :: cs := rfl
  simp only [readValue, hfront, hread, Option.map_some, String.ofList_toList]

/-- No item starts with the bracket that closes a list. -/
theorem readItems_closed {cs rest : List Char} (h : cs.dropWhile isSpace = ']' :: rest)
    (depth fuel : Nat) : readItems depth fuel cs = none := by
  have hvalue (fuel : Nat) : readValue depth fuel cs = none := by
    cases fuel with
    | zero => rfl
    | succ fuel =>
      simp only [readValue, h]
      rfl
  cases fuel with
  | zero => rfl
  | succ fuel => simp only [readItems, hvalue]

/-- The items of a list are read one after the other, each where the one before it ends. -/
theorem readItems_itemsChars {depth : Nat} {items : List Json} (hne : items ≠ [])
    (h : ∀ v ∈ items, Reads depth v) (fuel : Nat) (t : List Char)
    (hfuel : 2 * (itemsChars items).length ≤ fuel) :
    readItems depth fuel (itemsChars items ++ t) = some (items, t) := by
  induction items generalizing fuel with
  | nil => exact absurd rfl hne
  | cons v items ih =>
    have hv := h v List.mem_cons_self
    cases items with
    | nil =>
      simp only [itemsChars, List.length_append, List.length_singleton] at hfuel
      obtain ⟨fuel, rfl⟩ : ∃ k, fuel = k + 1 := ⟨fuel - 1, by omega⟩
      have hread := hv fuel (']' :: t) (ends_cons rfl t) (by omega)
      simp only [itemsChars, List.append_assoc, List.singleton_append, readItems, hread]
      rfl
    | cons w items =>
      simp only [itemsChars, List.length_append, List.length_cons] at hfuel
      obtain ⟨fuel, rfl⟩ : ∃ k, fuel = k + 1 := ⟨fuel - 1, by omega⟩
      have hread := hv fuel (',' :: (itemsChars (w :: items) ++ t)) (ends_cons rfl _) (by omega)
      have hrest := ih (List.cons_ne_nil w items) (fun u hu => h u (List.mem_cons_of_mem v hu))
        fuel (by omega)
      have hcomma (cs : List Char) : (',' :: cs).dropWhile isSpace = ',' :: cs := rfl
      simp only [itemsChars, List.append_assoc, List.cons_append, readItems, hread, hcomma, hrest,
        Option.map_some]

/-- The text of a list is read as the list if the texts of its items are read as these. -/
theorem reads_arr {depth : Nat} {items : List Json} (h : ∀ v ∈ items, Reads depth v) :
    Reads (depth + 1) (arr items) := by
  intro fuel t _ hfuel
  obtain ⟨fuel, rfl⟩ : ∃ k, fuel = k + 1 := ⟨fuel - 1, by omega⟩
  cases items with
  | nil => rfl
  | cons v items =>
    simp only [chars, List.length_cons] at hfuel
    have hread := readItems_itemsChars (List.cons_ne_nil v items) h fuel t (by omega)
    have hopen (cs : List Char) : ('[' :: cs).dropWhile isSpace = '[' :: cs := rfl
    simp only [chars, List.cons_append, readValue, hopen]
    split
    · next rest hclosed =>
      rw [readItems_closed hclosed] at hread
      cases hread
    · rw [hread, Option.map_some]

/-- The fields of an object are read one after the other, each where the one before it ends. -/
theorem readFields_fieldsChars {depth : Nat} {fields : List (String × Json)} (hne : fields ≠ [])
    (h : ∀ f ∈ fields, Reads depth f.2) (fuel : Nat) (t : List Char)
    (hfuel : 2 * (fieldsChars fields).length ≤ fuel) :
    readFields depth fuel (fieldsChars fields ++ t) = some (fields, t) := by
  induction fields generalizing fuel with
  | nil => exact absurd rfl hne
  | cons f fields ih =>
    obtain ⟨k, v⟩ := f
    have hv : Reads depth v := h (k, v) List.mem_cons_self
    have hquote (cs : List Char) : ('"' :: cs).dropWhile isSpace = '"' :: cs := rfl
    have hcolon (cs : List Char) : (':' :: cs).dropWhile isSpace = ':' :: cs := rfl
    have hcomma (cs : List Char) : (',' :: cs).dropWhile isSpace = ',' :: cs := rfl
    have hbrace (cs : List Char) : ('\x7d' :: cs).dropWhile isSpace = '\x7d' :: cs := rfl
    cases fields with
    | nil =>
      simp only [fieldsChars, List.length_append, List.length_cons, List.length_nil] at hfuel
      obtain ⟨fuel, rfl⟩ : ∃ k, fuel = k + 1 := ⟨fuel - 1, by omega⟩
      have hread := hv fuel ('\x7d' :: t) (ends_cons rfl t) (by omega)
      have hkey := readString?_stringChars k (':' :: (v.chars ++ '\x7d' :: t))
      simp only [fieldsChars, stringChars, List.append_assoc, List.cons_append, List.nil_append,
        readFields, hquote, hkey, hcolon, hread, hbrace, String.ofList_toList]
    | cons g fields =>
      simp only [fieldsChars, List.length_append, List.length_cons] at hfuel
      obtain ⟨fuel, rfl⟩ : ∃ k, fuel = k + 1 := ⟨fuel - 1, by omega⟩
      have hread := hv fuel (',' :: (fieldsChars (g :: fields) ++ t)) (ends_cons rfl _) (by omega)
      have hkey := readString?_stringChars k
        (':' :: (v.chars ++ ',' :: (fieldsChars (g :: fields) ++ t)))
      have hrest := ih (List.cons_ne_nil g fields)
        (fun f hf => h f (List.mem_cons_of_mem (k, v) hf)) fuel (by omega)
      simp only [fieldsChars, stringChars, List.append_assoc, List.cons_append, List.nil_append,
        readFields, hquote, hkey, hcolon, hread, hcomma, hrest, String.ofList_toList,
        Option.map_some]

/-! ## Fields in order -/

section Fields

variable {fields : List (String × Json)}

/-- Inserting a field adds no other fields. -/
theorem mem_insertField {key : String} {v : Json} {f : String × Json}
    (h : f ∈ insertField key v fields) : f = (key, v) ∨ f ∈ fields := by
  induction fields with
  | nil => exact .inl (List.mem_singleton.1 h)
  | cons g fields ih =>
    obtain ⟨k, u⟩ := g
    simp only [insertField] at h
    split at h
    · exact List.mem_cons.1 h
    · exact (List.mem_cons.1 h).imp_right (List.mem_cons_of_mem _)
    · rcases List.mem_cons.1 h with rfl | h
      · exact .inr List.mem_cons_self
      · exact (ih h).imp_right (List.mem_cons_of_mem _)

/-- Fields stay sorted when one is inserted. -/
theorem Sorted.insertField (h : Sorted fields) (key : String) (v : Json) :
    Sorted (insertField key v fields) := by
  induction fields with
  | nil => exact List.pairwise_singleton _ _
  | cons g fields ih =>
    obtain ⟨k, u⟩ := g
    obtain ⟨hfirst, hrest⟩ := List.pairwise_cons.1 h
    simp only [Json.insertField]
    split
    · next hlt =>
      refine List.pairwise_cons.2 ⟨fun f hf => ?_, h⟩
      rcases List.mem_cons.1 hf with rfl | hf
      · exact hlt
      · exact Std.TransCmp.lt_trans hlt (hfirst f hf)
    · next heq =>
      obtain rfl := Std.LawfulEqCmp.eq_of_compare heq
      exact List.pairwise_cons.2 ⟨hfirst, hrest⟩
    · next hgt =>
      refine List.pairwise_cons.2 ⟨fun f hf => ?_, ih hrest⟩
      rcases mem_insertField hf with rfl | hf
      · exact Std.OrientedCmp.gt_iff_lt.1 hgt
      · exact hfirst f hf

/-- Looking a name up in a list, one entry at a time. -/
theorem lookup_cons {α : Type} (name key : String) (v : α) (fields : List (String × α)) :
    ((key, v) :: fields).lookup name = if name = key then some v else fields.lookup name := by
  by_cases h : name = key
  · subst h
    simp
  · rw [List.lookup_cons, beq_false_of_ne h, if_neg h]

/-- An inserted field is found under its name, and the others under theirs. -/
theorem lookup_insertField (name key : String) (v : Json) :
    (insertField key v fields).lookup name =
      if name = key then some v else fields.lookup name := by
  induction fields with
  | nil => exact lookup_cons name key v _
  | cons g fields ih =>
    obtain ⟨k, u⟩ := g
    simp only [insertField]
    split
    · exact lookup_cons name key v _
    · next heq =>
      obtain rfl := Std.LawfulEqCmp.eq_of_compare heq
      rw [lookup_cons, lookup_cons]
      split <;> rfl
    · next hgt =>
      rw [lookup_cons, lookup_cons, ih]
      by_cases hname : name = k
      · have hne : name ≠ key := by
          rintro rfl
          rw [hname, Std.compare_self] at hgt
          cases hgt
        rw [if_pos hname, if_neg hne, if_pos hname]
      · rw [if_neg hname, if_neg hname]

/-- Fields put in order one after the other. -/
def arranged (before fields : List (String × Json)) : List (String × Json) :=
  fields.foldl (fun acc f => insertField f.1 f.2 acc) before

/-- The object of some fields has them in order. -/
theorem ofFields_eq (fields : List (String × Json)) : ofFields fields = obj (arranged [] fields) :=
  rfl

/-- Putting fields in order one after the other leaves them sorted. -/
theorem Sorted.arranged {before : List (String × Json)} (h : Sorted before) :
    Sorted (arranged before fields) := by
  induction fields generalizing before with
  | nil => exact h
  | cons f fields ih => exact ih (h.insertField f.1 f.2)

/-- Putting fields in order adds none. -/
theorem mem_arranged {before : List (String × Json)} {f : String × Json}
    (h : f ∈ arranged before fields) : f ∈ before ∨ f ∈ fields := by
  induction fields generalizing before with
  | nil => exact .inl h
  | cons g fields ih =>
    rcases ih h with h | h
    · rcases mem_insertField h with rfl | h
      · exact .inr List.mem_cons_self
      · exact .inl h
    · exact .inr (List.mem_cons_of_mem g h)

/-- Of several values of one name the last one counts. -/
theorem lookup_arranged (name : String) (before : List (String × Json)) :
    (arranged before fields).lookup name =
      fields.foldl (fun found f => if name = f.1 then some f.2 else found)
        (before.lookup name) := by
  induction fields generalizing before with
  | nil => rfl
  | cons f fields ih =>
    rw [arranged, List.foldl_cons, ← arranged, ih, lookup_insertField, List.foldl_cons]

/-- Fields that come in the order of their names stay as they are. -/
theorem insertField_of_lt {key : String} {v : Json}
    (h : ∀ f ∈ fields, compare f.1 key = .lt) :
    insertField key v fields = fields ++ [(key, v)] := by
  induction fields with
  | nil => rfl
  | cons f fields ih =>
    obtain ⟨hfirst, hrest⟩ := List.forall_mem_cons.1 h
    have hgt : compare key f.1 = .gt := Std.OrientedCmp.gt_iff_lt.2 hfirst
    rw [insertField, hgt]
    exact congrArg (f :: ·) (ih hrest)

/-- Fields that are in order already are not moved. -/
theorem Sorted.arranged_eq {before : List (String × Json)} (h : Sorted (before ++ fields)) :
    Json.arranged before fields = before ++ fields := by
  induction fields generalizing before with
  | nil => simp [Json.arranged]
  | cons f fields ih =>
    have hlast : ∀ g ∈ before, compare g.1 f.1 = .lt :=
      fun g hg => (List.pairwise_append.1 h).2.2 g hg f List.mem_cons_self
    rw [Json.arranged, List.foldl_cons, insertField_of_lt hlast]
    have hsplit : before ++ f :: fields = (before ++ [f]) ++ fields := by simp
    rw [hsplit] at h ⊢
    exact ih h

/-- The object of sorted fields has them as they are. -/
theorem Sorted.ofFields (h : Sorted fields) : Json.ofFields fields = obj fields :=
  congrArg obj (Sorted.arranged_eq (List.nil_append fields ▸ h))

/-- An object of values that are not lost in their texts is not lost, either. -/
theorem readable_ofFields {depth : Nat} (h : ∀ f ∈ fields, Readable depth f.2) :
    Readable (depth + 1) (ofFields fields) := by
  refine .obj (Sorted.arranged List.Pairwise.nil) fun f hf => ?_
  rcases mem_arranged hf with hf | hf
  · cases hf
  · exact h f hf

end Fields

/-! ## The text of a value -/

/-- The text of an object with sorted fields is read as the object if the texts of its values are
read as these. -/
theorem reads_obj {depth : Nat} {fields : List (String × Json)} (sorted : Sorted fields)
    (h : ∀ f ∈ fields, Reads depth f.2) : Reads (depth + 1) (obj fields) := by
  intro fuel t _ hfuel
  obtain ⟨fuel, rfl⟩ : ∃ k, fuel = k + 1 := ⟨fuel - 1, by omega⟩
  cases fields with
  | nil => rfl
  | cons f fields =>
    simp only [chars, List.length_cons] at hfuel
    have hread := readFields_fieldsChars (List.cons_ne_nil f fields) h fuel t (by omega)
    have hopen (cs : List Char) : ('\x7b' :: cs).dropWhile isSpace = '\x7b' :: cs := rfl
    obtain ⟨cs, hcs⟩ : ∃ cs, fieldsChars (f :: fields) ++ t = '"' :: cs := by
      cases fields <;> exact ⟨_, rfl⟩
    rw [hcs] at hread
    have hquote : ('"' :: cs).dropWhile isSpace = '"' :: cs := rfl
    simp only [chars, List.cons_append, readValue, hopen, hcs, hquote, hread, Option.map_some,
      sorted.ofFields]
    rfl

/-- The text of a readable value is read as the value. -/
theorem Readable.reads {depth : Nat} {v : Json} (h : Readable depth v) : Reads depth v := by
  induction h with
  | null depth =>
    intro fuel t _ hfuel
    obtain ⟨fuel, rfl⟩ : ∃ k, fuel = k + 1 := ⟨fuel - 1, by omega⟩
    rfl
  | bool depth b =>
    intro fuel t _ hfuel
    obtain ⟨fuel, rfl⟩ : ∃ k, fuel = k + 1 := ⟨fuel - 1, by omega⟩
    cases b <;> rfl
  | int depth low high => exact reads_int depth low high
  | float depth h =>
    intro fuel t ht hfuel
    obtain ⟨fuel, rfl⟩ : ∃ k, fuel = k + 1 := ⟨fuel - 1, by omega⟩
    exact readValue_float h depth fuel ht
  | str depth s => exact reads_str depth s
  | arr _ ih => exact reads_arr ih
  | obj sorted _ ih => exact reads_obj sorted ih

/-- **Written values read back.** -/
theorem parse?_render {v : Json} (h : Readable maxDepth v) : parse? (render v) = some v := by
  have hread := h.reads (2 * v.chars.length + 2) [] ends_nil (by omega)
  rw [List.append_nil] at hread
  have htext : (render v).toList = v.chars := String.toList_ofList
  unfold parse?
  dsimp only
  rw [htext, hread]
  rfl

end ChatBot.Json
