import ChatBot.Proofs.Template.Lexing
import ChatBot.Proofs.Text.Bytes
import ChatBot.Template.Arena

/-!
# A scan over a template text

Templates read in another way: one scan over the characters with their byte offsets, which lays the
nodes out under their numbers as it goes. It keeps a stack of the parentheses that are open, each
with the offset at which it stands and the number of nodes before it. When a parenthesis is never
closed, the nodes behind the outermost such one are dropped again, and the plain text that was
gathered on the side in the meantime takes their place.

Some steps may be at *fault*, which is `none`: cutting a text at an offset that is not between two
characters, taking one from nothing, and asking for a node by a number that no node has.

Main statement: cutting references out of the text is never at fault, so the scan reads the tokens
of the text one after the other (`Scanner.read?_eq_tokens?`).
-/

set_option autoImplicit false

namespace ChatBot.Template

open Text

/-! ## References -/

/-- The bytes of ASCII letters, digits and the underscore. -/
def isIdentifierByte (b : UInt8) : Bool :=
  let n := b.toNat
  (0x30 ≤ n && n ≤ 0x39) || (0x41 ≤ n && n ≤ 0x5a) || (0x61 ≤ n && n ≤ 0x7a) || n == 0x5f

/-- Takes a mark of one byte off the front if it is there, and says whether it was. -/
def takeMark? (c : Char) (cs : List Char) : Option (Bool × List Char) :=
  if cs.head? = some c then (sliceFrom? cs 1).map fun rest => (true, rest) else some (false, cs)

/-- The slot of a reference. -/
def referenceSlot (silent persisted : Bool) (identifier : List Char) : Slot :=
  let name := if persisted then '$' :: '_' :: identifier else identifier
  .reference (String.ofList name) silent persisted
    (String.ofList (Token.referenceText silent persisted identifier))

/-- The reference at the start of a text, with its own text. The identifier's length is that of a
run of bytes. -/
def scanReference? (text : List Char) : Option (Option (Slot × List Char)) :=
  match text with
  | '$' :: rest => do
    let (silent, rest) ← takeMark? '!' rest
    let (persisted, rest) ← takeMark? '_' rest
    let n := ((bytes rest).takeWhile isIdentifierByte).length
    if n = 0 then return none
    let identifier ← slice? rest 0 n
    let source ← slice? text 0 (1 + silent.toNat + persisted.toNat + n)
    let name := if persisted then '$' :: '_' :: identifier else identifier
    return some (.reference (String.ofList name) silent persisted (String.ofList source), source)
  | _ => return none

/-! ## The scan -/

/-- An open parenthesis. -/
structure Frame where
  /-- The offset at which it stands. -/
  start : Nat
  /-- How many nodes there were before it. -/
  mark : Nat
  /-- The numbers of the nodes of each finished segment. -/
  finished : List (List Nat) := []
  /-- The numbers of the nodes of the current segment. -/
  row : List Nat := []

/-- All segments of a parenthesis. -/
def Frame.segments (f : Frame) : List (List Nat) :=
  f.finished ++ [f.row]

/-- The nodes laid out so far. -/
structure Layout where
  slots : List Slot := []
  /-- The numbers of the outermost nodes. -/
  root : List Nat := []
  /-- The open parentheses, innermost first. -/
  stack : List Frame := []

namespace Layout

/-- Puts numbers at the end of the innermost row. -/
def link (l : Layout) (ids : List Nat) : Layout :=
  match l.stack with
  | [] => { l with root := l.root ++ ids }
  | f :: below => { l with stack := { f with row := f.row ++ ids } :: below }

/-- Adds a slot. -/
def push (l : Layout) (slot : Slot) : Layout :=
  { l with slots := l.slots ++ [slot] }.link [l.slots.length]

/-- Opens a parenthesis at an offset. -/
def opened (l : Layout) (i : Nat) : Layout :=
  { l with stack := { start := i, mark := l.slots.length } :: l.stack }

/-- Starts the next segment of the innermost parenthesis. -/
def nextRow (l : Layout) : Layout :=
  match l.stack with
  | [] => l
  | f :: below => { l with stack := { f with finished := f.segments, row := [] } :: below }

end Layout

/-- The state of a scan. -/
structure Scanner where
  laid : Layout := {}
  /-- Plain text that is no node yet. -/
  literal : List Char := []
  /-- The plain text from the outermost open parenthesis on. -/
  pending : List Char := []

namespace Scanner

/-- Makes a node of the plain text gathered. -/
def flush (s : Scanner) : Scanner :=
  if s.literal.isEmpty then s
  else { s with laid := s.laid.push (.literal (String.ofList s.literal)), literal := [] }

/-- Notes plain text on the side if a parenthesis is open. -/
def hold (s : Scanner) (cs : List Char) : Scanner :=
  if s.laid.stack.isEmpty then s else { s with pending := s.pending ++ cs }

/-- Adds a character of plain text. -/
def addChar (s : Scanner) (c : Char) : Scanner :=
  { s with literal := s.literal ++ [c] }.hold [c]

/-- Reads an opening parenthesis at an offset. -/
def openAt (s : Scanner) (i : Nat) : Scanner :=
  let s := s.flush
  { s with laid := s.laid.opened i }.hold ['(']

/-- Reads a bar in a parenthesis. -/
def bar (s : Scanner) : Scanner :=
  let s := s.flush
  { s with laid := s.laid.nextRow }.hold ['|']

/-- Makes a node of the innermost parenthesis, which is closed at an offset. -/
def pop? (input : List Char) (i : Nat) (s : Scanner) : Option Scanner :=
  match s.laid.stack with
  | [] => some s
  | f :: below => do
    let source ← slice? input f.start (i + 1)
    let laid := { s.laid with stack := below }.push (.filter f.segments (String.ofList source))
    return { s with laid, pending := if below.isEmpty then [] else s.pending }

/-- Reads a closing parenthesis at an offset. -/
def closeAt? (input : List Char) (i : Nat) (s : Scanner) : Option Scanner :=
  (s.flush.hold [')']).pop? input i

/-- Adds a reference with its text. -/
def addReference (s : Scanner) (slot : Slot) (source : List Char) : Scanner :=
  let s := s.flush.hold source
  { s with laid := s.laid.push slot }

/-- Reads characters from an offset on, where the first `skip` of them belong to what was read
before. -/
def read? (input : List Char) : (skip i : Nat) → List Char → Scanner → Option Scanner
  | _, _, [], s => some s
  | skip + 1, i, c :: cs, s => read? input skip (i + c.utf8Size) cs s
  | 0, i, c :: cs, s =>
    let next := i + c.utf8Size
    if c = '\\' then
      match cs with
      | d :: _ =>
        if isEscapable d then read? input 1 next cs (s.addChar d)
        else read? input 0 next cs (s.addChar c)
      | [] => read? input 0 next cs (s.addChar c)
    else if c = '(' then read? input 0 next cs (s.openAt i)
    else if c = ')' ∧ s.laid.stack ≠ [] then
      (s.closeAt? input i).bind fun s => read? input 0 next cs s
    else if c = '|' ∧ s.laid.stack ≠ [] then read? input 0 next cs s.bar
    else if c = '$' then
      match (sliceFrom? input i).bind scanReference? with
      | some (some (slot, source)) =>
        if 0 < byteLength source then
          read? input (byteLength source - 1) next cs (s.addReference slot source)
        else none
      | some none => read? input 0 next cs (s.addChar c)
      | none => none
    else read? input 0 next cs (s.addChar c)

/-- Adds the plain text at the end of a template; it goes to the last node outside if that is plain
text itself. -/
def settle? (laid : Layout) (tail : List Char) : Option Layout :=
  match laid.root.getLast? with
  | none => some ({ laid, literal := tail } : Scanner).flush.laid
  | some last =>
    match laid.slots[last]? with
    | none => none
    | some (.literal text) =>
      some { laid with slots := laid.slots.set last (.literal (text ++ String.ofList tail)) }
    | some _ => some ({ laid, literal := tail } : Scanner).flush.laid

/-- Ends a scan. If a parenthesis is still open, the nodes from the outermost one on are dropped,
and their plain text is kept. -/
def finish? (s : Scanner) : Option Layout :=
  match s.laid.stack.getLast? with
  | none => some s.flush.laid
  | some outer =>
    settle? { s.laid with slots := s.laid.slots.take outer.mark, stack := [] } s.pending

end Scanner

/-- The nodes of a text, laid out in one scan. -/
def scan? (text : String) : Option Arena := do
  let s ← Scanner.read? text.toList 0 0 text.toList {}
  let laid ← s.finish?
  return { slots := laid.slots, root := laid.root }

/-! ## References are found -/

/-- The characters of identifiers are ASCII. -/
theorem isIdentifierChar_lt {c : Char} (h : isIdentifierChar c = true) : c.toNat < 128 := by
  simp only [isIdentifierChar, isAsciiAlnum, Bool.or_eq_true, Bool.and_eq_true, decide_eq_true_eq,
    beq_iff_eq] at h
  rcases h with h | rfl
  · omega
  · decide

/-- On ASCII characters, the bytes of identifiers are their characters. -/
theorem isIdentifierByte_ofNat {c : Char} (h : c.toNat < 128) :
    isIdentifierByte (UInt8.ofNat c.toNat) = isIdentifierChar c := by
  have hbyte : (UInt8.ofNat c.toNat).toNat = c.toNat := by simp; omega
  have hunderscore : (c.toNat == 0x5f) = (c == '_') := by
    rw [Bool.eq_iff_iff, beq_iff_eq, beq_iff_eq]
    exact ⟨fun h => Char.toNat_inj.1 h, fun h => h ▸ rfl⟩
  simp only [isIdentifierByte, isIdentifierChar, isAsciiAlnum, hbyte, hunderscore]

/-- No byte of a character that is not ASCII is one of an identifier. -/
theorem isIdentifierByte_of_le {b : UInt8} (h : 128 ≤ b.toNat) : isIdentifierByte b = false := by
  simp only [isIdentifierByte, Bool.or_eq_false_iff, Bool.and_eq_false_iff, decide_eq_false_iff_not,
    beq_eq_false_iff_ne]
  omega

/-- The run of bytes is that of the identifier characters, so it ends between two characters. -/
theorem takeWhile_bytes (cs : List Char) :
    (bytes cs).takeWhile isIdentifierByte = bytes (cs.takeWhile isIdentifierChar) := by
  induction cs with
  | nil => rfl
  | cons c cs ih =>
    rw [bytes, List.flatMap_cons]
    by_cases hascii : c.toNat < 128
    · rw [utf8EncodeChar_of_ascii hascii, List.singleton_append]
      cases hc : isIdentifierChar c with
      | true =>
        rw [List.takeWhile_cons_of_pos (by rwa [isIdentifierByte_ofNat hascii]),
          List.takeWhile_cons_of_pos hc, ← bytes, ih, bytes, bytes, List.flatMap_cons,
          utf8EncodeChar_of_ascii hascii]
        rfl
      | false =>
        rw [List.takeWhile_cons_of_neg (by rw [isIdentifierByte_ofNat hascii, hc]; simp),
          List.takeWhile_cons_of_neg (by simp [hc])]
        rfl
    · obtain ⟨b, tail, hencode, hb⟩ := utf8EncodeChar_of_not_ascii (Nat.le_of_not_lt hascii)
      have hc : ¬ isIdentifierChar c = true := fun h => hascii (isIdentifierChar_lt h)
      have hbyte : ¬ isIdentifierByte b = true := by simp [isIdentifierByte_of_le hb]
      rw [hencode, List.cons_append, List.takeWhile_cons_of_neg hbyte,
        List.takeWhile_cons_of_neg hc]
      rfl

/-- Taking a mark of one byte off is taking its character off. -/
theorem takeMark?_eq {c : Char} (h : c.toNat < 128) (cs : List Char) :
    takeMark? c cs = some (takeChar c cs) := by
  cases cs with
  | nil => rfl
  | cons d cs =>
    by_cases hd : d = c
    · subst hd
      have hcut := sliceFrom?_append [d] cs
      rw [byteLength_cons, utf8Size_of_ascii h] at hcut
      rw [takeMark?, List.head?_cons, if_pos rfl, takeChar, if_pos rfl]
      exact congrArg (Option.map _) hcut
    · rw [takeMark?, List.head?_cons, if_neg (by simpa using hd), takeChar, if_neg hd]

/-- A text of ASCII characters has as many bytes as characters. -/
theorem byteLength_of_ascii {cs : List Char} (h : ∀ c ∈ cs, c.toNat < 128) :
    byteLength cs = cs.length := by
  induction cs with
  | nil => rfl
  | cons c cs ih =>
    rw [byteLength_cons, utf8Size_of_ascii (h c List.mem_cons_self),
      ih fun d hd => h d (List.mem_cons_of_mem _ hd), List.length_cons, Nat.add_comm]

/-- The text of a reference has one byte for each mark, and those of its identifier. -/
theorem byteLength_referenceText (silent persisted : Bool) (identifier : List Char) :
    byteLength (Token.referenceText silent persisted identifier) =
      1 + silent.toNat + persisted.toNat + byteLength identifier := by
  cases silent <;> cases persisted <;> simp [Token.referenceText, Char.utf8Size] <;> omega

/-- The text of a reference is ASCII. -/
theorem referenceText_eq_cons (silent persisted : Bool) {identifier : List Char}
    (h : ∀ c ∈ identifier, isIdentifierChar c = true) :
    ∃ marks, Token.referenceText silent persisted identifier = '$' :: marks ∧
      ∀ c ∈ '$' :: marks, c.toNat < 128 := by
  have hidentifier : ∀ c ∈ identifier, c.toNat < 128 := fun c hc => isIdentifierChar_lt (h c hc)
  refine ⟨_, rfl, ?_⟩
  cases silent <;> cases persisted <;> simpa using hidentifier

/-- A scan for a reference is never at fault. -/
theorem scanReference?_eq (cs : List Char) :
    let marked := takeChar '!' cs
    let named := takeChar '_' marked.2
    let identifier := named.2.takeWhile isIdentifierChar
    scanReference? ('$' :: cs) = some (if identifier.isEmpty then none else
      some (referenceSlot marked.1 named.1 identifier,
        Token.referenceText marked.1 named.1 identifier)) := by
  obtain ⟨hbang, -⟩ := takeChar_spec '!' cs
  obtain ⟨hunderscore, -⟩ := takeChar_spec '_' (takeChar '!' cs).2
  rw [scanReference?, takeMark?_eq (by decide)]
  generalize takeChar '!' cs = marked at hbang hunderscore ⊢
  obtain ⟨silent, rest⟩ := marked
  dsimp only [Option.bind_eq_bind, Option.bind_some] at hbang hunderscore ⊢
  rw [takeMark?_eq (by decide)]
  generalize takeChar '_' rest = named at hunderscore ⊢
  obtain ⟨persisted, behind⟩ := named
  dsimp only [Option.bind_some] at hunderscore ⊢
  rw [takeWhile_bytes, ← byteLength]
  have hsplit := List.takeWhile_append_dropWhile (p := isIdentifierChar) (l := behind)
  generalize behind.takeWhile isIdentifierChar = identifier at hsplit ⊢
  generalize behind.dropWhile isIdentifierChar = after at hsplit
  cases identifier with
  | nil => rfl
  | cons c tail =>
    have hpos : byteLength (c :: tail) ≠ 0 := by
      have := c.utf8Size_pos
      simp only [byteLength_cons]
      omega
    have hidentifier : slice? behind 0 (byteLength (c :: tail)) = some (c :: tail) := by
      rw [← hsplit]
      exact slice?_append [] (c :: tail) after
    have hsource : slice? ('$' :: cs) 0 (1 + silent.toNat + persisted.toNat +
        byteLength (c :: tail)) = some (Token.referenceText silent persisted (c :: tail)) := by
      have htext : '$' :: cs = Token.referenceText silent persisted (c :: tail) ++ after := by
        rw [hbang, hunderscore, ← hsplit]
        simp [Token.referenceText]
      rw [htext, ← byteLength_referenceText]
      exact slice?_append [] _ after
    rw [if_neg hpos, hidentifier, hsource]
    rfl

/-- A reference is scanned as it is read character by character. -/
theorem scanReference?_of_reference {cs identifier : List Char} {silent persisted : Bool}
    (h : referenceAt? cs = some (.reference silent persisted identifier)) :
    scanReference? ('$' :: cs) = some (some (referenceSlot silent persisted identifier,
      Token.referenceText silent persisted identifier)) := by
  rw [scanReference?_eq]
  simp only [referenceAt?] at h
  split at h
  · cases h
  · rename_i hne
    cases h
    rw [if_neg hne]

/-- Where there is no reference, none is scanned. -/
theorem scanReference?_of_none {cs : List Char} (h : referenceAt? cs = none) :
    scanReference? ('$' :: cs) = some none := by
  rw [scanReference?_eq]
  simp only [referenceAt?] at h
  split at h
  · rename_i hnil
    rw [if_pos hnil]
  · cases h

/-! ## Reading token by token -/

namespace Scanner

/-- Reads a token that stands at an offset. -/
def token? (input : List Char) (i : Nat) (s : Scanner) : Token → Option Scanner
  | .char c _ => some (s.addChar c)
  | .reference silent persisted identifier =>
    some (s.addReference (referenceSlot silent persisted identifier)
      (Token.referenceText silent persisted identifier))
  | .opening => some (s.openAt i)
  | .closing => if s.laid.stack = [] then some (s.addChar ')') else s.closeAt? input i
  | .bar => if s.laid.stack = [] then some (s.addChar '|') else some s.bar

/-- Reads tokens from an offset on. -/
def tokens? (input : List Char) : Nat → List Token → Scanner → Option Scanner
  | _, [], s => some s
  | i, t :: ts, s => (s.token? input i t).bind fun s => tokens? input (i + byteLength t.raw) ts s

/-- Characters that belong to what was read before are passed over. -/
theorem read?_skip (input : List Char) (skip i : Nat) (cs : List Char) (s : Scanner) :
    read? input skip i cs s =
      read? input 0 (i + byteLength (cs.take skip)) (cs.drop skip) s := by
  induction cs generalizing skip i with
  | nil => cases skip <;> rfl
  | cons c cs ih =>
    cases skip with
    | zero => rfl
    | succ skip =>
      rw [read?, ih, List.take_succ_cons, List.drop_succ_cons, byteLength_cons, Nat.add_assoc]

/-- A closing parenthesis closes the innermost one that is open. -/
theorem read?_closing {input : List Char} {s : Scanner} (h : s.laid.stack ≠ []) (i : Nat)
    (cs : List Char) : read? input 0 i (')' :: cs) s =
      (s.closeAt? input i).bind fun s => read? input 0 (i + 1) cs s := by
  rw [read?.eq_def]
  simp [h]
  rfl

/-- A bar in a parenthesis starts a segment. -/
theorem read?_bar {input : List Char} {s : Scanner} (h : s.laid.stack ≠ []) (i : Nat)
    (cs : List Char) : read? input 0 i ('|' :: cs) s = read? input 0 (i + 1) cs s.bar := by
  rw [read?.eq_def]
  simp [h]
  rfl

/-- Where a dollar sign stands, the text is cut between two characters. -/
theorem read?_dollar {input used cs : List Char} (hinput : input = used ++ '$' :: cs)
    (s : Scanner) :
    read? input 0 (byteLength used) ('$' :: cs) s =
      match scanReference? ('$' :: cs) with
      | some (some (slot, source)) =>
        if 0 < byteLength source then
          read? input (byteLength source - 1) (byteLength used + 1) cs (s.addReference slot source)
        else none
      | some none => read? input 0 (byteLength used + 1) cs (s.addChar '$')
      | none => none := by
  have hslice : sliceFrom? input (byteLength used) = some ('$' :: cs) :=
    hinput ▸ sliceFrom?_append used ('$' :: cs)
  rw [read?.eq_def]
  simp only [hslice]
  rfl

/-- If the rest of a text is read token by token, so is the text with one more character. -/
theorem next_eq_tokens? {input used cs : List Char} {ts : List Token} {c : Char}
    (hinput : input = used ++ c :: cs)
    (ih : ∀ {used : List Char}, input = used ++ cs → ∀ s,
      read? input 0 (byteLength used) cs s = tokens? input (byteLength used) ts s) (s : Scanner) :
    read? input 0 (byteLength used + c.utf8Size) cs s =
      tokens? input (byteLength used + byteLength [c]) ts s := by
  have hnext : input = (used ++ [c]) ++ cs := by simp [hinput]
  simpa using ih hnext s

/-- Reading character by character is reading token by token. -/
theorem read?_eq_tokens? {input used cs : List Char} {ts : List Token} (h : Lexes Refers cs ts)
    (hinput : input = used ++ cs) (s : Scanner) :
    read? input 0 (byteLength used) cs s = tokens? input (byteLength used) ts s := by
  -- on how the text is cut: a token of several characters is one step of `tokens?`, while `read?`
  -- skips the characters that it takes
  induction h generalizing used s with
  | done => rfl
  | @escaped d cs ts escapable rest ih =>
    have hnext : input = (used ++ ['\\', d]) ++ cs := by simp [hinput]
    have h := ih hnext (s.addChar d)
    rw [byteLength_append] at h
    rw [read?, if_pos rfl, if_pos ((isEscapable_iff d).2 escapable), read?_skip, tokens?]
    refine Eq.trans ?_ h
    simp [Nat.add_assoc]
  | @backslash cs ts lone rest ih =>
    have h := next_eq_tokens? hinput ih (s.addChar '\\')
    rw [tokens?]
    refine Eq.trans ?_ h
    cases cs with
    | nil => rfl
    | cons d cs =>
      have hd : ¬ isEscapable d = true := fun h => lone d rfl ((isEscapable_iff d).1 h)
      rw [read?, if_pos rfl, if_neg hd]
  | opening rest ih => exact next_eq_tokens? hinput ih _
  | closing rest ih =>
    rw [tokens?, token?]
    by_cases hstack : s.laid.stack = []
    · rw [if_pos hstack, read?.eq_def]
      simp only [hstack]
      exact next_eq_tokens? hinput ih _
    · rw [if_neg hstack, read?_closing hstack]
      exact congrArg (Option.bind _) (funext fun s => next_eq_tokens? hinput ih s)
  | bar rest ih =>
    rw [tokens?, token?]
    by_cases hstack : s.laid.stack = []
    · rw [if_pos hstack, read?.eq_def]
      simp only [hstack]
      exact next_eq_tokens? hinput ih _
    · rw [if_neg hstack, read?_bar hstack]
      exact next_eq_tokens? hinput ih _
  | @reference cs identifier behind silent persisted ts refers rest ih =>
    obtain ⟨marks, hmarks, hascii⟩ := referenceText_eq_cons silent persisted refers.spelled
    have hcs : '$' :: cs = '$' :: marks ++ behind := by
      rw [← hmarks, refers.text]
      simp [Token.referenceText]
    obtain rfl : cs = marks ++ behind := (List.cons.inj hcs).2
    have hnext : input = (used ++ '$' :: marks) ++ behind := by simp [hinput]
    have h := ih hnext
    rw [byteLength_append] at h
    rw [read?_dollar hinput, scanReference?_of_reference refers.referenceAt?_eq]
    dsimp only
    rw [hmarks, byteLength_of_ascii hascii, if_pos (by simp), read?_skip, tokens?, token?,
      Token.raw, hmarks, List.length_cons, Nat.add_sub_cancel, List.take_left, List.drop_left]
    refine Eq.trans ?_ (h _)
    rw [byteLength_cons, Nat.add_assoc]
    rfl
  | @dollar cs ts lone rest ih =>
    have hnone : referenceAt? cs = none := by
      cases h : referenceAt? cs with
      | none => rfl
      | some t =>
        obtain ⟨silent, persisted, identifier, behind, -, refers⟩ := refers_of_referenceAt? h
        exact (lone _ _ _ _ refers).elim
    rw [read?_dollar hinput, scanReference?_of_none hnone]
    exact next_eq_tokens? hinput ih _
  | @plain c cs ts other rest ih =>
    simp only [List.mem_cons, List.not_mem_nil, or_false, not_or] at other
    obtain ⟨hbackslash, hopening, hclosing, hbar, hdollar⟩ := other
    rw [tokens?, read?.eq_def]
    simp only [hbackslash, hopening, hclosing, hbar, hdollar, false_and, if_false]
    exact next_eq_tokens? hinput ih _

end Scanner

end ChatBot.Template
