import ChatBot.Template.Node
import ChatBot.Template.Token

/-!
# Building templates

Reads a template text into nodes in one pass over its tokens, with a stack of the filters that
are open. Nothing is ever refused: a closing parenthesis or a bar outside every filter is plain
text, and when a filter is never closed, everything from the outermost such one on is plain text.
-/

set_option autoImplicit false

namespace ChatBot.Template

/-- A region of a template that is still growing: the whole template, or an open filter. -/
structure Region where
  /-- The finished segments, latest first. -/
  segments : List (List Node) := []
  /-- The nodes of the current segment, latest first. -/
  nodes : List Node := []
  /-- Plain text behind those nodes, last character first. -/
  literal : List Char := []
  /-- The raw text of the region, last character first. -/
  raw : List Char := []
  /-- The region as plain text, last character first. -/
  plain : List Char := []

namespace Region

/-- Makes a node of the plain text gathered. -/
def flush (r : Region) : Region :=
  if r.literal.isEmpty then r
  else { r with nodes := .literal (String.ofList r.literal.reverse) :: r.nodes, literal := [] }

/-- Notes the text of a token. -/
def note (r : Region) (t : Token) : Region :=
  { r with raw := t.raw.reverse ++ r.raw, plain := t.plain.reverse ++ r.plain }

/-- Adds the plain text of a token. -/
def addPlain (r : Region) (t : Token) : Region :=
  { r.note t with literal := t.plain.reverse ++ r.literal }

/-- Adds a node. -/
def addNode (r : Region) (n : Node) : Region :=
  let r := r.flush
  { r with nodes := n :: r.nodes }

/-- Starts the next segment. -/
def nextSegment (r : Region) : Region :=
  let r := r.flush
  { r with segments := r.nodes.reverse :: r.segments, nodes := [] }

/-- All segments in order. -/
def allSegments (r : Region) : List (List Node) :=
  let r := r.flush
  (r.nodes.reverse :: r.segments).reverse

/-- The region of a filter that has just been opened. -/
def opened : Region :=
  ({} : Region).note .opening

/-- The filter that a region is when it is closed. -/
def toFilter (r : Region) : Node :=
  .filter r.allSegments (String.ofList (r.note .closing).raw.reverse)

/-- Adds a region that has been closed. -/
def addClosed (r inner : Region) : Region :=
  let inner' := inner.note .closing
  let r := r.addNode inner.toFilter
  { r with raw := inner'.raw ++ r.raw, plain := inner'.plain ++ r.plain }

end Region

/-- The node of a reference. -/
def referenceNode (silent persisted : Bool) (identifier : List Char) : Node :=
  let name := if persisted then '$' :: '_' :: identifier else identifier
  .reference (String.ofList name) silent persisted
    (String.ofList (Token.referenceText silent persisted identifier))

/-- The name of a reference has a dollar sign and an underscore if it is persisted, and its source
has all that is written. -/
theorem referenceNode_eq (silent persisted : Bool) (identifier : List Char) :
    referenceNode silent persisted identifier =
      .reference ((if persisted then "$_" else "") ++ String.ofList identifier) silent persisted
        ("$" ++ (if silent then "!" else "") ++ (if persisted then "_" else "") ++
          String.ofList identifier) := by
  have hname : String.ofList (if persisted then '$' :: '_' :: identifier else identifier) =
      (if persisted then "$_" else "") ++ String.ofList identifier := by
    rw [← String.toList_inj]
    cases persisted <;> simp
  have hsource : String.ofList (Token.referenceText silent persisted identifier) =
      "$" ++ (if silent then "!" else "") ++ (if persisted then "_" else "") ++
        String.ofList identifier := by
    rw [← String.toList_inj]
    cases silent <;> cases persisted <;> simp [Token.referenceText]
  rw [referenceNode, hname, hsource]

/-- The whole template and the open filters, innermost first. -/
structure Builder where
  root : Region := {}
  /-- The open filters, innermost first. -/
  stack : List Region := []

namespace Builder

/-- Changes the innermost region. -/
def onTop (b : Builder) (f : Region → Region) : Builder :=
  match b.stack with
  | [] => { b with root := f b.root }
  | top :: below => { b with stack := f top :: below }

/-- Reads one token. -/
def step (b : Builder) (t : Token) : Builder :=
  match t, b.stack with
  | .reference silent persisted identifier, _ =>
    b.onTop fun r => (r.addNode (referenceNode silent persisted identifier)).note t
  | .opening, stack => { b with stack := .opened :: stack }
  | .closing, top :: below => { b with stack := below }.onTop fun r => r.addClosed top
  | .bar, _ :: _ => b.onTop fun r => r.nextSegment.note t
  | _, _ => b.onTop fun r => r.addPlain t

/-- The nodes of the template once all tokens are read; what is still open is plain text. -/
def finish (b : Builder) : List Node :=
  let tail := b.stack.foldr (fun r text => r.plain ++ text) []
  let root := { b.root with literal := tail ++ b.root.literal }.flush
  root.nodes.reverse

end Builder

/-- The nodes of tokens. -/
def ofTokens (ts : List Token) : List Node :=
  (ts.foldl Builder.step {}).finish

/-- The nodes of a template text. -/
def parse (text : String) : List Node :=
  ofTokens (tokens text.toList)

end ChatBot.Template
