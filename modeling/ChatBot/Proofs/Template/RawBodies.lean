import ChatBot.Proofs.Json.Quoting
import ChatBot.Proofs.Json.RoundTrip
import ChatBot.Proofs.Template.ByProducts

/-!
# What a fetched body is shown as

Of a body that is fetched its value as JSON is kept, and the body itself only if it has none. So the
filter `(api._response)` shows a body by its value: a string by what it quotes, any other value by
its compact text, whichever way the body has written it (`showsBody_wholeText`). Bodies of one value
are shown alike, so at most one of them is shown as it is.

Main statement: this is how the last fetch before is shown, wherever in the template the two filters
stand, and which bodies are given back (`last_body_shown`).
-/

set_option autoImplicit false

namespace ChatBot.Template

/-- A body is not JSON, or it is the compact text of its value, which is no string. -/
def IsCompact (body : String) : Prop :=
  ∀ v, Json.parse? body = some v → v.asString? = none ∧ v.render = body

/-- How a text shows a body. -/
structure ShowsBody (body text : String) : Prop where
  /-- A body that is not JSON is shown as it is. -/
  plain : Json.parse? body = none → text = body
  /-- Of a string in quotes the string is shown. -/
  string : ∀ s, Json.parse? body = some (.str s) → text = s
  /-- Any other value is shown by its compact text. -/
  value : ∀ v, Json.parse? body = some v → v.asString? = none → text = v.render
  /-- So the bodies that are shown as they are, character for character, are the compact ones. -/
  verbatim_iff : text = body ↔ IsCompact body

/-! ## Compact bodies -/

/-- A body that is not JSON is compact. -/
theorem isCompact_of_parse?_eq_none {body : String} (h : Json.parse? body = none) :
    IsCompact body := by
  intro v hv
  rw [h] at hv
  cases hv

/-- The compact text of a value that reads back is a compact body, unless the value is a string. -/
theorem isCompact_render {v : Json} (h : Json.Readable Json.maxDepth v)
    (hstring : v.asString? = none) : IsCompact v.render := by
  intro w hw
  obtain rfl := Option.some_inj.1 ((Json.parse?_render h).symm.trans hw)
  exact ⟨hstring, rfl⟩

/-! ## Values of bodies -/

/-- The whole text of a value that is no string is its compact text. -/
theorem wholeText_of_asString?_eq_none {v : Json} (h : v.asString? = none) :
    wholeText v = v.render := by
  cases v with
  | str s => cases h
  | null | bool | int | float | arr | obj => rfl

/-- The value of a body that is JSON is the one it is read as. -/
theorem bodyValue_of_parse?_eq_some {body : String} {v : Json} (h : Json.parse? body = some v) :
    bodyValue body = v := by
  rw [bodyValue, h, Option.getD_some]

/-- The value of a body that is not JSON is the body as a string. -/
theorem bodyValue_of_parse?_eq_none {body : String} (h : Json.parse? body = none) :
    bodyValue body = .str body := by
  rw [bodyValue, h, Option.getD_none]

/-- No string in quotes is shown as it is: what it quotes is shorter. -/
theorem ne_of_parse?_eq_str {body s : String} (h : Json.parse? body = some (.str s)) :
    s ≠ body := by
  rintro rfl
  have hlength := Json.length_of_parse?_str h
  omega

/-- A body is shown by the whole of its value. -/
theorem showsBody_wholeText (body : String) : ShowsBody body (wholeText (bodyValue body)) where
  plain h := by rw [bodyValue_of_parse?_eq_none h, wholeText]
  string s h := by rw [bodyValue_of_parse?_eq_some h, wholeText]
  value v h hstring := by
    rw [bodyValue_of_parse?_eq_some h, wholeText_of_asString?_eq_none hstring]
  verbatim_iff := by
    cases hparse : Json.parse? body with
    | none =>
      rw [bodyValue_of_parse?_eq_none hparse, wholeText]
      exact iff_of_true rfl (isCompact_of_parse?_eq_none hparse)
    | some v =>
      have hcompact : IsCompact body ↔ v.asString? = none ∧ v.render = body := by
        simp [IsCompact, hparse]
      rw [bodyValue_of_parse?_eq_some hparse, hcompact]
      cases hstring : v.asString? with
      | none =>
        rw [wholeText_of_asString?_eq_none hstring]
        exact (and_iff_right rfl).symm
      | some s =>
        cases v with
        | str t => exact iff_of_false (ne_of_parse?_eq_str hparse) (fun h => nomatch h.1)
        | null | bool | int | float | arr | obj => cases hstring

/-! ## In a template -/

variable {ε : Type} {e : Engine} {s t : Stage ε}

/-- The path of the response shows the whole value. -/
theorem lookupPath_response (v : Json) : lookupPath v "_response" = wholeText v := by
  rw [lookupPath, if_pos rfl]

/-- The raw look at what the last fetch has brought. -/
theorem play_response {a fetch : FilterArgs} {start : Stage ε} {p : Script String}
    {before after : List (Action × Stage ε)}
    (hcourse : p.course e s = before ++ (.evaluate a, t) :: after)
    (hname : Text.trim a.name = "api._response")
    (hlast : (fetches before).getLast? = some (fetch, start)) :
    (t.play (evaluateNamed e a)).1 =
      ((fetched e fetch start).map fun body => wholeText (bodyValue body)).getD "" := by
  have hpath : Text.trim a.name = "api." ++ "_response" := hname
  rw [play_path e hpath (by decide), byProduct_on_course hcourse, lastBody, hlast]
  simp only [brought, lookupPath_response, Option.map_map]
  rfl

/-- **How a fetched body is shown.** A filter `(api._response)` that is evaluated on the course of a
rendering shows the body that the last fetch before it has brought: a body that is not JSON as it
is, a string in quotes without them, and any other JSON as the compact text of its value. The body
is given back exactly just if it is compact, as the text of any value is that reads back and is no
string. If the fetch has failed, nothing is shown. -/
theorem last_body_shown (e : Engine) (s : Stage ε) (template : String) :
    renderNodes e 0 (parse template) =
        (scriptNodes e.config.maxRenderDepth 0 (parse template)).perform (ε := ε) e ∧
      (∀ before a t after fetch start,
        (scriptNodes e.config.maxRenderDepth 0 (parse template)).course e s =
          before ++ (.evaluate a, t) :: after →
        Text.trim a.name = "api._response" →
        (fetches before).getLast? = some (fetch, start) →
        (∀ body, fetched e fetch start = some body →
          ShowsBody body (t.play (evaluateNamed e a)).1) ∧
        (fetched e fetch start = none → (t.play (evaluateNamed e a)).1 = "")) ∧
      ∀ v, Json.Readable Json.maxDepth v → v.asString? = none → IsCompact v.render := by
  refine ⟨renderNodes_eq_perform e 0 (parse template), ?_, fun v => isCompact_render⟩
  intro before a t after fetch start hcourse hname hlast
  rw [play_response hcourse hname hlast]
  refine ⟨fun body hbody => ?_, fun hnone => ?_⟩
  · rw [hbody]
    exact showsBody_wholeText body
  · rw [hnone]
    rfl

namespace Spaced

/-- An engine for which every fetch is answered by a list with a blank in it. -/
def engine : Engine where
  client := fun _ _ _ => { response := .answered 200 (some "[1, 2]") }

def start : Stage Unit where
  context := { sender := ⟨"1", "alice"⟩, capabilities := .viewer ⟨"1", "alice"⟩ }
  world := { extra := () }

def template : String := "(api|https://h/list)(api._response)"

def course : List (Action × Stage Unit) :=
  (scriptNodes engine.config.maxRenderDepth 0 (parse template)).course engine start

/-- The value of the answer. -/
def list : Json := .arr [.int 1, .int 2]

/-- The list of the fixture is not lost in its text. -/
theorem readable_list : Json.Readable Json.maxDepth list := by
  refine .arr fun v hv => ?_
  rcases List.mem_pair.1 hv with rfl | rfl
  · exact .int _ (by decide) (by decide)
  · exact .int _ (by decide) (by decide)

/-- The list is shown as compact text, which would itself be given back. -/
theorem shows_list :
    (∃ before a t after, course = before ++ (.evaluate a, t) :: after ∧ before.length = 1 ∧
      ShowsBody "[1, 2]" (t.play (evaluateNamed engine a)).1) ∧
    IsCompact "[1,2]" := by
  obtain ⟨-, hshown, hcompact⟩ := last_body_shown engine start template
  refine ⟨?_, hcompact list readable_list rfl⟩
  have haction : course[1]?.map (·.1) = some (.evaluate ⟨"api._response", []⟩) := by
    decide +kernel
  have hfetched : (fetches (course.take 1)).getLast?.bind (fun x => fetched engine x.1 x.2) =
      some "[1, 2]" := by
    decide +kernel
  obtain ⟨t, -, hlength, hsplit⟩ := Script.exists_split_of_action haction
  obtain ⟨⟨fetch, t₀⟩, hlast, hbody⟩ := Option.bind_eq_some_iff.1 hfetched
  obtain ⟨hbodies, -⟩ := hshown _ _ _ _ fetch t₀ hsplit (by decide) hlast
  exact ⟨_, _, t, _, hsplit, hlength, hbodies _ hbody⟩

/-- The body that the template has fetched is not what it renders. -/
theorem blank_lost :
    (fetches course).map (fun x => fetched engine x.1 x.2) = [some "[1, 2]"] ∧
      (start.play (renderNodes engine 0 (parse template))).1 = "[1,2]" ∧ "[1,2]" ≠ "[1, 2]" := by
  decide +kernel

end Spaced

end ChatBot.Template
