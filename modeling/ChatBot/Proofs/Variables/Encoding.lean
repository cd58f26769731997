import ChatBot.Proofs.Json.RoundTrip
import ChatBot.Variables.Basic

/-!
# Variables across their encoding

A variable is kept as the JSON text of its fields. The text is read back as the same variable if the
step is a finite number, and is not read back at all if it is not, since null stands for such a
step. Whether a variable may be stored is decided by `fault?`, which looks at the steps of number
variables only. Main statement: `decoded_of_accepted`.
-/

set_option autoImplicit false

namespace ChatBot.CustomVariable

open Json

/-! ## Fields one by one -/

/-- The name of a kind is decoded as the kind. -/
theorem decode_kind (k : VariableKind) : VariableKind.ofJson? (.str k.name) = some k := by
  cases k <;> rfl

/-- The name of a tier is decoded as the tier. -/
theorem decode_permission (t : Tier) : Tier.ofJson? (.str t.name) = some t := by
  cases t <;> rfl

/-- A step is decoded as itself if it is finite, and not at all otherwise. -/
theorem decode_step (x : Float) :
    decodeFloat (ofFloat x) = if Number.isFinite x then some x else none := by
  unfold ofFloat
  split <;> rfl

/-- An encoded response type is decoded as itself. -/
theorem decode_responseType (r : ResponseType) : ResponseType.ofJson? r.toJson = some r := by
  have hfields (fields : List (String × Json)) : ResponseType.ofJson? (ofFields fields) =
      ((arranged [] fields).lookup "mode").bind fun mode =>
        ResponseType.ofParts? mode ((arranged [] fields).lookup "text") := rfl
  unfold ResponseType.toJson
  cases r with
  | inline => simp [hfields, lookup_arranged, ResponseType.ofParts?, decodeChoice]
  | announce =>
    simp [hfields, lookup_arranged, ResponseType.ofParts?, decodeChoice, Json.lookup_cons]
  | custom text =>
    simp [hfields, lookup_arranged, ResponseType.ofParts?, decodeChoice, Json.lookup_cons]

/-- An encoded response type is not lost in its text. -/
theorem readable_responseType (depth : Nat) (r : ResponseType) :
    Readable (depth + 1) r.toJson := by
  cases r <;> exact readable_ofFields (by simp [Readable.str])

/-- An encoded step is not lost in its text if its number is not. -/
theorem readable_step (depth : Nat) {x : Float}
    (h : Number.isFinite x → parse? (render (.float x)) = some (.float x)) :
    Readable depth (ofFloat x) := by
  unfold ofFloat
  split
  · next hfinite => exact .float depth (h hfinite)
  · exact .null depth

/-! ## The whole variable -/

/-- An encoded variable is decoded as itself if its step is finite, and not at all otherwise. -/
theorem ofJson?_toJson (v : CustomVariable) :
    ofJson? v.toJson = if Number.isFinite v.step then some v else none := by
  obtain ⟨name, kind, value, step, permission, readOnly, responseType, description⟩ := v
  unfold toJson ofJson?
  rw [ofFields_eq]
  simp only [fields?, Option.bind_eq_bind, Option.bind_some, Fields.required, Fields.orDefault,
    Fields.optional, lookup_arranged]
  cases description with
  | none =>
    simp [decode_kind, decode_permission, decode_step, decode_responseType, decodeString,
      decodeBool]
    split <;> rfl
  | some text =>
    simp [decode_kind, decode_permission, decode_step, decode_responseType, decodeString,
      decodeBool]
    split <;> rfl

/-- An encoded variable is not lost in its text if its step is not. -/
theorem readable_toJson {v : CustomVariable}
    (h : Number.isFinite v.step → parse? (render (.float v.step)) = some (.float v.step)) :
    Readable maxDepth v.toJson := by
  refine readable_ofFields ?_
  have hstep := readable_step 126 h
  have hresponse := readable_responseType 125 v.responseType
  cases v.description with
  | none => simp [Readable.str, Readable.bool, hstep, hresponse]
  | some text => simp [Readable.str, Readable.bool, hstep, hresponse]

/-- The step of a number variable that is accepted is finite. -/
theorem isFinite_step_of_accepted {v : CustomVariable} (h : v.fault? = none)
    (hkind : v.kind = .number) : Number.isFinite v.step := by
  unfold fault? at h
  cases hname : nameFault? v.name with
  | some fault => simp [hname] at h
  | none =>
    simp only [hname, hkind, if_true] at h
    split at h
    · cases h
    · split at h
      · cases h
      · next hstep =>
        simp only [isStep, Bool.not_eq_true', Bool.not_eq_false, Bool.and_eq_true] at hstep
        exact hstep.1

/-- **What may be stored and what can be read back.** The step of the variable reads back from its
text if it is finite. Then a variable that may be stored is decoded from its text as it was, unless
its step is not finite; its text then cannot be decoded, and the variable is not a number
variable. -/
theorem decoded_of_accepted {v : CustomVariable} (accepted : v.fault? = none)
    (hstep : Number.isFinite v.step → parse? (render (.float v.step)) = some (.float v.step)) :
    (Number.isFinite v.step → (parse? (render v.toJson)).bind ofJson? = some v) ∧
    (¬ Number.isFinite v.step →
      (parse? (render v.toJson)).bind ofJson? = none ∧ v.kind ≠ .number) := by
  have hread : parse? (render v.toJson) = some v.toJson := parse?_render (readable_toJson hstep)
  rw [hread, Option.bind_some, ofJson?_toJson]
  refine ⟨fun hfinite => if_pos hfinite, fun hinfinite => ⟨if_neg hinfinite, fun hkind => ?_⟩⟩
  exact hinfinite (isFinite_step_of_accepted accepted hkind)

namespace Note

/-- A variable with everything a variable may have. -/
def full : CustomVariable where
  name := "$_note"
  kind := .number
  value := " 1e3 "
  step := 2.5
  permission := .vip
  readOnly := true
  responseType := .custom "now \"\x7b\x7bnew_value\x7d\x7d\"\n"
  description := some ""

/-- A variable with everything is accepted, and comes back from its text. -/
theorem decoded_full :
    full.fault? = none ∧ (parse? (render full.toJson)).bind ofJson? = some full := by
  have accepted : full.fault? = none := by decide +kernel
  exact ⟨accepted, (decoded_of_accepted accepted fun _ => rfl).1 (by decide +kernel)⟩

def endless : CustomVariable where
  name := "$_note"
  step := 1.0 / 0.0

/-- A text variable with an infinite step may be stored, and cannot be read back. -/
theorem endless_lost :
    endless.fault? = none ∧ (parse? (render endless.toJson)).bind ofJson? = none := by
  have hinfinite : ¬ Number.isFinite endless.step := by decide +kernel
  have hread := parse?_render (readable_toJson fun h => absurd h hinfinite)
  refine ⟨by decide +kernel, ?_⟩
  rw [hread, Option.bind_some, ofJson?_toJson, if_neg hinfinite]

end Note

end ChatBot.CustomVariable
