import ChatBot.Proofs.Interleaving
import ChatBot.Proofs.Stepwise
import ChatBot.Proofs.Variables.Steps
import ChatBot.Proofs.Variables.Writes

/-!
# Writes that come between

Messages are handled concurrently, so that while a definition is updated, references to the variable
may be resolved and its value may be set. Every call to the backend is one step. The writers change
the text of the variable in a single step, whatever text it holds, and so none of their writes is
lost through the others. The update does not: it reads the variable in one step and puts all of it
back in another. Main statement: the text that the variable holds in the end comes from the one that
it held in the beginning by all writes in their order, except that those which fall between the two
steps of an update that succeeds are lost (`text_of_interleaved`).
-/

set_option autoImplicit false

namespace ChatBot

variable {ε : Type}

/-- The variable with another text. -/
def CustomVariable.withText (v : CustomVariable) (text : String) : CustomVariable :=
  { v with value := text }

namespace World

/-- The text that is stored of a variable, if there is one. -/
def text? (w : World ε) (name : String) : Option String :=
  (w.store.table.get? name).map CustomVariable.value

/-- The text of a variable is its value. -/
theorem text?_of_row {w : World ε} {name : String} {v : CustomVariable}
    (h : w.store.table.get? name = some v) : w.text? name = some v.value := by
  rw [text?, h]
  rfl

/-- The state, but for another text in a variable. -/
def holding (w : World ε) (name text : String) : World ε :=
  { w with store := { w.store with table := (w.store.table.setValue name text).2 } }

/-- A variable that holds another text is itself but for the text. -/
theorem get?_holding {w : World ε} {name : String} {v : CustomVariable}
    (h : w.store.table.get? name = some v) (text : String) :
    (w.holding name text).store.table.get? name = some (v.withText text) := by
  rw [holding, VariableTable.setValue_of_some h]
  exact VariableTable.get?_written ..

/-- A variable that holds its own text is as it was. -/
theorem holding_self {w : World ε} {name : String} {v : CustomVariable}
    (h : w.store.table.get? name = some v) : w.holding name v.value = w := by
  have hrows : w.store.table.rows.insert name v = w.store.table.rows := by
    refine Std.ExtTreeMap.ext_getElem? fun other => ?_
    rw [Std.ExtTreeMap.getElem?_insert]
    split
    · next hsame =>
      obtain rfl : name = other := by simpa using hsame
      exact h.symm
    · rfl
  rw [holding, VariableTable.setValue_of_some h, VariableTable.written, hrows]

end World

namespace Variables

open Stepwise

variable {α β : Type}

/-! ## Steps that rewrite a text -/

/-- What a mutation makes of a text, whoever has written it. A sum is written only if it is finite;
a text that is no number stays. -/
def Mutation.on : Mutation → String → String
  | .add delta, text =>
    match Number.parse? text with
    | some current =>
      if Number.isFinite (current + delta) then Number.format (current + delta) else text
    | none => text
  | .set value, _ => value

/-- A step writes a mutation into a text, or leaves it alone. -/
def IsWrite (f : String → String) : Prop :=
  f = id ∨ ∃ m : Mutation, f = m.on

/-- Whatever text the variable holds, the step rewrites it by the function and leaves the rest of
the variable as it is. -/
def RewritesBy (name : String) (f : String → String) (u : World ε → World ε) (w : World ε) : Prop :=
  ∀ v, w.store.table.get? name = some v → ∀ text,
    (u (w.holding name text)).store.table.get? name = some (v.withText (f text))

/-- Every step of the program writes a mutation into the text of a variable or leaves it alone. -/
def Rewrites (name : String) : Activity ε α → Prop
  | .done _ => True
  | .step u n => ∀ w, (∃ f, IsWrite f ∧ RewritesBy name f u w) ∧ Rewrites name (n w)

section Rewrites

variable {name : String}

/-- A program that only rewrites the text does so in all that is left of it. -/
theorem lasting_rewrites : Lasting (Rewrites (ε := ε) (α := α) name) := by
  intro u n h w
  exact (h w).2

/-- Programs in a row only rewrite the text if each of them does. -/
theorem rewrites_bind {p : Activity ε α} {k : α → Activity ε β} (hp : Rewrites name p)
    (hk : ∀ a, Rewrites name (k a)) : Rewrites name (p.bind k) := by
  induction p with
  | done a => exact hk a
  | step u n ih =>
    intro w
    obtain ⟨hu, hn⟩ := hp w
    exact ⟨hu, ih w hn⟩

/-- A program that has ended rewrites nothing. -/
theorem rewrites_done (a : α) : Rewrites name (.done a : Activity ε α) := trivial

/-- Steps that do not touch the table leave the text alone. -/
theorem rewrites_of_keeps {p : Activity ε α} (h : p.Keeps fun w => w.store.table) :
    Rewrites name p := by
  induction p with
  | done a => trivial
  | step u n ih =>
    intro w
    refine ⟨⟨id, .inl rfl, ?_⟩, ih w (h w).2⟩
    intro v hv text
    have hkept : (u (w.holding name text)).store.table = (w.holding name text).store.table :=
      (h (w.holding name text)).1
    rw [hkept]
    exact World.get?_holding hv text

/-- A call to the backend rewrites the text as the table does it, if it is served. -/
theorem rewrites_call (d : Disturbances) (c : BackendCall) (nothing : α)
    {f : VariableTable → Except BackendError α × VariableTable} {g : String → String}
    (hg : IsWrite g) (hf : ∀ t v, t.get? name = some v →
      (f t).2.get? name = some (v.withText (g v.value))) :
    Rewrites name (call (ε := ε) d c nothing f) := by
  intro w
  refine ⟨?_, trivial⟩
  -- whether the call is served does not depend on the text
  by_cases hserved : w.Serves d 0 c
  · refine ⟨g, hg, ?_⟩
    intro v hv text
    have hrun := run_call_of_serves (w := w.holding name text) hserved nothing f
    change ((call d c nothing f).run (w.holding name text)).2.store.table.get? name = _
    rw [hrun]
    exact hf _ _ (World.get?_holding hv text)
  · refine ⟨id, .inl rfl, ?_⟩
    intro v hv text
    obtain ⟨answer, hrun, -⟩ :=
      run_call_of_not_serves (w := w.holding name text) hserved nothing f
    change ((call d c nothing f).run (w.holding name text)).2.store.table.get? name = _
    rw [hrun]
    exact World.get?_holding hv text

/-- All steps of writing to a variable only rewrite its text. -/
theorem writeSteps_rewrites (d : Disturbances) (name : String) :
    WriteSteps (fun p : Activity ε _ => Rewrites name p) d name where
  done := rewrites_done
  bind := rewrites_bind
  fetch := rewrites_call d _ _ (.inl rfl) fun _ _ hv => hv
  swap value := by
    refine rewrites_call d _ _ (.inr ⟨.set value, rfl⟩) fun t v hv => ?_
    dsimp only
    rw [VariableTable.setValue_of_some hv]
    exact VariableTable.get?_written ..
  increment delta := by
    refine rewrites_call d _ _ (.inr ⟨.add delta, rfl⟩) fun t v hv => ?_
    simp only [VariableTable.increment, hv, Mutation.on]
    cases hcurrent : Number.parse? v.value with
    | none => exact hv
    | some current =>
      dsimp only
      split
      · exact VariableTable.get?_written t name v _
      · exact hv
  note _ _ := rewrites_of_keeps (keeps_change fun _ => rfl)
  count _ := rewrites_of_keeps (keeps_change fun _ => rfl)
  announcement := rewrites_of_keeps (keeps_read _)

/-- The operations that write to a variable of a name. -/
def Operation.WritesTo (name : String) : Operation → Prop
  | .setValue other _ _ => other = name
  | .resolve other _ _ _ => other = name
  | _ => False

/-- An operation that writes to a variable only rewrites its text. -/
theorem rewrites_perform {op : Operation} (h : op.WritesTo name) (d : Disturbances) :
    Rewrites name (op.perform (ε := ε) d) := by
  cases op with
  | create | update | delete => cases h
  | setValue other value actor =>
    obtain rfl : other = name := h
    have hsetValue := (writeSteps_rewrites (ε := ε) d other).setValue value actor
    exact rewrites_bind hsetValue fun _ => rewrites_done _
  | resolve other operand c silent =>
    obtain rfl : other = name := h
    have hresolve := (writeSteps_rewrites (ε := ε) d other).resolve operand c silent
    exact rewrites_bind hresolve fun _ => rewrites_done _

end Rewrites

/-! ## What a schedule writes -/

/-- What the next step of a program makes of the text of a variable, whatever text that is. -/
def effect (name : String) (p : Option (Activity ε α)) (w : World ε) (text : String) : String :=
  match p with
  | some (.step u _) => ((u (w.holding name text)).text? name).getD text
  | _ => text

/-- What the steps of the programs but the first one make of the text of a variable, in their
order. -/
def writes (name : String) :
    List Nat → List (Activity ε α) → World ε → List (String → String)
  | [], _, _ => []
  | i :: schedule, pool, w =>
    let (pool', w') := advance i pool w
    if i = 0 then writes name schedule pool' w'
    else effect name pool[i]? w :: writes name schedule pool' w'

/-- The text after writes. -/
def rewritten (text : String) (fs : List (String → String)) : String :=
  fs.foldl (fun text f => f text) text

/-- Texts are rewritten by one list of functions after the other. -/
theorem rewritten_append (text : String) (fs gs : List (String → String)) :
    rewritten text (fs ++ gs) = rewritten (rewritten text fs) gs :=
  List.foldl_append

/-- The writes of a schedule are those of its parts, one after the other. -/
theorem writes_append (name : String) (schedule later : List Nat) (pool : List (Activity ε α))
    (w : World ε) :
    writes name (schedule ++ later) pool w = writes name schedule pool w ++
      writes name later (interleave schedule pool w).1 (interleave schedule pool w).2 := by
  induction schedule generalizing pool w with
  | nil => rfl
  | cons i schedule ih =>
    simp only [List.cons_append, writes, interleave, ih]
    split <;> rfl

/-- The turns of the first program write nothing. -/
theorem writes_turn (name : String) (schedule later : List Nat) (pool : List (Activity ε α))
    (w : World ε) :
    writes name (schedule ++ 0 :: later) pool w = writes name schedule pool w ++
      writes name later (interleave (schedule ++ [0]) pool w).1
        (interleave (schedule ++ [0]) pool w).2 := by
  rw [writes_append, interleave_append]
  rfl

/-- The writes of a schedule, cut at two turns of the first program. -/
theorem writes_turns (name : String) (earlier between later : List Nat)
    (pool : List (Activity ε α)) (w : World ε) :
    let first := interleave (earlier ++ [0]) pool w
    let second := interleave (between ++ [0]) first.1 first.2
    writes name (earlier ++ 0 :: between ++ 0 :: later) pool w =
      writes name earlier pool w ++ writes name between first.1 first.2 ++
        writes name later second.1 second.2 := by
  intro first second
  have hsecond : interleave (earlier ++ 0 :: between ++ [0]) pool w = second := by
    rw [List.append_assoc, List.cons_append, interleave_turn]
  rw [writes_turn, writes_turn, hsecond]

/-- All programs of a pool but the first one rewrite the text of a variable. -/
def Writers (name : String) (pool : List (Activity ε α)) : Prop :=
  ∀ i, i ≠ 0 → ∀ p, pool[i]? = some p → Rewrites name p

section Schedules

variable {name : String} {pool : List (Activity ε α)} {w : World ε}

/-- Whatever the schedule, the writers go on rewriting the text. -/
theorem Writers.interleave (h : Writers name pool) (schedule : List Nat) :
    Writers name (interleave schedule pool w).1 := by
  intro i hi
  exact lasting_rewrites.interleave (h i hi)

/-- A turn of a writer rewrites the text of the variable, and leaves the rest of it. -/
theorem get?_advance (h : Writers name pool) {i : Nat} (hi : i ≠ 0) {v : CustomVariable}
    (hv : w.store.table.get? name = some v) :
    IsWrite (effect name pool[i]? w) ∧ (advance i pool w).2.store.table.get? name =
      some (v.withText (effect name pool[i]? w v.value)) := by
  match hp : pool[i]? with
  | none =>
    rw [advance_of_none hp]
    exact ⟨.inl rfl, hv⟩
  | some (.done a) =>
    rw [advance_of_done hp]
    exact ⟨.inl rfl, hv⟩
  | some (.step u n) =>
    obtain ⟨⟨f, hf, hrewrites⟩, -⟩ := h i hi _ hp w
    have heffect : effect name (some (.step u n)) w = f := by
      funext text
      rw [effect, World.text?, hrewrites v hv text]
      rfl
    rw [advance_of_step hp, heffect]
    refine ⟨hf, ?_⟩
    have hself := hrewrites v hv v.value
    rwa [World.holding_self hv] at hself

/-- As long as the first program has no turn or has ended, the text comes by the writes in their
order. -/
theorem get?_interleave (h : Writers name pool) {schedule : List Nat}
    (hfirst : 0 ∉ schedule ∨ ∃ a, pool[0]? = some (.done a)) {v : CustomVariable}
    (hv : w.store.table.get? name = some v) :
    (∀ f ∈ writes name schedule pool w, IsWrite f) ∧
      (interleave schedule pool w).2.store.table.get? name =
        some (v.withText (rewritten v.value (writes name schedule pool w))) := by
  induction schedule generalizing pool w v with
  | nil => exact ⟨by simp [writes], hv⟩
  | cons i schedule ih =>
    have hrest : 0 ∉ schedule ∨ ∃ a, (advance i pool w).1[0]? = some (.done a) := by
      rcases hfirst with hnone | ⟨a, ha⟩
      · exact .inl fun hmem => hnone (List.mem_cons_of_mem i hmem)
      · refine .inr ⟨a, ?_⟩
        by_cases hi : i = 0
        · rw [hi, advance_of_done ha]
          exact ha
        · rw [getElem?_advance_of_ne hi, ha]
    have hwriters : Writers name (advance i pool w).1 := h.interleave [i]
    by_cases hi : i = 0
    · -- the first program lets the turn pass
      obtain ⟨a, ha⟩ := hfirst.resolve_left fun hnone => hnone (hi ▸ List.mem_cons_self)
      have hpass : advance i pool w = (pool, w) := by rw [hi, advance_of_done ha]
      simp only [writes, if_pos hi, interleave, hpass]
      exact ih h (.inr ⟨a, ha⟩) hv
    · obtain ⟨hwrite, hrow⟩ := get?_advance h hi hv
      obtain ⟨hwrites, hlast⟩ := ih hwriters hrest hrow
      simp only [writes, if_neg hi]
      refine ⟨?_, hlast⟩
      intro f hf
      rcases List.mem_cons.1 hf with rfl | hf
      · exact hwrite
      · exact hwrites f hf

end Schedules

/-! ## The two steps of an update -/

/-- Puts a variable back that has been read. -/
def putBack (d : Disturbances) (name : String) (v : CustomVariable) :
    Activity ε (Except VariableError Unit) :=
  match v.fault? with
  | some fault => .done (.error fault)
  | none =>
    (call d (.replace v.name) false fun t => let (b, t) := t.replace v; (.ok b, t)).bind fun
      | .error e => .done (.error (.backend e))
      | .ok false => .done (.error (.notFound name))
      | .ok true => .done (.ok ())

/-- An update reads the variable, and then puts it back with what was asked for. -/
theorem perform_update (d : Disturbances) (name : String) (request : UpdateVariable) :
    (Operation.update name request).perform (ε := ε) d = (fetch d name).bind fun
      | .error e => .done (.error (.backend e))
      | .ok none => .done (.error (.notFound name))
      | .ok (some v) => putBack d name (request.apply v) := by
  simp only [Operation.perform, settled, update, get, bind_eq, bind_assoc]
  congr 1
  funext answer
  cases answer with
  | error e => rfl
  | ok found =>
    cases found with
    | none => rfl
    | some v =>
      simp only [pure_eq_done, Stepwise.bind, putBack]
      cases (request.apply v).fault? with
      | some fault => rfl
      | none =>
        simp only [bind_assoc]
        congr 1
        funext replaced
        cases replaced with
        | error e => rfl
        | ok done => cases done <;> rfl

/-- The first program of a pool is an update that has read a variable: it has failed, or it will put
the variable back. -/
def HasRead (d : Disturbances) (request : UpdateVariable) (v : CustomVariable)
    (pool : List (Activity ε (Except VariableError Unit))) : Prop :=
  (∃ e, pool[0]? = some (.done (.error e))) ∨
    pool[0]? = some (putBack d v.name (request.apply v))

section Update

variable {d : Disturbances} {request : UpdateVariable} {v : CustomVariable} {w : World ε}
  {pool : List (Activity ε (Except VariableError Unit))}

/-- The first turn of an update reads. -/
theorem advance_update (hpool : pool[0]? = some ((Operation.update v.name request).perform d))
    (hrow : w.store.table.get? v.name = some v) :
    (advance 0 pool w).2.store.table = w.store.table ∧
      HasRead d request v (advance 0 pool w).1 := by
  have hlength : 0 < pool.length := (List.getElem?_eq_some_iff.1 hpool).1
  obtain ⟨answer, hrun, hanswer⟩ := run_fetch_found d w v.name
  rw [perform_update] at hpool
  rw [advance_of_act hpool hrun]
  refine ⟨rfl, ?_⟩
  unfold HasRead
  rw [List.getElem?_set_self hlength]
  rcases hanswer with rfl | ⟨-, e, rfl⟩
  · cases hfound : found? d w v.name with
    | none => exact .inl ⟨_, rfl⟩
    | some u =>
      obtain rfl : u = v := Option.some_inj.1 ((get?_of_found? d w hfound).symm.trans hrow)
      exact .inr rfl
  · exact .inl ⟨_, rfl⟩

/-- The second turn puts the variable back, or nothing is changed. -/
theorem advance_putBack (hpool : HasRead d request v pool) {u : CustomVariable}
    (hrow : w.store.table.get? v.name = some u) :
    ((advance 0 pool w).1[0]? = some (.done (.ok ())) ∧
      (advance 0 pool w).2.store.table.get? v.name = some (request.apply v)) ∨
    ((∃ e, (advance 0 pool w).1[0]? = some (.done (.error e))) ∧
      (advance 0 pool w).2.store.table = w.store.table) := by
  rcases hpool with ⟨e, he⟩ | hpool
  · rw [advance_of_done he]
    exact .inr ⟨⟨e, he⟩, rfl⟩
  · have hlength : 0 < pool.length := (List.getElem?_eq_some_iff.1 hpool).1
    unfold putBack at hpool
    split at hpool
    · next fault hfault =>
      rw [advance_of_done hpool]
      exact .inr ⟨⟨fault, hpool⟩, rfl⟩
    · by_cases hserved : w.Serves d 0 (.replace (request.apply v).name)
      · have hrun := run_call_of_serves hserved false fun t =>
          (.ok (t.replace (request.apply v)).1, (t.replace (request.apply v)).2)
        rw [advance_of_act hpool hrun, List.getElem?_set_self hlength]
        have hreplace : w.store.table.replace (request.apply v) =
            (true, ⟨w.store.table.rows.insert v.name (request.apply v)⟩) := by
          have hrow' : w.store.table.get? (request.apply v).name = some u := hrow
          rw [VariableTable.replace, hrow']
          rfl
        rw [hreplace]
        refine .inl ⟨rfl, ?_⟩
        rw [World.called_table, VariableTable.get?, Std.ExtTreeMap.getElem?_insert_self]
      · obtain ⟨answer, hrun, hanswer⟩ := run_call_of_not_serves hserved false fun t =>
          (.ok (t.replace (request.apply v)).1, (t.replace (request.apply v)).2)
        rw [advance_of_act hpool hrun, List.getElem?_set_self hlength]
        rcases hanswer with rfl | ⟨e, rfl⟩
        · exact .inr ⟨⟨_, rfl⟩, rfl⟩
        · exact .inr ⟨⟨_, rfl⟩, rfl⟩

end Update

/-! ## An update among writers -/

/-- An update of a variable and any other operations, each about to start. -/
def contenders (d : Disturbances) (name : String) (request : UpdateVariable)
    (writers : List Operation) : List (Activity ε (Except VariableError Unit)) :=
  (.update name request :: writers).map (·.perform d)

/-- Behind the update, all contenders only rewrite the text. -/
theorem writers_contenders (d : Disturbances) {name : String} (request : UpdateVariable)
    {writers : List Operation} (h : ∀ op ∈ writers, op.WritesTo name) :
    Writers name (contenders (ε := ε) d name request writers) := by
  intro i hi p hp
  obtain ⟨i, rfl⟩ := Nat.exists_eq_succ_of_ne_zero hi
  rw [contenders, List.map_cons, List.getElem?_cons_succ, List.getElem?_map,
    Option.map_eq_some_iff] at hp
  obtain ⟨op, hop, rfl⟩ := hp
  exact rewrites_perform (h op (List.mem_of_getElem? hop)) d

section Contenders

variable {v : CustomVariable} {writers : List Operation} {w : World ε}

/-- Up to the first turn of the update the text comes by the writes, and so the update reads it. -/
theorem contenders_read (d : Disturbances) (request : UpdateVariable)
    (hwriters : ∀ op ∈ writers, op.WritesTo v.name)
    (hrow : w.store.table.get? v.name = some v) {earlier : List Nat} (hearlier : 0 ∉ earlier) :
    let pool := contenders d v.name request writers
    let read := interleave (earlier ++ [0]) pool w
    let u := v.withText (rewritten v.value (writes v.name earlier pool w))
    (∀ f ∈ writes v.name earlier pool w, IsWrite f) ∧ Writers v.name read.1 ∧
      read.2.store.table.get? v.name = some u ∧ HasRead d request u read.1 := by
  intro pool read u
  have hpool : Writers v.name pool := writers_contenders d request hwriters
  obtain ⟨hwrites, hu⟩ := get?_interleave hpool (.inl hearlier) hrow
  have hfirst : (interleave earlier pool w).1[0]? =
      some ((Operation.update u.name request).perform d) := by
    rw [getElem?_interleave_of_not_mem hearlier]
    rfl
  obtain ⟨htable, hread⟩ := advance_update hfirst hu
  have hsplit : read = advance 0 (interleave earlier pool w).1 (interleave earlier pool w).2 :=
    interleave_append earlier [0] pool w
  rw [← hsplit] at htable hread
  refine ⟨hwrites, hpool.interleave _, ?_, hread⟩
  rw [htable]
  exact hu

/-- Up to the second turn of the update the text comes by the writes. With this turn the update puts
the text back that it has read, or it fails and changes nothing. -/
theorem contenders_written (d : Disturbances) (request : UpdateVariable)
    (hwriters : ∀ op ∈ writers, op.WritesTo v.name)
    (hrow : w.store.table.get? v.name = some v) {earlier between : List Nat}
    (hearlier : 0 ∉ earlier) (hbetween : 0 ∉ between) :
    let pool := contenders d v.name request writers
    let read := interleave (earlier ++ [0]) pool w
    let before := interleave between read.1 read.2
    let after := interleave (between ++ [0]) read.1 read.2
    let u := v.withText (rewritten v.value (writes v.name earlier pool w))
    let u' := u.withText (rewritten u.value (writes v.name between read.1 read.2))
    (∀ f ∈ writes v.name between read.1 read.2, IsWrite f) ∧ Writers v.name after.1 ∧
      before.2.store.table.get? v.name = some u' ∧
      (after.1[0]? = some (.done (.ok ())) ∧
          after.2.store.table.get? v.name = some (request.apply u) ∨
        (∃ e, after.1[0]? = some (.done (.error e))) ∧
          after.2.store.table.get? v.name = some u') := by
  intro pool read before after u u'
  obtain ⟨-, hpool, hread, hhas⟩ := contenders_read d request hwriters hrow hearlier
  obtain ⟨hwrites, hbefore⟩ := get?_interleave hpool (.inl hbetween) hread
  have hafter : after = advance 0 before.1 before.2 :=
    interleave_append between [0] read.1 read.2
  have hhas' : HasRead d request u before.1 := by
    have hsame : before.1[0]? = read.1[0]? := getElem?_interleave_of_not_mem hbetween
    unfold HasRead
    rw [hsame]
    exact hhas
  refine ⟨hwrites, hpool.interleave _, hbefore, ?_⟩
  rw [hafter]
  rcases advance_putBack hhas' hbefore with hdone | ⟨herror, htable⟩
  · exact .inl hdone
  · exact .inr ⟨herror, htable ▸ hbefore⟩

/-- **Writes between the two steps of an update are lost, and no others.** A variable is updated,
without a value being given, while any number of operations set its value or resolve references to
it; every call to the backend is one step, and any of them may go wrong. As long as the update has
had one turn at most, the text of the variable has come from the one at the beginning by all writes
of the others, in their order. So it has when the update takes its second turn, and after this turn
if the update fails. If it succeeds, the text is the one that the update has read in its first turn:
the writes since then are lost, while those before have been made and those after it are. -/
theorem text_of_interleaved (d : Disturbances) {v : CustomVariable} {request : UpdateVariable}
    (hvalue : request.value = none) {writers : List Operation}
    (hwriters : ∀ op ∈ writers, op.WritesTo v.name) {w : World ε}
    (hrow : w.store.table.get? v.name = some v) :
    let pool := contenders d v.name request writers
    (∀ schedule : List Nat, schedule.count 0 ≤ 1 →
      (∀ f ∈ writes v.name schedule pool w, IsWrite f) ∧
      (interleave schedule pool w).2.text? v.name =
        some (rewritten v.value (writes v.name schedule pool w))) ∧
    ∀ earlier between later : List Nat, 0 ∉ earlier → 0 ∉ between →
      let read := interleave (earlier ++ [0]) pool w
      let before := interleave between read.1 read.2
      let after := interleave (between ++ [0]) read.1 read.2
      let schedule := earlier ++ 0 :: between ++ 0 :: later
      let first := writes v.name earlier pool w
      let second := writes v.name between read.1 read.2
      let third := writes v.name later after.1 after.2
      writes v.name schedule pool w = first ++ second ++ third ∧
      (∀ f ∈ first ++ second ++ third, IsWrite f) ∧
      before.2.text? v.name = some (rewritten v.value (first ++ second)) ∧
      (after.1[0]? = some (.done (.ok ())) →
        after.2.text? v.name = some (rewritten v.value first) ∧
        (interleave schedule pool w).2.text? v.name =
          some (rewritten v.value (first ++ third))) ∧
      (after.1[0]? ≠ some (.done (.ok ())) →
        after.2.text? v.name = before.2.text? v.name ∧
        (interleave schedule pool w).2.text? v.name =
          some (rewritten v.value (first ++ second ++ third))) := by
  intro pool
  refine ⟨?_, ?_⟩
  · intro schedule hcount
    by_cases hmem : 0 ∈ schedule
    · obtain ⟨earlier, later, rfl, hearlier⟩ := List.eq_append_cons_of_mem hmem
      have hlater : 0 ∉ later := by
        rw [List.count_append, List.count_cons_self] at hcount
        exact List.count_eq_zero.1 (by omega)
      obtain ⟨hfirst, hpool, hread, -⟩ := contenders_read d request hwriters hrow hearlier
      obtain ⟨hsecond, hlast⟩ := get?_interleave hpool (.inl hlater) hread
      rw [writes_turn, rewritten_append, interleave_turn earlier later]
      refine ⟨?_, World.text?_of_row hlast⟩
      intro f hf
      exact (List.mem_append.1 hf).elim (hfirst f) (hsecond f)
    · obtain ⟨hwrites, hlast⟩ :=
        get?_interleave (writers_contenders d request hwriters) (.inl hmem) hrow
      exact ⟨hwrites, World.text?_of_row hlast⟩
  · intro earlier between later hearlier hbetween read before after schedule first second third
    let u := v.withText (rewritten v.value first)
    obtain ⟨hfirst, -, -, -⟩ := contenders_read d request hwriters hrow hearlier
    obtain ⟨hsecond, hpool, hbefore, hwritten⟩ :=
      contenders_written d request hwriters hrow hearlier hbetween
    have hall : writes v.name schedule pool w = first ++ second ++ third := writes_turns ..
    have hschedule : interleave schedule pool w = interleave later after.1 after.2 :=
      interleave_turns ..
    have hmem (hthird : ∀ f ∈ third, IsWrite f) : ∀ f ∈ first ++ second ++ third, IsWrite f := by
      intro f hf
      rcases List.mem_append.1 hf with hf | hf
      · exact (List.mem_append.1 hf).elim (hfirst f) (hsecond f)
      · exact hthird f hf
    rw [hschedule, World.text?_of_row hbefore]
    simp only [rewritten_append]
    rcases hwritten with ⟨hdone, hback⟩ | ⟨⟨e, herror⟩, hkept⟩
    · -- the text is the one that the update has read
      have hu : (request.apply u).value = u.value := by
        rw [UpdateVariable.apply, hvalue]
        rfl
      obtain ⟨hthird, hlast⟩ := get?_interleave hpool (.inr ⟨_, hdone⟩) hback
      rw [World.text?_of_row hback, World.text?_of_row hlast, CustomVariable.withText, hu]
      exact ⟨hall, hmem hthird, rfl, fun _ => ⟨rfl, rfl⟩, fun hne => absurd hdone hne⟩
    · obtain ⟨hthird, hlast⟩ := get?_interleave hpool (.inr ⟨_, herror⟩) hkept
      rw [World.text?_of_row hkept, World.text?_of_row hlast]
      refine ⟨hall, hmem hthird, rfl, ?_, fun _ => ⟨rfl, rfl⟩⟩
      intro hok
      cases Option.some_inj.1 (herror.symm.trans hok)

end Contenders

/-! ## A lost count -/

namespace Recount

def counter : CustomVariable := { name := "$_deaths", kind := .number, value := "0" }

def start : World Unit where
  store := { table := ⟨NameMap.ofList [("$_deaths", counter)]⟩ }
  extra := ()

/-- Only the description is to change. -/
def request : UpdateVariable := { description := some (some "deaths so far") }

/-- An administrator sets the counter to five meanwhile. -/
def five : Operation := .setValue "$_deaths" "5" "admin"

def pool : List (Activity Unit (Except VariableError Unit)) :=
  contenders undisturbed "$_deaths" request [five]

/-- The value is set, to the end, between the two steps of the update. -/
def schedule : List Nat := [0, 1, 1, 1, 1, 0]

/-- Both succeed, and the five that was written is gone, though by the writes it would be there. -/
theorem update_loses_write :
    start.text? "$_deaths" = some "0" ∧
      (interleave schedule pool start).1.all (fun p => p matches .done (.ok ())) = true ∧
      rewritten "0" (writes "$_deaths" schedule pool start) = "5" ∧
      (interleave [0, 1, 1, 1, 1] pool start).2.text? "$_deaths" = some "5" ∧
      (interleave schedule pool start).2.text? "$_deaths" = some "0" := by
  decide +kernel

/-- When the update comes to its second turn late, the same is lost and nothing else. -/
theorem text_of_recount :
    request.value = none ∧ (∀ op ∈ [five], op.WritesTo counter.name) ∧
      start.store.table.get? counter.name = some counter ∧
      (interleave [0, 1, 1] pool start).2.text? "$_deaths" =
        some (rewritten "0" (writes "$_deaths" [0, 1, 1] pool start)) ∧
      (interleave ([] ++ 0 :: [1, 1] ++ 0 :: [1, 1]) pool start).2.text? "$_deaths" =
        some (rewritten "0" ([] ++ writes "$_deaths" [1, 1]
          (interleave [0, 1, 1, 0] pool start).1 (interleave [0, 1, 1, 0] pool start).2)) := by
  have hwriters : ∀ op ∈ [five], op.WritesTo counter.name := by
    intro op hop
    rw [List.mem_singleton.1 hop]
    exact rfl
  have hrow : start.store.table.get? counter.name = some counter := by rfl
  have hvalue : request.value = none := rfl
  obtain ⟨honce, htwice⟩ := text_of_interleaved undisturbed hvalue hwriters hrow
  obtain ⟨-, -, -, hsucceeds, -⟩ := htwice [] [1, 1] [1, 1] (by decide) (by decide)
  exact ⟨hvalue, hwriters, hrow, (honce [0, 1, 1] (by decide)).2, (hsucceeds rfl).2⟩

end Recount

end Variables

end ChatBot
