import TestDouble.Mock.Statement
import TestDouble.Proofs.Recording.Contents

/-!
# Running the body of an override

The body of an override names its parameters, a variable for stubbed arguments and the fields of the
test double, and says in a few statements what a call does to them. Here these statements are run,
in a frame that says what the names stand for.

A closure may fail. That ends the method, unless the closure is declared to throw: such a call
ignores its failure, and the statements behind it are carried out.

A run has no result where the statements make no sense, say a name stands for nothing or a value
is called that is no closure. So a run with a result also says that this does not happen.
-/

namespace TestDouble

/-! ## Running statements -/

/-- What the names in a body stand for. -/
structure Frame where
  /-- The parameters and variables. They hide fields of the same name. -/
  locals : List (String × Value)
  /-- The fields. -/
  recording : Recording

namespace Frame

variable (frame : Frame)

/-- What a name stands for. -/
def content? (name : String) : Option Cell :=
  match frame.locals.lookup name with
  | some value => some (.holds value)
  | none => frame.recording.cell? name

def eval : Term → Option Value
  | .unit => some .unit
  | .named name =>
    match frame.content? name with
    | some (.holds value) => some value
    | _ => none
  | .element tuple index =>
    match frame.content? tuple with
    | some (.holds (.tuple items)) => items[index]?
    | _ => none

/-- The call that a call expression makes. One through an optional closure may make none. -/
def perform (call : Call) : Option (Option Recording.Event) :=
  match frame.eval (.named call.closure) with
  | some (.closure name) =>
    (call.arguments.mapM frame.eval).map fun arguments ↦ some ⟨name, arguments⟩
  | some .null => if call.isOptional then some none else none
  | _ => none

/-- The frame after an assignment, which can be made to a field only. -/
def assign (name : String) (value : Value) : Option Frame :=
  match frame.locals.lookup name, frame.recording.cell? name with
  | none, some _ => some { frame with recording := frame.recording.set name value }
  | _, _ => none

/-- The frame with one more variable. -/
def bind (name : String) (value : Value) : Frame :=
  { frame with locals := (name, value) :: frame.locals }

/-- The call of a statement that is carried out if a field is set. -/
def performIfSet (field binding : String) (call : Call) : Option (Option Recording.Event) :=
  match frame.content? field with
  | some (.holds value) =>
    if value.isNull then some none else (frame.bind binding value).perform call
  | some .unset => some none
  | none => none

/-- What a method returns that gives back a field. -/
def giveBack (field : String) : Option (Except Refusal Value) :=
  match frame.content? field with
  | some (.holds value) => some (.ok value)
  | some .unset => some (.error (.unset field))
  | none => none

end Frame

/-- Goes on behind a call expression, which may have made no call. A call that fails ends the
method, but the failure of a closure that is declared to throw is ignored. -/
def Call.andThen (call : Call) (react : Recording.Reaction) (recording : Recording)
    (earlier : List Recording.Event) (event? : Option Recording.Event)
    (next : List Recording.Event → Option Recording.Performance) : Option Recording.Performance :=
  match event? with
  | none => next earlier
  | some event =>
    match react (earlier ++ [event]) with
    | none => next (earlier ++ [event])
    | some complaint =>
      if call.throws then next (earlier ++ [event])
      else some { result := .error (.raised complaint), recording, events := earlier ++ [event] }

namespace Call

variable {call : Call} {react : Recording.Reaction} {recording : Recording}
  {earlier : List Recording.Event} {event : Recording.Event} {complaint : String}
  {next : List Recording.Event → Option Recording.Performance}

@[simp] theorem andThen_none : call.andThen react recording earlier none next = next earlier := rfl

theorem andThen_of_returns (h : react (earlier ++ [event]) = none) :
    call.andThen react recording earlier (some event) next = next (earlier ++ [event]) := by
  simp only [andThen, h]

theorem andThen_of_raises (h : react (earlier ++ [event]) = some complaint) :
    call.andThen react recording earlier (some event) next =
      if call.throws then next (earlier ++ [event])
      else some ⟨.error (.raised complaint), recording, earlier ++ [event]⟩ := by
  simp only [andThen, h]

end Call

/-- Carries out statements in their order, when some calls have been made. A method that gives
nothing back returns nothing. -/
def Statement.run (react : Recording.Reaction) (frame : Frame) (earlier : List Recording.Event) :
    List Statement → Option Recording.Performance
  | [] => some { result := .ok .null, recording := frame.recording, events := earlier }
  | .raise flag :: rest => do run react (← frame.assign flag (.bool true)) earlier rest
  | .keep record values :: rest => do
    let items ← values.mapM frame.eval
    run react (← frame.assign record (.tuple items)) earlier rest
  | .call made :: rest => do
    let event? ← frame.perform made
    made.andThen react frame.recording earlier event? fun events ↦ run react frame events rest
  | .callIfSet field binding made :: rest => do
    let event? ← frame.performIfSet field binding made
    made.andThen react frame.recording earlier event? fun events ↦ run react frame events rest
  | .giveBack field :: _ => do
    return { result := ← frame.giveBack field, recording := frame.recording, events := earlier }

/-! ## Names of a body -/

namespace Frame

variable {frame : Frame} {name : String} {value : Value}

private theorem content?_of_lookup (h : frame.locals.lookup name = some value) :
    frame.content? name = some (.holds value) := by
  rw [content?, h]

private theorem content?_of_field (h : frame.locals.lookup name = none) :
    frame.content? name = frame.recording.cell? name := by
  rw [content?, h]

private theorem eval_named (h : frame.locals.lookup name = some value) :
    frame.eval (.named name) = some value := by
  rw [eval, content?_of_lookup h]

theorem assign_field (h : frame.locals.lookup name = none)
    (hfield : frame.recording.cell? name ≠ none) (value : Value) :
    frame.assign name value = some { frame with recording := frame.recording.set name value } := by
  obtain ⟨cell, hcell⟩ := Option.ne_none_iff_exists'.mp hfield
  rw [assign, h, hcell]

end Frame

namespace MethodDouble

variable {double : MethodDouble} {arguments : List Value}

/-- The parameters with their arguments. -/
def passed (double : MethodDouble) (arguments : List Value) : List (String × Value) :=
  (double.method.parameters.map (·.name)).zip arguments

theorem passed_eq_map (double : MethodDouble) (arguments : List Value) :
    double.passed arguments =
      (double.method.parameters.zip arguments).map fun entry ↦ (entry.1.name, entry.2) := by
  rw [passed, List.zip_map_left]
  rfl

theorem lookup_passed (hlength : arguments.length = double.method.parameters.length)
    {entry : Parameter × Value} (h : entry ∈ double.method.parameters.zip arguments) :
    (double.passed arguments).lookup entry.1.name = some entry.2 := by
  have hnodup : ((double.method.parameters.zip arguments).map (·.1.name)).Nodup := by
    have hnames := double.method.names_nodup
    rwa [← List.map_fst_zip (Nat.le_of_eq hlength.symm), List.map_map] at hnames
  rw [passed_eq_map]
  exact lookup_map_of_nodup hnodup Prod.snd h

theorem lookup_passed_eq_none {name : String}
    (h : ∀ parameter ∈ double.method.parameters, parameter.name ≠ name) :
    (double.passed arguments).lookup name = none := by
  rw [passed_eq_map]
  refine List.lookup_eq_none_iff.mpr fun entry hentry ↦ ?_
  obtain ⟨pair, hpair, rfl⟩ := List.mem_map.mp hentry
  simpa using Ne.symm (h pair.1 (List.of_mem_zip hpair).1)

end MethodDouble

/-! ## Keeping arguments -/

/-- What is kept of one argument. -/
def Parameter.kept (parameter : Parameter) (value : Value) : Value :=
  if parameter.isStorable then value else .unit

theorem Recording.kept_cons (parameter : Parameter) (slots : List Slot) (value : Value)
    (values : List Value) :
    kept (Slot.ofParameter parameter :: slots) (value :: values) =
      parameter.kept value :: kept slots values := by
  rw [Slot.ofParameter, Parameter.kept]
  split <;> rfl

private theorem Recording.kept_fillers (count : Nat) :
    kept (List.replicate count .filler) [] = List.replicate count .unit := by
  induction count with
  | zero => rfl
  | succ count ih => rw [List.replicate_succ, kept, ih, List.replicate_succ]

namespace Frame

variable {frame : Frame}

private theorem eval_value_ofParameter {parameter : Parameter} {value : Value}
    (h : frame.locals.lookup parameter.name = some value) :
    frame.eval (Slot.ofParameter parameter).value = some (parameter.kept value) := by
  rw [Slot.ofParameter, Parameter.kept]
  split
  · exact eval_named h
  · rfl

private theorem mapM_eval_fillers (count : Nat) :
    ((List.replicate count Slot.filler).map Slot.value).mapM frame.eval =
      some (List.replicate count .unit) := by
  induction count with
  | zero => rfl
  | succ count ih =>
    rw [List.replicate_succ, List.map_cons, List.mapM_cons, ih]
    rfl

/-- The values of slots are what is kept of the arguments. -/
theorem mapM_eval_slots (count : Nat) {entries : List (Parameter × Value)}
    (h : ∀ entry ∈ entries, frame.locals.lookup entry.1.name = some entry.2) :
    (((entries.map Prod.fst).map Slot.ofParameter ++ List.replicate count Slot.filler).map
        Slot.value).mapM frame.eval =
      some (Recording.kept
        ((entries.map Prod.fst).map Slot.ofParameter ++ List.replicate count .filler)
        (entries.map Prod.snd)) := by
  induction entries with
  | nil => exact (mapM_eval_fillers count).trans (congrArg some (Recording.kept_fillers count).symm)
  | cons entry entries ih =>
    obtain ⟨hentry, hentries⟩ := List.forall_mem_cons.mp h
    simp only [List.map_cons, List.cons_append, Recording.kept_cons, List.mapM_cons,
      eval_value_ofParameter hentry, ih hentries]
    rfl

theorem mapM_eval_recordValue {double : MethodDouble} {arguments : List Value}
    (hlength : arguments.length = double.method.parameters.length)
    (hlocals : frame.locals = double.passed arguments) :
    double.recordValue.mapM frame.eval = some (Recording.kept double.slots arguments) := by
  have hfirst : (double.method.parameters.zip arguments).map Prod.fst = double.method.parameters :=
    List.map_fst_zip (Nat.le_of_eq hlength.symm)
  have hsecond : (double.method.parameters.zip arguments).map Prod.snd = arguments :=
    List.map_snd_zip (Nat.le_of_eq hlength)
  have hlookup : ∀ entry ∈ double.method.parameters.zip arguments,
      frame.locals.lookup entry.1.name = some entry.2 := by
    intro entry hentry
    rw [hlocals]
    exact double.lookup_passed hlength hentry
  have hslots := mapM_eval_slots (if double.method.parameters.length = 1 then 1 else 0) hlookup
  rwa [hfirst, hsecond, ← Slot.ofParameters_eq] at hslots

end Frame

/-! ## Calling closures -/

private theorem mapM_eq_some_of_forall₂ {α β : Type} {f : α → Option β} {xs : List α} {ys : List β}
    (h : List.Forall₂ (fun x y ↦ f x = some y) xs ys) : xs.mapM f = some ys := by
  induction h with
  | nil => rfl
  | cons hhead _ ih =>
    rw [List.mapM_cons, hhead, ih]
    rfl

namespace Frame

variable {frame : Frame} {callback : Callback} {closure value : Value}

/-- The value of a stub can be passed as the arguments of the closure. -/
def Spreads (callback : Callback) (value : Value) : Prop :=
  2 ≤ callback.arity →
    value = .null ∨ ∃ items, value = .tuple items ∧ items.length = callback.arity

/-- The names in the call of a closure stand for what they should. -/
structure Serves (frame : Frame) (callback : Callback) (closure : Value) : Prop where
  closure_eq : frame.locals.lookup callback.parameter = some closure
  callable : (∃ name, closure = .closure name) ∨ closure = .null ∧ callback.isOptional = true
  ne_binding : callback.parameter ≠ Callback.binding
  stub_none : callback.stub? = none ↔ callback.arity = 0
  stub_field : ∀ stub ∈ callback.stub?, frame.locals.lookup stub.name = none ∧
    frame.recording.cell? stub.name ≠ none ∧
    ∀ value, frame.recording.cell? stub.name = some (.holds value) → Spreads callback value

/-- A single argument is the stubbed value. -/
theorem mapM_eval_binding (harity : callback.arity = 1) :
    callback.arguments.mapM (frame.bind Callback.binding value).eval = some [value] := by
  rw [Callback.arguments, harity]
  exact mapM_eq_some_of_forall₂ (.cons (eval_named List.lookup_cons_self) .nil)

/-- Several arguments are the elements of the stubbed tuple. -/
theorem mapM_eval_elements {items : List Value} (harity : 2 ≤ callback.arity)
    (hitems : items.length = callback.arity) :
    callback.arguments.mapM (frame.bind Callback.binding (.tuple items)).eval = some items := by
  have harguments : callback.arguments =
      (List.range items.length).map (.element Callback.binding) := by
    rw [Callback.arguments, hitems]
    split <;> simp_all
  have hcontent : (frame.bind Callback.binding (.tuple items)).content? Callback.binding =
      some (.holds (.tuple items)) :=
    content?_of_lookup List.lookup_cons_self
  rw [harguments]
  refine mapM_eq_some_of_forall₂ (List.forall₂_iff_get.mpr ⟨by simp, fun i _ hi ↦ ?_⟩)
  simp [eval, hcontent]

/-- What a call through a closure gives, in a recording and in a body. -/
theorem perform_eq {arguments : List Value}
    (h : frame.locals.lookup callback.parameter = some closure)
    (hcallable : (∃ name, closure = .closure name) ∨ closure = .null ∧ callback.isOptional = true)
    (harguments : callback.arguments.mapM frame.eval = some arguments) :
    ∃ event?, (if closure.isNull && callback.isOptional then .ok none
        else some <$> Recording.apply closure arguments) = Except.ok event? ∧
      frame.perform callback.call = some event? := by
  have heval : frame.eval (.named callback.call.closure) = some closure := eval_named h
  rw [perform, heval]
  rcases hcallable with ⟨name, rfl⟩ | ⟨rfl, hoptional⟩
  · exact ⟨some ⟨name, arguments⟩, rfl, congrArg (Option.map _) harguments⟩
  · exact ⟨none, by simp [hoptional, Value.isNull], by simp [Callback.call, hoptional]⟩

theorem Serves.performIfSet_eq {stub : Stub} (h : frame.Serves callback closure)
    (hstub : callback.stub? = some stub) :
    ∃ event?, Recording.eventOf frame.recording callback closure = .ok event? ∧
      frame.performIfSet stub.name Callback.binding callback.call = some event? := by
  obtain ⟨hhidden, hfield, hspreads⟩ := h.stub_field stub hstub
  obtain ⟨cell, hcell⟩ := Option.ne_none_iff_exists'.mp hfield
  rw [Recording.eventOf, performIfSet, content?_of_field hhidden, hstub]
  dsimp only
  rw [hcell]
  cases cell with
  | unset => exact ⟨none, ite_self _, rfl⟩
  | holds value =>
    have hbound : (frame.bind Callback.binding value).locals.lookup callback.parameter =
        some closure := by
      rw [bind, lookup_cons_eq_ite, if_neg h.ne_binding, h.closure_eq]
    have hperform {arguments : List Value}
        (harguments : callback.arguments.mapM (frame.bind Callback.binding value).eval =
          some arguments) := perform_eq hbound h.callable harguments
    by_cases hnull : value.isNull = true
    · exact ⟨none, by simp [hnull], by simp [hnull]⟩
    -- One argument is the bound value itself, several are its parts.
    · by_cases hsingle : callback.arity = 1
      · simpa [hnull, hsingle] using hperform (mapM_eval_binding hsingle)
      · have hsome : callback.arity ≠ 0 := by
          intro hzero
          rw [h.stub_none.mpr hzero] at hstub
          cases hstub
        have harity : 2 ≤ callback.arity := by omega
        rcases hspreads value hcell harity with rfl | ⟨items, rfl, hitems⟩
        · exact absurd rfl hnull
        · simpa [hnull, hsingle, Value.parts?] using hperform (mapM_eval_elements harity hitems)

/-- The statement for a closure makes the call that a recording makes. -/
theorem Serves.run_statement (h : frame.Serves callback closure) (react : Recording.Reaction)
    (earlier : List Recording.Event) (rest : List Statement) :
    ∃ event?, Recording.eventOf frame.recording callback closure = .ok event? ∧
      Statement.run react frame earlier (callback.statement :: rest) =
        callback.call.andThen react frame.recording earlier event? fun events ↦
          Statement.run react frame events rest := by
  rcases hstub : callback.stub? with _ | stub
  · have hnone : callback.arguments.mapM frame.eval = some [] := by
      rw [Callback.arguments, h.stub_none.mp hstub]
      rfl
    obtain ⟨event?, hevent, hperform⟩ := perform_eq h.closure_eq h.callable hnone
    refine ⟨event?, ?_, ?_⟩
    · rw [Recording.eventOf, hstub, ← hevent]
    · rw [Callback.statement, hstub, Statement.run, hperform]
      rfl
  · obtain ⟨event?, hevent, hperform⟩ := h.performIfSet_eq hstub
    refine ⟨event?, hevent, ?_⟩
    rw [Callback.statement, hstub, Statement.run, hperform]
    rfl

theorem run_giveBack {stub : Stub} (hhidden : frame.locals.lookup stub.name = none)
    (hfield : frame.recording.cell? stub.name ≠ none) (react : Recording.Reaction)
    (earlier : List Recording.Event) :
    Statement.run react frame earlier [.giveBack stub.name] =
      some ⟨frame.recording.read stub.name, frame.recording, earlier⟩ := by
  obtain ⟨cell, hcell⟩ := Option.ne_none_iff_exists'.mp hfield
  rw [Statement.run, giveBack, content?_of_field hhidden, Recording.read, hcell]
  cases cell <;> rfl

end Frame

end TestDouble
