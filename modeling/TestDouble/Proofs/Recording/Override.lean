import TestDouble.Proofs.Mock.Alone
import TestDouble.Proofs.Recording.Frame

/-!
# Calls and overrides

A call that is recorded finds fields and arguments by position, without any name; the body of the
override finds them by name. Since the names are different, both leave the same fields, and both
make the same calls as long as no closure fails.

They part where a closure fails that is declared to throw. The body ignores the failure and goes on:
it calls the closures behind and returns what was stubbed. The recorded call fails there. A closure
that is not declared to throw ends both.
-/

namespace TestDouble

/-! ## Failing closures -/

namespace Recording

variable {recording : Recording} {react : Reaction} {earlier : List Event}
  {calls : List (Callback × Value)} {callback other : Callback} {closure : Value} {event : Event}
  {complaint : String} {result : Except Refusal Value}

/-- The call of the closure fails, when those before it have been made and have not failed. -/
def FailsAt (recording : Recording) (react : Reaction) (earlier : List Event)
    (calls : List (Callback × Value)) (callback : Callback) : Prop :=
  ∃ front closure back events event complaint, calls = front ++ (callback, closure) :: back ∧
    recording.eventsOf react earlier front = (events, none) ∧
    recording.eventOf callback closure = .ok (some event) ∧
    react (earlier ++ events ++ [event]) = some complaint

/-- What has happened when a recording has made its calls, after some earlier ones, and is about to
give back the result. -/
def performance (recording : Recording) (react : Reaction) (earlier : List Event)
    (calls : List (Callback × Value)) (result : Except Refusal Value) : Performance where
  result := (recording.eventsOf react earlier calls).2.elim result .error
  recording := recording
  events := earlier ++ (recording.eventsOf react earlier calls).1

theorem not_failsAt_nil : ¬recording.FailsAt react earlier [] callback := by
  rintro ⟨front, closure, back, -, -, -, hnil, -⟩
  simp at hnil

section Skipped

variable (h : recording.eventOf callback closure = .ok none)
include h

/-- A closure that is not called is of no importance. -/
theorem failsAt_cons_of_skipped :
    recording.FailsAt react earlier ((callback, closure) :: calls) other ↔
      recording.FailsAt react earlier calls other := by
  constructor
  · rintro ⟨_ | ⟨_, front⟩, closure', back, events, event, complaint, hcalls, hevents, hevent,
      hreact⟩
    · obtain ⟨rfl, rfl⟩ := Prod.mk.inj (List.cons.inj hcalls).1
      cases h.symm.trans hevent
    · obtain ⟨rfl, rfl⟩ := List.cons.inj hcalls
      rw [eventsOf, h] at hevents
      exact ⟨front, closure', back, events, event, complaint, rfl, hevents, hevent, hreact⟩
  · rintro ⟨front, closure', back, events, event, complaint, rfl, hevents, hevent, hreact⟩
    refine ⟨(callback, closure) :: front, closure', back, events, event, complaint, rfl, ?_, hevent,
      hreact⟩
    rw [eventsOf, h]
    exact hevents

theorem performance_cons_of_skipped :
    recording.performance react earlier ((callback, closure) :: calls) result =
      recording.performance react earlier calls result := by
  rw [performance, performance, eventsOf, h]

end Skipped

section Returns

variable (h : recording.eventOf callback closure = .ok (some event))
  (hreact : react (earlier ++ [event]) = none)
include h hreact

theorem failsAt_cons_of_returns :
    recording.FailsAt react earlier ((callback, closure) :: calls) other ↔
      recording.FailsAt react (earlier ++ [event]) calls other := by
  constructor
  · rintro ⟨_ | ⟨_, front⟩, closure', back, events, event', complaint, hcalls, hevents, hevent,
      hfails⟩
    · obtain ⟨rfl, rfl⟩ := Prod.mk.inj (List.cons.inj hcalls).1
      obtain rfl := Option.some.inj (Except.ok.inj (h.symm.trans hevent))
      obtain ⟨rfl, -⟩ := Prod.mk.inj hevents
      rw [List.append_nil, hreact] at hfails
      cases hfails
    · obtain ⟨rfl, rfl⟩ := List.cons.inj hcalls
      rw [eventsOf, h] at hevents
      simp only [hreact, Prod.mk.injEq] at hevents
      obtain ⟨rfl, hnone⟩ := hevents
      refine ⟨front, closure', back, _, event', complaint, rfl, Prod.ext rfl hnone, hevent, ?_⟩
      simpa using hfails
  · rintro ⟨front, closure', back, events, event', complaint, rfl, hevents, hevent, hfails⟩
    refine ⟨(callback, closure) :: front, closure', back, event :: events, event', complaint, rfl,
      ?_, hevent, ?_⟩
    · rw [eventsOf, h]
      simp only [hreact, hevents]
    · simpa using hfails

theorem performance_cons_of_returns :
    recording.performance react earlier ((callback, closure) :: calls) result =
      recording.performance react (earlier ++ [event]) calls result := by
  rw [performance, performance, eventsOf, h]
  simp only [hreact, List.append_assoc, List.singleton_append]

end Returns

section Raises

variable (h : recording.eventOf callback closure = .ok (some event))
  (hreact : react (earlier ++ [event]) = some complaint)
include h hreact

theorem failsAt_cons_of_raises :
    recording.FailsAt react earlier ((callback, closure) :: calls) other ↔ other = callback := by
  constructor
  · rintro ⟨_ | ⟨_, front⟩, closure', back, events, event', complaint', hcalls, hevents, -⟩
    · exact (Prod.mk.inj (List.cons.inj hcalls).1).1.symm
    · obtain ⟨rfl, rfl⟩ := List.cons.inj hcalls
      rw [eventsOf, h] at hevents
      simp [hreact] at hevents
  · rintro rfl
    refine ⟨[], closure, calls, [], event, complaint, rfl, rfl, h, ?_⟩
    rwa [List.append_nil]

theorem performance_cons_of_raises :
    recording.performance react earlier ((callback, closure) :: calls) result =
      ⟨.error (.raised complaint), recording, earlier ++ [event]⟩ := by
  rw [performance, eventsOf, h]
  simp only [hreact, Option.elim_some]

end Raises

end Recording

/-! ## Bodies that call closures -/

namespace Frame

variable {frame : Frame} {react : Recording.Reaction} {earlier : List Recording.Event}
  {event : Recording.Event} {performance : Recording.Performance} {result : Except Refusal Value}

/-- The fields are kept, calls are made after the earlier ones only, and if there are none of these,
then `result` is given back. -/
structure Continues (frame : Frame) (earlier : List Recording.Event) (result : Except Refusal Value)
    (performance : Recording.Performance) : Prop where
  recording_eq : performance.recording = frame.recording
  earlier_prefix : earlier <+: performance.events
  result_eq : performance.events = earlier → performance.result = result

theorem Continues.of_append (h : frame.Continues (earlier ++ [event]) result performance)
    (result' : Except Refusal Value) : frame.Continues earlier result' performance where
  recording_eq := h.recording_eq
  earlier_prefix := (List.prefix_append earlier [event]).trans h.earlier_prefix
  result_eq heq := by
    have hlength := h.earlier_prefix.length_le
    rw [heq, List.length_append, List.length_singleton] at hlength
    omega

section Run

variable {calls : List (Callback × Value)} {rest : List Statement}
  (hserves : ∀ call ∈ calls, frame.Serves call.1 call.2)
  (hrest : ∀ events, Statement.run react frame events rest =
    some ⟨result, frame.recording, events⟩)
include hserves hrest

private theorem exists_continues (earlier : List Recording.Event) :
    ∃ performance,
      Statement.run react frame earlier (calls.map (·.1.statement) ++ rest) = some performance ∧
      frame.Continues earlier result performance := by
  induction calls generalizing earlier with
  | nil => exact ⟨_, hrest earlier, rfl, List.prefix_refl _, fun _ ↦ rfl⟩
  | cons call calls ih =>
    obtain ⟨callback, closure⟩ := call
    obtain ⟨hcall, hcalls⟩ := List.forall_mem_cons.mp hserves
    obtain ⟨event?, -, hrun⟩ :=
      hcall.run_statement react earlier (calls.map (·.1.statement) ++ rest)
    rw [List.map_cons, List.cons_append, hrun]
    rcases event? with _ | event
    · exact ih hcalls earlier
    have hnext : ∃ performance, Statement.run react frame (earlier ++ [event])
        (calls.map (·.1.statement) ++ rest) = some performance ∧
        frame.Continues earlier result performance := by
      obtain ⟨performance, hperformance, hcontinues⟩ := ih hcalls (earlier ++ [event])
      exact ⟨performance, hperformance, hcontinues.of_append result⟩
    rcases hreact : react (earlier ++ [event]) with _ | complaint
    · rwa [Call.andThen_of_returns hreact]
    · rw [Call.andThen_of_raises hreact]
      -- Under `try?` the body goes on as if nothing had happened, and otherwise it ends here.
      split
      · exact hnext
      · refine ⟨_, rfl, rfl, List.prefix_append _ _, fun heq ↦ ?_⟩
        simp at heq

/-- The induction is on the calls, with any calls before them. Behind a failure that is ignored it
is of no importance what the body does, if it does anything. -/
theorem exists_run_iff (hresult : ∀ complaint, result ≠ .error (.raised complaint))
    (earlier : List Recording.Event) :
    ∃ performance,
      Statement.run react frame earlier (calls.map (·.1.statement) ++ rest) = some performance ∧
      performance.recording = frame.recording ∧
      (frame.recording.performance react earlier calls result).events <+: performance.events ∧
      (performance = frame.recording.performance react earlier calls result ↔
        ∀ callback, frame.recording.FailsAt react earlier calls callback →
          callback.throws = false) := by
  induction calls generalizing earlier with
  | nil =>
    have hnone : frame.recording.performance react earlier [] result =
        ⟨result, frame.recording, earlier⟩ := by
      rw [Recording.performance, Recording.eventsOf, List.append_nil]
      rfl
    rw [hnone]
    refine ⟨_, hrest earlier, rfl, List.prefix_refl _, ?_⟩
    exact iff_of_true rfl fun callback hfails ↦ absurd hfails Recording.not_failsAt_nil
  | cons call calls ih =>
    obtain ⟨callback, closure⟩ := call
    obtain ⟨hcall, hcalls⟩ := List.forall_mem_cons.mp hserves
    obtain ⟨event?, hevent, hrun⟩ :=
      hcall.run_statement react earlier (calls.map (·.1.statement) ++ rest)
    rw [List.map_cons, List.cons_append, hrun]
    rcases event? with _ | event
    · simp only [Recording.failsAt_cons_of_skipped hevent,
        Recording.performance_cons_of_skipped hevent]
      exact ih hcalls earlier
    rcases hreact : react (earlier ++ [event]) with _ | complaint
    · simp only [Recording.failsAt_cons_of_returns hevent hreact,
        Recording.performance_cons_of_returns hevent hreact, Call.andThen_of_returns hreact]
      exact ih hcalls (earlier ++ [event])
    · simp only [Recording.failsAt_cons_of_raises hevent hreact,
        Recording.performance_cons_of_raises hevent hreact, Call.andThen_of_raises hreact,
        forall_eq]
      -- Only under `try?` do the two part: the body goes on, where the recorded call has failed.
      rcases hthrows : callback.throws with _ | _
      · exact ⟨_, if_neg (by simp [Callback.call, hthrows]), rfl, List.prefix_refl _, by simp⟩
      · obtain ⟨performance, hperformance, hcontinues⟩ :=
          exists_continues hcalls hrest (earlier ++ [event])
        refine ⟨performance, (if_pos hthrows).trans hperformance, hcontinues.recording_eq,
          hcontinues.earlier_prefix, iff_of_false ?_ Bool.noConfusion⟩
        rintro rfl
        exact hresult complaint (hcontinues.result_eq rfl).symm

end Run

end Frame

/-! ## Bodies -/

private theorem Recording.cell?_ne_none {recording : Recording} {field : String}
    (h : field ∈ recording.cells.map Prod.fst) : recording.cell? field ≠ none := by
  obtain ⟨entry, hentry, rfl⟩ := List.mem_map.mp h
  rw [cell?, ne_eq, List.lookup_eq_none_iff]
  intro hall
  simpa using hall entry hentry

/-- Arguments passed by position are bound as they are. -/
theorem Recording.bind_positional {method : Method} {arguments : List Value}
    (h : arguments.length = method.parameters.length) :
    bind method arguments [] = .ok arguments := by
  rw [bind, h, List.drop_length, bindKeywords, if_neg (Nat.lt_irrefl _)]
  exact congrArg Except.ok (List.append_nil arguments)

namespace MethodDouble

variable {double : MethodDouble} {recording : Recording} {arguments : List Value}

/-- Runs the body of the override. -/
def runBody (double : MethodDouble) (recording : Recording) (arguments : List Value)
    (react : Recording.Reaction := .returning) : Option Recording.Performance :=
  Statement.run react ⟨double.passed arguments, recording⟩ [] double.body

/-- The recording when the call has been noted: its flag is raised and its arguments are kept. -/
def noted (double : MethodDouble) (recording : Recording) (arguments : List Value) : Recording :=
  (recording.set double.flag (.bool true)).set double.record
    (.tuple (Recording.kept double.slots arguments))

/-- What the method gives back when all closures have been called. -/
def given (double : MethodDouble) (recording : Recording) : Except Refusal Value :=
  match double.resultStub? with
  | some stub => recording.read stub.name
  | none => .ok .null

/-- The closures to be called, with what was passed for them. -/
def passedClosures (double : MethodDouble) (arguments : List Value) : List (Callback × Value) :=
  double.callbacks.map fun callback ↦
    (callback, ((double.passed arguments).lookup callback.parameter).getD .null)

/-- The closure can be called, or it is absent where its type allows that. -/
def Callable (parameter : Parameter) (closure : Value) : Prop :=
  (∃ name, closure = .closure name) ∨ closure = .null ∧ parameter.type.isOptional = true

private theorem exists_mem_zip (hlength : arguments.length = double.method.parameters.length)
    {parameter : Parameter} (h : parameter ∈ double.method.parameters) :
    ∃ value, (parameter, value) ∈ double.method.parameters.zip arguments := by
  rw [← List.map_fst_zip (Nat.le_of_eq hlength.symm)] at h
  obtain ⟨⟨_, value⟩, hentry, rfl⟩ := List.mem_map.mp h
  exact ⟨value, hentry⟩

private theorem serves_of_mem_callbacks
    (hlength : arguments.length = double.method.parameters.length)
    (hnames : ∀ parameter ∈ double.method.parameters,
      parameter.name ≠ Callback.binding ∧ parameter.name ∉ double.fields)
    (hclosures : ∀ entry ∈ double.method.parameters.zip arguments,
      entry.1.isClosure = true → Callable entry.1 entry.2)
    (hfields : ∀ field ∈ double.fields, recording.cell? field ≠ none)
    {callback : Callback} (hmem : callback ∈ double.callbacks)
    (hspreads : ∀ stub ∈ callback.stub?, ∀ value,
      recording.cell? stub.name = some (.holds value) → Frame.Spreads callback value) :
    Frame.Serves ⟨double.passed arguments, recording⟩ callback
      (((double.passed arguments).lookup callback.parameter).getD .null) := by
  obtain ⟨parameter, hparameter, hclosure, hname, hoptional⟩ :=
    double.exists_parameter_of_mem_callbacks hmem
  obtain ⟨value, hentry⟩ := exists_mem_zip hlength hparameter
  have hlookup := lookup_passed hlength hentry
  have hcallable := hclosures _ hentry hclosure
  rw [← hname, hlookup]
  constructor
  case closure_eq => exact hname ▸ hlookup
  case callable => simpa [Callable, hoptional] using hcallable
  case ne_binding => exact hname ▸ (hnames parameter hparameter).1
  case stub_none => exact double.stub?_eq_none_iff hmem
  case stub_field =>
    intro stub hstub
    have hfield := double.stub_name_mem_fields (double.stub_mem_callbackStubs hmem hstub)
    refine ⟨lookup_passed_eq_none fun other hother heq ↦ ?_, hfields _ hfield, hspreads stub hstub⟩
    exact (hnames other hother).2 (heq ▸ hfield)

/-- The fields that a call sets first are none of those that it reads afterwards. -/
theorem cell?_noted (hnodup : double.fields.Nodup) {stub : Stub}
    (hstub : stub ∈ double.callbackStubs) (flag record : Value) :
    ((recording.set double.flag flag).set double.record record).cell? stub.name =
      recording.cell? stub.name := by
  have hname : stub.name ∈ double.callbackStubs.map (·.name) := List.mem_map_of_mem hstub
  rw [fields, List.append_assoc, List.cons_append, List.cons_append, List.nil_append,
    List.nodup_cons, List.nodup_cons] at hnodup
  obtain ⟨hflag, hrecord, -⟩ := hnodup
  have hne_flag : stub.name ≠ double.flag := by
    rintro heq
    exact hflag (List.mem_cons_of_mem _ (List.mem_append_left _ (heq ▸ hname)))
  have hne_record : stub.name ≠ double.record := by
    rintro heq
    exact hrecord (List.mem_append_left _ (heq ▸ hname))
  rw [Recording.cell?_set, Recording.cell?_set]
  simp [hne_flag, hne_record]

/-- A closure that fails is not what a test has set. -/
theorem given_ne_raised (complaint : String) :
    double.given recording ≠ .error (.raised complaint) := by
  rw [given]
  split
  · rw [Recording.read]
    split <;> simp
  · simp

theorem call_eq (react : Recording.Reaction) :
    recording.call double arguments react =
      (double.noted recording arguments).performance react [] (double.passedClosures arguments)
        (double.given (double.noted recording arguments)) := by
  rw [Recording.call, Recording.performance, passedClosures, passed]
  dsimp only
  rw [← noted, given]
  rcases (Recording.eventsOf (double.noted recording arguments) react [] _).2 with _ | refusal
  · rcases double.resultStub? with _ | stub <;> rfl
  · rfl

section Body

variable (hnodup : double.fields.Nodup)
  (hlength : arguments.length = double.method.parameters.length)
  (hnames : ∀ parameter ∈ double.method.parameters,
    parameter.name ≠ Callback.binding ∧ parameter.name ∉ double.fields)
  (hfields : ∀ field ∈ double.fields, recording.cell? field ≠ none)
include hnames

private theorem lookup_passed_field {field : String} (hfield : field ∈ double.fields) :
    (double.passed arguments).lookup field = none :=
  lookup_passed_eq_none fun parameter hparameter heq ↦
    (hnames parameter hparameter).2 (heq ▸ hfield)

include hlength hfields

/-- The first statements of a body note the call. -/
theorem runBody_eq (react : Recording.Reaction) :
    double.runBody recording arguments react =
      Statement.run react ⟨double.passed arguments, double.noted recording arguments⟩ []
        (double.callbacks.map (·.statement) ++
          (double.resultStub?.map fun stub ↦ Statement.giveBack stub.name).toList) := by
  have hflag : Frame.assign ⟨double.passed arguments, recording⟩ double.flag (.bool true) =
      some ⟨double.passed arguments, recording.set double.flag (.bool true)⟩ :=
    Frame.assign_field (lookup_passed_field hnames double.flag_mem_fields)
      (hfields _ double.flag_mem_fields) _
  have hrecord (recording : Recording) (h : recording.cell? double.record ≠ none) (value : Value) :
      Frame.assign ⟨double.passed arguments, recording⟩ double.record value =
        some ⟨double.passed arguments, recording.set double.record value⟩ :=
    Frame.assign_field (lookup_passed_field hnames double.record_mem_fields) h _
  rw [runBody, body, List.append_assoc, List.cons_append, List.cons_append, List.nil_append,
    Statement.run, hflag, Option.bind_eq_bind, Option.bind_some, Statement.run,
    Frame.mapM_eval_recordValue hlength rfl, Option.bind_eq_bind, Option.bind_some, hrecord,
    Option.bind_eq_bind, Option.bind_some, noted]
  exact Recording.cell?_set_ne_none.mpr (hfields _ double.record_mem_fields)

omit hlength in
/-- The last statement of a body gives back what a test has set. -/
theorem run_giveBack (react : Recording.Reaction) (events : List Recording.Event) :
    Statement.run react ⟨double.passed arguments, recording⟩ events
        (double.resultStub?.map fun stub ↦ Statement.giveBack stub.name).toList =
      some ⟨double.given recording, recording, events⟩ := by
  rw [given]
  rcases hstub : double.resultStub? with _ | stub
  · rfl
  · have hfield := double.resultStub_name_mem_fields hstub
    exact Frame.run_giveBack (lookup_passed_field hnames hfield) (hfields _ hfield) react events

include hnodup

/-- A body does to the fields what a recording of the call does to them. -/
theorem exists_runBody_iff
    (hclosures : ∀ entry ∈ double.method.parameters.zip arguments,
      entry.1.isClosure = true → Callable entry.1 entry.2)
    (hspreads : ∀ callback ∈ double.callbacks, ∀ stub ∈ callback.stub?, ∀ value,
      recording.cell? stub.name = some (.holds value) → Frame.Spreads callback value)
    (react : Recording.Reaction) :
    ∃ performance, double.runBody recording arguments react = some performance ∧
      performance.recording = (recording.call double arguments react).recording ∧
      (recording.call double arguments react).events <+: performance.events ∧
      (performance = recording.call double arguments react ↔
        ∀ callback, (double.noted recording arguments).FailsAt react []
          (double.passedClosures arguments) callback → callback.throws = false) := by
  have hnoted : ∀ field ∈ double.fields, (double.noted recording arguments).cell? field ≠ none :=
    fun field hfield ↦
      Recording.cell?_set_ne_none.mpr (Recording.cell?_set_ne_none.mpr (hfields field hfield))
  have hserves : ∀ call ∈ double.passedClosures arguments, Frame.Serves
      ⟨double.passed arguments, double.noted recording arguments⟩ call.1 call.2 := by
    intro call hcall
    obtain ⟨callback, hcallback, rfl⟩ := List.mem_map.mp hcall
    refine serves_of_mem_callbacks hlength hnames hclosures hnoted hcallback ?_
    intro stub hstub value hvalue
    rw [noted, cell?_noted hnodup (double.stub_mem_callbackStubs hcallback hstub)] at hvalue
    exact hspreads callback hcallback stub hstub value hvalue
  have hstatements : double.callbacks.map (·.statement) =
      (double.passedClosures arguments).map (·.1.statement) := by
    rw [passedClosures, List.map_map]
    rfl
  rw [runBody_eq hlength hnames hfields, hstatements, call_eq]
  exact Frame.exists_run_iff hserves (run_giveBack hnames hnoted react) given_ne_raised []

end Body

end MethodDouble

namespace Mock

open MethodDouble

/-- The body of an override makes sense, whatever the fields hold and whatever is passed. It leaves
the fields that a recorded call leaves and makes the calls that this makes. It makes no others, and
ends with the same result or failure, if and only if the call that fails, if any, is not that of a
closure that is declared to throw. -/
theorem runBody_eq_invoke_iff {style : Style} {known : Catalogue} {protocol : Protocol}
    {mock : Mock} (h : ofProtocol style known protocol = .ok mock) {double : MethodDouble}
    (hmem : double ∈ mock.methods)
    (hnames : ∀ parameter ∈ double.method.parameters,
      parameter.name ≠ Callback.binding ∧ parameter.name ∉ double.fields)
    {recording : Recording} (hcells : recording.cells.map Prod.fst = mock.fields)
    (hspreads : ∀ callback ∈ double.callbacks, ∀ stub ∈ callback.stub?, ∀ value,
      recording.cell? stub.name = some (.holds value) → Frame.Spreads callback value)
    {arguments : List Value} (hlength : arguments.length = double.method.parameters.length)
    (hclosures : ∀ entry ∈ double.method.parameters.zip arguments,
      entry.1.isClosure = true → Callable entry.1 entry.2)
    (react : Recording.Reaction) :
    ∃ performance, double.runBody recording arguments react = some performance ∧
      performance.recording =
        (recording.invoke mock double.name arguments [] react).recording ∧
      (recording.invoke mock double.name arguments [] react).events <+: performance.events ∧
      (performance = recording.invoke mock double.name arguments [] react ↔
        ∀ callback, (double.noted recording arguments).FailsAt react []
          (double.passedClosures arguments) callback → callback.throws = false) := by
  have hnodup := fields_nodup h
  have htarget : Recording.target mock double.name arguments [] = .ok (double, arguments) := by
    have hmethod := (Recording.findMethod_eq_ok_iff hnodup).mpr ⟨hmem, rfl⟩
    refine Except.bind_eq_ok_iff.mpr ⟨double, hmethod, ?_⟩
    exact Except.bind_eq_ok_iff.mpr ⟨arguments, Recording.bind_positional hlength, rfl⟩
  have hfields : ∀ field ∈ double.fields, recording.cell? field ≠ none := by
    intro field hfield
    refine Recording.cell?_ne_none ?_
    rw [hcells, fields]
    exact List.mem_append_right _ (List.mem_flatMap.mpr ⟨double, hmem, hfield⟩)
  rw [Recording.invoke, htarget]
  exact exists_runBody_iff (fields_nodup_of_mem_methods hnodup hmem) hlength hnames hfields
    hclosures hspreads react

/-- The closure that is called last fails, and is not declared to throw: the body ends there too.
The one before it is declared to throw, and returns. -/
theorem runBody_eq_invoke_iff_last :
    let pair : SwiftType := {
      base := "(Int, String) throws -> Void"
      signature? := some {
        arguments := [{ base := "Int" }, { base := "String" }], effects := ["throws"] } }
    let check : SwiftType := { base := "() -> Void", signature? := some {} }
    let fetch : Method := {
      name := "fetch"
      parameters := [{ name := "done", type := pair }, { name := "check", type := check }]
      labels_nodup := by decide
      names_nodup := by decide
      result_not_void := by simp }
    let mock := ofMerged .standard { name := "Store", methods := [fetch] } ["fetch"]
    let recording : Recording := ⟨[("invokedFetch", .holds (.bool false)),
      ("invokedFetchParameters", .holds .null),
      ("stubbedFetchDoneResult", .holds (.tuple [.number 1, .text "one"]))]⟩
    let react := fun events ↦ if events.length = 2 then some "refused" else none
    runBody ⟨fetch, "fetch"⟩ recording [.closure "f", .closure "g"] react =
      some (recording.invoke mock "fetch" [.closure "f", .closure "g"] [] react) := by
  intro pair check fetch mock recording react
  have halone : Protocol.withInherited .empty { name := "Store", methods := [fetch] } =
      { name := "Store", methods := [fetch] } :=
    Protocol.withInherited_of_inherited_eq_nil .empty rfl
  have hmock : ofProtocol .standard .empty { name := "Store", methods := [fetch] } = .ok mock := by
    refine ofProtocol_eq_ok_iff.mpr ⟨["fetch"], ?_, ?_, ?_⟩
    · rw [halone]
      decide +kernel
    · rw [halone]
    · decide +kernel
  have hcallbacks : callbacks ⟨fetch, "fetch"⟩ = [⟨"done", 2,
      some ⟨"stubbedFetchDoneResult", "(Int, String)?"⟩, false, true, false⟩,
      ⟨"check", 0, none, false, false, false⟩] := by
    decide +kernel
  have hmem : ⟨fetch, "fetch"⟩ ∈ mock.methods := List.mem_cons_self
  have hspreads : ∀ callback ∈ callbacks ⟨fetch, "fetch"⟩, ∀ stub ∈ callback.stub?, ∀ value,
      recording.cell? stub.name = some (.holds value) → Frame.Spreads callback value := by
    rw [hcallbacks]
    intro callback hcallback stub hstub value hvalue harity
    rcases List.mem_pair.mp hcallback with rfl | rfl
    · obtain rfl := Option.some.inj hstub
      obtain rfl := Cell.holds.inj (Option.some.inj hvalue)
      exact .inr ⟨_, rfl, rfl⟩
    · cases hstub
  have hclosures : ∀ entry ∈ fetch.parameters.zip [.closure "f", .closure "g"],
      entry.1.isClosure = true → Callable entry.1 entry.2 := by
    intro entry hentry _
    rcases List.mem_pair.mp hentry with rfl | rfl
    · exact .inl ⟨"f", rfl⟩
    · exact .inl ⟨"g", rfl⟩
  obtain ⟨performance, hrun, -, -, hiff⟩ :=
    runBody_eq_invoke_iff hmock hmem (by decide +kernel) (by decide +kernel) hspreads rfl
      hclosures react
  rw [hrun, hiff.mpr]
  intro callback hfails
  have hnames : flag ⟨fetch, "fetch"⟩ = "invokedFetch" ∧
      record ⟨fetch, "fetch"⟩ = "invokedFetchParameters" := by
    decide +kernel
  have hfirst : (noted ⟨fetch, "fetch"⟩ recording [.closure "f", .closure "g"]).eventOf
      ⟨"done", 2, some ⟨"stubbedFetchDoneResult", "(Int, String)?"⟩, false, true, false⟩
      (.closure "f") = .ok (some ⟨"f", [.number 1, .text "one"]⟩) := by
    rw [noted, hnames.1, hnames.2]
    rfl
  have hpassed : passedClosures ⟨fetch, "fetch"⟩ [.closure "f", .closure "g"] = [
      (⟨"done", 2, some ⟨"stubbedFetchDoneResult", "(Int, String)?"⟩, false, true, false⟩,
        .closure "f"),
      (⟨"check", 0, none, false, false, false⟩, .closure "g")] := by
    rw [passedClosures, hcallbacks]
    rfl
  rw [hpassed, Recording.failsAt_cons_of_returns hfirst rfl,
    Recording.failsAt_cons_of_raises rfl rfl] at hfails
  rw [hfails]

/-- A body returns what was stubbed when a closure has failed that is declared to throw. The
recorded call fails. -/
theorem not_forall_runBody_eq_invoke : ¬∀ (style : Style) (known : Catalogue) (protocol : Protocol)
    (mock : Mock), ofProtocol style known protocol = .ok mock → ∀ double ∈ mock.methods,
    (∀ parameter ∈ double.method.parameters,
      parameter.name ≠ Callback.binding ∧ parameter.name ∉ double.fields) →
    ∀ recording : Recording, recording.cells.map Prod.fst = mock.fields →
    (∀ callback ∈ double.callbacks, ∀ stub ∈ callback.stub?, ∀ value,
      recording.cell? stub.name = some (.holds value) → Frame.Spreads callback value) →
    ∀ arguments : List Value, arguments.length = double.method.parameters.length →
    (∀ entry ∈ double.method.parameters.zip arguments,
      entry.1.isClosure = true → Callable entry.1 entry.2) →
    ∀ react : Recording.Reaction, double.runBody recording arguments react =
      some (recording.invoke mock double.name arguments [] react) := by
  intro h
  let stubbed (mock : Mock) : Recording :=
    (Recording.initial mock).set "stubbedRunResult" (.number 42)
  have hfound : ((Protocol.ofText "protocol P \x7b\nfunc run(_ a: () throws -> Void) -> Int\n\x7d"
      ).toOption.bind ofAlone?).any (fun mock ↦ mock.methods.any fun double ↦
        decide (∀ parameter ∈ double.method.parameters,
          parameter.name ≠ Callback.binding ∧ parameter.name ∉ double.fields) &&
        decide ((stubbed mock).cells.map Prod.fst = mock.fields) &&
        double.callbacks.all (·.stub?.isNone) &&
        decide (1 = double.method.parameters.length) &&
        (double.runBody (stubbed mock) [.closure "f"] fun _ ↦ some "refused").any (·.result.isOk) &&
        !((stubbed mock).invoke mock double.name [.closure "f"] [] fun _ ↦ some "refused"
          ).result.isOk) = true := by
    decide +kernel
  obtain ⟨protocol, mock, -, hmock, hdouble⟩ := exists_of_any_ofAlone? hfound
  obtain ⟨double, hmem, hdouble⟩ := List.any_eq_true.mp hdouble
  simp only [Bool.and_eq_true, decide_eq_true_eq] at hdouble
  obtain ⟨⟨⟨⟨⟨hnames, hcells⟩, hnone⟩, hlength⟩, hrun⟩, hinvoke⟩ := hdouble
  have hspreads : ∀ callback ∈ double.callbacks, ∀ stub ∈ callback.stub?, ∀ value,
      (stubbed mock).cell? stub.name = some (.holds value) → Frame.Spreads callback value := by
    intro callback hcallback stub hstub
    have hnone := Option.isNone_iff_eq_none.mp (List.all_eq_true.mp hnone callback hcallback)
    cases hnone.symm.trans hstub
  have hclosures : ∀ entry ∈ double.method.parameters.zip [.closure "f"],
      entry.1.isClosure = true → Callable entry.1 entry.2 := by
    rintro ⟨parameter, value⟩ hentry -
    exact .inl ⟨"f", List.mem_singleton.mp (List.of_mem_zip hentry).2⟩
  rw [h _ _ _ _ hmock double hmem hnames _ hcells hspreads [.closure "f"] hlength hclosures,
    Option.any_some] at hrun
  rw [hrun] at hinvoke
  cases hinvoke

end Mock

end TestDouble
