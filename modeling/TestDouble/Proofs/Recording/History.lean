import Mathlib.Data.List.Induction
import TestDouble.Proofs.Recording.Contents

/-!
# A recording tells its history

After any history of operations, with closures that return or fail as they like, every field of a
derived test double holds what the latest operation that concerns it has put there. An operation
that is refused because it names something that is not there, or because its arguments do not fit,
leaves all fields as they are; a call whose arguments fit is recorded even if it fails later on.

One step writes into few fields, each found by its purpose; that a field is not written into under
any other purpose follows from the uniqueness of members. The induction is on the history from its
end, since the latest operation decides.
-/

namespace TestDouble

/-- The operation asked for something that is not there, or gave arguments that do not fit. -/
def Refusal.isMisuse : Refusal → Bool
  | noField _ | noMethod _ | noProperty _ | noClosure _ | noMember _ | noResult _ | noArguments _ _
  | readOnly _ | tooMany _ _ _ | missing _ _ | unexpected _ _ | reservedKeyword _ => true
  | unset _ | notCallable _ | notSpreadable _ _ | raised _ => false

namespace Recording

/-! ## Histories -/

/-- An operation, and how the closures take the calls that it makes. -/
structure Deed where
  operation : Operation
  react : Reaction := .returning

/-- The latest of the values that operations give. -/
def latest {α : Type} (given : Operation → Option α) (history : List Deed) : Option α :=
  (history.filterMap (given ·.operation)).getLast?

private theorem latest_append_singleton {α : Type} (given : Operation → Option α)
    (history : List Deed) (deed : Deed) :
    latest given (history ++ [deed]) = (given deed.operation).or (latest given history) := by
  rw [latest, latest, List.filterMap_append, List.getLast?_append]
  rcases hgiven : given deed.operation with _ | value <;> simp [hgiven]

/-- The test double after a history that begins when nothing has happened. -/
def after (mock : Mock) (history : List Deed) : Recording :=
  history.foldl
    (fun recording deed ↦ (recording.perform mock deed.operation deed.react).recording)
    (initial mock)

private theorem after_append_singleton (mock : Mock) (history : List Deed) (deed : Deed) :
    after mock (history ++ [deed]) =
      ((after mock history).perform mock deed.operation deed.react).recording := by
  rw [after, List.foldl_append]
  rfl

private theorem latest_map {α β : Type} (given : Operation → Option α) (f : α → β)
    (history : List Deed) :
    latest (fun operation ↦ (given operation).map f) history = (latest given history).map f := by
  simp [latest, ← List.map_filterMap]

private theorem isSome_latest {α : Type} (given : Operation → Option α) (history : List Deed) :
    (latest given history).isSome = history.any fun deed ↦ (given deed.operation).isSome := by
  rw [latest, Bool.eq_iff_iff, List.getLast?_isSome, List.any_eq_true]
  simp only [ne_eq, List.filterMap_eq_nil_iff, not_forall, Option.isSome_iff_ne_none, exists_prop]

/-! ## What an operation gives -/

/-- The arguments of a call of the method, in the order of its parameters, if they fit. -/
def bound? (double : MethodDouble) : Operation → Option (List Value)
  | .invoke method positional keywords =>
    if method = double.name ∧ ∀ keyword ∈ keywords, keyword.1 ∉ reservedKeywords then
      (bind double.method positional keywords).toOption
    else none
  | _ => none

/-- The value stubbed for the result of the method. -/
def givenResult? (double : MethodDouble) : Operation → Option Value
  | .stub method value => if method = double.name then some value else none
  | _ => none

/-- The arguments stubbed for a closure that is passed to the method. -/
def givenArguments? (double : MethodDouble) (callback : Callback) : Operation → Option Value
  | .stubClosure method parameter value =>
    if method = double.name ∧ parameter = callback.parameter then some value else none
  | _ => none

/-- The value stubbed for the property. -/
def givenValue? (property : Property) : Operation → Option Value
  | .stubProperty name value => if name = property.name then some value else none
  | _ => none

/-- The value written to the property. -/
def writtenValue? (property : Property) : Operation → Option Value
  | .setProperty name value => if name = property.name then some value else none
  | _ => none

/-! ## What a recording tells -/

/-- The fields of a recording are those of the test double, and they say what the history was. -/
structure Tells (mock : Mock) (history : List Deed) (recording : Recording) : Prop where
  fields : recording.cells.map Prod.fst = mock.fields
  flag : ∀ double ∈ mock.methods, recording.cell? double.flag =
    some (.holds (.bool (history.any fun deed ↦ (bound? double deed.operation).isSome)))
  record : ∀ double ∈ mock.methods, recording.cell? double.record =
    some (.holds (((latest (bound? double) history).map fun arguments ↦
      .tuple (kept double.slots arguments)).getD .null))
  result : ∀ double ∈ mock.methods, ∀ stub ∈ double.resultStub?, recording.cell? stub.name =
    some (((latest (givenResult? double) history).map .holds).getD .unset)
  callback : ∀ double ∈ mock.methods, ∀ callback ∈ double.callbacks, ∀ stub ∈ callback.stub?,
    recording.cell? stub.name =
      some (.holds ((latest (givenArguments? double callback) history).getD .null))
  held : ∀ property ∈ mock.properties, recording.cell? property.stubField =
    some (((latest (givenValue? property) history).map .holds).getD .unset)
  written : ∀ property ∈ mock.properties, ∀ field ∈ property.writeField?,
    recording.cell? field =
      some (.holds ((latest (writtenValue? property) history).getD .null))

/-! ## One operation -/

/-- What an operation writes, and for which purposes. -/
def writes (mock : Mock) : Operation → List (Purpose × Value)
  | .invoke method positional keywords =>
    match target mock method positional keywords with
    | .ok (double, arguments) =>
      [(.record double.name, .tuple (kept double.slots arguments)),
        (.flag double.name, .bool true)]
    | .error _ => []
  | .stub method value => [(.result method, value)]
  | .stubClosure method parameter value => [(.callback method parameter, value)]
  | .stubProperty name value => [(.held name, value)]
  | .setProperty name value => [(.written name, value)]
  | .invoked _ | .parameters _ | .getProperty _ | .read _ | .member _ => []

/-- The contents after values were written over them. -/
def overwrite (contents : Contents) (written : List (Purpose × Value)) : Contents :=
  fun p ↦ ((written.lookup p).map Cell.holds).getD (contents p)

theorem overwrite_cons (contents : Contents) (p : Purpose) (value : Value)
    (written : List (Purpose × Value)) :
    overwrite contents ((p, value) :: written) =
      Function.update (overwrite contents written) p (.holds value) := by
  funext p'
  rw [overwrite, lookup_cons_eq_ite, Function.update_apply, overwrite]
  by_cases hp : p' = p <;> simp [hp]

@[simp] theorem overwrite_singleton (contents : Contents) (p : Purpose) (value : Value) :
    overwrite contents [(p, value)] = Function.update contents p (.holds value) :=
  overwrite_cons contents p value []

variable {mock : Mock}

section

variable (h : mock.fields.Nodup)

include h

theorem target_eq_ok_iff {method : String} {positional : List Value}
    {keywords : List (String × Value)} {double : MethodDouble} {arguments : List Value} :
    target mock method positional keywords = .ok (double, arguments) ↔
      double ∈ mock.methods ∧
        bound? double (.invoke method positional keywords) = some arguments := by
  rw [target]
  split
  · next keyword hkeyword =>
    have htaken : ¬∀ entry ∈ keywords, entry.1 ∉ reservedKeywords := by
      intro hfree
      rw [List.find?_eq_none.mpr (by simpa using hfree)] at hkeyword
      cases hkeyword
    rw [bound?, if_neg fun hboth ↦ htaken hboth.2]
    constructor
    · intro hthrow
      cases hthrow
    · rintro ⟨-, hnone⟩
      cases hnone
  · next hkeyword =>
    have hfree : ∀ entry ∈ keywords, entry.1 ∉ reservedKeywords := by
      simpa using Option.eq_none_iff_forall_ne_some.mpr hkeyword
    simp only [Except.bind_eq_ok_iff, findMethod_eq_ok_iff h, bound?]
    constructor
    · rintro ⟨double', ⟨hmem, rfl⟩, arguments', hbind, hpair⟩
      obtain ⟨rfl, rfl⟩ := Prod.mk.inj (Except.ok.inj hpair)
      rw [if_pos ⟨rfl, hfree⟩]
      exact ⟨hmem, Except.toOption_eq_some_iff.mpr hbind⟩
    · rintro ⟨hmem, hbound⟩
      obtain ⟨⟨rfl, -⟩, hbind⟩ := Option.ite_none_right_eq_some.mp hbound
      exact ⟨double, ⟨hmem, rfl⟩, arguments, Except.toOption_eq_some_iff.mp hbind, rfl⟩

/-- An operation changes the contents of the fields it writes, and no others. -/
theorem perform_ofContents (contents : Contents) (operation : Operation) (react : Reaction) :
    ((ofContents mock contents).perform mock operation react).recording =
      ofContents mock (overwrite contents (writes mock operation)) := by
  have hassign {found : Except Refusal String} {p : Purpose} (hfinds : Finds mock found p)
      (value : Value) : ((ofContents mock contents).assign found value).recording =
        ofContents mock (overwrite contents [(p, value)]) := by
    rw [overwrite_singleton]
    exact assign_ofContents h hfinds contents value
  cases operation with
  | invoke method positional keywords =>
    rw [perform, invoke, writes]
    rcases htarget : target mock method positional keywords with refusal | ⟨double, arguments⟩
    · rfl
    · obtain ⟨hmem, -⟩ := (target_eq_ok_iff h).mp htarget
      have hflag := Mock.flag_mem_purposes.mpr ⟨double, hmem, rfl⟩
      have hrecord := Mock.record_mem_purposes.mpr ⟨double, hmem, rfl⟩
      dsimp only [call]
      rw [overwrite_cons, overwrite_cons, ← set_ofContents h _ hrecord, ← set_ofContents h _ hflag]
      rfl
  | stub method value => exact hassign (finds_resultField h method) value
  | stubClosure method parameter value =>
    exact hassign (finds_closureField h method parameter) value
  | stubProperty name value => exact hassign (finds_stubField h name) value
  | setProperty name value => exact hassign (finds_writeField h name) value
  | invoked | parameters | getProperty | read | member => rfl

/-! ## Writes by purpose -/

section

variable {double : MethodDouble} (hmem : double ∈ mock.methods)

include hmem

/-- A call whose arguments fit is a call of one method. -/
theorem bound?_invoke (method : String) (positional : List Value)
    (keywords : List (String × Value)) :
    bound? double (.invoke method positional keywords) =
      match target mock method positional keywords with
      | .ok (other, arguments) => if other.name = double.name then some arguments else none
      | .error _ => none := by
  refine Option.ext fun arguments ↦ ?_
  have hiff : bound? double (.invoke method positional keywords) = some arguments ↔
      target mock method positional keywords = .ok (double, arguments) := by
    rw [target_eq_ok_iff h, and_iff_right hmem]
  rw [hiff]
  rcases htarget : target mock method positional keywords with refusal | ⟨other, arguments'⟩
  · simp
  · obtain ⟨hother, -⟩ := (target_eq_ok_iff h).mp htarget
    have hname : other.name = double.name ↔ other = double :=
      ⟨List.inj_on_of_nodup_map (Mock.nodup_map_name_methods h) hother hmem, congrArg _⟩
    simp [hname]

private theorem lookup_flag_writes (operation : Operation) :
    (writes mock operation).lookup (.flag double.name) =
      (bound? double operation).map fun _ ↦ .bool true := by
  cases operation with
  | invoke method positional keywords =>
    rw [bound?_invoke h hmem, writes]
    rcases target mock method positional keywords with refusal | ⟨other, arguments⟩
    · rfl
    · by_cases hname : other.name = double.name
      · simp [hname]
      · simp [hname, Ne.symm hname]
  | _ => simp [writes, bound?]

private theorem lookup_record_writes (operation : Operation) :
    (writes mock operation).lookup (.record double.name) =
      (bound? double operation).map fun arguments ↦ .tuple (kept double.slots arguments) := by
  cases operation with
  | invoke method positional keywords =>
    rw [bound?_invoke h hmem, writes]
    rcases htarget : target mock method positional keywords with refusal | ⟨other, arguments⟩
    · rfl
    · obtain ⟨hother, -⟩ := (target_eq_ok_iff h).mp htarget
      by_cases hname : other.name = double.name
      · obtain rfl := List.inj_on_of_nodup_map (Mock.nodup_map_name_methods h) hother hmem hname
        simp
      · simp [hname, Ne.symm hname]
  | _ => simp [writes, bound?]

end

end

private theorem lookup_result_writes (double : MethodDouble) (operation : Operation) :
    (writes mock operation).lookup (.result double.name) = givenResult? double operation := by
  cases operation with
  | invoke =>
    rw [writes]
    split <;> simp [givenResult?]
  | _ => simp [writes, givenResult?, eq_comm (a := double.name)]

private theorem lookup_callback_writes (double : MethodDouble) (callback : Callback)
    (operation : Operation) :
    (writes mock operation).lookup (.callback double.name callback.parameter) =
      givenArguments? double callback operation := by
  cases operation with
  | invoke =>
    rw [writes]
    split <;> simp [givenArguments?]
  | _ =>
    simp [writes, givenArguments?, eq_comm (a := double.name), eq_comm (a := callback.parameter)]

private theorem lookup_held_writes (property : Property) (operation : Operation) :
    (writes mock operation).lookup (.held property.name) = givenValue? property operation := by
  cases operation with
  | invoke =>
    rw [writes]
    split <;> simp [givenValue?]
  | _ => simp [writes, givenValue?, eq_comm (a := property.name)]

private theorem lookup_written_writes (property : Property) (operation : Operation) :
    (writes mock operation).lookup (.written property.name) = writtenValue? property operation := by
  cases operation with
  | invoke =>
    rw [writes]
    split <;> simp [writtenValue?]
  | _ => simp [writes, writtenValue?, eq_comm (a := property.name)]

/-! ## Refused operations -/

variable {recording : Recording} {react : Reaction} {refusal : Refusal}

private theorem isMisuse_of_apply {callee : Value} {arguments : List Value}
    (hrefused : apply callee arguments = .error refusal) : refusal.isMisuse = false := by
  cases callee <;> cases hrefused <;> rfl

private theorem isMisuse_of_eventOf {callback : Callback} {closure : Value}
    (hrefused : eventOf recording callback closure = .error refusal) :
    refusal.isMisuse = false := by
  have happly {arguments : List Value} (h : some <$> apply closure arguments = .error refusal) :
      refusal.isMisuse = false :=
    isMisuse_of_apply (Except.map_eq_error_iff.mp h)
  rw [eventOf] at hrefused
  split at hrefused
  · cases hrefused
  · split at hrefused
    · exact happly hrefused
    · split at hrefused
      · split at hrefused
        · cases hrefused
        · split at hrefused
          · exact happly hrefused
          · split at hrefused
            · exact happly hrefused
            · cases hrefused
              rfl
      · cases hrefused

/-- No call of a closure is refused for a misuse. -/
theorem isMisuse_of_eventsOf {earlier : List Event} {calls : List (Callback × Value)}
    (hrefused : (eventsOf recording react earlier calls).2 = some refusal) :
    refusal.isMisuse = false := by
  induction calls generalizing earlier with
  | nil => cases hrefused
  | cons call calls ih =>
    rw [eventsOf] at hrefused
    split at hrefused
    · next refusal' hevent =>
      obtain rfl := Option.some.inj hrefused
      exact isMisuse_of_eventOf hevent
    · exact ih hrefused
    · split at hrefused
      · obtain rfl := Option.some.inj hrefused
        rfl
      · exact ih hrefused

private theorem isMisuse_of_read {field : String} (hfield : recording.cell? field ≠ none)
    (hrefused : recording.read field = .error refusal) : refusal.isMisuse = false := by
  rw [read] at hrefused
  split at hrefused
  · contradiction
  · cases hrefused
    rfl
  · cases hrefused

/-- A call whose arguments fit is not refused for a misuse. -/
theorem isMisuse_of_call {double : MethodDouble} {arguments : List Value}
    (hstub : ∀ stub ∈ double.resultStub?, recording.cell? stub.name ≠ none)
    (hrefused : (recording.call double arguments react).result = .error refusal) :
    refusal.isMisuse = false := by
  rw [call] at hrefused
  dsimp only at hrefused
  split at hrefused
  · next refusal' _ hevents =>
    obtain rfl := Except.error.inj hrefused
    exact isMisuse_of_eventsOf hevents
  · next stub _ hresult =>
    refine isMisuse_of_read ?_ hrefused
    rw [cell?_set_ne_none, cell?_set_ne_none]
    exact hstub stub hresult
  · cases hrefused

private theorem recording_of_assign {found : Except Refusal String} {value : Value}
    (hrefused : (recording.assign found value).result = .error refusal) :
    (recording.assign found value).recording = recording := by
  cases found with
  | error => rfl
  | ok field => cases hrefused

section

variable (h : mock.fields.Nodup)

include h

/-- An operation that is refused for a misuse changes no field. -/
theorem recording_of_isMisuse {operation : Operation} (hmisuse : refusal.isMisuse = true)
    (hstubs : ∀ double ∈ mock.methods, ∀ stub ∈ double.resultStub?,
      recording.cell? stub.name ≠ none)
    (hrefused : (recording.perform mock operation react).result = .error refusal) :
    (recording.perform mock operation react).recording = recording := by
  cases operation with
  | invoke method positional keywords =>
    rw [perform, invoke] at hrefused ⊢
    rcases htarget : target mock method positional keywords with refusal' | ⟨double, arguments⟩
    · rfl
    · rw [htarget] at hrefused
      obtain ⟨hmem, -⟩ := (target_eq_ok_iff h).mp htarget
      rw [isMisuse_of_call (hstubs double hmem) hrefused] at hmisuse
      cases hmisuse
  | stub | stubClosure | stubProperty | setProperty => exact recording_of_assign hrefused
  | invoked | parameters | getProperty | read | member => rfl

/-! ## Histories -/

/-- What the fields hold after a history, by purpose. -/
def contentsAfter (mock : Mock) (history : List Deed) : Contents :=
  fun p ↦ ((latest (fun operation ↦ (writes mock operation).lookup p) history).map
    Cell.holds).getD p.initial

theorem after_eq_ofContents (history : List Deed) :
    after mock history = ofContents mock (contentsAfter mock history) := by
  induction history using List.reverseRecOn with
  | nil => exact initial_eq mock
  | append_singleton history deed ih =>
    have hstep : contentsAfter mock (history ++ [deed]) =
        overwrite (contentsAfter mock history) (writes mock deed.operation) := by
      funext p
      rw [overwrite, contentsAfter, contentsAfter, latest_append_singleton]
      rcases (writes mock deed.operation).lookup p with _ | value <;> rfl
    rw [after_append_singleton, ih, perform_ofContents h, hstep]

private theorem cell?_after (history : List Deed) {p : Purpose} (hp : p ∈ mock.purposes) :
    (after mock history).cell? p.field = some (contentsAfter mock history p) := by
  rw [after_eq_ofContents h, cell?_ofContents h _ hp]

theorem tells_after (history : List Deed) : Tells mock history (after mock history) := by
  have hcell {p : Purpose} (hp : p ∈ mock.purposes) := cell?_after h history hp
  -- Each field serves one purpose, and holds what the last deed for that purpose left there.
  constructor
  case fields => rw [after_eq_ofContents h, map_fst_cells_ofContents]
  case flag =>
    intro double hmem
    refine (hcell (Mock.flag_mem_purposes.mpr ⟨double, hmem, rfl⟩)).trans ?_
    rw [contentsAfter, funext (lookup_flag_writes h hmem), latest_map, ← isSome_latest]
    rcases latest (bound? double) history with _ | arguments <;> rfl
  case record =>
    intro double hmem
    refine (hcell (Mock.record_mem_purposes.mpr ⟨double, hmem, rfl⟩)).trans ?_
    rw [contentsAfter, funext (lookup_record_writes h hmem), latest_map]
    rcases latest (bound? double) history with _ | arguments <;> rfl
  case result =>
    intro double hmem stub hstub
    rw [double.stub_name_of_resultStub? hstub]
    refine (hcell (Mock.result_mem_purposes.mpr ⟨double, hmem, ⟨stub, hstub⟩, rfl⟩)).trans ?_
    rw [contentsAfter, funext (lookup_result_writes double)]
    rfl
  case callback =>
    intro double hmem callback hcallback stub hstub
    rw [double.stub_name_of_mem_callbacks hcallback hstub]
    refine (hcell (Mock.callback_mem_purposes.mpr
      ⟨double, hmem, callback, hcallback, ⟨stub, hstub⟩, rfl, rfl⟩)).trans ?_
    rw [contentsAfter, funext (lookup_callback_writes double callback)]
    rcases latest (givenArguments? double callback) history with _ | arguments <;> rfl
  case held =>
    intro property hmem
    refine (hcell (Mock.held_mem_purposes.mpr ⟨property, hmem, rfl⟩)).trans ?_
    rw [contentsAfter, funext (lookup_held_writes property)]
    rfl
  case written =>
    intro property hmem field hfield
    obtain ⟨hsetter, hname⟩ := Option.ite_none_right_eq_some.mp hfield
    obtain rfl := Option.some.inj hname
    refine (hcell (Mock.written_mem_purposes.mpr ⟨property, hmem, hsetter, rfl⟩)).trans ?_
    rw [contentsAfter, funext (lookup_written_writes property)]
    rcases latest (writtenValue? property) history with _ | value <;> rfl

end

/-- After every history, the fields of a derived test double are the declared ones and hold exactly
what the history has put there, and whatever is refused next for a misuse leaves them alone. -/
theorem ofProtocol_tells {style : Style} {known : Catalogue} {protocol : Protocol}
    (h : Mock.ofProtocol style known protocol = .ok mock) (history : List Deed) :
    Tells mock history (after mock history) ∧
      ∀ (operation : Operation) (react : Reaction) (refusal : Refusal),
        ((after mock history).perform mock operation react).result = .error refusal →
        refusal.isMisuse = true →
        ((after mock history).perform mock operation react).recording = after mock history := by
  have hnodup := Mock.fields_nodup h
  have htells := tells_after hnodup history
  refine ⟨htells, fun operation react refusal hrefused hmisuse ↦ ?_⟩
  refine recording_of_isMisuse hnodup hmisuse (fun double hmem stub hstub ↦ ?_) hrefused
  rw [htells.result double hmem stub hstub]
  exact Option.some_ne_none _

/-- Two overloads, of which one is called with a closure that fails. -/
theorem ofProtocol_tells_overloads :
    let save (label : String) (type : SwiftType) : Method := {
      name := "save"
      parameters := [{ name := "x", label? := some label, type := type }]
      labels_nodup := (List.nodup_singleton label).filter _
      names_nodup := List.nodup_singleton "x"
      result_not_void := by simp }
    let closure : SwiftType :=
      { base := "(Int) -> Void", signature? := some { arguments := [{ base := "Int" }] } }
    let protocol : Protocol :=
      { name := "Store", methods := [save "a" { base := "Int" }, save "b" closure] }
    let history : List Deed :=
      [⟨.stubClosure "saveB" "x" (.number 1), .returning⟩,
        ⟨.invoke "saveB" [.closure "f"] [], fun _ ↦ some "failed"⟩]
    ∃ mock, Mock.ofProtocol .standard .empty protocol = .ok mock ∧
      Tells mock history (after mock history) := by
  intro save closure protocol history
  have hancestry : protocol.ancestry .empty = { visited := ["Store"] } := by
    rw [Protocol.ancestry, Ancestry.follow]
  have hok : (Mock.ofProtocol .standard .empty protocol).isOk = true := by
    rw [Mock.ofProtocol, Protocol.withInherited, hancestry]
    decide +kernel
  obtain ⟨mock, hmock⟩ := Except.isOk_iff_exists.mp hok
  exact ⟨mock, hmock, (ofProtocol_tells hmock history).1⟩

end Recording

end TestDouble
