import Mathlib.Data.List.Forall2
import TestDouble.Mock.Print
import TestDouble.Proofs.Except
import TestDouble.Protocol.Read

/-!
# Signatures and the methods they declare

A signature is printed from a method and not from the text that the method was read from. What
stands in front of a type is printed in one order, while it may be written in any, and a printed
order that the grammar of types does not know makes a signature that declares nothing.
-/

namespace TestDouble

/-- Parameters that are passed and used in the same way. -/
structure Parameter.Agrees (parameter parameter' : Parameter) : Prop where
  label_eq : parameter.label = parameter'.label
  name_eq : parameter.name = parameter'.name
  type_eq : parameter.type = parameter'.type
  isVariadic_eq : parameter.isVariadic = parameter'.isVariadic

/-- Methods that are called in the same way on their type, be it on instances or not. -/
structure Method.Agrees (method method' : Method) : Prop where
  name_eq : method.name = method'.name
  parameters : List.Forall₂ Parameter.Agrees method.parameters method'.parameters
  result?_eq : method.result? = method'.result?
  effects_eq : method.effects = method'.effects
  genericClause_eq : method.genericClause = method'.genericClause
  whereClause_eq : method.whereClause = method'.whereClause

/-- A protocol that requires nothing but what the signature declares. -/
def Method.restated (method : Method) : String :=
  s!"protocol P \x7b\n{method.signature}\n\x7d"

/-- A signature puts ownership before `inout`, where no type can begin. -/
theorem not_forall_restated_agrees : ¬ ∀ (source : String) (protocol : Protocol),
    Protocol.ofText source = .ok protocol → ∀ method ∈ protocol.methods,
      ∃ protocol' method', Protocol.ofText method.restated = .ok protocol' ∧
        protocol'.methods = [method'] ∧ method.Agrees method' := by
  intro h
  have hsource : (Protocol.ofText
      "protocol P \x7b\nfunc send(_ message: inout sending Message)\n\x7d").toOption.any
        (fun protocol ↦ protocol.methods.map (·.restated) =
          ["protocol P \x7b\nfunc send(_ message: sending inout Message)\n\x7d"]) = true := by
    decide +kernel
  have hrestated : (Protocol.ofText
      "protocol P \x7b\nfunc send(_ message: sending inout Message)\n\x7d").isOk = false := by
    decide +kernel
  obtain ⟨protocol, hprotocol, hmethods⟩ := (Option.any_eq_true _ _).mp hsource
  obtain ⟨method, hmethod, htext⟩ := List.map_eq_singleton_iff.mp (of_decide_eq_true hmethods)
  obtain ⟨protocol', -, hread, -⟩ := h _ protocol (Except.toOption_eq_some_iff.mp hprotocol)
    method (hmethod ▸ List.mem_singleton_self method)
  rw [htext] at hread
  rw [hread] at hrestated
  cases hrestated

end TestDouble
