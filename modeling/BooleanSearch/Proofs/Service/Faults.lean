import BooleanSearch.Proofs.Service.Strictness

/-!
# Faults of the service

The service fails only for its request: the field, the query, or what a strict service finds in the
program of the query is to blame.
-/

namespace BooleanSearch.Service

variable {service : Service} {query : Text} {field? : Option Text} {fault : ServiceError}

theorem program_eq_error (h : service.program query = .error fault) :
    ∃ cause, Program.ofQuery query = .error cause ∧ fault = .query cause := by
  obtain ⟨cause, hcause, rfl⟩ := exists_of_mapError_eq_error h
  exact ⟨cause, hcause, rfl⟩

theorem isBadInput_of_program (h : service.program query = .error fault) :
    fault.isBadInput = true := by
  obtain ⟨cause, -, rfl⟩ := program_eq_error h
  rfl

/-- The service refuses a field that is no field name, a query that is malformed, and orphans. -/
theorem compile_eq_error (h : service.compile query field? = .error fault) :
    (isField (field?.getD service.config.field) = false ∧
      fault = .field (field?.getD service.config.field)) ∨
    (∃ cause, fault = .query cause) ∨ ∃ count, fault = .orphans count := by
  cases hfield : isField (field?.getD service.config.field) with
  | false =>
    rw [compile_of_not_isField hfield] at h
    cases h
    exact .inl ⟨rfl, rfl⟩
  | true =>
    right
    cases hquery : Program.ofQuery query with
    | error cause =>
      rw [compile_of_ofQuery_eq_error hfield hquery] at h
      cases h
      exact .inl ⟨cause, rfl⟩
    | ok program =>
      cases hstrict : service.config.strict with
      | false =>
        rw [compile_of_not_strict hstrict hfield] at h
        obtain ⟨cause, -, rfl⟩ := exists_of_mapError_eq_error h
        exact .inl ⟨cause, rfl⟩
      | true =>
        rw [compile_of_strict hstrict hfield hquery] at h
        cases horphans : program.orphans with
        | error cause =>
          simp only [horphans] at h
          cases h
          exact .inl ⟨cause, rfl⟩
        | ok orphans =>
          simp only [horphans] at h
          split at h
          · cases h
            exact .inr ⟨orphans, rfl⟩
          · obtain ⟨cause, -, rfl⟩ := exists_of_mapError_eq_error h
            exact .inl ⟨cause, rfl⟩

theorem isBadInput_of_compile (h : service.compile query field? = .error fault) :
    fault.isBadInput = true := by
  obtain ⟨-, rfl⟩ | ⟨cause, rfl⟩ | ⟨count, rfl⟩ := compile_eq_error h
  · rfl
  · rfl
  · rfl

/-- No service fails for a field that is a field name. -/
theorem compile_ne_field (h : isField (field?.getD service.config.field) = true) (name : Text) :
    service.compile query field? ≠ .error (.field name) := by
  intro hcompile
  obtain ⟨hfield, -⟩ | ⟨cause, hfault⟩ | ⟨count, hfault⟩ := compile_eq_error hcompile
  · rw [h] at hfield
    cases hfield
  · cases hfault
  · cases hfault

end BooleanSearch.Service
