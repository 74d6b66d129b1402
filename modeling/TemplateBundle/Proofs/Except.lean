/-!
# Results of computations that may fail

When a sequence of steps succeeds, for steps whose result is a value or a fault. With these lemmas
a successful computation is taken apart into its steps by `obtain`.
-/

namespace TemplateBundle

variable {ε ε' α β : Type}

/-- A sequence succeeds if both of its steps do. -/
theorem except_bind_ok_iff {first : Except ε α} {next : α → Except ε β} {result : β} :
    (first >>= next) = .ok result ↔ ∃ value, first = .ok value ∧ next value = .ok result := by
  cases first <;> simp [bind, Except.bind]

theorem except_ok_bind (value : α) (next : α → Except ε β) :
    (Except.ok value >>= next) = next value := rfl

@[simp] theorem except_pure_ok_iff {value result : α} :
    (pure value : Except ε α) = .ok result ↔ value = result := by
  simp [pure, Except.pure]

@[simp] theorem except_throw_ne_ok {fault : ε} {result : α} :
    (throw fault : Except ε α) ≠ .ok result := by
  simp [throw, throwThe, MonadExceptOf.throw]

/-- Faults are compared without the values that there might have been. -/
theorem except_error_iff {found fault : ε} :
    (Except.error found : Except ε α) = .error fault ↔
      (Except.error found : Except ε β) = .error fault := by
  rw [Except.error.injEq, Except.error.injEq]

/-- Values are compared by whether there is one. -/
theorem except_ok_iff_to_option {action : Except ε α} {result : α} :
    action = .ok result ↔ action.toOption = some result := by
  cases action <;> simp [Except.toOption]

/-- What is made of a value is there if the value is. -/
theorem except_map_ok_iff {convert : α → β} {action : Except ε α} {result : β} :
    action.map convert = .ok result ↔ ∃ value, action = .ok value ∧ convert value = result := by
  cases action <;> simp [Except.map]

@[simp] theorem except_map_error_ok (convert : ε → ε') (result : α) :
    (Except.ok result).mapError convert = .ok result := rfl

@[simp] theorem except_map_error_error (convert : ε → ε') (fault : ε) :
    (Except.error fault : Except ε α).mapError convert = .error (convert fault) := rfl

/-- Telling the fault in other words keeps values. -/
@[simp] theorem except_map_error_ok_iff {convert : ε → ε'} {action : Except ε α} {result : α} :
    action.mapError convert = .ok result ↔ action = .ok result := by
  cases action <;> simp

/-- A step that cannot fail adds no fault. -/
theorem except_bind_value_error_iff {action : Except ε α} {next : α → β} {fault : ε} :
    (action >>= fun value => .ok (next value)) = .error fault ↔ action = .error fault := by
  cases action <;> simp [bind, Except.bind]

theorem except_bind_value_ok_iff {action : Except ε α} {next : α → β} :
    (∃ result, (action >>= fun value => .ok (next value)) = .ok result) ↔
      ∃ value, action = .ok value := by
  cases action <;> simp [bind, Except.bind]

/-- Values of a list are computed in order: the fault is that of the first one that has none. -/
theorem except_map_m_error_iff {step : α → Except ε β} {values : List α} {fault : ε} :
    values.mapM step = .error fault ↔ ∃ before value after, values = before ++ value :: after ∧
      (∀ earlier ∈ before, ∃ result, step earlier = .ok result) ∧ step value = .error fault := by
  induction values with
  | nil => simp [pure, Except.pure]
  | cons value values ih =>
      rw [List.mapM_cons]
      cases hstep : step value with
      | error found =>
          constructor
          · rintro ⟨⟩
            exact ⟨[], value, values, rfl, nofun, hstep⟩
          · rintro ⟨_ | ⟨first, before⟩, failing, after, hvalues, hbefore, hfault⟩
            · obtain ⟨rfl, -⟩ := List.cons.inj hvalues
              obtain rfl := Except.error.inj (hstep.symm.trans hfault)
              rfl
            · obtain ⟨rfl, -⟩ := List.cons.inj hvalues
              obtain ⟨result, hresult⟩ := hbefore value List.mem_cons_self
              exact absurd (hstep.symm.trans hresult) nofun
      | ok result =>
          refine except_bind_value_error_iff.trans (ih.trans ⟨?_, ?_⟩)
          · rintro ⟨before, failing, after, rfl, hbefore, hfault⟩
            exact ⟨value :: before, failing, after, rfl,
              List.forall_mem_cons.mpr ⟨⟨result, hstep⟩, hbefore⟩, hfault⟩
          · rintro ⟨_ | ⟨first, before⟩, failing, after, hvalues, hbefore, hfault⟩
            · obtain ⟨rfl, -⟩ := List.cons.inj hvalues
              exact absurd (hstep.symm.trans hfault) nofun
            · obtain ⟨rfl, rfl⟩ := List.cons.inj hvalues
              exact ⟨before, failing, after, rfl, (List.forall_mem_cons.mp hbefore).2, hfault⟩

end TemplateBundle
