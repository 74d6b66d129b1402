import TemplateBundle.Log
import TemplateBundle.Proofs.Except

/-!
# Running computations that report

What a computation of `Reporting` gives, one lemma for each operation. What was reported before
does not matter to it (`Unswayed`), so properties of its values are carried through sequences
without the log (`Gives.bind`).
-/

namespace TemplateBundle.Reporting

variable {ε α β : Type}

/-- A sequence runs its second part behind the first one, unless that failed. -/
theorem run_bind (action : Reporting ε α) (next : α → Reporting ε β) (start : Log) :
    (action >>= next).run start =
      match action.run start with
      | (.ok value, middle) => (next value).run middle
      | (.error fault, middle) => (.error fault, middle) := by
  show (match action.run start with
    | (result, middle) => ExceptT.bindCont next result middle) = _
  rcases action.run start with ⟨_ | _, middle⟩ <;> rfl

@[simp] theorem run_pure (value : α) (start : Log) :
    (pure value : Reporting ε α).run start = (.ok value, start) := rfl

@[simp] theorem run_of_except (result : Except ε α) (start : Log) :
    (ofExcept result).run start = (result, start) := by
  cases result <;> rfl

/-- A value that is taken over is handed on. -/
theorem of_except_ok_bind (value : α) (next : α → Reporting ε β) :
    (ofExcept (.ok value) >>= next) = next value := rfl

/-! ## Values -/

/-- Whatever value the computation gives is among these. -/
def Gives (among : α → Prop) (action : Reporting ε α) : Prop :=
  ∀ start value final, action.run start = (.ok value, final) → among value

namespace Gives

variable {among : α → Prop} {others : β → Prop}

theorem pure {value : α} (h : among value) : Gives among (Pure.pure value : Reporting ε α) := by
  rintro start found final ⟨⟩
  exact h

theorem bind {action : Reporting ε α} {next : α → Reporting ε β} (hfirst : Gives among action)
    (hnext : ∀ value, among value → Gives others (next value)) :
    Gives others (action >>= next) := by
  intro start value final h
  rw [run_bind] at h
  rcases hrun : action.run start with ⟨fault | found, middle⟩
  · simp only [hrun] at h
    cases h
  · simp only [hrun] at h
    exact hnext found (hfirst start found middle hrun) middle value final h

theorem of_except {result : Except ε α} (h : ∀ value, result = .ok value → among value) :
    Gives among (ofExcept result) := by
  intro start value final hrun
  rw [run_of_except] at hrun
  exact h value (congrArg Prod.fst hrun)

/-- Of any computation it can be said that it gives some value. -/
theorem any (action : Reporting ε α) : Gives (fun _ => True) action :=
  fun _ _ _ _ => trivial

/-- What every computation of a list gives is what a list of them gives. -/
theorem filter_map {step : α → Reporting ε (Option β)}
    (h : ∀ value, Gives (fun entry => ∀ found, entry = some found → others found) (step value))
    (values : List α) :
    Gives (fun found => ∀ entry ∈ found, others entry) (values.filterMapM step) := by
  induction values with
  | nil => exact .pure fun _ hentry => absurd hentry List.not_mem_nil
  | cons value values ih =>
      rw [List.filterMapM_cons]
      refine (h value).bind fun entry hentry => ?_
      cases entry with
      | none => exact ih
      | some entry =>
          refine ih.bind fun rest hrest => .pure fun other hother => ?_
          rcases List.mem_cons.mp hother with rfl | hother
          · exact hentry other rfl
          · exact hrest other hother

end Gives

/-! ## Independence of the log -/

/-- The computation does not look at what was reported before. -/
def Unswayed (action : Reporting ε α) : Prop :=
  ∀ start other, (action.run start).1 = (action.run other).1

namespace Unswayed

/-- What one run gives is given by every other one. -/
theorem result_eq {action : Reporting ε α} (h : Unswayed action) {start final : Log}
    {result : Except ε α} (hrun : action.run start = (result, final)) (other : Log) :
    (action.run other).1 = result := by
  rw [h other start, hrun]

theorem pure (value : α) : Unswayed (Pure.pure value : Reporting ε α) :=
  fun _ _ => rfl

theorem throw (fault : ε) : Unswayed (MonadExcept.throw fault : Reporting ε α) :=
  fun _ _ => rfl

theorem log (level : LogLevel) (message : String) :
    Unswayed (Reporting.log level message : Reporting ε Unit) :=
  fun _ _ => rfl

theorem of_except (result : Except ε α) : Unswayed (ofExcept result) := by
  intro start other
  rw [run_of_except, run_of_except]

theorem bind {action : Reporting ε α} {next : α → Reporting ε β} (hfirst : Unswayed action)
    (hnext : ∀ value, Unswayed (next value)) : Unswayed (action >>= next) := by
  intro start other
  rw [run_bind, run_bind]
  rcases hrun : action.run start with ⟨result, middle⟩
  rcases hother : action.run other with ⟨otherResult, otherMiddle⟩
  obtain rfl : otherResult = result := by
    rw [← hfirst.result_eq hrun other, hother]
  cases otherResult with
  | error fault => rfl
  | ok value => exact hnext value middle otherMiddle

/-- The induction is on the list. -/
theorem map_m {step : α → Reporting ε β} (h : ∀ value, Unswayed (step value)) (values : List α) :
    Unswayed (values.mapM step) := by
  induction values with
  | nil => exact .pure []
  | cons value values ih =>
      rw [List.mapM_cons]
      exact (h value).bind fun _ => ih.bind fun _ => .pure _

theorem filter_map {step : α → Reporting ε (Option β)} (h : ∀ value, Unswayed (step value))
    (values : List α) : Unswayed (values.filterMapM step) := by
  induction values with
  | nil => exact .pure []
  | cons value values ih =>
      rw [List.filterMapM_cons]
      refine (h value).bind fun entry => ?_
      cases entry with
      | none => exact ih
      | some entry => exact ih.bind fun _ => .pure _

theorem filter_from {keeps : α → Reporting ε Bool} (h : ∀ value, Unswayed (keeps value))
    (values kept : List α) : Unswayed (values.filterAuxM keeps kept) := by
  induction values generalizing kept with
  | nil => exact .pure kept
  | cons value values ih => exact (h value).bind fun _ => ih _

theorem filter {keeps : α → Reporting ε Bool} (h : ∀ value, Unswayed (keeps value))
    (values : List α) : Unswayed (values.filterM keeps) :=
  (filter_from h values []).bind fun _ => .pure _

end Unswayed

/-! ## Results -/

/-- What the computation gives, a value or a fault, without its reports. -/
def result (action : Reporting ε α) : Except ε α :=
  (action.run []).1

theorem Unswayed.run_result {action : Reporting ε α} (h : Unswayed action) (start : Log) :
    (action.run start).1 = action.result :=
  h start []

theorem result_log_bind (level : LogLevel) (message : String) {next : Unit → Reporting ε β}
    (hnext : Unswayed (next ())) : (log level message >>= next).result = (next ()).result :=
  hnext _ []

theorem result_of_except (outcome : Except ε α) : (ofExcept outcome).result = outcome := by
  unfold result
  rw [run_of_except]

/-- The result of a sequence follows from the results of its parts. -/
theorem result_bind (action : Reporting ε α) {next : α → Reporting ε β}
    (hnext : ∀ value, Unswayed (next value)) :
    (action >>= next).result = action.result >>= fun value => (next value).result := by
  unfold result
  rw [run_bind]
  rcases action.run [] with ⟨fault | value, middle⟩
  · rfl
  · exact hnext value middle []

/-- The induction is on the list. -/
theorem result_map_m {step : α → Reporting ε β} (h : ∀ value, Unswayed (step value))
    (values : List α) :
    (values.mapM step).result = values.mapM fun value => (step value).result := by
  induction values with
  | nil => rfl
  | cons value values ih =>
      rw [List.mapM_cons, List.mapM_cons,
        result_bind _ fun _ => (Unswayed.map_m h values).bind fun _ => .pure _]
      refine congrArg _ (funext fun found => ?_)
      rw [result_bind _ fun _ => .pure _, ih]
      rfl

/-- A filter whose test cannot fail keeps what the test says. -/
theorem result_filter {keeps : α → Reporting ε Bool} {kept : α → Bool}
    (h : ∀ value start, ((keeps value).run start).1 = .ok (kept value)) (values : List α) :
    (values.filterM keeps).result = .ok (values.filter kept) := by
  have hunswayed (value : α) : Unswayed (keeps value) :=
    fun start other => (h value start).trans (h value other).symm
  have hfrom (found : List α) :
      (values.filterAuxM keeps found).result = .ok ((values.filter kept).reverse ++ found) := by
    induction values generalizing found with
    | nil => rfl
    | cons value values ih =>
        show (keeps value >>= fun keep =>
          values.filterAuxM keeps (cond keep (value :: found) found)).result = _
        rw [result_bind _ fun _ => Unswayed.filter_from hunswayed values _, result, h]
        show (values.filterAuxM keeps (cond (kept value) (value :: found) found)).result = _
        rw [ih, List.filter_cons]
        cases kept value <;> simp
  show (values.filterAuxM keeps [] >>= fun found => pure found.reverse).result = _
  rw [result_bind _ fun _ => .pure _, hfrom, List.append_nil]
  exact congrArg Except.ok (List.reverse_reverse _)

/-- What steps that cannot fail keep of a list. The induction is on the list. -/
theorem result_filter_map {step : α → Reporting ε (Option β)} {kept : α → Option β}
    (hstep : ∀ value, Unswayed (step value)) (h : ∀ value, (step value).result = .ok (kept value))
    (values : List α) : (values.filterMapM step).result = .ok (values.filterMap kept) := by
  induction values with
  | nil => rfl
  | cons value values ih =>
      have hrest := Unswayed.filter_map hstep values
      rw [List.filterMapM_cons, List.filterMap_cons]
      refine (result_bind _ fun entry => ?_).trans ?_
      · cases entry with
        | none => exact hrest
        | some found => exact hrest.bind fun _ => .pure _
      · rw [h, except_ok_bind]
        cases kept value with
        | none => exact ih
        | some found =>
            show (values.filterMapM step >>= _).result = _
            rw [result_bind _ fun _ => .pure _, ih]
            rfl

/-! ## Computations that cannot fail -/

/-- The computation gives a value, whatever was reported before. -/
def Completes (action : Reporting ε α) : Prop :=
  ∀ start, ∃ value, (action.run start).1 = .ok value

namespace Completes

theorem pure (value : α) : Completes (Pure.pure value : Reporting ε α) :=
  fun _ => ⟨value, rfl⟩

theorem log (level : LogLevel) (message : String) :
    Completes (Reporting.log level message : Reporting ε Unit) :=
  fun _ => ⟨(), rfl⟩

theorem bind {action : Reporting ε α} {next : α → Reporting ε β} (hfirst : Completes action)
    (hnext : ∀ value, Completes (next value)) : Completes (action >>= next) := by
  intro start
  obtain ⟨value, hvalue⟩ := hfirst start
  rw [run_bind]
  rcases hrun : action.run start with ⟨result, middle⟩
  rw [hrun] at hvalue
  obtain rfl := hvalue
  exact hnext value middle

/-- A sequence whose second part cannot fail has the faults of its first part. -/
theorem bind_error_iff {action : Reporting ε α} {next : α → Reporting ε β} {fault : ε}
    (hnext : ∀ value, Completes (next value)) :
    (action >>= next).result = .error fault ↔ action.result = .error fault := by
  unfold result
  rw [run_bind]
  rcases action.run [] with ⟨found | value, middle⟩
  · exact except_error_iff
  · obtain ⟨found, hfound⟩ := hnext value middle
    exact ⟨fun h => absurd (hfound.symm.trans h) nofun, nofun⟩

theorem filter_map {step : α → Reporting ε (Option β)} (h : ∀ value, Completes (step value))
    (values : List α) : Completes (values.filterMapM step) := by
  induction values with
  | nil => exact .pure []
  | cons value values ih =>
      rw [List.filterMapM_cons]
      refine (h value).bind fun entry => ?_
      cases entry with
      | none => exact ih
      | some entry => exact ih.bind fun _ => .pure _

end Completes

end TemplateBundle.Reporting
