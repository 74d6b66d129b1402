import TemplateBundle.Proofs.Except
import TemplateBundle.Workspace

/-!
# Running work on files

What a computation of `Working` gives from a workspace, one lemma for each operation. A run ends
with a value or a fault and always with a workspace: what was done before a fault is in it.
`run_bind` takes sequences apart, so that no later proof opens the monad.
-/

namespace TemplateBundle.Working

variable {ε ε' α β : Type}

/-- A sequence runs its second part from where the first one ended, unless that failed. -/
theorem run_bind (action : Working ε α) (next : α → Working ε β) (start : Workspace) :
    (action >>= next).run start =
      match action.run start with
      | (.ok value, middle) => (next value).run middle
      | (.error fault, middle) => (.error fault, middle) := by
  show (match action.run start with
    | (result, middle) => ExceptT.bindCont next result middle) = _
  rcases action.run start with ⟨_ | _, middle⟩ <;> rfl

/-- A sequence succeeds if both of its parts do. -/
theorem run_bind_ok_iff {action : Working ε α} {next : α → Working ε β} {start final : Workspace}
    {result : β} :
    (action >>= next).run start = (.ok result, final) ↔
      ∃ value middle, action.run start = (.ok value, middle) ∧
        (next value).run middle = (.ok result, final) := by
  rw [run_bind]
  rcases action.run start with ⟨fault | value, middle⟩
  · constructor
    · exact fun h => nomatch h
    · rintro ⟨value, middle, ⟨⟩, -⟩
  · constructor
    · exact fun h => ⟨value, middle, rfl, h⟩
    · rintro ⟨value, middle, ⟨⟩, h⟩
      exact h

@[simp] theorem run_pure (value : α) (start : Workspace) :
    (pure value : Working ε α).run start = (.ok value, start) := rfl

@[simp] theorem run_throw (fault : ε) (start : Workspace) :
    (throw fault : Working ε α).run start = (.error fault, start) := rfl

@[simp] theorem run_modify (change : Workspace → Workspace) (start : Workspace) :
    (modify change : Working ε PUnit).run start = (.ok ⟨⟩, change start) := rfl

@[simp] theorem run_get (start : Workspace) :
    (get : Working ε Workspace).run start = (.ok start, start) := rfl

@[simp] theorem run_files (start : Workspace) :
    (files : Working ε FileTree).run start = (.ok start.files, start) := rfl

@[simp] theorem run_log (level : LogLevel) (message : String) (start : Workspace) :
    (log level message : Working ε Unit).run start =
      (.ok (), { start with log := start.log ++ [⟨level, message⟩] }) := rfl

@[simp] theorem run_of_except (result : Except ε α) (start : Workspace) :
    (ofExcept result).run start = (result, start) := by
  cases result <;> rfl

/-- Failing with another fault leaves the files as they would be. -/
theorem run_map_fault (convert : ε → ε') (action : Working ε α) (start : Workspace) :
    (mapFault convert action).run start =
      ((action.run start).1.mapError convert, (action.run start).2) := rfl

/-- Work that only reports changes nothing but the log. -/
@[simp] theorem run_of_reporting (action : Reporting ε α) (start : Workspace) :
    (ofReporting action).run start =
      ((action.run start.log).1, { start with log := (action.run start.log).2 }) := by
  show (ofExcept (action.run start.log).1).run { start with log := (action.run start.log).2 } = _
  rw [run_of_except]

@[simp] theorem run_change (fault : FileFault → ε) (outcome : Except FileFault FileTree)
    (start : Workspace) :
    (change fault outcome).run start =
      match outcome with
      | .ok files => (.ok (), { start with files := files })
      | .error found => (.error (fault found), start) := by
  cases outcome <;> rfl

/-- The directories that could be made are there even if not all could. -/
@[simp] theorem run_make_directories (fault : FileFault → ε) (path : Path) (start : Workspace) :
    (makeDirectories fault path).run start =
      ((start.files.makeDirectories path).1.mapError fault,
        { start with files := (start.files.makeDirectories path).2 }) := by
  rcases hmade : start.files.makeDirectories path with ⟨found | ⟨⟩, made⟩ <;>
    simp [makeDirectories, run_bind, hmade]

/-- Replacing a file goes through at most three changes: writing beside it, and either putting
that in its place or taking it away again. -/
theorem run_replace (fault : Path → FileFault → ε) (path beside : Path) (content : ByteArray)
    (start : Workspace) :
    (replace fault path beside content).run start =
      match start.files.write beside content with
      | .error found => (.error (fault beside found), start)
      | .ok written =>
          match written.rename beside path with
          | .ok renamed => (.ok (), { start with files := renamed })
          | .error found =>
              (.error (fault path found),
                { start with files := (written.removeFile beside).toOption.getD written }) := by
  simp only [replace, run_bind, run_files, run_change]
  cases start.files.write beside content with
  | error found => rfl
  | ok written =>
      cases hrenamed : written.rename beside path with
      | ok renamed => simp [hrenamed]
      | error found =>
          cases hcleared : written.removeFile beside <;>
            simp [hrenamed, hcleared, run_bind, Except.toOption]

/-! ## Faults -/

/-- Whatever the work fails with is among these faults. -/
def FailsOnly (among : ε → Prop) (action : Working ε α) : Prop :=
  ∀ start fault final, action.run start = (.error fault, final) → among fault

namespace FailsOnly

variable {among : ε → Prop}

theorem bind {action : Working ε α} {next : α → Working ε β} (hfirst : FailsOnly among action)
    (hnext : ∀ value, FailsOnly among (next value)) : FailsOnly among (action >>= next) := by
  intro start fault final h
  rw [run_bind] at h
  rcases hrun : action.run start with ⟨found | value, middle⟩
  · simp only [hrun] at h
    cases h
    exact hfirst start fault final hrun
  · simp only [hrun] at h
    exact hnext value middle fault final h

/-- Work that never fails fails with none. -/
theorem of_total {action : Working ε α} (h : ∀ start, ∃ value, (action.run start).1 = .ok value) :
    FailsOnly among action := by
  intro start fault final hrun
  obtain ⟨value, hvalue⟩ := h start
  rw [hrun] at hvalue
  cases hvalue

theorem pure (value : α) : FailsOnly among (Pure.pure value : Working ε α) :=
  of_total fun _ => ⟨value, rfl⟩

theorem log (level : LogLevel) (message : String) :
    FailsOnly among (Working.log level message : Working ε Unit) :=
  of_total fun _ => ⟨(), rfl⟩

theorem of_except {convert : ε' → ε} (h : ∀ fault, among (convert fault))
    (result : Except ε' α) : FailsOnly among (ofExcept (result.mapError convert)) := by
  intro start fault final hrun
  rw [run_of_except] at hrun
  cases result with
  | ok value => cases hrun
  | error found =>
      cases hrun
      exact h found

theorem make_directories {convert : FileFault → ε} (h : ∀ fault, among (convert fault))
    (path : Path) : FailsOnly among (makeDirectories convert path) := by
  intro start fault final hrun
  rw [run_make_directories] at hrun
  cases hmade : (start.files.makeDirectories path).1 with
  | ok =>
      simp only [hmade, except_map_error_ok] at hrun
      cases hrun
  | error found =>
      simp only [hmade, except_map_error_error] at hrun
      cases hrun
      exact h found

theorem replace {convert : Path → FileFault → ε} (h : ∀ path fault, among (convert path fault))
    (path beside : Path) (content : ByteArray) :
    FailsOnly among (Working.replace convert path beside content) := by
  intro start fault final hrun
  rw [run_replace] at hrun
  split at hrun
  · cases hrun
    exact h _ _
  · split at hrun
    · cases hrun
    · cases hrun
      exact h _ _

end FailsOnly

end TemplateBundle.Working
