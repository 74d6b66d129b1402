import Mathlib.Data.List.Nodup
import TemplateBundle.Project.Storage
import TemplateBundle.Proofs.Except
import TemplateBundle.Proofs.FileTree.Lookup

/-!
# Loading projects

What it takes for a project to be loaded (`load_ok_iff`): a file with text that can be read as a
project file, in which no two targets have the same name. So a loaded project finds each of its
targets by name, and it stays the same for as long as its file does.
-/

namespace TemplateBundle

/-- The bytes of a text are read as that text. -/
theorem from_utf8_eq_some_iff {content : ByteArray} {text : String} :
    String.fromUTF8? content = some text ↔ content = text.toUTF8 := by
  unfold String.fromUTF8?
  constructor
  · intro h
    split_ifs at h with hvalid
    rw [← Option.some.inj h]
    rfl
  · rintro rfl
    rw [String.toUTF8_eq_toByteArray, dif_pos text.isValidUTF8]
    rfl

namespace FileTree

/-- Text is read where a file holds its bytes. -/
theorem read_text_ok_iff {tree : FileTree} {path : Path} {text : String} :
    tree.readText path = .ok text ↔ tree.read path = .ok text.toUTF8 := by
  unfold readText
  rw [except_bind_ok_iff]
  constructor
  · rintro ⟨content, hread, htext⟩
    cases hdecoded : String.fromUTF8? content with
    | none => simp [hdecoded] at htext
    | some decoded =>
        simp only [hdecoded, except_pure_ok_iff] at htext
        rw [hread, from_utf8_eq_some_iff.mp hdecoded, htext]
  · intro hread
    exact ⟨text.toUTF8, hread, by rw [from_utf8_eq_some_iff.mpr rfl]; rfl⟩

/-- A file that can be read is there. -/
theorem contains_of_read {tree : FileTree} {path : Path} {content : ByteArray}
    (h : tree.read path = .ok content) : tree.contains path = true := by
  rw [contains, find_ok_iff.mpr (read_ok_iff.mp h)]
  rfl

end FileTree

namespace Project

/-! ## Names -/

/-- The induction is on the targets that are left: those before have the names in `seen`. -/
theorem repeated_name_go_none {seen : List String} {targets : List Target}
    (h : repeatedName?.go seen targets = none) :
    (targets.map Target.name).Nodup ∧ ∀ target ∈ targets, target.name ∉ seen := by
  induction targets generalizing seen with
  | nil => simp
  | cons target targets ih =>
      unfold repeatedName?.go at h
      split_ifs at h with hseen
      obtain ⟨hnodup, hfresh⟩ := ih h
      rw [List.contains_iff_mem] at hseen
      constructor
      · rw [List.map_cons, List.nodup_cons]
        refine ⟨fun hmem => ?_, hnodup⟩
        obtain ⟨other, hother, hname⟩ := List.mem_map.mp hmem
        exact hfresh other hother (hname ▸ List.mem_cons_self)
      · intro other hother
        rcases List.mem_cons.mp hother with rfl | hother
        · exact hseen
        · exact fun hmem => hfresh other hother (List.mem_cons_of_mem _ hmem)

/-- Targets of which no name is repeated have names of their own. -/
theorem names_nodup {targets : List Target} (h : repeatedName? targets = none) :
    (targets.map Target.name).Nodup :=
  (repeated_name_go_none h).1

/-- No name is repeated among targets with names of their own, none of which is in `seen`. -/
theorem repeated_name_go_of_nodup {seen : List String} {targets : List Target}
    (hnodup : (targets.map Target.name).Nodup) (hnew : ∀ target ∈ targets, target.name ∉ seen) :
    repeatedName?.go seen targets = none := by
  induction targets generalizing seen with
  | nil => rfl
  | cons target targets ih =>
      rw [List.map_cons, List.nodup_cons] at hnodup
      rw [List.forall_mem_cons] at hnew
      unfold repeatedName?.go
      rw [if_neg (by simpa using hnew.1)]
      refine ih hnodup.2 fun other hother hmem => ?_
      rcases List.mem_cons.mp hmem with hname | hmem
      · exact hnodup.1 (List.mem_map.mpr ⟨other, hother, hname⟩)
      · exact hnew.2 other hother hmem

/-- Of items with names of their own, each is the first one with its name. -/
theorem find_of_nodup {α : Type} {nameOf : α → String} {items : List α} {item : α}
    (hnodup : (items.map nameOf).Nodup) (hmem : item ∈ items) :
    (items.find? fun other => nameOf other == nameOf item) = some item := by
  obtain ⟨before, after, rfl⟩ := List.append_of_mem hmem
  rw [List.map_append, List.map_cons] at hnodup
  -- the search passes over the items in front, which have other names
  have hfresh : ∀ other ∈ before, ¬ (nameOf other == nameOf item) = true := by
    intro other hother hname
    refine List.disjoint_of_nodup_append hnodup (List.mem_map_of_mem hother) ?_
    rw [beq_iff_eq.mp hname]
    exact List.mem_cons_self
  rw [List.find?_append, List.find?_eq_none.mpr hfresh]
  simp

/-- Where names are not repeated, each target is found by its name. -/
theorem target_eq_of_mem {project : Project} (h : repeatedName? project.targets = none)
    {target : Target} (hmem : target ∈ project.targets) :
    project.target target.name = .ok target := by
  have hfind : project.find? target.name = some target := find_of_nodup (names_nodup h) hmem
  rw [Project.target, hfind]

/-! ## Loading -/

/-- A project is loaded if its file holds text that says what the targets are, all of them with
names of their own. -/
theorem load_ok_iff {files : FileTree} {path : Path} {project : Project} :
    load files path = .ok project ↔
      ∃ text file, files.read path = .ok text.toUTF8 ∧ ProjectFile.ofText text = .ok file ∧
        repeatedName? file.targets = none ∧
        project = { path, directory := path.parent?.getD ⟨""⟩, targets := file.targets } := by
  unfold load
  constructor
  · intro h
    cases hcontains : files.contains path with
    | false => simp [hcontains, bind, Except.bind, throw, throwThe, MonadExceptOf.throw] at h
    | true =>
        simp only [hcontains, Bool.not_true, Bool.false_eq_true, if_false] at h
        obtain ⟨text, htext, h⟩ := except_bind_ok_iff.mp h
        obtain ⟨file, hfile, h⟩ := except_bind_ok_iff.mp h
        rw [except_map_error_ok_iff] at htext hfile
        cases hrepeated : repeatedName? file.targets with
        | some name => simp [hrepeated] at h
        | none =>
            simp only [hrepeated, except_pure_ok_iff] at h
            exact ⟨text, file, FileTree.read_text_ok_iff.mp htext, hfile, hrepeated, h.symm⟩
  · rintro ⟨text, file, hread, hfile, hrepeated, rfl⟩
    rw [FileTree.contains_of_read hread, FileTree.read_text_ok_iff.mpr hread]
    simp [hfile, hrepeated, bind, Except.bind, pure, Except.pure]

end Project

end TemplateBundle
