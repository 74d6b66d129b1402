import Mathlib.Tactic.SplitIfs
import TemplateBundle.Bundle.Render
import TemplateBundle.Proofs.Workspace.Reporting

/-!
# What is rendered

A bundle with a text has something in it: the text is never empty (`render_text_ne_empty`). Every
entry has the words around its template, so it does not matter what the templates compile to. What
is rendered depends on the files alone, not on what was reported before (`render_unswayed`).
-/

namespace TemplateBundle

open Reporting (Gives Unswayed)

/-- A text with something in front of something else is not empty. -/
theorem append_ne_empty_of_left {first second : String} (h : first ≠ "") : first ++ second ≠ "" :=
  fun hempty => h (String.append_eq_empty_iff.mp hempty).1

theorem append_ne_empty_of_right {first second : String} (h : second ≠ "") : first ++ second ≠ "" :=
  fun hempty => h (String.append_eq_empty_iff.mp hempty).2

namespace Bundle

/-- Parts one of which is not empty do not make up an empty text. -/
theorem intercalate_ne_empty {parts : List String} {part : String} (joint : String)
    (hpart : part ∈ parts) (h : part ≠ "") : joint.intercalate parts ≠ "" := by
  induction parts with
  | nil => exact absurd hpart List.not_mem_nil
  | cons first others ih =>
      cases others with
      | nil =>
          rw [String.intercalate_singleton, ← List.mem_singleton.mp hpart]
          exact h
      | cons second others =>
          rw [String.intercalate_cons_cons]
          rcases List.mem_cons.mp hpart with rfl | hpart
          · exact append_ne_empty_of_left (append_ne_empty_of_left h)
          · exact append_ne_empty_of_right (ih hpart)

theorem single_entry_ne_empty (resolved : ResolvedNamespace) (template : CompiledTemplate) :
    singleEntry resolved template ≠ "" :=
  append_ne_empty_of_right (by decide)

theorem document_entry_ne_empty (resolved : ResolvedNamespace) (name : String)
    (templates : List CompiledTemplate) : documentEntry resolved name templates ≠ "" := by
  unfold documentEntry
  exact append_ne_empty_of_left (append_ne_empty_of_right (by decide))

/-- No entry of a bundle is empty. -/
theorem entries_ne_empty (resolved : ResolvedNamespace) (files : List CompiledFile) :
    Gives (fun entries => ∀ entry ∈ entries, entry ≠ "") (entries resolved files) := by
  refine .filter_map (fun file => ?_) files
  cases file with
  | single template =>
      refine (Gives.any _).bind fun kept _ => .pure fun entry hentry => ?_
      obtain ⟨template, -, rfl⟩ := Option.map_eq_some_iff.mp hentry
      exact single_entry_ne_empty resolved template
  | multiple name templates =>
      refine (Gives.any _).bind fun kept _ => ?_
      cases kept with
      | nil => exact (Gives.any _).bind fun _ _ => .pure nofun
      | cons template kept =>
          refine .pure fun entry hentry => ?_
          cases hentry
          exact document_entry_ne_empty resolved name _

theorem bare_entries_ne_empty (files : List CompiledFile) :
    Gives (fun entries => ∀ entry ∈ entries, entry ≠ "") (bareEntries files) := by
  refine (Gives.any _).bind fun kept _ => ?_
  cases kept with
  | nil => exact .pure fun _ hentry => absurd hentry List.not_mem_nil
  | cons template others =>
      cases others with
      | nil =>
          refine .pure fun entry hentry => ?_
          rw [List.mem_singleton.mp hentry]
          exact append_ne_empty_of_right (by decide)
      | cons second others => exact fun _ _ _ h => nomatch h

/-- The parts of a bundle that has an entry do not make up an empty text. -/
theorem parts_ne_empty (options : Options) (resolved : Option ResolvedNamespace)
    {entries : List String} {entry : String} (hentry : entry ∈ entries) (h : entry ≠ "") :
    (joint options).intercalate
      (if options.amd then wrapModule options.prettify resolved entries else entries) ≠ "" := by
  split_ifs
  · have hopening : moduleOpening ∈ wrapModule options.prettify resolved entries :=
      List.mem_append_left _ (List.mem_append_left _ List.mem_cons_self)
    exact intercalate_ne_empty _ hopening (by decide)
  · exact intercalate_ne_empty _ hentry h

/-- The text of a bundle is not empty: it has an entry in it. -/
theorem assemble_ne_empty (files : List CompiledFile) (resolved : Option ResolvedNamespace)
    (options : Options) :
    Gives (fun text => text ≠ some "") (assemble files resolved options) := by
  unfold assemble
  cases resolved with
  | some resolved =>
      refine (entries_ne_empty resolved files).bind fun written hwritten => ?_
      cases written with
      | nil => exact .pure nofun
      | cons entry others =>
          refine .pure fun hempty => ?_
          -- the first entry is among the parts, with or without a declaration in front
          refine parts_ne_empty options (some resolved) ?_
            (hwritten entry List.mem_cons_self) (Option.some.inj hempty)
          show entry ∈ if resolved.declaration = "" then entry :: others
            else resolved.declaration :: entry :: others
          split_ifs
          · exact List.mem_cons_self
          · exact List.mem_cons_of_mem _ List.mem_cons_self
  | none =>
      cases hamd : options.amd with
      | false => exact fun _ _ _ h => nomatch h
      | true =>
          refine (bare_entries_ne_empty files).bind fun written hwritten => ?_
          cases written with
          | nil => exact .pure nofun
          | cons entry others =>
              refine .pure fun hempty => ?_
              have hentry : entry ∈ entry :: others := List.mem_cons_self
              have hparts := parts_ne_empty options none hentry (hwritten entry hentry)
              rw [hamd] at hparts
              exact hparts (Option.some.inj hempty)

end Bundle

/-- Rendering never gives an empty text. -/
theorem Job.render_text_ne_empty (toolchain : Toolchain) (files : FileTree) (job : Job) :
    Gives (fun rendered : Rendered => rendered.text ≠ some "") (job.render toolchain files) := by
  unfold render
  refine (Gives.any _).bind fun resolved _ => (Gives.any _).bind fun _ _ => ?_
  refine (Gives.any _).bind fun paths _ => (Gives.any _).bind fun compiled _ => ?_
  exact (Bundle.assemble_ne_empty _ _ _).bind fun text htext => .pure htext

/-! ## Independence of the log -/

namespace Toolchain

theorem compile_template_unswayed (toolchain : Toolchain) (options : Options) (path : Path)
    (fragment : Option String) (text : String) :
    Unswayed (toolchain.compileTemplate options path fragment text) := by
  unfold compileTemplate
  cases toolchain.compiler.source options.settings text with
  | ok source =>
      refine .bind ?_ fun _ => .pure _
      unfold reportSize
      split_ifs
      · exact .log _ _
      · exact .pure _
  | error fault => exact (Unswayed.log _ _).bind fun _ => (Unswayed.log _ _).bind fun _ => .throw _

theorem compile_file_unswayed (toolchain : Toolchain) (options : Options) (path : Path)
    (raw : String) : Unswayed (toolchain.compileFile options path raw) := by
  unfold compileFile
  cases options.mode with
  | single => exact (compile_template_unswayed toolchain options path _ _).bind fun _ => .pure _
  | multiple =>
      refine .bind (.map_m (fun fragment => ?_) _) fun _ => (Unswayed.log _ _).bind fun _ => .pure _
      exact (compile_template_unswayed toolchain options path _ _).bind fun _ => .pure _

end Toolchain

namespace Bundle

theorem keep_written_unswayed (templates : List CompiledTemplate) :
    Unswayed (keepWritten templates) := by
  refine .filter (fun template => ?_) templates
  cases template.isBlank with
  | true => exact (Unswayed.log _ _).bind fun _ => .pure _
  | false => exact .pure _

theorem assignments_unswayed (resolved : ResolvedNamespace) (file : CompiledFile) :
    Unswayed (assignments? resolved file) := by
  cases file with
  | single template => exact (keep_written_unswayed _).bind fun _ => .pure _
  | multiple name templates =>
      refine (keep_written_unswayed _).bind fun kept => ?_
      cases kept with
      | nil => exact (Unswayed.log _ _).bind fun _ => .pure _
      | cons template kept => exact .pure _

theorem entries_unswayed (resolved : ResolvedNamespace) (files : List CompiledFile) :
    Unswayed (entries resolved files) :=
  .filter_map (assignments_unswayed resolved) files

theorem bare_entries_unswayed (files : List CompiledFile) : Unswayed (bareEntries files) := by
  refine (keep_written_unswayed _).bind fun kept => ?_
  cases kept with
  | nil => exact .pure _
  | cons template others =>
      cases others with
      | nil => exact .pure _
      | cons second others => exact .throw _

theorem assemble_unswayed (files : List CompiledFile) (resolved : Option ResolvedNamespace)
    (options : Options) : Unswayed (assemble files resolved options) := by
  unfold assemble
  cases resolved with
  | some resolved =>
      refine (entries_unswayed resolved files).bind fun written => ?_
      simp only
      split_ifs <;> exact .pure _
  | none =>
      cases options.amd with
      | false => exact .throw _
      | true =>
          refine (bare_entries_unswayed files).bind fun written => ?_
          simp only
          split_ifs <;> exact .pure _

end Bundle

namespace Job

/-- The induction is on the sources that are left. -/
theorem compile_sources_unswayed (toolchain : Toolchain) (files : FileTree) (job : Job)
    (paths : List Path) : Unswayed (job.compileSources toolchain files paths) := by
  induction paths with
  | nil => exact .pure _
  | cons path paths ih =>
      simp only [compileSources]
      split_ifs
      · refine (Unswayed.of_except _).bind fun raw => ?_
        refine (toolchain.compile_file_unswayed job.options path raw).bind fun compiled => ?_
        exact ih.bind fun _ => .pure _
      · exact (Unswayed.log _ _).bind fun _ => ih.bind fun _ => .pure _

theorem render_unswayed (toolchain : Toolchain) (files : FileTree) (job : Job) :
    Unswayed (job.render toolchain files) := by
  unfold render
  refine (Unswayed.of_except _).bind fun resolved => (Unswayed.of_except _).bind fun _ => ?_
  refine (Unswayed.of_except _).bind fun paths => ?_
  refine (job.compile_sources_unswayed toolchain files paths).bind fun compiled => ?_
  exact (Bundle.assemble_unswayed _ _ _).bind fun _ => .pure _

end Job

end TemplateBundle
