import TemplateBundle.Command.Run
import TemplateBundle.Proofs.Bundle.Naming
import TemplateBundle.Proofs.Command.Arguments
import TemplateBundle.Proofs.Path.Joining

/-!
# Two ways to ask for a bundle

A bundle may be asked for by arguments alone, or by a project file with a target for it. Both lead
to jobs that ask for the same, so the two commands do the same to the files and end alike
(`front_ends_agree`).
-/

namespace TemplateBundle

/-- A bundle that is asked for by arguments. -/
structure BundleRequest where
  files : List String
  destination : String
  home : Namespace := Namespace.standard
  separator : Option String := none
  multiple : Bool := false
  prettify : Bool := false
  amd : Bool := false
  isDry : Bool := false

namespace BundleRequest

open Command Command.Arguments

/-- The request can be put into arguments: there are files and a destination, and only a module goes
without a namespace. -/
structure IsValid (request : BundleRequest) : Prop where
  files : request.files ≠ []
  destination : request.destination ≠ ""
  home : request.home = .disabled → request.amd = true

/-- The options that are asked for. All others are the standard ones. -/
def options (request : BundleRequest) : Options where
  home := request.home
  separator := request.separator
  multiple := request.multiple
  prettify := request.prettify
  amd := request.amd

/-- The bundle to build. It is called like its destination, and its files are seen from the working
directory. -/
def job (request : BundleRequest) : Job where
  name := request.destination
  destination := ⟨request.destination⟩
  directory := ⟨""⟩
  sources := request.files
  options := request.options

/-- The name of the namespace, if there is one. -/
def name? (request : BundleRequest) : Option String :=
  match request.home with
  | .named name => some name
  | .disabled => none

/-- The arguments for the request. -/
def words (request : BundleRequest) : List String :=
  valueWord "dest" request.destination :: (valueWords "namespace" request.name? ++
    (switchWords "no-namespace" request.name?.isNone ++
      (valueWords "separator" request.separator ++
        (switchWords "multiple" request.multiple ++ (switchWords "prettify" request.prettify ++
          (switchWords "amd" request.amd ++ (switchWords "dry-run" request.isDry ++
            "--" :: request.files)))))))

/-- A target of a project is for the bundle: it has the files as its sources, and its destination
and options are those of the request. -/
structure IsFor (request : BundleRequest) (target : Target) : Prop where
  sources : target.sources = request.files
  destination : target.destination = ⟨request.destination⟩
  options : request.options.Alike target.options

end BundleRequest

namespace Command

open Arguments

variable {request : BundleRequest} {arguments : Arguments} {words : List String}

/-- The options of the command have names. -/
theorem is_name_of_listed : ∀ name ∈ ["dest", "namespace", "no-namespace", "separator", "multiple",
    "prettify", "amd", "dry-run"], IsName name := by
  have hnames : ∀ name ∈ ["dest", "namespace", "no-namespace", "separator", "multiple",
      "prettify", "amd", "dry-run"], '=' ∉ name.toList ∧ name ≠ "" := by
    decide
  exact fun name hmem => ⟨(hnames name hmem).1, (hnames name hmem).2⟩

/-- An option that may be given is read as itself. -/
theorem read_value_words {option : OptionShape} (hname : IsName option.name)
    (hfound : (compileShape.options.find? fun other => other.name == option.name) = some option)
    (hvalue : option.takesValue = true) (hneeds : option.needsText = false) (value : Option String)
    (hnew : arguments.value? option.name = none) :
    read compileShape (valueWords option.name value ++ words) arguments =
      read compileShape words (arguments.withOption option.name value) := by
  cases value with
  | none => rfl
  | some value => exact read_value_word hname hfound hvalue value hnew (by simp [hneeds])

/-- The value of an option without a value is empty. -/
def switchValue (isGiven : Bool) : Option String :=
  if isGiven then some "" else none

@[simp] theorem is_some_switch_value (isGiven : Bool) :
    (switchValue isGiven).isSome = isGiven := by
  cases isGiven <;> rfl

theorem read_switch_words {name : String} (hname : IsName name)
    (hfound : (compileShape.options.find? fun other => other.name == name) = some (switch name))
    (isGiven : Bool) (hnew : arguments.value? name = none) :
    read compileShape (switchWords name isGiven ++ words) arguments =
      read compileShape words (arguments.withOption name (switchValue isGiven)) := by
  cases isGiven with
  | false => rfl
  | true =>
      show read compileShape (switchWord (switch name).name :: words) arguments = _
      exact read_switch_word hname hfound rfl rfl hnew

/-- What the arguments for a request give. -/
def argumentsOf (request : BundleRequest) : Arguments :=
  { ((((((((({} : Arguments).withOption "dest" (some request.destination)).withOption
      "namespace" request.name?).withOption
      "no-namespace" (switchValue request.name?.isNone)).withOption
      "separator" request.separator).withOption
      "multiple" (switchValue request.multiple)).withOption
      "prettify" (switchValue request.prettify)).withOption
      "amd" (switchValue request.amd)).withOption
      "dry-run" (switchValue request.isDry)) with
    words := request.files }

@[simp] theorem no_value (name : String) : ({} : Arguments).value? name = none := rfl

theorem read_request_words (hdestination : request.destination ≠ "") :
    read compileShape request.words {} = .ok (argumentsOf request) := by
  let destinationOption : OptionShape :=
    { name := "dest", letter := some 'd', takesValue := true, needsText := true }
  let namespaceOption : OptionShape :=
    { name := "namespace", letter := some 'n', takesValue := true }
  let separatorOption : OptionShape := { name := "separator", takesValue := true }
  have hdest : IsName destinationOption.name := is_name_of_listed _ (by simp [destinationOption])
  have hnamespace : IsName namespaceOption.name := is_name_of_listed _ (by simp [namespaceOption])
  have hseparator : IsName separatorOption.name := is_name_of_listed _ (by simp [separatorOption])
  unfold BundleRequest.words
  refine (read_value_word hdest rfl rfl request.destination rfl fun _ => hdestination).trans ?_
  refine (read_value_words hnamespace rfl rfl rfl request.name? ?_).trans ?_
  · simp [destinationOption, namespaceOption]
  refine (read_switch_words (is_name_of_listed _ (by simp)) rfl _ ?_).trans ?_
  · simp [destinationOption, namespaceOption]
  refine (read_value_words hseparator rfl rfl rfl request.separator ?_).trans ?_
  · simp [destinationOption, namespaceOption, separatorOption]
  refine (read_switch_words (is_name_of_listed _ (by simp)) rfl _ ?_).trans ?_
  · simp [destinationOption, namespaceOption, separatorOption]
  refine (read_switch_words (is_name_of_listed _ (by simp)) rfl _ ?_).trans ?_
  · simp [destinationOption, namespaceOption, separatorOption]
  refine (read_switch_words (is_name_of_listed _ (by simp)) rfl _ ?_).trans ?_
  · simp [destinationOption, namespaceOption, separatorOption]
  refine (read_switch_words (is_name_of_listed _ (by simp)) rfl _ ?_).trans ?_
  · simp [destinationOption, namespaceOption, separatorOption]
  exact read_words_behind rfl rfl request.files _

/-- What is asked of the arguments for a request. -/
theorem values_of_request (request : BundleRequest) :
    (argumentsOf request).value? "dest" = some request.destination ∧
      (argumentsOf request).value? "namespace" = request.name? ∧
      (argumentsOf request).value? "separator" = request.separator ∧
      (argumentsOf request).has "no-namespace" = request.name?.isNone ∧
      (argumentsOf request).has "multiple" = request.multiple ∧
      (argumentsOf request).has "prettify" = request.prettify ∧
      (argumentsOf request).has "amd" = request.amd ∧
      (argumentsOf request).has "dry-run" = request.isDry := by
  have hvalue (arguments : Arguments) (words : List String) (name : String) :
      ({ arguments with words := words } : Arguments).value? name = arguments.value? name := rfl
  have hhas (arguments : Arguments) (name : String) :
      arguments.has name = (arguments.value? name).isSome := rfl
  simp [argumentsOf, hhas, hvalue]

/-- Any valid request can be put into arguments. -/
theorem of_arguments_request (hvalid : request.IsValid) :
    ofArguments ("compile" :: request.words) = .ok (.compile request.job request.isDry) := by
  obtain ⟨hdest, hname, hseparator, hbare, hmultiple, hprettify, hamd, hdry⟩ :=
    values_of_request request
  have hfiles : (argumentsOf request).words.isEmpty = false := by
    simpa [argumentsOf] using hvalid.files
  have hmodule : (request.name?.isNone && (request.name?.isSome || !request.amd)) = false := by
    unfold BundleRequest.name?
    cases hhome : request.home with
    | named name => rfl
    | disabled => simp [hvalid.home hhome]
  have hnameHas : (argumentsOf request).has "namespace" = request.name?.isSome :=
    congrArg Option.isSome hname
  show readCompile request.words = _
  unfold readCompile
  rw [read_request_words hvalid.destination, except_ok_bind]
  simp only [hdest, hname, hnameHas, hseparator, hbare, hmultiple, hprettify, hamd, hdry, hfiles,
    hmodule, Bool.false_eq_true, if_false]
  unfold BundleRequest.job BundleRequest.options BundleRequest.name?
  cases request.home <;> rfl

/-- The arguments for building all targets of a project, on a dry run if the request is for one. -/
theorem of_arguments_build (isDry : Bool) :
    ofArguments ("build" :: switchWords "dry-run" isDry) =
      .ok (.build ⟨ProjectFile.usualName⟩ .all isDry false) := by
  have hdry : (switch "dry-run").name ∈ ["dest", "namespace", "no-namespace", "separator",
      "multiple", "prettify", "amd", "dry-run"] := by
    simp [switch]
  show readBuild (switchWords "dry-run" isDry) = _
  unfold readBuild
  cases isDry with
  | false => rfl
  | true =>
      show (read _ [switchWord (switch "dry-run").name] {} >>= _) = _
      rw [read_switch_word (is_name_of_listed _ hdry) rfl rfl rfl rfl]
      rfl

/-! ## Running -/

/-- A project in the working directory with one target for the request asks for the same bundle. -/
theorem asks_of_is_for {project : Project} {target : Target} (htarget : request.IsFor target)
    (hdirectory : project.directory = ⟨""⟩) : request.job.Asks (project.jobFor target) where
  destination := by
    show (⟨request.destination⟩ : Path) = project.directory.join target.destination
    rw [hdirectory, Path.join_empty, htarget.destination]
  directory := hdirectory.symm
  sources := htarget.sources.symm
  options := htarget.options

/-- The directory of the usual project file is the working directory. -/
theorem directory_of_usual {files : FileTree} {project : Project}
    (hload : Project.load files ⟨ProjectFile.usualName⟩ = .ok project) :
    project.directory = ⟨""⟩ := by
  obtain ⟨text, file, -, -, -, rfl⟩ := Project.load_ok_iff.mp hload
  show (⟨ProjectFile.usualName⟩ : Path).parent?.getD ⟨""⟩ = ⟨""⟩
  decide

/-- Building all targets of a project with one target builds its job. -/
theorem run_build_only {project : Project} {target : Target} {path : Path} {isDry : Bool}
    {start : Workspace} (hload : Project.load start.files path = .ok project)
    (htargets : project.targets = [target]) :
    (Project.build path .all isDry).run start =
      (((project.jobFor target).build {} isDry).run start).map
        (Except.map fun report => [report]) id := by
  rw [Project.run_build_all hload, htargets, List.map_singleton, Project.buildJobs, List.mapM_cons,
    Working.run_bind]
  rcases ((project.jobFor target).build {} isDry).run start with ⟨fault | report, final⟩ <;> rfl

/-- Building a bundle by arguments shows the report of its job, or fails with its fault. -/
theorem run_compile (job : Job) (isDry : Bool) (start : Workspace) :
    (run (.compile job isDry)).run start = ((job.build {} isDry).run start).map
      (fun result => (result.mapError (.compile job.destination)).map (reportText isDry)) id := by
  show (runCompile job isDry).run start = _
  unfold runCompile
  rw [Working.run_bind, Working.run_map_fault]
  rcases (job.build {} isDry).run start with ⟨fault | report, final⟩ <;> rfl

/-- Building a project that gives one report shows it. -/
theorem run_build_one {path : Path} {scope : Scope} {isDry : Bool} {start final : Workspace}
    {report : BuildReport} (h : (Project.build path scope isDry).run start = (.ok [report], final)) :
    (run (.build path scope isDry false)).run start = (.ok (reportText isDry report), final) := by
  have htext : String.join [reportText isDry report] = reportText isDry report := by
    simp [String.join]
  show (runBuild path scope isDry false).run start = _
  unfold runBuild
  rw [Working.run_bind, Working.run_map_fault, h]
  show (Except.ok (String.join [reportText isDry report]), final) = _
  rw [htext]

theorem run_build_fault {path : Path} {scope : Scope} {isDry : Bool} {start final : Workspace}
    {fault : BuildFault} (h : (Project.build path scope isDry).run start = (.error fault, final)) :
    (run (.build path scope isDry false)).run start = (.error (.build path fault), final) := by
  show (runBuild path scope isDry false).run start = _
  unfold runBuild
  rw [Working.run_bind, Working.run_map_fault, h]
  rfl

/-- The two front ends agree. Any valid request can be put into arguments. In a working directory
whose project file has one target, which is for the same files, destination and options, the request
and a build of the project leave the same files, and both fail with the same fault of the build, or
both show the same report, each under its name. -/
theorem front_ends_agree (hvalid : request.IsValid) {start : Workspace} {project : Project}
    {target : Target} (hload : Project.load start.files ⟨ProjectFile.usualName⟩ = .ok project)
    (htargets : project.targets = [target]) (htarget : request.IsFor target) :
    let compile := Command.compile request.job request.isDry
    let build := Command.build ⟨ProjectFile.usualName⟩ .all request.isDry false
    ofArguments ("compile" :: request.words) = .ok compile ∧
      ofArguments ("build" :: switchWords "dry-run" request.isDry) = .ok build ∧
      let compiled := (run compile).run start
      let built := (run build).run start
      compiled.2.files = built.2.files ∧
        ((∃ fault,
          (request.job.build {} request.isDry).run start = (.error fault, compiled.2) ∧
          (Project.build ⟨ProjectFile.usualName⟩ .all request.isDry).run start =
            (.error fault, built.2) ∧
          compiled.1 = .error (.compile ⟨request.destination⟩ fault) ∧
          built.1 = .error (.build ⟨ProjectFile.usualName⟩ fault)) ∨
        ∃ report,
          (request.job.build {} request.isDry).run start = (.ok report, compiled.2) ∧
          (Project.build ⟨ProjectFile.usualName⟩ .all request.isDry).run start =
            (.ok [{ report with name := target.name }], built.2) ∧
          compiled.1 = .ok (reportText request.isDry report) ∧
          built.1 = .ok (reportText request.isDry { report with name := target.name })) := by
  refine ⟨of_arguments_request hvalid, of_arguments_build request.isDry, ?_⟩
  have hasks := asks_of_is_for htarget (directory_of_usual hload)
  obtain ⟨hfiles, hends⟩ :=
    hasks.build_tallies (Job.standard_settings_valid rfl) request.isDry start start rfl
  rcases hjob : (request.job.build {} request.isDry).run start with ⟨result, final⟩
  rcases htargetJob : ((project.jobFor target).build {} request.isDry).run start with ⟨other, last⟩
  rw [hjob, htargetJob] at hfiles hends
  -- both builds fail with the same fault, or their reports differ in nothing but the name
  rcases hends with ⟨fault, rfl, rfl⟩ | ⟨report, _, rfl, rfl, -, rfl⟩
  · have hcompile : (run (.compile request.job request.isDry)).run start =
        (.error (.compile ⟨request.destination⟩ fault), final) := by
      rw [run_compile, hjob]
      rfl
    have hproject : (Project.build ⟨ProjectFile.usualName⟩ .all request.isDry).run start =
        (.error fault, last) := by
      rw [run_build_only hload htargets, htargetJob]
      rfl
    simp only [hcompile, run_build_fault hproject]
    exact ⟨hfiles, .inl ⟨fault, rfl, hproject, rfl, rfl⟩⟩
  · have hcompile : (run (.compile request.job request.isDry)).run start =
        (.ok (reportText request.isDry report), final) := by
      rw [run_compile, hjob]
      rfl
    have hproject : (Project.build ⟨ProjectFile.usualName⟩ .all request.isDry).run start =
        (.ok [{ report with name := target.name }], last) := by
      rw [run_build_only hload htargets, htargetJob]
      rfl
    simp only [hcompile, run_build_one hproject]
    exact ⟨hfiles, .inr ⟨report, rfl, hproject, rfl, rfl⟩⟩

/-- A request for a module without a namespace. -/
def moduleRequest : BundleRequest where
  files := ["x"]
  destination := "a.js"
  home := .disabled
  amd := true

/-- The target for the request. -/
def moduleTarget : Target where
  name := "a"
  destination := ⟨"a.js"⟩
  sources := ["x"]
  options := { home := .disabled, amd := true }

/-- The working directory with a project file for the request, and its source. -/
def moduleWorkspace : Workspace :=
  { files := ⟨[(["", "jst.yaml"], .file
      "targets: [{name: a, dest: a.js, src: [x], options: {namespace: false, amd: true}}]".toUTF8),
    (["", "x"], .file "x".toUTF8)]⟩ }

theorem load_module : Project.load moduleWorkspace.files ⟨"jst.yaml"⟩ =
    .ok ⟨⟨"jst.yaml"⟩, ⟨""⟩, [moduleTarget]⟩ := by
  have htext : ProjectFile.ofText
      "targets: [{name: a, dest: a.js, src: [x], options: {namespace: false, amd: true}}]" =
      .ok { targets := [moduleTarget] } :=
    except_ok_iff_to_option.mpr (by decide +kernel)
  refine Project.load_ok_iff.mpr ⟨_, _, rfl, htext, by decide, ?_⟩
  simp only [Project.mk.injEq, and_true, true_and]
  decide +kernel

/-- The module is the same, whether it is asked for by arguments or by the project file. -/
theorem module_built_alike :
    ofArguments ("compile" :: moduleRequest.words) = .ok (.compile moduleRequest.job false) ∧
      ofArguments ["build"] = .ok (.build ⟨"jst.yaml"⟩ .all false false) ∧
      ((run (.compile moduleRequest.job false)).run moduleWorkspace).2.files =
        ((run (.build ⟨"jst.yaml"⟩ .all false false)).run moduleWorkspace).2.files := by
  have hvalid : moduleRequest.IsValid := ⟨by decide, by decide, fun _ => rfl⟩
  have htarget : moduleRequest.IsFor moduleTarget := ⟨rfl, rfl, rfl, rfl⟩
  have hdry : moduleRequest.isDry = false := rfl
  have hname : ProjectFile.usualName = "jst.yaml" := rfl
  obtain ⟨hcompile, hbuild, hfiles, -⟩ := front_ends_agree hvalid load_module rfl htarget
  rw [hdry, hname] at hfiles
  exact ⟨hcompile, hbuild, hfiles⟩

end Command

end TemplateBundle
