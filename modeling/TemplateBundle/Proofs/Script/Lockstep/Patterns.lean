import TemplateBundle.Proofs.Script.Lockstep.Steps

/-!
# Names and patterns in step
-/

namespace TemplateBundle.Script

variable {pairing : Pairing} {recur : Recur} {context : Context} {settled : Bool} {token : Token}

/-! ## Names -/

theorem term_of_name_alike (strict : Bool) (text : String) (line line' : Nat) :
    (Term.ofName strict text line).Alike (Term.ofName strict text line') where
  form := rfl
  isTarget := rfl
  patternFault := by
    unfold Term.ofName
    dsimp only
    split <;> rfl
  bindingFault := rfl
  names := rfl
  coverFault := rfl

theorem stays_check_name (text : String) (line line' : Nat) :
    pairing.Stays (checkName context text line) (checkName context text line') fun _ _ => True := by
  intro settled token
  unfold checkName
  refine follows_ite (fun _ => follows_fail_at_bind) fun _ => ?_
  refine follows_when (stays_report _ _) ?_
  refine follows_when (stays_report _ _) ?_
  have hlast : pairing.Stays
      (if (text == "arguments" && context.refusesArguments) = true then Reading.report line
        else pure ())
      (if (text == "arguments" && context.refusesArguments) = true then Reading.report line'
        else pure ()) fun _ _ => True := stays_when (stays_report _ _)
  refine follows_ite (fun _ => ?_) fun _ => hlast settled token
  have hseen : Suspensions.Alike { awaitNames := some line } { awaitNames := some line' } :=
    ⟨rfl, rfl, rfl⟩
  exact follows_when (stays_report _ _)
    ((stays_keep hseen).bind fun _ _ _ => hlast settled token)

theorem keeps_reference :
    pairing.Keeps false true (reference context) (reference context) Term.Alike := by
  intro token
  unfold reference
  refine follows_current ?_
  cases token with
  | name text escaped =>
      refine follows_line fun line line' => ?_
      refine (stays_check_name text line line').bind fun _ _ _ => ?_
      exact follows_next fun _ =>
        follows_return (term_of_name_alike context.strict text line line') (fun _ => rfl)
  | _ => exact follows_fail

theorem keeps_binding_name :
    pairing.Keeps false true (bindingName context) (bindingName context) Term.Alike := by
  intro token
  unfold bindingName
  refine keeps_reference.bind fun term term' token hterm => ?_
  exact follows_when_iff (by rw [hterm.isTarget]) (stays_report _ _) (follows_return hterm id)

theorem keeps_value (hrecur : pairing.KeepsParts recur) :
    pairing.Keeps false true (value recur context) (value recur context) Term.Alike := by
  intro token
  unfold value
  refine (hrecur.assignment context).bind fun term term' token hterm => ?_
  exact hterm.stays_settle.bind fun _ _ _ => follows_return hterm id

/-- A value behind an equals sign. -/
theorem keeps_initializer (hrecur : pairing.KeepsParts recur) :
    pairing.Keeps true true (initializer? recur context) (initializer? recur context) Eq := by
  intro token
  unfold initializer?
  refine follows_accepts (fun _ => ?_) fun _ => follows_return rfl id
  exact (keeps_value hrecur).bind fun _ _ _ _ => follows_return rfl id

/-! ## Keys -/

/-- The same key, but perhaps at another line. -/
structure Key.Alike (first second : Key) : Prop where
  text : first.text? = second.text?
  hidden : first.hidden = second.hidden
  isName : first.isName = second.isName

theorem keeps_key (hrecur : pairing.KeepsParts recur) (inClass : Bool) :
    pairing.Keeps false true (key recur context inClass) (key recur context inClass)
      Key.Alike := by
  intro token
  unfold key
  refine follows_line fun line line' => follows_current ?_
  split
  · exact follows_next fun _ => follows_return ⟨rfl, rfl, rfl⟩ fun _ => rfl
  · exact follows_next fun _ => follows_return ⟨rfl, rfl, rfl⟩ fun _ => rfl
  · refine follows_when (stays_report line line') ?_
    exact follows_next fun _ => follows_return ⟨rfl, rfl, rfl⟩ fun _ => rfl
  · refine follows_ite (fun _ => ?_) fun _ => follows_fail
    exact follows_next fun _ => follows_return ⟨rfl, rfl, rfl⟩ fun _ => rfl
  · refine follows_next fun _ => ?_
    refine (keeps_value hrecur).bind fun _ _ _ _ => ?_
    exact follows_expect fun _ => follows_return ⟨rfl, rfl, rfl⟩ (by decide)
  · exact follows_fail

/-! ## Patterns -/

theorem keeps_binding_element (hrecur : pairing.KeepsParts recur) :
    pairing.Keeps false true (bindingElement recur context) (bindingElement recur context)
      Term.Alike := by
  intro token
  unfold bindingElement
  refine (hrecur.binding context).bind fun term term' token hterm => ?_
  exact (keeps_initializer hrecur).bind_settled fun _ _ _ _ => follows_return hterm id

/-- The names are the same. -/
abbrev SameNames (names names' : List BoundName) : Prop :=
  names.map BoundName.text = names'.map BoundName.text

theorem SameNames.append {names names' more more' : List BoundName} (h : SameNames names names')
    (hmore : SameNames more more') : SameNames (names ++ more) (names' ++ more') := by
  rw [SameNames, List.map_append, List.map_append, h, hmore]

theorem bound_pattern_alike (line line' : Nat) {names names' : List BoundName}
    (h : SameNames names names') :
    (boundPattern line names).Alike (boundPattern line' names') where
  form := rfl
  isTarget := rfl
  patternFault := rfl
  bindingFault := rfl
  names := h
  coverFault := rfl

theorem keeps_array_pattern (hrecur : pairing.KeepsParts recur) (line line' : Nat) :
    pairing.Keeps false true (arrayPattern recur context line) (arrayPattern recur context line')
      Term.Alike := by
  unfold arrayPattern
  refine keeps_repeat SameNames (fun names names' token hnames => ?_) _ rfl
  refine follows_accepts (fun _ => ?_) fun _ => ?_
  · exact follows_done (bound_pattern_alike line line' hnames) (by decide)
  refine follows_accepts (fun _ => follows_again hnames nofun) fun _ => ?_
  refine follows_accepts (fun _ => ?_) fun _ => ?_
  · refine (hrecur.binding context).bind fun term term' _ hterm => ?_
    refine follows_expect fun _ => ?_
    exact follows_done (bound_pattern_alike line line' (hnames.append hterm.names)) (by decide)
  refine (keeps_binding_element hrecur).bind fun term term' _ hterm => ?_
  exact follows_separator fun _ _ _ => follows_again (hnames.append hterm.names) nofun

theorem keeps_field_pattern (hrecur : pairing.KeepsParts recur) :
    pairing.Keeps false true (fieldPattern recur context) (fieldPattern recur context)
      Term.Alike := by
  intro token
  unfold fieldPattern
  refine (keeps_key hrecur false).bind fun field field' token hfield => follows_sees ?_
  rw [hfield.isName, hfield.text]
  refine follows_ite (fun _ => ?_) fun _ => ?_
  · have hname := term_of_name_alike context.strict (field'.text?.getD "") field.line field'.line
    refine (stays_check_name _ _ _).bind fun _ _ _ => ?_
    refine follows_when_iff (by rw [hname.isTarget]) (stays_report _ _) ?_
    exact (keeps_initializer hrecur).bind_settled fun _ _ _ _ => follows_return hname id
  · exact follows_expect fun _ => (keeps_binding_element hrecur).of_unsettled _

theorem keeps_object_pattern (hrecur : pairing.KeepsParts recur) (line line' : Nat) :
    pairing.Keeps false true (objectPattern recur context line)
      (objectPattern recur context line') Term.Alike := by
  unfold objectPattern
  refine keeps_repeat SameNames (fun names names' token hnames => ?_) _ rfl
  refine follows_accepts (fun _ => ?_) fun _ => ?_
  · exact follows_done (bound_pattern_alike line line' hnames) (by decide)
  refine follows_accepts (fun _ => ?_) fun _ => ?_
  · refine keeps_binding_name.bind fun term term' _ hterm => ?_
    refine follows_expect fun _ => ?_
    exact follows_done (bound_pattern_alike line line' (hnames.append hterm.names)) (by decide)
  refine (keeps_field_pattern hrecur).bind fun term term' _ hterm => ?_
  exact follows_separator fun _ _ _ => follows_again (hnames.append hterm.names) nofun

theorem keeps_binding (hrecur : pairing.KeepsParts recur) :
    pairing.Keeps false true (binding recur context) (binding recur context) Term.Alike := by
  intro token
  unfold binding
  refine follows_line fun line line' => ?_
  refine follows_accepts (fun _ => (keeps_array_pattern hrecur line line').of_unsettled _)
    fun _ => ?_
  exact follows_accepts (fun _ => (keeps_object_pattern hrecur line line').of_unsettled _)
    fun _ => keeps_binding_name _

end TemplateBundle.Script
