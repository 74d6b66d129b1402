import Mathlib.Data.List.TakeWhile
import Mathlib.Tactic.SplitIfs
import TemplateBundle.Command.Arguments

/-!
# Arguments that are read back

Options may be written in one word each, with their values behind an equals sign, and the other
words behind `--`. Such words are read as what they were written for (`read_value_word`,
`read_switch_word`, `read_words_behind`), whatever characters the values have.
-/

namespace TemplateBundle.Command

/-- The word for an option with a value. -/
def valueWord (name value : String) : String :=
  "--" ++ name ++ "=" ++ value

/-- The word for an option without a value. -/
def switchWord (name : String) : String :=
  "--" ++ name

/-- The words for an option that may be given. -/
def valueWords (name : String) (value : Option String) : List String :=
  value.toList.map (valueWord name)

/-- The words for an option without a value that may be given. -/
def switchWords (name : String) (isGiven : Bool) : List String :=
  if isGiven then [switchWord name] else []

namespace Arguments

variable {shape : ArgumentShape} {option : OptionShape} {arguments : Arguments}
  {words : List String}

/-- What was given, with one more option if it has a value. -/
def withOption (arguments : Arguments) (name : String) (value : Option String) : Arguments :=
  { arguments with options := (value.toList.map fun value => (name, value)) ++ arguments.options }

@[simp] theorem words_with_option (name : String) (value : Option String) :
    (arguments.withOption name value).words = arguments.words := rfl

@[simp] theorem value_with_option (name other : String) (value : Option String) :
    (arguments.withOption name value).value? other =
      if other = name then value <|> arguments.value? other else arguments.value? other := by
  unfold withOption value?
  cases value with
  | none => split_ifs <;> rfl
  | some value =>
      split_ifs with h
      · simp [h]
      · simp [List.lookup_cons, beq_false_of_ne h]

theorem add_option_eq {value : String} (hnew : arguments.value? option.name = none)
    (htext : option.needsText = true → value ≠ "") :
    arguments.addOption option value = .ok (arguments.withOption option.name (some value)) := by
  unfold addOption has
  have hlookup : arguments.options.lookup option.name = none := hnew
  rw [hlookup, if_neg]
  · rfl
  · simpa using htext

/-- The name of an option is written without an equals sign and has a letter. -/
structure IsName (name : String) : Prop where
  equals : '=' ∉ name.toList
  ne : name ≠ ""

theorem IsName.all_kept {name : String} (h : IsName name) :
    ∀ c ∈ name.toList, (c != '=') = true := by
  intro c hc
  rw [bne_iff_ne]
  rintro rfl
  exact h.equals hc

theorem toList_value_word (name value : String) :
    (valueWord name value).toList = '-' :: '-' :: (name.toList ++ '=' :: value.toList) := by
  have hmarks : "--".toList = ['-', '-'] ∧ "=".toList = ['='] := by decide
  simp [valueWord, String.toList_append, hmarks.1, hmarks.2]

theorem toList_switch_word (name : String) :
    (switchWord name).toList = '-' :: '-' :: name.toList := by
  have hmark : "--".toList = ['-', '-'] := by decide
  simp [switchWord, String.toList_append, hmark]

/-- An option with a value is read as itself. -/
theorem read_value_word (hname : IsName option.name)
    (hfound : (shape.options.find? fun other => other.name == option.name) = some option)
    (hvalue : option.takesValue = true) (value : String)
    (hnew : arguments.value? option.name = none)
    (htext : option.needsText = true → value ≠ "") :
    read shape (valueWord option.name value :: words) arguments =
      read shape words (arguments.withOption option.name (some value)) := by
  have htoList := toList_value_word option.name value
  have hseparator : valueWord option.name value ≠ "--" := by
    intro h
    have hmark : "--".toList = ['-', '-'] := by decide
    rw [h, hmark] at htoList
    simp at htoList
  have hlooks : looksLikeOption (valueWord option.name value) = true := by
    unfold looksLikeOption
    rw [htoList]
    rfl
  -- the name ends at the first equals sign, which is not part of it
  have htake : (option.name.toList ++ '=' :: value.toList).takeWhile (· != '=') =
      option.name.toList := by
    rw [List.takeWhile_append_of_pos hname.all_kept]
    simp
  have hdrop : (option.name.toList ++ '=' :: value.toList).dropWhile (· != '=') =
      '=' :: value.toList := by
    rw [List.dropWhile_append_of_pos hname.all_kept]
    simp
  have hoption : option? shape (valueWord option.name value).toList = .ok (option, some value) := by
    rw [htoList]
    simp only [option?, htake, hdrop, String.ofList_toList, hfound, hvalue, Bool.true_or, if_true]
  rw [read]
  · simp only [hlooks, if_true, hoption, hvalue, Option.getD_some, add_option_eq hnew htext]
  · exact hseparator

/-- An option without a value is read as itself. -/
theorem read_switch_word (hname : IsName option.name)
    (hfound : (shape.options.find? fun other => other.name == option.name) = some option)
    (hvalue : option.takesValue = false) (hneeds : option.needsText = false)
    (hnew : arguments.value? option.name = none) :
    read shape (switchWord option.name :: words) arguments =
      read shape words (arguments.withOption option.name (some "")) := by
  have htoList := toList_switch_word option.name
  have hseparator : switchWord option.name ≠ "--" := by
    intro h
    have hmark : "--".toList = ['-', '-'] := by decide
    rw [h, hmark] at htoList
    simp [hname.ne] at htoList
  have hlooks : looksLikeOption (switchWord option.name) = true := by
    unfold looksLikeOption
    rw [htoList]
    rfl
  have htake : option.name.toList.takeWhile (· != '=') = option.name.toList :=
    List.takeWhile_eq_self_iff.mpr hname.all_kept
  have hdrop : option.name.toList.dropWhile (· != '=') = [] :=
    List.dropWhile_eq_nil_iff.mpr hname.all_kept
  have hoption : option? shape (switchWord option.name).toList = .ok (option, none) := by
    rw [htoList]
    simp only [option?, htake, hdrop, String.ofList_toList, hfound, Option.isNone_none,
      Bool.or_true, if_true]
  rw [read]
  · simp only [hlooks, if_true, hoption, hvalue, Option.getD_none,
      add_option_eq hnew (by simp [hneeds])]
  · exact hseparator

/-- Words behind `--` are none of the options, however they look. -/
theorem read_words_behind (hlimit : shape.limit = none) (htext : shape.needsText = false)
    (words : List String) (arguments : Arguments) :
    read shape ("--" :: words) arguments =
      .ok { arguments with words := arguments.words ++ words } := by
  rw [read]
  induction words generalizing arguments with
  | nil => simp [pure, Except.pure]
  | cons word words ih =>
      have hadd : addWord shape arguments word =
          .ok { arguments with words := arguments.words ++ [word] } := by
        simp [addWord, hlimit, htext]
      rw [List.foldlM_cons, hadd]
      refine (ih _).trans ?_
      simp

end Arguments

end TemplateBundle.Command
