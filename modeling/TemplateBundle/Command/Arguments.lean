/-!
# Arguments

Reading the words behind the name of a command: options with and without values, in any order, and
the other words. `--` ends the options.
-/

namespace TemplateBundle.Command

/-- An option. -/
structure OptionShape where
  name : String
  letter : Option Char := none
  takesValue : Bool := false
  /-- The value may not be empty. -/
  needsText : Bool := false
  deriving Repr

/-- What a command takes. -/
structure ArgumentShape where
  options : List OptionShape
  /-- How many words it takes beside the options, if there is a limit. -/
  limit : Option Nat := none
  /-- The words may not be empty. -/
  needsText : Bool := false
  deriving Repr

/-- What was given to a command. -/
structure Arguments where
  options : List (String × String) := []
  words : List String := []
  deriving Repr, Inhabited

/-- Why there is no command to run. -/
inductive UsageFault where
  /-- The words ask how the program is used. -/
  | help
  /-- The words ask for the version of the program. -/
  | version
  | wrong
  deriving DecidableEq, Repr

namespace Arguments

/-- An option was given. -/
def has (arguments : Arguments) (name : String) : Bool :=
  (arguments.options.lookup name).isSome

/-- The value of an option. -/
def value? (arguments : Arguments) (name : String) : Option String :=
  arguments.options.lookup name

/-- The word has the form of an option. -/
def looksLikeOption (word : String) : Bool :=
  match word.toList with
  | '-' :: _ :: _ => true
  | _ => false

/-- Add an option, which may be given once. -/
def addOption (arguments : Arguments) (option : OptionShape) (value : String) :
    Except UsageFault Arguments :=
  if arguments.has option.name || (option.needsText && value.isEmpty) then .error .wrong
  else .ok { arguments with options := (option.name, value) :: arguments.options }

/-- Add a word. -/
def addWord (shape : ArgumentShape) (arguments : Arguments) (word : String) :
    Except UsageFault Arguments :=
  let isFull := match shape.limit with
    | some limit => limit ≤ arguments.words.length
    | none => false
  if isFull || (shape.needsText && word.isEmpty) then .error .wrong
  else .ok { arguments with words := arguments.words ++ [word] }

/-- An option as written: the shape of the option, and the value that is written with it. -/
def option? (shape : ArgumentShape) (word : List Char) :
    Except UsageFault (OptionShape × Option String) :=
  let valueOf := fun (rest : List Char) =>
    match rest with
    | [] => none
    | '=' :: value => some (String.ofList value)
    | value => some (String.ofList value)
  match word with
  | '-' :: '-' :: written =>
      let name := String.ofList (written.takeWhile (· != '='))
      let value := valueOf (written.dropWhile (· != '='))
      match shape.options.find? fun option => option.name == name with
      | some option =>
          if option.takesValue || value.isNone then .ok (option, value) else .error .wrong
      | none => .error (if name = "help" ∧ value.isNone then .help else .wrong)
  | '-' :: letter :: rest =>
      match shape.options.find? fun option => option.letter == some letter with
      | some option => .ok (option, valueOf rest)
      | none => .error (if letter = 'h' then .help else .wrong)
  | _ => .error .wrong

/-- Read words. -/
def read (shape : ArgumentShape) : List String → Arguments → Except UsageFault Arguments
  | [], arguments => .ok arguments
  | "--" :: words, arguments => words.foldlM (addWord shape) arguments
  | word :: words, arguments =>
      if looksLikeOption word then
        match option? shape word.toList with
        | .error fault => .error fault
        | .ok (option, written) =>
            match option.takesValue, written, words with
            | true, none, value :: words =>
                if looksLikeOption value then .error .wrong
                else
                  match arguments.addOption option value with
                  | .ok arguments => read shape words arguments
                  | .error fault => .error fault
            | true, none, [] => .error .wrong
            | _, _, words =>
                match arguments.addOption option (written.getD "") with
                | .ok arguments => read shape words arguments
                | .error fault => .error fault
      else
        match addWord shape arguments word with
        | .ok arguments => read shape words arguments
        | .error fault => .error fault

end Arguments

end TemplateBundle.Command
