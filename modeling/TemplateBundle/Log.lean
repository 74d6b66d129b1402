/-!
# Log

What a run reports on the way. Entries are kept in the order in which they are made, also by runs
that fail in the end.
-/

namespace TemplateBundle

/-- How much an entry matters. The order of the constructors goes from most to least. -/
inductive LogLevel where
  | error
  | warn
  | info
  | debug
  | trace
  deriving DecidableEq, Repr, Inhabited

/-- The rank of a level; levels that matter more have lower ranks. -/
def LogLevel.rank : LogLevel → Nat
  | .error => 1
  | .warn => 2
  | .info => 3
  | .debug => 4
  | .trace => 5

/-- The name of a level. -/
def LogLevel.name : LogLevel → String
  | .error => "ERROR"
  | .warn => "WARN"
  | .info => "INFO"
  | .debug => "DEBUG"
  | .trace => "TRACE"

/-- A message with its level. -/
structure LogEntry where
  level : LogLevel
  message : String
  deriving DecidableEq, Repr, Inhabited

/-- The entries so far. -/
abbrev Log := List LogEntry

/-! ## Settings -/

/-- The rank of the level with a name in any case, or of the rank written as a digit; `off` is
below all levels. -/
def LogLevel.rankOf? (written : List Char) : Option Nat :=
  let lower := String.ofList (written.map Char.toLower)
  ["off", "error", "warn", "info", "debug", "trace"].findIdx? (· == lower) <|>
    ["0", "1", "2", "3", "4", "5"].findIdx? (· == lower)

/-- The rule of a setting is a level, or a name of something else that reports, with or without a
level. -/
def Log.isRule (written : List Char) : Bool :=
  let isName := fun (text : List Char) =>
    !text.isEmpty && text.all fun c => c.isAlphanum || c == '_' || c == ':' || c == '-'
  match written.splitOn '=' with
  | [name] => isName name
  | [name, level] => isName name && (level.isEmpty || (LogLevel.rankOf? level).isSome)
  | _ => false

/-- The rank up to which entries are shown. Of the levels in a setting, which stand between commas,
the last one counts, and with rules for others alone nothing is shown. Without a setting, or if one
of its rules makes no sense, entries up to `info` are shown, and with an empty one those up to
`error`. -/
def Log.limit (setting : Option String) : Nat :=
  match setting with
  | none => LogLevel.info.rank
  | some setting =>
      let rules := (setting.toList.splitOn ',').filter fun rule => !rule.isEmpty
      if rules.isEmpty then LogLevel.error.rank
      else if rules.all isRule then ((rules.filterMap LogLevel.rankOf?).getLast?).getD 0
      else LogLevel.info.rank

/-- The lines that a setting shows, each with its level. -/
def Log.shown (setting : Option String) (log : Log) : List String :=
  let shownEntries := log.filter fun entry => entry.level.rank ≤ Log.limit setting
  shownEntries.map fun entry => entry.level.name ++ " " ++ entry.message

/-! ## Reporting -/

/-- A computation that reports and may fail. -/
abbrev Reporting (ε : Type) := ExceptT ε (StateM Log)

namespace Reporting

variable {ε : Type}

/-- Add an entry. -/
def log (level : LogLevel) (message : String) : Reporting ε Unit :=
  modify fun entries => entries ++ [{ level := level, message := message }]

/-- Take over a result that needs no report. -/
def ofExcept {α : Type} (result : Except ε α) : Reporting ε α :=
  liftExcept result

end Reporting

end TemplateBundle
