import TemplateBundle.Template.Compile

/-!
# The layout of a template

A template lays out as stretches of text and values, with code that is run between them. From the
layout the statements of the function can be written directly, without empty appends
(`Layout.write`).
-/

namespace TemplateBundle.Template

/-- The literal for a text, without its quotes. -/
def escapeText (text : List Char) : List Char :=
  text.flatMap escapeChar

/-! ## Layouts -/

/-- A value in a sum, with the literal behind it. -/
structure Summand where
  /-- Markup characters of the value are escaped. -/
  isEscaped : Bool
  code : List Char
  literal : List Char

/-- A stretch of a template without code that is run: a literal, then values with literals. -/
structure Stretch where
  first : List Char
  sum : List Summand

/-- The stretches of a template, with the code that is run in front of each but the first. -/
structure Layout where
  start : Stretch
  others : List (List Char × Stretch)

/-- Lay out the pieces of a template. Texts that meet are one literal. -/
def layout : List Piece → Layout
  | [] => ⟨⟨[], []⟩, []⟩
  | .text chars :: pieces =>
      let ⟨⟨first, sum⟩, others⟩ := layout pieces
      ⟨⟨chars ++ first, sum⟩, others⟩
  | .code .escape code :: pieces =>
      let ⟨⟨first, sum⟩, others⟩ := layout pieces
      ⟨⟨[], ⟨true, code, first⟩ :: sum⟩, others⟩
  | .code .interpolate code :: pieces =>
      let ⟨⟨first, sum⟩, others⟩ := layout pieces
      ⟨⟨[], ⟨false, code, first⟩ :: sum⟩, others⟩
  | .code .evaluate code :: pieces =>
      let ⟨stretch, others⟩ := layout pieces
      ⟨⟨[], []⟩, (code, stretch) :: others⟩

/-- The template has code that is run. -/
def Layout.evaluates (layout : Layout) : Bool :=
  !layout.others.isEmpty

/-! ## Writing a layout -/

/-- The expression for a value. -/
def Summand.value (summand : Summand) : List Char :=
  if summand.isEscaped then "__e(".toList ++ summand.code ++ ")".toList
  else "((__t = (".toList ++ summand.code ++ ")) == null ? '' : __t)".toList

/-- A text as a literal. -/
def quoted (text : List Char) : List Char :=
  "'".toList ++ escapeText text ++ "'".toList

/-- The literal behind the last value can be left out: it is empty, and the value stands on one line
or is not escaped. -/
def Summand.isOpen (summand : Summand) : Bool :=
  summand.literal.isEmpty && !(summand.isEscaped && summand.code.contains '\n')

/-- The operands of a sum. -/
def operands : List Summand → List (List Char)
  | [] => []
  | [last] => if last.isOpen then [last.value] else [last.value, quoted last.literal]
  | summand :: others => summand.value :: quoted summand.literal :: operands others

/-- The statement for a stretch. Where code is run, nothing is written for nothing. -/
def Stretch.write (evaluates : Bool) (stretch : Stretch) : List Char :=
  match stretch.sum with
  | [] =>
      if evaluates && stretch.first.isEmpty then []
      else "__p += ".toList ++ quoted stretch.first ++ ";".toList
  | sum =>
      "__p +=".toList ++
        (if stretch.first.isEmpty then [] else " ".toList ++ quoted stretch.first ++ " +".toList) ++
        "\n".toList ++ List.intercalate " +\n".toList (operands sum) ++ ";".toList

/-- The stretches of a layout as they are written in some way, with the code that is run between
them. -/
def Layout.text (layout : Layout) (write : Stretch → List Char) : List Char :=
  write layout.start ++ layout.others.flatMap fun item => item.1 ++ ";\n".toList ++ write item.2

/-- The statements for a layout, each on lines of its own. -/
def Layout.write (layout : Layout) : List Char :=
  layout.text fun stretch => stretch.write layout.evaluates ++ "\n".toList

/-- The function with the statements of a layout. Without a variable they stand in a block in which
the fields of the parameter have names. -/
def Layout.functionText (dataName : Option String) (layout : Layout) : List Char :=
  match dataName with
  | some name =>
      "function(".toList ++ name.toList ++ ") \x7b\n".toList ++ declarations layout.evaluates ++
        layout.write ++ "return __p\n\x7d".toList
  | none =>
      "function(obj) \x7b\nobj || (obj = \x7b\x7d);\n".toList ++ declarations layout.evaluates ++
        "with (obj) \x7b\n".toList ++ layout.write ++ "\n\x7d\n".toList ++
        "return __p\n\x7d".toList

end TemplateBundle.Template
