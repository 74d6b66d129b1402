import TemplateBundle.Text.WhiteSpace

/-!
# Rules for template content

What is done to the text of a template before it is compiled: white space between two tags is
dropped, then white space around the whole text.
-/

namespace TemplateBundle

/-- The rules for the text of a template. -/
structure ContentRules where
  /-- Drop white space around the text. -/
  trim : Bool := false
  /-- Drop white space between a `>` and a `<`. -/
  collapse : Bool := false
  deriving DecidableEq, Repr, Inhabited

namespace ContentRules

/-- No rule is set. -/
def isIdentity (rules : ContentRules) : Bool :=
  rules == {}

/-- The rest of the text behind white space and a `<`, if at least one character of white space
comes first. -/
def afterGap? (text : List Char) : Option (List Char) :=
  match text with
  | [] => none
  | c :: _ =>
      if Text.isWhite c then
        match text.dropWhile Text.isWhite with
        | '<' :: rest => some rest
        | _ => none
      else none

/-- What follows a gap is shorter than the text with the gap. -/
theorem length_afterGap? {text rest : List Char} (h : afterGap? text = some rest) :
    rest.length < text.length := by
  unfold afterGap? at h
  split at h
  · simp at h
  · rename_i c tail
    split at h
    · have bound := (List.dropWhile_sublist Text.isWhite (l := c :: tail)).length_le
      split at h
      · rename_i found
        rw [found] at bound
        simp only [Option.some.injEq] at h
        subst h
        simp only [List.length_cons] at bound ⊢
        omega
      · simp at h
    · simp at h

/-- Drop the white space between every `>` and the `<` after it. The `<` that closes a gap opens
no tag of another gap, so of two gaps in a row that share nothing else both are dropped only if
each has its own `>`. -/
def collapseGaps : List Char → List Char
  | [] => []
  | c :: rest =>
      if c = '>' then
        match _found : afterGap? rest with
        | some after => '>' :: '<' :: collapseGaps after
        | none => c :: collapseGaps rest
      else c :: collapseGaps rest
  termination_by text => text.length
  decreasing_by
    · have := length_afterGap? _found
      simp only [List.length_cons]
      omega
    · simp
    · simp

/-- The text that the rules leave. -/
def apply (rules : ContentRules) (text : String) : String :=
  let text := if rules.collapse then String.ofList (collapseGaps text.toList) else text
  if rules.trim then Text.trim text else text

end ContentRules

end TemplateBundle
