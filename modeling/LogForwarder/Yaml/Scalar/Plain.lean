import LogForwarder.Yaml.Gap

/-!
# Unquoted scalars

A scalar without quotes goes on over blanks and line ends until something stands that cannot
belong to it: a colon before a blank, a number sign after one, a line with less indentation, a
mark of a document, and in flow context a comma or a bracket.
-/

namespace LogForwarder.Yaml

/-- Whether a character separates or encloses the entries of a flow collection. -/
def isFlowIndicator (c : Char) : Bool := c ∈ [',', '[', ']', '\x7b', '\x7d']

/-- An unquoted scalar as it is read. -/
structure PlainScalar where
  text : List Char
  rest : List Char
  /-- Whether a line end was passed after the last word. -/
  broken : Bool
  deriving DecidableEq, Repr

/-- Whether an unquoted scalar ends before a word. -/
def endsBeforeWord (inFlow : Bool) (indent : Nat) (gap : Gap) (word : List Char) : Bool :=
  (gap != {} && word.head? == some '#') || (gap.atLineStart && atDocumentMark word) ||
    (!inFlow && gap.column?.any (· < indent))

/-- The rest of an unquoted scalar, whose further lines have at least `indent` columns. In flow
context a colon may not stand right before an indicator. -/
def readPlain (inFlow : Bool) (indent : Nat) : Gap → List Char → Option PlainScalar
  | gap, [] => some ⟨[], [], gap.column?.isSome⟩
  | gap, c :: rest =>
    if isGap c then
      if c == '\t' && gap.column?.any (· < indent) then none
      else readPlain inFlow indent (gap.push c) rest
    else if endsBeforeWord inFlow indent gap (c :: rest) then
      some ⟨[], c :: rest, gap.column?.isSome⟩
    else if inFlow && c == ':' && rest.head?.any (fun d => isFlowIndicator d || d == '?') then none
    else if (c == ':' && atBlankOrEnd rest) || (inFlow && isFlowIndicator c) then
      some ⟨[], c :: rest, gap.column?.isSome⟩
    else
      (readPlain inFlow indent {} rest).map fun scalar =>
        { scalar with text := gap.text ++ c :: scalar.text }

end LogForwarder.Yaml
