import LogForwarder.Number.Text
import LogForwarder.Yaml.Gap

/-!
# Quoted scalars

A scalar in single quotes holds a quote as two of them; one in double quotes has escapes, and a
line end after a backslash is no part of it. Line ends inside either fold. A line that marks the
start or the end of a document may not stand inside.
-/

namespace LogForwarder.Yaml

/-- The rest of a scalar in single quotes, and what follows it. -/
def readSingle : Gap → List Char → Option (List Char × List Char)
  | _, [] => none
  | gap, c :: rest =>
    if isGap c then readSingle (gap.push c) rest
    else if gap.atLineStart && atDocumentMark (c :: rest) then none
    else if c = '\'' then
      match rest with
      | '\'' :: rest =>
        (readSingle {} rest).map fun (text, rest) => (gap.text ++ '\'' :: text, rest)
      | _ => some (gap.text, rest)
    else (readSingle {} rest).map fun (text, rest) => (gap.text ++ c :: text, rest)

/-- The character that an escape of one character stands for. -/
def escaped? (c : Char) : Option Char :=
  match c with
  | '0' => some '\x00'
  | 'a' => some '\x07'
  | 'b' => some '\x08'
  | 't' | '\t' => some '\t'
  | 'n' => some '\n'
  | 'v' => some '\x0b'
  | 'f' => some '\x0c'
  | 'r' => some '\r'
  | 'e' => some '\x1b'
  | ' ' => some ' '
  | '"' => some '"'
  | '/' => some '/'
  | '\\' => some '\\'
  | 'N' => some '\u0085'
  | '_' => some '\u00a0'
  | 'L' => some '\u2028'
  | 'P' => some '\u2029'
  | _ => none

/-- The character whose code some hexadecimal digits spell. Surrogates are none. -/
def coded? (digits : List Char) : Option Char := do
  let n ← Numeral.ofDigits? 16 digits
  if n < 0xD800 ∨ (0xDFFF < n ∧ n ≤ 0x10FFFF) then some (Char.ofNat n) else none

/-- The rest of a scalar in double quotes, and what follows it. -/
def readDouble : Gap → List Char → Option (List Char × List Char)
  | _, [] => none
  | gap, c :: rest =>
    if isGap c then readDouble (gap.push c) rest
    else if gap.atLineStart && atDocumentMark (c :: rest) then none
    else if c = '"' then some (gap.text, rest)
    else if c = '\\' then
      match rest with
      | [] => none
      | 'x' :: a :: b :: rest => do
        let char ← coded? [a, b]
        (readDouble {} rest).map fun (text, rest) => (gap.text ++ char :: text, rest)
      | 'u' :: a :: b :: c :: d :: rest => do
        let char ← coded? [a, b, c, d]
        (readDouble {} rest).map fun (text, rest) => (gap.text ++ char :: text, rest)
      | 'U' :: a :: b :: c :: d :: e :: f :: g :: h :: rest => do
        let char ← coded? [a, b, c, d, e, f, g, h]
        (readDouble {} rest).map fun (text, rest) => (gap.text ++ char :: text, rest)
      | c :: rest =>
        if isBreak c then
          (readDouble .afterEscape rest).map fun (text, rest) => (gap.text ++ text, rest)
        else do
          let char ← escaped? c
          (readDouble {} rest).map fun (text, rest) => (gap.text ++ char :: text, rest)
    else (readDouble {} rest).map fun (text, rest) => (gap.text ++ c :: text, rest)

end LogForwarder.Yaml
