import BooleanSearch.Text.Basic

/-!
# Chains of causes

A fault is reported as a chain of texts, the outermost first: each entry is explained by the next.
A chain is written on one line, or as a report with the causes below it.
-/

namespace BooleanSearch

/-- The texts of a fault and of what caused it, outermost first. -/
abbrev Causes := List Text

namespace Causes

/-- The chain on one line. -/
def inline (chain : Causes) : Text := [':', ' '].intercalate chain

/-- A numbered cause starts with its number, right-aligned in five columns. -/
private def numberLabel (n : Nat) : Text :=
  let digits := Text.decimal n
  List.replicate (5 - digits.length) ' ' ++ digits ++ [':', ' ']

/-- A cause below its report: the label before the first line, and the other lines set in. -/
private def indented (label margin : Text) (cause : Text) : Text :=
  label ++ ('\n' :: margin).intercalate (Text.splitAt '\n' cause)

/-- The causes of a report: a single one is set in by four columns, several are numbered. -/
def listed : Causes → Text
  | [] => []
  | [cause] => '\n' :: indented (List.replicate 4 ' ') (List.replicate 4 ' ') cause
  | causes =>
    causes.zipIdx.flatMap fun (cause, n) =>
      '\n' :: indented (numberLabel n) (List.replicate 7 ' ') cause

/-- The chain as a report: the outermost text, then the causes if there are any. -/
def report : Causes → Text
  | [] => []
  | [fault] => fault
  | fault :: causes => fault ++ "\n\nCaused by:".toList ++ listed causes

end Causes

end BooleanSearch
