/-
# DependencyAudit.Report.Paint -- coloured text on a terminal

A terminal shows text in a colour between an opening sequence, which lists the codes
of what is wanted, and a resetting one.  Where the text itself has a resetting
sequence, the opening one is repeated after it, so that the rest keeps its colour.
Without colour the text stays as it is (`apply_plain`).
-/
import DependencyAudit.Text.Blank

namespace DependencyAudit

open Text

set_option autoImplicit false

/-- How text is shown. -/
inductive Paint where
  | green
  | yellow
  | red
  | cyan
  | boldGreen
  | boldYellow
  | boldRed
  | boldCyan
  | bold
  | dimmed
deriving Repr, DecidableEq

namespace Paint

/-- The codes of a paint; that of bold text comes before that of a colour. -/
def codes : Paint → String
  | .green => "32"
  | .yellow => "33"
  | .red => "31"
  | .cyan => "36"
  | .boldGreen => "1;32"
  | .boldYellow => "1;33"
  | .boldRed => "1;31"
  | .boldCyan => "1;36"
  | .bold => "1"
  | .dimmed => "2"

def opening (paint : Paint) : List Char :=
  '\x1b' :: '[' :: paint.codes.toList ++ ['m']

def reset : List Char :=
  ['\x1b', '[', '0', 'm']

/-- Puts an opening sequence after each resetting one. -/
def reopen (opening : List Char) : Nat → List Char → List Char
  | 0, cs => cs
  | _ + 1, [] => []
  | budget + 1, c :: rest =>
      match after? reset (c :: rest) with
      | some after => reset ++ opening ++ reopen opening budget after
      | none => c :: reopen opening budget rest

/-- Text in a paint, if colours are wanted. -/
def apply (paint : Paint) (colored : Bool) (text : String) : String :=
  if colored then
    String.ofList
      (paint.opening ++ reopen paint.opening text.toList.length text.toList ++ reset)
  else text

/-- Without colours text stays as it is. -/
theorem apply_plain (paint : Paint) (text : String) : paint.apply false text = text := rfl

end Paint

end DependencyAudit
