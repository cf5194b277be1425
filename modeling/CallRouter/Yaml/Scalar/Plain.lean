import CallRouter.Yaml.Scalar.Gap

/-!
Plain scalars: texts without quotes. A colon before a gap ends one, as does a number sign after a
gap. Within brackets a comma or a bracket ends it too, and outside them a line that is not indented
far enough.
-/

namespace CallRouter.Yaml.Plain

def isFlowMark (c : Char) : Bool := c == ',' || c == '[' || c == ']' || c == '{' || c == '}'

def endsAtGap (inFlow : Bool) (indent : Nat) (gap : Gap) (chars : List Char) : Bool :=
  !gap.isEmpty &&
    ((!inFlow && gap.endsBefore indent) || (gap.endsBefore 1 && startsBoundary chars) ||
      chars.head? == some '#')

def isMisplaced : List Char → Bool
  | [] => false
  | c :: _ => c == '?' || isFlowMark c

structure Ending where
  text : List Char
  endsLine : Bool
  rest : List Char

/--
Reads on to the end of a scalar whose lines are indented by at least `indent`, from the reverse of
the text before the gap. A tab may not take part in indentation.
-/
def read (inFlow : Bool) (indent : Nat) (text : List Char) (gap : Gap) :
    List Char → Option Ending
  | [] => some ⟨text.reverse, gap.endsLine, []⟩
  | c :: rest =>
    if isBlank c then
      if c = '\t' && gap.endsBefore indent then none
      else read inFlow indent text (gap.addBlank c) rest
    else if isBreak c then read inFlow indent text (gap.addBreak c) rest
    else if endsAtGap inFlow indent gap (c :: rest) || (c = ':' && endsWord rest) ||
        (inFlow && isFlowMark c) then
      some ⟨text.reverse, gap.endsLine, c :: rest⟩
    else if inFlow && c = ':' && isMisplaced rest then none
    else read inFlow indent (c :: gap.text.reverse ++ text) .empty rest

end CallRouter.Yaml.Plain
