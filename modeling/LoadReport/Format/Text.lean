import LoadReport.Format.Specification

/-!
# Texts under a specification

A text is cut to the precision and filled up to the width. Everything in a
specification that makes sense for numbers alone is refused. Without a
specification a text stands for itself.
-/

namespace LoadReport
namespace Format

/-- Holds a specification against what texts allow. -/
def checkText (s : Specification) : Except Fault Unit :=
  if s.code ≠ 's' then .error (.unknownCode s.code .text)
  else if s.sign = some ' ' then .error .blankForText
  else if s.sign.isSome then .error .signOfText
  else if s.negativeZero then .error .negativeZeroOfText
  else if s.alternate then .error .alternateText
  else if s.alignment = .split then .error .splitText
  else .ok ()

def writeText (text specification : List Char) : Except Fault (List Char) :=
  if specification.isEmpty then .ok text
  else do
    let s ← Specification.read .text specification
    checkText s
    if maxLength < s.width then .error .tooLong
    else .ok (s.pad (text.take (s.precision.getD text.length)))

end Format
end LoadReport
