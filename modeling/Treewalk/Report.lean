import Treewalk.Diagnostic

/-! # Reports

A diagnostic made ready to be shown together with its source: a code that names its phase, and a
label on the part of the source that it is about. -/

namespace Treewalk

/-- A label on some bytes of a source. -/
structure Label where
  text : String
  offset : Nat
  length : Nat
deriving DecidableEq, Repr

/-- A diagnostic as it is shown. -/
structure Report where
  phase : Phase
  code : String
  text : String
  labels : List Label
deriving DecidableEq

/-- The code of a phase. -/
def Phase.code : Phase → String
  | lexical => "luria::lexical"
  | syntactic => "luria::syntax"
  | runtime => "luria::runtime"

/-- What a label says about the part of the source that a phase blames. -/
def Phase.labelText : Phase → String
  | lexical => "not part of the language"
  | syntactic => "here"
  | runtime => "while evaluating this"

/-- Makes a diagnostic ready to be shown. -/
def Diagnostic.report (d : Diagnostic) : Report where
  phase := d.phase
  code := d.phase.code
  text := d.text
  labels := [⟨d.phase.labelText, d.span.start, d.span.length⟩]

end Treewalk
