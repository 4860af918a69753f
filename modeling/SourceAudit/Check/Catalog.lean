import SourceAudit.Finding

/-!
# The checks there are
-/

namespace SourceAudit

structure CheckInfo where
  kind : CheckKind
  description : Text
  input : Text

def checkCatalog : List CheckInfo := [
  { kind := .copyright
    description := "License header block followed by a blank line"
    input := "*.h, *.cc under include/, src/, test/" },
  { kind := .guards
    description := "#ifndef/#define pair and trailing #endif with path-derived symbol"
    input := "*.h under include/" },
  { kind := .coverage
    description := "Line and function coverage against thresholds"
    input := "coverage summary report" }]

end SourceAudit
