/-!
# Spans

A span is the part of a text between two byte offsets. The first byte belongs to it, the last does not.
-/

namespace Courseware

/-- A half-open range of byte offsets. -/
structure Span where
  start : Nat
  stop : Nat
deriving DecidableEq, Repr

end Courseware
