/-!
# Spans

Positions in a source text are byte offsets into its UTF-8 form.
-/

namespace StoreScheme

/-- The bytes from `start` up to, and not including, `stop`. -/
structure Span where
  start : Nat
  stop : Nat
deriving Repr, DecidableEq, Inhabited

namespace Span

def isEmpty (s : Span) : Bool := s.stop ≤ s.start

/-- From the start of one span to the end of another. -/
def through (s t : Span) : Span := ⟨s.start, t.stop⟩

end Span

end StoreScheme
