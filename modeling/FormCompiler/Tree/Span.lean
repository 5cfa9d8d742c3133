/-!
# Source Spans

Byte ranges of the source text of a unit. The span of a compound form covers the spans of its
parts, and `merge` is the smallest span that covers two.
-/

namespace FormCompiler

/-- The byte range from `start` up to but not including `stop`. -/
structure Span where
  start : Nat
  stop : Nat
deriving DecidableEq, Repr, Inhabited

namespace Span

/-- The span of nodes that no source text stands for. -/
def dummy : Span := ⟨0, 0⟩

/-- Number of bytes in the span. -/
def length (s : Span) : Nat := s.stop - s.start

/-- The span holds no byte. -/
def isEmpty (s : Span) : Bool := s.start == s.stop

/-- The span is the one of synthesized nodes. -/
def isDummy (s : Span) : Bool := s.start == 0 && s.stop == 0

/-- The smallest span that covers both. -/
def merge (a b : Span) : Span := ⟨min a.start b.start, max a.stop b.stop⟩

/-- The smallest span that covers all of the spans, or `none` if there are none. -/
def mergeAll? : List Span → Option Span
  | [] => none
  | s :: rest => some (rest.foldl merge s)

/-- Spans are ordered by start, then by end. -/
def le (a b : Span) : Bool := a.start < b.start || (a.start == b.start && a.stop ≤ b.stop)

/-- The strict part of the order. -/
def lt (a b : Span) : Bool := a.start < b.start || (a.start == b.start && a.stop < b.stop)

/-- Text of a span: its ends around two points. -/
def text (s : Span) : String := toString s.start ++ ".." ++ toString s.stop

end Span

end FormCompiler
