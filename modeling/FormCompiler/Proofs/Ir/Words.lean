import FormCompiler.Proofs.Ir.Semantics
import Mathlib.Logic.Function.Basic

/-!
# Machines over Words

Machines whose integers are words of one width: what comparisons and aggregates of words are. All
else, such as memory, calls and what an undefined value is, is left to another machine.

* `WordDatum`: a word, a truth value or an aggregate.
* `IntPredicate.holds`: what a predicate says of two words.
* `Machine.overWords`: a machine with these comparisons and aggregates.
-/

namespace FormCompiler.Ir

/-- A value of a machine with integers of this width. -/
inductive WordDatum (width : Nat) where
  | word (x : BitVec width)
  | truth (value : Bool)
  | aggregate (fields : Nat → WordDatum width)

variable {width : Nat}

namespace WordDatum

/-- The field at an index. -/
def field : WordDatum width → Nat → WordDatum width
  | .aggregate fields, index => fields index
  | d, _ => d

/-- The aggregate with another field at an index. -/
def insert (d e : WordDatum width) (index : Nat) : WordDatum width :=
  .aggregate (Function.update d.field index e)

/-- What was inserted is taken out, whatever it was inserted into. -/
@[simp]
theorem field_insert_self (d e : WordDatum width) (index : Nat) :
    (d.insert e index).field index = e :=
  Function.update_self ..

end WordDatum

namespace IntPredicate

/-- What the predicate says of two words, which the signed predicates read in two's complement. -/
def holds (x y : BitVec width) : IntPredicate → Bool
  | eq => x == y
  | ne => x != y
  | slt => x.slt y
  | sle => x.sle y
  | sgt => y.slt x
  | sge => y.sle x
  | ult => x.ult y
  | ule => x.ule y
  | ugt => y.ult x
  | uge => y.ule x

end IntPredicate

/-- The comparison of two words. -/
def WordDatum.compare (predicate : IntPredicate) :
    WordDatum width → WordDatum width → WordDatum width
  | .word x, .word y => .truth (predicate.holds x y)
  | _, _ => .truth false

/-- The machine with words for its integers. -/
def Machine.overWords {M : Type} (machine : Machine (WordDatum width) M) :
    Machine (WordDatum width) M :=
  { machine with
    extract := WordDatum.field
    insert := WordDatum.insert
    compare := WordDatum.compare }

/-- The integer that a word is read as. -/
def wordValue (signed : Bool) (x : BitVec width) : Int := if signed then x.toInt else x.toNat

/-- Words that are read as the same integer are the same. -/
theorem wordValue_inj {signed : Bool} {x y : BitVec width} :
    wordValue signed x = wordValue signed y ↔ x = y := by
  unfold wordValue
  cases signed with
  | true => exact BitVec.toInt_inj
  | false => exact Int.natCast_inj.trans BitVec.toNat_inj

end FormCompiler.Ir
