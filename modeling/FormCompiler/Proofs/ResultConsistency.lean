import FormCompiler.Proofs.Lower.Reports
import FormCompiler.Lower.Rules

/-!
# The Fields of Results

A result says whether its value was read from storage, at which address, of which type that address
is, and who owns the value. Assignment, `(# lvalue)` and cleanup each look at some of these fields
and rely on the others to agree with them. They do for every expression (`process_coherent`), so
the check that `Result.isConsistent` makes of them never fails (`process_isConsistent`).

A result is also marked if assignment is not to copy it. Only `(core @ pointer)` gives such a
result, and it is passed on by sequences and expansions: `Yields` says which form a result comes
from.

* `Result.Coherent`: the fields of a result agree.
* `Result.Detached`: the value has no address, and no mark.
* `Lower.Yields`: the result of one form is that of another one.
-/

namespace FormCompiler

/-- The fields of a result agree: there is an address, and a type of it, exactly if the value is an
lvalue; pointers of that type point to the type of the value; and an lvalue is owned elsewhere. -/
structure Result.Coherent (p : Pool) (r : Result) : Prop where
  address : r.address.isSome = r.isLvalue
  addressTy : r.addressTy.isSome = r.isLvalue
  points : ∀ t, r.addressTy = some t → p.pointee? t = some r.ty
  borrowed : r.isLvalue = true → r.borrowed = true

/-- The value has no address, and assignment may copy it. -/
structure Result.Detached (r : Result) : Prop where
  notLvalue : r.isLvalue = false
  noAddress : r.address = none
  noAddressTy : r.addressTy = none
  mayCopy : r.noCopy = false

namespace Result

variable {p p' : Pool} {r : Result}

/-- The check of the address fields says what coherence does, apart from the ownership. -/
theorem isConsistent_iff : r.isConsistent p = true ↔ r.address.isSome = r.isLvalue ∧
    r.addressTy.isSome = r.isLvalue ∧ ∀ t, r.addressTy = some t → p.pointee? t = some r.ty := by
  unfold isConsistent
  cases r.address <;> cases r.addressTy <;> cases r.isLvalue <;> simp

/-- A result is coherent exactly if it passes the check and an lvalue is owned elsewhere. -/
theorem coherent_iff : r.Coherent p ↔
    r.isConsistent p = true ∧ (r.isLvalue = true → r.borrowed = true) := by
  rw [isConsistent_iff]
  constructor
  · intro h
    exact ⟨⟨h.address, h.addressTy, h.points⟩, h.borrowed⟩
  · rintro ⟨⟨haddress, haddressTy, hpoints⟩, hborrowed⟩
    exact ⟨haddress, haddressTy, hpoints, hborrowed⟩

namespace Detached

/-- A new value is detached. -/
theorem new (b : Ir.BlockId) (ty : TypeId) (v : Ir.ValueId) : (Result.new b ty v).Detached :=
  ⟨rfl, rfl, rfl, rfl⟩

/-- Where there is no address, no fields need agree. -/
theorem coherent (h : r.Detached) (p : Pool) : r.Coherent p where
  address := by rw [h.noAddress, h.notLvalue]; rfl
  addressTy := by rw [h.noAddressTy, h.notLvalue]; rfl
  points t ht := by
    rw [h.noAddressTy] at ht
    cases ht
  borrowed hlvalue := by
    rw [h.notLvalue] at hlvalue
    cases hlvalue

/-- A detached value is not marked. -/
theorem not_noCopy (h : r.Detached) : ¬ r.noCopy = true := by
  rw [h.mayCopy]
  exact Bool.false_ne_true

/-- The ownership does not matter. -/
theorem ownedElsewhere (h : r.Detached) : r.ownedElsewhere.Detached :=
  ⟨h.notLvalue, h.noAddress, h.noAddressTy, h.mayCopy⟩

end Detached

/-- A value that was read through a pointer is coherent. -/
theorem coherent_withLvalue {t ty : TypeId} (h : p.pointee? t = some ty) (b : Ir.BlockId)
    (v address : Ir.ValueId) (noCopy : Bool) :
    Result.Coherent p { ((new b ty v).withLvalue address t).ownedElsewhere with noCopy } where
  address := rfl
  addressTy := rfl
  points t' ht := by
    cases ht
    exact h
  borrowed _ := rfl

end Result

namespace Lower

variable {σ : Type} {u u' : Compilation σ} {frame : Frame} {b : Ir.BlockId} {node : NodeId}
  {r : Result}

/-! ## Values without an address -/

/-- An integer is detached. -/
theorem integerToken_detached {text : String} (h : integerToken b node text u = .ok r u') :
    r.Detached := by
  rw [((integerToken_ends .empty b node text u).of_ok h).1]
  exact .new _ _ _

/-- A float is detached. -/
theorem floatToken_detached {text : String} (h : floatToken b node text u = .ok r u') :
    r.Detached := by
  rw [((floatToken_ends .empty b node text u).of_ok h).1]
  exact .new _ _ _

/-- A string is detached. -/
theorem stringToken_detached {text : String} (h : stringToken b text u = .ok r u') :
    r.Detached := by
  rw [((stringToken_ends .empty b text u).of_ok h).1]
  exact .new _ _ _

/-- A truth value is detached. -/
theorem truthValue_detached {value : Bool} (h : truthValue b value u = .ok r u') :
    r.Detached := by
  rw [((truthValue_ends .empty b value u).of_ok h).1]
  exact .new _ _ _

/-- A value that two branches merge in is detached, whatever theirs were. -/
theorem merge_detached {onTrue onFalse : Result}
    (h : merge frame node onTrue onFalse u = .ok r u') : r.Detached := by
  obtain ⟨target, v, m, ir, -, -, rfl, -⟩ := merge_ok h
  exact ⟨rfl, rfl, rfl, rfl⟩

/-! ## The fields agree -/

/-- What is shown of the outputs of derivations: each result is coherent. Those of arguments are
only dropped. -/
def GivesCoherent (p : Pool) : Output → Prop
  | .one r => r.Coherent p
  | .many _ _ => True

/-- A derivation gives a coherent result. -/
theorem Lowers.coherent {task : Task} {es : List Event} {out : Output}
    (h : Lowers frame u b task es u' out) : GivesCoherent u'.context.pool out := by
  induction h with
  | integer kind run => exact (integerToken_detached run).coherent _
  | float kind run => exact (floatToken_detached run).coherent _
  | string kind run => exact (stringToken_detached run).coherent _
  | truth value symbol run => exact (truthValue_detached run).coherent _
  | value symbol notTrue notFalse lookup =>
    exact (Result.Detached.new _ _ _).ownedElsewhere.coherent _
  | slot symbol notTrue notFalse lookup load =>
    exact Result.coherent_withLvalue (Pool.pointee?_pointerTo _ _) _ _ _ false
  | deref core operand points notVoid load drop ih =>
    -- the pool may have grown while the pointer was dropped
    exact Result.coherent_withLvalue ((drop.kept .empty).context.pool.grown.pointee? points) _ _ _ _
  | addressOfDeref core deref inner points notVoid drop ih =>
    exact (Result.Detached.new _ _ _).coherent _
  | addressOf core notDeref inner hasAddress hasType ih =>
    exact (Result.Detached.new _ _ _).ownedElsewhere.coherent _
  | assignCopy core destination points assigned copy call dropValue dropDest run ih ih₁ =>
    exact (truthValue_detached run).coherent _
  | assignMove core destination points assigned noCopy store dropDest run ih ih₁ =>
    exact (truthValue_detached run).coherent _
  | sequence core forms ih => exact ih
  | last form ih => exact ih
  | next form drop forms ih ih₁ => exact ih₁
  | conditional core test isBool drop appendThen appendElse branch thenForm elseForm sameType unify
      merge ih ih₁ ih₂ => exact (merge_detached merge).coherent _
  | call isCall offer arguments lookup call result drop ih =>
    exact (Result.Detached.new _ _ _).coherent _
  | expanded isCall offer form ih => exact ih
  | none => trivial
  | more form arguments ih ih₁ => trivial

/-- The result of every expression passes the check of its address fields, against the types that
there are afterwards. -/
theorem process_isConsistent (h : process frame b node u = .ok r u') :
    r.isConsistent u'.context.pool = true := by
  obtain ⟨es, hes⟩ := process_lowers h
  have hcoherent : r.Coherent u'.context.pool := hes.coherent
  exact (Result.coherent_iff.1 hcoherent).1

/-! ## Where marks come from -/

/-- The result of a task, begun in a unit at a block, is that of a form, begun in another unit at
another block. The task is the form itself, or a sequence that ends with it, or a macro call that
expands to it. -/
inductive Yields (frame : Frame) : Compilation σ → Ir.BlockId → Task → Compilation σ → Ir.BlockId →
    NodeId → Prop
  | here {u : Compilation σ} {b : Ir.BlockId} {node : NodeId} :
      Yields frame u b (.form node) u b node
  | sequence {u v : Compilation σ} {b b' : Ir.BlockId} {node leaf first : NodeId}
      {rest : List NodeId} {marked : Bool} (core : u.IsCore node .sequence (first :: rest) marked)
      (forms : Yields frame u b (.forms first rest) v b' leaf) :
      Yields frame u b (.form node) v b' leaf
  | last {u v : Compilation σ} {b b' : Ir.BlockId} {node leaf : NodeId}
      (form : Yields frame u b (.form node) v b' leaf) :
      Yields frame u b (.forms node []) v b' leaf
  | next {u u₁ u₂ v : Compilation σ} {b b₁ b' : Ir.BlockId} {node following leaf : NodeId}
      {rest : List NodeId} {es es₁ : List Event} {r : Result}
      (form : Lowers frame u b (.form node) es u₁ (.one r)) (drop : Dropped r u₁ es₁ u₂ b₁)
      (forms : Yields frame u₂ b₁ (.forms following rest) v b' leaf) :
      Yields frame u b (.forms node (following :: rest)) v b' leaf
  | expanded {u u₁ v : Compilation σ} {b b' : Ir.BlockId} {node expansion leaf : NodeId}
      {name : String} {argumentNodes : List NodeId} (isCall : u.IsCall node name argumentNodes)
      (offer : Lower.offer node u = .ok (.expanded expansion) u₁)
      (form : Yields frame u₁ b (.form expansion) v b' leaf) :
      Yields frame u b (.form node) v b' leaf

/-- The result of the task comes from a form `(core @ pointer)`. -/
def FromMarkedDeref (frame : Frame) (u : Compilation σ) (b : Ir.BlockId) (task : Task)
    (u' : Compilation σ) (r : Result) : Prop :=
  ∃ v b' leaf pointer es, Yields frame u b task v b' leaf ∧
    v.IsCore leaf .deref [pointer] true ∧ Lowers frame v b' (.form leaf) es u' (.one r)

/-- A marked result comes from a form `(core @ pointer)`. -/
theorem Lowers.fromMarkedDeref {task : Task} {es : List Event} {out : Output}
    (h : Lowers frame u b task es u' out) :
    match out with
    | .one r => r.noCopy = true → FromMarkedDeref frame u b task u' r
    | .many _ _ => True := by
  induction h with
  | integer kind run => exact fun hr => absurd hr (integerToken_detached run).not_noCopy
  | float kind run => exact fun hr => absurd hr (floatToken_detached run).not_noCopy
  | string kind run => exact fun hr => absurd hr (stringToken_detached run).not_noCopy
  | truth value symbol run => exact fun hr => absurd hr (truthValue_detached run).not_noCopy
  | value symbol notTrue notFalse lookup => exact nofun
  | slot symbol notTrue notFalse lookup load => exact nofun
  | deref core operand points notVoid load drop ih =>
    -- this rule takes the mark from the form, and no other rule sets one
    rintro rfl
    exact ⟨_, _, _, _, _, .here, core, .deref core operand points notVoid load drop⟩
  | addressOfDeref core deref inner points notVoid drop ih => exact nofun
  | addressOf core notDeref inner hasAddress hasType ih => exact nofun
  | assignCopy core destination points assigned copy call dropValue dropDest run ih ih₁ =>
    exact fun hr => absurd hr (truthValue_detached run).not_noCopy
  | assignMove core destination points assigned noCopy store dropDest run ih ih₁ =>
    exact fun hr => absurd hr (truthValue_detached run).not_noCopy
  | sequence core forms ih =>
    intro hr
    obtain ⟨v, b', leaf, pointer, es, hyields, hleaf⟩ := ih hr
    exact ⟨v, b', leaf, pointer, es, .sequence core hyields, hleaf⟩
  | last form ih =>
    intro hr
    obtain ⟨v, b', leaf, pointer, es, hyields, hleaf⟩ := ih hr
    exact ⟨v, b', leaf, pointer, es, .last hyields, hleaf⟩
  | next form drop forms ih ih₁ =>
    intro hr
    obtain ⟨v, b', leaf, pointer, es, hyields, hleaf⟩ := ih₁ hr
    exact ⟨v, b', leaf, pointer, es, .next form drop hyields, hleaf⟩
  | conditional core test isBool drop appendThen appendElse branch thenForm elseForm sameType unify
      merge ih ih₁ ih₂ =>
    exact fun hr => absurd hr (merge_detached merge).not_noCopy
  | call isCall offer arguments lookup call result drop ih => exact nofun
  | expanded isCall offer form ih =>
    intro hr
    obtain ⟨v, b', leaf, pointer, es, hyields, hleaf⟩ := ih hr
    exact ⟨v, b', leaf, pointer, es, .expanded isCall offer hyields, hleaf⟩
  | none => trivial
  | more form arguments ih ih₁ => trivial

/-- The fields of the result of every expression agree, and it is marked only if it comes from a
form `(core @ pointer)`. -/
theorem process_coherent (h : process frame b node u = .ok r u') :
    r.Coherent u'.context.pool ∧
      (r.noCopy = true → FromMarkedDeref frame u b (.form node) u' r) := by
  obtain ⟨es, hes⟩ := process_lowers h
  exact ⟨hes.coherent, hes.fromMarkedDeref⟩

/-- A session with a variable `p` of type `(p int)`, a macro `m` for which `(m x)` stands for `x`,
and the form `(do true (m (core @ p)))`. -/
def markedSession : Compilation PUnit where
  forest := ⟨#[⟨.token ⟨.symbol, ⟨1⟩⟩, .dummy⟩, ⟨.token ⟨.symbol, ⟨2⟩⟩, .dummy⟩,
    ⟨.token ⟨.symbol, ⟨3⟩⟩, .dummy⟩, ⟨.token ⟨.symbol, ⟨4⟩⟩, .dummy⟩,
    ⟨.token ⟨.symbol, ⟨5⟩⟩, .dummy⟩, ⟨.token ⟨.symbol, ⟨6⟩⟩, .dummy⟩,
    ⟨.list [⟨3⟩, ⟨4⟩, ⟨5⟩], .dummy⟩, ⟨.list [⟨2⟩, ⟨6⟩], .dummy⟩,
    ⟨.list [⟨0⟩, ⟨1⟩, ⟨7⟩], .dummy⟩], ⟨#["", "do", "true", "m", "core", "@", "p"]⟩⟩
  context := (Context.openSession "scratch" [⟨"p", ⟨21⟩, false⟩] .void .internal
    ((Context.start .standard).withPool ((Context.start .standard).pool.pointerTo .int).2)).2
  memory := ⟨⟩
  expander := Rule.expander [⟨some "m", some 1, .replace (.argument 0)⟩]
  maxExpansions := 128

/-- The form gives an `int` read through `p`, marked as it comes from `(core @ p)`. -/
theorem coherent_markedSession :
    ∃ r u', process ⟨⟨0⟩, ⟨[("p", ⟨⟨21⟩, .value ⟨0⟩⟩)]⟩⟩ ⟨0⟩ ⟨8⟩ markedSession = .ok r u' ∧
      r.ty = .int ∧ r.address = some ⟨0⟩ ∧ r.noCopy = true ∧ r.Coherent u'.context.pool ∧
      FromMarkedDeref ⟨⟨0⟩, ⟨[("p", ⟨⟨21⟩, .value ⟨0⟩⟩)]⟩⟩ markedSession ⟨0⟩ (.form ⟨8⟩) u' r := by
  have hrun : Ends (process ⟨⟨0⟩, ⟨[("p", ⟨⟨21⟩, .value ⟨0⟩⟩)]⟩⟩ ⟨0⟩ ⟨8⟩) markedSession
      (fun r _ => r.ty = .int ∧ r.address = some ⟨0⟩ ∧ r.noCopy = true) fun _ => False := by
    unfold Ends
    decide +kernel
  cases h : process ⟨⟨0⟩, ⟨[("p", ⟨⟨21⟩, .value ⟨0⟩⟩)]⟩⟩ ⟨0⟩ ⟨8⟩ markedSession with
  | error e u' => exact (hrun.of_error h).elim
  | ok r u' =>
    obtain ⟨hty, haddress, hnoCopy⟩ := hrun.of_ok h
    obtain ⟨hcoherent, hfrom⟩ := process_coherent h
    exact ⟨r, u', rfl, hty, haddress, hnoCopy, hcoherent, hfrom hnoCopy⟩

end Lower

end FormCompiler
