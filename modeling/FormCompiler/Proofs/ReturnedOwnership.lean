import FormCompiler.Proofs.Lower.Meaning
import FormCompiler.Proofs.Lower.Reports

/-!
# Who Owns a Returned Value

A call owns the value it gives, and drops its arguments. A body returns the value of its last form
as it is. Nothing is asked about its ownership: if the form lends the value, as a variable does, or
what is read through a pointer, then the caller cleans up a value that is also owned elsewhere.

* `Hands`: whether a form lends its value or gives it away, by how it is processed.
* `Lowers.hands`: this is what its result says.
* `Returned`: how an accepted body returns the value of its last form.
* `defineFunction_returns`: every accepted definition with a value returns it so.
-/

namespace FormCompiler.Lower

open Ir.Module

variable {σ : Type}

/-! ## Who owns the value of a form -/

/-- After a condition the code goes on in two branches. -/
inductive Forks (frame : Frame) (condition : Result) (u : Compilation σ) :
    Ir.BlockId → Ir.BlockId → Compilation σ → Prop
  | intro {es : List Event} {u' : Compilation σ} {b thenEntry elseEntry : Ir.BlockId}
      {m m' ir : Ir.Module} (drop : Dropped condition u es u' b)
      (appendThen : appendBlock frame.func "then" u'.context.ir = (thenEntry, m))
      (appendElse : appendBlock frame.func "else" m = (elseEntry, m'))
      (branch : condBr b condition.value thenEntry elseEntry m' = .ok ⟨⟩ ir) :
      Forks frame condition u thenEntry elseEntry (u'.withIr ir)

/-- Whether a form, or the last of several forms, lends its value or gives it away. -/
inductive Hands (frame : Frame) : Compilation σ → Ir.BlockId → Task → (borrowed : Bool) → Prop
  | literal {u : Compilation σ} {b : Ir.BlockId} {node : NodeId} (text : String)
      (shape : u.shape node ∈ [.integer text, .float text, .string text]) :
      Hands frame u b (.form node) false
  | truth {u : Compilation σ} {b : Ir.BlockId} {node : NodeId} (value : Bool)
      (shape : u.shape node = .truth value) : Hands frame u b (.form node) false
  | read {u : Compilation σ} {b : Ir.BlockId} {node : NodeId} {name : String}
      (shape : u.shape node = .variable name) : Hands frame u b (.form node) true
  | deref {u : Compilation σ} {b : Ir.BlockId} {node : NodeId} {arguments : List NodeId}
      {isMarked : Bool} (core : u.IsCore node .deref arguments isMarked) :
      Hands frame u b (.form node) true
  | pointer {u : Compilation σ} {b : Ir.BlockId} {node operand : NodeId} {arguments : List NodeId}
      {isMarked : Bool} (core : u.IsCore node .addressOf [operand] isMarked)
      (deref : u.IsDeref operand arguments) : Hands frame u b (.form node) false
  | address {u : Compilation σ} {b : Ir.BlockId} {node operand : NodeId} {isMarked : Bool}
      (core : u.IsCore node .addressOf [operand] isMarked)
      (notDeref : ∀ arguments, ¬ u.IsDeref operand arguments) : Hands frame u b (.form node) true
  | assigned {u : Compilation σ} {b : Ir.BlockId} {node : NodeId} {arguments : List NodeId}
      {isMarked : Bool} (core : u.IsCore node .setf arguments isMarked) :
      Hands frame u b (.form node) false
  | sequence {u : Compilation σ} {b : Ir.BlockId} {node first : NodeId} {rest : List NodeId}
      {isMarked borrowed : Bool} (core : u.IsCore node .sequence (first :: rest) isMarked)
      (forms : Hands frame u b (.forms first rest) borrowed) :
      Hands frame u b (.form node) borrowed
  | last {u : Compilation σ} {b : Ir.BlockId} {node : NodeId} {borrowed : Bool}
      (form : Hands frame u b (.form node) borrowed) :
      Hands frame u b (.forms node []) borrowed
  | next {u u₁ u₂ : Compilation σ} {b b₁ : Ir.BlockId} {node following : NodeId}
      {rest : List NodeId} {es es₁ : List Event} {r : Result} {borrowed : Bool}
      (form : Lowers frame u b (.form node) es u₁ (.one r)) (drop : Dropped r u₁ es₁ u₂ b₁)
      (forms : Hands frame u₂ b₁ (.forms following rest) borrowed) :
      Hands frame u b (.forms node (following :: rest)) borrowed
  /-- Branches that differ lend the merged value if there is nothing to own. -/
  | conditional {u u₁ u₂ u₃ u₄ : Compilation σ} {b thenEntry elseEntry : Ir.BlockId}
      {node conditionNode thenNode elseNode : NodeId} {isMarked lendsTrue lendsFalse : Bool}
      {es es₁ es₂ : List Event} {condition first second : Result}
      (core : u.IsCore node .conditional [conditionNode, thenNode, elseNode] isMarked)
      (test : Lowers frame u b (.form conditionNode) es u₁ (.one condition))
      (forks : Forks frame condition u₁ thenEntry elseEntry u₂)
      (thenForm : Lowers frame u₂ thenEntry (.form thenNode) es₁ u₃ (.one first))
      (elseForm : Lowers frame u₃ elseEntry (.form elseNode) es₂ u₄ (.one second))
      (onTrue : Hands frame u₂ thenEntry (.form thenNode) lendsTrue)
      (onFalse : Hands frame u₃ elseEntry (.form elseNode) lendsFalse) :
      Hands frame u b (.form node)
        (if lendsTrue = lendsFalse then lendsTrue else !u₄.context.ownsResources first.ty)
  | call {u u₁ : Compilation σ} {b : Ir.BlockId} {node : NodeId} {name : String}
      {argumentNodes : List NodeId} (isCall : u.IsCall node name argumentNodes)
      (offer : Lower.offer node u = .ok .notApplicable u₁) : Hands frame u b (.form node) false
  | expanded {u u₁ : Compilation σ} {b : Ir.BlockId} {node expansion : NodeId} {name : String}
      {argumentNodes : List NodeId} {borrowed : Bool}
      (isCall : u.IsCall node name argumentNodes)
      (offer : Lower.offer node u = .ok (.expanded expansion) u₁)
      (form : Hands frame u₁ b (.form expansion) borrowed) :
      Hands frame u b (.form node) borrowed

section

variable {frame : Frame} {u u' : Compilation σ} {b : Ir.BlockId} {node : NodeId}
  {r onTrue onFalse : Result}

/-- A truth value is owned. -/
theorem truthValue_owned {value : Bool} (h : truthValue b value u = .ok r u') :
    r.borrowed = false := by
  rw [((truthValue_ends .empty b value u).of_ok h).1]
  rfl

/-- A literal is owned. -/
theorem token_owned {text : String} (frame : Frame) (kind : TokenKind) (hkind : kind ≠ .symbol)
    (h : token frame b node kind text u = .ok r u') : r.borrowed = false := by
  have hnew : r = .new b r.ty r.value := by
    cases kind with
    | integer => exact ((integerToken_ends frame.scope b node text u).of_ok h).1
    | float => exact ((floatToken_ends frame.scope b node text u).of_ok h).1
    | string => exact ((stringToken_ends frame.scope b text u).of_ok h).1
    | symbol => exact absurd rfl hkind
  rw [hnew]
  rfl

/-- The results of two branches keep their ownership if it is the same. Otherwise both are owned if
there is something to own, and else both are borrowed. -/
theorem unifyOwnership_borrowed {onTrue' onFalse' : Result}
    (h : unifyOwnership node onTrue onFalse u = .ok (onTrue', onFalse') u') :
    onTrue'.borrowed = if onTrue.borrowed = onFalse.borrowed then onTrue.borrowed
      else !u.context.ownsResources onTrue.ty := by
  unfold unifyOwnership at h
  split at h
  next hsame =>
    obtain ⟨heq, -⟩ := pure_ok_iff.1 h
    cases heq
    rw [if_pos hsame]
  next hdiffer =>
    obtain ⟨c, u₁, h₁, h⟩ := bind_ok_iff.1 h
    obtain ⟨rfl, rfl⟩ := read_ok_iff.1 h₁
    rw [if_neg hdiffer]
    -- what owns nothing is lent whichever branch did so, and what owns something is copied
    split at h
    next hfree =>
      obtain ⟨heq, -⟩ := pure_ok_iff.1 h
      cases heq
      rw [hfree]
      rfl
    next howns =>
      have howned : onTrue'.borrowed = false := by
        split at h
        next =>
          obtain ⟨copied, u₁, hcopied, h⟩ := bind_ok_iff.1 h
          obtain ⟨heq, -⟩ := pure_ok_iff.1 h
          cases heq
          obtain ⟨_, _, _, _, _, -, -, -, -, rfl⟩ := copyBorrowed_ok hcopied
          rfl
        next hborrowed =>
          obtain ⟨copied, u₁, -, h⟩ := bind_ok_iff.1 h
          obtain ⟨heq, -⟩ := pure_ok_iff.1 h
          cases heq
          exact Bool.eq_false_iff.2 hborrowed
      rw [howned, Bool.of_not_eq_false howns]
      rfl

/-- The result of a form says whether the form lends its value. -/
theorem Lowers.hands {task : Task} {es : List Event} {out : Output}
    (h : Lowers frame u b task es u' out) :
    ∀ r, out = .one r → Hands frame u b task r.borrowed := by
  induction h with
  | @integer u _ _ _ text _ kind run =>
    rintro r ⟨⟩
    rw [token_owned frame .integer (by decide) run]
    exact .literal (u.forest.names.text text) (by simp [Compilation.shape, kind])
  | @float u _ _ _ text _ kind run =>
    rintro r ⟨⟩
    rw [token_owned frame .float (by decide) run]
    exact .literal (u.forest.names.text text) (by simp [Compilation.shape, kind])
  | @string u _ _ node text _ kind run =>
    rintro r ⟨⟩
    rw [token_owned frame .string (by decide) (show token frame _ node _ _ _ = _ from run)]
    exact .literal (u.forest.names.text text) (by simp [Compilation.shape, kind])
  | truth value symbol run =>
    rintro r ⟨⟩
    rw [truthValue_owned run]
    refine .truth value ((Compilation.shape_of_symbol symbol).trans ?_)
    cases value <;> rfl
  | value symbol notTrue notFalse | slot symbol notTrue notFalse =>
    rintro r ⟨⟩
    exact .read ((Compilation.shape_of_symbol symbol).trans
      ((if_neg notTrue).trans (if_neg notFalse)))
  | deref core =>
    rintro r ⟨⟩
    exact .deref core
  | addressOfDeref core deref =>
    rintro r ⟨⟩
    exact .pointer core deref
  | addressOf core notDeref =>
    rintro r ⟨⟩
    exact .address core notDeref
  | assignCopy core _ _ _ _ _ _ _ run =>
    rintro r ⟨⟩
    rw [truthValue_owned run]
    exact .assigned core
  | assignMove core _ _ _ _ _ _ run =>
    rintro r ⟨⟩
    rw [truthValue_owned run]
    exact .assigned core
  | sequence core _ ih => exact fun r hr => .sequence core (ih r hr)
  | last _ ih => exact fun r hr => .last (ih r hr)
  | next form drop _ _ ih => exact fun r hr => .next form drop (ih r hr)
  | conditional core test _ drop appendThen appendElse branch thenForm elseForm _ unify merge _
      ihThen ihElse =>
    rintro r ⟨⟩
    -- the merged value has the ownership of the first branch after the two were unified
    obtain ⟨_, _, _, _, -, -, rfl, -⟩ := merge_ok merge
    dsimp only
    rw [unifyOwnership_borrowed unify]
    exact .conditional core test (.intro drop appendThen appendElse branch) thenForm elseForm
      (ihThen _ rfl) (ihElse _ rfl)
  | call isCall offer =>
    rintro r ⟨⟩
    exact .call isCall offer
  | expanded isCall offer _ ih => exact fun r hr => .expanded isCall offer (ih r hr)
  | none | more => rintro r ⟨⟩

end

/-! ## Bodies -/

/-- The forms of a body gave a result. If the function returns a value, this has its type, and it is
returned as it is at the end of its block, with nothing in between. -/
inductive Returned (func : Ir.FuncId) (params : List (Param × Span)) (returnType : TypeId)
    (first : NodeId) (rest : List NodeId) (u u' : Compilation σ) : Prop
  | intro {entry : Ir.BlockId} {frame : Frame} {u₁ u₂ u₃ : Compilation σ} {es : List Event}
      {r : Result} (entered : onModule (appendBlock func "entry") u = .ok entry u₁)
      (stored : spillParams entry 0 ⟨func, .empty⟩ params u₁ = .ok frame u₂)
      (forms : Lowers frame u₂ entry (.forms first rest) es u₃ (.one r))
      (hands : Hands frame u₂ entry (.forms first rest) r.borrowed)
      (returns : u₃.context.pool.isVoid returnType = false → r.ty = returnType ∧
        ∃ m, Closed r.block (.ret (some r.value)) u₃.context.ir m ∧ u' = u₃.withIr m) :
      Returned func params returnType first rest u u'

section

variable {u u' : Compilation σ} {first : NodeId} {rest : List NodeId} {returnType : TypeId}

/-- The forms of a body have a derivation, like those of a sequence. -/
theorem bodyForms_lowers {frame : Frame} {b : Ir.BlockId} {last : NodeId} {r : Result}
    (h : bodyForms frame b first rest u = .ok (last, r) u') :
    ∃ es, Lowers frame u b (.forms first rest) es u' (.one r) := by
  induction rest generalizing b first u with
  | nil =>
    obtain ⟨r', u₁, hprocess, h⟩ := bind_ok_iff.1 h
    obtain ⟨heq, rfl⟩ := pure_ok_iff.1 h
    cases heq
    obtain ⟨es, hes⟩ := process_lowers hprocess
    exact ⟨_, .last hes⟩
  | cons next rest ih =>
    obtain ⟨r', u₁, hprocess, h⟩ := bind_ok_iff.1 h
    obtain ⟨b', u₂, hdrop, h⟩ := bind_ok_iff.1 h
    obtain ⟨es, hes⟩ := process_lowers hprocess
    obtain ⟨es', hes'⟩ := dropped_of_ok hdrop
    obtain ⟨es'', hes''⟩ := ih h
    exact ⟨_, .next hes hes' hes''⟩

/-- A body that has a value returns it as it is. -/
theorem body_returned {func : Ir.FuncId} {params : List (Param × Span)}
    (h : body func params returnType first rest u = .ok ⟨⟩ u') :
    Returned func params returnType first rest u u' := by
  obtain ⟨entry, u₁, hentered, h⟩ := bind_ok_iff.1 h
  obtain ⟨frame, u₂, hstored, h⟩ := bind_ok_iff.1 h
  obtain ⟨⟨last, r⟩, u₃, hforms, h⟩ := bind_ok_iff.1 h
  obtain ⟨es, hlowers⟩ := bodyForms_lowers hforms
  refine .intro hentered hstored hlowers (hlowers.hands r rfl) fun hvalue => ?_
  -- only the type of the result is compared before it is returned
  obtain ⟨c, u₄, hread, h⟩ := bind_ok_iff.1 h
  obtain ⟨rfl, rfl⟩ := read_ok_iff.1 hread
  rw [if_neg (by simp [hvalue])] at h
  split at h
  next => simp only [bind_ok_iff, fail_ok_iff, and_false, exists_false] at h
  next hty =>
    obtain ⟨m, hret, rfl⟩ := emit_ok_iff.1 h
    exact ⟨not_not.1 hty, m, (ret_ends r.block _ _).of_ok hret, rfl⟩

end

/-- **A body returns its value as it is.** In an accepted definition the last form gives a value of
the return type, and that is what the function returns, also if the form only lends it: no copy is
made, and nothing is refused, as the branches of a conditional would be. -/
theorem defineFunction_returns {u u' : Compilation σ}
    {nameNode bodyNode linkageNode tyNode paramsNode first : NodeId} {name : String}
    {rest : List NodeId}
    (h : defineFunction nameNode name bodyNode
      (linkageNode :: tyNode :: paramsNode :: first :: rest) u = .ok ⟨⟩ u') :
    ∃ (returnType : TypeId) (u₁ : Compilation σ) (params : List Param) (places : List Span)
      (linkage : Ir.Linkage) (func : Ir.FuncId) (u₂ : Compilation σ) (c : Context)
      (u₃ : Compilation σ),
      resolveType tyNode u = .ok returnType u₁ ∧ u.Quiet u₂ ∧
        Context.Declared name params returnType linkage func u₂.context c ∧
        Returned func (params.zip places) returnType first rest (u₂.withContext c) u₃ ∧
        u' = u₃.withIr (finishFunction func u₃.context.ir).2 := by
  obtain ⟨returnType, u₁, params, places, linkage, func, u₂, c, u₃, htype, hquiet, hdeclared, hbody,
    rfl⟩ := defineFunction_ok h
  exact ⟨returnType, u₁, params, places, linkage, func, u₂, c, u₃, htype, hquiet, hdeclared,
    body_returned hbody, rfl⟩

/-! ## A parameter that is returned -/

/-- The forms `(def Handle (struct intern ((fd int))))`,
`(def destroy (fn extern void ((h (p Handle)))))` and
`(def f (fn intern Handle ((h Handle)) h))`. -/
def handleForest : Forest :=
  ⟨#[⟨.token ⟨.symbol, ⟨1⟩⟩, .dummy⟩, ⟨.token ⟨.symbol, ⟨2⟩⟩, .dummy⟩,
    ⟨.token ⟨.symbol, ⟨3⟩⟩, .dummy⟩, ⟨.token ⟨.symbol, ⟨4⟩⟩, .dummy⟩,
    ⟨.token ⟨.symbol, ⟨5⟩⟩, .dummy⟩, ⟨.token ⟨.symbol, ⟨6⟩⟩, .dummy⟩, ⟨.list [⟨4⟩, ⟨5⟩], .dummy⟩,
    ⟨.list [⟨6⟩], .dummy⟩, ⟨.list [⟨2⟩, ⟨3⟩, ⟨7⟩], .dummy⟩, ⟨.list [⟨0⟩, ⟨1⟩, ⟨8⟩], .dummy⟩,
    ⟨.token ⟨.symbol, ⟨7⟩⟩, .dummy⟩, ⟨.token ⟨.symbol, ⟨8⟩⟩, .dummy⟩,
    ⟨.token ⟨.symbol, ⟨9⟩⟩, .dummy⟩, ⟨.token ⟨.symbol, ⟨10⟩⟩, .dummy⟩,
    ⟨.token ⟨.symbol, ⟨11⟩⟩, .dummy⟩, ⟨.token ⟨.symbol, ⟨12⟩⟩, .dummy⟩,
    ⟨.list [⟨15⟩, ⟨1⟩], .dummy⟩, ⟨.list [⟨14⟩, ⟨16⟩], .dummy⟩, ⟨.list [⟨17⟩], .dummy⟩,
    ⟨.list [⟨11⟩, ⟨12⟩, ⟨13⟩, ⟨18⟩], .dummy⟩, ⟨.list [⟨0⟩, ⟨10⟩, ⟨19⟩], .dummy⟩,
    ⟨.token ⟨.symbol, ⟨13⟩⟩, .dummy⟩, ⟨.list [⟨14⟩, ⟨1⟩], .dummy⟩, ⟨.list [⟨22⟩], .dummy⟩,
    ⟨.list [⟨11⟩, ⟨3⟩, ⟨1⟩, ⟨23⟩, ⟨14⟩], .dummy⟩, ⟨.list [⟨0⟩, ⟨21⟩, ⟨24⟩], .dummy⟩],
    ⟨#["", "def", "Handle", "struct", "intern", "fd", "int", "destroy", "fn", "extern", "void",
      "h", "p", "f"]⟩⟩

/-- The unit after the definitions of `Handle` and `destroy` were processed. -/
def handleUnit : Compilation Unit :=
  let unit : Compilation Unit := ⟨handleForest, .start .standard, (), .none, 128⟩
  unit.withContext (final (processTopLevel ⟨20⟩) (final (processTopLevel ⟨9⟩) unit)).context

/-- The forest is not changed by storing parameters. -/
theorem spillParams_forest {b : Ir.BlockId} {index : Nat} {frame frame' : Frame}
    {params : List (Param × Span)} {u u' : Compilation σ}
    (h : spillParams b index frame params u = .ok frame' u') : u'.forest = u.forest := by
  induction params generalizing index frame u with
  | nil =>
    obtain ⟨-, rfl⟩ := pure_ok_iff.1 h
    rfl
  | cons param rest ih =>
    obtain ⟨param, place⟩ := param
    obtain ⟨c, u₁, hread, h⟩ := bind_ok_iff.1 h
    obtain ⟨rfl, rfl⟩ := read_ok_iff.1 hread
    cases hvalue : u.context.ir.param? frame.func index with
    | none => simp only [hvalue, fail_ok_iff] at h
    | some value =>
      rw [hvalue] at h
      obtain ⟨ty, u₁, hty, h⟩ := bind_ok_iff.1 h
      obtain ⟨-, rfl⟩ := onState_ok_iff.1 hty
      obtain ⟨slot, u₂, hslot, h⟩ := bind_ok_iff.1 h
      obtain ⟨c, -, rfl⟩ := onContext_ok_iff.1 hslot
      exact (ih h).trans rfl

/-- A variable is lent. -/
theorem Hands.of_variable {frame : Frame} {u : Compilation σ} {b : Ir.BlockId} {node : NodeId}
    {name : String} {borrowed : Bool} (h : Hands frame u b (.form node) borrowed)
    (hname : u.shape node = .variable name) : borrowed = true := by
  have hcore : ∀ {form arguments isMarked}, ¬ u.IsCore node form arguments isMarked :=
    fun h => by cases hname.symm.trans h.shape
  have hcall : ∀ {name arguments}, ¬ u.IsCall node name arguments :=
    fun h => by cases hname.symm.trans h.shape
  cases h with
  | literal _ shape => simp [hname] at shape
  | truth _ shape => cases hname.symm.trans shape
  | read | deref | address => rfl
  | pointer core | assigned core | sequence core | conditional core => exact (hcore core).elim
  | call isCall | expanded isCall => exact (hcall isCall).elim

/-- The function `f` returns its parameter as it is read from its slot. The type of the parameter
owns resources, and the value is owned by the caller of `f` already. -/
theorem returned_handleUnit :
    Ends (defineFunction ⟨21⟩ "f" ⟨24⟩ [⟨3⟩, ⟨1⟩, ⟨23⟩, ⟨14⟩]) handleUnit
      (fun _ u' => u'.context.ownsResources ⟨21⟩ = true ∧
        (u'.context.ir.block ⟨0⟩).instrs =
          #[.alloca ⟨2⟩ ⟨1⟩, .store ⟨1⟩ ⟨2⟩, .load ⟨3⟩ ⟨2⟩] ∧
        (u'.context.ir.block ⟨0⟩).terminator = some (.ret (some ⟨3⟩))) (fun _ => False) ∧
      ∃ (frame : Frame) (entry : Ir.BlockId) (u₁ u₂ : Compilation Unit) (es : List Event)
        (r : Result), Lowers frame u₁ entry (.forms ⟨14⟩ []) es u₂ (.one r) ∧
          r.borrowed = true := by
  have hends : Ends (defineFunction ⟨21⟩ "f" ⟨24⟩ [⟨3⟩, ⟨1⟩, ⟨23⟩, ⟨14⟩]) handleUnit
      (fun _ u' => u'.context.ownsResources ⟨21⟩ = true ∧
        (u'.context.ir.block ⟨0⟩).instrs =
          #[.alloca ⟨2⟩ ⟨1⟩, .store ⟨1⟩ ⟨2⟩, .load ⟨3⟩ ⟨2⟩] ∧
        (u'.context.ir.block ⟨0⟩).terminator = some (.ret (some ⟨3⟩))) (fun _ => False) := by
    unfold Ends
    decide +kernel
  obtain ⟨_, u', hrun, -⟩ := hends.succeeds
  obtain ⟨_, _, _, _, _, _, u₀, _, _, -, hquiet, -, hreturned, -⟩ := defineFunction_returns hrun
  obtain ⟨hentered, hstored, hforms, hands, -⟩ := hreturned
  refine ⟨hends, _, _, _, _, _, _, hforms, ?_⟩
  obtain ⟨-, rfl⟩ := onModule_ok_iff.1 hentered
  have hforest := (spillParams_forest hstored).trans (hquiet.within.forest rfl)
  have hname : handleForest.symbol? ⟨14⟩ = some "h" := by decide
  have hsymbol := (congrArg (Forest.symbol? · ⟨14⟩) hforest).trans hname
  cases hands with
  | last hands => exact hands.of_variable (Compilation.shape_of_symbol hsymbol)

end FormCompiler.Lower
