import FormCompiler.Proofs.Lower.Declarations
import FormCompiler.Proofs.Lower.Derivation

/-!
# Types of Variables and Results

A scope is typed if its variables hold values of the backend types of their types. Expressions that
are processed in such a scope give typed results: the value has the backend type of the result's
type, and the address of an lvalue points to it.

Each handler that makes a constant has one lemma, by which the constant is new and of its type.
-/

namespace FormCompiler

/-- The variable holds a value of its type, or the address of one. -/
inductive Variable.Typed (c : Context) : Variable → Prop
  | value {ty : TypeId} {v : Ir.ValueId} (inTable : v.index < c.ir.values.size)
      (backs : c.Backs ty (c.ir.valueType v)) : Typed c ⟨ty, .value v⟩
  | slot {ty : TypeId} {address : Ir.ValueId} {inner : Ir.TyId}
      (inTable : address.index < c.ir.values.size) (notVoid : c.pool.isVoid ty = false)
      (backs : c.Backs ty inner)
      (pointer : c.ir.findType? (.pointer inner) = some (c.ir.valueType address)) :
      Typed c ⟨ty, .slot address⟩

/-- The variables hold values of their types. -/
def Scope.Typed (c : Context) (s : Scope) : Prop :=
  ∀ name v, s.lookup? name = some v → v.Typed c

/-- The value has the type of the result, and its address, if it has one, points to that type. -/
structure Result.Typed (c : Context) (r : Result) : Prop where
  inTable : r.value.index < c.ir.values.size
  backs : c.Backs r.ty (c.ir.valueType r.value)
  addressed : ∀ a, r.address = some a → ∃ t, r.addressTy = some t ∧
    a.index < c.ir.values.size ∧ c.Backs t (c.ir.valueType a) ∧ c.pool.pointee? t = some r.ty

section

variable {c c' : Context}

/-- A typed variable is one later, too. -/
theorem Variable.Typed.mono {v : Variable} (h : v.Typed c) (hc : c.Steady c')
    (hir : c.ir.Extends c'.ir) : v.Typed c' := by
  cases h with
  | value inTable backs =>
    refine .value (Nat.lt_of_lt_of_le inTable hir.values.size_le) ?_
    rw [hir.valueType inTable]
    exact backs.mono hc
  | slot inTable notVoid backs pointer =>
    refine .slot (Nat.lt_of_lt_of_le inTable hir.values.size_le) ?_ (backs.mono hc) ?_
    · rw [hc.isVoid backs.index_lt, notVoid]
    · rw [hir.valueType inTable]
      exact hc.findType? pointer

/-- A typed scope is one later, too. -/
theorem Scope.Typed.mono {s : Scope} (h : s.Typed c) (hc : c.Steady c')
    (hir : c.ir.Extends c'.ir) : s.Typed c' := fun name v hv => (h name v hv).mono hc hir

/-- The types of the variables of a typed scope are in the pool. -/
theorem Scope.Typed.typesIn {s : Scope} (h : s.Typed c) : s.TypesIn c.pool := by
  intro name v hv
  cases h name v hv with
  | value _ backs => exact backs.index_lt
  | slot _ _ backs => exact backs.index_lt

/-- A pointer of a pool stays one and points to the same type. -/
theorem Pool.Extends.pointee? {p p' : Pool} (h : p.Extends p') {t pointee : TypeId}
    (ht : p.pointee? t = some pointee) : p'.pointee? t = some pointee := by
  have hlt := (Array.getElem?_eq_some_iff.1 (Pool.getElem?_of_pointee? ht)).1
  rwa [Pool.pointee?, h.type hlt, ← Pool.pointee?]

/-- A pointer that is entered points to its type. -/
theorem Pool.pointee?_pointerTo (p : Pool) (t : TypeId) :
    (p.pointerTo t).2.pointee? (p.pointerTo t).1 = some t := by
  have htype := Pool.type_of_getElem? (Pool.type_of_find (Pool.intern_spec p (.pointer t)).2)
  rw [Pool.pointee?]
  exact htype ▸ rfl

/-- A typed result is one later, too. -/
theorem Result.Typed.mono {r : Result} (h : r.Typed c) (hc : c.Steady c')
    (hir : c.ir.Extends c'.ir) : r.Typed c' where
  inTable := Nat.lt_of_lt_of_le h.inTable hir.values.size_le
  backs := by
    rw [hir.valueType h.inTable]
    exact h.backs.mono hc
  addressed a ha := by
    obtain ⟨t, ht, hin, hbacks, hpointee⟩ := h.addressed a ha
    refine ⟨t, ht, Nat.lt_of_lt_of_le hin hir.values.size_le, ?_, hc.pool.pointee? hpointee⟩
    rw [hir.valueType hin]
    exact hbacks.mono hc

end

/-- The context is valid, and the scope is typed. -/
structure Compilation.Settled {σ : Type} (u : Compilation σ) (s : Scope) : Prop where
  valid : u.context.Valid
  scope : s.Typed u.context

namespace Compilation.Kept

variable {σ : Type} {s : Scope} {u u' : Compilation σ}

/-- Processing an expression in a typed scope changes no type. -/
theorem steady (h : Compilation.Kept s u u') : u.context.Steady u'.context :=
  .of_within h.context (fun hp => hp.grown) fun hm => hm.types

/-- No value is taken away. -/
theorem size_le (h : Compilation.Kept s u u') :
    u.context.ir.values.size ≤ u'.context.ir.values.size := h.context.ir.values.size_le

/-- What was settled stays so. -/
theorem settled (h : Compilation.Kept s u u') (hu : u.Settled s) : u'.Settled s :=
  ⟨(Lower.kept_safe h hu.scope.typesIn hu.valid).1, hu.scope.mono h.steady h.context.ir⟩

end Compilation.Kept

namespace Lower

variable {σ : Type} {u u' : Compilation σ} {b : Ir.BlockId} {node : NodeId} {r : Result}

/-! ## Constants -/

/-- The result is a new constant of the type. -/
structure IsConstant (kind : Ir.ValueKind) (b : Ir.BlockId) (t : TypeId) (r : Result)
    (u u' : Compilation σ) : Prop where
  result : r = .new b t r.value
  fresh : Ir.Module.Fresh (u'.context.ir.valueType r.value) kind r.value u.context.ir
    u'.context.ir
  backs : u'.context.Backs t (u'.context.ir.valueType r.value)

/-- The backend type of a grounded type was asked for. -/
theorem backendType_ok {t : TypeId} {ty : Ir.TyId} (ht : u.context.Grounded t)
    (h : onState (Context.backendType t) u = .ok ty u') :
    u.context.Within (· = ·) Ir.Module.Still u'.context ∧ u'.context.Backs t ty := by
  obtain ⟨hstill, hbacks⟩ := ht.backendType_spec
  obtain ⟨rfl, rfl⟩ := onState_ok_iff.1 h
  exact ⟨hstill, hbacks⟩

/-- An operation that may be refused was accepted. -/
theorem attempt_ok {α : Type} {op : Ir.Build α} {a : α}
    (h : onState (Context.attempt op) u = .ok (.ok a) u') :
    ∃ ir, op u.context.ir = .ok a ir ∧ u' = u.withIr ir := by
  obtain ⟨hresult, rfl⟩ := onState_ok_iff.1 h
  have hrun := Context.attempt_run op u.context
  cases hop : op u.context.ir with
  | ok a' ir =>
    rw [hop] at hrun
    rw [hrun] at hresult ⊢
    cases hresult
    exact ⟨ir, rfl, rfl⟩
  | error e ir =>
    rw [hop] at hrun
    rw [hrun] at hresult
    cases hresult

/-- A value that is made after its type was asked for is new. -/
theorem isConstant_of_fresh {u₁ : Compilation σ} {kind : Ir.ValueKind} {t : TypeId} {ty : Ir.TyId}
    {v : Ir.ValueId} {ir : Ir.Module} (hstill : u.context.ir.Still u₁.context.ir)
    (hbacks : u₁.context.Backs t ty) (hfresh : Ir.Module.Fresh ty kind v u₁.context.ir ir) :
    IsConstant kind b t (.new b t v) u (u₁.withIr ir) := by
  have hty : ir.valueType v = ty := Ir.Module.valueType_of_getElem? hfresh.value
  have hsteady : u₁.context.Steady (u₁.context.withIr ir) := .of_still (.of_ir hfresh.still)
  refine ⟨rfl, ⟨hstill.trans hfresh.still, Nat.le_trans hstill.values.size_le hfresh.size_le, ?_⟩,
    ?_⟩
  · change ir.values[v.index]? = some ⟨ir.valueType v, kind⟩
    rw [hty, hfresh.value]
  · change (u₁.context.withIr ir).Backs t (ir.valueType v)
    rw [hty]
    exact hbacks.mono hsteady

/-- An integer token is a constant with the bit pattern of the literal. -/
theorem integerToken_ok {text : String} (hu : u.context.Valid)
    (h : integerToken b node text u = .ok r u') :
    ∃ bits raw, u'.context.ir.intWidth? (u'.context.ir.valueType r.value) = some bits ∧
      Ir.parseIntLiteral text bits true = .ok raw ∧
      IsConstant (.constInt raw) b .int r u u' := by
  unfold integerToken at h
  obtain ⟨ty, u₁, h₁, h⟩ := bind_ok_iff.1 h
  obtain ⟨hstill, hbacks⟩ := backendType_ok (hu.grounded_primitive .int) h₁
  obtain ⟨attempted, u₂, h₂, h⟩ := bind_ok_iff.1 h
  cases attempted with
  | error e =>
    cases e <;> simp only [failMalformed, bind_ok_iff, fail_ok_iff, and_false, exists_false] at h
  | ok v =>
    obtain ⟨rfl, rfl⟩ := pure_ok_iff.1 h
    obtain ⟨ir, hop, rfl⟩ := attempt_ok h₂
    unfold Ir.Module.constIntOfText at hop
    cases hwidth : u₁.context.ir.intWidth? ty with
    | none =>
      rw [hwidth] at hop
      cases hop
    | some bits =>
      rw [hwidth] at hop
      dsimp only at hop
      cases hparse : Ir.parseIntLiteral text bits true with
      | error e =>
        rw [hparse] at hop
        cases hop
      | ok raw =>
        rw [hparse] at hop
        cases hop
        have hfresh := Ir.Module.newValue_fresh ty (.constInt raw) u₁.context.ir
        refine ⟨bits, raw, ?_, hparse, isConstant_of_fresh hstill.ir hbacks hfresh⟩
        have hty := Ir.Module.valueType_of_getElem? hfresh.value
        exact (congrArg _ hty).trans hwidth

/-- A float token is the constant that the literal denotes. -/
theorem floatToken_ok {text : String} (hu : u.context.Valid)
    (h : floatToken b node text u = .ok r u') :
    ∃ value, Number.Binary64.read? text = some value ∧
      IsConstant (.constFloat value) b .float r u u' := by
  unfold floatToken at h
  cases hread : Number.Binary64.read? text with
  | none =>
    rw [hread] at h
    simp only [failMalformed, bind_ok_iff, fail_ok_iff, and_false, exists_false] at h
  | some value =>
    rw [hread] at h
    obtain ⟨ty, u₁, h₁, h⟩ := bind_ok_iff.1 h
    obtain ⟨hstill, hbacks⟩ := backendType_ok (hu.grounded_primitive .float) h₁
    obtain ⟨v, u₂, h₂, h⟩ := bind_ok_iff.1 h
    obtain ⟨rfl, rfl⟩ := onModule_ok_iff.1 h₂
    obtain ⟨rfl, rfl⟩ := pure_ok_iff.1 h
    exact ⟨value, rfl, isConstant_of_fresh hstill.ir hbacks (Ir.Module.newValue_fresh _ _ _)⟩

/-- A truth value is a constant of one bit. -/
theorem truthValue_ok {value : Bool} (hu : u.context.Valid)
    (h : truthValue b value u = .ok r u') :
    IsConstant (.constInt (if value then 1 else 0)) b .bool r u u' := by
  unfold truthValue at h
  obtain ⟨ty, u₁, h₁, h⟩ := bind_ok_iff.1 h
  obtain ⟨hstill, hbacks⟩ := backendType_ok (hu.grounded_primitive .bool) h₁
  obtain ⟨v, u₂, h₂, h⟩ := bind_ok_iff.1 h
  obtain ⟨rfl, rfl⟩ := onModule_ok_iff.1 h₂
  obtain ⟨rfl, rfl⟩ := pure_ok_iff.1 h
  have hfound : u₁.context.ir.findType? (.int 1) = some ty :=
    hbacks.of_primitive (p := .bool) (hstill.pool ▸ hu.pool.primitives .bool)
  have hbit := Ir.Module.type_of_find hfound
  have hwidth : u₁.context.ir.constWidth ty = 1 := by
    simp [Ir.Module.constWidth, Ir.Module.intWidth?, Ir.Module.type,
      Array.getD_eq_getD_getElem?, hbit]
  have hwrap : Number.wrap (u₁.context.ir.constWidth ty) (if value then 1 else 0) =
      if value then 1 else 0 := by
    rw [hwidth]
    cases value <;> rfl
  have hfresh := Ir.Module.newValue_fresh ty (.constInt (Number.wrap (u₁.context.ir.constWidth ty)
    (if value then 1 else 0))) u₁.context.ir
  rw [← hwrap]
  exact isConstant_of_fresh hstill.ir hbacks hfresh

/-- A string token is a pointer to its characters. -/
theorem stringToken_ok {text : String} (hu : u.context.Valid)
    (h : stringToken b text u = .ok r u') :
    IsConstant (.text text) b (u.context.pool.pointerTo .char).1 r u u' := by
  unfold stringToken at h
  obtain ⟨t, u₁, h₁, h⟩ := bind_ok_iff.1 h
  obtain ⟨rfl, rfl⟩ := onState_ok_iff.1 h₁
  obtain ⟨v, u₂, h₂, h⟩ := bind_ok_iff.1 h
  obtain ⟨rfl, rfl⟩ := onModule_ok_iff.1 h₂
  obtain ⟨rfl, rfl⟩ := pure_ok_iff.1 h
  obtain ⟨byte, hfresh, hbyte, hfound⟩ := Ir.Module.globalText_spec text u.context.ir
  refine ⟨rfl, hfresh, ?_⟩
  obtain ⟨hpool, hpointer⟩ := Pool.intern_spec u.context.pool (.pointer .char)
  have hchar := hpool.types.getElem?_some (hu.pool.primitives .char)
  have hsound := hu.pool.pointerTo (hu.grounded_primitive .char).index_lt
  have htype := Pool.type_of_find hpointer
  refine .pointer htype (hsound.pointees _ _ htype) ?_ (.primitive hchar hbyte) hfound
  change ((u.context.pool.intern (.pointer .char)).2.type .char).has .isVoid = false
  rw [Pool.type_of_getElem? (t := .char) hchar]
  rfl

/-- The value of type `void` is new. -/
theorem voidValue_fresh {v : Ir.ValueId} (h : onState Context.voidValue u = .ok v u') :
    ∃ ty, u'.context.ir.findType? .void = some ty ∧
      Ir.Module.Fresh ty .undefined v u.context.ir u'.context.ir := by
  obtain ⟨rfl, rfl⟩ := onState_ok_iff.1 h
  obtain ⟨hstill, hfound⟩ := Ir.Module.internType_spec .void rfl u.context.ir
  have hfresh := Ir.Module.newValue_fresh (Ir.Module.internType .void u.context.ir).1 .undefined
    (Ir.Module.internType .void u.context.ir).2
  exact ⟨_, hfound, hstill.trans hfresh.still,
    Nat.le_trans hstill.values.size_le hfresh.size_le, hfresh.value⟩

/-- The value of type `void` is one for every type that is `void`. -/
theorem voidValue_ok {t : TypeId} {v : Ir.ValueId} (ht : t.index < u.context.pool.types.size)
    (hvoid : u.context.pool.isVoid t = true) (h : onState Context.voidValue u = .ok v u') :
    IsConstant .undefined b t (.new b t v) u u' := by
  obtain ⟨ty, hfound, hfresh⟩ := voidValue_fresh h
  have hty : u'.context.ir.valueType v = ty := Ir.Module.valueType_of_getElem? hfresh.value
  rw [← hty] at hfresh hfound
  refine ⟨rfl, hfresh, ?_⟩
  have htype : u.context.pool.types[t.index]? = some (.primitive .void) := by
    rw [Pool.getElem?_type ht, Pool.type_of_isVoid hvoid]
  obtain ⟨-, rfl⟩ := onState_ok_iff.1 h
  exact .primitive htype hfound

/-- A new constant is a typed result. -/
theorem IsConstant.typed {kind : Ir.ValueKind} {t : TypeId} (h : IsConstant kind b t r u u') :
    r.Typed u'.context := by
  obtain ⟨hresult, hfresh, hbacks⟩ := h
  refine ⟨(Array.getElem?_eq_some_iff.1 hfresh.value).1, ?_, ?_⟩
  · rw [hresult]
    exact hbacks
  · intro a ha
    rw [hresult] at ha
    cases ha

/-! ## Derivations give typed results -/

/-- What a derivation gives is typed. -/
def GivesTyped (c : Context) : Output → Prop
  | .one r => r.Typed c
  | .many rs _ => ∀ r ∈ rs, r.Typed c

/-- What a pointer type of the module points to. -/
theorem pointee?_of_find {m : Ir.Module} {inner ty : Ir.TyId}
    (h : m.findType? (.pointer inner) = some ty) : m.pointee? ty = some inner := by
  rw [Ir.Module.pointee?, Ir.Module.type_of_getElem? (Ir.Module.type_of_find h)]

/-- A typed result may be used in another block and be marked as borrowed or not. -/
theorem typed_of_value {c : Context} {t : TypeId} {v : Ir.ValueId}
    (hv : v.index < c.ir.values.size) (hbacks : c.Backs t (c.ir.valueType v))
    (block : Ir.BlockId) (isLvalue noCopy borrowed : Bool) :
    Result.Typed c ⟨t, v, block, isLvalue, none, none, noCopy, borrowed⟩ :=
  ⟨hv, hbacks, fun a ha => by cases ha⟩

/-- A copy has the type of what was copied. -/
theorem copyInstrs_ok {ty : Ir.TyId} {value v : Ir.ValueId} {copy : Ir.FuncId} {m m' : Ir.Module}
    (h : copyInstrs b ty value copy m = .ok v m') :
    v.index < m'.values.size ∧ m'.valueType v = ty := by
  unfold copyInstrs at h
  obtain ⟨source, m₁, h₁, h⟩ := bind_ok_iff.1 h
  obtain ⟨_, m₂, h₂, h⟩ := bind_ok_iff.1 h
  obtain ⟨fresh, m₃, h₃, h⟩ := bind_ok_iff.1 h
  obtain ⟨_, m₄, h₄, h⟩ := bind_ok_iff.1 h
  obtain ⟨hemitted, hfound⟩ := (Ir.Module.alloca_ends _ _ _).of_ok h₃
  have hcall := ((Ir.Module.call_ends _ _ _ _).of_ok h₄).1.toExtends
  obtain ⟨hload, hpointee⟩ := (Ir.Module.load_ends _ _ _).of_ok h
  obtain ⟨-, freshTy, hfresh⟩ := hemitted.fresh fresh rfl
  have hlt := (Array.getElem?_eq_some_iff.1 hfresh).1
  rw [hcall.valueType hlt, pointee?_of_find (hcall.findType? hfound)] at hpointee
  obtain ⟨-, _, hv⟩ := hload.fresh v rfl
  exact ⟨(Array.getElem?_eq_some_iff.1 hv).1, (Option.some_inj.1 hpointee).symm⟩

/-- A copy of a typed result is typed. -/
theorem copyBorrowed_typed {copied : Result} (hr : r.Typed u.context)
    (h : copyBorrowed node r u = .ok copied u') : copied.Typed u'.context := by
  obtain ⟨copy, ty, v, u₁, ir, -, hty, hcopy, rfl, rfl⟩ := copyBorrowed_ok h
  obtain ⟨hfst, rfl⟩ := onState_ok_iff.1 hty
  rw [hr.backs.backendType] at hfst hcopy ⊢
  obtain ⟨hv, htype⟩ := copyInstrs_ok hcopy
  have hfst' : u.context.ir.valueType r.value = ty := hfst
  have hextends : u.context.ir.Extends ir :=
    (copyInstrs_keeps r.block ty r.value copy).ok hcopy
  refine typed_of_value hv ?_ _ _ _ _
  change (u.context.withIr ir).Backs r.ty (ir.valueType v)
  rw [htype, ← hfst']
  exact hr.backs.mono (.of_ir hextends)

/-- Going on to a new block extends the module. -/
theorem merge_extends {func : Ir.FuncId} {first second target : Ir.BlockId} {m m' ir : Ir.Module}
    (happend : Ir.Module.appendBlock func "merge" m = (target, m'))
    (hjoin : join first second target m' = .ok ⟨⟩ ir) : m.Extends ir := by
  have hextends := Ir.Module.appendBlock_extends m func "merge"
  rw [happend] at hextends
  exact hextends.trans
    ((Keeps.bind (Ir.Module.br_keeps _ _) fun _ => Ir.Module.br_keeps _ _).ok hjoin)

/-- Giving two results of one type the same ownership keeps them typed. -/
theorem unifyOwnership_typed {onTrue onFalse onTrue' onFalse' : Result}
    (hTrue : onTrue.Typed u.context) (hFalse : onFalse.Typed u.context)
    (hsame : onTrue.ty = onFalse.ty)
    (h : unifyOwnership node onTrue onFalse u = .ok (onTrue', onFalse') u') :
    onTrue'.Typed u'.context ∧ onTrue'.ty = onTrue.ty := by
  rcases unifyOwnership_ok h with ⟨rfl, borrowed, rfl, -⟩ | ⟨-, ⟨hcopy, -⟩ | ⟨hcopy, rfl, -⟩⟩
  · exact ⟨⟨hTrue.inTable, hTrue.backs, hTrue.addressed⟩, rfl⟩
  · obtain ⟨_, _, _, _, _, -, -, -, -, rfl⟩ := copyBorrowed_ok hcopy
    exact ⟨copyBorrowed_typed hTrue hcopy, rfl⟩
  · have hkept : Compilation.Kept .empty u u' := (copyBorrowed_keeps _ _ _).ok hcopy
    exact ⟨hTrue.mono hkept.steady hkept.context.ir, rfl⟩

/-- What branches are merged to is typed. -/
theorem merge_typed {frame : Frame} {onTrue onFalse : Result} (hTrue : onTrue.Typed u.context)
    (h : merge frame node onTrue onFalse u = .ok r u') : r.Typed u'.context := by
  obtain ⟨target, v, m, ir, happend, hjoin, rfl, hvalue⟩ := merge_ok h
  have hir := merge_extends happend hjoin
  split at hvalue
  next hvoid =>
    have hconstant := voidValue_ok (b := target) (u := u.withIr ir) hTrue.backs.index_lt hvoid
      hvalue
    exact typed_of_value hconstant.typed.inTable hconstant.typed.backs _ _ _ _
  next =>
    obtain ⟨ir', hphi, rfl⟩ := hvalue
    obtain ⟨hemitted, hty⟩ := (Ir.Module.phi_ends _ _ _).of_ok hphi
    have hextends := hir.trans hemitted.toExtends
    have hty' : ir'.valueType v = u.context.ir.valueType onTrue.value := by
      rw [hty _ rfl, hir.valueType hTrue.inTable]
    obtain ⟨-, _, hv⟩ := hemitted.fresh v rfl
    refine typed_of_value (Array.getElem?_eq_some_iff.1 hv).1 ?_ _ _ _ _
    change (u.context.withIr ir').Backs onTrue.ty (ir'.valueType v)
    rw [hty']
    have hkept : Compilation.Kept .empty u (u.withIr ir') := kept_withIr _ hextends
    exact hTrue.backs.mono hkept.steady

/-- What a call gives is typed. -/
theorem call_typed {s : Scope} {b' : Ir.BlockId} {name : String} {tys : List TypeId}
    {values : List Ir.ValueId} {callee : Function} {returned : Option Ir.ValueId}
    {v : Ir.ValueId} {ir : Ir.Module} (hu : u.Settled s)
    (hlookup : u.context.lookupFunction? name tys = some callee)
    (hcall : Ir.Module.call b callee.backend values u.context.ir = .ok returned ir)
    (hresult : (returned = some v ∧ u' = u.withIr ir) ∨
      (returned = none ∧ onState Context.voidValue (u.withIr ir) = .ok v u')) :
    (Result.new b' callee.returnType v).Typed u'.context := by
  obtain ⟨hemitted, hreturned⟩ := (Ir.Module.call_ends _ _ _ _).of_ok hcall
  have hbacks := (hu.valid.implements_of_lookup hlookup).ret
  rcases hresult with ⟨rfl, rfl⟩ | ⟨rfl, hvoid⟩
  · obtain ⟨-, _, hv⟩ := hemitted.fresh v rfl
    refine typed_of_value (Array.getElem?_eq_some_iff.1 hv).1 ?_ _ _ _ _
    have hkept : Compilation.Kept s u (u.withIr ir) := kept_withIr _ hemitted.toExtends
    change (u.context.withIr ir).Backs callee.returnType (ir.valueType v)
    rw [hreturned.2]
    exact hbacks.mono hkept.steady
  · have hisVoid := (hbacks.void_iff hu.valid.layouts).1 hreturned
    have hconstant := voidValue_ok (b := b') (u := u.withIr ir) hbacks.index_lt hisVoid hvoid
    exact typed_of_value hconstant.typed.inTable hconstant.typed.backs _ _ _ _

/-- A value that is read through a pointer is a typed lvalue. -/
theorem load_typed {c c' : Context} {address v : Ir.ValueId} {t addressTy : TypeId}
    {inner : Ir.TyId} {ir : Ir.Module} (hbacks : c.Backs t inner)
    (hpointer : c.ir.findType? (.pointer inner) = some (c.ir.valueType address))
    (hload : Ir.Module.load b address c.ir = .ok v ir) (hc : c.Steady c')
    (hir : ir.Extends c'.ir) (haddress : address.index < c'.ir.values.size)
    (haddressTy : c'.Backs addressTy (c'.ir.valueType address))
    (hpointee : c'.pool.pointee? addressTy = some t) (block : Ir.BlockId) (noCopy : Bool) :
    Result.Typed c' ⟨t, v, block, true, some address, some addressTy, noCopy, true⟩ := by
  obtain ⟨hemitted, hty⟩ := (Ir.Module.load_ends _ _ _).of_ok hload
  rw [pointee?_of_find hpointer, Option.some_inj] at hty
  obtain ⟨-, _, hv⟩ := hemitted.fresh v rfl
  have hlt := (Array.getElem?_eq_some_iff.1 hv).1
  refine ⟨Nat.lt_of_lt_of_le hlt hir.values.size_le, ?_, ?_⟩
  · change c'.Backs t (c'.ir.valueType v)
    rw [hir.valueType hlt, ← hty]
    exact hbacks.mono hc
  · intro a ha
    cases ha
    exact ⟨addressTy, rfl, haddress, haddressTy, hpointee⟩

/-- A derivation gives typed results. -/
theorem Lowers.typed {frame : Frame} {task : Task} {es : List Event} {out : Output}
    (h : Lowers frame u b task es u' out) (hu : u.Settled frame.scope) :
    GivesTyped u'.context out := by
  induction h with
  | integer kind run =>
    obtain ⟨_, _, -, -, hconstant⟩ := integerToken_ok hu.valid run
    exact hconstant.typed
  | float kind run =>
    obtain ⟨_, -, hconstant⟩ := floatToken_ok hu.valid run
    exact hconstant.typed
  | string kind run => exact (stringToken_ok hu.valid run).typed
  | truth value symbol run => exact (truthValue_ok hu.valid run).typed
  | value symbol notTrue notFalse lookup =>
    cases hu.scope _ _ lookup with
    | value inTable backs => exact typed_of_value inTable backs _ _ _ _
  | @slot u b node name ty address v ir symbol notTrue notFalse lookup load =>
    have hload := ((Ir.Module.load_ends _ _ _).of_ok load).1.toExtends
    have hkept := (Lowers.slot symbol notTrue notFalse lookup load).kept
    -- the type of the address is interned by the rule itself, so the slot is taken from the later
    -- context too
    have hsettled := hkept.settled hu
    obtain ⟨hgrown, hfound⟩ := Pool.intern_spec u.context.pool (.pointer ty)
    have htype := Pool.type_of_find hfound
    cases hsettled.scope _ _ lookup with
    | slot inTable' notVoid' backs' pointer' =>
      cases hu.scope _ _ lookup with
      | slot inTable notVoid backs pointer =>
        refine load_typed backs pointer load hkept.steady (.refl ir) inTable'
          (.pointer htype (hsettled.valid.pool.pointees _ _ htype) notVoid' backs' pointer')
          (Pool.pointee?_pointerTo _ _) _ _
  | @deref u u₁ u₂ b b' node argument marked es es' pointer pointee v ir core operand points
      notVoid load drop ih =>
    have hpointer : pointer.Typed u₁.context := ih hu
    obtain ⟨inner, hinner, hfound⟩ := hpointer.backs.of_pointee? points notVoid
    have hload := kept_withIr frame.scope ((Ir.Module.load_keeps _ _).ok load)
    have hdrop := drop.kept frame.scope
    have hkept := IsTrans.trans _ _ _ hload hdrop
    have hafter := hpointer.mono hkept.steady hkept.context.ir
    exact load_typed hinner hfound load hkept.steady hdrop.context.ir hafter.inTable hafter.backs
      (hkept.steady.pool.pointee? points) _ _
  | addressOfDeref core deref inner points notVoid drop ih =>
    have hpointer := (ih hu).mono (drop.kept frame.scope).steady (drop.kept frame.scope).context.ir
    exact typed_of_value hpointer.inTable hpointer.backs _ _ _ _
  | addressOf core notDeref inner hasAddress hasType ih =>
    obtain ⟨_, hty, hin, hbacks, -⟩ := (ih hu).addressed _ hasAddress
    -- a result with an address has the type that its address is typed by
    obtain rfl := Option.some_inj.1 (hty.symm.trans hasType)
    exact typed_of_value hin hbacks _ _ _ _
  | assignCopy core destination points assigned copy call dropValue dropDest run =>
    have hcall := kept_withIr frame.scope ((Ir.Module.call_keeps _ _ _).ok call)
    have hkept := IsTrans.trans _ _ _ destination.kept (IsTrans.trans _ _ _ assigned.kept
      (IsTrans.trans _ _ _ hcall (IsTrans.trans _ _ _ (dropValue.kept frame.scope)
        (dropDest.kept frame.scope))))
    exact (truthValue_ok (hkept.settled hu).valid run).typed
  | assignMove core destination points assigned noCopy store dropDest run =>
    have hstore := kept_withIr frame.scope ((Ir.Module.store_keeps _ _ _).ok store)
    have hkept := IsTrans.trans _ _ _ destination.kept (IsTrans.trans _ _ _ assigned.kept
      (IsTrans.trans _ _ _ hstore (dropDest.kept frame.scope)))
    exact (truthValue_ok (hkept.settled hu).valid run).typed
  | sequence _ _ ih => exact ih hu
  | last _ ih => exact ih hu
  | next form drop forms ih ih₁ =>
    exact ih₁ ((IsTrans.trans _ _ _ form.kept (drop.kept frame.scope)).settled hu)
  | conditional core test isBool drop appendThen appendElse branch thenForm elseForm sameType unify
      merge ih ih₁ ih₂ =>
    have hu₂ := (IsTrans.trans _ _ _ test.kept (IsTrans.trans _ _ _ (drop.kept frame.scope)
      (branch_kept appendThen appendElse branch))).settled hu
    have hthen := (ih₁ hu₂).mono elseForm.kept.steady elseForm.kept.context.ir
    have helse := ih₂ (thenForm.kept.settled hu₂)
    exact merge_typed (unifyOwnership_typed hthen helse sameType unify).1 merge
  | call isCall offer arguments lookup call result drop ih =>
    have hoffer : Compilation.Kept frame.scope _ _ := (offer_keeps _).ok offer
    have hu₂ := arguments.kept.settled (hoffer.settled hu)
    exact Result.Typed.mono (call_typed hu₂ lookup call result) (drop.kept frame.scope).steady
      (drop.kept frame.scope).context.ir
  | expanded isCall offer form ih =>
    have hoffer : Compilation.Kept frame.scope _ _ := (offer_keeps _).ok offer
    exact ih (hoffer.settled hu)
  | none => exact fun _ hr => absurd hr List.not_mem_nil
  | more form arguments ih ih₁ =>
    have hr := (ih hu).mono arguments.kept.steady arguments.kept.context.ir
    have hrs := ih₁ (form.kept.settled hu)
    intro r' hr'
    rcases List.mem_cons.1 hr' with rfl | hr'
    · exact hr
    · exact hrs r' hr'

end Lower

end FormCompiler
