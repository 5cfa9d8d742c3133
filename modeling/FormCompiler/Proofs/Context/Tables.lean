import FormCompiler.Proofs.Run

/-!
# Tables of Functions

A declared function is recorded in two places: as an overload of the current namespace, and in the
module under its symbol. The two stay in step.

* `Namespace.Unambiguous`: no two overloads of a name take arguments of the same types.
* `Context.Tabled`: so it is for every namespace, each overload stands for the function of the
  module that has its symbol, and no two stand for the same one.
* `Change.tabled`, `Run.tabled`: every change of a context keeps the tables in step, and so does
  every run.
-/

namespace FormCompiler

/-- No two overloads of a name take arguments of the same types. -/
def Namespace.Unambiguous (ns : Namespace) : Prop :=
  ∀ (a b : Nat) (f g : Function), ns.functions[a]? = some f → ns.functions[b]? = some g →
    f.name = g.name → f.paramTypes = g.paramTypes → a = b

namespace Namespace

variable {ns : Namespace} {name : String} {arguments : List TypeId} {f : Function}

/-- The namespaces that have the same functions are unambiguous alike. -/
theorem Unambiguous.of_eq {ns' : Namespace} (h : ns.Unambiguous)
    (hfunctions : ns'.functions = ns.functions) : ns'.Unambiguous := by
  unfold Unambiguous
  rw [hfunctions]
  exact h

/-- An overload that is found is declared, with the name and the types it was looked up for. -/
theorem of_overload (h : ns.overload? name arguments = some f) :
    f ∈ ns.functions ∧ f.name = name ∧ f.paramTypes = arguments := by
  have haccepts := Array.find?_some h
  rw [Bool.and_eq_true] at haccepts
  exact ⟨Array.mem_of_find?_eq_some h, eq_of_beq haccepts.1, eq_of_beq haccepts.2⟩

/-- Where none is found, no overload has the name and the types. -/
theorem of_overload_none (h : ns.overload? name arguments = none) (hf : f ∈ ns.functions)
    (hname : f.name = name) : f.paramTypes ≠ arguments := by
  rintro rfl
  have hnone := Array.find?_eq_none.1 h f hf
  simp [hname, Function.accepts] at hnone

/-- In an unambiguous namespace the overload of a name that takes arguments of some types is
found. -/
theorem Unambiguous.overload?_eq_some_iff (h : ns.Unambiguous) :
    ns.overload? name arguments = some f ↔
      f ∈ ns.functions ∧ f.name = name ∧ f.paramTypes = arguments := by
  refine ⟨of_overload, ?_⟩
  rintro ⟨hf, hname, hparams⟩
  cases hfound : ns.overload? name arguments with
  | none => exact absurd hparams (of_overload_none hfound hf hname)
  | some g =>
    obtain ⟨hg, hname', hparams'⟩ := of_overload hfound
    obtain ⟨a, ha⟩ := Array.mem_iff_getElem?.1 hf
    obtain ⟨b, hb⟩ := Array.mem_iff_getElem?.1 hg
    -- both stand at the same place
    obtain rfl := h a b f g ha hb (hname.trans hname'.symm) (hparams.trans hparams'.symm)
    rw [ha] at hb
    exact hb.symm

end Namespace

namespace Ir.Module

/-- A declared function is found under its symbol, and the others are found as before. -/
theorem Declared.lookupFunction? {m m' : Module} {symbol : String} {tys : List TyId} {ret : TyId}
    {linkage : Linkage} {func : FuncId} (h : Declared symbol tys ret linkage func m m') :
    m'.lookupFunction? symbol = some func ∧
      ∀ other f, m.lookupFunction? other = some f → m'.lookupFunction? other = some f := by
  obtain ⟨params, hfunctions, -⟩ := h.functions
  constructor
  · have hfree := h.free
    rw [Module.lookupFunction?, Option.map_eq_none_iff] at hfree
    rw [Module.lookupFunction?, hfunctions, h.func_eq, Array.findIdx?_push, hfree]
    simp
  · intro other f hf
    rw [Module.lookupFunction?, Option.map_eq_some_iff] at hf ⊢
    obtain ⟨i, hi, rfl⟩ := hf
    refine ⟨i, ?_, rfl⟩
    rw [hfunctions]
    exact (Grown.push _ _).findIdx? hi

end Ir.Module

namespace Context

variable {c c' : Context}

/-- The overloads and the functions of the module are in step. -/
structure Tabled (c : Context) : Prop where
  /-- No overload of a namespace hides another one. -/
  unambiguous : ∀ id, (c.namespaceOf id).Unambiguous
  /-- The module has each function under its symbol, with its linkage. -/
  functions : ∀ id, ∀ f ∈ (c.namespaceOf id).functions,
    c.ir.lookupFunction? f.symbol = some f.backend ∧
      (c.ir.function f.backend).linkage = f.linkage
  /-- No two overloads stand for the same function of the module. -/
  backends : ∀ (id id' : NamespaceId) (a b : Nat) (f g : Function),
    (c.namespaceOf id).functions[a]? = some f → (c.namespaceOf id').functions[b]? = some g →
      f.backend = g.backend → id = id' ∧ a = b

/-- A namespace of the context has every overload there is. -/
theorem lt_of_mem_functions {id : NamespaceId} {f : Function}
    (h : f ∈ (c.namespaceOf id).functions) : id.index < c.namespaces.size := by
  by_contra hid
  rw [namespaceOf_of_ge (Nat.le_of_not_lt hid)] at h
  exact absurd h (Array.not_mem_empty f)

/-- Every overload has the types of its function of the module. -/
theorem Valid.implements (hc : c.Valid) {id : NamespaceId} {f : Function}
    (hf : f ∈ (c.namespaceOf id).functions) : c.Implements f :=
  hc.functions id (lt_of_mem_functions hf) f hf

/-- Where a function was declared, each overload was there before or is that of the function. -/
theorem Declared.function_cases {name : String} {params : List Param} {returnType : TypeId}
    {linkage : Ir.Linkage} {func : Ir.FuncId}
    (h : Declared name params returnType linkage func c c') {id : NamespaceId} {a : Nat}
    {f : Function} (hf : (c'.namespaceOf id).functions[a]? = some f) :
    (c.namespaceOf id).functions[a]? = some f ∨
      id = c.currentId ∧ a = c.current.functions.size ∧
        f = ⟨name, params, returnType, linkage,
          c.functionSymbol name (params.map (·.ty)), func⟩ := by
  obtain ⟨-, c₁, tys, ret, ir, hwithin, -, -, -, rfl⟩ := h
  have hns : (c₁.withIr ir).namespaces = c.namespaces := hwithin.namespaces
  rcases namespaceOf_replaced _ hns hwithin.entered id with heq | ⟨hid, heq⟩
  · rw [heq] at hf
    exact .inl hf
  · rw [heq, Array.getElem?_push] at hf
    split at hf
    next hlast => exact .inr ⟨hid, hlast, (Option.some_inj.1 hf).symm⟩
    next => exact .inl (hid ▸ hf)

namespace Tabled

/-- What declares no function keeps the tables in step. -/
theorem of_same (h : c.Tabled) (hc : c.Valid) (hir : c.ir.Extends c'.ir)
    (hlookup : ∀ symbol, c'.ir.lookupFunction? symbol = c.ir.lookupFunction? symbol)
    (hfunctions : ∀ id, (c'.namespaceOf id).functions = (c.namespaceOf id).functions) :
    c'.Tabled where
  unambiguous id := (h.unambiguous id).of_eq (hfunctions id)
  functions id f hf := by
    rw [hfunctions] at hf
    obtain ⟨hsymbol, hlinkage⟩ := h.functions id f hf
    exact ⟨by rw [hlookup, hsymbol],
      (hir.function _ (hc.implements hf).backend).linkage.trans hlinkage⟩
  backends id id' a b f g hf hg := by
    rw [hfunctions] at hf hg
    exact h.backends id id' a b f g hf hg

/-- A declared function enters both tables. -/
theorem declared {name : String} {params : List Param} {returnType : TypeId}
    {linkage : Ir.Linkage} {func : Ir.FuncId} (h : c.Tabled) (hc : c.Valid)
    (hdeclared : Declared name params returnType linkage func c c') : c'.Tabled := by
  have hcases := @Declared.function_cases c c' name params returnType linkage func hdeclared
  obtain ⟨hfree, c₁, tys, ret, ir, hwithin, -, -, hmodule, rfl⟩ := hdeclared
  obtain ⟨hself, hothers⟩ := hmodule.lookupFunction?
  -- the function is new to the module, and its name and types are new to the namespace
  have hfunc : func.index = c.ir.functions.size := by
    rw [hmodule.func_eq, hwithin.ir.functions]
  have hnew : ∀ {id : NamespaceId} {a : Nat} {f : Function},
      (c.namespaceOf id).functions[a]? = some f → f.backend ≠ func := by
    rintro id a f hf rfl
    exact Nat.ne_of_lt (hc.implements (Array.mem_of_getElem? hf)).backend hfunc
  have hdistinct : ∀ {a : Nat} {f : Function}, c.current.functions[a]? = some f →
      f.name = name → f.paramTypes ≠ params.map (·.ty) := fun hf hname =>
    Namespace.of_overload_none hfree (Array.mem_of_getElem? hf) hname
  constructor
  case unambiguous =>
    intro id a b f g hf hg hname hparams
    rcases hcases hf with hf | ⟨rfl, rfl, rfl⟩
    · rcases hcases hg with hg | ⟨rfl, rfl, rfl⟩
      · exact h.unambiguous id a b f g hf hg hname hparams
      · exact absurd hparams (hdistinct hf hname)
    · rcases hcases hg with hg | ⟨-, rfl, -⟩
      · exact absurd hparams.symm (hdistinct hg hname.symm)
      · rfl
  case functions =>
    intro id f hf
    obtain ⟨a, hf⟩ := Array.mem_iff_getElem?.1 hf
    rcases hcases hf with hf | ⟨rfl, rfl, rfl⟩
    · have hmem := Array.mem_of_getElem? hf
      obtain ⟨hsymbol, hlinkage⟩ := h.functions id f hmem
      refine ⟨hothers _ _ ((hwithin.ir.sameNames.functions _).trans hsymbol), ?_⟩
      have hbackend := (hc.implements hmem).backend
      refine Eq.trans ?_ hlinkage
      exact ((hwithin.ir.toExtends.trans hmodule.toExtends).function _ hbackend).linkage
    · refine ⟨hself, ?_⟩
      obtain ⟨values, hfunction, -⟩ := hmodule.function_self
      exact congrArg Ir.Function.linkage hfunction
  case backends =>
    intro id id' a b f g hf hg hbackend
    rcases hcases hf with hf | ⟨rfl, rfl, rfl⟩
    · rcases hcases hg with hg | ⟨rfl, rfl, rfl⟩
      · exact h.backends id id' a b f g hf hg hbackend
      · exact absurd hbackend (hnew hf)
    · rcases hcases hg with hg | ⟨rfl, rfl, rfl⟩
      · exact absurd hbackend.symm (hnew hg)
      · exact ⟨rfl, rfl⟩

end Tabled

/-- Every change of a context keeps the tables in step. -/
theorem Change.tabled (h : Change c c') (hc : c.Valid) (ht : c.Tabled) : c'.Tabled := by
  cases h with
  | checked within _ =>
    exact ht.of_same hc within.ir.toExtends within.ir.sameNames.functions
      fun id => congrArg _ (within.namespaceOf id)
  | body func within _ h =>
    exact ht.of_same hc within.ir h.sameNames.functions
      fun id => congrArg _ (within.namespaceOf id)
  | leave h => exact h ▸ ⟨ht.unambiguous, ht.functions, ht.backends⟩
  | enter name h =>
    subst h
    refine ht.of_same hc ?_ (fun symbol => ?_)
      (hc.map_namespaceOf_enter Namespace.functions (fun _ _ _ => rfl) (fun _ _ _ => rfl) name)
    · rw [enter_ir]
      exact .refl _
    · rw [enter_ir]
  -- a struct or an enum puts a type into the module, and the namespace keeps its functions
  | struct name members linkage h _ =>
    obtain ⟨-, c₁, c₂, layout, hwithin, -, -, rfl, rfl⟩ := h
    refine ht.of_same hc (hwithin.ir.toExtends.trans (Ir.Module.extends_push_type _ _))
      hwithin.ir.sameNames.functions ?_
    exact map_namespaceOf_replaced Namespace.functions hwithin.namespaces hwithin.entered rfl
  | enum name builder linkage underlying enumTy h _ _ =>
    obtain ⟨-, -, c₁, c₂, c₃, member, hwithin, -, -, rfl, -, rfl, rfl⟩ := h
    rw [withLayout_withCurrent, withCurrent_withCurrent]
    refine ht.of_same hc (hwithin.ir.toExtends.trans (Ir.Module.extends_push_type _ _))
      hwithin.ir.sameNames.functions ?_
    exact map_namespaceOf_replaced Namespace.functions hwithin.namespaces hwithin.entered rfl
  | function name params returnType linkage func h _ _ => exact ht.declared hc h

/-- Where nothing is declared, the tables are empty. -/
theorem tabled_start (options : Options) : (start options).Tabled := by
  have hempty : ∀ id, ((start options).namespaceOf id).functions = #[] := by
    intro id
    rcases namespaceOf_start options id with heq | heq <;> rw [heq] <;> rfl
  refine ⟨fun id a b f g hf => ?_, fun id f hf => ?_, fun id id' a b f g hf => ?_⟩
  · rw [hempty] at hf
    cases hf
  · rw [hempty] at hf
    exact absurd hf (Array.not_mem_empty f)
  · rw [hempty] at hf
    cases hf

end Context

/-- After a run the overloads and the functions of the module are in step. -/
theorem Run.tabled {σ : Type} {u : Compilation σ} {options : Options} {expander : Expander σ}
    {memory : σ} (h : Run (.start options expander memory) u) : u.context.Tabled :=
  h.invariant (Context.tabled_start options) fun _ _ hc hchange => hchange.tabled hc

end FormCompiler
