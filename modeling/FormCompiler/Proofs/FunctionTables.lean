import FormCompiler.Proofs.Context.Overloads

/-!
# Functions of Namespaces and of the Module

After any run the overloads of the namespaces and the functions of the module are in step, what is
registered stays so, and the overload that is found does not depend on the order of declaration
(`Run.functions_agree`).
-/

namespace FormCompiler

/-- The module has the function under its symbol and its id, with its linkage, and with the backend
types of its parameters and its return type. They are entered already, so that asking for them
changes nothing. -/
structure Context.Represents (c : Context) (f : Function) : Prop where
  found : c.ir.lookupFunction? f.symbol = some f.backend
  params : List.Forall₂ (fun (p : Param) v => backendType p.ty c = (c.ir.valueType v, c)) f.params
    (c.ir.function f.backend).params
  ret : backendType f.returnType c = ((c.ir.function f.backend).ret, c)
  linkage : (c.ir.function f.backend).linkage = f.linkage

/-- Where the tables are in step, every overload is represented. -/
theorem Context.Tabled.represents {c : Context} (h : c.Tabled) (hc : c.Valid) {id : NamespaceId}
    {f : Function} (hf : f ∈ (c.namespaceOf id).functions) : c.Represents f where
  found := (h.functions id f hf).1
  params := (hc.implements hf).params.imp fun _ _ hv => hv.2.backendType
  ret := (hc.implements hf).ret.backendType
  linkage := (h.functions id f hf).2

namespace Run

variable {σ : Type} {u : Compilation σ} {options : Options} {expander : Expander σ} {memory : σ}

/-- After a run from a unit in which nothing is declared: no two overloads of a name in one
namespace accept the same arguments; the module has every overload, each under an id of its own; and
all declarations stay through any further run. Two units, however they came about, find the same
overload for a name and arguments of the same types, if their chains have the same overloads. -/
theorem functions_agree (h : Run (.start options expander memory) u) :
    (∀ (id : NamespaceId) (a b : Nat) (f g : Function) (arguments : List TypeId),
      (u.context.namespaceOf id).functions[a]? = some f →
      (u.context.namespaceOf id).functions[b]? = some g → f.name = g.name →
      f.accepts arguments = true → g.accepts arguments = true → a = b) ∧
    (∀ id, ∀ f ∈ (u.context.namespaceOf id).functions, u.context.Represents f) ∧
    (∀ (id id' : NamespaceId) (a b : Nat) (f g : Function),
      (u.context.namespaceOf id).functions[a]? = some f →
      (u.context.namespaceOf id').functions[b]? = some g → f.backend = g.backend →
      id = id' ∧ a = b) ∧
    (∀ u', Run u u' → ∀ id : NamespaceId, id.index < u.context.namespaces.size →
      (u.context.namespaceOf id).Retains (u'.context.namespaceOf id)) ∧
    ∀ (options' : Options) (expander' : Expander σ) (memory' : σ) (u' : Compilation σ),
      Run (.start options' expander' memory') u' →
      List.Forall₂ (Namespace.SameFunctions u.context.pool u'.context.pool) u.context.chain
        u'.context.chain →
      ∀ (name : String) (arguments arguments' : List TypeId),
        List.Forall₂ (u.context.pool.SameType u'.context.pool) arguments arguments' →
        Option.Rel (Function.Same u.context.pool u'.context.pool)
          (u.context.lookupFunction? name arguments)
          (u'.context.lookupFunction? name arguments') := by
  refine ⟨fun id a b f g arguments hf hg hname haccepts haccepts' => ?_,
    fun id f hf => h.tabled.represents h.valid hf, h.tabled.backends,
    fun u' h' => (h'.retains h.valid).namespaces, ?_⟩
  · have hparams : f.paramTypes = g.paramTypes :=
      (eq_of_beq haccepts).trans (eq_of_beq haccepts').symm
    exact h.tabled.unambiguous id a b f g hf hg hname hparams
  · intro options' expander' memory' u' h' hchain name arguments arguments' harguments
    exact Context.lookupFunction?_same h.valid h'.valid h.tabled h'.tabled hchain name harguments

/-- The unit with the forms `(def f (fn extern int ((a (p int)))))` and
`(def f (fn extern int ((a (p char)))))` after two of its forms were processed. -/
def overloadUnit (first second : NodeId) : Compilation Unit :=
  final (Lower.processTopLevel second) (final (Lower.processTopLevel first)
    { forest := ⟨#[⟨.token ⟨.symbol, ⟨1⟩⟩, .dummy⟩, ⟨.token ⟨.symbol, ⟨2⟩⟩, .dummy⟩,
        ⟨.token ⟨.symbol, ⟨3⟩⟩, .dummy⟩, ⟨.token ⟨.symbol, ⟨4⟩⟩, .dummy⟩,
        ⟨.token ⟨.symbol, ⟨5⟩⟩, .dummy⟩, ⟨.token ⟨.symbol, ⟨6⟩⟩, .dummy⟩,
        ⟨.token ⟨.symbol, ⟨7⟩⟩, .dummy⟩, ⟨.token ⟨.symbol, ⟨8⟩⟩, .dummy⟩,
        ⟨.list [⟨6⟩, ⟨4⟩], .dummy⟩, ⟨.list [⟨6⟩, ⟨7⟩], .dummy⟩, ⟨.list [⟨5⟩, ⟨8⟩], .dummy⟩,
        ⟨.list [⟨5⟩, ⟨9⟩], .dummy⟩, ⟨.list [⟨10⟩], .dummy⟩, ⟨.list [⟨11⟩], .dummy⟩,
        ⟨.list [⟨2⟩, ⟨3⟩, ⟨4⟩, ⟨12⟩], .dummy⟩, ⟨.list [⟨2⟩, ⟨3⟩, ⟨4⟩, ⟨13⟩], .dummy⟩,
        ⟨.list [⟨0⟩, ⟨1⟩, ⟨14⟩], .dummy⟩, ⟨.list [⟨0⟩, ⟨1⟩, ⟨15⟩], .dummy⟩],
        ⟨#["", "def", "f", "fn", "extern", "int", "a", "p", "char"]⟩⟩
      context := .start .standard
      memory := ()
      expander := .none
      maxExpansions := 128 })

/-- The forms are processed one after the other from a unit in which nothing is declared. -/
theorem run_overloadUnit (first second : NodeId) :
    Run (.start .standard .none ()) (overloadUnit first second) :=
  ((Run.refl.forest _).topLevel first).topLevel second

/-- The first overload of one unit is the second one of the other. -/
theorem sameFunctions_overloadUnit {p p' : Pool} (hp : p.Sound) (hp' : p'.Sound)
    (hint : p.SameType p' ⟨21⟩ ⟨22⟩) (hchar : p.SameType p' ⟨22⟩ ⟨21⟩) :
    Namespace.SameFunctions p p' ((overloadUnit ⟨16⟩ ⟨17⟩).context.namespaceOf .root)
      ((overloadUnit ⟨17⟩ ⟨16⟩).context.namespaceOf .root) := by
  have hfunctions : ((overloadUnit ⟨16⟩ ⟨17⟩).context.namespaceOf .root).functions =
      #[⟨"f", [⟨"a", ⟨21⟩⟩], .int, .external, "_kiln_f$$$LPp_int$RP", ⟨0⟩⟩,
        ⟨"f", [⟨"a", ⟨22⟩⟩], .int, .external, "_kiln_f$$$LPp_char$RP", ⟨1⟩⟩] := by
    decide +kernel
  have hfunctions' : ((overloadUnit ⟨17⟩ ⟨16⟩).context.namespaceOf .root).functions =
      #[⟨"f", [⟨"a", ⟨21⟩⟩], .int, .external, "_kiln_f$$$LPp_char$RP", ⟨0⟩⟩,
        ⟨"f", [⟨"a", ⟨22⟩⟩], .int, .external, "_kiln_f$$$LPp_int$RP", ⟨1⟩⟩] := by
    decide +kernel
  have hreturn : p.SameType p' .int .int := .primitive hp hp' .int
  have hints : Function.Same p p' ⟨"f", [⟨"a", ⟨21⟩⟩], .int, .external, "_kiln_f$$$LPp_int$RP", ⟨0⟩⟩
      ⟨"f", [⟨"a", ⟨22⟩⟩], .int, .external, "_kiln_f$$$LPp_int$RP", ⟨1⟩⟩ :=
    ⟨rfl, .cons ⟨rfl, hint⟩ .nil, hreturn, rfl, rfl⟩
  have hchars : Function.Same p p'
      ⟨"f", [⟨"a", ⟨22⟩⟩], .int, .external, "_kiln_f$$$LPp_char$RP", ⟨1⟩⟩
      ⟨"f", [⟨"a", ⟨21⟩⟩], .int, .external, "_kiln_f$$$LPp_char$RP", ⟨0⟩⟩ :=
    ⟨rfl, .cons ⟨rfl, hchar⟩ .nil, hreturn, rfl, rfl⟩
  refine ⟨fun f hf => ?_, fun f hf => ?_⟩
  · rw [hfunctions, Array.mem_def] at hf
    rw [hfunctions']
    rcases List.mem_pair.1 hf with rfl | rfl
    · refine ⟨_, ?_, hints⟩
      simp
    · refine ⟨_, ?_, hchars⟩
      simp
  · rw [hfunctions', Array.mem_def] at hf
    rw [hfunctions]
    rcases List.mem_pair.1 hf with rfl | rfl
    · refine ⟨_, ?_, hchars⟩
      simp
    · refine ⟨_, ?_, hints⟩
      simp

/-- Pointers to `int` and to `char` change their ids when the forms change their places. The
overload for a pointer to `int` is found all the same, the first one in one unit and the second one
in the other. -/
theorem functions_agree_overloadUnit :
    ((overloadUnit ⟨16⟩ ⟨17⟩).context.lookupFunction? "f" [⟨21⟩]).isSome = true ∧
      Option.Rel (Function.Same (overloadUnit ⟨16⟩ ⟨17⟩).context.pool
          (overloadUnit ⟨17⟩ ⟨16⟩).context.pool)
        ((overloadUnit ⟨16⟩ ⟨17⟩).context.lookupFunction? "f" [⟨21⟩])
        ((overloadUnit ⟨17⟩ ⟨16⟩).context.lookupFunction? "f" [⟨22⟩]) := by
  have hrun := run_overloadUnit ⟨16⟩ ⟨17⟩
  have hrun' := run_overloadUnit ⟨17⟩ ⟨16⟩
  have hp := hrun.valid.pool
  have hp' := hrun'.valid.pool
  have hint : Pool.SameType (overloadUnit ⟨16⟩ ⟨17⟩).context.pool
      (overloadUnit ⟨17⟩ ⟨16⟩).context.pool ⟨21⟩ ⟨22⟩ :=
    .pointer (by decide +kernel) (by decide +kernel) (.primitive hp hp' .int)
  have hchar : Pool.SameType (overloadUnit ⟨16⟩ ⟨17⟩).context.pool
      (overloadUnit ⟨17⟩ ⟨16⟩).context.pool ⟨22⟩ ⟨21⟩ :=
    .pointer (by decide +kernel) (by decide +kernel) (.primitive hp hp' .char)
  have hentered : (overloadUnit ⟨16⟩ ⟨17⟩).context.entered = [] ∧
      (overloadUnit ⟨17⟩ ⟨16⟩).context.entered = [] := by
    decide +kernel
  refine ⟨by decide +kernel, ?_⟩
  refine (functions_agree hrun).2.2.2.2 .standard .none () _ hrun' ?_ "f" _ _ (.cons hint .nil)
  rw [Context.chain, Context.chainIds, hentered.1, Context.chain, Context.chainIds, hentered.2]
  exact .cons (sameFunctions_overloadUnit hp hp' hint hchar) .nil

end Run

end FormCompiler
