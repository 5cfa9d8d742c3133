import FormCompiler.Lower.EnumFunctions
import FormCompiler.Proofs.Bounds.Context

/-!
# Declarations on the Context Stay in Bounds

The steps on a context with their accesses checked: those on its module and its pool, reports,
namespaces and registration, backend types, and the declaration of functions, those of enums among
them. The body of a function of an enum takes its arguments by position; it is given as many as it
has parameters.
-/

namespace FormCompiler.Context

namespace Checked

open FormCompiler.Checked (refuse demand free)

variable {ε α : Type} {c : Context}

/-! ## Parts of the context -/

/-- A step on the module alone. -/
def onModule (step : Checked ε Ir.Module α) : Checked ε Context α := fun c =>
  match step c.ir with
  | .ok a ir => .ok a (c.withIr ir)
  | .error e ir => .error e (c.withIr ir)

theorem onModule_passes {g : Checked ε Ir.Module α} {step : StateM Ir.Module α}
    {Q : α → Ir.Module → Prop} (h : Passes g (ofState step) c.ir Q) :
    Passes (onModule g) (ofState (Context.onModule step)) c fun a c' => Q a c'.ir := by
  intro hc
  obtain ⟨hsame, hafter, hQ⟩ := h hc.ir
  exact ⟨by rw [onModule, hsame]; rfl, hc.withIr hafter, hQ⟩

/-- Enters a type in the pool. -/
def intern (type : SourceType) : Checked ε Context TypeId :=
  ofState (Context.onPool (·.intern type))

theorem intern_passes {type : SourceType}
    (htype : ∀ pointee, type = .pointer pointee → c.pool.Has pointee) :
    Passes (intern type : Checked ε Context TypeId) (ofState (Context.onPool (·.intern type))) c
      fun t c' => c'.pool.Has t :=
  .step fun hc =>
    have ⟨hpool, ht⟩ := hc.pool.intern htype
    ⟨hc.withPool hpool (Pool.intern_spec c.pool type).1, ht⟩

/-- Runs an operation on the module and hands out its refusal. -/
def attempt (op : Checked Ir.Error Ir.Module α) : Checked ε Context (Except Ir.Error α) := fun c =>
  match op c.ir with
  | .ok a ir => .ok (.ok a) (c.withIr ir)
  | .error (.refused e) ir => .ok (.error e) (c.withIr ir)
  | .error (.fault f) ir => .error (.fault f) (c.withIr ir)

theorem attempt_passes {g : Checked Ir.Error Ir.Module α} {op : Ir.Build α}
    {Q : α → Ir.Module → Prop} (h : Passes g op c.ir Q) :
    Passes (attempt g : Checked ε Context (Except Ir.Error α)) (ofState (Context.attempt op)) c
      fun r c' => ∀ a, r = .ok a → Q a c'.ir := by
  intro hc
  obtain ⟨hsame, hends⟩ := h hc.ir
  unfold Ends attempt ofState
  rw [hsame, attempt_run]
  cases hop : op c.ir with
  | ok a ir =>
    obtain ⟨hafter, hQ⟩ := hends.of_ok hop
    refine ⟨rfl, hc.withIr hafter, ?_⟩
    rintro _ ⟨⟩
    exact hQ
  | error e ir => exact ⟨rfl, hc.withIr (hends.of_error hop), nofun⟩

/-- Number of errors in store. -/
def storedErrors (q : Queue) : Except Fault Nat := minus q.errorCount q.suppressed

/-- Reports an error and stops. -/
def fail (d : Diagnostic) : Checked Halt Context α := do
  let _ ← demand (storedErrors (← get).queue)
  free (Context.fail d)

theorem fail_passes {d : Diagnostic} {Q : α → Context → Prop} :
    Passes (fail d) (Context.fail d) c Q :=
  .given fun hc => .state (.look (minus_eq hc.queue) (.free fun hc => hc.report d))

/-- Runs an operation on the module; its refusal is reported. -/
def emitOr (refusal : Ir.Error → Diagnostic) (op : Checked Ir.Error Ir.Module α) :
    Checked Halt Context α := do
  match ← attempt op with
  | .ok a => pure a
  | .error e => fail (refusal e)

theorem emitOr_passes {g : Checked Ir.Error Ir.Module α} {op : Ir.Build α}
    {Q : α → Ir.Module → Prop} (refusal : Ir.Error → Diagnostic) (h : Passes g op c.ir Q) :
    Passes (emitOr refusal g) (Context.emitOr refusal op) c fun a c' => Q a c'.ir := by
  refine (attempt_passes h).bind fun r c₁ _ hr => ?_
  cases r with
  | ok a => exact .pure (hr a rfl)
  | error e => exact fail_passes

/-- Runs an operation on the module; its refusal is reported at a place in the source. -/
def emit (span : Span) (op : Checked Ir.Error Ir.Module α) : Checked Halt Context α :=
  emitOr (fun e => Report.backendError span e.message) op

/-! ## Namespaces and registration -/

/-- Enters the child namespace of a name, which is made if it is new. -/
def enter (name : String) : Checked ε Context NamespaceId := do
  let _ ← demand (current (← get))
  ofState (Context.enter name)

/-- A child is added to the current namespace. -/
theorem addChild_after (hc : c.InBounds) (name : String) :
    Bounds.After c { c with
      namespaces := (c.namespaces.push (.child name c.currentId c.current.chain)).modify
        c.currentId.index (·.addChild name ⟨c.namespaces.size⟩) } := by
  have hpush : Bounds.After c { c with
      namespaces := c.namespaces.push (.child name c.currentId c.current.chain) } := by
    refine hc.withNamespaces (by simp) fun ns hns => ?_
    rcases Array.mem_push.1 hns with hold | rfl
    · exact .inl hold
    · refine .inr ⟨?_, nofun, nofun, nofun, by simp [Namespace.child, Namespace.root]⟩
      rintro _ ⟨⟩
      simpa [HasNamespace] using Nat.lt_succ_of_lt hc.hasNamespace_currentId
  -- the child is in the table before its parent gets its id
  refine hpush.trans (hpush.inBounds.withNamespaces (by simp) fun ns hns => ?_)
  rcases mem_modify hns with hold | ⟨hlt, rfl⟩
  · exact .inl hold
  · have hold := hpush.inBounds.namespaces _ (Array.getElem_mem hlt)
    refine .inr (Namespace.InBounds.addChild (hold.mono ?_) name (by simp [HasNamespace]))
    exact ⟨.refl _, .refl _, by simp⟩

theorem enter_passes (name : String) :
    Passes (enter name : Checked ε Context NamespaceId) (ofState (Context.enter name)) c
      fun _ _ => True := by
  refine .given fun hc => .state (.look (current_eq hc) (.step fun _ => ⟨?_, trivial⟩))
  unfold Context.enter
  cases hchild : c.current.child? name with
  | some id =>
    have hid := hc.hasNamespace_child hc.hasNamespace_currentId hchild
    exact hc.withEntered (List.forall_mem_cons.2 ⟨hid, hc.entered⟩)
  | none =>
    have hadded := addChild_after hc name
    refine hadded.trans (hadded.inBounds.withEntered (List.forall_mem_cons.2 ⟨?_, ?_⟩))
    · simp [HasNamespace]
    · exact hadded.inBounds.entered

/-- Leaves the current namespace. The root is never left. -/
def leave : Checked ε Context PUnit := ofState Context.leave

theorem leave_passes :
    Passes (leave : Checked ε Context PUnit) (ofState Context.leave) c fun _ _ => True :=
  .step fun hc =>
    ⟨hc.withEntered fun id hid => hc.entered id (List.mem_of_mem_tail hid), trivial⟩

/-- Puts a changed namespace in the place of the current one, if there is one. -/
def update (changed? : Namespace → Option Namespace) : Checked ε Context Bool := do
  let ns ← demand (current (← get))
  ofState fun c => c.update (changed? ns)

theorem update_passes {changed? : Namespace → Option Namespace}
    (h : ∀ ns ns' : Namespace, ns.InBounds c → changed? ns = some ns' → ns'.InBounds c) :
    Passes (update changed? : Checked ε Context Bool)
      (ofState fun c => c.update (changed? c.current)) c fun _ _ => True := by
  refine .given fun hc => .state (.look (current_eq hc) (.step fun _ => ⟨?_, trivial⟩))
  unfold Context.update
  cases hchanged : changed? c.current with
  | none => exact .refl hc
  | some ns' =>
    have hns' := h _ ns' (hc.namespaceOf hc.hasNamespace_currentId) hchanged
    refine hc.withNamespaces (by simp) fun ns hns => ?_
    rcases Array.mem_or_eq_of_mem_setIfInBounds hns with hold | rfl
    · exact .inl hold
    · exact .inr (hns'.mono ⟨.refl _, .refl _, by simp⟩)

/-- Registers an enum in the current namespace unless the name is taken. -/
def addEnum (name : String) (e : Enum) : Checked ε Context Bool := update (·.addEnum? name e)

theorem addEnum_passes (name : String) {e : Enum} (he : e.InBounds c) :
    Passes (addEnum name e : Checked ε Context Bool) (ofState (Context.addEnum name e)) c
      fun _ _ => True := by
  refine update_passes fun ns ns' hns hadded => ?_
  obtain ⟨-, rfl⟩ : _ ∧ _ = ns' := by simpa [Namespace.addEnum?] using hadded
  exact { hns with enums := List.forall_mem_cons.2 ⟨he, hns.enums⟩ }

/-- Registers a struct in the current namespace unless the name is taken. -/
def addStruct (name : String) (s : Struct) : Checked ε Context Bool :=
  update (·.addStruct? name s)

theorem addStruct_passes (name : String) {s : Struct} (hs : s.InBounds c) :
    Passes (addStruct name s : Checked ε Context Bool) (ofState (Context.addStruct name s)) c
      fun _ _ => True := by
  refine update_passes fun ns ns' hns hadded => ?_
  obtain ⟨-, rfl⟩ : _ ∧ _ = ns' := by simpa [Namespace.addStruct?] using hadded
  exact { hns with structs := List.forall_mem_cons.2 ⟨hs, hns.structs⟩ }

/-- Registers an overload in the current namespace unless there is one like it. -/
def addFunction (f : Function) : Checked ε Context Bool := update (·.addFunction? f)

theorem addFunction_passes {f : Function} (hf : f.InBounds c) :
    Passes (addFunction f : Checked ε Context Bool) (ofState (Context.addFunction f)) c
      fun _ _ => True := by
  refine update_passes fun ns ns' hns hadded => ?_
  obtain ⟨-, rfl⟩ : _ ∧ _ = ns' := by simpa [Namespace.addFunction?] using hadded
  exact { hns with functions := fun f' hf' =>
    (Array.mem_push.1 hf').elim (hns.functions f') fun heq => heq ▸ hf }

/-- Gives a struct or enum type its backend type. -/
def setLayout (t : TypeId) (backend : Ir.TyId) : Checked ε Context PUnit :=
  ofState (Context.setLayout t backend)

theorem setLayout_passes {t : TypeId} {backend : Ir.TyId} (ht : c.pool.Has t)
    (hbackend : c.ir.HasTy backend) :
    Passes (setLayout t backend : Checked ε Context PUnit) (ofState (Context.setLayout t backend)) c
      fun _ _ => True := by
  refine .step fun hc => ⟨?_, trivial⟩
  refine hc.after ⟨.refl _, .refl _, Nat.le_refl _⟩ hc.pool hc.ir hc.queue (fun _ => .inl)
    (fun _ => .inl) fun layout hlayout => ?_
  rcases List.mem_cons.1 hlayout with rfl | hold
  · exact .inr ⟨ht, hbackend⟩
  · exact .inl hold

/-! ## Backend types -/

/-- The backend type of a type whose id is below `bound`. -/
def backendTypeBelow : (bound : Nat) → TypeId → Checked ε Context Ir.TyId
  | 0, _ => onModule (Ir.Checked.internType (.struct none []))
  | bound + 1, t => do
    let c ← get
    match ← demand (Pool.Checked.type c.pool t) with
    | .primitive p => onModule (Ir.Checked.internType (primitiveBackend c.pool.target p))
    | .pointer pointee =>
      if ← demand (Pool.Checked.has c.pool pointee .isVoid) then do
        let byte ← onModule (Ir.Checked.internType (.int 8))
        onModule (Ir.Checked.internType (.pointer byte))
      else do
        let inner ← backendTypeBelow bound pointee
        onModule (Ir.Checked.internType (.pointer inner))
    | .struct _ _ | .enum _ _ =>
      match c.layouts.lookup t with
      | some backend => return backend
      | none => onModule (Ir.Checked.internType (.struct none []))

/-- An unnamed backend type may be entered. -/
theorem internType_passes {ty : Ir.Ty} (hunnamed : ty.isNamed = false) (hty : ty.InBounds c.ir) :
    Passes (onModule (Ir.Checked.internType ty) : Checked ε Context Ir.TyId)
      (ofState (Context.onModule (Ir.Module.internType ty))) c fun t c' => c'.ir.HasTy t :=
  onModule_passes ((Ir.Checked.internType_passes hunnamed hty).mono fun _ _ _ h => h.1)

/-- The backend type of a primitive type is made of no others, and an integer has 1 to 128 bits. -/
theorem primitiveBackend_inBounds (hc : c.InBounds) (p : Primitive) :
    (primitiveBackend c.pool.target p).isNamed = false ∧
      (primitiveBackend c.pool.target p).InBounds c.ir := by
  unfold primitiveBackend
  cases hint : p.intWidth? c.pool.target with
  | some bits =>
    refine ⟨rfl, nofun, ?_⟩
    rintro _ ⟨⟩
    exact hc.pool.width p hint
  | none =>
    cases p.floatWidth? c.pool.target with
    | some bits => exact ⟨rfl, nofun, nofun⟩
    | none =>
      dsimp only
      split
      · exact ⟨rfl, nofun, by simp⟩
      · exact ⟨rfl, nofun, nofun⟩

theorem backendTypeBelow_passes (bound : Nat) {t : TypeId} (ht : c.pool.Has t) :
    Passes (backendTypeBelow bound t : Checked ε Context Ir.TyId)
      (ofState (Context.backendTypeBelow bound t)) c fun ty c' => c'.ir.HasTy ty := by
  -- the backend type of what has none, in whatever context the walk gets there
  have hempty : ∀ c : Context, Passes
      (onModule (Ir.Checked.internType (.struct none [])) : Checked ε Context Ir.TyId)
      (ofState (Context.onModule (Ir.Module.literalStruct []))) c fun ty c' => c'.ir.HasTy ty :=
    fun c => internType_passes rfl ⟨by simp [Ir.Ty.parts], by simp⟩
  induction bound generalizing c t with
  | zero => exact hempty c
  | succ bound ih =>
    unfold backendTypeBelow
    refine .given fun hc => .state (.look (Pool.Checked.type_eq ht) ?_)
    cases htype : c.pool.type t with
    | primitive p =>
      obtain ⟨hunnamed, hty⟩ := primitiveBackend_inBounds hc p
      refine .congr (internType_passes hunnamed hty) ?_
      simp only [ofState, Context.backendTypeBelow, htype]
    | pointer pointee =>
      have hpointee := hc.pool.has_pointee ht htype
      refine .look (Pool.Checked.has_eq hpointee _) ?_
      cases hvoid : (c.pool.type pointee).has .isVoid with
      | true =>
        have hbyte : Passes (onModule (Ir.Checked.internType (.int 8)) : Checked ε Context Ir.TyId)
            (ofState (Context.onModule (Ir.Module.intType 8))) c fun ty c' => c'.ir.HasTy ty :=
          internType_passes rfl ⟨by simp [Ir.Ty.parts], by simp⟩
        refine .congr (hbyte.bind fun byte c₁ _ hbyte =>
          internType_passes rfl ⟨by simpa [Ir.Ty.parts] using hbyte, by simp⟩) ?_
        simp only [ofState, Context.backendTypeBelow, htype, Pool.isVoid, hvoid]
        rfl
      | false =>
        refine .congr ((ih hpointee).bind fun inner c₁ _ hinner =>
          internType_passes rfl ⟨by simpa [Ir.Ty.parts] using hinner, by simp⟩) ?_
        simp only [ofState, Context.backendTypeBelow, htype, Pool.isVoid, hvoid]
        rfl
    | struct name path | enum name path =>
      dsimp only
      cases hlayout : c.layouts.lookup t with
      | some backend =>
        refine .returned ?_ (hc.layouts _ (mem_of_lookup hlayout)).2
        simp only [ofState, Context.backendTypeBelow, htype, hlayout]
      | none =>
        refine .congr (hempty c) ?_
        simp only [ofState, Context.backendTypeBelow, htype, hlayout]

/-- The backend type of a type. -/
def backendType (t : TypeId) : Checked ε Context Ir.TyId := backendTypeBelow (t.index + 1) t

theorem backendType_passes {t : TypeId} (ht : c.pool.Has t) :
    Passes (backendType t : Checked ε Context Ir.TyId) (ofState (Context.backendType t)) c
      fun ty c' => c'.ir.HasTy ty :=
  backendTypeBelow_passes (t.index + 1) ht

/-- The backend types of several types, in order. -/
def backendTypes : List TypeId → Checked ε Context (List Ir.TyId)
  | [] => pure []
  | t :: ts => do
    let b ← backendType t
    let bs ← backendTypes ts
    return b :: bs

theorem backendTypes_passes {ts : List TypeId} (hts : ∀ t ∈ ts, c.pool.Has t) :
    Passes (backendTypes ts : Checked ε Context (List Ir.TyId)) (ofState (Context.backendTypes ts))
      c fun bs c' => bs.length = ts.length ∧ ∀ b ∈ bs, c'.ir.HasTy b := by
  induction ts generalizing c with
  | nil => exact .pure ⟨rfl, nofun⟩
  | cons t ts ih =>
    simp only [backendTypes, Context.backendTypes, ofState_bind, ofState_pure]
    refine (backendType_passes (hts t List.mem_cons_self)).bind fun b c₁ hc₁ hb => ?_
    have hts₁ : ∀ t ∈ ts, c₁.pool.Has t := fun t ht =>
      hc₁.grows.pool.has (hts t (List.mem_cons_of_mem _ ht))
    refine (ih hts₁).bind fun bs c₂ hc₂ ⟨hlength, hbs⟩ => .pure ⟨congrArg Nat.succ hlength, ?_⟩
    exact List.forall_mem_cons.2 ⟨hc₂.grows.ir.hasTy hb, hbs⟩

/-- The value that stands for the result of forms of type `void`. -/
def voidValue : Checked ε Context Ir.ValueId := do
  let void ← onModule (Ir.Checked.internType .void)
  onModule (Ir.Checked.newValue void .undefined)

theorem voidValue_passes :
    Passes (voidValue : Checked ε Context Ir.ValueId) (ofState Context.voidValue) c
      fun v c' => c'.ir.HasValue v := by
  simp only [voidValue, Context.voidValue, ofState_bind]
  refine (internType_passes rfl ⟨by simp [Ir.Ty.parts], by simp⟩).bind fun void c₁ _ hvoid => ?_
  exact onModule_passes ((Ir.Checked.newValue_passes hvoid (by simp)).mono fun _ _ _ h => h.1)

/-! ## Functions -/

/-- Declares an overload in the module and in the current namespace. -/
def declareFunction (name : String) (params : List Param) (returnType : TypeId)
    (linkage : Ir.Linkage) (span : Span) : Checked Halt Context Ir.FuncId := do
  let redeclared := Report.redeclaration .functionRedeclared span name
  let paramTypes := params.map (·.ty)
  let ns ← demand (current (← get))
  if (ns.overload? name paramTypes).isSome then
    fail redeclared
  else
    let symbol ← demand (functionSymbol (← get) name paramTypes)
    let backendParams ← backendTypes paramTypes
    let ret ← backendType returnType
    let refusal (e : Ir.Error) : Diagnostic :=
      match e with
      | .duplicateSymbol _ => redeclared
      | e => Report.backendError span e.message
    let backend ←
      emitOr refusal (Ir.Checked.declareFunction symbol backendParams ret linkage)
    let _ ← addFunction ⟨name, params, returnType, linkage, symbol, backend⟩
    return backend

theorem declareFunction_passes (name : String) {params : List Param} {returnType : TypeId}
    (linkage : Ir.Linkage) (span : Span) (hparams : ∀ p ∈ params, c.pool.Has p.ty)
    (hreturn : c.pool.Has returnType) :
    Passes (declareFunction name params returnType linkage span)
      (Context.declareFunction name params returnType linkage span) c
      fun func c' => c'.ir.HasFunction func ∧
        (c'.ir.function func).params.length = params.length := by
  have htypes : ∀ t ∈ params.map (·.ty), c.pool.Has t := List.forall_mem_map.2 hparams
  refine .given fun hc => .get (.look (current_eq hc) (.ite (fun _ => fail_passes) fun _ => ?_))
  refine .get (.look (functionSymbol_eq hc name htypes) ?_)
  refine (backendTypes_passes htypes).bind fun backendParams c₁ hc₁ ⟨hlength, hbackendParams⟩ => ?_
  refine (backendType_passes (hc₁.grows.pool.has hreturn)).bind fun ret c₂ hc₂ hret => ?_
  have hc₂' := hc₁.trans hc₂
  refine (emitOr_passes _ (Ir.Checked.declareFunction_passes _ linkage
    (fun t ht => hc₂.grows.ir.hasTy (hbackendParams t ht)) hret)).bind
    fun backend c₃ hc₃ ⟨hbackend, hbackendLength⟩ => ?_
  have hc₃' := hc₂'.trans hc₃
  refine (addFunction_passes ⟨fun p hp => hc₃'.grows.pool.has (hparams p hp),
    hc₃'.grows.pool.has hreturn, hbackend⟩).bind fun _ c₄ hc₄ _ => .pure ?_
  refine ⟨hc₄.grows.ir.hasFunction hbackend, ?_⟩
  rw [(hc₄.grows.ir.function _ hbackend).params, hbackendLength, hlength, List.length_map]

/-- In modules that extend `m₀`, the body of a function with a number of parameters passes all
checks. -/
def BodyPasses (m₀ : Ir.Module) (count : Nat)
    (g : Ir.BlockId → List Ir.ValueId → Checked Ir.Error Ir.Module Ir.ValueId)
    (x : Ir.BlockId → List Ir.ValueId → Ir.Build Ir.ValueId) : Prop :=
  ∀ (m : Ir.Module) (b : Ir.BlockId) (arguments : List Ir.ValueId), m₀.Extends m → m.HasBlock b →
    (∀ v ∈ arguments, m.HasValue v) → arguments.length = count →
      Passes (g b arguments) (x b arguments) m fun v m' => m'.HasValue v

/-- Declares a function and gives it one block that returns what the body computes from the
parameters. -/
def defineOneBlock (name : String) (params : List Param) (returnType : TypeId)
    (linkage : Ir.Linkage) (span : Span)
    (body : Ir.BlockId → List Ir.ValueId → Checked Ir.Error Ir.Module Ir.ValueId) :
    Checked Halt Context PUnit := do
  let func ← declareFunction name params returnType linkage span
  let entry ← onModule (Ir.Checked.appendBlock func "entry")
  -- the body takes its arguments by position
  let arguments := (← demand (Ir.Checked.function (← get).ir func)).params
  let computeAndReturn : Checked Ir.Error Ir.Module PUnit := do
    let v ← body entry arguments
    Ir.Checked.ret entry (some v)
  match ← attempt computeAndReturn with
  | .ok _ => return ⟨⟩
  | .error e => do
    let _ ← onModule (Ir.Checked.finishFunction func)
    fail (Report.backendError span e.message)

theorem defineOneBlock_passes (name : String) (params : List Param) {returnType : TypeId}
    (linkage : Ir.Linkage) (span : Span)
    {g : Ir.BlockId → List Ir.ValueId → Checked Ir.Error Ir.Module Ir.ValueId}
    {body : Ir.BlockId → List Ir.ValueId → Ir.Build Ir.ValueId}
    (hparams : ∀ p ∈ params, c.pool.Has p.ty) (hreturn : c.pool.Has returnType)
    (hbody : BodyPasses c.ir params.length g body) :
    Passes (defineOneBlock name params returnType linkage span g)
      (Context.defineOneBlock name params returnType linkage span body) c fun _ _ => True := by
  refine (declareFunction_passes name linkage span hparams hreturn).bind
    fun func c₁ hc₁ ⟨hfunc₁, hlength₁⟩ => ?_
  refine (onModule_passes (Ir.Checked.appendBlock_passes "entry" hfunc₁)).bind
    fun entry c₂ hc₂ hentry => ?_
  have hfunc₂ := hc₂.grows.ir.hasFunction hfunc₁
  refine .get (.look (Ir.Checked.function_eq hfunc₂) ?_)
  have hsound := hc₂.inBounds.ir.functions _ (Ir.Checked.function_mem hfunc₂)
  have hlength : (c₂.ir.function func).params.length = params.length := by
    rw [(hc₂.grows.ir.function _ hfunc₁).params, hlength₁]
  have hcompute := hbody c₂.ir entry (c₂.ir.function func).params
    (hc₁.trans hc₂).grows.ir.toExtends hentry hsound.params hlength
  refine (attempt_passes (hcompute.bind fun v m hm hv =>
    Ir.Checked.ret_passes (hm.grows.hasBlock hentry) (by simpa using hv))).bind
    fun outcome c₃ hc₃ _ => ?_
  cases outcome with
  | ok _ => exact .pure trivial
  | error e =>
    refine (onModule_passes (Ir.Checked.finishFunction_passes
      (hc₃.grows.ir.hasFunction hfunc₂))).bind fun _ c₄ _ _ => fail_passes

/-! ## Functions of enums -/

/-- The body of the constructor: an aggregate that holds the argument. -/
def constructorBody (backing : Ir.TyId) (b : Ir.BlockId) (arguments : List Ir.ValueId) :
    Checked Ir.Error Ir.Module Ir.ValueId := do
  let blank ← Ir.Checked.newValue backing .undefined
  Ir.Checked.insertValue b blank (← demand (itemAt arguments 0)) 0

theorem constructorBody_passes {m₀ : Ir.Module} {backing : Ir.TyId} (hbacking : m₀.HasTy backing) :
    BodyPasses m₀ 1 (constructorBody backing) (Context.constructorBody backing) := by
  intro m b arguments hm hb harguments hlength
  obtain ⟨value, rfl⟩ := List.length_eq_one_iff.1 hlength
  refine (Ir.Checked.newValue_passes (hm.hasTy hbacking) (by simp)).bind
    fun blank m₁ hm₁ hblank => ?_
  refine .look rfl (Ir.Checked.insertValue_passes 0 (hm₁.grows.hasBlock hb) hblank.1 ?_)
  exact hm₁.grows.hasValue (harguments value List.mem_cons_self)

/-- The body of the conversion: what the argument holds. -/
def conversionBody (b : Ir.BlockId) (arguments : List Ir.ValueId) :
    Checked Ir.Error Ir.Module Ir.ValueId := do
  Ir.Checked.extractValue b (← demand (itemAt arguments 0)) 0

theorem conversionBody_passes (m₀ : Ir.Module) :
    BodyPasses m₀ 1 conversionBody Context.conversionBody := by
  intro m b arguments hm hb harguments hlength
  obtain ⟨value, rfl⟩ := List.length_eq_one_iff.1 hlength
  exact .look rfl (Ir.Checked.extractValue_passes 0 hb (harguments value List.mem_cons_self))

/-- The body of a comparison: what the arguments hold, compared. -/
def comparisonBody (predicate : Ir.IntPredicate) (b : Ir.BlockId) (arguments : List Ir.ValueId) :
    Checked Ir.Error Ir.Module Ir.ValueId := do
  let lhs ← Ir.Checked.extractValue b (← demand (itemAt arguments 0)) 0
  let rhs ← Ir.Checked.extractValue b (← demand (itemAt arguments 1)) 0
  Ir.Checked.icmp b predicate lhs rhs

theorem comparisonBody_passes (m₀ : Ir.Module) (predicate : Ir.IntPredicate) :
    BodyPasses m₀ 2 (comparisonBody predicate) (Context.comparisonBody predicate) := by
  intro m b arguments hm hb harguments hlength
  obtain ⟨first, second, rfl⟩ := List.length_eq_two.1 hlength
  have hsecond := harguments second (by simp)
  refine .look rfl ((Ir.Checked.extractValue_passes 0 hb (harguments first (by simp))).bind
    fun lhs m₁ hm₁ hlhs => ?_)
  have hb₁ := hm₁.grows.hasBlock hb
  refine .look rfl ((Ir.Checked.extractValue_passes 0 hb₁ (hm₁.grows.hasValue hsecond)).bind
    fun rhs m₂ hm₂ hrhs => ?_)
  exact Ir.Checked.icmp_passes predicate (hm₂.grows.hasBlock hb₁) (hm₂.grows.hasValue hlhs) hrhs

/-- Declares comparisons of an enum type. -/
def defineComparisons (enumTy : TypeId) (signed : Bool) (linkage : Ir.Linkage) (span : Span) :
    List Comparison → Checked Halt Context PUnit
  | [] => return ⟨⟩
  | comparison :: rest => do
    let predicate := if signed then comparison.signed else comparison.unsigned
    defineOneBlock comparison.operator [⟨"a", enumTy⟩, ⟨"b", enumTy⟩] .bool linkage span
      (comparisonBody predicate)
    defineComparisons enumTy signed linkage span rest

theorem defineComparisons_passes {enumTy : TypeId} (signed : Bool) (linkage : Ir.Linkage)
    (span : Span) (comparisons : List Comparison) (henum : c.pool.Has enumTy) :
    Passes (defineComparisons enumTy signed linkage span comparisons)
      (Context.defineComparisons enumTy signed linkage span comparisons) c fun _ _ => True := by
  induction comparisons generalizing c with
  | nil => exact .pure trivial
  | cons comparison rest ih =>
    refine .given fun hc => ?_
    refine (defineOneBlock_passes _ [⟨"a", enumTy⟩, ⟨"b", enumTy⟩] linkage span
      (by simpa using henum) (hc.pool.has_primitive .bool) (comparisonBody_passes c.ir _)).bind
        fun _ c₁ hc₁ _ => ?_
    exact ih (hc₁.grows.pool.has henum)

/-- Declares the functions of an enum in the current namespace. -/
def defineEnumFunctions (name : String) (enumTy underlying : TypeId) (linkage : Ir.Linkage)
    (span : Span) : Checked Halt Context PUnit := do
  let backing ← backendType enumTy
  defineOneBlock name [⟨"value", underlying⟩] enumTy linkage span (constructorBody backing)
  let conversion ← demand (typeName (← get) underlying)
  defineOneBlock conversion [⟨"value", enumTy⟩] underlying linkage span conversionBody
  let signed ← demand (Pool.Checked.has (← get).pool underlying .isSigned)
  defineComparisons enumTy signed linkage span comparisons

theorem defineEnumFunctions_passes (name : String) {enumTy underlying : TypeId}
    (linkage : Ir.Linkage) (span : Span) (henum : c.pool.Has enumTy)
    (hunderlying : c.pool.Has underlying) :
    Passes (defineEnumFunctions name enumTy underlying linkage span)
      (Context.defineEnumFunctions name enumTy underlying linkage span) c fun _ _ => True := by
  refine (backendType_passes henum).bind fun backing c₁ hc₁ hbacking => ?_
  have henum₁ := hc₁.grows.pool.has henum
  have hunderlying₁ := hc₁.grows.pool.has hunderlying
  refine (defineOneBlock_passes name [⟨"value", underlying⟩] linkage span
    (by simpa using hunderlying₁) henum₁ (constructorBody_passes hbacking)).bind
      fun _ c₂ hc₂ _ => ?_
  have henum₂ := hc₂.grows.pool.has henum₁
  have hunderlying₂ := hc₂.grows.pool.has hunderlying₁
  refine .get (.look (typeName_eq hc₂.inBounds hunderlying₂) ?_)
  refine (defineOneBlock_passes _ [⟨"value", enumTy⟩] linkage span (by simpa using henum₂)
    hunderlying₂ (conversionBody_passes c₂.ir)).bind fun _ c₃ hc₃ _ => ?_
  refine .get (.look (Pool.Checked.has_eq (hc₃.grows.pool.has hunderlying₂) _) ?_)
  exact defineComparisons_passes _ linkage span comparisons (hc₃.grows.pool.has henum₂)

end Checked

end FormCompiler.Context
