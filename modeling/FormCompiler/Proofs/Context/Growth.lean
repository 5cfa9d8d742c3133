import FormCompiler.Context.Declare
import FormCompiler.Proofs.Ir.Operations

/-!
# Steps that Declare Nothing

Most steps on the context enter types and add to the module, but leave the namespaces and the
layouts alone. `Within P R c c'` says so of two contexts, where `P` relates the pools and `R` the
modules. For looking up and entering backend types, `P` is equality and `R` is `Still`; for emitting
code, `R` is `Extends`.
-/

namespace FormCompiler

/-- The types of the second pool are those of the first one and further ones. -/
structure Pool.Extends (p p' : Pool) : Prop where
  types : Grown p.types p'.types
  target : p'.target = p.target

namespace Pool.Extends

variable {p p' p'' : Pool}

/-- A pool extends itself. -/
theorem refl (p : Pool) : p.Extends p := ⟨.refl _, rfl⟩

/-- A pool may be extended several times. -/
theorem trans (h : p.Extends p') (h' : p'.Extends p'') : p.Extends p'' :=
  ⟨h.types.trans h'.types, h'.target.trans h.target⟩

/-- The types of the first pool. -/
theorem type (h : p.Extends p') {t : TypeId} (ht : t.index < p.types.size) :
    p'.type t = p.type t := h.types.getD ht _

/-- A type that was found is found again. -/
theorem find? (h : p.Extends p') {type : SourceType} {t : TypeId}
    (ht : p.find? type = some t) : p'.find? type = some t := by
  rw [Pool.find?, Option.map_eq_some_iff] at ht ⊢
  obtain ⟨i, hi, rfl⟩ := ht
  exact ⟨i, h.types.findIdx? hi, rfl⟩

end Pool.Extends

namespace Pool

/-- A type that is entered is found afterwards. -/
theorem intern_spec (p : Pool) (type : SourceType) :
    p.Extends (p.intern type).2 ∧ (p.intern type).2.find? type = some (p.intern type).1 := by
  unfold intern
  cases hfind : p.find? type with
  | some t => exact ⟨.refl p, hfind⟩
  | none =>
    refine ⟨⟨.push _ _, rfl⟩, ?_⟩
    rw [find?, Option.map_eq_none_iff] at hfind
    simp [find?, Array.findIdx?_push, hfind, size]

/-- An id under which a type is found stands for that type. -/
theorem type_of_find {p : Pool} {type : SourceType} {t : TypeId} (h : p.find? type = some t) :
    p.types[t.index]? = some type := by
  rw [find?, Option.map_eq_some_iff] at h
  obtain ⟨i, hi, rfl⟩ := h
  obtain ⟨hlt, hp, -⟩ := Array.findIdx?_eq_some_iff_getElem.1 hi
  rw [Array.getElem?_eq_getElem hlt, eq_of_beq hp]

/-- The type of an id that is in the pool. -/
theorem type_of_getElem? {p : Pool} {t : TypeId} {type : SourceType}
    (h : p.types[t.index]? = some type) : p.type t = type := by
  simp [Pool.type, Array.getD_eq_getD_getElem?, h]

/-- The type of an id in range stands at its index. -/
theorem getElem?_type {p : Pool} {t : TypeId} (ht : t.index < p.types.size) :
    p.types[t.index]? = some (p.type t) := by
  rw [type, Array.getD_eq_getD_getElem?, Array.getElem?_eq_getElem ht, Option.getD_some]

/-- An id out of range counts as one of `void`. -/
theorem type_of_ge {p : Pool} {t : TypeId} (ht : p.types.size ≤ t.index) :
    p.type t = .primitive .void := by
  rw [type, Array.getD_eq_getD_getElem?, Array.getElem?_eq_none ht, Option.getD_none]
  rfl

/-- An id of another type than `void` is in range. -/
theorem getElem?_of_type {p : Pool} {t : TypeId} {type : SourceType} (h : p.type t = type)
    (hne : type ≠ .primitive .void) : p.types[t.index]? = some type := by
  have ht : t.index < p.types.size := by
    by_contra hge
    exact hne (h.symm.trans (type_of_ge (Nat.le_of_not_lt hge)))
  rw [getElem?_type ht, h]

/-- What has a pointee is a pointer type. -/
theorem type_of_pointee? {p : Pool} {t pointee : TypeId} (h : p.pointee? t = some pointee) :
    p.type t = .pointer pointee := by
  unfold pointee? at h
  split at h
  next htype =>
    cases h
    exact htype
  next => cases h

/-- What has a pointee is a pointer type of the pool. -/
theorem getElem?_of_pointee? {p : Pool} {t pointee : TypeId} (h : p.pointee? t = some pointee) :
    p.types[t.index]? = some (.pointer pointee) :=
  getElem?_of_type (type_of_pointee? h) fun heq => by cases heq

/-- Only `void` is `void`. -/
theorem type_of_isVoid {p : Pool} {t : TypeId} (h : p.isVoid t = true) :
    p.type t = .primitive .void := by
  unfold isVoid at h
  cases htype : p.type t with
  | primitive q =>
    rw [htype] at h
    rw [eq_of_beq h]
  | pointer pointee =>
    rw [htype] at h
    cases h
  | struct name path =>
    rw [htype] at h
    cases h
  | enum name path =>
    rw [htype] at h
    cases h

end Pool

/-- The integer types are those that have a width. -/
theorem Primitive.isSome_intWidth? (target : Target) (q : Primitive) :
    (q.intWidth? target).isSome = q.isInteger := by
  cases q <;> rfl

namespace Pool

variable {p p' : Pool} {t : TypeId}

/-- An integer type is in the pool. -/
theorem lt_of_isInteger (h : p.isInteger t = true) : t.index < p.types.size := by
  by_contra hge
  rw [isInteger, type_of_ge (Nat.le_of_not_lt hge)] at h
  cases h

/-- An integer type stays one. -/
theorem Extends.isInteger (h : p.Extends p') (ht : p.isInteger t = true) :
    p'.isInteger t = true := by
  rwa [Pool.isInteger, h.type (lt_of_isInteger ht), ← Pool.isInteger]

/-- An integer type is a primitive type with a width. -/
theorem of_isInteger (h : p.isInteger t = true) :
    ∃ q bits, p.types[t.index]? = some (.primitive q) ∧ q.intWidth? p.target = some bits := by
  have hlt := lt_of_isInteger h
  obtain ⟨type, htype⟩ : ∃ type, p.types[t.index]? = some type :=
    ⟨_, Array.getElem?_eq_getElem hlt⟩
  rw [isInteger, type_of_getElem? htype] at h
  cases type with
  | primitive q =>
    have hwidth := Primitive.isSome_intWidth? p.target q
    rw [show q.isInteger = true from h, Option.isSome_iff_exists] at hwidth
    obtain ⟨bits, hbits⟩ := hwidth
    exact ⟨q, bits, htype, hbits⟩
  | pointer pointee => cases h
  | struct name path => cases h
  | enum name path => cases h

end Pool

namespace Context

/-! ## Parts of the context replaced -/

/-- The context with another module. -/
def withIr (c : Context) (ir : Ir.Module) : Context := { c with ir }

/-- The context with another pool. -/
def withPool (c : Context) (pool : Pool) : Context := { c with pool }

/-- A step on the module changes the module only. -/
theorem onModule_run {α : Type} (step : StateM Ir.Module α) (c : Context) :
    onModule step c = ((step c.ir).1, c.withIr (step c.ir).2) := rfl

/-- A step on the pool changes the pool only. -/
theorem onPool_run {α : Type} (step : Pool → α × Pool) (c : Context) :
    onPool step c = ((step c.pool).1, c.withPool (step c.pool).2) := rfl

/-- An operation on the module changes the module only, also if it is refused. -/
theorem attempt_run {α : Type} (op : Ir.Build α) (c : Context) :
    attempt op c =
      match op c.ir with
      | .ok a ir => (.ok a, c.withIr ir)
      | .error e ir => (.error e, c.withIr ir) := rfl

/-! ## The relation -/

/-- The pools are related by `P`, the modules by `R`, and nothing was declared. -/
structure Within (P : Pool → Pool → Prop) (R : Ir.Module → Ir.Module → Prop)
    (c c' : Context) : Prop where
  pool : P c.pool c'.pool
  ir : R c.ir c'.ir
  namespaces : c'.namespaces = c.namespaces
  entered : c'.entered = c.entered
  layouts : c'.layouts = c.layouts
  onceTag : c'.onceTag = c.onceTag

namespace Within

variable {P P' : Pool → Pool → Prop} {R R' : Ir.Module → Ir.Module → Prop} {c c' : Context}

instance [Std.Refl P] [Std.Refl R] : Std.Refl (Within P R) :=
  ⟨fun _ => ⟨Std.Refl.refl _, Std.Refl.refl _, rfl, rfl, rfl, rfl⟩⟩

instance [IsTrans Pool P] [IsTrans Ir.Module R] : IsTrans Context (Within P R) where
  trans _ _ _ h h' := ⟨IsTrans.trans _ _ _ h.pool h'.pool, IsTrans.trans _ _ _ h.ir h'.ir,
    h'.namespaces.trans h.namespaces, h'.entered.trans h.entered,
    h'.layouts.trans h.layouts, h'.onceTag.trans h.onceTag⟩

/-- Wider relations of the parts. -/
theorem mono (h : Within P R c c') (hP : ∀ p p', P p p' → P' p p')
    (hR : ∀ m m', R m m' → R' m m') : Within P' R' c c' :=
  ⟨hP _ _ h.pool, hR _ _ h.ir, h.namespaces, h.entered, h.layouts, h.onceTag⟩

/-- Another module. -/
theorem of_ir [Std.Refl P] {ir : Ir.Module} (h : R c.ir ir) : Within P R c (c.withIr ir) :=
  ⟨Std.Refl.refl _, h, rfl, rfl, rfl, rfl⟩

/-- Another pool. -/
theorem of_pool [Std.Refl R] {pool : Pool} (h : P c.pool pool) :
    Within P R c (c.withPool pool) :=
  ⟨h, Std.Refl.refl _, rfl, rfl, rfl, rfl⟩

/-- The queue of diagnostics is not looked at. -/
theorem of_queue [Std.Refl P] [Std.Refl R] {queue : Queue} : Within P R c { c with queue } :=
  ⟨Std.Refl.refl _, Std.Refl.refl _, rfl, rfl, rfl, rfl⟩

/-- The namespaces are the same. -/
theorem namespaceOf (h : Within P R c c') (id : NamespaceId) :
    c'.namespaceOf id = c.namespaceOf id := by
  rw [Context.namespaceOf, h.namespaces, Context.namespaceOf]

/-- The chain of namespaces is the same. -/
theorem chain (h : Within P R c c') : c'.chain = c.chain := by
  rw [Context.chain, chainIds, h.entered, Context.chain, chainIds]
  exact List.map_congr_left fun id _ => h.namespaceOf id

/-- The current namespace is the same. -/
theorem current (h : Within P R c c') : c'.current = c.current := by
  rw [Context.current, h.namespaceOf, currentId, h.entered, Context.current, currentId]

/-- The path of the current namespace is the same. -/
theorem path (h : Within P R c c') : c'.path = c.path := congrArg Namespace.path h.current

/-- The backend names of structs are the same. -/
theorem structSymbol (h : Within P R c c') (name : String) :
    c'.structSymbol name = c.structSymbol name := by
  rw [Context.structSymbol, h.path, Context.structSymbol]

/-- The overloads in scope are the same. -/
theorem lookupFunction? (h : Within P R c c') (name : String) (arguments : List TypeId) :
    c'.lookupFunction? name arguments = c.lookupFunction? name arguments := by
  rw [Context.lookupFunction?, h.chain, Context.lookupFunction?]

/-- The names of functions in scope are the same. -/
theorem hasFunction (h : Within P R c c') (name : String) :
    c'.hasFunction name = c.hasFunction name := by
  rw [Context.hasFunction, h.chain, Context.hasFunction]

/-- A path leads to the same namespace. -/
theorem descend? (h : Within P R c c') (id : NamespaceId) (path : List String) :
    c'.descend? id path = c.descend? id path := by
  induction path generalizing id with
  | nil => rfl
  | cons name rest ih =>
    rw [Context.descend?, Context.descend?, h.namespaceOf]
    cases (c.namespaceOf id).child? name with
    | none => rfl
    | some child => exact ih child

/-- The namespace of a path is the same. -/
theorem namespaceAt? (h : Within P R c c') (path : List String) :
    c'.namespaceAt? path = c.namespaceAt? path := by
  rw [Context.namespaceAt?, h.descend?, Context.namespaceAt?]
  cases c.descend? .root path with
  | none => rfl
  | some id => exact congrArg some (h.namespaceOf id)

end Within

/-! ## Steps -/

variable {P : Pool → Pool → Prop} {R : Ir.Module → Ir.Module → Prop} {α : Type}

/-- A step that never stops, given what it does. -/
theorem always_of_eq {step : StateM Context α} {c c' : Context} {a : α} (h : step c = (a, c')) :
    always step c = .ok a c' := by
  unfold always
  rw [h]

/-- A step that never stops, by its run. -/
theorem always_ends (step : StateM Context α) (c : Context) :
    Ends (always step) c (fun a c' => step c = (a, c')) fun _ => False := rfl

/-- A step that never stops. -/
theorem always_keeps {S : Context → Context → Prop} {step : StateM Context α}
    (h : Moves S step) : Keeps S (always step) := fun c => h c

/-- A step on the module. -/
theorem onModule_moves [Std.Refl P] {step : StateM Ir.Module α} (h : Moves R step) :
    Moves (Within P R) (onModule step) := fun c => .of_ir (h c.ir)

/-- A step on the pool. -/
theorem onPool_moves [Std.Refl R] {step : Pool → α × Pool}
    (h : ∀ p : Pool, P p (step p).2) : Moves (Within P R) (onPool step) :=
  fun c => .of_pool (h c.pool)

/-- An operation on the module, accepted or refused. -/
theorem attempt_moves [Std.Refl P] {op : Ir.Build α} (h : Keeps R op) :
    Moves (Within P R) (attempt op) := by
  intro c
  rw [attempt_run]
  have hc := h.ends c.ir
  cases hop : op c.ir with
  | ok a ir => exact .of_ir (hc.of_ok hop)
  | error e ir => exact .of_ir (hc.of_error hop)

/-- Stopping with a report. -/
theorem fail_keeps [Std.Refl P] [Std.Refl R] (d : Diagnostic) :
    Keeps (Within P R) (fail d : Check α) := fun c => (Within.of_queue : Within P R c _)

/-- An operation on the module that is accepted. -/
theorem emitOr_of_ok (refusal : Ir.Error → Diagnostic) {op : Ir.Build α} {c : Context} {a : α}
    {ir : Ir.Module} (h : op c.ir = .ok a ir) : emitOr refusal op c = .ok a (c.withIr ir) := by
  have hattempt : attempt op c = (.ok a, c.withIr ir) := by rw [attempt_run, h]
  exact bind_run (always_of_eq hattempt)

/-- An operation on the module that is refused, with a report. -/
theorem emitOr_of_error (refusal : Ir.Error → Diagnostic) {op : Ir.Build α} {c : Context}
    {e : Ir.Error} {ir : Ir.Module} (h : op c.ir = .error e ir) :
    emitOr refusal op c = fail (refusal e) (c.withIr ir) := by
  have hattempt : attempt op c = (.error e, c.withIr ir) := by rw [attempt_run, h]
  exact bind_run (always_of_eq hattempt)

/-- An operation on the module whose refusal is reported. -/
theorem emitOr_ends {op : Ir.Build α} {c : Context} {Q : α → Ir.Module → Prop}
    {E : Ir.Module → Prop} (refusal : Ir.Error → Diagnostic) (h : Ends op c.ir Q E) :
    Ends (emitOr refusal op) c (fun a c' => ∃ ir, c' = c.withIr ir ∧ Q a ir)
      fun c' => ∃ ir queue, c' = { c.withIr ir with queue } ∧ E ir := by
  unfold Ends
  cases hop : op c.ir with
  | ok a ir =>
    rw [emitOr_of_ok refusal hop]
    exact ⟨ir, rfl, h.of_ok hop⟩
  | error e ir =>
    rw [emitOr_of_error refusal hop]
    exact ⟨ir, _, rfl, h.of_error hop⟩

/-- An operation on the module whose refusal is reported. -/
theorem emitOr_keeps [Std.Refl P] [Std.Refl R] [IsTrans Ir.Module R]
    (refusal : Ir.Error → Diagnostic) {op : Ir.Build α} (h : Keeps R op) :
    Keeps (Within P R) (emitOr refusal op) := by
  intro c
  refine (emitOr_ends refusal (h.ends c.ir)).mono ?_ ?_
  · rintro _ _ ⟨ir, rfl, hir⟩
    exact .of_ir hir
  · rintro _ ⟨ir, queue, rfl, hir⟩
    exact ⟨Std.Refl.refl _, hir, rfl, rfl, rfl, rfl⟩

/-- An operation on the module whose refusal is reported at a place. -/
theorem emit_keeps [Std.Refl P] [Std.Refl R] [IsTrans Ir.Module R] (span : Span)
    {op : Ir.Build α} (h : Keeps R op) : Keeps (Within P R) (emit span op) := emitOr_keeps _ h

/-! ## Types -/

/-- Entering an unnamed type. -/
theorem internType_moves {ty : Ir.Ty} (hty : ty.isNamed = false) :
    Moves Ir.Module.Still (Ir.Module.internType ty) :=
  fun m => (Ir.Module.internType_spec ty hty m).1

/-- The backend type of a primitive type has no name. -/
theorem primitiveBackend_isNamed (target : Target) (p : Primitive) :
    (primitiveBackend target p).isNamed = false := by
  cases p <;> rfl

/-- Entering the backend type of a type declares nothing. -/
theorem backendTypeBelow_moves (bound : Nat) (t : TypeId) :
    Moves (Within (· = ·) Ir.Module.Still) (backendTypeBelow bound t) := by
  induction bound generalizing t with
  | zero => exact onModule_moves (internType_moves rfl)
  | succ bound ih =>
    intro c
    unfold backendTypeBelow
    cases c.pool.type t with
    | primitive p => exact onModule_moves (internType_moves (primitiveBackend_isNamed _ _)) c
    | pointer pointee =>
      dsimp only
      by_cases hvoid : c.pool.isVoid pointee = true
      · rw [if_pos hvoid]
        exact Moves.bind (onModule_moves (internType_moves rfl))
          (fun byte => onModule_moves (internType_moves rfl)) c
      · rw [if_neg hvoid]
        exact Moves.bind (ih pointee) (fun inner => onModule_moves (internType_moves rfl)) c
    | struct name path =>
      dsimp only
      cases c.layouts.lookup t with
      | some backend => exact Std.Refl.refl c
      | none => exact onModule_moves (internType_moves rfl) c
    | enum name path =>
      dsimp only
      cases c.layouts.lookup t with
      | some backend => exact Std.Refl.refl c
      | none => exact onModule_moves (internType_moves rfl) c

/-- Entering the backend type of a type declares nothing. -/
theorem backendType_moves (t : TypeId) : Moves (Within (· = ·) Ir.Module.Still) (backendType t) :=
  backendTypeBelow_moves _ t

/-- Entering the backend types of several types declares nothing. -/
theorem backendTypes_moves (ts : List TypeId) :
    Moves (Within (· = ·) Ir.Module.Still) (backendTypes ts) := by
  induction ts with
  | nil => exact .pure _
  | cons t ts ih => exact .bind (backendType_moves t) fun _ => .bind ih fun _ => .pure _

/-- The value of type `void` declares nothing. -/
theorem voidValue_moves : Moves (Within (· = ·) Ir.Module.Still) voidValue :=
  .bind (onModule_moves (internType_moves rfl)) fun ty =>
    onModule_moves fun m => (Ir.Module.newValue_spec ty .undefined m).1

end Context

end FormCompiler
