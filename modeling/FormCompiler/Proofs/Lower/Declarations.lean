import FormCompiler.Lower.TopLevel
import FormCompiler.Proofs.Context.Declarations

/-!
# Declarations of Units

What definitions do to the context of a unit. Checks, and looking up and entering types, are
`Quiet`: they declare nothing and keep contexts valid. Registering is `Safe` for grounded types.

`StructRegistered` says all that registering a struct does. `registerTypes` is the part of the
declaration of an enum that registers the enum and its struct; `EnumRegistered` says all it does.
-/

namespace FormCompiler

/-- Types were entered at most, nothing was declared, and valid contexts stay valid. -/
structure Compilation.Quiet {σ : Type} (u u' : Compilation σ) : Prop where
  within : Compilation.Within Pool.Extends Ir.Module.Still u u'
  valid : u.context.Valid → u'.context.Valid

/-- Valid contexts stay valid, with their types and layouts. -/
def Compilation.Safe {σ : Type} (u u' : Compilation σ) : Prop := u.context.Safe u'.context

namespace Compilation

variable {σ : Type} {u u' : Compilation σ}

instance : Std.Refl Pool.Extends := ⟨.refl⟩

instance : IsTrans Pool Pool.Extends := ⟨fun _ _ _ => .trans⟩

instance : Std.Refl (Quiet (σ := σ)) := ⟨fun _ => ⟨Std.Refl.refl _, id⟩⟩

instance : IsTrans (Compilation σ) Quiet where
  trans _ _ _ h h' := ⟨IsTrans.trans _ _ _ h.within h'.within, h'.valid ∘ h.valid⟩

instance : Std.Refl (Safe (σ := σ)) := ⟨fun u => Std.Refl.refl u.context⟩

instance : IsTrans (Compilation σ) Safe where
  trans u u' u'' h h' := IsTrans.trans u.context u'.context u''.context h h'

/-- Entering backend types and values is quiet. -/
theorem Quiet.of_still (h : Compilation.Within (· = ·) Ir.Module.Still u u') : Quiet u u' :=
  ⟨h.mono (fun _ _ hp => hp ▸ .refl _) fun _ _ h => h, fun hu => hu.of_still h.context⟩

/-- What is quiet keeps types and layouts. -/
theorem Quiet.steady (h : Quiet u u') : u.context.Steady u'.context :=
  .of_within h.within.context id fun hm => hm.types.grown

end Compilation

namespace Lower

variable {σ α : Type} {u : Compilation σ}

/-! ## Checks -/

/-- A list is expected. -/
theorem expectList_keeps (node : NodeId) (what : String) :
    Keeps (Compilation.Within (· = ·) Ir.Module.Still)
      (expectList node what : Lower σ (List NodeId)) := by
  refine .bind (read_keeps _) fun items => ?_
  split
  · exact .pure _
  · exact .bind (read_keeps _) fun _ => .bind (read_keeps _) fun _ => fail_keeps _

/-- A symbol is expected. -/
theorem expectSymbol_keeps (node : NodeId) (what : String) :
    Keeps (Compilation.Within (· = ·) Ir.Module.Still)
      (expectSymbol node what : Lower σ String) := by
  refine .bind (read_keeps _) fun name => ?_
  split
  · exact .pure _
  · exact .bind (read_keeps _) fun _ => .bind (read_keeps _) fun _ => fail_keeps _

/-- A linkage word is expected. -/
theorem expectLinkage_keeps (node : NodeId) :
    Keeps (Compilation.Within (· = ·) Ir.Module.Still)
      (expectLinkage node : Lower σ Ir.Linkage) := by
  refine .bind (read_keeps _) fun name => ?_
  split
  · exact .pure _
  · exact .bind (read_keeps _) fun _ => .bind (read_keeps _) fun _ => fail_keeps _

/-- What is expected to be a list is taken apart. -/
theorem expectList_ends (node : NodeId) (what : String) (u : Compilation σ) :
    Ends (expectList node what) u (fun items u' => u.forest.items? node = some items ∧ u = u')
      u.Quiet := by
  refine (read_ends _ u).andThen (fun _ h => h.elim) ?_
  rintro _ _ ⟨rfl, rfl⟩
  split
  next items hitems => exact .pure ⟨hitems, rfl⟩
  next => exact (Refuses.read fun _ => .read fun _ => fail_refuses _).ends u fun _ => .of_still

/-- What is expected to be a symbol is read. -/
theorem expectSymbol_ends (node : NodeId) (what : String) (u : Compilation σ) :
    Ends (expectSymbol node what) u (fun name u' => u.forest.symbol? node = some name ∧ u = u')
      u.Quiet := by
  refine (read_ends _ u).andThen (fun _ h => h.elim) ?_
  rintro _ _ ⟨rfl, rfl⟩
  split
  next name hname => exact .pure ⟨hname, rfl⟩
  next => exact (Refuses.read fun _ => .read fun _ => fail_refuses _).ends u fun _ => .of_still

/-- What is expected to be a linkage word is read. -/
theorem expectLinkage_ends (node : NodeId) (u : Compilation σ) :
    Ends (expectLinkage node) u (fun linkage u' =>
      (u.forest.symbol? node).bind Ir.Linkage.ofKeyword? = some linkage ∧ u = u') u.Quiet := by
  refine (read_ends _ u).andThen (fun _ h => h.elim) ?_
  rintro _ _ ⟨rfl, rfl⟩
  split
  next linkage hlinkage => exact .pure ⟨hlinkage, rfl⟩
  next => exact (Refuses.read fun _ => .read fun _ => fail_refuses _).ends u fun _ => .of_still

/-- A list is taken apart. -/
theorem expectList_run {node : NodeId} {items : List NodeId}
    (h : u.forest.items? node = some items) (what : String) :
    expectList node what u = .ok items u := by
  unfold expectList items?
  simp only [bind, EStateM.bind, h]
  rfl

/-- A symbol is read. -/
theorem expectSymbol_run {node : NodeId} {name : String}
    (h : u.forest.symbol? node = some name) (what : String) :
    expectSymbol node what u = .ok name u := by
  unfold expectSymbol symbol?
  simp only [bind, EStateM.bind, h]
  rfl

/-- What a type form names is grounded. -/
theorem resolveTypeBelow_ends (bound : Nat) (node : NodeId) (u : Compilation σ) :
    Ends (resolveTypeBelow bound node) u
      (fun t u' => u.Quiet u' ∧ (u.context.Valid → u'.context.Grounded t)) u.Quiet := by
  induction bound generalizing node u with
  | zero => exact .throw (Std.Refl.refl u)
  | succ bound ih =>
    refine (read_ends _ u).andThen (fun _ h => h.elim) ?_
    rintro f _ ⟨rfl, rfl⟩
    split
    next token hkind =>
      split
      · refine (read_ends _ u).andThen (fun _ h => h.elim) ?_
        rintro _ _ ⟨rfl, rfl⟩
        refine (read_ends _ u).andThen (fun _ h => h.elim) ?_
        rintro _ _ ⟨rfl, rfl⟩
        split
        next t hlookup =>
          exact .pure ⟨Std.Refl.refl u, fun hu => hu.grounded_of_lookup hlookup⟩
        next => exact (Refuses.read fun _ => fail_refuses _).ends u fun _ => .of_still
      · exact (Refuses.read fun _ => .read fun _ => fail_refuses _).ends u fun _ => .of_still
    next head pointee hkind =>
      refine (read_ends _ u).andThen (fun _ h => h.elim) ?_
      rintro name _ ⟨rfl, rfl⟩
      split
      · refine (ih pointee u).bind ?_
        rintro t u₁ ⟨hquiet, hgrounded⟩
        refine (onContext_ends (Context.always_ends _ u₁.context)).mono ?_ ?_
        · rintro pointer _ ⟨c, rfl, hrun⟩
          have hrun' : Context.onPool (·.pointerTo t) u₁.context = (pointer, c) := hrun
          rw [Context.onPool_run, Prod.mk.injEq] at hrun'
          obtain ⟨rfl, rfl⟩ := hrun'
          -- a pointer type is interned, which the pool grows by and nothing else does
          have hwithin : Compilation.Within Pool.Extends Ir.Module.Still u₁
              (u₁.withContext (u₁.context.withPool (u₁.context.pool.pointerTo t).2)) :=
            ⟨.of_pool (Pool.intern_spec _ _).1, rfl, rfl, fun _ => rfl⟩
          exact ⟨⟨IsTrans.trans _ _ _ hquiet.within hwithin, fun hu =>
              ((hquiet.valid hu).pointerTo (hgrounded hu)).1⟩,
            fun hu => ((hquiet.valid hu).pointerTo (hgrounded hu)).2.2⟩
        · rintro _ ⟨_, _, h⟩
          exact h.elim
      · exact (Refuses.read fun _ => .read fun _ => fail_refuses _).ends u fun _ => .of_still
    next => exact (Refuses.read fun _ => .read fun _ => fail_refuses _).ends u fun _ => .of_still

/-- What a type form names is grounded. -/
theorem resolveType_ends (node : NodeId) (u : Compilation σ) :
    Ends (resolveType node) u
      (fun t u' => u.Quiet u' ∧ (u.context.Valid → u'.context.Grounded t)) u.Quiet :=
  resolveTypeBelow_ends _ node u

/-- The types of named things are grounded. -/
theorem typedNames_ends (what : String) (done : List (String × TypeId)) (nodes : List NodeId)
    (u : Compilation σ) :
    Ends (typedNames what done nodes) u
      (fun named u' => u.Quiet u' ∧ (u.context.Valid →
        (∀ d ∈ done, u.context.Grounded d.2) → ∀ d ∈ named, u'.context.Grounded d.2)) u.Quiet := by
  induction nodes generalizing done u with
  | nil =>
    exact .pure ⟨Std.Refl.refl u, fun _ hdone d hd => hdone d (List.mem_reverse.1 hd)⟩
  | cons node nodes ih =>
    refine ((expectList_keeps node what).ends u).andThen (fun _ => .of_still) fun pair u₁ h₁ => ?_
    have hquiet₁ : u.Quiet u₁ := .of_still h₁
    split
    next nameNode tyNode =>
      refine ((expectSymbol_keeps nameNode _).ends u₁).andThen
        (fun _ h => IsTrans.trans _ _ _ hquiet₁ (.of_still h)) fun name u₂ h₂ => ?_
      have hquiet₂ : u.Quiet u₂ := IsTrans.trans _ _ _ hquiet₁ (.of_still h₂)
      split
      · exact (Refuses.read fun _ => fail_refuses _).ends u₂
          fun _ h => IsTrans.trans _ _ _ hquiet₂ (.of_still h)
      · refine (resolveType_ends tyNode u₂).andThen
          (fun _ h => IsTrans.trans _ _ _ hquiet₂ h) fun t u₃ h₃ => ?_
        obtain ⟨hquiet, hgrounded⟩ := h₃
        have hquiet₃ : u.Quiet u₃ := IsTrans.trans _ _ _ hquiet₂ hquiet
        refine (ih ((name, t) :: done) u₃).mono ?_ fun _ h => IsTrans.trans _ _ _ hquiet₃ h
        rintro named u₄ ⟨hquiet', hnamed⟩
        refine ⟨IsTrans.trans _ _ _ hquiet₃ hquiet', fun hu hdone =>
          hnamed (hquiet₃.valid hu) fun d hd => ?_⟩
        rcases List.mem_cons.1 hd with rfl | hd
        · exact hgrounded (hquiet₂.valid hu)
        · exact (hdone d hd).mono hquiet₃.steady
    next =>
      exact (Refuses.read fun _ => fail_refuses _).ends u₁
        fun _ h => IsTrans.trans _ _ _ hquiet₁ (.of_still h)

/-! ## Elements of enums -/

/-- Adding a member. -/
theorem memberAdded_keeps (outcome : Except MemberError EnumBuilder) (node : NodeId)
    (name : String) (underlying : TypeId) :
    Keeps (Compilation.Within (· = ·) Ir.Module.Still)
      (memberAdded outcome node name underlying : Lower σ EnumBuilder) := by
  unfold memberAdded
  split
  · exact .pure _
  · exact (Refuses.read fun _ => fail_refuses _).keeps
  · exact (Refuses.read fun _ => .read fun _ => fail_refuses _).keeps

/-- Reading the literal of a member. -/
theorem memberLiteral_keeps (node : NodeId) (text : String) (underlying : TypeId) :
    Keeps (Compilation.Within (· = ·) Ir.Module.Still)
      (memberLiteral node text underlying : Lower σ Int) := by
  refine .bind (read_keeps _) fun c => .bind (onState_keeps (Context.backendType_moves _))
    fun ty => .bind (onState_keeps (Context.attempt_moves
      (Ir.Module.constIntOfText_keeps ty _ text))) fun outcome => ?_
  split
  · refine .bind (read_keeps _) fun c => ?_
    dsimp only
    split
    · exact .pure _
    · exact (Refuses.read fun _ => .read fun _ => fail_refuses _).keeps
  · exact (Refuses.read fun _ => .read fun _ => fail_refuses _).keeps
  · exact (Refuses.read fun _ => fail_refuses _).keeps

/-- Adding the member of an element, with any number of expansions left. -/
theorem elementWith_keeps (underlying : TypeId) (left : Nat) (builder : EnumBuilder)
    (node : NodeId) :
    Keeps (Compilation.Within (· = ·) Ir.Module.Still)
      (elementWith underlying left builder node : Lower σ EnumBuilder) := by
  have helement : ∀ (left : Nat) (again : EnumBuilder → NodeId → Lower σ EnumBuilder),
      (∀ builder node, Keeps (Compilation.Within (· = ·) Ir.Module.Still)
        (again builder node)) → ∀ builder node,
      Keeps (Compilation.Within (· = ·) Ir.Module.Still)
        (element underlying left again builder node) := by
    intro left again hagain builder node
    refine .bind (read_keeps _) fun f => ?_
    split
    · exact memberAdded_keeps _ _ _ _
    · exact (Refuses.read fun _ => .read fun _ => fail_refuses _).keeps
    · split
      · exact .bind (memberLiteral_keeps _ _ _) fun _ => memberAdded_keeps _ _ _ _
      · refine .bind (tryExpand_keeps left node) fun expansion => ?_
        split
        · exact hagain _ _
        · exact (Refuses.read fun _ => .read fun _ => fail_refuses _).keeps
  induction left generalizing builder node with
  | zero => exact helement 0 _ (fun _ _ => .throw _) builder node
  | succ left ih => exact helement (left + 1) _ ih builder node

/-- Adding the members of several elements. -/
theorem elements_keeps (underlying : TypeId) (builder : EnumBuilder) (nodes : List NodeId) :
    Keeps (Compilation.Within (· = ·) Ir.Module.Still)
      (elements underlying builder nodes : Lower σ EnumBuilder) := by
  induction nodes generalizing builder with
  | nil => exact .pure _
  | cons node nodes ih =>
    exact .bind .get fun u => .bind (elementWith_keeps _ _ _ _) fun builder => ih builder

/-! ## Registration -/

/-- The module with a named struct entered, and the id it gets. -/
theorem namedStruct_getElem? (m : Ir.Module) (symbol : String) (fields : List Ir.TyId) :
    (m.types.push (.struct (some symbol) fields))[m.types.size]? =
      some (.struct (some symbol) fields) := Array.getElem?_push_size

/-- The module gets the struct of a declaration, or has one of its backend name already. Its members
may have been entered before. -/
theorem backingStruct_ends {c c₁ : Context} (h : c.Within (· = ·) Ir.Module.Still c₁)
    (name : String) (layout : List Ir.TyId) (refusal : Ir.Error → Diagnostic) :
    Ends (Context.emitOr refusal (Ir.Module.namedStruct (c.structSymbol name) layout)) c₁
      (fun backing c₂ => backing = ⟨c₁.ir.types.size⟩ ∧
        c₁.ir.lookupStruct? (c.structSymbol name) = none ∧
        c₂ = c₁.withIr { c₁.ir with
          types := c₁.ir.types.push (.struct (some (c.structSymbol name)) layout) } ∧
        c.Within (· = ·) Ir.Module.Extends c₂)
      fun c' => c.Within (· = ·) Ir.Module.Still c' ∧
        (c.ir.lookupStruct? (c.structSymbol name)).isSome = true := by
  refine (Context.emitOr_ends refusal (Ir.Module.namedStruct_ends _ layout c₁.ir)).mono ?_ ?_
  · rintro backing _ ⟨_, rfl, hfree, rfl, rfl⟩
    have hextends : c.Within (· = ·) Ir.Module.Extends c₁ :=
      h.mono (fun _ _ => id) fun _ _ hm => hm.toExtends
    exact ⟨rfl, hfree, rfl,
      IsTrans.trans _ _ _ hextends (.of_ir (Ir.Module.extends_push_type c₁.ir _))⟩
  · rintro _ ⟨ir, queue, rfl, rfl, hsome⟩
    rw [h.ir.types.lookupStruct?] at hsome
    exact ⟨⟨h.pool, h.ir, h.namespaces, h.entered, h.layouts, h.onceTag⟩, hsome⟩

/-- A struct was registered: its name was free, the module got a struct of the backend types of its
members, the pool the type, and the current namespace the declaration. -/
structure StructRegistered (name : String) (members : List (String × TypeId))
    (linkage : Ir.Linkage) (c c' : Context) : Prop where
  noStruct : c.current.struct? name = none
  registered : ∃ (c₁ c₂ : Context) (layout : List Ir.TyId),
    Context.Within (· = ·) Ir.Module.Still c c₁ ∧
    ((∀ m ∈ members, c.Grounded m.2) → List.Forall₂ c₁.Backs (members.map (·.2)) layout) ∧
    c₁.ir.lookupStruct? (c.structSymbol name) = none ∧
    c₂ = c₁.withIr { c₁.ir with
      types := c₁.ir.types.push (.struct (some (c.structSymbol name)) layout) } ∧
    c' = (c₂.withLayout (.struct name c.path) ⟨c₁.ir.types.size⟩).withCurrent
      { c.current with
        structs := (name, ⟨linkage, c.onceTag, (c₂.pool.intern (.struct name c.path)).1,
          ⟨c₁.ir.types.size⟩, c.structSymbol name, members⟩) :: c.current.structs }

/-- A struct is registered, or nothing is. -/
theorem registerStruct_ends (name : String) (members : List (String × TypeId))
    (linkage : Ir.Linkage) (nameSpan : Span) (c : Context) :
    Ends (registerStruct name members linkage nameSpan) c
      (fun _ c' => StructRegistered name members linkage c c')
      fun c' => c.Within (· = ·) Ir.Module.Still c' ∧
        ((c.current.struct? name).isSome = true ∨
          (c.ir.lookupStruct? (c.structSymbol name)).isSome = true) := by
  refine .next rfl ?_
  cases htaken : c.hasLocalStruct name with
  | true =>
    rw [if_pos rfl]
    exact ⟨(.of_queue : c.Within (· = ·) Ir.Module.Still _), .inl htaken⟩
  | false =>
    rw [if_neg Bool.false_ne_true]
    have hnew : c.current.struct? name = none := by
      simpa [Context.hasLocalStruct] using htaken
    refine (Context.always_ends _ c).andThen (fun _ h => h.elim) fun layout c₁ hrun => ?_
    have hwithin := Context.backendTypes_moves (members.map (·.2)) c
    have hfields := fun h : ∀ t ∈ members.map (·.2), c.Grounded t =>
      (Context.backendTypes_spec h).2
    rw [hrun] at hwithin hfields
    -- entering the member types does not move the namespace, so the symbol is as it was asked for
    refine .next rfl ?_
    rw [hwithin.structSymbol]
    refine (backingStruct_ends hwithin name layout _).andThen (fun _ h => ⟨h.1, .inr h.2⟩) ?_
    rintro _ c₂ ⟨rfl, hfree, hc₂, hwithin₂⟩
    -- from here on no step can be refused: the type is interned, laid out and added
    refine .next rfl (.next rfl ?_)
    rw [hwithin₂.path, hwithin₂.onceTag]
    refine .next rfl (.next rfl ?_)
    have hcurrent : (c₂.withLayout (.struct name c.path) ⟨c₁.ir.types.size⟩).current = c.current :=
      hwithin₂.current
    have hadd := Context.always_of_eq (Context.addStruct_run ⟨linkage, c.onceTag,
      (c₂.pool.intern (.struct name c.path)).1, ⟨c₁.ir.types.size⟩, c.structSymbol name, members⟩
      (hcurrent.symm ▸ hnew))
    rw [hcurrent] at hadd
    refine .next hadd (.pure ⟨hnew, c₁, c₂, layout, hwithin, fun h => hfields ?_, hfree, hc₂, rfl⟩)
    intro t ht
    obtain ⟨m, hm, rfl⟩ := List.mem_map.1 ht
    exact h m hm

/-- A struct of grounded members leaves a valid context when it is registered. -/
theorem StructRegistered.safe {name : String} {members : List (String × TypeId)}
    {linkage : Ir.Linkage} {c c' : Context} (h : StructRegistered name members linkage c c')
    (hc : c.Valid) (hmembers : ∀ m ∈ members, c.Grounded m.2) : c'.Valid ∧ c.Steady c' := by
  obtain ⟨hnoStruct, c₁, c₂, layout, hwithin, hfields, -, hc₂, rfl⟩ := h
  have hpush : c₁.Within (· = ·) Ir.Module.Extends c₂ := by
    rw [hc₂]
    exact .of_ir (Ir.Module.extends_push_type c₁.ir _)
  obtain ⟨hvalid₂, hsteady₂⟩ := Context.Safe.of_extends hpush (hc.of_still hwithin)
  have hcurrent₂ : c₂.current = c.current := hpush.current.trans hwithin.current
  have hpath₂ : c₂.path = c.path := congrArg Namespace.path hcurrent₂
  have htype₂ : c₂.ir.types[c₁.ir.types.size]? =
      some (.struct (some (c.structSymbol name)) layout) := by
    rw [hc₂]
    exact namedStruct_getElem? _ _ _
  have hstruct := hvalid₂.declareStruct
    (s := ⟨linkage, c.onceTag, (c₂.pool.intern (.struct name c.path)).1, ⟨c₁.ir.types.size⟩,
      c.structSymbol name, members⟩)
    (show c₂.current.struct? name = none by rw [hcurrent₂, hnoStruct])
    ⟨_, layout, htype₂, (hfields hmembers).imp fun _ _ hb => hb.mono hsteady₂⟩ (by rw [hpath₂])
  rw [hpath₂, hcurrent₂] at hstruct
  obtain ⟨hvalid, hsteady⟩ := hstruct
  exact ⟨hvalid, ((Context.Steady.of_still hwithin).trans hsteady₂).trans hsteady⟩

/-- The part of the declaration of an enum that registers the enum and its backing struct. -/
def registerTypes (name : String) (builder : EnumBuilder) (linkage : Ir.Linkage)
    (underlying : TypeId) (nameSpan : Span) : Check TypeId := do
  if (← get).hasLocalEnum name then
    Context.fail (Report.redeclaration .enumRedeclared nameSpan name)
  else if (← get).hasLocalStruct name then
    Context.fail (Report.redeclaration .structRedeclared nameSpan name)
  else
    let member ← Context.always (Context.backendType underlying)
    let symbol := (← get).structSymbol name
    let refusal (e : Ir.Error) : Diagnostic :=
      match e with
      | .duplicateSymbol _ => Report.redeclaration .structRedeclared nameSpan name
      | e => Report.backendError nameSpan e.message
    let backing ← Context.emitOr refusal (Ir.Module.namedStruct symbol [member])
    let path := (← get).path
    let onceTag := (← get).onceTag
    let enumTy ← Context.always (Context.onPool (·.namedEnum name path))
    let structTy ← Context.always (Context.onPool (·.namedStruct name path))
    Context.always (Context.setLayout enumTy backing)
    Context.always (Context.setLayout structTy backing)
    let _ ← Context.always
      (Context.addEnum name (builder.finish linkage onceTag enumTy underlying))
    let _ ← Context.always
      (Context.addStruct name
        ⟨linkage, onceTag, structTy, backing, symbol, [("_enum_value", underlying)]⟩)
    return enumTy

/-- An enum is registered with its struct, then its functions are declared. -/
theorem registerEnum_eq (name : String) (builder : EnumBuilder) (linkage : Ir.Linkage)
    (underlying : TypeId) (nameSpan bodySpan : Span) :
    registerEnum name builder linkage underlying nameSpan bodySpan = (do
      let enumTy ← registerTypes name builder linkage underlying nameSpan
      Context.defineEnumFunctions name enumTy underlying linkage bodySpan) := by
  unfold registerEnum registerTypes
  simp only [bind_assoc]
  congr 1
  funext c
  split
  · rfl
  · simp only [bind_assoc]
    congr 1
    funext c
    split
    · rfl
    · simp only [bind_assoc]
      rfl

/-- An enum and its backing struct were registered: both names were free, the module got the
struct, the pool both types, and the current namespace both declarations. -/
structure EnumRegistered (name : String) (builder : EnumBuilder) (linkage : Ir.Linkage)
    (underlying enumTy : TypeId) (c c' : Context) : Prop where
  noEnum : c.current.enum? name = none
  noStruct : c.current.struct? name = none
  registered : ∃ (c₁ c₂ c₃ : Context) (member : Ir.TyId),
    Context.Within (· = ·) Ir.Module.Still c c₁ ∧
    (c.Grounded underlying → c₁.Backs underlying member) ∧
    c₁.ir.lookupStruct? (c.structSymbol name) = none ∧
    c₂ = c₁.withIr { c₁.ir with
      types := c₁.ir.types.push (.struct (some (c.structSymbol name)) [member]) } ∧
    enumTy = (c₂.pool.intern (.enum name c.path)).1 ∧
    c₃ = (c₂.withLayout (.enum name c.path) ⟨c₁.ir.types.size⟩).withCurrent { c.current with
      enums := (name, builder.finish linkage c.onceTag enumTy underlying) :: c.current.enums } ∧
    c' = (c₃.withLayout (.struct name c.path) ⟨c₁.ir.types.size⟩).withCurrent
      { c.current with
        enums := (name, builder.finish linkage c.onceTag enumTy underlying) :: c.current.enums
        structs := (name, ⟨linkage, c.onceTag, (c₃.pool.intern (.struct name c.path)).1,
          ⟨c₁.ir.types.size⟩, c.structSymbol name, [("_enum_value", underlying)]⟩) ::
          c.current.structs }

/-- An enum and its struct are registered, or nothing is. -/
theorem registerTypes_ends {c : Context} (hc : c.Valid) (name : String) (builder : EnumBuilder)
    (linkage : Ir.Linkage) (underlying : TypeId) (nameSpan : Span) :
    Ends (registerTypes name builder linkage underlying nameSpan) c
      (fun enumTy c' => EnumRegistered name builder linkage underlying enumTy c c')
      fun c' => c.Within (· = ·) Ir.Module.Still c' ∧
        ((c.current.enum? name).isSome = true ∨ (c.current.struct? name).isSome = true ∨
          (c.ir.lookupStruct? (c.structSymbol name)).isSome = true) := by
  refine .next rfl ?_
  cases henum : c.hasLocalEnum name with
  | true =>
    rw [if_pos rfl]
    exact ⟨(.of_queue : c.Within (· = ·) Ir.Module.Still _), .inl henum⟩
  | false =>
    rw [if_neg Bool.false_ne_true]
    refine .next rfl ?_
    cases hstruct : c.hasLocalStruct name with
    | true =>
      rw [if_pos rfl]
      exact ⟨(.of_queue : c.Within (· = ·) Ir.Module.Still _), .inr (.inl hstruct)⟩
    | false =>
      rw [if_neg Bool.false_ne_true]
      have hnoEnum : c.current.enum? name = none := by
        simpa [Context.hasLocalEnum] using henum
      have hnoStruct : c.current.struct? name = none := by
        simpa [Context.hasLocalStruct] using hstruct
      refine (Context.always_ends _ c).andThen (fun _ h => h.elim) fun member c₁ hrun => ?_
      have hwithin := Context.backendType_moves underlying c
      have hbacks := fun h => (Context.Grounded.backendType_spec (c := c) (t := underlying) h).2
      rw [hrun] at hwithin hbacks
      -- entering the underlying type does not move the namespace, so the symbol is as it was asked
      -- for
      refine .next rfl ?_
      rw [hwithin.structSymbol]
      refine (backingStruct_ends hwithin name [member] _).andThen
        (fun _ h => ⟨h.1, .inr (.inr h.2)⟩) ?_
      rintro _ c₂ ⟨rfl, hfree, hc₂, hwithin₂⟩
      -- from here on no step can be refused: both types are interned, laid out and added
      refine .next rfl (.next rfl ?_)
      rw [hwithin₂.path, hwithin₂.onceTag]
      refine .next rfl (.next rfl (.next rfl (.next rfl ?_)))
      have hcurrent : ((c₂.withLayout (.enum name c.path) ⟨c₁.ir.types.size⟩).withLayout
          (.struct name c.path) ⟨c₁.ir.types.size⟩).current = c.current := hwithin₂.current
      have hlt : c₂.currentId.index < c₂.namespaces.size := by
        rw [Context.currentId, hwithin₂.entered, hwithin₂.namespaces]
        exact hc.currentId_lt
      obtain ⟨haddEnum, haddStruct⟩ := Context.addEnum_addStruct_run
        (c := (c₂.withLayout (.enum name c.path) ⟨c₁.ir.types.size⟩).withLayout
          (.struct name c.path) ⟨c₁.ir.types.size⟩)
        (builder.finish linkage c.onceTag (c₂.pool.intern (.enum name c.path)).1 underlying)
        ⟨linkage, c.onceTag, ((c₂.pool.intern (.enum name c.path)).2.intern
          (.struct name c.path)).1, ⟨c₁.ir.types.size⟩, c.structSymbol name,
          [("_enum_value", underlying)]⟩ hlt (hcurrent.symm ▸ hnoEnum) (hcurrent.symm ▸ hnoStruct)
      rw [hcurrent] at haddEnum haddStruct
      exact .next (Context.always_of_eq haddEnum) (.next (Context.always_of_eq haddStruct)
        (.pure ⟨hnoEnum, hnoStruct, c₁, c₂, _, member, hwithin, hbacks, hfree, hc₂, rfl, rfl, rfl⟩))

/-- An enum over a grounded type leaves a valid context when it is registered. -/
theorem EnumRegistered.safe {name : String} {builder : EnumBuilder} {linkage : Ir.Linkage}
    {underlying enumTy : TypeId} {c c' : Context}
    (h : EnumRegistered name builder linkage underlying enumTy c c') (hc : c.Valid)
    (hunder : c.Grounded underlying) : c'.Valid ∧ c.Steady c' ∧ c'.Grounded enumTy := by
  obtain ⟨hnoEnum, hnoStruct, c₁, c₂, c₃, member, hwithin, hmember, -, hc₂, rfl, hc₃, rfl⟩ := h
  have hpush : c₁.Within (· = ·) Ir.Module.Extends c₂ := by
    rw [hc₂]
    exact .of_ir (Ir.Module.extends_push_type c₁.ir _)
  obtain ⟨hvalid₂, hsteady₂⟩ := Context.Safe.of_extends hpush (hc.of_still hwithin)
  have hcurrent₂ : c₂.current = c.current := hpush.current.trans hwithin.current
  have hpath₂ : c₂.path = c.path := congrArg Namespace.path hcurrent₂
  have htype₂ : c₂.ir.types[c₁.ir.types.size]? =
      some (.struct (some (c.structSymbol name)) [member]) := by
    rw [hc₂]
    exact namedStruct_getElem? _ _ _
  -- the enum is declared over the entered struct type, and then the struct in the context this
  -- gives
  have henum := hvalid₂.declareEnum ⟨c₁.ir.types.size⟩
    (e := builder.finish linkage c.onceTag (c₂.pool.intern (.enum name c.path)).1 underlying)
    (show c₂.current.enum? name = none by rw [hcurrent₂, hnoEnum]) ⟨_, _, htype₂⟩
    (by rw [hpath₂]; rfl)
  rw [hpath₂, hcurrent₂, ← hc₃] at henum
  obtain ⟨hvalid₃, hsteady₃⟩ := henum
  have hcurrent₃ : c₃.current = { c.current with enums :=
      (name, builder.finish linkage c.onceTag (c₂.pool.intern (.enum name c.path)).1
        underlying) :: c.current.enums } := by
    rw [hc₃]
    exact Context.current_withCurrent hvalid₂.currentId_lt _
  have hpath₃ : c₃.path = c.path := by
    rw [Context.path, hcurrent₃]
    rfl
  -- the one member of the backing struct is the underlying type, which stays backed
  have hfields : List.Forall₂ c₃.Backs [underlying] [member] :=
    .cons (((hmember hunder).mono hsteady₂).mono hsteady₃) .nil
  have hstruct := hvalid₃.declareStruct
    (s := ⟨linkage, c.onceTag, (c₃.pool.intern (.struct name c.path)).1, ⟨c₁.ir.types.size⟩,
      c.structSymbol name, [("_enum_value", underlying)]⟩)
    (show c₃.current.struct? name = none by rw [hcurrent₃]; exact hnoStruct)
    ⟨_, _, by rw [hc₃]; exact htype₂, hfields⟩ (by rw [hpath₃])
  rw [hpath₃, hcurrent₃] at hstruct
  obtain ⟨hvalid, hsteady⟩ := hstruct
  refine ⟨hvalid, (((Context.Steady.of_still hwithin).trans hsteady₂).trans hsteady₃).trans
    hsteady, ?_⟩
  have hgrounded := Context.grounded_withLayout c₂ (.enum name c.path)
    ⟨c₁.ir.types.size⟩ rfl
  refine Context.Grounded.mono ?_ hsteady
  rw [hc₃]
  exact hgrounded.mono (Context.steady_withCurrent _ _)

end Lower

/-! ## Scopes -/

namespace Scope

/-- A bound name stands for its variable, any other name for what it stood for. -/
theorem lookup?_bind (s : Scope) (name : String) (v : Variable) (key : String) :
    (s.bind name v).2.lookup? key = if key = name then some v else s.lookup? key := by
  rw [bind, lookup?, List.lookup_cons]
  by_cases h : key = name
  · rw [if_pos h, h]
    simp
  · rw [if_neg h, beq_false_of_ne h, lookup?]
    dsimp only
    induction s.bindings with
    | nil => rfl
    | cons binding rest ih =>
      obtain ⟨other, w⟩ := binding
      rw [List.filter_cons]
      by_cases hother : other = name
      · subst hother
        simpa [List.lookup_cons, beq_false_of_ne h] using ih
      · simp only [bne_iff_ne, ne_eq, hother, not_false_eq_true, if_true, List.lookup_cons, ih]

/-- A name may be bound to a variable whose type is in the pool. -/
theorem TypesIn.bind {s : Scope} {p : Pool} (h : s.TypesIn p) (name : String) {v : Variable}
    (hv : v.ty.index < p.types.size) : (s.bind name v).2.TypesIn p := by
  intro key w hw
  rw [lookup?_bind] at hw
  split at hw
  next =>
    cases hw
    exact hv
  next => exact h key w hw

/-- The scope without variables. -/
theorem TypesIn.empty (p : Pool) : Scope.empty.TypesIn p := fun _ _ h => by cases h

end Scope

namespace Lower

variable {σ α : Type} {u : Compilation σ}

/-- What an expression does is safe if the types of its variables are in the pool. -/
theorem kept_safe {s : Scope} {u u' : Compilation σ} (h : Compilation.Kept s u u')
    (hs : s.TypesIn u.context.pool) : u.Safe u' := fun hu =>
  ⟨hu.of_within h.context h.context.pool.grown h.context.ir
      (h.context.pool.sound hs hu.pool) h.context.pool.unnamed,
    .of_within h.context (fun hp => hp.grown) fun hm => hm.types⟩

/-! ## Definitions -/

/-- Storing parameters in slots binds names to variables with types of the pool. -/
theorem spillParams_ends (b : Ir.BlockId) (index : Nat) (frame : Frame)
    (params : List (Param × Span)) (u : Compilation σ)
    (hframe : frame.scope.TypesIn u.context.pool)
    (hparams : ∀ p ∈ params, p.1.ty.index < u.context.pool.types.size) :
    Ends (spillParams b index frame params) u
      (fun frame' u' => Compilation.Within (· = ·) Ir.Module.Extends u u' ∧
        frame'.func = frame.func ∧ frame'.scope.TypesIn u'.context.pool)
      (Compilation.Within (· = ·) Ir.Module.Extends u) := by
  induction params generalizing index frame u with
  | nil => exact .pure ⟨Std.Refl.refl u, rfl, hframe⟩
  | cons param rest ih =>
    obtain ⟨param, place⟩ := param
    refine (read_ends _ u).andThen (fun _ h => h.elim) ?_
    rintro c _ ⟨rfl, rfl⟩
    split
    · exact (fail_refuses _).ends u fun _ h => h.mono (fun _ _ h => h) fun _ _ h => h.toExtends
    next value hvalue =>
      have hbackend : Keeps (Compilation.Within (· = ·) Ir.Module.Extends)
          (onState (Context.backendType param.ty) : Lower σ Ir.TyId) :=
        onState_keeps ((Context.backendType_moves _).mono fun _ _ h =>
          h.mono (fun _ _ h => h) fun _ _ h => h.toExtends)
      refine (hbackend.ends u).bind fun ty u₁ h₁ => ?_
      have hspill : Keeps Ir.Module.Extends (spillInstrs b ty value) :=
        .bind (Ir.Module.alloca_keeps b ty) fun slot =>
          .bind (Ir.Module.store_keeps b value slot) fun _ => .pure slot
      refine ((onContext_keeps (Context.emit_keeps place hspill)).ends u₁).andThen
        (fun _ h => IsTrans.trans _ _ _ h₁ h) fun slot u₂ h₂ => ?_
      have hwithin : Compilation.Within (· = ·) Ir.Module.Extends u u₂ :=
        IsTrans.trans _ _ _ h₁ h₂
      have hpool : u.context.pool = u₂.context.pool := hwithin.context.pool
      refine (ih (index + 1) { frame with
          scope := (frame.scope.bind param.name ⟨param.ty, .slot slot⟩).2 } u₂ ?_ ?_).mono
        (fun frame' u' h => ⟨IsTrans.trans _ _ _ hwithin h.1, h.2⟩)
        fun _ h => IsTrans.trans _ _ _ hwithin h
      · rw [← hpool]
        exact hframe.bind _ (hparams _ List.mem_cons_self)
      · rw [← hpool]
        exact fun p hp => hparams p (List.mem_cons_of_mem _ hp)

/-- The forms of a body keep what expressions keep. -/
theorem bodyForms_keeps (frame : Frame) (b : Ir.BlockId) (first : NodeId) (rest : List NodeId) :
    Keeps (Compilation.Kept frame.scope)
      (bodyForms frame b first rest : Lower σ (NodeId × Result)) := by
  induction rest generalizing b first with
  | nil => exact .bind (process_keeps frame.scope frame.func b first) fun _ => .pure _
  | cons next rest ih =>
    exact .bind (process_keeps frame.scope frame.func b first) fun r =>
      .bind (drop_keeps _ r) fun b => ih b next

/-- Returning the result of a body keeps what expressions keep. -/
theorem returnResult_keeps (s : Scope) (returnType : TypeId) (last : NodeId) (r : Result) :
    Keeps (Compilation.Kept s) (returnResult returnType last r : Lower σ PUnit) := by
  refine .bind (read_keeps _) fun c => ?_
  split
  · exact .bind (drop_keeps s r) fun b => emit_keeps last (Ir.Module.ret_keeps b none)
  · split
    · exact .bind (read_keeps _) fun _ => .bind (read_keeps _) fun _ =>
        .bind (read_keeps _) fun _ => fail_keeps _
    · exact emit_keeps last (Ir.Module.ret_keeps _ _)

/-- The body of a function with grounded parameters is safe, and declares nothing. -/
theorem body_ends (func : Ir.FuncId) (params : List (Param × Span)) (returnType : TypeId)
    (first : NodeId) (rest : List NodeId) (u : Compilation σ)
    (hparams : ∀ p ∈ params, u.context.Grounded p.1.ty) :
    Ends (body func params returnType first rest) u
      (fun _ u' => u.context.Within Pool.Extends Ir.Module.Extends u'.context ∧ u.Safe u')
      fun u' => u.context.Within Pool.Extends Ir.Module.Extends u'.context ∧ u.Safe u' := by
  have happend : Keeps (Compilation.Within (· = ·) Ir.Module.Extends)
      (onModule (Ir.Module.appendBlock func "entry") : Lower σ Ir.BlockId) :=
    onModule_keeps (Ir.Module.appendBlock_moves _ _)
  -- up to the parameters only the module changes, and from there what expressions keep is kept
  have hof : ∀ u' : Compilation σ, Compilation.Within (· = ·) Ir.Module.Extends u u' →
      u.context.Within Pool.Extends Ir.Module.Extends u'.context ∧ u.Safe u' := fun u' h =>
    ⟨h.context.mono (fun _ _ hp => hp ▸ .refl _) fun _ _ hm => hm,
      Context.Safe.of_extends h.context⟩
  refine (happend.ends u).andThen hof fun entry u₁ h₁ => ?_
  have hpool : u.context.pool = u₁.context.pool := h₁.context.pool
  refine (spillParams_ends entry 0 ⟨func, .empty⟩ params u₁ (.empty _) fun p hp => ?_).andThen
    (fun _ h => hof _ (IsTrans.trans _ _ _ h₁ h)) fun frame u₂ h₂ => ?_
  · rw [← hpool]
    exact (hparams p hp).index_lt
  obtain ⟨hwithin, -, hscope⟩ := h₂
  obtain ⟨hwithin₂, hsafe₂⟩ := hof u₂ (IsTrans.trans _ _ _ h₁ hwithin)
  have hkept : ∀ u' : Compilation σ, Compilation.Kept frame.scope u₂ u' →
      u.context.Within Pool.Extends Ir.Module.Extends u'.context ∧ u.Safe u' := fun u' h =>
    ⟨IsTrans.trans _ _ _ hwithin₂ (h.context.mono (fun _ _ hp => hp.grown) fun _ _ hm => hm),
      IsTrans.trans _ _ _ hsafe₂ (kept_safe h hscope)⟩
  refine ((bodyForms_keeps frame entry first rest).ends u₂).andThen hkept fun last u₃ h₃ => ?_
  exact ((returnResult_keeps frame.scope returnType last.1 last.2).ends u₃).mono
    (fun _ _ h => hkept _ (IsTrans.trans _ _ _ h₃ h))
    fun _ h => hkept _ (IsTrans.trans _ _ _ h₃ h)

/-- What is run in any case after a step changes the context after it. -/
theorem ensuring_run {β : Type} (step : Lower σ α) (after : StateM Context β)
    (u : Compilation σ) :
    ensuring step after u =
      match step u with
      | .ok a u => .ok a (u.withContext (after u.context).2)
      | .error e u => .error e (u.withContext (after u.context).2) := by
  unfold ensuring
  cases step u <;> rfl

/-- A function with forms was declared, after its types were looked up, and its body was emitted. -/
theorem defineFunction_ok {nameNode bodyNode linkageNode tyNode paramsNode first : NodeId}
    {name : String} {rest : List NodeId} {u' : Compilation σ}
    (h : defineFunction nameNode name bodyNode
      (linkageNode :: tyNode :: paramsNode :: first :: rest) u = .ok ⟨⟩ u') :
    ∃ (returnType : TypeId) (u₁ : Compilation σ) (params : List Param) (places : List Span)
      (linkage : Ir.Linkage) (func : Ir.FuncId) (u₂ : Compilation σ) (c : Context)
      (u₃ : Compilation σ),
      resolveType tyNode u = .ok returnType u₁ ∧ u.Quiet u₂ ∧
        Context.Declared name params returnType linkage func u₂.context c ∧
        body func (params.zip places) returnType first rest (u₂.withContext c) = .ok ⟨⟩ u₃ ∧
        u' = u₃.withContext (Context.onModule (Ir.Module.finishFunction func) u₃.context).2 := by
  unfold defineFunction at h
  obtain ⟨linkage, u₀, hlinkage, h⟩ := bind_ok_iff.1 h
  obtain ⟨-, rfl⟩ := (expectLinkage_ends linkageNode u).of_ok hlinkage
  obtain ⟨returnType, u₁, htype, h⟩ := bind_ok_iff.1 h
  have hquiet := ((resolveType_ends tyNode u).of_ok htype).1
  obtain ⟨paramNodes, u₂, hparams, h⟩ := bind_ok_iff.1 h
  obtain ⟨-, rfl⟩ := (expectList_ends paramsNode _ u₁).of_ok hparams
  obtain ⟨named, u₂, hnamed, h⟩ := bind_ok_iff.1 h
  have hquiet' := ((typedNames_ends _ _ paramNodes u₁).of_ok hnamed).1
  obtain ⟨nameSpan, u₃, hspan, h⟩ := bind_ok_iff.1 h
  cases hspan
  obtain ⟨func, u₄, hdeclare, h⟩ := bind_ok_iff.1 h
  obtain ⟨f, u₅, hforest, h⟩ := bind_ok_iff.1 h
  obtain ⟨c, rfl, hdeclared⟩ := (onContext_ends
    (Context.declareFunction_ends name _ returnType linkage _ u₂.context)).of_ok hdeclare
  cases hforest
  rw [ensuring_run] at h
  split at h
  next u₆ hbody =>
    cases h
    exact ⟨returnType, u₁, _, _, linkage, func, u₂, c, u₆, htype,
      IsTrans.trans _ _ _ hquiet hquiet', hdeclared, hbody, rfl⟩
  next => cases h

/-- What is run in any case after a step is known if both are. -/
theorem ensuring_ends {β : Type} {step : Lower σ α} {after : StateM Context β}
    {Q : α → Compilation σ → Prop} {E : Compilation σ → Prop}
    (h : Ends step u (fun a u' => Q a (u'.withContext (after u'.context).2))
      fun u' => E (u'.withContext (after u'.context).2)) :
    Ends (ensuring step after) u Q E := by
  unfold Ends
  rw [ensuring_run]
  cases hrun : step u with
  | ok a u₁ => exact h.of_ok hrun
  | error e u₁ => exact h.of_error hrun

/-- What the checks of the definition of an enum give. -/
structure EnumPlan where
  name : String
  builder : EnumBuilder
  linkage : Ir.Linkage
  underlying : TypeId
  nameSpan : Span
  bodySpan : Span

/-- The part of the definition of an enum before anything is declared. -/
def enumPlan (nameNode : NodeId) (name : String) (body : NodeId) (parts : List NodeId) :
    Lower σ EnumPlan := do
  match parts with
  | linkageNode :: tyNode :: elementsNode :: _ => do
    let linkage ← expectLinkage linkageNode
    let underlying ← resolveType tyNode
    if (← context).pool.isInteger underlying = false then
      fail (Report.enumTypeNotInteger (← span tyNode) (← typeName underlying))
    else
      let elementNodes ← expectList elementsNode "enum elements"
      match (← context).pool.intWidth? underlying with
      | none => fail (Report.internalError (← span tyNode) "integer type without a width")
      | some bits => do
        let signed := (← context).pool.isSigned underlying
        let builder ← elements underlying (EnumBuilder.start bits signed) elementNodes
        let nameSpan ← span nameNode
        let bodySpan ← span body
        return ⟨name, builder, linkage, underlying, nameSpan, bodySpan⟩
  | _ => fail (Report.tooFewArguments (← span body) "enum" 3 parts.length)

/-- Stopping with a report stops whatever comes next. -/
theorem fail_bind {β : Type} (d : Diagnostic) (f : α → Lower σ β) :
    (fail d >>= f) = fail d := rfl

/-- The checks of the definition of an enum come before it is registered. -/
theorem defineEnum_eq (nameNode : NodeId) (name : String) (body : NodeId)
    (parts : List NodeId) :
    (defineEnum nameNode name body parts : Lower σ PUnit) = (do
      let plan ← enumPlan nameNode name body parts
      onContext (registerEnum plan.name plan.builder plan.linkage plan.underlying plan.nameSpan
        plan.bodySpan)) := by
  unfold defineEnum enumPlan
  split
  · simp only [bind_assoc]
    congr 1
    funext linkage
    congr 1
    funext underlying
    congr 1
    funext c
    split
    · simp only [bind_assoc, fail_bind]
    · simp only [bind_assoc]
      congr 1
      funext elementNodes
      congr 1
      funext c
      cases c.pool.intWidth? underlying with
      | none => simp only [bind_assoc, fail_bind]
      | some bits => simp only [bind_assoc, pure_bind]
  · simp only [bind_assoc, fail_bind]

/-- The checks of the definition of an enum are quiet, and find an integer type. -/
theorem enumPlan_ends (nameNode : NodeId) (name : String) (body : NodeId) (parts : List NodeId)
    (u : Compilation σ) :
    Ends (enumPlan nameNode name body parts) u
      (fun plan u' => u.Quiet u' ∧ plan.name = name ∧
        (u.context.Valid → u'.context.Grounded plan.underlying) ∧
        u'.context.pool.isInteger plan.underlying = true ∧
        (u'.context.pool.intWidth? plan.underlying).isSome = true) u.Quiet := by
  unfold enumPlan
  split
  next linkageNode tyNode elementsNode _ =>
    refine ((expectLinkage_keeps linkageNode).ends u).andThen (fun _ => .of_still)
      fun linkage u₁ h₁ => ?_
    -- each check declares nothing, and so do all the checks up to it
    have hquiet₁ : u.Quiet u₁ := .of_still h₁
    refine (resolveType_ends tyNode u₁).andThen (fun _ h => IsTrans.trans _ _ _ hquiet₁ h)
      fun underlying u₂ h₂ => ?_
    have hquiet₂ : u.Quiet u₂ := IsTrans.trans _ _ _ hquiet₁ h₂.1
    have hgrounded := fun hu => h₂.2 (hquiet₁.valid hu)
    refine (read_ends _ u₂).andThen (fun _ h => h.elim) ?_
    rintro c _ ⟨rfl, rfl⟩
    split
    · exact (Refuses.read fun _ => .read fun _ => fail_refuses _).ends u₂
        fun _ h => IsTrans.trans _ _ _ hquiet₂ (.of_still h)
    next hinteger =>
      refine ((expectList_keeps elementsNode _).ends u₂).andThen
        (fun _ h => IsTrans.trans _ _ _ hquiet₂ (.of_still h)) fun elementNodes u₃ h₃ => ?_
      refine (read_ends _ u₃).andThen (fun _ h => h.elim) ?_
      rintro c _ ⟨rfl, rfl⟩
      split
      · exact (Refuses.read fun _ => fail_refuses _).ends u₃
          fun _ h => IsTrans.trans _ _ _ hquiet₂
            (.of_still (IsTrans.trans _ _ _ h₃ h))
      next bits hwidth =>
        refine (read_ends _ u₃).andThen (fun _ h => h.elim) ?_
        rintro c _ ⟨rfl, rfl⟩
        refine ((elements_keeps underlying _ elementNodes).ends u₃).andThen
          (fun _ h => IsTrans.trans _ _ _ hquiet₂ (.of_still (IsTrans.trans _ _ _ h₃ h)))
          fun builder u₄ h₄ => ?_
        have hwithin : Compilation.Within (· = ·) Ir.Module.Still u₂ u₄ :=
          IsTrans.trans _ _ _ h₃ h₄
        have hpool₃ : u₂.context.pool = u₃.context.pool := h₃.context.pool
        have hpool₄ : u₃.context.pool = u₄.context.pool := h₄.context.pool
        refine (read_ends _ u₄).andThen (fun _ h => h.elim) ?_
        rintro nameSpan _ ⟨rfl, rfl⟩
        refine (read_ends _ u₄).andThen (fun _ h => h.elim) ?_
        rintro bodySpan _ ⟨rfl, rfl⟩
        refine .pure ⟨IsTrans.trans _ _ _ hquiet₂ (.of_still hwithin), rfl, fun hu =>
          (hgrounded hu).mono (Compilation.Quiet.of_still hwithin).steady, ?_, ?_⟩
        · rw [← hpool₄, ← hpool₃]
          simpa using hinteger
        · rw [← hpool₄, hwidth]
          rfl
  next =>
    exact (Refuses.read fun _ => fail_refuses _).ends u fun _ => .of_still

end Lower

end FormCompiler
