import FormCompiler.Proofs.Context.Accounted
import FormCompiler.Proofs.EnumAtomicity
import FormCompiler.Proofs.Lower.Reporting
import FormCompiler.Proofs.Lower.TypeForms

/-!
# Structs and Functions Are Declared Whole or Not at All

The definition of a struct is checked before anything is registered, so one that fails leaves the
tables of the unit as they were, and one that succeeds adds the struct and nothing else
(`StructDeclared`). A function is registered before its body is emitted: if its header is refused
nothing is added, and if its body fails the function stays, with every block of it closed
(`FunctionDeclared`).
-/

namespace FormCompiler

/-! ## The module -/

namespace Ir.Module

variable {func : FuncId} {m m₁ m' : Module}

/-- Closing blocks leaves the other ones as they are. -/
theorem closeBlocks_others (ids : List BlockId) (m : Module) {b : BlockId} (hb : b ∉ ids) :
    (ids.foldl (fun m b => { m with blocks := m.blocks.modify b.index closeBlock }) m).block b =
      m.block b := by
  induction ids generalizing m with
  | nil => rfl
  | cons id ids ih =>
    rw [List.mem_cons, not_or] at hb
    exact (ih _ hb.2).trans (block_modify_of_ne hb.1)

/-- Finishing a function leaves the blocks of other functions as they are. -/
theorem finishFunction_others (func : FuncId) (m : Module) {b : BlockId}
    (hb : b ∉ (m.function func).blocks) : (finishFunction func m).2.block b = m.block b := by
  rw [finishFunction, ← Array.foldl_toList]
  exact closeBlocks_others _ m fun h => hb (Array.mem_toList_iff.1 h)

/-- A function was added and nothing else, but unnamed types, values and the blocks of the
function, which are closed. -/
structure FunctionAdded (func : FuncId) (m m' : Module) : Prop where
  types : TypesGrown m m'
  values : Grown m.values m'.values
  new : func = ⟨m.functions.size⟩
  size : m'.functions.size = m.functions.size + 1
  others : ∀ f : FuncId, f.index < m.functions.size → m'.function f = m.function f
  block : ∀ b : BlockId, b.index < m.blocks.size → m'.block b = m.block b
  listed : ∀ b : BlockId, b ∈ (m'.function func).blocks ↔
    m.blocks.size ≤ b.index ∧ b.index < m'.blocks.size
  closed : ∀ b ∈ (m'.function func).blocks, m'.isTerminated b = true

/-- Types and values may be added before. -/
theorem FunctionAdded.after (h : FunctionAdded func m₁ m') (hm : m.Still m₁) :
    FunctionAdded func m m' where
  types := hm.types.trans h.types
  values := hm.values.trans h.values
  new := by rw [h.new, hm.functions]
  size := by rw [h.size, hm.functions]
  others f hf := (h.others f (by rwa [hm.functions])).trans (hm.function f)
  block b hb := (h.block b (by rwa [hm.blocks])).trans (hm.block b)
  listed b := by rw [h.listed, hm.blocks]
  closed := h.closed

/-- The code of a body is all that is added by it. -/
theorem Bodied.adds (h : Bodied func m m') :
    TypesGrown m m' ∧ Grown m.values m'.values ∧ m'.functions.size = m.functions.size ∧
      (∀ f, f ≠ func → m'.function f = m.function f) ∧
      (m.function func).Extends (m'.function func) ∧
      (∀ b : BlockId, b.index < m.blocks.size → m'.block b = m.block b) ∧
      ∀ b : BlockId, b ∈ (m'.function func).blocks ↔
        m.blocks.size ≤ b.index ∧ b.index < m'.blocks.size := by
  have hblocks := h.noBlocks
  obtain ⟨entry, m₂, hnew, hgrows, hm'⟩ := h.grows
  have hextends := hgrows.extended.function func h.inTable
  have hblock : ∀ b : BlockId, b.index < m.blocks.size → m₂.block b = m.block b :=
    fun b hb => hgrows.others b hb (by rintro rfl; omega)
  have hlisted : ∀ b : BlockId, b ∈ (m₂.function func).blocks ↔
      m.blocks.size ≤ b.index ∧ b.index < m₂.blocks.size := by
    intro b
    rw [hgrows.listed, hblocks]
    exact ⟨fun h => h.resolve_left (Array.not_mem_empty b), .inr⟩
  rcases hm' with ⟨rfl, -⟩ | rfl
  · exact ⟨hgrows.named, hgrows.extended.values, hgrows.functions, hgrows.otherFunctions, hextends,
      hblock, hlisted⟩
  · obtain ⟨-, htypes, hvalues, hfunctions, hsize, -, -⟩ := finishFunction_finished func m₂
    have hfunction : ∀ f, (finishFunction func m₂).2.function f = m₂.function f := fun f => by
      rw [function, hfunctions, function]
    refine ⟨hgrows.named.trans (.of_eq htypes), hvalues ▸ hgrows.extended.values,
      hfunctions ▸ hgrows.functions, fun f hf => (hfunction f).trans (hgrows.otherFunctions f hf),
      (hfunction func).symm ▸ hextends, fun b hb => ?_, fun b => ?_⟩
    · -- the blocks that were there before are none of the function's
      have hother : b ∉ (m₂.function func).blocks := fun h => by
        have := ((hlisted b).1 h).1
        omega
      rw [finishFunction_others func m₂ hother, hblock b hb]
    · rw [hfunction, hsize, hlisted]

namespace Declared

variable {symbol : String} {tys : List TyId} {ret : TyId} {linkage : Linkage}

/-- Declaring a function adds it, without a block. -/
theorem added (h : Declared symbol tys ret linkage func m m') : FunctionAdded func m m' where
  types := .of_eq h.types
  values := h.values
  new := h.func_eq
  size := by
    obtain ⟨params, hfunctions, -⟩ := h.functions
    rw [hfunctions, Array.size_push]
  others f hf := h.function_of_lt hf
  block b _ := by rw [Module.block, Module.block, h.blocks]
  listed b := by
    obtain ⟨values, hself, -⟩ := h.function_self
    have hnone : ¬ (m.blocks.size ≤ b.index ∧ b.index < m'.blocks.size) := by
      rw [h.blocks]
      omega
    rw [hself]
    exact ⟨fun hb => absurd hb (Array.not_mem_empty b), fun hb => absurd hb hnone⟩
  closed b hb := by
    obtain ⟨values, hself, -⟩ := h.function_self
    rw [hself] at hb
    exact absurd hb (Array.not_mem_empty b)

/-- Declaring a function and emitting its body adds it, with its blocks closed. -/
theorem added_bodied (h : Declared symbol tys ret linkage func m m₁) (hbody : Bodied func m₁ m') :
    FunctionAdded func m m' := by
  obtain ⟨htypes, hvalues, hsize, hothers, -, hblock, hlisted⟩ := hbody.adds
  have hadded := h.added
  have hblocks : m₁.blocks.size = m.blocks.size := by rw [h.blocks]
  refine ⟨hadded.types.trans htypes, hadded.values.trans hvalues, hadded.new,
    hsize.trans hadded.size, fun f hf => ?_, fun b hb => ?_, fun b => ?_, fun b hb => ?_⟩
  · have hne : f ≠ func := by
      rintro rfl
      rw [hadded.new] at hf
      exact absurd hf (Nat.lt_irrefl _)
    exact (hothers f hne).trans (hadded.others f hf)
  · exact (hblock b (by omega)).trans (hadded.block b hb)
  · rw [hlisted, hblocks]
  · -- what is open in the end was open, and in the function, before the body
    by_contra hopen
    have hold := (hbody.tidy func b hb (Bool.eq_false_iff.2 hopen)).1
    rw [hbody.noBlocks] at hold
    exact Array.not_mem_empty b hold

end Declared

end Ir.Module

/-! ## The context -/

namespace Context

variable {c c₁ c' : Context}

/-- No value was added to the module. -/
def SameValues (c c' : Context) : Prop := c'.ir.values = c.ir.values

instance : Std.Refl SameValues := ⟨fun _ => rfl⟩

instance : IsTrans Context SameValues := ⟨fun _ _ _ h h' => Eq.trans h' h⟩

/-- Asking for a backend type adds no value. -/
theorem backendType_sameValues (t : TypeId) : Moves SameValues (backendType t) := by
  have hintern : ∀ ty m, (Ir.Module.internType ty m).2.values = m.values := fun ty m => by
    unfold Ir.Module.internType
    split <;> rfl
  have hbelow : ∀ bound t c, (backendTypeBelow bound t c).2.ir.values = c.ir.values := by
    intro bound
    induction bound with
    | zero => exact fun _ c => hintern _ c.ir
    | succ bound ih =>
      intro t c
      unfold backendTypeBelow
      split
      · exact hintern _ c.ir
      · split
        · exact (hintern _ _).trans (hintern _ c.ir)
        · exact (hintern _ _).trans (ih _ c)
      all_goals
        split
        · rfl
        · exact hintern _ c.ir
  exact fun c => hbelow _ t c

/-- Asking for backend types adds no value. -/
theorem backendTypes_sameValues (ts : List TypeId) : Moves SameValues (backendTypes ts) := by
  induction ts with
  | nil => exact .pure _
  | cons t ts ih =>
    exact .bind (backendType_sameValues t) fun _ => .bind ih fun _ => .pure _

/-- The struct was added and nothing else: under its name to the current namespace, where the name
was free, under its symbol to the named types of the module, and with its type to the layouts. -/
structure StructAdded (name : String) (s : Struct) (c c' : Context) : Prop where
  free : c.current.struct? name = none
  freeSymbol : c.ir.lookupStruct? s.symbol = none
  namespaces : c'.namespaces =
    (c.withCurrent { c.current with structs := (name, s) :: c.current.structs }).namespaces
  layouts : c'.layouts = (s.ty, s.backend) :: c.layouts
  type : c'.pool.types[s.ty.index]? = some (.struct name c.path)
  structs : ∃ fields, c'.ir.types.filter (·.isNamed) =
    (c.ir.types.filter (·.isNamed)).push (.struct (some s.symbol) fields)
  entered : c'.entered = c.entered
  onceTag : c'.onceTag = c.onceTag
  values : c'.ir.values = c.ir.values
  blocks : c'.ir.blocks = c.ir.blocks
  functions : c'.ir.functions = c.ir.functions

/-- The types that were entered before are no addition. -/
theorem StructAdded.after {P : Pool → Pool → Prop} {name : String} {s : Struct}
    (h : c₁.StructAdded name s c') (hc : c.Within P Ir.Module.OnlyTypes c₁) :
    c.StructAdded name s c' where
  free := by rw [← hc.current, h.free]
  freeSymbol := by rw [← hc.ir.types.lookupStruct?, h.freeSymbol]
  namespaces := by
    rw [h.namespaces, Context.withCurrent, hc.current, hc.namespaces, currentId, hc.entered]
    rfl
  layouts := by rw [h.layouts, hc.layouts]
  type := by rw [h.type, path, hc.current, path]
  structs := by
    rw [← (Untouched.of_still (hc.mono (fun _ _ h => h) fun _ _ => (·.toStill))).structs]
    exact h.structs
  entered := h.entered.trans hc.entered
  onceTag := h.onceTag.trans hc.onceTag
  values := h.values.trans hc.ir.sameValues
  blocks := h.blocks.trans hc.ir.blocks
  functions := h.functions.trans hc.ir.functions

/-- The namespace to which the struct was added. -/
theorem StructAdded.current {name : String} {s : Struct} (h : c.StructAdded name s c')
    (hc : c.currentId.index < c.namespaces.size) :
    c'.current = { c.current with structs := (name, s) :: c.current.structs } := by
  rw [Context.current, namespaceOf, h.namespaces, currentId, h.entered]
  exact current_withCurrent hc _

/-- The function was added and nothing else: to the current namespace and, under its symbol, to the
module. -/
structure FunctionAdded (f : Function) (c c' : Context) : Prop where
  namespaces : c'.namespaces =
    (c.withCurrent { c.current with functions := c.current.functions.push f }).namespaces
  ir : Ir.Module.FunctionAdded f.backend c.ir c'.ir
  symbol : (c'.ir.function f.backend).symbol = f.symbol
  linkage : (c'.ir.function f.backend).linkage = f.linkage
  layouts : c'.layouts = c.layouts
  entered : c'.entered = c.entered
  onceTag : c'.onceTag = c.onceTag

/-- The types that were entered before are no addition. -/
theorem FunctionAdded.after {P : Pool → Pool → Prop} {f : Function}
    (h : c₁.FunctionAdded f c') (hc : c.Within P Ir.Module.OnlyTypes c₁) :
    c.FunctionAdded f c' where
  namespaces := by
    rw [h.namespaces, Context.withCurrent, hc.current, hc.namespaces, currentId, hc.entered]
    rfl
  ir := h.ir.after hc.ir.toStill
  symbol := h.symbol
  linkage := h.linkage
  layouts := h.layouts.trans hc.layouts
  entered := h.entered.trans hc.entered
  onceTag := h.onceTag.trans hc.onceTag

/-- The namespace to which the function was added. -/
theorem FunctionAdded.current {f : Function} (h : c.FunctionAdded f c')
    (hc : c.currentId.index < c.namespaces.size) :
    c'.current = { c.current with functions := c.current.functions.push f } := by
  rw [Context.current, namespaceOf, h.namespaces, currentId, h.entered]
  exact current_withCurrent hc _

/-- Declaring a function adds it, and so does declaring it and emitting its body. -/
theorem Declared.functionAdded {P : Pool → Pool → Prop} {R : Ir.Module → Ir.Module → Prop}
    {name : String} {params : List Param} {returnType : TypeId} {linkage : Ir.Linkage}
    {func : Ir.FuncId} (h : Declared name params returnType linkage func c c₁)
    (hc : c₁.Within P R c') (hcode : c'.ir = c₁.ir ∨ Ir.Module.Bodied func c₁.ir c'.ir) :
    c.FunctionAdded ⟨name, params, returnType, linkage,
      c.functionSymbol name (params.map (·.ty)), func⟩ c' := by
  obtain ⟨-, c₀, tys, ret, ir, hwithin, -, -, hdeclared, rfl⟩ := h
  obtain ⟨values, hself, -⟩ := hdeclared.function_self
  replace hcode : c'.ir = ir ∨ Ir.Module.Bodied func ir c'.ir := hcode
  have hadded : Ir.Module.FunctionAdded func c₀.ir c'.ir := by
    rcases hcode with hcode | hcode
    · exact hcode ▸ hdeclared.added
    · exact hdeclared.added_bodied hcode
  have hfunction : (ir.function func).Extends (c'.ir.function func) := by
    rcases hcode with hcode | hcode
    · exact hcode ▸ .refl _
    · exact hcode.adds.2.2.2.2.1
  refine ⟨?_, hadded.after hwithin.ir, ?_, ?_, hc.layouts.trans hwithin.layouts,
    hc.entered.trans hwithin.entered, hc.onceTag.trans hwithin.onceTag⟩
  · rw [hc.namespaces]
    change c₀.namespaces.setIfInBounds (c₀.entered.headD .root).index _ = _
    rw [hwithin.namespaces, hwithin.entered]
    rfl
  · rw [hfunction.symbol, hself]
  · rw [hfunction.linkage, hself]

/-- A function that is refused adds no value. -/
theorem declareFunction_sameValues (name : String) (params : List Param) (returnType : TypeId)
    (linkage : Ir.Linkage) (span : Span) (c : Context) :
    Ends (declareFunction name params returnType linkage span) c (fun _ _ => True)
      c.SameValues := by
  refine .next rfl ?_
  dsimp only
  split
  next => exact (rfl : c.ir.values = c.ir.values)
  next =>
    refine .next rfl ?_
    refine ((always_keeps (backendTypes_sameValues _)).ends c).bind fun tys c₁ h₁ => ?_
    refine ((always_keeps (backendType_sameValues _)).ends c₁).andThen
      (fun _ h => IsTrans.trans _ _ _ h₁ h) fun ret c₂ h₂ => ?_
    refine (emitOr_ends _ (Ir.Module.declareFunction_ends _ tys ret linkage c₂.ir)).andThen ?_
      fun _ c₃ _ => (always_ends _ c₃).andThen (fun _ h => h.elim) fun _ _ _ => .pure trivial
    rintro _ ⟨ir, queue, rfl, rfl, -⟩
    exact IsTrans.trans c c₁ _ h₁ h₂

end Context

namespace Lower

variable {σ : Type} {u : Compilation σ}

/-- Registering a struct adds no value, with success or without. -/
theorem registerStruct_sameValues (name : String) (members : List (String × TypeId))
    (linkage : Ir.Linkage) (nameSpan : Span) :
    Keeps Context.SameValues (registerStruct name members linkage nameSpan) := by
  have hnamed : ∀ refusal symbol layout, Keeps Context.SameValues
      (Context.emitOr refusal (Ir.Module.namedStruct symbol layout)) := by
    intro refusal symbol layout c
    refine (Context.emitOr_ends _ (Ir.Module.namedStruct_ends symbol layout c.ir)).mono ?_ ?_
    · rintro _ _ ⟨_, rfl, -, -, rfl⟩
      rfl
    · rintro _ ⟨_, _, rfl, rfl, -⟩
      rfl
  have hadd : ∀ s, Moves Context.SameValues (Context.addStruct name s) := by
    intro s c
    unfold Context.addStruct Context.update
    split <;> rfl
  refine .bind .get fun c => ?_
  dsimp only
  split
  · exact fun _ => rfl
  · exact .bind (Context.always_keeps (Context.backendTypes_sameValues _)) fun layout =>
      .bind .get fun _ => .bind (hnamed _ _ _) fun _ => .bind .get fun _ => .bind .get fun _ =>
      .bind (Context.always_keeps fun _ => rfl) fun _ =>
      .bind (Context.always_keeps fun _ => rfl) fun _ =>
      .bind (Context.always_keeps (hadd _)) fun _ => .pure _

/-- A struct is added, or nothing but types. -/
theorem registerStruct_adds (name : String) (members : List (String × TypeId))
    (linkage : Ir.Linkage) (nameSpan : Span) (c : Context) :
    Ends (registerStruct name members linkage nameSpan) c
      (fun _ c' => c.pool.Extends c'.pool ∧
        (c.Valid → (∀ m ∈ members, c.Grounded m.2) → c'.Valid) ∧
        ∃ s : Struct, s.linkage = linkage ∧ s.members = members ∧ c.StructAdded name s c')
      (c.Within Pool.Extends Ir.Module.OnlyTypes) := by
  refine ((registerStruct_ends name members linkage nameSpan c).and
    (registerStruct_sameValues name members linkage nameSpan c)).mono ?_ ?_
  · rintro _ c' ⟨hregistered, hvalues⟩
    have hsafe := fun hc hmembers => (hregistered.safe hc hmembers).1
    obtain ⟨hnew, c₁, c₂, layout, hwithin, -, hfree, rfl, rfl⟩ := hregistered
    have hintern := Pool.intern_spec c₁.pool (.struct name c.path)
    have hpool : c.pool.Extends (c₁.pool.intern (.struct name c.path)).2 := by
      rw [show c.pool = c₁.pool from hwithin.pool]
      exact hintern.1
    refine ⟨hpool, hsafe, ⟨linkage, c.onceTag, (c₁.pool.intern (.struct name c.path)).1,
      ⟨c₁.ir.types.size⟩, c.structSymbol name, members⟩, rfl, rfl, hnew, ?_, ?_, ?_,
      Pool.type_of_find hintern.2, ⟨layout, ?_⟩, hwithin.entered, hwithin.onceTag, hvalues,
      hwithin.ir.blocks, hwithin.ir.functions⟩
    · rwa [hwithin.ir.types.lookupStruct?] at hfree
    · change c₁.namespaces.setIfInBounds (c₁.entered.headD .root).index _ = _
      rw [hwithin.namespaces, hwithin.entered]
      rfl
    · exact congrArg (List.cons _) hwithin.layouts
    · have hstructs := (Context.Untouched.of_still hwithin).structs
      change (c₁.ir.types.push _).filter _ = _
      rw [Array.filter_push_of_pos rfl (Array.size_push _), hstructs]
  · rintro c' ⟨⟨hwithin, -⟩, hvalues⟩
    exact ⟨hwithin.pool ▸ .refl _, ⟨hwithin.ir, hvalues⟩, hwithin.namespaces, hwithin.entered,
      hwithin.layouts, hwithin.onceTag⟩

end Lower

/-! ## Definitions -/

/-- The form is `(def name (word part...))`. -/
def Forest.IsDefinition (f : Forest) (node : NodeId) (word name : String)
    (parts : List NodeId) : Prop :=
  ∃ head nameNode body wordNode, f.items? node = some [head, nameNode, body] ∧
    f.symbol? head = some "def" ∧ f.symbol? nameNode = some name ∧
    f.items? body = some (wordNode :: parts) ∧ f.symbol? wordNode = some word

/-- The form is `(def name (word part...))`, with its name and its body at these nodes. -/
def Forest.IsDefinitionOf (f : Forest) (node nameNode body : NodeId) (word name : String)
    (parts : List NodeId) : Prop :=
  ∃ head wordNode, f.items? node = some [head, nameNode, body] ∧
    f.symbol? head = some "def" ∧ f.symbol? nameNode = some name ∧
    f.items? body = some (wordNode :: parts) ∧ f.symbol? wordNode = some word

/-- The parts are the linkage and the members of the struct, in order. -/
def Forest.ListsStruct (f : Forest) (c : Context) (parts : List NodeId) (s : Struct) : Prop :=
  ∃ linkageNode membersNode memberNodes, parts = [linkageNode, membersNode] ∧
    (f.symbol? linkageNode).bind Ir.Linkage.ofKeyword? = some s.linkage ∧
    f.items? membersNode = some memberNodes ∧ f.Lists c memberNodes s.members

/-- The parts begin with the linkage, the return type and the parameters of the function. -/
def Forest.ListsFunction (f : Forest) (c : Context) (parts : List NodeId) (g : Function) : Prop :=
  ∃ linkageNode tyNode paramsNode paramNodes forms,
    parts = linkageNode :: tyNode :: paramsNode :: forms ∧
    (f.symbol? linkageNode).bind Ir.Linkage.ofKeyword? = some g.linkage ∧
    f.Denotes c tyNode g.returnType ∧ f.items? paramsNode = some paramNodes ∧
    f.Lists c paramNodes (g.params.map fun p => (p.name, p.ty))

namespace Compilation

variable {σ : Type}

/-- The struct of the name and the parts was added, and nothing else but types. Its members have the
types that the parts stand for before it is declared, and its layout has their backend types. -/
def StructDeclared (name : String) (parts : List NodeId) (u u' : Compilation σ) : Prop :=
  u' = u.withContext u'.context ∧ u.context.pool.Extends u'.context.pool ∧
    ∃ s, u.forest.ListsStruct (u.context.withPool u'.context.pool) parts s ∧
      u.context.StructAdded name s u'.context ∧ u'.context.LaysOut u.context.path name s

/-- The function of the name and the parts, whose signature was free, was added, and nothing else
but types and values. The function of the module has the backend types of its signature. -/
def FunctionDeclared (name : String) (parts : List NodeId) (u u' : Compilation σ) : Prop :=
  u.context.pool.Extends u'.context.pool ∧
    ∃ f, u.forest.ListsFunction (u.context.withPool u'.context.pool) parts f ∧
      (u.context.withPool u'.context.pool).Free ⟨name, f.paramTypes, f.returnType⟩ ∧
      Signature.Describes ⟨name, f.paramTypes, f.returnType⟩
        (u.context.withPool u'.context.pool) f ∧
      u.context.FunctionAdded f u'.context ∧ u'.context.Implements f

end Compilation

namespace Lower

variable {σ : Type} {u : Compilation σ}

/-- A struct is defined, or nothing but types is added. -/
theorem defineStruct_adds (hu : u.context.Valid) (nameNode : NodeId) (name : String)
    (body : NodeId) (parts : List NodeId) :
    Ends (defineStruct nameNode name body parts) u (fun _ u' => u.StructDeclared name parts u')
      u.OnlyTypes := by
  unfold defineStruct
  split
  next linkageNode membersNode =>
    refine (expectLinkage_reads linkageNode u).bind ?_
    rintro linkage _ ⟨hlinkage, rfl⟩
    refine (expectList_reads membersNode _ u).bind ?_
    rintro memberNodes _ ⟨hmembers, rfl⟩
    refine ((typedNames_reads _ memberNodes u).and (typedNames_ends _ [] memberNodes u)).andThen
      (fun _ h => h.1) ?_
    rintro members u₁ ⟨⟨hentered, hlists⟩, hquiet, hgrounded⟩
    refine .next rfl ((onContext_ends (registerStruct_adds name members linkage _
      u₁.context)).mono ?_ ?_)
    · rintro _ _ ⟨c, rfl, hpool, hsafe, s, rfl, rfl, hadded⟩
      have hvalid : c.Valid := hsafe (hquiet.valid hu) (hgrounded hu fun _ h => by cases h)
      have hadded' := hadded.after hentered.within
      refine ⟨by rw [hentered.same]; rfl, hentered.within.pool.trans hpool, s,
        ⟨linkageNode, membersNode, memberNodes, rfl, hlinkage, hmembers,
          (hentered.before hpool).lists hlists⟩, hadded', ?_⟩
      have hcurrent := hadded'.current hu.currentId_lt
      have hlaysOut := hvalid.structs c.currentId hvalid.currentId_lt (name, s)
      rw [← Context.current, hcurrent] at hlaysOut
      exact hlaysOut List.mem_cons_self
    · rintro _ ⟨c, rfl, hwithin⟩
      exact IsTrans.trans _ _ _ hentered (.of_context hwithin)
  next => exact (Refuses.read fun _ => fail_onlyTypes _).ends u fun _ h => h

/-- Declaring a function whose types were read adds it, with its body or without. -/
theorem functionDeclared {u₁ u' : Compilation σ} {P : Pool → Pool → Prop}
    {R : Ir.Module → Ir.Module → Prop} {name : String} {params : List Param}
    {returnType : TypeId} {linkage : Ir.Linkage} {func : Ir.FuncId} {c : Context}
    {linkageNode tyNode paramsNode : NodeId} {paramNodes forms : List NodeId}
    (hentered : u.OnlyTypes u₁) (hvalid : u₁.context.Valid)
    (hgrounded : ∀ p ∈ params, u₁.context.Grounded p.ty)
    (hlinkage : (u.forest.symbol? linkageNode).bind Ir.Linkage.ofKeyword? = some linkage)
    (hreturn : u.forest.Denotes u₁.context tyNode returnType)
    (hitems : u.forest.items? paramsNode = some paramNodes)
    (hparams : u.forest.Lists u₁.context paramNodes (params.map fun p => (p.name, p.ty)))
    (hdeclared : Context.Declared name params returnType linkage func u₁.context c)
    (hpool : c.pool.Extends u'.context.pool) (hc : c.Within P R u'.context)
    (hcode : u'.context.ir = c.ir ∨ Ir.Module.Bodied func c.ir u'.context.ir)
    (hvalid' : u'.context.Valid) :
    u.FunctionDeclared name (linkageNode :: tyNode :: paramsNode :: forms) u' := by
  have hpool₁ : u₁.context.pool.Extends u'.context.pool := by
    obtain ⟨-, c₁, tys, ret, ir, hwithin, -, -, -, rfl⟩ := hdeclared
    rw [show u₁.context.pool = c₁.pool from hwithin.pool]
    exact hpool
  have hbefore := hentered.before hpool₁
  -- the types of the parameters were in the pool, so the symbol is written as before
  have hsymbol : (u.context.withPool u'.context.pool).functionSymbol name (params.map (·.ty)) =
      u₁.context.functionSymbol name (params.map (·.ty)) := by
    rw [Context.functionSymbol, Context.functionSymbol, Context.path, hbefore.current]
    congr 1
    refine List.map_congr_left fun t ht => hvalid.pool.format hpool₁ ?_
    obtain ⟨p, hp, rfl⟩ := List.mem_map.1 ht
    exact (hgrounded p hp).index_lt
  obtain ⟨hoverload, hfree⟩ := hdeclared.signature_free
  have hadded := hdeclared.functionAdded hc hcode
  have himplements := hvalid'.functions u'.context.currentId hvalid'.currentId_lt
  rw [← Context.current, hadded.current hvalid.currentId_lt] at himplements
  refine ⟨hentered.within.pool.trans hpool₁, _, ⟨linkageNode, tyNode, paramsNode, paramNodes,
      forms, rfl, hlinkage, hbefore.denotes hreturn, hitems, hbefore.lists hparams⟩, ⟨?_, ?_⟩,
    ⟨rfl, rfl, rfl, hsymbol.symm⟩, hadded.after hentered.within,
    himplements _ Array.mem_push_self⟩
  · rw [hbefore.current]
    exact hoverload
  · change u.context.ir.lookupFunction? _ = none
    change u₁.context.ir.lookupFunction? _ = none at hfree
    rw [Ir.Module.lookupFunction?, hentered.within.ir.functions,
      ← Ir.Module.lookupFunction?] at hfree
    exact (congrArg _ hsymbol).trans hfree

/-- A function is defined, or nothing but types is added. -/
theorem defineFunction_adds (hu : u.context.Valid) (nameNode : NodeId) (name : String)
    (bodyNode : NodeId) (parts : List NodeId) :
    Ends (defineFunction nameNode name bodyNode parts) u
      (fun _ u' => u.FunctionDeclared name parts u')
      fun u' => u.OnlyTypes u' ∨ u.FunctionDeclared name parts u' := by
  unfold defineFunction
  split
  next linkageNode tyNode paramsNode forms =>
    refine (expectLinkage_reads linkageNode u).andThen (fun _ => .inl) ?_
    rintro linkage _ ⟨hlinkage, rfl⟩
    refine ((resolveType_denotes tyNode u).and (resolveType_ends tyNode u)).andThen
      (fun _ h => .inl h.1) ?_
    rintro returnType u₁ ⟨⟨hentered₁, hreturn⟩, hquiet₁, hground⟩
    refine (expectList_reads paramsNode _ u₁).andThen
      (fun _ h => .inl (IsTrans.trans _ _ _ hentered₁ h)) ?_
    rintro paramNodes _ ⟨hitems, rfl⟩
    refine ((typedNames_reads _ paramNodes u₁).and (typedNames_ends _ [] paramNodes u₁)).andThen
      (fun _ h => .inl (IsTrans.trans _ _ _ hentered₁ h.1)) ?_
    rintro named u₂ ⟨⟨hentered₂, hlists⟩, hquiet₂, hnamed⟩
    rw [hentered₁.forest] at hitems hlists
    have hentered : u.OnlyTypes u₂ := IsTrans.trans _ _ _ hentered₁ hentered₂
    have hvalid₁ := hquiet₁.valid hu
    have hret := (hground hu).mono hquiet₂.steady
    have hparams : ∀ p ∈ named.map fun d => Param.mk d.1 d.2, u₂.context.Grounded p.ty := by
      intro p hp
      obtain ⟨d, hd, rfl⟩ := List.mem_map.1 hp
      exact hnamed hvalid₁ (fun _ h => absurd h List.not_mem_nil) d hd
    refine .next rfl ((onContext_ends ((Context.declareFunction_ends name _ returnType linkage
      _ u₂.context).and (Context.declareFunction_sameValues name _ returnType linkage _
        u₂.context))).andThen ?_ ?_)
    · rintro _ ⟨c, rfl, ⟨hstill, -⟩, hvalues⟩
      exact .inl (IsTrans.trans _ _ _ hentered (.of_context ⟨hstill.pool ▸ .refl _,
        ⟨hstill.ir, hvalues⟩, hstill.namespaces, hstill.entered, hstill.layouts, hstill.onceTag⟩))
    · rintro func _ ⟨c, rfl, hdeclared, -⟩
      obtain ⟨hvalid, hsteady⟩ := hdeclared.safe (hquiet₂.valid hvalid₁) hparams hret
      have hlists' : u.forest.Lists u₂.context paramNodes
          ((named.map fun d => Param.mk d.1 d.2).map fun p => (p.name, p.ty)) := by
        rw [List.map_map]
        exact (List.map_id named).symm ▸ hlists
      split
      · exact .pure (functionDeclared (P := (· = ·)) (R := (· = ·)) hentered
          (hquiet₂.valid hvalid₁) hparams hlinkage (hentered₂.within.denotes hreturn) hitems
          hlists' hdeclared (.refl _) (Std.Refl.refl _) (.inl rfl) hvalid)
      next first rest =>
        have hbody : ∀ u₃ : Compilation σ,
            (c.Within Pool.Extends Ir.Module.Extends u₃.context ∧ c.Safe u₃.context ∧
              Ir.Module.Bodied func c.ir u₃.context.ir) →
            u.FunctionDeclared name (linkageNode :: tyNode :: paramsNode :: first :: rest) u₃ :=
          fun u₃ h => functionDeclared hentered (hquiet₂.valid hvalid₁) hparams hlinkage
            (hentered₂.within.denotes hreturn) hitems hlists' hdeclared h.1.pool h.1 (.inr h.2.2)
            (h.2.1 hvalid).1
        exact .next rfl ((functionBody_ends hdeclared (fun p hp => (hparams p hp).mono hsteady) _
          first rest u₂).mono (fun _ => hbody) fun u₃ h => .inr (hbody u₃ h))
  next => exact (Refuses.read fun _ => fail_onlyTypes _).ends u fun _ => .inl

/-- A definition is processed by the word that its body begins with. -/
theorem processTopLevel_parts {node nameNode body : NodeId} {word name : String}
    {parts : List NodeId} (h : u.forest.IsDefinitionOf node nameNode body word name parts) :
    (word = "enum" → processTopLevel node u = defineEnum nameNode name body parts u) ∧
      (word = "struct" → processTopLevel node u = defineStruct nameNode name body parts u) ∧
      (word = "fn" → processTopLevel node u = defineFunction nameNode name body parts u) ∧
      processTopLevel node u = definition node [nameNode, body] u := by
  obtain ⟨head, wordNode, hitems, hhead, hname, hbody, hword⟩ := h
  have hdefinition := processTopLevel_def hitems hhead
  refine ⟨?_, ?_, ?_, hdefinition⟩
  all_goals
    rintro rfl
    rw [hdefinition]
    unfold definition
    simp only [bind, EStateM.bind, expectSymbol_run hname, expectList_run hbody, symbol?, hword]
    rfl

/-- A definition is processed by the word that its body begins with. -/
theorem processTopLevel_word {node : NodeId} {word name : String} {parts : List NodeId}
    (h : u.forest.IsDefinition node word name parts) :
    ∃ nameNode body,
      (word = "enum" → processTopLevel node u = defineEnum nameNode name body parts u) ∧
      (word = "struct" → processTopLevel node u = defineStruct nameNode name body parts u) ∧
      (word = "fn" → processTopLevel node u = defineFunction nameNode name body parts u) ∧
      processTopLevel node u = definition node [nameNode, body] u := by
  obtain ⟨head, nameNode, body, wordNode, h⟩ := h
  exact ⟨nameNode, body, processTopLevel_parts ⟨head, wordNode, h⟩⟩

/-- In every reachable unit the definition of a struct adds the struct, whole and by itself, or
fails and leaves all tables as they were. The definition of a function that fails leaves them so as
well, or has a valid and new signature and adds the function, with every block of it closed. Either
way one error at most is reported. -/
theorem declaration_wholeOrNothing (h : Reachable u) (node : NodeId) (name : String)
    (parts : List NodeId) :
    (u.forest.IsDefinition node "struct" name parts →
      Ends (processTopLevel node) u (fun _ u' => u.StructDeclared name parts u') u.OnlyTypes) ∧
    (u.forest.IsDefinition node "fn" name parts →
      Ends (processTopLevel node) u (fun _ u' => u.FunctionDeclared name parts u')
        fun u' => u.OnlyTypes u' ∨ u.FunctionDeclared name parts u') ∧
    ∀ word, u.forest.IsDefinition node word name parts →
      (reporting Compilation.queue u.queue).Allows (processTopLevel node u) := by
  refine ⟨fun hnode => ?_, fun hnode => ?_, fun word hnode => ?_⟩
  · obtain ⟨nameNode, body, -, hstruct, -⟩ := processTopLevel_word hnode
    rw [Ends, hstruct rfl]
    exact defineStruct_adds h.valid nameNode name body parts
  · obtain ⟨nameNode, body, -, -, hfunction, -⟩ := processTopLevel_word hnode
    rw [Ends, hfunction rfl]
    exact defineFunction_adds h.valid nameNode name body parts
  · obtain ⟨nameNode, body, -, -, -, hdefinition⟩ := processTopLevel_word hnode
    rw [hdefinition]
    exact definition_reportsOnce node [nameNode, body] u.queue u rfl

/-- The unit with the forms `(def P (struct extern ((x int) (x int))))` and
`(def f (fn extern int () y))`, and nothing declared. -/
def brokenUnit : Compilation Unit where
  forest := ⟨#[⟨.token ⟨.symbol, ⟨1⟩⟩, .dummy⟩, ⟨.token ⟨.symbol, ⟨2⟩⟩, .dummy⟩,
    ⟨.token ⟨.symbol, ⟨3⟩⟩, .dummy⟩, ⟨.token ⟨.symbol, ⟨4⟩⟩, .dummy⟩,
    ⟨.token ⟨.symbol, ⟨5⟩⟩, .dummy⟩, ⟨.token ⟨.symbol, ⟨6⟩⟩, .dummy⟩, ⟨.list [⟨4⟩, ⟨5⟩], .dummy⟩,
    ⟨.list [⟨6⟩, ⟨6⟩], .dummy⟩, ⟨.list [⟨2⟩, ⟨3⟩, ⟨7⟩], .dummy⟩,
    ⟨.list [⟨0⟩, ⟨1⟩, ⟨8⟩], .dummy⟩, ⟨.token ⟨.symbol, ⟨7⟩⟩, .dummy⟩,
    ⟨.token ⟨.symbol, ⟨8⟩⟩, .dummy⟩, ⟨.token ⟨.symbol, ⟨9⟩⟩, .dummy⟩, ⟨.list [], .dummy⟩,
    ⟨.list [⟨11⟩, ⟨3⟩, ⟨5⟩, ⟨13⟩, ⟨12⟩], .dummy⟩, ⟨.list [⟨0⟩, ⟨10⟩, ⟨14⟩], .dummy⟩],
    ⟨#["", "def", "P", "struct", "extern", "x", "int", "f", "fn", "y"]⟩⟩
  context := .start .standard
  memory := ()
  expander := .none
  maxExpansions := 128

/-- The struct with two members of one name is not declared. The function whose body names no
variable is, with its blocks closed. -/
theorem wholeOrNothing_brokenUnit :
    Reachable brokenUnit ∧
      brokenUnit.forest.IsDefinition ⟨9⟩ "struct" "P" [⟨3⟩, ⟨7⟩] ∧
      brokenUnit.forest.IsDefinition ⟨15⟩ "fn" "f" [⟨3⟩, ⟨5⟩, ⟨13⟩, ⟨12⟩] ∧
      Ends (processTopLevel ⟨9⟩) brokenUnit (fun _ _ => False) brokenUnit.OnlyTypes ∧
      Ends (processTopLevel ⟨15⟩) brokenUnit (fun _ _ => False)
        (brokenUnit.FunctionDeclared "f" [⟨3⟩, ⟨5⟩, ⟨13⟩, ⟨12⟩]) := by
  have hreachable : Reachable brokenUnit :=
    Reachable.forest brokenUnit.forest (.start .standard .none ())
  have hstruct : brokenUnit.forest.IsDefinition ⟨9⟩ "struct" "P" [⟨3⟩, ⟨7⟩] :=
    ⟨⟨0⟩, ⟨1⟩, ⟨8⟩, ⟨2⟩, rfl, rfl, rfl, rfl, rfl⟩
  have hfunction : brokenUnit.forest.IsDefinition ⟨15⟩ "fn" "f" [⟨3⟩, ⟨5⟩, ⟨13⟩, ⟨12⟩] :=
    ⟨⟨0⟩, ⟨10⟩, ⟨14⟩, ⟨11⟩, rfl, rfl, rfl, rfl, rfl⟩
  have hrun : Ends (processTopLevel ⟨9⟩) brokenUnit (fun _ _ => False) fun _ => True := by
    unfold Ends
    decide +kernel
  have hrun' : Ends (processTopLevel ⟨15⟩) brokenUnit (fun _ _ => False)
      fun u' => u'.context.ir.functions.size = 1 := by
    unfold Ends
    decide +kernel
  refine ⟨hreachable, hstruct, hfunction, ?_, ?_⟩
  · exact (((declaration_wholeOrNothing hreachable ⟨9⟩ "P" [⟨3⟩, ⟨7⟩]).1 hstruct).and hrun).mono
      (fun _ _ h => h.2) fun _ h => h.1
  · refine (((declaration_wholeOrNothing hreachable ⟨15⟩ "f" _).2.1 hfunction).and hrun').mono
      (fun _ _ h => h.2) ?_
    rintro u' ⟨htypes | hdeclared, hsize⟩
    · -- a function was added, so it was not the header that failed
      rw [htypes.within.ir.functions] at hsize
      exact absurd hsize (by decide)
    · exact hdeclared

end Lower

end FormCompiler
