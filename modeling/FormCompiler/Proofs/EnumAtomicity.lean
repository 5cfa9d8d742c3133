import FormCompiler.Proofs.Context.EnumFunctions
import FormCompiler.Proofs.Reachable

/-!
# Enums Are Declared Whole, Unless a Function Clashes

The declaration of an enum registers the enum, its backing struct and eight functions. The checks
before it and a clash of the two type names are found before anything is registered, but the
functions are declared one after the other, and one whose signature or symbol is taken is refused
when the enum is registered already. So the declaration is all or nothing exactly if the functions
do not clash.

* `EnumComplete`: everything that belongs to an enum is registered.
* `Untouched`: nothing is registered that was not before.
* `EnumClash`: the enum can be registered, its functions cannot.
-/

namespace FormCompiler

/-- A type that is no pointer keeps its printable form. -/
theorem Pool.Extends.format {p p' : Pool} (h : p.Extends p') {t : TypeId} {type : SourceType}
    (ht : p.types[t.index]? = some type) (htype : type.has .isPointer = false) :
    p'.format t = p.format t := by
  have hkept : p'.type t = p.type t := h.type (Array.getElem?_eq_some_iff.1 ht).1
  rw [← Pool.type_of_getElem? ht] at htype
  unfold Pool.format formatBelow
  rw [hkept]
  cases hp : p.type t <;> simp_all [SourceType.has]

namespace Context

variable {c c' : Context}

/-- The tables of all namespaces, and the named structs and functions of the module, are the
same. -/
structure Untouched (c c' : Context) : Prop where
  namespaces : c'.namespaces = c.namespaces
  entered : c'.entered = c.entered
  structs : c'.ir.types.filter (·.isNamed) = c.ir.types.filter (·.isNamed)
  functions : c'.ir.functions = c.ir.functions

/-- The current namespace has the enum, its backing struct and its functions, and so has the
module. -/
structure EnumComplete (name : String) (c : Context) : Prop where
  registered : ∃ (e : Enum) (s : Struct), c.current.enum? name = some e ∧
    c.current.struct? name = some s ∧ s.members = [("_enum_value", e.underlying)] ∧
    c.ir.lookupStruct? s.symbol = some s.backend ∧
    ∀ signature ∈ c.enumSignatures name e.ty e.underlying,
      (c.ir.lookupFunction? (signature.symbol c)).isSome = true ∧
      ∃ f ∈ c.current.functions, signature.Describes c f ∧ c.Implements f

/-- The id that an enum type gets in the current namespace. -/
def enumType (c : Context) (name : String) : TypeId := (c.pool.namedEnum name c.path).1

/-- The context with an enum type entered. -/
def withEnumType (c : Context) (name : String) : Context :=
  c.withPool (c.pool.namedEnum name c.path).2

/-- The enum and its backing struct can be registered, but not all of its functions can be
declared: one of them has a signature or a symbol that is taken, or two of them have one symbol. -/
structure EnumClash (name : String) (underlying : TypeId) (c : Context) : Prop where
  noEnum : c.current.enum? name = none
  noStruct : c.current.struct? name = none
  noBacking : c.ir.lookupStruct? (c.structSymbol name) = none
  notFree : ¬ (c.withEnumType name).AllFree
    ((c.withEnumType name).enumSignatures name (c.enumType name) underlying)

instance {name : String} {underlying : TypeId} : Decidable (EnumClash name underlying c) :=
  decidable_of_iff (c.current.enum? name = none ∧ c.current.struct? name = none ∧
      c.ir.lookupStruct? (c.structSymbol name) = none ∧
      ¬ (c.withEnumType name).AllFree
        ((c.withEnumType name).enumSignatures name (c.enumType name) underlying))
    ⟨fun h => ⟨h.1, h.2.1, h.2.2.1, h.2.2.2⟩,
      fun h => ⟨h.noEnum, h.noStruct, h.noBacking, h.notFree⟩⟩

/-- Entering unnamed types touches nothing. -/
theorem Untouched.of_still {P : Pool → Pool → Prop} (h : c.Within P Ir.Module.Still c') :
    c.Untouched c' where
  namespaces := h.namespaces
  entered := h.entered
  structs := by
    obtain ⟨extra, hextra, hunnamed⟩ := h.ir.types
    have hnone : extra.filter (·.isNamed) = #[] :=
      Array.filter_eq_empty_iff.2 fun ty hty => by simp [hunnamed ty hty]
    rw [hextra, Array.filter_append (by simp), hnone, Array.append_empty]
  functions := h.ir.functions

namespace Untouched

/-- Untouched twice. -/
theorem trans {c'' : Context} (h : c.Untouched c') (h' : c'.Untouched c'') : c.Untouched c'' :=
  ⟨h'.namespaces.trans h.namespaces, h'.entered.trans h.entered, h'.structs.trans h.structs,
    h'.functions.trans h.functions⟩

/-- The other way round. -/
theorem symm (h : c.Untouched c') : c'.Untouched c :=
  ⟨h.namespaces.symm, h.entered.symm, h.structs.symm, h.functions.symm⟩

/-- The current namespace is the same. -/
theorem current (h : c.Untouched c') : c'.current = c.current := by
  rw [Context.current, namespaceOf, h.namespaces, currentId, h.entered]
  rfl

end Untouched

/-- The functions and the names of types decide what can be declared. -/
theorem allFree_congr {sigs : List Signature}
    (hfunctions : c'.current.functions = c.current.functions)
    (hir : c'.ir.functions = c.ir.functions) (hsymbol : ∀ s ∈ sigs, s.symbol c' = s.symbol c) :
    c'.AllFree sigs ↔ c.AllFree sigs := by
  have hmap : sigs.map (·.symbol c') = sigs.map (·.symbol c) := List.map_congr_left hsymbol
  have hfree : ∀ s ∈ sigs, c'.Free s ↔ c.Free s := by
    intro s hs
    constructor
    · rintro ⟨ho, hs'⟩
      rw [Namespace.overload?, hfunctions] at ho
      rw [Ir.Module.lookupFunction?, hir, hsymbol s hs] at hs'
      exact ⟨ho, hs'⟩
    · rintro ⟨ho, hs'⟩
      refine ⟨?_, ?_⟩
      · rw [Namespace.overload?, hfunctions]
        exact ho
      · rw [Ir.Module.lookupFunction?, hir, hsymbol s hs]
        exact hs'
  constructor
  · rintro ⟨h, hd⟩
    exact ⟨fun s hs => (hfree s hs).1 (h s hs), hmap ▸ hd⟩
  · rintro ⟨h, hd⟩
    exact ⟨fun s hs => (hfree s hs).2 (h s hs), hmap.symm ▸ hd⟩

end Context

namespace Lower

open Context

variable {name : String} {builder : EnumBuilder} {linkage : Ir.Linkage}
  {underlying enumTy : TypeId} {c c' : Context}

namespace EnumRegistered

/-- The names that were free. -/
theorem noBacking (h : EnumRegistered name builder linkage underlying enumTy c c') :
    c.ir.lookupStruct? (c.structSymbol name) = none := by
  obtain ⟨-, -, c₁, c₂, c₃, member, hwithin, -, hfree, -⟩ := h
  rwa [hwithin.ir.types.lookupStruct?] at hfree

/-- What is left as it was. -/
theorem kept (h : EnumRegistered name builder linkage underlying enumTy c c') :
    c'.entered = c.entered ∧ c'.ir.functions = c.ir.functions ∧ enumTy = c.enumType name ∧
      (c.withEnumType name).pool.Extends c'.pool := by
  obtain ⟨-, -, c₁, c₂, c₃, member, hwithin, -, -, rfl, rfl, rfl, rfl⟩ := h
  have hpool : c.pool = c₁.pool := hwithin.pool
  refine ⟨hwithin.entered, hwithin.ir.functions, ?_, ?_⟩
  · change (c₁.pool.intern _).1 = (c.pool.intern _).1
    rw [hpool]
  · change Pool.Extends (c.pool.intern _).2 ((c₁.pool.intern _).2.intern _).2
    rw [hpool]
    exact (Pool.intern_spec _ _).1

/-- The current namespace after the registration. -/
theorem current (h : EnumRegistered name builder linkage underlying enumTy c c') (hc : c.Valid) :
    ∃ (e : Enum) (s : Struct), c'.current =
      { c.current with enums := (name, e) :: c.current.enums
                       structs := (name, s) :: c.current.structs } ∧
      e.ty = enumTy ∧ e.underlying = underlying ∧ s.members = [("_enum_value", underlying)] ∧
      c'.ir.lookupStruct? s.symbol = some s.backend := by
  obtain ⟨-, -, c₁, c₂, c₃, member, hwithin, -, hfree, rfl, rfl, rfl, rfl⟩ := h
  have hlt := (hc.of_still hwithin).currentId_lt
  refine ⟨_, _, current_withCurrent ?_ _, rfl, rfl, rfl, ?_⟩
  · change c₁.currentId.index < (c₁.namespaces.setIfInBounds _ _).size
    rwa [Array.size_setIfInBounds]
  · change Ir.Module.lookupStruct? (Ir.Module.mk _ (c₁.ir.types.push _) _ _ _) _ = _
    rw [Ir.Module.lookupStruct?, Option.map_eq_none_iff] at hfree
    rw [Ir.Module.lookupStruct?, Array.findIdx?_push, hfree]
    simp [Ir.Module.isStructNamed]

/-- The backend type of a registered enum over an integer type. -/
theorem wraps (h : EnumRegistered name builder linkage underlying enumTy c c')
    (hunder : c.Grounded underlying) (hint : c.pool.isInteger underlying = true) :
    ∃ backing member, Wraps c' enumTy underlying backing member := by
  obtain ⟨-, -, c₁, c₂, c₃, member, hwithin, hbacks, -, hc₂, rfl, hc₃, rfl⟩ := h
  have hpool : c.pool = c₁.pool := hwithin.pool
  obtain ⟨q, bits, hq, hwidth⟩ := Pool.of_isInteger hint
  have hbits : primitiveBackend c.pool.target q = .int bits := by rw [primitiveBackend, hwidth]
  -- an integer type is backed in one way only, by the integer of its width
  have hfound : c₁.ir.findType? (.int bits) = some member := by
    have hbacked := (hbacks hunder).of_primitive (hpool ▸ hq)
    rwa [← hpool, hbits] at hbacked
  have hextends := Ir.Module.extends_push_type c₁.ir
    (.struct (some (c.structSymbol name)) [member])
  have henum := Pool.intern_spec c₂.pool (.enum name c.path)
  have hstruct := Pool.intern_spec c₃.pool (.struct name c.path)
  -- the pool at the end is the first one with the enum and then its backing struct
  have hpool₂ : c₂.pool = c.pool := by
    rw [hc₂]
    exact hpool.symm
  have hpool₃ : c₃.pool = (c₂.pool.intern (.enum name c.path)).2 := by
    rw [hc₃]
    rfl
  have hpool' : c.pool.Extends (c₃.pool.intern (.struct name c.path)).2 := by
    rw [← hpool₂]
    exact (hpool₃ ▸ henum.1 : c₂.pool.Extends c₃.pool).trans hstruct.1
  refine ⟨⟨c₁.ir.types.size⟩, member, ?enum, ?under, ?struct, ?integer⟩
  case enum =>
    have hisNamed : (SourceType.enum name c.path).has .isNamed = true := rfl
    refine .named ?_ hisNamed ?_
    · refine hstruct.1.types.getElem?_some ?_
      rw [hc₃]
      exact Pool.type_of_find henum.2
    · change List.lookup _ ((_, _) :: c₃.layouts) = _
      rw [List.lookup_cons]
      split
      · rfl
      · rw [hc₃]
        exact List.lookup_cons_self
  case under =>
    refine .primitive (hpool'.types.getElem?_some hq) ?_
    change c₃.ir.findType? (primitiveBackend (c₃.pool.intern (.struct name c.path)).2.target q) = _
    rw [hpool'.target, hbits, hc₃, hc₂]
    exact hextends.findType? hfound
  case struct =>
    change ∃ name, c₃.ir.types[c₁.ir.types.size]? = _
    rw [hc₃, hc₂]
    exact ⟨_, namedStruct_getElem? _ _ _⟩
  case integer =>
    change ∃ bits, c₃.ir.types[member.index]? = _
    rw [hc₃, hc₂]
    exact ⟨bits, hextends.types.getElem?_some (Ir.Module.type_of_find hfound)⟩

/-- Whether the functions can be declared is decided before the registration. -/
theorem allFree_iff (h : EnumRegistered name builder linkage underlying enumTy c c')
    (hc : c.Valid) (hint : c.pool.isInteger underlying = true) :
    c'.AllFree (c'.enumSignatures name enumTy underlying) ↔
      (c.withEnumType name).AllFree
        ((c.withEnumType name).enumSignatures name (c.enumType name) underlying) := by
  obtain ⟨-, hfunctions, rfl, hpool⟩ := h.kept
  obtain ⟨e, s, hcurrent, -⟩ := h.current hc
  obtain ⟨q, -, hq, -⟩ := Pool.of_isInteger hint
  have henum := Pool.intern_spec c.pool (.enum name c.path)
  -- registration extends the pool only, so both types are written as before it
  have hunderName : c'.typeName underlying = (c.withEnumType name).typeName underlying :=
    hpool.format (henum.1.types.getElem?_some hq) rfl
  have henumName : c'.typeName (c.enumType name) =
      (c.withEnumType name).typeName (c.enumType name) :=
    hpool.format (Pool.type_of_find henum.2) rfl
  have hpath : c'.path = c.path := by
    rw [Context.path, hcurrent]
    rfl
  have hsignatures : c'.enumSignatures name (c.enumType name) underlying =
      (c.withEnumType name).enumSignatures name (c.enumType name) underlying := by
    rw [enumSignatures, hunderName, enumSignatures]
  rw [hsignatures]
  -- the functions of the enum mention no other type than these two
  refine allFree_congr (by rw [hcurrent]; rfl) hfunctions fun signature hsignature => ?_
  have hparams : ∀ t ∈ signature.params, c'.typeName t = (c.withEnumType name).typeName t := by
    simp only [enumSignatures, List.mem_cons, List.mem_map] at hsignature
    rcases hsignature with rfl | rfl | ⟨comparison, -, rfl⟩ <;> simp [hunderName, henumName]
  rw [Signature.symbol, functionSymbol, hpath, List.map_congr_left hparams]
  rfl

/-- An enum whose functions were declared as well is complete. -/
theorem complete {c'' : Context}
    (h : EnumRegistered name builder linkage underlying enumTy c c') (hc : c.Valid)
    (hadded : FunctionsAdded (c'.enumSignatures name enumTy underlying) c' c'')
    (hvalid : c''.Valid) (hsteady : c'.Steady c'') : c''.EnumComplete name := by
  obtain ⟨e, s, hcurrent, rfl, rfl, hmembers, hstruct⟩ := h.current hc
  obtain ⟨fs, hcurrent', -⟩ := hadded.current
  refine ⟨e, s, ?_, ?_, hmembers, ?_, fun signature hsignature => ⟨?_, ?_⟩⟩
  · rw [hcurrent', hcurrent]
    exact List.lookup_cons_self
  · rw [hcurrent', hcurrent]
    exact List.lookup_cons_self
  · rw [Ir.Module.lookupStruct?, Option.map_eq_some_iff] at hstruct ⊢
    obtain ⟨i, hi, hbackend⟩ := hstruct
    exact ⟨i, hsteady.types.findIdx? hi, hbackend⟩
  · rw [hadded.enumSignatures] at hsignature
    rw [Option.isSome_iff_ne_none, ne_eq, lookupFunction?_eq_none, not_not, hadded.symbols,
      hadded.symbol]
    exact List.mem_append_right _ (List.mem_map_of_mem hsignature)
  · rw [hadded.enumSignatures] at hsignature
    obtain ⟨f, hf, hdescribes⟩ := hadded.exists_function hsignature
    exact ⟨f, hf, hdescribes, hvalid.functions _ hvalid.currentId_lt f hf⟩

/-- The functions of a registered enum are declared exactly if they can be; else some of them
are. -/
theorem functions_outcome (h : EnumRegistered name builder linkage underlying enumTy c c')
    (hc : c.Valid) (hunder : c.Grounded underlying) (hint : c.pool.isInteger underlying = true)
    (bodySpan : Span) :
    Ends (defineEnumFunctions name enumTy underlying linkage bodySpan) c'
      (fun _ c'' => c'.Develops c'' ∧ c'.AllFree (c'.enumSignatures name enumTy underlying) ∧
        FunctionsAdded (c'.enumSignatures name enumTy underlying) c' c'')
      fun c'' => c'.Develops c'' ∧ ¬ c'.AllFree (c'.enumSignatures name enumTy underlying) ∧
        ∃ done ⊆ c'.enumSignatures name enumTy underlying, FunctionsAdded done c' c'' := by
  obtain ⟨hvalid, hsteady, hgrounded⟩ := h.safe hc hunder
  obtain ⟨backing, member, hwraps⟩ := h.wraps hunder hint
  exact (defineEnumFunctions_develops name hvalid hgrounded (hunder.mono hsteady)).and
    (defineEnumFunctions_outcome name linkage bodySpan hvalid hgrounded (hunder.mono hsteady)
      hwraps)

end EnumRegistered

/-- An enum over an integer type is declared whole or not at all, unless its functions clash. -/
theorem registerEnum_outcome (hc : c.Valid) (name : String) (builder : EnumBuilder)
    (linkage : Ir.Linkage) (hunder : c.Grounded underlying)
    (hint : c.pool.isInteger underlying = true) (nameSpan bodySpan : Span) :
    Ends (registerEnum name builder linkage underlying nameSpan bodySpan) c
      (fun _ c' => ¬ EnumClash name underlying c ∧ c'.EnumComplete name ∧
        c'.entered = c.entered)
      fun c' => (¬ EnumClash name underlying c ∧ c.Untouched c') ∨
        (EnumClash name underlying c ∧ ¬ c.Untouched c') := by
  rw [registerEnum_eq]
  refine (registerTypes_ends hc name builder linkage underlying nameSpan).andThen ?_ ?_
  · -- refused for a name that is taken, which is no clash of functions
    rintro c' ⟨hwithin, htaken⟩
    refine .inl ⟨?_, .of_still hwithin⟩
    rintro ⟨hnoEnum, hnoStruct, hnoBacking, -⟩
    simp [hnoEnum, hnoStruct, hnoBacking] at htaken
  intro enumTy c₁ h
  -- from here on the types are declared, and only the functions can still be refused
  have hiff := h.allFree_iff hc hint
  refine (h.functions_outcome hc hunder hint bodySpan).mono ?_ ?_
  · rintro _ c' ⟨hchanged, hall, hadded⟩
    obtain ⟨hvalid', hsteady'⟩ := hchanged.safe (h.safe hc hunder).1
    exact ⟨fun hclash => hclash.notFree (hiff.1 hall), h.complete hc hadded hvalid' hsteady',
      hadded.entered.trans h.kept.1⟩
  · rintro c' ⟨-, hall, done, -, hadded⟩
    refine .inr ⟨⟨h.noEnum, h.noStruct, h.noBacking, fun h => hall (hiff.2 h)⟩, ?_⟩
    -- the enum stays in the namespace, which was free of it before
    intro huntouched
    obtain ⟨e, s, hcurrent, -⟩ := h.current hc
    obtain ⟨fs, hcurrent', -⟩ := hadded.current
    have hnone := h.noEnum
    rw [← huntouched.current, hcurrent', hcurrent] at hnone
    simp [Namespace.enum?] at hnone

/-! ## Forms that declare enums -/

variable {σ : Type} {u : Compilation σ}

/-- The checks of `declareEnum`, before anything is registered. -/
def enumHeader (node : NodeId) : Lower σ EnumPlan := do
  let items ← expectList node "enum declaration"
  let word? ←
    match items with
    | [] => pure none
    | head :: _ => symbol? head
  if word? = some "def" then
    match items.tail with
    | [nameNode, body] => do
      let name ← expectSymbol nameNode "enum name"
      let parts ← expectList body "enum declaration body"
      enumPlan nameNode name body parts.tail
    | arguments =>
      fail (Report.incorrectArgumentCount (← span node) "def" 2 arguments.length)
  else
    fail (Report.unexpectedElement (← span node) "`def`" "enum declaration" (← display node))

/-- The checks come first. -/
theorem declareEnum_eq (node : NodeId) :
    (declareEnum node : Lower σ PUnit) = (do
      let plan ← enumHeader node
      onContext (registerEnum plan.name plan.builder plan.linkage plan.underlying plan.nameSpan
        plan.bodySpan)) := by
  unfold declareEnum enumHeader
  simp only [bind_assoc]
  congr 1
  funext items
  -- the first word is read in the middle of the checks, so the two sides are compared for any word
  have hword : ∀ word? : Option String,
      (if word? = some "def" then
        match items.tail with
        | [nameNode, body] => do
          let name ← expectSymbol nameNode "enum name"
          let parts ← expectList body "enum declaration body"
          defineEnum nameNode name body parts.tail
        | arguments => do
          fail (Report.incorrectArgumentCount (← span node) "def" 2 arguments.length)
      else do
        fail (Report.unexpectedElement (← span node) "`def`" "enum declaration"
          (← display node)) : Lower σ PUnit) =
      (if word? = some "def" then
        match items.tail with
        | [nameNode, body] => do
          let name ← expectSymbol nameNode "enum name"
          let parts ← expectList body "enum declaration body"
          enumPlan nameNode name body parts.tail
        | arguments => do
          fail (Report.incorrectArgumentCount (← span node) "def" 2 arguments.length)
      else do
        fail (Report.unexpectedElement (← span node) "`def`" "enum declaration"
          (← display node)) : Lower σ EnumPlan) >>= fun plan =>
        onContext (registerEnum plan.name plan.builder plan.linkage plan.underlying plan.nameSpan
          plan.bodySpan) := by
    intro word?
    split
    · split
      · simp only [bind_assoc, defineEnum_eq]
      · simp only [bind_assoc, fail_bind]
    · simp only [bind_assoc, fail_bind]
  cases items with
  | nil => exact hword none
  | cons head rest =>
    dsimp only
    rw [bind_assoc]
    congr 1
    funext word?
    exact hword word?

end Lower

/-- The name in a list of three. -/
def Forest.declaredName? (f : Forest) (node : NodeId) : Option String :=
  match f.items? node with
  | some [_, nameNode, _] => f.symbol? nameNode
  | _ => none

/-- The form is `(def Name (enum part...))`. -/
def Forest.IsEnumDefinition (f : Forest) (node : NodeId) : Prop :=
  ∃ head nameNode body name word parts, f.items? node = some [head, nameNode, body] ∧
    f.symbol? head = some "def" ∧ f.symbol? nameNode = some name ∧
    f.items? body = some (word :: parts) ∧ f.symbol? word = some "enum"

namespace Lower

open Context

variable {σ : Type} {u : Compilation σ}

/-- The checks of the definition of an enum declare nothing. -/
theorem enumHeader_ends (node : NodeId) (u : Compilation σ) :
    Ends (enumHeader node) u
      (fun plan u' => u.Quiet u' ∧ u.forest.declaredName? node = some plan.name ∧
        (u.context.Valid → u'.context.Grounded plan.underlying) ∧
        u'.context.pool.isInteger plan.underlying = true ∧
        (u'.context.pool.intWidth? plan.underlying).isSome = true) u.Quiet := by
  refine (expectList_ends node _ u).andThen (fun _ h => h) ?_
  rintro items _ ⟨hitems, rfl⟩
  -- the checks that follow do not depend on how the first word was read
  have hword : ∀ word? : Option String, Ends (
      if word? = some "def" then
        match items.tail with
        | [nameNode, body] => do
          let name ← expectSymbol nameNode "enum name"
          let parts ← expectList body "enum declaration body"
          enumPlan nameNode name body parts.tail
        | arguments => do
          fail (Report.incorrectArgumentCount (← span node) "def" 2 arguments.length)
      else do
        fail (Report.unexpectedElement (← span node) "`def`" "enum declaration"
          (← display node)) : Lower σ EnumPlan) u
      (fun plan u' => u.Quiet u' ∧ u.forest.declaredName? node = some plan.name ∧
        (u.context.Valid → u'.context.Grounded plan.underlying) ∧
        u'.context.pool.isInteger plan.underlying = true ∧
        (u'.context.pool.intWidth? plan.underlying).isSome = true) u.Quiet := by
    intro word?
    split
    next hdef =>
      split
      next nameNode body htail =>
        refine (expectSymbol_ends nameNode _ u).andThen (fun _ h => h) ?_
        rintro name _ ⟨hname, rfl⟩
        refine (expectList_ends body _ u).andThen (fun _ h => h) ?_
        rintro parts _ ⟨-, rfl⟩
        refine (enumPlan_ends nameNode name body parts.tail u).mono ?_ fun _ h => h
        rintro plan u' ⟨hquiet, rfl, hrest⟩
        refine ⟨hquiet, ?_, hrest⟩
        -- the name that the checks give is the one at the node's second place
        obtain ⟨head, rfl⟩ : ∃ head, items = [head, nameNode, body] := by
          cases items with
          | nil => cases htail
          | cons head rest => exact ⟨head, congrArg _ htail⟩
        rw [Forest.declaredName?, hitems]
        exact hname
      next => exact (Refuses.read fun _ => fail_refuses _).ends u fun _ => .of_still
    next => exact (Refuses.read fun _ => .read fun _ => fail_refuses _).ends u fun _ => .of_still
  cases items with
  | nil => exact hword none
  | cons head rest =>
    refine (read_ends _ u).andThen (fun _ h => h.elim) ?_
    rintro word? _ ⟨-, rfl⟩
    exact hword word?

/-- A list that begins with `def` is processed as a definition, with any number of expansions
left. -/
theorem topFormWith_def {node head : NodeId} {arguments : List NodeId}
    (hitems : u.forest.items? node = some (head :: arguments))
    (hhead : u.forest.symbol? head = some "def") (inner : List NodeId → Lower σ PUnit)
    (left : Nat) : topFormWith inner left node u = definition node arguments u := by
  have htop : ∀ (left : Nat) (again : NodeId → Lower σ PUnit),
      topForm inner left again node u = definition node arguments u := by
    intro left again
    unfold topForm
    simp only [bind, EStateM.bind, expectList_run hitems, symbol?, hhead]
    rfl
  cases left with
  | zero => exact htop _ _
  | succ left => exact htop _ _

/-- A list that begins with `def` is processed as a definition. -/
theorem processTopLevel_def {node head : NodeId} {arguments : List NodeId}
    (hitems : u.forest.items? node = some (head :: arguments))
    (hhead : u.forest.symbol? head = some "def") :
    processTopLevel node u = definition node arguments u :=
  topFormWith_def hitems hhead _ u.maxExpansions

/-- A definition of an enum is processed as `declareEnum` does. -/
theorem processTopLevel_eq {node : NodeId} (h : u.forest.IsEnumDefinition node) :
    processTopLevel node u = declareEnum node u := by
  obtain ⟨head, nameNode, body, name, word, parts, hitems, hhead, hname, hbody, hword⟩ := h
  have hdefinition : definition node [nameNode, body] u =
      defineEnum nameNode name body parts u := by
    unfold definition
    simp only [bind, EStateM.bind, expectSymbol_run hname, expectList_run hbody, symbol?, hword]
    rfl
  have hdeclare : declareEnum node u = defineEnum nameNode name body parts u := by
    unfold declareEnum
    simp only [bind, EStateM.bind, expectList_run hitems, symbol?, hhead]
    change (expectSymbol nameNode "enum name" >>= fun name => expectList body _ >>= fun parts =>
      defineEnum nameNode name body parts.tail) u = _
    simp only [bind, EStateM.bind, expectSymbol_run hname, expectList_run hbody]
    rfl
  rw [processTopLevel_def hitems hhead, hdefinition, hdeclare]

/-! ## All or nothing -/

/-- The step registers everything that belongs to the enum of the form, or nothing. -/
def AllOrNothing (step : Lower σ PUnit) (node : NodeId) (u : Compilation σ) : Prop :=
  Ends step u
    (fun _ u' => u'.context.entered = u.context.entered ∧
      ∃ name, u.forest.declaredName? node = some name ∧ u'.context.EnumComplete name)
    fun u' => u.context.Untouched u'.context

/-- The checks of the form find an enum that can be registered and functions that cannot. -/
def Clashes (node : NodeId) (u : Compilation σ) : Prop :=
  ∃ plan u', enumHeader node u = .ok plan u' ∧
    EnumClash plan.name plan.underlying u'.context

/-- Whether the functions clash is seen from the outcome of the checks. -/
theorem clashes_iff {node : NodeId} :
    Clashes node u ↔ Outcome (enumHeader node u)
      (fun plan u' => EnumClash plan.name plan.underlying u'.context) fun _ => False := by
  unfold Clashes
  cases enumHeader node u <;> simp

instance {node : NodeId} : Decidable (Clashes node u) := decidable_of_iff _ clashes_iff.symm

/-- The declaration of an enum is all or nothing exactly if its functions do not clash. -/
theorem declareEnum_allOrNothing_iff (hu : u.context.Valid) (node : NodeId) :
    AllOrNothing (declareEnum node) node u ↔ ¬ Clashes node u := by
  have hheader := enumHeader_ends node u
  rw [clashes_iff, AllOrNothing, Ends, declareEnum_eq]
  change Outcome (EStateM.bind _ _ u) _ _ ↔ _
  unfold EStateM.bind
  cases hrun : enumHeader node u with
  -- refused by a check: nothing is declared, and no clash is possible
  | error e u₁ =>
    have hquiet := hheader.of_error hrun
    exact ⟨fun _ h => h, fun _ => .of_still hquiet.within.context⟩
  | ok plan u₁ =>
    obtain ⟨hquiet, hname, hgrounded, hint, -⟩ := hheader.of_ok hrun
    have huntouched : u.context.Untouched u₁.context := .of_still hquiet.within.context
    have houtcome := onContext_ends (registerEnum_outcome (hquiet.valid hu) plan.name plan.builder
      plan.linkage (hgrounded hu) hint plan.nameSpan plan.bodySpan)
    rw [outcome_ok]
    unfold Ends at houtcome
    dsimp only
    cases hregister : onContext (registerEnum plan.name plan.builder plan.linkage plan.underlying
        plan.nameSpan plan.bodySpan) u₁ with
    | ok _ u₂ =>
      rw [hregister] at houtcome
      obtain ⟨c, rfl, hfree, hcomplete, hentered⟩ := houtcome
      exact ⟨fun _ => hfree, fun _ => ⟨hentered.trans huntouched.entered, _, hname, hcomplete⟩⟩
    | error e u₂ =>
      rw [hregister] at houtcome
      obtain ⟨c, rfl, ⟨hfree, h⟩ | ⟨htaken, h⟩⟩ := houtcome
      · exact ⟨fun _ => hfree, fun _ => huntouched.trans h⟩
      · exact ⟨fun hall => absurd (huntouched.symm.trans hall) h, fun h => absurd htaken h⟩

/-- In every reachable unit the declaration of an enum, by itself or as a top-level form, registers
the enum, its backing struct and its eight functions or leaves all tables as they were, exactly if
its functions do not clash. -/
theorem enum_allOrNothing_iff (h : Reachable u) (node : NodeId) :
    (AllOrNothing (declareEnum node) node u ↔ ¬ Clashes node u) ∧
      (u.forest.IsEnumDefinition node →
        (AllOrNothing (processTopLevel node) node u ↔ ¬ Clashes node u)) := by
  have hiff := declareEnum_allOrNothing_iff h.valid node
  refine ⟨hiff, fun hnode => ?_⟩
  rw [← hiff, AllOrNothing, Ends, processTopLevel_eq hnode]
  rfl

/-- The unit with the form `(def int (enum extern int (A)))` and nothing declared. -/
def intEnumUnit : Compilation Unit where
  forest := ⟨#[⟨.token ⟨.symbol, ⟨1⟩⟩, .dummy⟩, ⟨.token ⟨.symbol, ⟨2⟩⟩, .dummy⟩,
    ⟨.token ⟨.symbol, ⟨3⟩⟩, .dummy⟩, ⟨.token ⟨.symbol, ⟨4⟩⟩, .dummy⟩,
    ⟨.token ⟨.symbol, ⟨5⟩⟩, .dummy⟩, ⟨.list [⟨4⟩], .dummy⟩, ⟨.list [⟨2⟩, ⟨3⟩, ⟨1⟩, ⟨5⟩], .dummy⟩,
    ⟨.list [⟨0⟩, ⟨1⟩, ⟨6⟩], .dummy⟩], ⟨#["", "def", "int", "enum", "extern", "A"]⟩⟩
  context := .start .standard
  memory := ()
  expander := .none
  maxExpansions := 128

/-- The constructor and the conversion of an enum with the name of the type under it have the same
symbol, so its declaration is refused with the enum registered. -/
theorem not_allOrNothing_intEnumUnit :
    Reachable intEnumUnit ∧ intEnumUnit.forest.IsEnumDefinition ⟨7⟩ ∧
      ¬ AllOrNothing (declareEnum ⟨7⟩) ⟨7⟩ intEnumUnit ∧
      ¬ AllOrNothing (processTopLevel ⟨7⟩) ⟨7⟩ intEnumUnit := by
  have hreachable : Reachable intEnumUnit :=
    Reachable.forest intEnumUnit.forest (.start .standard .none ())
  have hdefinition : intEnumUnit.forest.IsEnumDefinition ⟨7⟩ :=
    ⟨⟨0⟩, ⟨1⟩, ⟨6⟩, "int", ⟨2⟩, [⟨3⟩, ⟨1⟩, ⟨5⟩], rfl, rfl, rfl, rfl, rfl⟩
  have hclashes : Clashes ⟨7⟩ intEnumUnit := by decide +kernel
  have hiff := enum_allOrNothing_iff hreachable ⟨7⟩
  exact ⟨hreachable, hdefinition, fun h => hiff.1.1 h hclashes,
    fun h => (hiff.2 hdefinition).1 h hclashes⟩

end Lower

end FormCompiler
