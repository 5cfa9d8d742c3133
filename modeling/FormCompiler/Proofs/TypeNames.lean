import FormCompiler.Proofs.Context.Tree
import FormCompiler.Proofs.DeclarationAtomicity
import FormCompiler.Proofs.EnumEntryPoints
import FormCompiler.Proofs.History

/-!
# Names of Declared Types

A struct or an enum is declared if its name is free in the current namespace. A name is looked up
among the primitive types first, and then from the current namespace outwards, in each namespace
among the enums before the structs. The two agree: from its declaration on, a name stands for the
declared type wherever its namespace is the current one, whatever happens in between, since no enum
comes to hide a struct (`Continues.type?`). Only the names of primitive types never stand for
anything else, though they can be declared (`declaredName_resolves`).
-/

namespace FormCompiler

/-- The type that a namespace has for a name. -/
def Namespace.type? (ns : Namespace) (name : String) : Option TypeId :=
  ((ns.enum? name).map (·.ty)).or ((ns.struct? name).map (·.ty))

namespace Context

variable {c c' : Context} {name word : String} {t : TypeId}

/-- In the current namespace the name was free and got a struct or an enum, by the word of its
definition, of the type of that name and path. -/
inductive TypeAdded (name : String) (c c' : Context) : (word : String) → TypeId → Prop
  | struct {s : Struct} (free : c.current.struct? name = none)
      (entry : c'.current.struct? name = some s)
      (type : c'.pool.types[s.ty.index]? = some (.struct name c.path)) :
      TypeAdded name c c' "struct" s.ty
  | enum {e : Enum} (free : c.current.enum? name = none)
      (entry : c'.current.enum? name = some e)
      (type : c'.pool.types[e.ty.index]? = some (.enum name c.path)) :
      TypeAdded name c c' "enum" e.ty

/-- The name of a primitive type stands for it everywhere. -/
theorem lookupType?_of_primitive (h : TypeId.ofPrimitiveName? name = some t) :
    c.lookupType? name = some t := by
  rw [lookupType?, h]

/-- Any other name stands for the type that the current namespace has for it, if it has one. -/
theorem lookupType?_of_current (hname : TypeId.ofPrimitiveName? name = none)
    (h : c.current.type? name = some t) : c.lookupType? name = some t := by
  obtain ⟨rest, hrest⟩ : ∃ rest, c.chainIds = c.currentId :: rest :=
    List.head?_eq_some_iff.1 c.head?_chainIds
  rw [lookupType?, hname, chain, hrest, List.map_cons]
  change (c.current :: rest.map c.namespaceOf).findSome? (·.type? name) = some t
  rw [List.findSome?_cons, h]

/-- A name that has a struct in a namespace has the same type there later on. -/
theorem Continues.type? (h : c.Continues c') {id : NamespaceId}
    (hs : ((c.namespaceOf id).struct? name).isSome = true) :
    (c'.namespaceOf id).type? name = (c.namespaceOf id).type? name := by
  obtain ⟨s, hs⟩ := Option.isSome_iff_exists.1 hs
  have hkept := (h.retains.namespaces id (lt_of_struct? hs)).struct? name s hs
  rw [Namespace.type?, h.enum? id name s hs, hkept, Namespace.type?, hs]

/-- A struct that was added is the type of its name, which is not that of an enum. -/
theorem StructAdded.typeAdded {s : Struct} (h : c.StructAdded name s c') (hc : c.Valid)
    (hl : c.Laid) :
    TypeAdded name c c' "struct" s.ty ∧ c'.current.enum? name = none := by
  have hcurrent := h.current hc.currentId_lt
  refine ⟨.struct h.free (by rw [hcurrent]; exact List.lookup_cons_self) h.type, ?_⟩
  -- an enum of the name would have had a struct before
  rw [hcurrent]
  by_contra hsome
  obtain ⟨e, he⟩ := Option.ne_none_iff_exists'.1 hsome
  obtain ⟨s', hs', -⟩ := hl.enums c.currentId name e he
  exact absurd (h.free.symm.trans hs') (Option.some_ne_none s').symm

/-- What was added is the type that the namespace has for the name, and there is a struct of the
name. -/
theorem TypeAdded.type? (h : TypeAdded name c c' word t) (hl' : c'.Laid)
    (hnone : word = "struct" → c'.current.enum? name = none) :
    c'.current.type? name = some t ∧ (c'.current.struct? name).isSome = true := by
  cases h with
  | struct free entry type =>
    rw [Namespace.type?, hnone rfl, entry]
    exact ⟨rfl, rfl⟩
  | enum free entry type =>
    obtain ⟨s, hs, -⟩ := hl'.enums _ _ _ entry
    rw [Namespace.type?, entry]
    exact ⟨rfl, Option.isSome_of_eq_some hs⟩

end Context

section

variable {σ : Type} {u u' : Compilation σ} {node : NodeId} {word name : String}
  {parts : List NodeId} {t : TypeId}

/-- The definition with this word is processed with success: as a top-level form, inside a namespace
or after expansions, or as the declaration of an enum. -/
inductive Compilation.Defines (u : Compilation σ) (node : NodeId) (u' : Compilation σ) :
    (word : String) → Prop
  | topLevel {word : String} (run : Lower.processTopLevel node u = .ok ⟨⟩ u') :
      Defines u node u' word
  | inside {word : String} (inner : List NodeId → Lower σ PUnit) (left : Nat)
      (run : Lower.topFormWith inner left node u = .ok ⟨⟩ u') : Defines u node u' word
  | enum (run : Lower.declareEnum node u = .ok ⟨⟩ u') : Defines u node u' "enum"

/-- The name stands for the type, and so does every symbol of that text in the place of a type. -/
structure Compilation.Resolves (u : Compilation σ) (name : String) (t : TypeId) : Prop where
  lookup : u.context.lookupType? name = some t
  resolve : ∀ node, u.forest.symbol? node = some name → Lower.resolveType node u = .ok t u

/-- A symbol resolves to what it is looked up as. -/
theorem Compilation.Resolves.of_lookup (h : u.context.lookupType? name = some t) :
    u.Resolves name t := by
  refine ⟨h, fun node hnode => ?_⟩
  unfold Forest.symbol? at hnode
  split at hnode
  next text hkind =>
    refine (bind_run rfl).trans ?_
    rw [hkind]
    dsimp only
    rw [if_pos rfl]
    refine (bind_run rfl).trans ((bind_run rfl).trans ?_)
    rw [Option.some_inj.1 hnode, h]
    rfl
  next => cases hnode

namespace Compilation.Defines

open Lower

/-- A definition is processed the same way wherever it stands. -/
theorem atTopLevel (hnode : u.forest.IsDefinition node word name parts)
    (h : u.Defines node u' word) : Lower.processTopLevel node u = .ok ⟨⟩ u' := by
  obtain ⟨head, nameNode, body, wordNode, hitems, hhead, hname, hbody, hword⟩ := hnode
  cases h with
  | topLevel run => exact run
  | inside inner left run =>
    rwa [topFormWith_def hitems hhead, ← processTopLevel_def hitems hhead] at run
  | enum run =>
    rwa [processTopLevel_eq ⟨head, nameNode, body, name, wordNode, parts, hitems, hhead, hname,
      hbody, hword⟩]

/-- A definition that is accepted adds its type, which the current namespace has for the name. -/
theorem typeAdded (hu : u.context.Valid) (hl : u.context.Laid)
    (hnode : u.forest.IsDefinition node word name parts) (hword : word = "struct" ∨ word = "enum")
    (h : u.Defines node u' word) :
    ∃ t, Context.TypeAdded name u.context u'.context word t ∧ u.context.Continues u'.context ∧
      u'.context.currentId = u.context.currentId ∧ u'.context.current.type? name = some t ∧
      (u'.context.current.struct? name).isSome = true := by
  have hrun := h.atTopLevel hnode
  have hdevelops : u.context.Develops u'.context :=
    (topLevel_develops.processTopLevel_keeps node).ok hrun
  have hcontinues := hdevelops.continues hu
  have hl' := hcontinues.laid hl
  obtain ⟨nameNode, body, henum, hstruct, -⟩ := processTopLevel_word hnode
  rcases hword with rfl | rfl
  · rw [hstruct rfl] at hrun
    obtain ⟨-, -, s, -, hadded, -⟩ := (defineStruct_adds hu nameNode name body parts).of_ok hrun
    obtain ⟨hnew, hnone⟩ := hadded.typeAdded hu hl
    obtain ⟨htype, hs⟩ := hnew.type? hl' fun _ => hnone
    exact ⟨s.ty, hnew, hcontinues, congrArg (·.headD .root) hadded.entered, htype, hs⟩
  · rw [henum rfl] at hrun
    obtain ⟨hentered, hfree, hsome⟩ := defineEnum_new hu hrun
    obtain ⟨e, he⟩ := Option.isSome_iff_exists.1 hsome
    obtain ⟨s, -, hbacked⟩ := hl'.enums _ _ _ he
    have hid : u'.context.currentId = u.context.currentId := congrArg (·.headD .root) hentered
    have hpath : (u'.context.namespaceOf u'.context.currentId).path = u.context.path := by
      rw [hid]
      exact (hcontinues.retains.namespaces _ hu.currentId_lt).path
    have hnew : Context.TypeAdded name u.context u'.context "enum" e.ty :=
      .enum hfree he (hpath ▸ hbacked.type)
    obtain ⟨htype, hs⟩ := hnew.type? hl' fun h => absurd h (by decide)
    exact ⟨e.ty, hnew, hcontinues, hid, htype, hs⟩

end Compilation.Defines

namespace Lower

/-- The definition of a struct or an enum that is accepted, in any unit with a history, adds a type,
and from that moment on the name stands for this type whenever the namespace of the definition is
the current one. If the name is that of a primitive type, it stands for that one instead. -/
theorem declaredName_resolves {options : Options} {expander : Expander σ} {memory : σ}
    (h : Later (.start options expander memory) u)
    (hnode : u.forest.IsDefinition node word name parts)
    (hword : word = "struct" ∨ word = "enum") (hdefined : u.Defines node u' word) :
    ∃ t, Context.TypeAdded name u.context u'.context word t ∧
      ∀ u'', Later u' u'' → u''.context.currentId = u.context.currentId →
        (TypeId.ofPrimitiveName? name = none → u''.Resolves name t) ∧
        ∀ p, TypeId.ofPrimitiveName? name = some p → u''.Resolves name p := by
  have hstart := h.continues (Context.valid_start options)
  obtain ⟨t, hadded, hcontinues, hid, htype, hs⟩ := hdefined.typeAdded hstart.valid
    (hstart.laid (Context.laid_start options)) hnode hword
  refine ⟨t, hadded, fun u'' hlater hcurrent => ⟨fun hname => .of_lookup ?_, fun p hname =>
    .of_lookup (Context.lookupType?_of_primitive hname)⟩⟩
  have hsame : u''.context.current.type? name = some t := by
    rw [Context.current, hcurrent, ← hid, (hlater.continues hcontinues.valid).type? hs]
    exact htype
  exact Context.lookupType?_of_current hname hsame

/-- The unit with the forms `(def int (struct intern ()))` and `(def P (struct intern ()))`, and
nothing declared. -/
def shadowingUnit : Compilation Unit where
  forest := ⟨#[⟨.token ⟨.symbol, ⟨1⟩⟩, .dummy⟩, ⟨.token ⟨.symbol, ⟨2⟩⟩, .dummy⟩,
    ⟨.token ⟨.symbol, ⟨3⟩⟩, .dummy⟩, ⟨.token ⟨.symbol, ⟨4⟩⟩, .dummy⟩, ⟨.list [], .dummy⟩,
    ⟨.list [⟨2⟩, ⟨3⟩, ⟨4⟩], .dummy⟩, ⟨.list [⟨0⟩, ⟨1⟩, ⟨5⟩], .dummy⟩,
    ⟨.token ⟨.symbol, ⟨5⟩⟩, .dummy⟩, ⟨.list [⟨0⟩, ⟨7⟩, ⟨5⟩], .dummy⟩],
    ⟨#["", "def", "int", "struct", "intern", "P"]⟩⟩
  context := .start .standard
  memory := ()
  expander := .none
  maxExpansions := 128

/-- The second struct is declared, and the symbol of its name resolves to it afterwards. -/
theorem declaredName_resolves_shadowingUnit :
    Later (.start .standard .none ()) shadowingUnit ∧
      shadowingUnit.forest.IsDefinition ⟨8⟩ "struct" "P" [⟨3⟩, ⟨4⟩] ∧
      Ends (processTopLevel ⟨8⟩) shadowingUnit
        (fun _ u' => shadowingUnit.Defines ⟨8⟩ u' "struct" ∧
          ∃ t, Context.TypeAdded "P" shadowingUnit.context u'.context "struct" t ∧
            u'.Resolves "P" t) fun _ => False := by
  have hlater : Later (.start .standard .none ()) shadowingUnit :=
    Later.refl.offered shadowingUnit.forest ()
  have hnode : shadowingUnit.forest.IsDefinition ⟨8⟩ "struct" "P" [⟨3⟩, ⟨4⟩] :=
    ⟨⟨0⟩, ⟨7⟩, ⟨5⟩, ⟨2⟩, rfl, rfl, rfl, rfl, rfl⟩
  have hrun : Ends (processTopLevel ⟨8⟩) shadowingUnit
      (fun _ u' => u'.context.currentId = .root) fun _ => False := by
    unfold Ends
    decide +kernel
  refine ⟨hlater, hnode, .intro (fun _ u' h => ?_) fun _ _ h => hrun.of_error h⟩
  have hdefines : shadowingUnit.Defines ⟨8⟩ u' "struct" := .topLevel h
  obtain ⟨t, hadded, hresolves⟩ := declaredName_resolves hlater hnode (.inl rfl) hdefines
  exact ⟨hdefines, t, hadded, (hresolves u' .refl (hrun.of_ok h)).1 (by decide)⟩

/-- The first struct is declared as well, but its name stands for the primitive type. -/
theorem primitiveName_shadowingUnit :
    Later (.start .standard .none ()) shadowingUnit ∧
      shadowingUnit.forest.IsDefinition ⟨6⟩ "struct" "int" [⟨3⟩, ⟨4⟩] ∧
      Ends (processTopLevel ⟨6⟩) shadowingUnit
        (fun _ u' => u'.context.currentId = shadowingUnit.context.currentId ∧
          (u'.context.current.struct? "int").isSome = true ∧
          u'.context.lookupType? "int" = some .int ∧
          u'.context.lookupType? "int" ≠ (u'.context.current.struct? "int").map (·.ty))
        fun _ => False := by
  refine ⟨Later.refl.offered shadowingUnit.forest (),
    ⟨⟨0⟩, ⟨1⟩, ⟨5⟩, ⟨2⟩, rfl, rfl, rfl, rfl, rfl⟩, ?_⟩
  unfold Ends
  decide +kernel

end Lower

end

end FormCompiler
