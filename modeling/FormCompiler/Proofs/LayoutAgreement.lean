import FormCompiler.Proofs.Context.Layouts

/-!
# Layouts of Namespaces and of the Module

After any run the structs and enums of the namespaces have the layouts that the module has for them,
and a backend type that was asked for once is the same at every later point
(`Run.layouts_agree`).
-/

namespace FormCompiler

namespace Context

variable {c c' : Context} {id : NamespaceId} {name : String}

/-- The backend type of the struct is the named struct of its symbol, whose fields are the backend
types of its members in order. They are entered already, so that asking for them changes nothing. -/
structure RepresentsStruct (c : Context) (s : Struct) : Prop where
  found : c.ir.lookupStruct? s.symbol = some s.backend
  fields : ∃ fields, c.ir.types[s.backend.index]? = some (.struct (some s.symbol) fields) ∧
    List.Forall₂ (fun t ty => backendType t c = (ty, c)) s.memberTypes fields
  layout : backendType s.ty c = (s.backend, c)

/-- The backend type of the enum is that of the struct, whose only field is the integer type of the
width of the type under the enum. -/
structure RepresentsEnum (c : Context) (e : Enum) (s : Struct) : Prop where
  field : ∃ field bits, c.ir.types[s.backend.index]? = some (.struct (some s.symbol) [field]) ∧
    c.ir.types[field.index]? = some (.int bits) ∧ c.pool.intWidth? e.underlying = some bits
  layout : backendType e.ty c = (s.backend, c)

/-- A struct of a valid context is represented in the module, if it is in it under its backend
name. -/
theorem Laid.representsStruct (h : c.Laid) (hc : c.Valid) {s : Struct}
    (hs : (c.namespaceOf id).struct? name = some s) : c.RepresentsStruct s := by
  have hlays := hc.structs id (lt_of_struct? hs) (name, s) (mem_of_lookup hs)
  have hfound := h.structs id name s hs
  refine ⟨hfound, ?_, (Backs.named hlays.type rfl hlays.layout).backendType⟩
  -- the layout is a struct of some name, and what is found under the symbol has that name
  obtain ⟨symbol, fields, htype, hfields⟩ := hlays.fields
  obtain ⟨fields', htype'⟩ := Ir.Module.type_of_lookupStruct? hfound
  obtain ⟨rfl, rfl⟩ : symbol = s.symbol ∧ fields = fields' := by
    simpa using htype.symm.trans htype'
  exact ⟨fields, htype, hfields.imp fun _ _ hb => hb.backendType⟩

/-- The backend type of an integer type is the integer type of its width. -/
theorem Backs.of_isInteger {t : TypeId} {ty : Ir.TyId} (h : c.Backs t ty)
    (ht : c.pool.isInteger t = true) :
    ∃ bits, c.ir.types[ty.index]? = some (.int bits) ∧ c.pool.intWidth? t = some bits := by
  obtain ⟨q, bits, htype, hbits⟩ := Pool.of_isInteger ht
  refine ⟨bits, ?_, ?_⟩
  · have hfound := h.of_primitive htype
    rw [primitiveBackend, hbits] at hfound
    exact Ir.Module.type_of_find hfound
  · rw [Pool.intWidth?, Pool.type_of_getElem? htype]
    exact hbits

/-- An enum of a valid context is represented in the module by the struct of its name. -/
theorem Laid.representsEnum (h : c.Laid) (hc : c.Valid) {e : Enum}
    (he : (c.namespaceOf id).enum? name = some e) :
    ∃ s, (c.namespaceOf id).struct? name = some s ∧ c.RepresentsEnum e s := by
  obtain ⟨s, hs, hbacked⟩ := h.enums id name e he
  refine ⟨s, hs, ?_, (Backs.named hbacked.type rfl hbacked.layout).backendType⟩
  obtain ⟨-, ⟨fields, htype, hfields⟩, -⟩ := h.representsStruct hc hs
  rw [hbacked.members] at hfields
  cases hfields with
  | cons hfield htail =>
    cases htail
    -- the one field backs the type under the enum, as asking for that gives it
    have hgrounded := hc.grounded (Pool.lt_of_isInteger hbacked.integer)
    have hbacks := hgrounded.backendType_spec.2
    rw [hfield] at hbacks
    obtain ⟨bits, hint, hwidth⟩ := hbacks.of_isInteger hbacked.integer
    exact ⟨_, bits, htype, hint, hwidth⟩

/-- A backend type that was asked for is the same in every context that retains it. -/
theorem Valid.backendType_retained (hc : c.Valid) {t : TypeId} (ht : t.index < c.pool.types.size)
    (h : (backendType t c).2.Retains c') :
    backendType t c' = ((backendType t c).1, c') :=
  ((hc.grounded ht).backendType_spec.2.mono h.steady).backendType

end Context

namespace Run

variable {σ : Type} {u : Compilation σ} {options : Options} {expander : Expander σ} {memory : σ}

/-- After a run from a unit in which nothing is declared, the module represents every struct and
every enum, the latter by the struct of its name in the same namespace, and the backend type of
whatever type there is stays the same through any further run. -/
theorem layouts_agree (h : Run (.start options expander memory) u) :
    (∀ id name s, (u.context.namespaceOf id).struct? name = some s →
      u.context.RepresentsStruct s) ∧
    (∀ id name e, (u.context.namespaceOf id).enum? name = some e →
      ∃ s, (u.context.namespaceOf id).struct? name = some s ∧ u.context.RepresentsEnum e s) ∧
    ∀ (t : TypeId) (u' : Compilation σ), t.index < u.context.pool.types.size →
      Run (u.withContext (Context.backendType t u.context).2) u' →
      Context.backendType t u'.context = ((Context.backendType t u.context).1, u'.context) := by
  refine ⟨fun id name s hs => h.laid.representsStruct h.valid hs,
    fun id name e he => h.laid.representsEnum h.valid he, fun t u' ht h' => ?_⟩
  have hasked := (h.ask t).valid
  exact h.valid.backendType_retained ht (h'.retains hasked)

/-- The unit with the forms `(def E (enum extern int (A)))` and
`(def S (struct extern ((e E) (q (p int)))))` after both were processed. -/
def recordUnit : Compilation Unit :=
  final (Lower.processTopLevel ⟨19⟩) (final (Lower.processTopLevel ⟨8⟩)
    { forest := ⟨#[⟨.token ⟨.symbol, ⟨1⟩⟩, .dummy⟩, ⟨.token ⟨.symbol, ⟨2⟩⟩, .dummy⟩,
        ⟨.token ⟨.symbol, ⟨3⟩⟩, .dummy⟩, ⟨.token ⟨.symbol, ⟨4⟩⟩, .dummy⟩,
        ⟨.token ⟨.symbol, ⟨5⟩⟩, .dummy⟩, ⟨.token ⟨.symbol, ⟨6⟩⟩, .dummy⟩, ⟨.list [⟨5⟩], .dummy⟩,
        ⟨.list [⟨2⟩, ⟨3⟩, ⟨4⟩, ⟨6⟩], .dummy⟩, ⟨.list [⟨0⟩, ⟨1⟩, ⟨7⟩], .dummy⟩,
        ⟨.token ⟨.symbol, ⟨7⟩⟩, .dummy⟩, ⟨.token ⟨.symbol, ⟨8⟩⟩, .dummy⟩,
        ⟨.token ⟨.symbol, ⟨9⟩⟩, .dummy⟩, ⟨.token ⟨.symbol, ⟨10⟩⟩, .dummy⟩,
        ⟨.token ⟨.symbol, ⟨11⟩⟩, .dummy⟩, ⟨.list [⟨13⟩, ⟨4⟩], .dummy⟩,
        ⟨.list [⟨11⟩, ⟨1⟩], .dummy⟩, ⟨.list [⟨12⟩, ⟨14⟩], .dummy⟩, ⟨.list [⟨15⟩, ⟨16⟩], .dummy⟩,
        ⟨.list [⟨10⟩, ⟨3⟩, ⟨17⟩], .dummy⟩, ⟨.list [⟨0⟩, ⟨9⟩, ⟨18⟩], .dummy⟩],
        ⟨#["", "def", "E", "enum", "extern", "int", "A", "S", "struct", "e", "q", "p"]⟩⟩
      context := .start .standard
      memory := ()
      expander := .none
      maxExpansions := 128 })

/-- The struct and the enum of the unit are represented, and the backend type of `int` stays the
same when it is asked for again. -/
theorem layouts_agree_recordUnit :
    Run (.start .standard .none ()) recordUnit ∧
      (∃ s, (recordUnit.context.namespaceOf .root).struct? "S" = some s ∧
        recordUnit.context.RepresentsStruct s) ∧
      (∃ e s, (recordUnit.context.namespaceOf .root).enum? "E" = some e ∧
        (recordUnit.context.namespaceOf .root).struct? "E" = some s ∧
        recordUnit.context.RepresentsEnum e s) ∧
      Context.backendType .int (Context.backendType .int recordUnit.context).2 =
        Context.backendType .int recordUnit.context := by
  have hrun : Run (.start .standard .none ()) recordUnit :=
    ((Run.refl.forest _).topLevel ⟨8⟩).topLevel ⟨19⟩
  obtain ⟨hstructs, henums, hstays⟩ := layouts_agree hrun
  obtain ⟨s, hs⟩ := Option.isSome_iff_exists.1
    (show ((recordUnit.context.namespaceOf .root).struct? "S").isSome = true by decide +kernel)
  obtain ⟨e, he⟩ := Option.isSome_iff_exists.1
    (show ((recordUnit.context.namespaceOf .root).enum? "E").isSome = true by decide +kernel)
  obtain ⟨s', hs', henum⟩ := henums .root "E" e he
  refine ⟨hrun, ⟨s, hs, hstructs .root "S" s hs⟩, ⟨e, s', he, hs', henum⟩, ?_⟩
  exact hstays .int _ (by decide +kernel) .refl

end Run

end FormCompiler
