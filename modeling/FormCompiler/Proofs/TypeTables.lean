import FormCompiler.Proofs.Ir.Keeping
import FormCompiler.Proofs.ModuleTyping

/-!
# Types of a Module Are Known by Their Ids

Operands are checked by comparing ids of types. That is enough because no type has two ids: a type
without a name is looked up before it is entered, and the name of a struct is refused when it is
taken. Parts are entered before what is made of them, so walking through a type comes to an end.

* `TypeTables`: the types of a module with the two maps that they are entered through, one for
  unnamed types and one for the names of structs.
* `TypeTables.Canonical`: the maps have exactly the types, each type has one id, and parts have
  smaller ids. Both ways to enter a type keep it so.
* `Operation.creations`: the types that an operation asks for. The tables filled by them are those
  of the module after any operations (`runAll_heldBy`).
* `Module.SameType`, `Module.Writes`: equality of types by name or by parts, and writing a type,
  both as walks without any bound. Equal ids decide the one, and the other comes to one text.
-/

namespace FormCompiler.Ir

/-- A type that is asked for: an unnamed one, or a struct of a name. -/
inductive Creation where
  | unnamed (ty : Ty)
  | named (name : String) (fields : List TyId)
deriving DecidableEq, Repr

namespace Creation

/-- The type that is asked for. -/
def type : Creation → Ty
  | unnamed ty => ty
  | named name fields => .struct (some name) fields

/-- What is asked for as unnamed has no name, and the parts of a type are in the table. -/
structure Fits (c : Creation) (types : Array Ty) : Prop where
  unnamed : ∀ ty, c = .unnamed ty → ty.isNamed = false
  parts : ∀ part ∈ c.type.parts, part.index < types.size

end Creation

/-! ## Tables -/

/-- The types made so far, the ids of those without a name, and the ids of structs by their names;
the latest entries of the maps come first. -/
structure TypeTables where
  types : Array Ty
  unnamed : List (Ty × TyId)
  named : List (String × TyId)
deriving Repr

namespace TypeTables

/-- The tables without any type. -/
def empty : TypeTables := ⟨#[], [], []⟩

/-- The id of an unnamed type, which is entered if it is new. -/
def intern (ty : Ty) (tables : TypeTables) : TyId × TypeTables :=
  match tables.unnamed.lookup ty with
  | some t => (t, tables)
  | none =>
    let t : TyId := ⟨tables.types.size⟩
    (t, { tables with types := tables.types.push ty, unnamed := (ty, t) :: tables.unnamed })

/-- A named struct of these fields, which is not looked for among the unnamed types. There is none
if the name is taken. -/
def struct? (name : String) (fields : List TyId) (tables : TypeTables) : Option TyId × TypeTables :=
  match tables.named.lookup name with
  | some _ => (none, tables)
  | none =>
    let t : TyId := ⟨tables.types.size⟩
    (some t, { tables with
      types := tables.types.push (.struct (some name) fields)
      named := (name, t) :: tables.named })

/-- The tables after a type was asked for. -/
def create (tables : TypeTables) : Creation → TypeTables
  | .unnamed ty => (tables.intern ty).2
  | .named name fields => (tables.struct? name fields).2

/-- Each type has one id. The maps have exactly the unnamed types and the names of the structs, and
the parts of a type have smaller ids than the type. -/
structure Canonical (tables : TypeTables) : Prop where
  distinct : Distinct tables.types
  unnamed : ∀ ty t, tables.unnamed.lookup ty = some t ↔
    tables.types[t.index]? = some ty ∧ ty.isNamed = false
  named : ∀ name t, tables.named.lookup name = some t ↔
    ∃ fields, tables.types[t.index]? = some (.struct (some name) fields)
  parts : ∀ (i : Nat) (ty : Ty), tables.types[i]? = some ty → ∀ part ∈ ty.parts, part.index < i

/-- There is nothing in the tables without any type. -/
theorem canonical_empty : empty.Canonical where
  distinct _ _ _ hi := by simp [empty] at hi
  unnamed _ _ := by simp [empty]
  named _ _ := by simp [empty]
  parts _ _ hi := by simp [empty] at hi

namespace Canonical

variable {tables : TypeTables}

/-- The parts of a type are still smaller when another one whose parts are there was entered. -/
theorem parts_push (h : tables.Canonical) {ty : Ty}
    (hparts : ∀ part ∈ ty.parts, part.index < tables.types.size) (i : Nat) (other : Ty)
    (hi : (tables.types.push ty)[i]? = some other) : ∀ part ∈ other.parts, part.index < i := by
  rcases getElem?_push_eq_some_iff.1 hi with hi | ⟨rfl, rfl⟩
  · exact h.parts i other hi
  · exact hparts

/-- An unnamed type may be entered when its parts are there. -/
theorem intern (h : tables.Canonical) {ty : Ty} (hunnamed : ty.isNamed = false)
    (hparts : ∀ part ∈ ty.parts, part.index < tables.types.size) :
    (tables.intern ty).2.Canonical := by
  unfold TypeTables.intern
  cases hlookup : tables.unnamed.lookup ty with
  | some t => exact h
  | none =>
    -- what the map does not have is not in the table, as it has no name
    have hnew : ∀ i : Nat, tables.types[i]? ≠ some ty := fun i hi => by
      rw [(h.unnamed ty ⟨i⟩).2 ⟨hi, hunnamed⟩] at hlookup
      cases hlookup
    refine ⟨h.distinct.push hnew, fun other t => ?_, fun name t => ?_, h.parts_push hparts⟩
    · rw [getElem?_push_eq_some_iff, List.lookup_cons]
      by_cases heq : other = ty
      · subst heq
        have ht : t = ⟨tables.types.size⟩ ↔ t.index = tables.types.size := by
          cases t
          simp
        simp [hnew, hunnamed, eq_comm, ht]
      · simp [beq_eq_false_iff_ne.2 heq, h.unnamed, Ne.symm heq]
    · -- no name is added, since the new type has none
      have hstruct : ∀ fields, ty ≠ .struct (some name) fields := fun fields heq => by
        rw [heq] at hunnamed
        cases hunnamed
      simp only [getElem?_push_eq_some_iff, hstruct, and_false, or_false]
      exact h.named name t

/-- A named struct may be entered when its fields are there. -/
theorem struct? (h : tables.Canonical) (name : String) {fields : List TyId}
    (hfields : ∀ field ∈ fields, field.index < tables.types.size) :
    (tables.struct? name fields).2.Canonical := by
  unfold TypeTables.struct?
  cases hlookup : tables.named.lookup name with
  | some t => exact h
  | none =>
    have hfree : ∀ (i : Nat) others, tables.types[i]? ≠ some (.struct (some name) others) :=
      fun i others hi => by
        rw [(h.named name ⟨i⟩).2 ⟨others, hi⟩] at hlookup
        cases hlookup
    refine ⟨h.distinct.push fun i => hfree i fields, fun ty t => ?_, fun other t => ?_,
      h.parts_push hfields⟩
    · -- the map of unnamed types stays as it was
      rw [h.unnamed, getElem?_push_eq_some_iff]
      constructor
      · rintro ⟨ht, hunnamed⟩
        exact ⟨.inl ht, hunnamed⟩
      · rintro ⟨ht | ⟨-, rfl⟩, hunnamed⟩
        · exact ⟨ht, hunnamed⟩
        · cases hunnamed
    · simp only [getElem?_push_eq_some_iff, List.lookup_cons]
      by_cases heq : other = name
      · subst heq
        have ht : t = ⟨tables.types.size⟩ ↔ t.index = tables.types.size := by
          cases t
          simp
        simp [hfree, eq_comm, ht]
      · simp [beq_eq_false_iff_ne.2 heq, h.named, Ne.symm heq]

/-- Any type may be asked for whose parts are there. -/
theorem create (h : tables.Canonical) {c : Creation} (hfits : c.Fits tables.types) :
    (tables.create c).Canonical := by
  cases c with
  | unnamed ty => exact h.intern (hfits.unnamed ty rfl) hfits.parts
  | named name fields => exact h.struct? name hfits.parts

end Canonical

/-! ## The types of a module -/

/-- The tables are canonical and have the types of the module. -/
structure HeldBy (tables : TypeTables) (m : Module) : Prop where
  canonical : tables.Canonical
  types : tables.types = m.types

namespace HeldBy

variable {tables : TypeTables} {m m' : Module}

/-- Searching the types gives what the map of unnamed types gives. -/
theorem findType? (h : tables.HeldBy m) {ty : Ty} (hunnamed : ty.isNamed = false) :
    m.findType? ty = tables.unnamed.lookup ty := by
  refine Option.ext fun t => ?_
  rw [h.canonical.unnamed, Module.findType?, Option.map_eq_some_iff, ← h.types]
  constructor
  · rintro ⟨i, hi, rfl⟩
    exact ⟨h.canonical.distinct.findIdx?_eq_some_iff.1 hi, hunnamed⟩
  · rintro ⟨ht, -⟩
    exact ⟨t.index, h.canonical.distinct.findIdx?_eq_some_iff.2 ht, rfl⟩

/-- Searching the structs gives what the map of names gives. -/
theorem lookupStruct? (h : tables.HeldBy m) (name : String) :
    m.lookupStruct? name = tables.named.lookup name := by
  refine Option.ext fun t => ?_
  rw [h.canonical.named]
  constructor
  · intro ht
    exact h.types ▸ Module.type_of_lookupStruct? ht
  · rintro ⟨fields, ht⟩
    rw [Module.lookupStruct?, Option.map_eq_some_iff, ← h.types]
    refine ⟨t.index, findIdx?_eq_some_of_unique ht (Module.isStructNamed_iff.2 ⟨fields, rfl⟩) ?_,
      rfl⟩
    -- a name is one struct's only, as the map sends it to one id
    intro j ty hj hty
    obtain ⟨others, rfl⟩ := Module.isStructNamed_iff.1 hty
    have hlookup := (h.canonical.named name t).2 ⟨fields, ht⟩
    rw [(h.canonical.named name ⟨j⟩).2 ⟨others, hj⟩] at hlookup
    exact congrArg TyId.index (Option.some.inj hlookup)

/-- Nothing but types is looked at. -/
theorem of_types (h : tables.HeldBy m) (htypes : m'.types = m.types) : tables.HeldBy m' :=
  ⟨h.canonical, h.types.trans htypes.symm⟩

/-- An unnamed type gets the same id from the tables and from the module. -/
theorem internType (h : tables.HeldBy m) (ty : Ty) (hunnamed : ty.isNamed = false)
    (hparts : ∀ part ∈ ty.parts, m.HasTy part) :
    (tables.intern ty).1 = (Module.internType ty m).1 ∧
      (tables.create (.unnamed ty)).HeldBy (Module.internType ty m).2 := by
  have hcanonical : (tables.create (.unnamed ty)).Canonical :=
    h.canonical.intern hunnamed fun part hpart => h.types ▸ hparts part hpart
  have hsame : (tables.intern ty).1 = (Module.internType ty m).1 ∧
      (tables.intern ty).2.types = (Module.internType ty m).2.types := by
    unfold intern Module.internType
    rw [h.findType? hunnamed]
    cases tables.unnamed.lookup ty with
    | some t => exact ⟨rfl, h.types⟩
    | none =>
      dsimp only
      rw [h.types]
      exact ⟨rfl, rfl⟩
  exact ⟨hsame.1, hcanonical, hsame.2⟩

/-- A named struct is entered into both or refused by both. -/
theorem namedStruct (h : tables.HeldBy m) (name : String) {fields : List TyId}
    (hfields : ∀ field ∈ fields, m.HasTy field) :
    (tables.create (.named name fields)).HeldBy (final (Module.namedStruct name fields) m) := by
  refine ⟨h.canonical.struct? name fun field hfield => h.types ▸ hfields field hfield, ?_⟩
  show (tables.struct? name fields).2.types = _
  unfold struct? final Module.namedStruct
  rw [h.lookupStruct? name]
  cases tables.named.lookup name with
  | some t => exact h.types
  | none =>
    dsimp only
    rw [h.types]

end HeldBy

end TypeTables

/-! ## Operations -/

namespace Module

/-- The types are the same. -/
def SameTypes (m m' : Module) : Prop := m'.types = m.types

instance : Std.Refl SameTypes := ⟨fun _ => rfl⟩

instance : IsTrans Module SameTypes := ⟨fun _ _ _ h h' => h'.trans h⟩

/-- What is added to a block is no type. -/
theorem sameTypes_blockSteps : BlockSteps SameTypes where
  result _ _ := rfl
  instr _ _ _ := rfl
  terminator b t := by
    intro m
    unfold Ends terminate
    cases m.isTerminated b <;> exact rfl

/-- A literal that is accepted adds a value, and no type. -/
theorem constIntOfText_sameTypes (ty : TyId) (signed : Bool) (text : String) :
    Keeps SameTypes (constIntOfText ty signed text) := by
  intro m
  unfold Ends constIntOfText
  cases m.intWidth? ty with
  | none => exact rfl
  | some bits =>
    dsimp only
    cases parseIntLiteral text bits signed <;> exact rfl

/-- Closing the blocks of a function adds no type. -/
theorem finishFunction_sameTypes (func : FuncId) : Moves SameTypes (finishFunction func) := by
  intro m
  obtain ⟨blocks, hm⟩ := finishFunction_blocks func m
  rw [hm]
  exact rfl

end Module

namespace Operation

/-- The types that an operation asks for, one after the other. The type of a stack slot and of a
comparison are only asked for if no requirement is missed; the type of a condition, and `void` for
a return without a value, in any case. -/
def creations (m : Module) : Operation → List Creation
  | voidType => [.unnamed .void]
  | intType bits => [.unnamed (.int bits)]
  | floatType bits => [.unnamed (.float bits)]
  | pointerTo pointee => [.unnamed (.pointer pointee)]
  | literalStruct fields => [.unnamed (.struct none fields)]
  | namedStruct name fields => [.named name fields]
  | globalText _ => [.unnamed (.int 8), .unnamed (.pointer (Module.intType 8 m).1)]
  | alloca b ty => if m.isTerminated b then [] else [.unnamed (.pointer ty)]
  | icmp b _ lhs rhs =>
    if (m.intWidth? (m.valueType lhs)).isSome ∧ m.valueType lhs = m.valueType rhs ∧
      m.isTerminated b = false
    then [.unnamed (.int 1)] else []
  | ret _ none => [.unnamed .void]
  | condBr _ _ _ _ => [.unnamed (.int 1)]
  | ret _ (some _) | constInt _ _ | constIntOfText _ _ _ | constFloat _ _ | undefined _
  | declareFunction _ _ _ _ | appendBlock _ _ | finishFunction _ | load _ _ | store _ _ _
  | call _ _ _ | extractValue _ _ _ | insertValue _ _ _ _ | phi _ _ | br _ _ | unreachable _ => []

/-- The tables after the types that operations ask for, from a module and tables on. -/
def tablesAfter : List Operation → Module → TypeTables → TypeTables
  | [], _, tables => tables
  | op :: ops, m, tables => tablesAfter ops (op.run m) ((op.creations m).foldl .create tables)

end Operation

namespace TypeTables

/-- The tables are those of the module after an operation, accepted or refused. -/
def HeldAfter {α : Type} (tables : TypeTables) (op : Build α) (m : Module) : Prop :=
  Ends op m (fun _ m' => tables.HeldBy m') tables.HeldBy

namespace HeldBy

variable {tables : TypeTables} {m : Module}

/-- Operations that ask for no type. -/
theorem sameTypes {α : Type} {op : Build α} (h : tables.HeldBy m)
    (hop : Keeps Module.SameTypes op) : tables.HeldAfter op m :=
  (hop m).mono (fun _ _ => h.of_types) fun _ => h.of_types

/-- An operation goes on after it asked for an unnamed type. -/
theorem enter {β : Type} {f : TyId → Build β} (h : tables.HeldBy m) (ty : Ty)
    (hunnamed : ty.isNamed = false) (hparts : ∀ part ∈ ty.parts, m.HasTy part)
    (hf : ∀ t, Keeps Module.SameTypes (f t)) :
    (tables.create (.unnamed ty)).HeldAfter (Module.always (Module.internType ty) >>= f) m :=
  .next rfl ((h.internType ty hunnamed hparts).2.sameTypes (hf _))

/-- A slot in an open block asks for the pointer to its type. -/
theorem alloca (h : tables.HeldBy m) (b : BlockId) {ty : TyId} (hty : m.HasTy ty) :
    (((Operation.alloca b ty).creations m).foldl .create tables).HeldAfter
      (Module.alloca b ty) m := by
  simp only [Operation.creations]
  split
  next hclosed =>
    refine (Module.expectOpen_ends b m).andThen (fun _ he => he ▸ h) ?_
    rintro _ _ ⟨rfl, hopen⟩
    rw [hopen] at hclosed
    cases hclosed
  next hopen =>
    refine .next (Module.expectOpen_run (Bool.eq_false_iff.2 hopen)) ?_
    exact h.enter (.pointer ty) rfl (by simpa [Ty.parts] using hty) fun t =>
      Module.sameTypes_blockSteps.define b t _

/-- A comparison asks for the type of a bit when its operands are integers of one type and the
block is open. -/
theorem icmp (h : tables.HeldBy m) (b : BlockId) (predicate : IntPredicate) (lhs rhs : ValueId) :
    (((Operation.icmp b predicate lhs rhs).creations m).foldl .create tables).HeldAfter
      (Module.icmp b predicate lhs rhs) m := by
  simp only [Operation.creations, HeldAfter, Ends]
  cases hint : (m.intWidth? (m.valueType lhs)).isNone with
  | true =>
    rw [Module.icmp_of_none hint, if_neg (by simp_all)]
    exact h
  | false =>
    rw [Module.icmp_of_int hint]
    split
    next hmet =>
      obtain ⟨-, hty, hopen⟩ := hmet
      rw [← hty]
      refine Ends.next (Module.expectType_run _ m) (.next (Module.expectOpen_run hopen) ?_)
      exact h.enter (.int 1) rfl (by simp [Ty.parts]) fun t =>
        Module.sameTypes_blockSteps.define b t _
    next hmissed =>
      refine Ends.andThen (Module.expectType_ends _ _ m) (fun _ he => he ▸ h) ?_
      rintro _ _ ⟨rfl, hty⟩
      refine (Module.expectOpen_ends b m).andThen (fun _ he => he ▸ h) ?_
      rintro _ _ ⟨rfl, hopen⟩
      exact absurd ⟨by simpa using hint, hty, hopen⟩ hmissed

/-- A return without a value asks for `void` before anything is required. -/
theorem ret (h : tables.HeldBy m) (b : BlockId) (value : Option ValueId) :
    (((Operation.ret b value).creations m).foldl .create tables).HeldAfter
      (Module.ret b value) m := by
  cases value with
  | some v => exact h.sameTypes (Module.sameTypes_blockSteps.retValue b v)
  | none =>
    refine .next rfl (h.enter .void rfl (by simp [Ty.parts]) fun t => ?_)
    exact .bind (Module.expectType_keeps _ _) fun _ =>
      Module.sameTypes_blockSteps.terminator b _

/-- A branch asks for the type of its condition before anything is required. -/
theorem condBr (h : tables.HeldBy m) (b : BlockId) (condition : ValueId)
    (onTrue onFalse : BlockId) :
    (((Operation.condBr b condition onTrue onFalse).creations m).foldl .create tables).HeldAfter
      (Module.condBr b condition onTrue onFalse) m :=
  h.enter (.int 1) rfl (by simp [Ty.parts]) fun t => .bind Module.get_keeps fun _ =>
    .bind (Module.expectType_keeps _ _) fun _ => Module.sameTypes_blockSteps.terminator b _

/-- A constant text asks for the type of its bytes and for the pointer to it. -/
theorem globalText (h : tables.HeldBy m) (text : String) :
    (((Operation.globalText text).creations m).foldl .create tables).HeldBy
      (Module.globalText text m).2 := by
  have hbyte := (h.internType (.int 8) rfl (by simp [Ty.parts])).2
  have hhas : (Module.internType (.int 8) m).2.HasTy (Module.internType (.int 8) m).1 :=
    (Array.getElem?_eq_some_iff.1
      (Module.type_of_find (Module.internType_spec (.int 8) rfl m).2)).1
  exact (hbyte.internType (.pointer (Module.internType (.int 8) m).1) rfl
    (by simpa [Ty.parts] using hhas)).2.of_types rfl

/-- After any operation with ids of the module, the tables with what it asks for are those of the
module. -/
theorem run (h : tables.HeldBy m) {op : Operation} (hfits : op.Fits m) :
    ((op.creations m).foldl .create tables).HeldBy (op.run m) := by
  have hsteps := Module.sameTypes_blockSteps
  cases op with
  | voidType => exact (h.internType .void rfl (by simp [Ty.parts])).2
  | intType bits => exact (h.internType (.int bits) rfl (by simp [Ty.parts])).2
  | floatType bits => exact (h.internType (.float bits) rfl (by simp [Ty.parts])).2
  | pointerTo pointee =>
    have hpointee : m.HasTy pointee := hfits
    exact (h.internType (.pointer pointee) rfl (by simpa [Ty.parts] using hpointee)).2
  | literalStruct fields => exact (h.internType (.struct none fields) rfl hfits).2
  | namedStruct name fields => exact h.namedStruct name hfits
  | constInt ty v => exact h.of_types rfl
  | constIntOfText ty signed text =>
    exact (h.sameTypes (Module.constIntOfText_sameTypes ty signed text)).final
  | constFloat ty value => exact h.of_types rfl
  | undefined ty => exact h.of_types rfl
  | globalText text => exact h.globalText text
  | declareFunction symbol params returned linkage =>
    refine Ends.final ((Module.declareFunction_ends symbol params returned linkage m).mono ?_ ?_)
    · exact fun _ _ hdeclared => h.of_types hdeclared.types
    · rintro _ ⟨rfl, -⟩
      exact h
  | appendBlock func label => exact h.of_types rfl
  | finishFunction func => exact h.of_types (Module.finishFunction_sameTypes func m)
  | alloca b ty => exact (h.alloca b hfits.2).final
  | load b pointer => exact (h.sameTypes (hsteps.load b pointer)).final
  | store b value pointer => exact (h.sameTypes (hsteps.store b value pointer)).final
  | call b callee arguments => exact (h.sameTypes (hsteps.call b callee arguments)).final
  | extractValue b aggregate index =>
    exact (h.sameTypes (hsteps.extractValue b aggregate index)).final
  | insertValue b aggregate value index =>
    exact (h.sameTypes (hsteps.insertValue b aggregate value index)).final
  | icmp b predicate lhs rhs => exact (h.icmp b predicate lhs rhs).final
  | phi b incoming => exact (h.sameTypes (hsteps.phi b incoming)).final
  | ret b value => exact (h.ret b value).final
  | br b target => exact (h.sameTypes (hsteps.terminator b (.br target))).final
  | condBr b condition onTrue onFalse => exact (h.condBr b condition onTrue onFalse).final
  | unreachable b => exact (h.sameTypes (hsteps.terminator b .unreachable)).final

/-- The same after any sequence of operations. -/
theorem runAll {ops : List Operation} {tables : TypeTables} {m : Module} (h : tables.HeldBy m)
    (hfit : Operation.Fit m ops) :
    (Operation.tablesAfter ops m tables).HeldBy (Operation.runAll ops m) := by
  induction ops generalizing tables m with
  | nil => exact h
  | cons op ops ih => exact ih (h.run hfit.1) hfit.2

end HeldBy

end TypeTables

/-! ## Equality and writing -/

namespace Module

/-- Two ids stand for equal types. A named struct is equal to those of its name, whatever their
fields; any other type is equal to those that are made alike of equal parts. -/
inductive SameType (m : Module) : TyId → TyId → Prop
  | void {t u} : m.type t = .void → m.type u = .void → SameType m t u
  | int {t u bits} : m.type t = .int bits → m.type u = .int bits → SameType m t u
  | float {t u bits} : m.type t = .float bits → m.type u = .float bits → SameType m t u
  | pointer {t u pointee pointee'} : m.type t = .pointer pointee → m.type u = .pointer pointee' →
    SameType m pointee pointee' → SameType m t u
  | named {t u name fields fields'} : m.type t = .struct (some name) fields →
    m.type u = .struct (some name) fields' → SameType m t u
  | fields {t u fields fields'} : m.type t = .struct none fields →
    m.type u = .struct none fields' → fields.Forall₂ (SameType m) fields' → SameType m t u

/-- A type is written as a text: a walk through its parts that has no bound. -/
inductive Writes (m : Module) : TyId → String → Prop
  | void {t} : m.type t = .void → Writes m t "void"
  | int {t bits} : m.type t = .int bits → Writes m t ("i" ++ toString bits)
  | single {t} : m.type t = .float 32 → Writes m t "float"
  | double {t} : m.type t = .float 64 → Writes m t "double"
  | float {t bits} : m.type t = .float bits → bits ≠ 32 → bits ≠ 64 →
    Writes m t ("f" ++ toString bits)
  | pointer {t pointee text} : m.type t = .pointer pointee → Writes m pointee text →
    Writes m t (text ++ "*")
  | named {t name fields} : m.type t = .struct (some name) fields → Writes m t ("%" ++ name)
  | fields {t fields texts} : m.type t = .struct none fields →
    fields.Forall₂ (Writes m) texts → Writes m t ("\x7b " ++ ", ".intercalate texts ++ " \x7d")

end Module

/-- Lists are related alike by relations that agree on their members. -/
theorem forall₂_congr_of_mem {α β : Type} {R S : α → β → Prop} {xs : List α} {ys : List β}
    (h : ∀ x ∈ xs, ∀ y ∈ ys, R x y ↔ S x y) : xs.Forall₂ R ys ↔ xs.Forall₂ S ys := by
  rw [List.forall₂_iff_zip, List.forall₂_iff_zip]
  refine and_congr_right fun _ => forall_congr' fun x => forall_congr' fun y => ?_
  refine imp_congr_right fun hmem => ?_
  obtain ⟨hx, hy⟩ := List.of_mem_zip hmem
  exact h x hx y hy

namespace TypeTables.HeldBy

variable {tables : TypeTables} {m : Module}

/-- The type of an id stands at its index. -/
theorem getElem?_of_hasTy (h : tables.HeldBy m) {t : TyId} (ht : m.HasTy t) :
    tables.types[t.index]? = some (m.type t) := by
  rw [h.types, Module.type, Array.getD_eq_getD_getElem?, Array.getElem?_eq_getElem ht,
    Option.getD_some]

/-- An id is known by its type. -/
theorem eq_of_type (h : tables.HeldBy m) {t u : TyId} (ht : m.HasTy t) (hu : m.HasTy u)
    (htype : m.type t = m.type u) : t = u :=
  congrArg TyId.mk (h.canonical.distinct _ _ _ (h.getElem?_of_hasTy ht)
    (htype ▸ h.getElem?_of_hasTy hu))

/-- Parts have smaller ids. -/
theorem part_lt (h : tables.HeldBy m) {t part : TyId} (ht : m.HasTy t)
    (hpart : part ∈ (m.type t).parts) : part.index < t.index :=
  h.canonical.parts t.index _ (h.getElem?_of_hasTy ht) part hpart

/-- Parts are in the module. -/
theorem hasTy_part (h : tables.HeldBy m) {t part : TyId} (ht : m.HasTy t)
    (hpart : part ∈ (m.type t).parts) : m.HasTy part :=
  Nat.lt_trans (h.part_lt ht hpart) ht

/-- Types are equal only if their ids are. -/
theorem sameType_iff (h : tables.HeldBy m) {t u : TyId} (ht : m.HasTy t) (hu : m.HasTy u) :
    m.SameType t u ↔ t = u := by
  -- the parts of a type have smaller ids, so what is claimed is known of them
  induction hindex : t.index using Nat.strongRecOn generalizing t u with
  | _ n ih =>
    have hparts : ∀ part ∈ (m.type t).parts, ∀ part' ∈ (m.type u).parts,
        m.SameType part part' ↔ part = part' := fun part hpart part' hpart' =>
      ih part.index (hindex ▸ h.part_lt ht hpart) (h.hasTy_part ht hpart)
        (h.hasTy_part hu hpart') rfl
    constructor
    · intro hsame
      cases hsame with
      | void htype htype' => exact h.eq_of_type ht hu (htype.trans htype'.symm)
      | int htype htype' => exact h.eq_of_type ht hu (htype.trans htype'.symm)
      | float htype htype' => exact h.eq_of_type ht hu (htype.trans htype'.symm)
      | @pointer _ _ pointee pointee' htype htype' hpointee =>
        rw [htype, htype'] at hparts
        obtain rfl := (hparts pointee (by simp [Ty.parts]) pointee' (by simp [Ty.parts])).1 hpointee
        exact h.eq_of_type ht hu (htype.trans htype'.symm)
      | @named _ _ name fields fields' htype htype' =>
        have ht' := (h.canonical.named name t).2 ⟨fields, htype ▸ h.getElem?_of_hasTy ht⟩
        have hu' := (h.canonical.named name u).2 ⟨fields', htype' ▸ h.getElem?_of_hasTy hu⟩
        exact Option.some.inj (ht'.symm.trans hu')
      | @fields _ _ fields fields' htype htype' hfields =>
        rw [htype, htype'] at hparts
        have hall := (forall₂_congr_of_mem hparts).1 hfields
        rw [List.forall₂_eq_eq_eq] at hall
        obtain rfl : fields = fields' := hall
        exact h.eq_of_type ht hu (htype.trans htype'.symm)
    · rintro rfl
      cases htype : m.type t with
      | void => exact .void htype htype
      | int bits => exact .int htype htype
      | float bits => exact .float htype htype
      | pointer pointee =>
        refine .pointer htype htype ((hparts pointee ?_ pointee ?_).2 rfl) <;>
          simp [htype, Ty.parts]
      | struct name? fields =>
        cases name? with
        | some name => exact .named htype htype
        | none =>
          rw [htype] at hparts
          refine .fields htype htype ((forall₂_congr_of_mem hparts).2 ?_)
          rw [List.forall₂_eq_eq_eq]

/-- A type is written as one text, for which any bound above its id is enough. -/
theorem writes_iff (h : tables.HeldBy m) {t : TyId} (ht : m.HasTy t) {bound : Nat}
    (hbound : t.index < bound) {text : String} :
    m.Writes t text ↔ m.typeNameBelow bound t = text := by
  induction bound generalizing t text with
  | zero => cases hbound
  | succ bound ih =>
    have hparts : ∀ part ∈ (m.type t).parts, ∀ text,
        m.Writes part text ↔ m.typeNameBelow bound part = text := fun part hpart text =>
      ih (h.hasTy_part ht hpart)
        (Nat.lt_of_lt_of_le (h.part_lt ht hpart) (Nat.le_of_lt_succ hbound))
    have hfields : ∀ fields texts, m.type t = .struct none fields →
        (fields.Forall₂ m.Writes texts ↔ fields.map (m.typeNameBelow bound) = texts) := by
      intro fields texts htype
      rw [htype] at hparts
      have hmem : ∀ part ∈ fields, ∀ text ∈ texts,
          m.Writes part text ↔ m.typeNameBelow bound part = text := fun part hpart text _ =>
        hparts part hpart text
      rw [forall₂_congr_of_mem hmem, ← List.forall₂_map_left_iff, List.forall₂_eq_eq_eq]
    unfold Module.typeNameBelow
    constructor
    · intro hwrites
      cases hwrites with
      | void htype => rw [htype]
      | int htype => rw [htype]
      | single htype =>
        rw [htype]
        rfl
      | double htype =>
        rw [htype]
        rfl
      | float htype hsingle hdouble =>
        rw [htype]
        split <;> simp_all
      | @pointer _ pointee text htype hpointee =>
        rw [htype]
        rw [htype] at hparts
        exact congrArg (· ++ "*") ((hparts pointee (by simp [Ty.parts]) text).1 hpointee)
      | named htype => rw [htype]
      | fields htype htexts => rw [htype, ← (hfields _ _ htype).1 htexts]
    · rintro rfl
      split
      next htype => exact .void htype
      next htype => exact .int htype
      next htype => exact .single htype
      next htype => exact .double htype
      next hsingle hdouble htype => exact .float htype hsingle hdouble
      next pointee htype =>
        exact .pointer htype ((hparts pointee (by simp [htype, Ty.parts]) _).2 rfl)
      next htype => exact .named htype
      next htype => exact .fields htype ((hfields _ _ htype).2 rfl)

end TypeTables.HeldBy

namespace Operation

/-- Ids and types of a module correspond one to one, as the tables say, and comparing ids is
comparing types. -/
structure TypesCanonical (m : Module) (tables : TypeTables) : Prop where
  types : tables.types = m.types
  /-- Distinct ids hold distinct types. -/
  distinct : ∀ t u, m.HasTy t → m.HasTy u → m.type t = m.type u → t = u
  /-- The map of unnamed types sends exactly those to their ids. -/
  unnamed : ∀ ty t, tables.unnamed.lookup ty = some t ↔
    m.HasTy t ∧ m.type t = ty ∧ ty.isNamed = false
  /-- The map of names sends exactly those of the structs to their ids. -/
  named : ∀ name t, tables.named.lookup name = some t ↔
    m.HasTy t ∧ ∃ fields, m.type t = .struct (some name) fields
  /-- Searching the types gives what the maps give. -/
  searches : (∀ ty, ty.isNamed = false → m.findType? ty = tables.unnamed.lookup ty) ∧
    ∀ name, m.lookupStruct? name = tables.named.lookup name
  /-- Fields and pointees have smaller ids. -/
  parts : ∀ t, m.HasTy t → ∀ part ∈ (m.type t).parts, part.index < t.index
  /-- A type is accepted for another one exactly if they are equal. -/
  accepted : ∀ t u, m.HasTy t → m.HasTy u → m.SameType t u →
    Module.expectType t u m = .ok ⟨⟩ m
  refused : ∀ t u, m.HasTy t → m.HasTy u → ¬ m.SameType t u →
    Module.expectType t u m = .error (.typeMismatch (m.typeName t) (m.typeName u)) m
  /-- The walk through a type ends, with one text. -/
  written : ∀ t, m.HasTy t → ∀ text, m.Writes t text ↔ m.typeName t = text

/-- Tables that hold the types of a module make them canonical. -/
theorem typesCanonical_of_heldBy {tables : TypeTables} {m : Module} (h : tables.HeldBy m) :
    TypesCanonical m tables where
  types := h.types
  distinct _ _ ht hu htype := h.eq_of_type ht hu htype
  unnamed ty t := by
    rw [h.canonical.unnamed, h.types]
    constructor
    · rintro ⟨ht, hunnamed⟩
      exact ⟨(Array.getElem?_eq_some_iff.1 ht).1, Module.type_of_getElem? ht, hunnamed⟩
    · rintro ⟨ht, rfl, hunnamed⟩
      exact ⟨h.types ▸ h.getElem?_of_hasTy ht, hunnamed⟩
  named name t := by
    rw [h.canonical.named, h.types]
    constructor
    · rintro ⟨fields, ht⟩
      exact ⟨(Array.getElem?_eq_some_iff.1 ht).1, fields, Module.type_of_getElem? ht⟩
    · rintro ⟨ht, fields, htype⟩
      exact ⟨fields, htype ▸ h.types ▸ h.getElem?_of_hasTy ht⟩
  searches := ⟨fun _ hunnamed => h.findType? hunnamed, h.lookupStruct?⟩
  parts _ ht _ hpart := h.part_lt ht hpart
  accepted t u ht hu hsame := by
    rw [(h.sameType_iff ht hu).1 hsame]
    exact Module.expectType_run u m
  refused t u ht hu hother := by
    rw [Module.expectType, if_neg fun heq => hother ((h.sameType_iff ht hu).2 heq)]
  written t ht _ := h.writes_iff ht (Nat.lt_succ_self t.index)

/-- After any operations on a module that was empty, each with ids that the module had handed out,
the tables that were filled on the way have the types of the module, no two ids hold equal types,
and operands are accepted exactly where their types are equal. -/
theorem runAll_typeTables {name : String} {ops : List Operation} (hfit : Fit (.empty name) ops) :
    TypesCanonical (runAll ops (.empty name)) (tablesAfter ops (.empty name) .empty) :=
  typesCanonical_of_heldBy (TypeTables.HeldBy.runAll ⟨TypeTables.canonical_empty, rfl⟩ hfit)

/-- Two structs of the same fields under two names, a third of a name that is taken, and the same
fields without a name, twice; a slot then takes one more pointer. -/
def boxes : List Operation :=
  [intType 8, pointerTo ⟨0⟩, literalStruct [⟨0⟩, ⟨1⟩], namedStruct "box" [⟨0⟩, ⟨1⟩],
    namedStruct "crate" [⟨0⟩, ⟨1⟩], namedStruct "box" [], literalStruct [⟨0⟩, ⟨1⟩], voidType,
    declareFunction "fill" [] ⟨5⟩ .internal, appendBlock ⟨0⟩ "entry", alloca ⟨0⟩ ⟨3⟩,
    ret ⟨0⟩ none, alloca ⟨0⟩ ⟨4⟩]

/-- The tables of `boxes` are canonical. The slot in the closed block entered no type. -/
theorem boxes_typesCanonical :
    Fit (.empty "unit") boxes ∧
      (tablesAfter boxes (.empty "unit") .empty).types = #[.int 8, .pointer ⟨0⟩,
        .struct none [⟨0⟩, ⟨1⟩], .struct (some "box") [⟨0⟩, ⟨1⟩],
        .struct (some "crate") [⟨0⟩, ⟨1⟩], .void, .pointer ⟨3⟩] ∧
      (runAll boxes (.empty "unit")).typeName ⟨2⟩ = "\x7b i8, i8* \x7d" ∧
      TypesCanonical (runAll boxes (.empty "unit")) (tablesAfter boxes (.empty "unit") .empty) :=
  ⟨by decide +kernel, by decide +kernel, by decide +kernel,
    runAll_typeTables (by decide +kernel)⟩

end Operation

end FormCompiler.Ir
