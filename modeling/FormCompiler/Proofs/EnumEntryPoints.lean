import FormCompiler.Proofs.EnumAtomicity
import FormCompiler.Proofs.Lower.Conduct

/-!
# The Two Ways to Declare an Enum

An enum is declared as a top-level form or by `declareEnum`. Both take the definition apart and go
on with `defineEnum`, but only the top level looks at the word that begins the body. A definition
with another word in its place is taken for that of an enum by one of them only.

* `Compilation.SameTables`: two units have the same namespaces, types and module.
* `Lower.enumsKept`: the conduct of steps that declare no enum. The definition of a function is one.
* `Lower.Takes`: the definition that `declareEnum` accepted.
-/

namespace FormCompiler

/-- A step that gives no result does not end with one. -/
theorem Refuses.not_ends {ε σ α : Type} {R : σ → σ → Prop} {x : EStateM ε σ α} (h : Refuses R x)
    {s : σ} {Q : α → σ → Prop} : ¬ Ends x s Q fun _ => False := fun hx =>
  ((hx.and (h s)).mono (fun _ _ h => h.2) fun _ h => h.1).final

/-- The namespaces, the types and the module of both units are the same. -/
structure Compilation.SameTables {σ : Type} (u u' : Compilation σ) : Prop where
  namespaces : u'.context.namespaces = u.context.namespaces
  pool : u'.context.pool = u.context.pool
  ir : u'.context.ir = u.context.ir

/-- The overloads of a namespace are not its enums. -/
theorem Context.addFunction_enums (f : Function) (c : Context) :
    (addFunction f c).2.entered = c.entered ∧
      (addFunction f c).2.current.enums = c.current.enums := by
  unfold addFunction Namespace.addFunction?
  split
  next => exact ⟨rfl, rfl⟩
  next =>
    refine ⟨rfl, ?_⟩
    change (c.withCurrent _).current.enums = _
    by_cases hlt : c.currentId.index < c.namespaces.size
    · rw [current_withCurrent hlt]
    · rw [withCurrent, Array.setIfInBounds_eq_of_size_le (Nat.le_of_not_lt hlt)]

namespace Lower

variable {σ α : Type} {u : Compilation σ} {node : NodeId}

/-! ## Steps that declare no enum -/

/-- The current namespace is that of the unit, with the same enums. -/
def enumsKept (u : Compilation σ) : Conduct (Compilation σ) where
  Holds u' := u'.context.entered = u.context.entered ∧
    u'.context.current.enums = u.context.current.enums
  Stops _ _ := True

/-- What declares nothing declares no enum. -/
theorem enumsKept_of_within {P : Pool → Pool → Prop} {R : Ir.Module → Ir.Module → Prop}
    {x : Lower σ α} (h : ∀ u', Ends x u' (fun _ u'' => u'.context.Within P R u''.context)
      fun _ => True) : (enumsKept u).Governs x := by
  rintro u' ⟨hentered, henums⟩
  cases hx : x u' with
  | ok a u'' =>
    have hwithin := (h u').of_ok hx
    exact ⟨hwithin.entered.trans hentered, by rw [hwithin.current, henums]⟩
  | error e u'' => trivial

/-- Emitting code and declaring functions declare no enum. -/
theorem lasting_enumsKept (u : Compilation σ) : Lasting (enumsKept u) where
  context _ :=
    { proceeds := fun ⟨hentered, henums⟩ hc =>
        ⟨hc.within.entered.trans hentered,
          (congrArg Namespace.enums hc.within.current).trans henums⟩
      reports := fun _ _ => trivial
      addFunction := fun f ⟨hentered, henums⟩ =>
        have ⟨hentered', henums'⟩ := Context.addFunction_enums f _
        ⟨hentered'.trans hentered, henums'.trans henums⟩ }
  offer node := enumsKept_of_within (P := (· = ·)) (R := (· = ·)) fun u' =>
    ((offer_keeps node).ends u').mono (fun _ _ h => h.context) fun _ _ => trivial

/-- The definition of a function declares no enum. -/
theorem defineFunction_enumsKept (nameNode : NodeId) (name : String) (body : NodeId)
    (parts : List NodeId) :
    (enumsKept u).Governs (defineFunction nameNode name body parts) :=
  (lasting_enumsKept u).defineFunction
    (fun r => enumsKept_of_within fun u' =>
      ((drop_keeps .empty r).ends u').mono (fun _ _ h => h.context) fun _ _ => trivial)
    (fun frame b node => enumsKept_of_within fun u' =>
      ((process_keeps frame.scope frame.func b node).ends u').mono (fun _ _ h => h.context)
        fun _ _ => trivial)
    (fun node => enumsKept_of_within fun u' =>
      (resolveType_ends node u').mono (fun _ _ h => h.1.within.context) fun _ _ => trivial)
    (fun _ _ _ _ _ => trivial) nameNode name body parts

/-! ## What `declareEnum` accepts -/

/-- The form is a definition of a name with a list as its body, and in the unit the list without its
first item defines an enum of that name. -/
structure Takes (node head nameNode body : NodeId) (name : String) (parts : List NodeId)
    (u u' : Compilation σ) : Prop where
  items : u.forest.items? node = some [head, nameNode, body]
  isDef : u.forest.symbol? head = some "def"
  named : u.forest.symbol? nameNode = some name
  list : u.forest.items? body = some parts
  run : defineEnum nameNode name body parts.tail u = .ok ⟨⟩ u'

/-- A definition that is accepted as that of an enum is taken apart first. -/
theorem declareEnum_takes (node : NodeId) (u : Compilation σ) :
    Ends (declareEnum node) u
      (fun _ u' => ∃ head nameNode body name parts, Takes node head nameNode body name parts u u')
      fun _ => True := by
  refine (expectList_ends node _ u).andThen (fun _ _ => trivial) ?_
  rintro items _ ⟨hitems, rfl⟩
  cases items with
  | nil =>
    refine .next rfl ?_
    beta_reduce
    rw [if_neg (Option.some_ne_none "def").symm]
    exact (Refuses.read fun _ => .read fun _ => fail_refuses _).ends u fun _ _ => trivial
  | cons head rest =>
    refine .next rfl ?_
    beta_reduce
    split
    next hdef =>
      split
      next nameNode body htail =>
        refine (expectSymbol_ends nameNode _ u).andThen (fun _ _ => trivial) ?_
        rintro name _ ⟨hname, rfl⟩
        refine (expectList_ends body _ u).andThen (fun _ _ => trivial) ?_
        rintro parts _ ⟨hparts, rfl⟩
        obtain rfl : rest = [nameNode, body] := htail
        exact .intro (fun _ _ hrun => ⟨head, nameNode, body, name, parts, hitems, hdef, hname,
          hparts, hrun⟩) fun _ _ _ => trivial
      next => exact (Refuses.read fun _ => fail_refuses _).ends u fun _ _ => trivial
    next => exact (Refuses.read fun _ => .read fun _ => fail_refuses _).ends u fun _ _ => trivial

/-- The definition of an enum needs three parts. -/
theorem parts_of_defineEnum {nameNode body : NodeId} {name : String} {parts : List NodeId}
    {u' : Compilation σ} (h : defineEnum nameNode name body parts u = .ok ⟨⟩ u') :
    ∃ linkage ty elements rest, parts = linkage :: ty :: elements :: rest := by
  unfold defineEnum at h
  split at h
  next linkage ty elements rest => exact ⟨linkage, ty, elements, rest, rfl⟩
  next => exact ((Refuses.read fun _ => fail_refuses _) u |>.of_ok h).elim

/-- A struct with three parts or more is refused. -/
theorem defineStruct_refuses (nameNode : NodeId) (name : String)
    (body linkage ty elements : NodeId) (rest : List NodeId) :
    Refuses (Compilation.Within (· = ·) Ir.Module.Still)
      (defineStruct nameNode name body (linkage :: ty :: elements :: rest) : Lower σ PUnit) :=
  .read fun _ => fail_refuses _

/-- An enum that is defined is one of the current namespace, which had none of its name before. -/
theorem defineEnum_new (hu : u.context.Valid) {nameNode body : NodeId} {name : String}
    {parts : List NodeId} {u' : Compilation σ}
    (h : defineEnum nameNode name body parts u = .ok ⟨⟩ u') :
    u'.context.entered = u.context.entered ∧ u.context.current.enum? name = none ∧
      (u'.context.current.enum? name).isSome = true := by
  rw [defineEnum_eq] at h
  obtain ⟨plan, u₁, hplan, hregister⟩ := bind_ok_iff.1 h
  obtain ⟨hquiet, rfl, hgrounded, hint, -⟩ := (enumPlan_ends _ _ _ _ u).of_ok hplan
  have hvalid := hquiet.valid hu
  have hunder := hgrounded hu
  have hnew : Ends (registerEnum plan.name plan.builder plan.linkage plan.underlying
      plan.nameSpan plan.bodySpan) u₁.context
      (fun _ _ => u₁.context.current.enum? plan.name = none) fun _ => True := by
    rw [registerEnum_eq]
    exact (registerTypes_ends hvalid _ _ _ _ _).andThen (fun _ _ => trivial) fun _ _ h =>
      .intro (fun _ _ _ => h.noEnum) fun _ _ _ => trivial
  obtain ⟨c, rfl, ⟨-, hcomplete, hentered⟩, hnone⟩ := (onContext_ends
    ((registerEnum_outcome hvalid plan.name plan.builder plan.linkage hunder hint
      plan.nameSpan plan.bodySpan).and hnew)).of_ok hregister
  obtain ⟨e, _, henum, -⟩ := hcomplete.registered
  have hwithin := hquiet.within.context
  exact ⟨hentered.trans hwithin.entered, hwithin.current ▸ hnone, Option.isSome_of_eq_some henum⟩

/-! ## Agreement -/

/-- The top level takes a definition apart by the word that its body begins with. -/
theorem Takes.definition_run {head nameNode body first : NodeId} {name : String}
    {rest : List NodeId} {u' : Compilation σ}
    (h : Takes node head nameNode body name (first :: rest) u u') :
    processTopLevel node u = (
      if u.forest.symbol? first = some "enum" then defineEnum nameNode name body rest
      else if u.forest.symbol? first = some "struct" then defineStruct nameNode name body rest
      else if u.forest.symbol? first = some "fn" then defineFunction nameNode name body rest
      else do
        fail (Report.unexpectedElement (← span body) "`enum`, `struct` or `fn`" "declaration"
          (← display body))) u := by
  rw [processTopLevel_def h.items h.isDef]
  unfold definition
  simp only [bind, EStateM.bind, expectSymbol_run h.named, expectList_run h.list, symbol?,
    List.tail_cons]

/-- What `declareEnum` accepts without the word `enum` has another effect at the top level: the
definition is refused, or it is that of a function. -/
theorem Takes.isEnumDefinition (hu : u.context.Valid) {head nameNode body : NodeId} {name : String}
    {parts : List NodeId} {u' : Compilation σ}
    (h : Takes node head nameNode body name parts u u')
    (htop : Ends (processTopLevel node) u (fun _ => u'.SameTables) fun _ => False) :
    u.forest.IsEnumDefinition node := by
  obtain ⟨linkage, ty, elements, more, htail⟩ := parts_of_defineEnum h.run
  obtain ⟨first, rfl⟩ : ∃ first, parts = first :: linkage :: ty :: elements :: more := by
    cases parts with
    | nil => cases htail
    | cons first rest => exact ⟨first, congrArg _ htail⟩
  unfold Ends at htop
  rw [h.definition_run] at htop
  split at htop
  next hword =>
    exact ⟨head, nameNode, body, name, first, _, h.items, h.isDef, h.named, h.list, hword⟩
  split at htop
  next => exact ((defineStruct_refuses _ _ _ _ _ _ _).not_ends htop).elim
  split at htop
  next =>
    -- a function declares no enum, and there was none of the name
    obtain ⟨hentered, hnone, hsome⟩ := defineEnum_new hu h.run
    have hkept := defineFunction_enumsKept nameNode name body (linkage :: ty :: elements :: more)
      u (u := u) ⟨rfl, rfl⟩
    cases hrun : defineFunction nameNode name body (linkage :: ty :: elements :: more) u with
    | ok a u'' =>
      rw [hrun] at htop
      obtain ⟨hentered', henums⟩ := hkept.of_ok hrun
      have hcurrent : u''.context.current = u'.context.current := by
        rw [Context.current, Context.namespaceOf, htop.namespaces, Context.currentId,
          hentered'.trans hentered.symm]
        rfl
      rw [← hcurrent, Namespace.enum?, henums, ← Namespace.enum?, hnone] at hsome
      cases hsome
    | error e u'' =>
      rw [hrun] at htop
      exact htop.elim
  next => exact ((Refuses.read fun _ => .read fun _ => fail_refuses _).not_ends htop).elim

/-- In every reachable unit, a definition of an enum is processed at the top level as `declareEnum`
does it: with the same result and reports, and with the same unit after it. If `declareEnum`
accepts a form, then the top level accepts it with the same namespaces, types and module exactly
if the form is the definition of an enum by its word. -/
theorem enumEntryPoints_agree_iff (h : Reachable u) (node : NodeId) :
    (u.forest.IsEnumDefinition node → processTopLevel node u = declareEnum node u) ∧
      Ends (declareEnum node) u
        (fun _ u' => Ends (processTopLevel node) u (fun _ => u'.SameTables) (fun _ => False) ↔
          u.forest.IsEnumDefinition node) fun _ => True := by
  refine ⟨processTopLevel_eq, .intro (fun a u' hrun => ⟨fun htop => ?_, fun hnode => ?_⟩)
    fun _ _ _ => trivial⟩
  · obtain ⟨head, nameNode, body, name, parts, htakes⟩ := (declareEnum_takes node u).of_ok hrun
    exact htakes.isEnumDefinition h.valid htop
  · unfold Ends
    rw [processTopLevel_eq hnode, hrun]
    exact ⟨rfl, rfl, rfl⟩

/-- The unit with the forms `(def E (enum extern int (A)))` and `(def E (union extern int (A)))` and
nothing declared. -/
def unionUnit : Compilation Unit where
  forest := ⟨#[⟨.token ⟨.symbol, ⟨1⟩⟩, .dummy⟩, ⟨.token ⟨.symbol, ⟨2⟩⟩, .dummy⟩,
    ⟨.token ⟨.symbol, ⟨3⟩⟩, .dummy⟩, ⟨.token ⟨.symbol, ⟨4⟩⟩, .dummy⟩,
    ⟨.token ⟨.symbol, ⟨5⟩⟩, .dummy⟩, ⟨.token ⟨.symbol, ⟨6⟩⟩, .dummy⟩, ⟨.list [⟨5⟩], .dummy⟩,
    ⟨.list [⟨2⟩, ⟨3⟩, ⟨4⟩, ⟨6⟩], .dummy⟩, ⟨.list [⟨0⟩, ⟨1⟩, ⟨7⟩], .dummy⟩,
    ⟨.token ⟨.symbol, ⟨7⟩⟩, .dummy⟩, ⟨.list [⟨9⟩, ⟨3⟩, ⟨4⟩, ⟨6⟩], .dummy⟩,
    ⟨.list [⟨0⟩, ⟨1⟩, ⟨10⟩], .dummy⟩],
    ⟨#["", "def", "E", "enum", "extern", "int", "A", "union"]⟩⟩
  context := .start .standard
  memory := ()
  expander := .none
  maxExpansions := 128

/-- The second form is no definition of an enum. -/
theorem not_isEnumDefinition_unionUnit : ¬ unionUnit.forest.IsEnumDefinition ⟨11⟩ := by
  rintro ⟨head, nameNode, body, name, word, parts, hitems, -, -, hbody, hword⟩
  have hnode : unionUnit.forest.items? ⟨11⟩ = some [⟨0⟩, ⟨1⟩, ⟨10⟩] := rfl
  rw [hnode] at hitems
  cases hitems
  have hlist : unionUnit.forest.items? ⟨10⟩ = some [⟨9⟩, ⟨3⟩, ⟨4⟩, ⟨6⟩] := rfl
  rw [hlist] at hbody
  cases hbody
  exact absurd hword (by decide)

/-- Both ways take the form with `enum` alike. The one with `union` is an enum to `declareEnum`, and
refused at the top level. -/
theorem disagree_unionUnit :
    Reachable unionUnit ∧
      processTopLevel ⟨8⟩ unionUnit = declareEnum ⟨8⟩ unionUnit ∧
      Ends (processTopLevel ⟨11⟩) unionUnit (fun _ _ => False) (fun _ => True) ∧
      Ends (declareEnum ⟨11⟩) unionUnit
        (fun _ u' => ¬ Ends (processTopLevel ⟨11⟩) unionUnit (fun _ => u'.SameTables)
          fun _ => False) fun _ => False := by
  have hreachable : Reachable unionUnit :=
    Reachable.forest unionUnit.forest (.start .standard .none ())
  have hdefinition : unionUnit.forest.IsEnumDefinition ⟨8⟩ :=
    ⟨⟨0⟩, ⟨1⟩, ⟨7⟩, "E", ⟨2⟩, [⟨3⟩, ⟨4⟩, ⟨6⟩], rfl, rfl, rfl, rfl, rfl⟩
  have haccepts : Ends (declareEnum ⟨11⟩) unionUnit (fun _ _ => True) fun _ => False := by
    unfold Ends
    decide +kernel
  have hrefuses : Ends (processTopLevel ⟨11⟩) unionUnit (fun _ _ => False) fun _ => True := by
    unfold Ends
    decide +kernel
  refine ⟨hreachable, (enumEntryPoints_agree_iff hreachable ⟨8⟩).1 hdefinition, hrefuses, ?_⟩
  exact (haccepts.and (enumEntryPoints_agree_iff hreachable ⟨11⟩).2).mono
    (fun _ _ h hagree => not_isEnumDefinition_unionUnit (h.2.1 hagree)) fun _ h => h.1

end Lower

end FormCompiler
