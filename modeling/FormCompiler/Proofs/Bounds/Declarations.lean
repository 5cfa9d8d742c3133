import FormCompiler.Lower.TopLevel
import FormCompiler.Proofs.Bounds.Expression

/-!
# Declarations of Types Stay in Bounds

The declarations of enums and structs with their accesses checked. The body of a declaration is a
list whose parts are taken by position after they were counted; its first item is the word of the
declaration.

The range of the members of a signed enum takes the number of bits less one; there is a bit.
-/

namespace FormCompiler

/-! ## The range of members -/

namespace Checked

/-- The least and the greatest value of an integer type, as far as members can have them. -/
def memberRange (bits : Nat) (signed : Bool) : Except Fault (Int × Int) := do
  if signed then
    if 128 ≤ bits then return (minMember, maxMember)
    else
      let exponent ← minus bits 1
      return (-Int.pow 2 exponent, Int.pow 2 exponent - 1)
  else if 127 ≤ bits then return (0, maxMember)
  else return (0, Int.pow 2 bits - 1)

/-- The builder without members for an enum over an integer type. -/
def startEnum (bits : Nat) (signed : Bool) : Except Fault EnumBuilder := do
  let (least, greatest) ← memberRange bits signed
  return ⟨#[], 0, least, greatest⟩

theorem memberRange_eq {bits : Nat} (hbits : 1 ≤ bits) (signed : Bool) :
    memberRange bits signed = .ok (FormCompiler.memberRange bits signed) := by
  unfold memberRange FormCompiler.memberRange
  rw [minus_eq hbits]
  cases signed with
  | true => by_cases h : 128 ≤ bits <;> simp [h, bind, Except.bind, pure, Except.pure]
  | false => by_cases h : 127 ≤ bits <;> simp [h, pure, Except.pure]

theorem startEnum_eq {bits : Nat} (hbits : 1 ≤ bits) (signed : Bool) :
    startEnum bits signed = .ok (EnumBuilder.start bits signed) := by
  rw [startEnum, memberRange_eq hbits]
  rfl

end Checked

namespace Lower.Checked

open FormCompiler.Checked (refuse demand free startEnum startEnum_eq)

variable {σ α β : Type} {u : Compilation σ} {node : NodeId} {frame : Frame} {b : Ir.BlockId}

/-! ## Enums -/

/-- Whether a type has signed values. -/
def isSigned (t : TypeId) : Checked Halt (Compilation σ) Bool :=
  read fun c => Pool.Checked.has c.pool t .isSigned

theorem isSigned_run {t : TypeId} (ht : u.context.pool.Has t) :
    isSigned t u = .ok (u.context.pool.isSigned t) u :=
  read_run (Pool.Checked.has_eq ht _)

/-- Reports an integer that is not a value of the type under an enum. -/
def failOutOfRange (node : NodeId) (text : String) (underlying : TypeId) :
    Checked Halt (Compilation σ) α := do
  fail (Report.literalOutOfRange (← span node) text (← typeName underlying))

theorem failOutOfRange_passes (hnode : u.forest.Has node) (text : String) {underlying : TypeId}
    (hunderlying : u.context.pool.Has underlying) {Q : α → Compilation σ → Prop} :
    Passes (failOutOfRange node text underlying) (Lower.failOutOfRange node text underlying) u Q :=
  .given fun hu => .read (span_reads hnode) (.read (typeName_reads hu hunderlying) fail_passes)

/-- Reports an element that is none. -/
def failElement (node : NodeId) : Checked Halt (Compilation σ) α := do
  fail (Report.unexpectedElement (← span node) "symbol or (symbol integer)" "enum elements"
    (← display node))

theorem failElement_passes (hnode : u.forest.Has node) {Q : α → Compilation σ → Prop} :
    Passes (failElement node) (Lower.failElement node) u Q :=
  .given fun hu => .read (span_reads hnode) (.read (display_reads hu hnode) fail_passes)

/-- The builder with a member added, or the report of why it was refused. -/
def memberAdded (outcome : Except MemberError EnumBuilder) (node : NodeId) (name : String)
    (underlying : TypeId) : Checked Halt (Compilation σ) EnumBuilder := do
  match outcome with
  | .ok builder => return builder
  | .error .duplicate => fail (Report.redeclaration .elementRedeclared (← span node) name)
  | .error (.outOfRange value) => failOutOfRange node (toString value) underlying

theorem memberAdded_passes (outcome : Except MemberError EnumBuilder) (name : String)
    {underlying : TypeId} (hnode : u.forest.Has node)
    (hunderlying : u.context.pool.Has underlying) :
    Passes (memberAdded outcome node name underlying)
      (Lower.memberAdded outcome node name underlying) u fun _ _ => True := by
  match outcome with
  | .ok builder => exact .pure trivial
  | .error .duplicate => exact .read (span_reads hnode) fail_passes
  | .error (.outOfRange value) => exact failOutOfRange_passes hnode _ hunderlying

/-- The value of a constant as a member can have it. -/
def constMember? (ir : Ir.Module) (signed : Bool) (v : Ir.ValueId) : Except Fault (Option Int) := do
  if signed then Ir.Checked.constIntValue? ir v
  else return ((← Ir.Checked.constRaw? ir v).map Int.ofNat).filter (· ≤ maxMember)

theorem constMember?_eq {ir : Ir.Module} (hir : ir.InBounds) (signed : Bool) {v : Ir.ValueId}
    (hv : ir.HasValue v) : constMember? ir signed v = .ok (if signed then ir.constIntValue? v
      else ((ir.constRaw? v).map Int.ofNat).filter (· ≤ maxMember)) := by
  cases signed with
  | true => exact Ir.Checked.constIntValue?_eq hir hv
  | false =>
    simp only [constMember?, Ir.Checked.constRaw?_eq hv]
    rfl

/-- The value of the literal of a member, read at the type under the enum. -/
def memberLiteral (node : NodeId) (text : String) (underlying : TypeId) :
    Checked Halt (Compilation σ) Int := do
  let signed ← isSigned underlying
  let ty ← backendType underlying
  match ← onContext (Context.Checked.attempt (Ir.Checked.constIntOfText ty signed text)) with
  | .ok v => do
    match ← read fun c => constMember? c.ir signed v with
    | some value => return value
    | none => failOutOfRange node text underlying
  | .error (.literalOutOfRange _ _) => failOutOfRange node text underlying
  | .error _ => do
    fail (Report.unexpectedElement (← span node) "integer literal" "enum element" text)

theorem memberLiteral_passes (text : String) {underlying : TypeId} (hnode : u.forest.Has node)
    (hunderlying : u.context.pool.Has underlying) :
    Passes (memberLiteral node text underlying) (Lower.memberLiteral node text underlying) u
      fun _ _ => True := by
  refine .checkedRead (isSigned_run hunderlying) (.plainRead rfl ?_)
  refine (backendType_passes hunderlying).bind fun ty u₁ hu₁ hty => ?_
  refine (onContext_passes (Context.Checked.attempt_passes
    (Ir.Checked.constIntOfText_passes hty _ text))).bind fun outcome u₂ hu₂ hv => ?_
  have hu₂' := (hu₁.trans hu₂).grows
  have hnode₂ := hu₂'.has hnode
  have hunderlying₂ := hu₂'.context.pool.has hunderlying
  cases outcome with
  | ok v =>
    have hrest : ∀ value? : Option Int, Passes
        (match value? with
          | some value => pure value
          | none => failOutOfRange node text underlying)
        (match value? with
          | some value => pure value
          | none => Lower.failOutOfRange node text underlying) u₂ fun _ _ => True := by
      intro value?
      cases value? with
      | some value => exact .pure trivial
      | none => exact failOutOfRange_passes hnode₂ text hunderlying₂
    exact .plainRead rfl (.checkedRead
      (read_run (constMember?_eq hu₂.inBounds.context.ir _ (hv v rfl))) (hrest _))
  | error e =>
    cases e with
    | literalOutOfRange _ _ => exact failOutOfRange_passes hnode₂ text hunderlying₂
    | _ => exact .read (span_reads hnode₂) fail_passes

/-- The name, the node of the value and its text, if a list is a symbol and an integer. -/
def explicitMember? (items : List NodeId) :
    Checked Halt (Compilation σ) (Option (String × NodeId × String)) := do
  match items with
  | [nameNode, valueNode] =>
    match ← symbol? nameNode, ← kind valueNode with
    | some name, .token ⟨.integer, literal⟩ =>
      -- the node of the value is taken from the list a second time
      return some (name, ← demand (itemAt items 1), ← text literal)
    | _, _ => return none
  | _ => return none

theorem explicitMember?_run (hu : u.InBounds) {items : List NodeId}
    (hitems : ∀ n ∈ items, u.forest.Has n) :
    explicitMember? items u = .ok (Lower.explicitMember? u.forest items) u := by
  match items with
  | [] | [_] | _ :: _ :: _ :: _ => rfl
  | [nameNode, valueNode] =>
    have hname := hitems nameNode List.mem_cons_self
    have hvalue := hitems valueNode (by simp)
    refine (bind_run (symbol?_reads hu hname).1).trans ((bind_run (kind_run hvalue)).trans ?_)
    unfold Lower.explicitMember?
    dsimp only
    cases u.forest.symbol? nameNode with
    | none => rfl
    | some name =>
      cases hkind : u.forest.kind valueNode with
      | list _ => rfl
      | token token =>
        obtain ⟨kind, literal⟩ := token
        cases kind with
        | integer => exact bind_run (text_run (hu.forest.name_lt hvalue hkind))
        | _ => rfl

/-- The node of an explicit value is an item of its element. -/
theorem mem_of_explicitMember {f : Forest} {items : List NodeId} {name text : String}
    {valueNode : NodeId} (h : Lower.explicitMember? f items = some (name, valueNode, text)) :
    valueNode ∈ items := by
  unfold Lower.explicitMember? at h
  split at h
  · split at h
    · obtain ⟨rfl, rfl, rfl⟩ : _ = name ∧ _ = valueNode ∧ _ = text := by simpa using h
      simp
    · cases h
  · cases h

/-- Adds the member of an element. -/
def element (underlying : TypeId) (left : Nat)
    (again : EnumBuilder → NodeId → Checked Halt (Compilation σ) EnumBuilder)
    (builder : EnumBuilder) (node : NodeId) : Checked Halt (Compilation σ) EnumBuilder := do
  match ← kind node with
  | .token ⟨.symbol, name⟩ => do
    let name ← text name
    memberAdded (builder.addAuto name) node name underlying
  | .token _ => failElement node
  | .list items =>
    match ← explicitMember? items with
    | some (name, valueNode, text) => do
      let value ← memberLiteral valueNode text underlying
      memberAdded (builder.add name value) node name underlying
    | none => do
      match ← tryExpand left node with
      | some result => again builder result
      | none => failElement node

/-- Adds the member of an element, with a number of expansions left. -/
def elementWith (underlying : TypeId) :
    (left : Nat) → EnumBuilder → NodeId → Checked Halt (Compilation σ) EnumBuilder
  | 0 => element underlying 0 fun _ _ => refuse .unfinished
  | left + 1 => element underlying (left + 1) (elementWith underlying left)

/-- Adds the members of several elements. -/
def elements (underlying : TypeId) :
    EnumBuilder → List NodeId → Checked Halt (Compilation σ) EnumBuilder
  | builder, [] => return builder
  | builder, node :: nodes => do
    let limit := (← get).maxExpansions
    let builder ← elementWith underlying limit builder node
    elements underlying builder nodes

/-- In units that have the type under the enum, the checked way to add the member of an element
passes. -/
def ElementPasses (underlying : TypeId)
    (g : EnumBuilder → NodeId → Checked Halt (Compilation σ) EnumBuilder)
    (x : EnumBuilder → NodeId → Lower σ EnumBuilder) : Prop :=
  ∀ (u : Compilation σ) (builder : EnumBuilder) (node : NodeId), u.context.pool.Has underlying →
    u.forest.Has node → Passes (g builder node) (x builder node) u fun _ _ => True

theorem element_passes {underlying : TypeId} {left : Nat}
    {g : EnumBuilder → NodeId → Checked Halt (Compilation σ) EnumBuilder}
    {x : EnumBuilder → NodeId → Lower σ EnumBuilder} (hagain : ElementPasses underlying g x) :
    ElementPasses underlying (element underlying left g) (Lower.element underlying left x) := by
  intro u builder node hunderlying hnode
  refine .given fun hu => .checkedRead (kind_run hnode) (.plainRead rfl ?_)
  cases hkind : u.forest.kind node with
  | token token =>
    obtain ⟨kind, name⟩ := token
    dsimp only
    cases kind with
    | symbol =>
      exact .checkedRead (text_run (hu.forest.name_lt hnode hkind))
        (memberAdded_passes _ _ hnode hunderlying)
    | _ => exact failElement_passes hnode
  | list items =>
    have hitems := hu.forest.has_items hnode hkind
    dsimp only
    refine .checkedRead (explicitMember?_run hu hitems) ?_
    cases hexplicit : Lower.explicitMember? u.forest items with
    | some found =>
      obtain ⟨name, valueNode, text⟩ := found
      have hvalueNode := hitems valueNode (mem_of_explicitMember hexplicit)
      refine (memberLiteral_passes text hvalueNode hunderlying).bind fun value u₁ hu₁ _ => ?_
      exact memberAdded_passes _ name (hu₁.grows.has hnode)
        (hu₁.grows.context.pool.has hunderlying)
    | none =>
      refine (tryExpand_passes left hnode).bind fun expansion u₁ hu₁ hexpansion => ?_
      cases expansion with
      | some result =>
        exact hagain u₁ builder result (hu₁.grows.context.pool.has hunderlying)
          (hexpansion result rfl)
      | none => exact failElement_passes (hu₁.grows.has hnode)

theorem elementWith_passes (underlying : TypeId) (left : Nat) :
    ElementPasses (σ := σ) underlying (elementWith underlying left)
      (Lower.elementWith underlying left) := by
  induction left with
  | zero => exact element_passes fun _ _ _ _ _ => .refused rfl
  | succ left ih => exact element_passes ih

theorem elements_passes {underlying : TypeId} (builder : EnumBuilder) {nodes : List NodeId}
    (hunderlying : u.context.pool.Has underlying) (hnodes : ∀ n ∈ nodes, u.forest.Has n) :
    Passes (elements underlying builder nodes) (Lower.elements underlying builder nodes) u
      fun _ _ => True := by
  induction nodes generalizing u builder with
  | nil => exact .pure trivial
  | cons node nodes ih =>
    obtain ⟨hnode, hnodes⟩ := List.forall_mem_cons.1 hnodes
    refine .get ((elementWith_passes underlying _ u builder node hunderlying hnode).bind
      fun builder u₁ hu₁ _ => ?_)
    exact ih builder (hu₁.grows.context.pool.has hunderlying)
      fun n hn => hu₁.grows.has (hnodes n hn)

/-- Registers an enum, its backing struct and its functions in the current namespace. -/
def registerEnum (name : String) (builder : EnumBuilder) (linkage : Ir.Linkage)
    (underlying : TypeId) (nameSpan bodySpan : Span) : Checked Halt Context PUnit := do
  let ns ← demand (Context.Checked.current (← get))
  if (ns.enum? name).isSome then
    Context.Checked.fail (Report.redeclaration .enumRedeclared nameSpan name)
  else if (ns.struct? name).isSome then
    Context.Checked.fail (Report.redeclaration .structRedeclared nameSpan name)
  else
    let member ← Context.Checked.backendType underlying
    let symbol ← demand (Context.Checked.structSymbol (← get) name)
    let refusal (e : Ir.Error) : Diagnostic :=
      match e with
      | .duplicateSymbol _ => Report.redeclaration .structRedeclared nameSpan name
      | e => Report.backendError nameSpan e.message
    let backing ← Context.Checked.emitOr refusal (Ir.Checked.namedStruct symbol [member])
    let path := (← demand (Context.Checked.current (← get))).path
    let onceTag := (← get).onceTag
    let enumTy ← Context.Checked.intern (.enum name path)
    let structTy ← Context.Checked.intern (.struct name path)
    Context.Checked.setLayout enumTy backing
    Context.Checked.setLayout structTy backing
    let _ ← Context.Checked.addEnum name (builder.finish linkage onceTag enumTy underlying)
    let _ ← Context.Checked.addStruct name
      ⟨linkage, onceTag, structTy, backing, symbol, [("_enum_value", underlying)]⟩
    Context.Checked.defineEnumFunctions name enumTy underlying linkage bodySpan

theorem registerEnum_passes {c : Context} (name : String) (builder : EnumBuilder)
    (linkage : Ir.Linkage) {underlying : TypeId} (nameSpan bodySpan : Span)
    (hunderlying : c.pool.Has underlying) :
    Passes (registerEnum name builder linkage underlying nameSpan bodySpan)
      (Lower.registerEnum name builder linkage underlying nameSpan bodySpan) c fun _ _ => True := by
  refine .given fun hc => .get (.look (Context.Checked.current_eq hc) ?_)
  refine .ite (fun _ => Context.Checked.fail_passes) fun _ => .plainRead rfl ?_
  refine .ite (fun _ => Context.Checked.fail_passes) fun _ => ?_
  refine (Context.Checked.backendType_passes hunderlying).bind fun member c₁ hc₁ hmember => ?_
  refine .get (.look (Context.Checked.structSymbol_eq hc₁.inBounds name) ?_)
  refine (Context.Checked.emitOr_passes _ (Ir.Checked.namedStruct_passes _
    (by simpa using hmember))).bind fun backing c₂ hc₂ hbacking => ?_
  refine .get (.look (Context.Checked.current_eq hc₂.inBounds) (.get ?_))
  refine (Context.Checked.intern_passes (by simp)).bind fun enumTy c₃ hc₃ henum => ?_
  refine (Context.Checked.intern_passes (by simp)).bind fun structTy c₄ hc₄ hstruct => ?_
  have henum₄ := hc₄.grows.pool.has henum
  have hbacking₄ := (hc₃.trans hc₄).grows.ir.hasTy hbacking
  refine (Context.Checked.setLayout_passes henum₄ hbacking₄).bind fun _ c₅ hc₅ _ => ?_
  have hstruct₅ := hc₅.grows.pool.has hstruct
  have hbacking₅ := hc₅.grows.ir.hasTy hbacking₄
  refine (Context.Checked.setLayout_passes hstruct₅ hbacking₅).bind fun _ c₆ hc₆ _ => ?_
  have hunderlying₄ := (((hc₁.trans hc₂).trans hc₃).trans hc₄).grows.pool.has hunderlying
  have hunderlying₆ := (hc₅.trans hc₆).grows.pool.has hunderlying₄
  have henum₆ := (hc₅.trans hc₆).grows.pool.has henum₄
  refine (Context.Checked.addEnum_passes name ⟨henum₆, hunderlying₆⟩).bind fun _ c₇ hc₇ _ => ?_
  have hunderlying₇ := hc₇.grows.pool.has hunderlying₆
  refine (Context.Checked.addStruct_passes name ⟨(hc₆.trans hc₇).grows.pool.has hstruct₅,
    (hc₆.trans hc₇).grows.ir.hasTy hbacking₅, by simpa using hunderlying₇⟩).bind
      fun _ c₈ hc₈ _ => ?_
  exact Context.Checked.defineEnumFunctions_passes name linkage bodySpan
    ((hc₇.trans hc₈).grows.pool.has henum₆) (hc₈.grows.pool.has hunderlying₇)

/-- Declares an enum from its linkage, type and elements. What stands after the elements is
ignored. -/
def defineEnum (nameNode : NodeId) (name : String) (body : NodeId) (parts : List NodeId) :
    Checked Halt (Compilation σ) PUnit := do
  expectAtLeast body "enum" (parts.length - 1) 3
  let linkage ← expectLinkage (← demand (itemAt parts 1))
  let tyNode ← demand (itemAt parts 2)
  let underlying ← resolveType tyNode
  if (← read fun c => Pool.Checked.has c.pool underlying .isInteger) = false then
    fail (Report.enumTypeNotInteger (← span tyNode) (← typeName underlying))
  else
    let elementNodes ← expectList (← demand (itemAt parts 3)) "enum elements"
    match ← read fun c => Pool.Checked.intWidth? c.pool underlying with
    | none => fail (Report.internalError (← span tyNode) "integer type without a width")
    | some bits => do
      let signed ← isSigned underlying
      let start ← demand (startEnum bits signed)
      let builder ← elements underlying start elementNodes
      let nameSpan ← span nameNode
      let bodySpan ← span body
      onContext (registerEnum name builder linkage underlying nameSpan bodySpan)

theorem defineEnum_passes {nameNode body : NodeId} (name : String) {parts : List NodeId}
    (hnameNode : u.forest.Has nameNode) (hbody : u.forest.Has body)
    (hparts : ∀ n ∈ parts, u.forest.Has n) :
    Passes (defineEnum nameNode name body parts) (Lower.defineEnum nameNode name body parts.tail) u
      fun _ _ => True := by
  match parts with
  | [] | [_] | [_, _] | [_, _, _] => exact expect_unmet hbody (by simp)
  | _ :: linkageNode :: tyNode :: elementsNode :: _ =>
    have htyNode := hparts tyNode (by simp)
    refine expect_met (by simp) (.look rfl ?_)
    refine (expectLinkage_passes (hparts linkageNode (by simp))).bind ?_
    rintro linkage _ - rfl
    refine .look rfl ((resolveType_passes htyNode).bind fun underlying u₁ hu₁ hunderlying => ?_)
    have htyNode₁ := hu₁.grows.has htyNode
    refine .checkedRead (read_run (Pool.Checked.has_eq hunderlying _))
      (.plainRead rfl (.ite (fun _ => ?_) fun _ => ?_))
    · exact .read (span_reads htyNode₁)
        (.read (typeName_reads hu₁.inBounds hunderlying) fail_passes)
    · have helementsNode₁ := hu₁.grows.has (hparts elementsNode (by simp))
      refine .look rfl ((expectList_passes _ helementsNode₁).bind ?_)
      rintro elementNodes _ - ⟨rfl, helements⟩
      refine .checkedRead (read_run (Pool.Checked.intWidth?_eq hunderlying)) (.plainRead rfl ?_)
      cases hbits : u₁.context.pool.intWidth? underlying with
      | none => exact .read (span_reads htyNode₁) fail_passes
      | some bits =>
        have hpositive := hu₁.inBounds.context.pool.one_le_intWidth hbits
        refine .checkedRead (isSigned_run hunderlying) (.plainRead rfl ?_)
        refine .look (startEnum_eq hpositive _) ?_
        refine (elements_passes _ hunderlying helements).bind fun builder u₂ hu₂ _ => ?_
        have hu₂' := (hu₁.trans hu₂).grows
        refine .read (span_reads (hu₂'.has hnameNode)) (.read (span_reads (hu₂'.has hbody)) ?_)
        exact onContext_passes (registerEnum_passes name builder linkage _ _
          (hu₂.grows.context.pool.has hunderlying))

/-! ## Structs -/

/-- The name and type of each of several pairs, whose names must differ from each other and from
those of `done`. `what` names a pair in reports. -/
def typedNames (what : String) (done : List (String × TypeId)) :
    List NodeId → Checked Halt (Compilation σ) (List (String × TypeId))
  | [] => return done.reverse
  | node :: nodes => do
    let pair ← expectList node what
    expectCount node what (pair.length - 1) 1
    let nameNode ← demand (itemAt pair 0)
    let name ← expectSymbol nameNode (what ++ " name")
    if done.any fun d => d.1 == name then
      fail (Report.redeclaration .variableRedeclared (← span nameNode) name)
    else
      let t ← resolveType (← demand (itemAt pair 1))
      typedNames what ((name, t) :: done) nodes

theorem typedNames_passes (what : String) {done : List (String × TypeId)} {nodes : List NodeId}
    (hdone : ∀ d ∈ done, u.context.pool.Has d.2) (hnodes : ∀ n ∈ nodes, u.forest.Has n) :
    Passes (typedNames what done nodes) (Lower.typedNames what done nodes) u
      fun pairs u' => ∀ p ∈ pairs, u'.context.pool.Has p.2 := by
  induction nodes generalizing u done with
  | nil => exact .pure fun p hp => hdone p (List.mem_reverse.1 hp)
  | cons node nodes ih =>
    obtain ⟨hnode, hnodes⟩ := List.forall_mem_cons.1 hnodes
    refine (expectList_passes what hnode).bind ?_
    rintro pair _ - ⟨rfl, hpair⟩
    match pair with
    | [] | [_] | _ :: _ :: _ :: _ => exact expect_unmet hnode (by simp)
    | [nameNode, tyNode] =>
      have hnameNode := hpair nameNode List.mem_cons_self
      refine expect_met rfl (.look rfl ((expectSymbol_passes _ hnameNode).bind ?_))
      rintro name _ - rfl
      refine .ite (fun _ => .read (span_reads hnameNode) fail_passes) fun _ => .look rfl ?_
      refine (resolveType_passes (hpair tyNode (by simp))).bind fun t u₁ hu₁ ht => ?_
      refine ih (List.forall_mem_cons.2 ⟨ht, fun d hd => ?_⟩) fun n hn =>
        hu₁.grows.has (hnodes n hn)
      exact hu₁.grows.context.pool.has (hdone d hd)

/-- Registers a struct in the module, the pool and the current namespace. -/
def registerStruct (name : String) (members : List (String × TypeId)) (linkage : Ir.Linkage)
    (nameSpan : Span) : Checked Halt Context PUnit := do
  let redeclared := Report.redeclaration .structRedeclared nameSpan name
  let ns ← demand (Context.Checked.current (← get))
  if (ns.struct? name).isSome then
    Context.Checked.fail redeclared
  else
    let layout ← Context.Checked.backendTypes (members.map (·.2))
    let symbol ← demand (Context.Checked.structSymbol (← get) name)
    let refusal (e : Ir.Error) : Diagnostic :=
      match e with
      | .duplicateSymbol _ => redeclared
      | e => Report.backendError nameSpan e.message
    let backend ← Context.Checked.emitOr refusal (Ir.Checked.namedStruct symbol layout)
    let path := (← demand (Context.Checked.current (← get))).path
    let onceTag := (← get).onceTag
    let t ← Context.Checked.intern (.struct name path)
    Context.Checked.setLayout t backend
    let _ ← Context.Checked.addStruct name ⟨linkage, onceTag, t, backend, symbol, members⟩

theorem registerStruct_passes {c : Context} (name : String) {members : List (String × TypeId)}
    (linkage : Ir.Linkage) (nameSpan : Span) (hmembers : ∀ m ∈ members, c.pool.Has m.2) :
    Passes (registerStruct name members linkage nameSpan)
      (Lower.registerStruct name members linkage nameSpan) c fun _ _ => True := by
  refine .given fun hc => .get (.look (Context.Checked.current_eq hc) ?_)
  refine .ite (fun _ => Context.Checked.fail_passes) fun _ => ?_
  refine (Context.Checked.backendTypes_passes (List.forall_mem_map.2 hmembers)).bind
    fun layout c₁ hc₁ ⟨_, hlayout⟩ => ?_
  refine .get (.look (Context.Checked.structSymbol_eq hc₁.inBounds name) ?_)
  refine (Context.Checked.emitOr_passes _ (Ir.Checked.namedStruct_passes _ hlayout)).bind
    fun backend c₂ hc₂ hbackend => ?_
  refine .get (.look (Context.Checked.current_eq hc₂.inBounds) (.get ?_))
  refine (Context.Checked.intern_passes (by simp)).bind fun t c₃ hc₃ ht => ?_
  have hbackend₃ := hc₃.grows.ir.hasTy hbackend
  refine (Context.Checked.setLayout_passes ht hbackend₃).bind fun _ c₄ hc₄ _ => ?_
  have hc₄' := ((hc₁.trans hc₂).trans hc₃).trans hc₄
  exact (Context.Checked.addStruct_passes name ⟨hc₄.grows.pool.has ht, hc₄.grows.ir.hasTy hbackend₃,
    fun m hm => hc₄'.grows.pool.has (hmembers m hm)⟩).bind fun _ _ _ _ => .pure trivial

/-- Declares a struct from its linkage and members. -/
def defineStruct (nameNode : NodeId) (name : String) (body : NodeId) (parts : List NodeId) :
    Checked Halt (Compilation σ) PUnit := do
  expectCount body "struct" (parts.length - 1) 2
  let linkage ← expectLinkage (← demand (itemAt parts 1))
  let memberNodes ← expectList (← demand (itemAt parts 2)) "struct members"
  let members ← typedNames "struct member" [] memberNodes
  let nameSpan ← span nameNode
  onContext (registerStruct name members linkage nameSpan)

theorem defineStruct_passes {nameNode body : NodeId} (name : String) {parts : List NodeId}
    (hnameNode : u.forest.Has nameNode) (hbody : u.forest.Has body)
    (hparts : ∀ n ∈ parts, u.forest.Has n) :
    Passes (defineStruct nameNode name body parts)
      (Lower.defineStruct nameNode name body parts.tail) u fun _ _ => True := by
  match parts with
  | [] | [_] | [_, _] | _ :: _ :: _ :: _ :: _ => exact expect_unmet hbody (by simp)
  | [_, linkageNode, membersNode] =>
    refine expect_met rfl (.look rfl ?_)
    refine (expectLinkage_passes (hparts linkageNode (by simp))).bind ?_
    rintro linkage _ - rfl
    refine .look rfl ((expectList_passes _ (hparts membersNode (by simp))).bind ?_)
    rintro memberNodes _ - ⟨rfl, hmemberNodes⟩
    refine (typedNames_passes "struct member" (by simp) hmemberNodes).bind
      fun members u₁ hu₁ hmembers => .read (span_reads (hu₁.grows.has hnameNode)) ?_
    exact onContext_passes (registerStruct_passes name linkage _ hmembers)

end Lower.Checked

end FormCompiler
