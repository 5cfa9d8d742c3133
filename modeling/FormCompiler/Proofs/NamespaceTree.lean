import FormCompiler.Proofs.Context.Tree
import FormCompiler.Proofs.Lower.Entered

/-!
# Namespaces after Runs

After any run the namespaces form a tree in which parents, children and names agree, the entered
namespaces are a way up to its root, and the type of a struct or enum leads back to it. Top-level
forms leave the entered namespaces as they were (`Run.namespaces_agree`).
-/

namespace FormCompiler.Run

variable {σ : Type} {u : Compilation σ} {options : Options} {expander : Expander σ} {memory : σ}

/-- The path of a namespace is that of its parent and its own name. -/
theorem path_eq (h : Run (.start options expander memory) u) {id : NamespaceId}
    (hid : id.index < u.context.namespaces.size) (hne : id ≠ .root) :
    ∃ (name : String) (parent : NamespaceId), parent.index < u.context.namespaces.size ∧
      (u.context.namespaceOf id).name = some name ∧
      (u.context.namespaceOf id).parent = some parent ∧
      (u.context.namespaceOf id).path = (u.context.namespaceOf parent).path ++ [name] := by
  obtain ⟨name, parent, hparent, hname, hfound, hchain⟩ := h.linked.parents id hid hne
  refine ⟨name, parent, hparent, hname, hfound, ?_⟩
  rw [Namespace.path, hchain, List.reverse_cons, Namespace.path]

/-- After a run from a unit in which nothing is declared: the chain of entered namespaces goes from
parent to parent up to the root; the path of each namespace is that of its parent and its own name,
and leads from the root to the namespace by way of children; and the types of structs and enums
stand for them, whatever namespaces are entered. Top-level forms, with success or without, end with
the same namespaces entered. -/
theorem namespaces_agree (h : Run (.start options expander memory) u) :
    (u.context.chainIds.getLast? = some .root ∧
      u.context.chainIds.IsChain fun id outer =>
        (u.context.namespaceOf id).parent = some outer) ∧
    (∀ id : NamespaceId, id.index < u.context.namespaces.size →
      if id = .root then (u.context.namespaceOf id).path = [] else
        ∃ (name : String) (parent : NamespaceId), parent.index < u.context.namespaces.size ∧
          (u.context.namespaceOf id).name = some name ∧
          (u.context.namespaceOf id).parent = some parent ∧
          (u.context.namespaceOf id).path = (u.context.namespaceOf parent).path ++ [name]) ∧
    (∀ id : NamespaceId, id.index < u.context.namespaces.size →
      u.context.descend? .root (u.context.namespaceOf id).path = some id) ∧
    (∀ id name s, (u.context.namespaceOf id).struct? name = some s →
      ∀ entered, ({ u.context with entered } : Context).structOfType? s.ty = some s) ∧
    (∀ id name e, (u.context.namespaceOf id).enum? name = some e →
      ∀ entered, ({ u.context with entered } : Context).enumOfType? e.ty = some e) ∧
    (∀ node, (final (Lower.processTopLevel node) u).context.entered = u.context.entered) ∧
    ∀ nodes, (final (Lower.processAll nodes) u).context.entered = u.context.entered := by
  refine ⟨⟨?_, h.linked.active⟩, fun id hid => ?_,
    fun id hid => h.linked.descend?_path h.valid hid,
    fun id name s hs => h.linked.structOfType?_ty h.valid hs,
    fun id name e he => h.linked.enumOfType?_ty h.valid h.laid he,
    fun node => Lower.processTopLevel_entered node u,
    fun nodes => Lower.processAll_entered nodes u⟩
  · rw [Context.chainIds, List.getLast?_append_of_ne_nil _ (List.cons_ne_nil _ _)]
    rfl
  · split
    next hroot =>
      rw [Namespace.path, hroot, h.linked.root]
      rfl
    next hne => exact h.path_eq hid hne

/-- The unit with the form `(namespace A (namespace B (def E (enum extern int (X)))))` processed and
the namespace `A` entered again. -/
def nestedUnit : Compilation Unit :=
  let u : Compilation Unit := final (Lower.processTopLevel ⟨13⟩)
    { forest := ⟨#[⟨.token ⟨.symbol, ⟨1⟩⟩, .dummy⟩, ⟨.token ⟨.symbol, ⟨2⟩⟩, .dummy⟩,
        ⟨.token ⟨.symbol, ⟨3⟩⟩, .dummy⟩, ⟨.token ⟨.symbol, ⟨4⟩⟩, .dummy⟩,
        ⟨.token ⟨.symbol, ⟨5⟩⟩, .dummy⟩, ⟨.token ⟨.symbol, ⟨6⟩⟩, .dummy⟩,
        ⟨.token ⟨.symbol, ⟨7⟩⟩, .dummy⟩, ⟨.token ⟨.symbol, ⟨8⟩⟩, .dummy⟩,
        ⟨.token ⟨.symbol, ⟨9⟩⟩, .dummy⟩, ⟨.list [⟨8⟩], .dummy⟩,
        ⟨.list [⟨5⟩, ⟨6⟩, ⟨7⟩, ⟨9⟩], .dummy⟩, ⟨.list [⟨3⟩, ⟨4⟩, ⟨10⟩], .dummy⟩,
        ⟨.list [⟨0⟩, ⟨2⟩, ⟨11⟩], .dummy⟩, ⟨.list [⟨0⟩, ⟨1⟩, ⟨12⟩], .dummy⟩],
        ⟨#["", "namespace", "A", "B", "def", "E", "enum", "extern", "int", "X"]⟩⟩
      context := .start .standard
      memory := ()
      expander := .none
      maxExpansions := 128 }
  u.withContext (Context.enter "A" u.context).2

/-- From `A` the type of the enum in the namespace inside it still leads to the enum, and the form
that declares it again, which is refused, ends in `A`. -/
theorem namespaces_agree_nestedUnit :
    Run (.start .standard .none ()) nestedUnit ∧
      (∃ e, (nestedUnit.context.namespaceOf ⟨2⟩).enum? "E" = some e ∧
        nestedUnit.context.enumOfType? e.ty = some e) ∧
      nestedUnit.context.descend? .root (nestedUnit.context.namespaceOf ⟨2⟩).path = some ⟨2⟩ ∧
      Lower.fails (Lower.processTopLevel ⟨12⟩) nestedUnit = true ∧
      (final (Lower.processTopLevel ⟨12⟩) nestedUnit).context.entered = [⟨1⟩] := by
  have hrun : Run (.start .standard .none ()) nestedUnit :=
    ((Run.refl.forest _).topLevel ⟨13⟩).enter "A"
  obtain ⟨-, -, hpaths, -, henums, hform, -⟩ := namespaces_agree hrun
  obtain ⟨e, he⟩ := Option.isSome_iff_exists.1
    (show ((nestedUnit.context.namespaceOf ⟨2⟩).enum? "E").isSome = true by decide +kernel)
  have hentered : nestedUnit.context.entered = [⟨1⟩] := by decide +kernel
  refine ⟨hrun, ⟨e, he, henums ⟨2⟩ "E" e he nestedUnit.context.entered⟩,
    hpaths ⟨2⟩ (by decide +kernel), by decide +kernel, ?_⟩
  rw [hform, hentered]

end FormCompiler.Run
