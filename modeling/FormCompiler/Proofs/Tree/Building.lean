import FormCompiler.Lower.Rules
import FormCompiler.Proofs.Step
import FormCompiler.Proofs.Tree.Interning

/-!
# Forests Built of Earlier Nodes

What adds nodes to a forest adds the parts of a list before the list, so every item of a list has a
smaller id than the list. It enters the names of tokens in the table of names.

* `Forest.WellBuilt.pushToken`, `Forest.WellBuilt.pushList`: adding a node.
* `Template.add_adds`: adding the tree of a template, even if an argument is missed.
* `Rule.expander_adds`: the expanders given by rules.
-/

namespace FormCompiler

/-- The handle of a text is in the table that it was entered in, and no handle is lost. -/
theorem Names.intern_lt (names : Names) (text : String) :
    (names.intern text).1.index < (names.intern text).2.size ∧
      names.size ≤ (names.intern text).2.size :=
  ⟨(names.intern_stands text).1, (names.intern_grown text).size_le⟩

namespace Forest

variable {f : Forest}

/-- The names of tokens are in the table. -/
def Named (f : Forest) : Prop :=
  ∀ node ∈ f.nodes, ∀ token, node.kind = .token token → token.text.index < f.names.size

/-- A token may be added under a name that is entered in the table. -/
theorem Named.pushToken (h : f.Named) (kind : TokenKind) (text : String) (span : Span) :
    (f.pushToken kind text span).2.Named := by
  obtain ⟨hentered, hkept⟩ := f.names.intern_lt text
  intro node hnode token htoken
  rcases Array.mem_push.1 hnode with hold | rfl
  · exact Nat.lt_of_lt_of_le (h node hold token htoken) hkept
  · cases htoken
    exact hentered

/-- A list has no name. -/
theorem Named.pushList (h : f.Named) (items : List NodeId) (span : Span) :
    (f.pushList items span).2.Named := by
  intro node hnode token htoken
  rcases Array.mem_push.1 hnode with hold | rfl
  · exact h node hold token htoken
  · cases htoken

/-- A forest without nodes. -/
theorem wellBuilt_empty : Forest.empty.WellBuilt := by
  rintro ⟨index⟩ items h item hitem
  simp only [Forest.empty, kind, node, Array.getD_eq_getD_getElem?, Array.getElem?_empty,
    Option.getD_none] at h
  cases h
  cases hitem

/-- The nodes of a forest to which another one was added. -/
theorem node_push (f : Forest) (node : Node) (id : NodeId) :
    (f.push node).2.node id = if id.index = f.size then node else f.node id := by
  simp only [push, Forest.node, size, Array.getD_eq_getD_getElem?, Array.getElem?_push]
  split <;> rfl

/-- What they are. -/
theorem kind_push (f : Forest) (node : Node) (id : NodeId) :
    (f.push node).2.kind id = if id.index = f.size then node.kind else f.kind id := by
  rw [kind, node_push, apply_ite Node.kind, kind]

/-- Where they stand. -/
theorem span_push (f : Forest) (node : Node) (id : NodeId) :
    (f.push node).2.span id = if id.index = f.size then node.span else f.span id := by
  rw [span, node_push, apply_ite Node.span, span]

/-- A node may be added after its items. -/
theorem WellBuilt.push (h : f.WellBuilt) {node : Node}
    (hitems : ∀ items, node.kind = .list items → ∀ item ∈ items, item.index < f.size) :
    (f.push node).2.WellBuilt := by
  intro id items hkind item hitem
  rw [kind_push] at hkind
  split at hkind
  next hid => exact hid ▸ hitems items hkind item hitem
  next => exact h id items hkind item hitem

/-- A token may be added. -/
theorem WellBuilt.pushToken (h : f.WellBuilt) (kind : TokenKind) (text : String) (span : Span) :
    (f.pushToken kind text span).2.WellBuilt :=
  WellBuilt.push (f := ⟨f.nodes, (f.names.intern text).2⟩) h fun _ hkind => by cases hkind

/-- A list may be added after its items. -/
theorem WellBuilt.pushList (h : f.WellBuilt) {items : List NodeId}
    (hitems : ∀ item ∈ items, item.index < f.size) (span : Span) :
    (f.pushList items span).2.WellBuilt :=
  h.push fun _ hkind => by
    cases hkind
    exact hitems

/-- A list that has items is in the forest. -/
theorem index_lt_of_mem {id : NodeId} {items : List NodeId} (h : f.kind id = .list items)
    {item : NodeId} (hitem : item ∈ items) : id.index < f.size := by
  refine Nat.lt_of_not_le fun hge => ?_
  rw [kind, node, Array.getD_eq_getD_getElem?, Array.getElem?_eq_none hge] at h
  cases h
  cases hitem

/-- The items of a list, of a node in any shape. -/
theorem items?_eq_some {id : NodeId} {items : List NodeId} :
    f.items? id = some items ↔ f.kind id = .list items := by
  unfold items?
  cases f.kind id <;> simp

/-- The items of a list are in the forest. -/
theorem WellBuilt.items_lt (h : f.WellBuilt) {id : NodeId} {items : List NodeId}
    (hitems : f.items? id = some items) : ∀ item ∈ items, item.index < f.size := by
  intro item hitem
  have hkind := items?_eq_some.1 hitems
  exact Nat.lt_trans (h id items hkind item hitem) (index_lt_of_mem hkind hitem)

/-- It is enough to look at the nodes of the forest. -/
theorem wellBuilt_iff : f.WellBuilt ↔ ∀ index : Fin f.size,
    ∀ item ∈ (f.items? ⟨index⟩).getD [], item.index < index := by
  constructor
  · intro h index item hitem
    cases hitems : f.items? ⟨index⟩ with
    | none =>
      rw [hitems] at hitem
      cases hitem
    | some items =>
      rw [hitems] at hitem
      exact h ⟨index⟩ items (items?_eq_some.1 hitems) item hitem
  · intro h id items hkind item hitem
    refine h ⟨id.index, index_lt_of_mem hkind hitem⟩ item ?_
    rw [items?_eq_some.2 hkind]
    exact hitem

instance (f : Forest) : Decidable f.WellBuilt := decidable_of_iff _ wellBuilt_iff.symm

end Forest

namespace Template

/-- Nodes are only added. They keep the forest built of earlier nodes and names in the table. -/
structure Adds (f f' : Forest) : Prop where
  built : f'.WellBuilt
  size : f.size ≤ f'.size
  named : f.Named → f'.Named

namespace Adds

variable {f f' f'' : Forest}

/-- No node may be added. -/
theorem refl (hf : f.WellBuilt) : Adds f f := ⟨hf, Nat.le_refl _, id⟩

/-- Nodes may be added several times. -/
theorem trans (h : Adds f f') (h' : Adds f' f'') : Adds f f'' :=
  ⟨h'.built, Nat.le_trans h.size h'.size, h'.named ∘ h.named⟩

/-- A token may be added. -/
theorem pushToken (hf : f.WellBuilt) (kind : TokenKind) (text : String) (span : Span) :
    Adds f (f.pushToken kind text span).2 ∧
      (f.pushToken kind text span).1.index < (f.pushToken kind text span).2.size := by
  refine ⟨⟨hf.pushToken _ _ _, ?_, fun h => h.pushToken _ _ _⟩, ?_⟩ <;>
    simp [Forest.pushToken, Forest.push, Forest.size]

/-- A list of nodes of the forest may be added. -/
theorem pushList (hf : f.WellBuilt) {items : List NodeId}
    (hitems : ∀ item ∈ items, item.index < f.size) (span : Span) :
    Adds f (f.pushList items span).2 ∧
      (f.pushList items span).1.index < (f.pushList items span).2.size := by
  refine ⟨⟨hf.pushList hitems _, ?_, fun h => h.pushList _ _⟩, ?_⟩ <;>
    simp [Forest.pushList, Forest.push, Forest.size]

/-- What is in the forest stays there. -/
theorem below {ids : List NodeId} (h : Adds f f') (hids : ∀ id ∈ ids, id.index < f.size) :
    ∀ id ∈ ids, id.index < f'.size := fun id hid =>
  Nat.lt_of_lt_of_le (hids id hid) h.size

end Adds

/-- From a builder, the step adds nodes; those it returns are in the forest, and so it is if it
stops. -/
def AddsNodes (x : Build (List NodeId)) (b : Builder) : Prop :=
  Ends x b (fun ids b' => Adds b.forest b'.forest ∧ ∀ id ∈ ids, id.index < b'.forest.size)
    fun b' => Adds b.forest b'.forest

section

variable {b : Builder}

/-- Adding a token. -/
theorem token_adds (hb : b.forest.WellBuilt) (consecutive : Bool) (kind : TokenKind) (text : String)
    (place : Option Span) :
    Ends (Build.token consecutive kind text place) b
      (fun id b' => Adds b.forest b'.forest ∧ id.index < b'.forest.size) fun _ => False := by
  unfold Build.token
  split <;> exact Adds.pushToken hb kind text _

/-- Adding a list of nodes of the forest. -/
theorem list_adds (hb : b.forest.WellBuilt) (consecutive : Bool) {items : List NodeId}
    (hitems : ∀ item ∈ items, item.index < b.forest.size) (place : Option Span) :
    Ends (Build.list consecutive items place) b
      (fun id b' => Adds b.forest b'.forest ∧ id.index < b'.forest.size) fun _ => False := by
  unfold Build.list
  split
  · unfold Build.adding Builder.list Ends
    dsimp only
    split <;> exact Adds.pushList hb hitems _
  · exact Adds.pushList hb hitems _

/-- Repeating a step that adds nodes. -/
theorem repeated_adds {step : Build (List NodeId)} (size : Nat)
    (hstep : ∀ b : Builder, b.forest.WellBuilt → size ≤ b.forest.size → AddsNodes step b)
    (count : Nat) (done : List (List NodeId)) (hb : b.forest.WellBuilt)
    (hsize : size ≤ b.forest.size)
    (hdone : ∀ ids ∈ done, ∀ id ∈ ids, id.index < b.forest.size) :
    Ends (Build.repeated step count done) b
      (fun all b' => Adds b.forest b'.forest ∧ ∀ ids ∈ all, ∀ id ∈ ids, id.index < b'.forest.size)
      fun b' => Adds b.forest b'.forest := by
  induction count generalizing b done with
  | zero => exact .pure ⟨.refl hb, hdone⟩
  | succ count ih =>
    refine Ends.bind (hstep b hb hsize) fun ids b' h => ?_
    obtain ⟨hadds, hids⟩ := h
    refine (ih (ids :: done) hadds.built (Nat.le_trans hsize hadds.size) ?_).mono
      (fun _ _ h => ⟨hadds.trans h.1, h.2⟩) fun _ h => hadds.trans h
    intro other hother
    rcases List.mem_cons.1 hother with rfl | hother
    · exact hids
    · exact hadds.below (hdone other hother)

/-- Wrapping nodes into lists. -/
theorem wrapAll_adds (consecutive : Bool) (levels : List (List NodeId)) {inner : List NodeId}
    (hb : b.forest.WellBuilt) (hlevels : ∀ ids ∈ levels, ∀ id ∈ ids, id.index < b.forest.size)
    (hinner : ∀ id ∈ inner, id.index < b.forest.size) :
    AddsNodes (Build.wrapAll consecutive levels inner) b := by
  induction levels generalizing b inner with
  | nil => exact .pure ⟨.refl hb, hinner⟩
  | cons level levels ih =>
    have hitems : ∀ item ∈ level ++ inner, item.index < b.forest.size := fun item hitem =>
      (List.mem_append.1 hitem).elim (hlevels level List.mem_cons_self item) (hinner item)
    refine (list_adds hb consecutive hitems none).andThen (fun _ h => h.elim) fun id b' h => ?_
    obtain ⟨hadds, hid⟩ := h
    refine (ih hadds.built (fun ids hids => hadds.below (hlevels ids (List.mem_cons_of_mem _ hids)))
      (by simpa using hid)).mono (fun _ _ h => ⟨hadds.trans h.1, h.2⟩) fun _ h => hadds.trans h

end

section

variable (consecutive : Bool) {arguments : List NodeId}

mutual

/-- The tree of a template is added after its parts. -/
theorem build_adds (t : Template) (b : Builder) (hb : b.forest.WellBuilt)
    (hargs : ∀ id ∈ arguments, id.index < b.forest.size) :
    AddsNodes (build consecutive arguments t) b := by
  match t with
  | .token kind text place =>
    exact (token_adds hb consecutive kind text place).andThen (fun _ h => h.elim)
      fun id b' h => .pure ⟨h.1, by simpa using h.2⟩
  | .list items place =>
    refine Ends.bind (buildAll_adds items b hb hargs) fun ids b' h => ?_
    exact (list_adds h.1.built consecutive h.2 place).andThen (fun _ h => h.elim)
      fun id b'' h' => .pure ⟨h.1.trans h'.1, by simpa using h'.2⟩
  | .nest leading count inner =>
    -- each level is built over the same arguments, which stay below as the forest grows
    refine Ends.bind (repeated_adds b.forest.size (fun b' hb' hsize =>
      buildAll_adds leading b' hb' fun id hid => Nat.lt_of_lt_of_le (hargs id hid) hsize) count []
      hb (Nat.le_refl _) nofun) fun levels b₁ h₁ => ?_
    refine ((build_adds inner b₁ h₁.1.built (h₁.1.below hargs)).mono (fun _ _ h => h)
      fun _ h => h₁.1.trans h).bind fun ids b₂ h₂ => ?_
    exact (wrapAll_adds consecutive levels h₂.1.built
      (fun ids hids => h₂.1.below (h₁.2 ids hids)) h₂.2).mono
      (fun _ _ h => ⟨(h₁.1.trans h₂.1).trans h.1, h.2⟩) fun _ h => (h₁.1.trans h₂.1).trans h
  | .argument index =>
    unfold build
    split
    next id hid =>
      refine .pure ⟨.refl hb, ?_⟩
      simpa using hargs id (List.mem_of_getElem? hid)
    next => exact .throw (.refl hb)
  | .rest index =>
    exact .pure ⟨.refl hb, fun id hid => hargs id (List.mem_of_mem_drop hid)⟩

/-- The trees of several templates are added from left to right. -/
theorem buildAll_adds (ts : List Template) (b : Builder) (hb : b.forest.WellBuilt)
    (hargs : ∀ id ∈ arguments, id.index < b.forest.size) :
    AddsNodes (buildAll consecutive arguments ts) b := by
  match ts with
  | [] => exact .pure ⟨.refl hb, nofun⟩
  | t :: ts =>
    refine Ends.bind (build_adds t b hb hargs) fun ids b₁ h₁ => ?_
    refine ((buildAll_adds ts b₁ h₁.1.built (h₁.1.below hargs)).mono (fun _ _ h => h)
      fun _ h => h₁.1.trans h).bind fun others b₂ h₂ => ?_
    refine .pure ⟨h₁.1.trans h₂.1, fun id hid => ?_⟩
    exact (List.mem_append.1 hid).elim (h₂.1.below h₁.2 id) (h₂.2 id)

end

end

/-- Adding the tree of a template. -/
theorem add_adds (t : Template) {arguments : List NodeId} {f : Forest} (hf : f.WellBuilt)
    (hargs : ∀ id ∈ arguments, id.index < f.size) :
    Ends (add arguments t) f (fun id f' => Adds f f' ∧ id.index < f'.size) (Adds f) := by
  have hbuild := build_adds true t (Builder.start f) hf hargs
  unfold Ends add
  dsimp only
  cases hrun : build true arguments t (Builder.start f) with
  | ok ids b =>
    obtain ⟨hadds, hids⟩ := hbuild.of_ok hrun
    match ids with
    | id :: _ => exact ⟨hadds, hids id List.mem_cons_self⟩
    | [] =>
      have hnone : ∀ item ∈ ([] : List NodeId), item.index < b.forest.size := nofun
      obtain ⟨hlist, hid⟩ := Adds.pushList hadds.built hnone .dummy
      exact ⟨hadds.trans hlist, hid⟩
  | error missing b => exact hbuild.of_error hrun

end Template

/-- The expander of a list of rules only adds nodes, and a tree that it answers with is there. -/
theorem Rule.expander_adds (rules : List Rule) (memory : PUnit) {f : Forest} (node : NodeId)
    (hf : f.WellBuilt) :
    Template.Adds f (expander rules memory f node).2.2 ∧ (node.index < f.size →
      ∀ result, (expander rules memory f node).1 = .expanded result →
        result.index < (expander rules memory f node).2.2.size) := by
  unfold expander
  split
  next => exact ⟨.refl hf, nofun⟩
  next items hitems =>
    split
    next => exact ⟨.refl hf, nofun⟩
    next rule _ =>
      unfold apply
      cases rule.action with
      | refuse detail => exact ⟨.refl hf, nofun⟩
      | keep =>
        refine ⟨.refl hf, fun hnode => ?_⟩
        rintro _ ⟨⟩
        exact hnode
      | replace template =>
        have hargs : ∀ id ∈ items.tail, id.index < f.size := fun id hid =>
          hf.items_lt hitems id (List.mem_of_mem_tail hid)
        have hadd := Template.add_adds template hf hargs
        dsimp only
        cases hrun : template.add items.tail f with
        | ok result f' =>
          obtain ⟨hadds, hresult⟩ := hadd.of_ok hrun
          refine ⟨hadds, fun _ => ?_⟩
          rintro _ ⟨⟩
          exact hresult
        | error missing f' => exact ⟨hadd.of_error hrun, nofun⟩

/-- Forests stay built of earlier nodes when the expander adds to them. -/
def Expander.Builds {σ : Type} (expander : Expander σ) : Prop :=
  ∀ memory forest node, forest.WellBuilt → (expander memory forest node).2.2.WellBuilt

/-- The expander of a list of rules keeps forests built of earlier nodes. -/
theorem Rule.expander_builds (rules : List Rule) : (Rule.expander rules).Builds :=
  fun memory _ node hf => (Rule.expander_adds rules memory node hf).1.built

end FormCompiler
