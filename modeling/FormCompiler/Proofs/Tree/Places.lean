import FormCompiler.Proofs.Tree.Building

/-!
# Lists Cover What Is Below Them

The span of a list is merged from the spans of its items, which may be lists themselves and may be
items of several lists. It is therefore the smallest span that covers the leaves below the list,
at any depth.

* `Span.Covers`, `Span.covers_mergeAll?_iff`: a span covers a merged one exactly if it covers all
  that were merged.
* `Forest.Under`, `Forest.IsLeaf`: what is below a node, and where the descent ends.
* `Forest.Merged`: every list with items has the merged span of its items.
* `Forest.Merged.covers_iff`: a span covers a node exactly if it covers the leaves below it.
-/

namespace FormCompiler

namespace Span

variable {s t u : Span}

/-- The span starts no later than the other one and stops no earlier. -/
def Covers (s t : Span) : Prop := s.start ≤ t.start ∧ t.stop ≤ s.stop

/-- A span covers a merged one exactly if it covers both parts. -/
theorem covers_merge_iff : u.Covers (s.merge t) ↔ u.Covers s ∧ u.Covers t := by
  simp only [Covers, merge]
  omega

/-- A span covers a merged one exactly if it covers all that were merged. -/
theorem covers_mergeAll?_iff {spans : List Span} (h : mergeAll? spans = some s) :
    u.Covers s ↔ ∀ t ∈ spans, u.Covers t := by
  cases spans with
  | nil => cases h
  | cons first rest =>
    obtain rfl := Option.some.inj h
    clear h
    induction rest generalizing first with
    | nil => simp
    | cons second rest ih =>
      rw [List.foldl_cons, ih, List.forall_mem_cons, covers_merge_iff]
      simp [and_assoc]

/-- Any number of spans but none can be merged. -/
theorem exists_mergeAll? (spans : List Span) (h : spans ≠ []) :
    ∃ s, mergeAll? spans = some s := by
  cases spans with
  | nil => exact absurd rfl h
  | cons first rest => exact ⟨_, rfl⟩

end Span

namespace Forest

variable {f : Forest}

/-! ## Leaves -/

/-- The first node is the second one, or an item of a list under it. -/
inductive Under (f : Forest) (part : NodeId) : NodeId → Prop where
  | self : f.Under part part
  | item {whole item : NodeId} {items : List NodeId} (kind : f.kind whole = .list items)
      (mem : item ∈ items) (under : f.Under part item) : f.Under part whole

/-- The node is a token or an empty list. -/
def IsLeaf (f : Forest) (id : NodeId) : Prop := ∀ items, f.kind id = .list items → items = []

/-- Only a leaf itself is under it. -/
theorem Under.eq_of_isLeaf {part id : NodeId} (h : f.Under part id) (hleaf : f.IsLeaf id) :
    part = id := by
  cases h with
  | self => rfl
  | item hkind hmem hunder =>
    rw [hleaf _ hkind] at hmem
    cases hmem

/-- Every list with items has the merged span of its items. -/
def Merged (f : Forest) : Prop :=
  ∀ (id : NodeId) (items : List NodeId), f.kind id = .list items → items ≠ [] →
    Span.mergeAll? (items.map f.span) = some (f.span id)

/-- A span covers a node exactly if it covers the leaves below it. -/
theorem Merged.covers_iff (h : f.Merged) (hf : f.WellBuilt) {s : Span} (id : NodeId) :
    s.Covers (f.span id) ↔ ∀ leaf, f.Under leaf id → f.IsLeaf leaf → s.Covers (f.span leaf) := by
  -- items have smaller ids than their lists
  induction hindex : id.index using Nat.strongRecOn generalizing id with
  | ind index ih =>
    subst hindex
    by_cases hid : f.IsLeaf id
    · constructor
      · intro hcovers leaf hunder _
        rwa [hunder.eq_of_isLeaf hid]
      · intro hall
        exact hall id .self hid
    · obtain ⟨items, hkind, hitems⟩ : ∃ items, f.kind id = .list items ∧ items ≠ [] := by
        simpa [IsLeaf] using hid
      rw [Span.covers_mergeAll?_iff (h id items hkind hitems), List.forall_mem_map]
      constructor
      · intro hall leaf hunder hleaf
        -- a leaf below the list is below one of its items
        cases hunder with
        | self => exact absurd hleaf hid
        | item hkind' hmem hunder =>
          cases hkind.symm.trans hkind'
          exact (ih _ (hf id items hkind _ hmem) _ rfl).1 (hall _ hmem) leaf hunder hleaf
      · intro hall item hmem
        refine (ih _ (hf id items hkind item hmem) item rfl).2 fun leaf hunder hleaf => ?_
        exact hall leaf (.item hkind hmem hunder) hleaf

/-! ## Adding nodes -/

/-- A node may be added, if a list with items has the merged span of nodes of the forest. -/
theorem Merged.push (h : f.Merged) (hf : f.WellBuilt) {node : Node}
    (hnode : ∀ items, node.kind = .list items → items ≠ [] →
      (∀ item ∈ items, item.index < f.size) ∧
        Span.mergeAll? (items.map f.span) = some node.span) :
    (f.push node).2.Merged := by
  intro id items hkind hitems
  -- older nodes keep their spans, so those of the items are merged as before
  have hspans : ∀ bound ≤ f.size, (∀ item ∈ items, item.index < bound) →
      items.map (f.push node).2.span = items.map f.span := fun bound hbound hlt =>
    List.map_congr_left fun item hitem => by
      rw [span_push, if_neg (Nat.ne_of_lt (Nat.lt_of_lt_of_le (hlt item hitem) hbound))]
  rw [kind_push] at hkind
  rw [span_push]
  split at hkind
  next hid =>
    obtain ⟨hlt, hmerged⟩ := hnode items hkind hitems
    rw [hspans _ (Nat.le_refl _) hlt, if_pos hid, hmerged]
  next hid =>
    obtain ⟨item, hitem⟩ := List.exists_mem_of_ne_nil items hitems
    have hlt := index_lt_of_mem hkind hitem
    rw [hspans _ (Nat.le_of_lt hlt) (hf id items hkind), if_neg hid]
    exact h id items hkind hitems

end Forest

end FormCompiler
