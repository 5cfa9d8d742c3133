import FormCompiler.Tree.Builder
import FormCompiler.Proofs.Bounds.Tree
import FormCompiler.Proofs.Tree.Interning

/-!
# Trees in Words of 32 Bits

What a builder works on is stored in tables: the heads of the nodes, the cells with the items of
all lists one after the other, the texts, and a map from texts to their handles. Ids, handles,
places and the start and number of a list's cells are words of 32 bits. A number that is too large
for a word is stored as the greatest one.

As long as the numbers fit, the tables answer as the builder does, and a node is read from its head
and its cells as what it is in the forest.

* `Builder.Tables`, with `Tables.intern`, `Tables.token` and `Tables.list`: the tables and what
  fills them.
* `Builder.InWords`: every number fits.
* `Builder.StoredAs`: tables and builder agree, which each call keeps (`StoredAs.intern`,
  `StoredAs.token`, `StoredAs.list`).
* `Builder.ReadsFrom`: what is read from the tables.
-/

namespace FormCompiler

/-- How many words of 32 bits there are. -/
def wordCount : Nat := 4294967296

/-- The word for a number: itself if it fits, otherwise the greatest one. -/
def word (n : Nat) : Nat := min n (wordCount - 1)

/-- A number that fits is stored as it is. -/
theorem word_eq {n : Nat} (h : n < wordCount) : word n = n :=
  Nat.min_eq_left (Nat.le_sub_one_of_lt h)

namespace Builder

/-- What a builder works on, as it is stored. -/
structure Tables where
  /-- The heads of the nodes, and the items of all lists. -/
  nodes : Packed StoredNode NodeId
  /-- The texts by their handles. -/
  texts : Array String
  /-- The handles of the texts, the latest one first. -/
  names : List (String × Name)
  /-- The place of the next token. -/
  cursor : Nat

namespace Tables

/-- No node, and the empty text alone. -/
def start : Tables := ⟨⟨#[], #[]⟩, #[""], [("", ⟨0⟩)], 1⟩

/-- A new builder takes the tables over. -/
def restart (tables : Tables) : Tables := { tables with cursor := 1 }

/-- The handle of a text, which is entered if it is new. -/
def intern (tables : Tables) (text : String) : Name × Tables :=
  match tables.names.lookup text with
  | some name => (name, tables)
  | none =>
    let name : Name := ⟨word tables.texts.size⟩
    (name, { tables with texts := tables.texts.push text, names := (text, name) :: tables.names })

/-- The span of a token of this many bytes at the cursor. -/
def nextSpan (tables : Tables) (length : Nat) : Span :=
  ⟨tables.cursor, word (tables.cursor + word length)⟩

/-- Moves the cursor past a span and one byte further. -/
def past (tables : Tables) (span : Span) : Tables := { tables with cursor := word (span.stop + 1) }

/-- Adds a head, which is told where its cells start, and the cells. -/
def push (tables : Tables) (head : Nat → StoredNode) (cells : List NodeId) : NodeId × Tables :=
  (⟨word tables.nodes.heads.size⟩,
    { tables with nodes := tables.nodes.push (fun start => head (word start)) cells })

/-- Adds a token at the cursor. -/
def token (tables : Tables) (kind : TokenKind) (text : String) : NodeId × Tables :=
  let span := tables.nextSpan text.utf8ByteSize
  let (name, tables) := (tables.past span).intern text
  tables.push (fun _ => .token ⟨kind, name⟩ span) []

/-- Where a node stands. -/
def span (tables : Tables) (id : NodeId) : Except Fault Span :=
  (readAt tables.nodes.heads id.index).map (·.span)

/-- Token or list, with the items from the cells. -/
def kind (tables : Tables) (id : NodeId) : Except Fault NodeKind := do
  match ← readAt tables.nodes.heads id.index with
  | .token token _ => return .token token
  | .list start count _ => return .list (← cellsAt tables.nodes.cells start count)

/-- Adds a list that covers its items; an empty one stands at the cursor. -/
def list (tables : Tables) (items : List NodeId) : Except Fault (NodeId × Tables) := do
  let head (span : Span) (start : Nat) : StoredNode := .list start (word items.length) span
  match Span.mergeAll? (← items.mapM tables.span) with
  | some span => return tables.push (head span) items
  | none =>
    let span := tables.nextSpan 2
    return (tables.past span).push (head span) items

end Tables

/-! ## Numbers that fit -/

/-- The cursor and the numbers of nodes, items and texts fit in words. -/
@[mk_iff]
structure InWords (b : Builder) : Prop where
  cursor : b.cursor < wordCount
  nodes : b.forest.size < wordCount
  items : b.forest.packed.cells.size < wordCount
  texts : b.forest.names.size < wordCount

instance (b : Builder) : Decidable b.InWords := decidable_of_iff _ (inWords_iff b).symm

/-- A builder after a text was entered by someone else. -/
def enter (b : Builder) (text : String) : Name × Builder :=
  let (name, names) := b.forest.names.intern text
  (name, ⟨⟨b.forest.nodes, names⟩, b.cursor⟩)

/-! ## Agreement -/

/-- The tables hold what the builder has. -/
structure StoredAs (b : Builder) (tables : Tables) : Prop where
  nodes : tables.nodes = b.forest.packed
  texts : tables.texts = b.forest.names.texts
  names : ∀ text, tables.names.lookup text = b.forest.names.find? text
  cursor : tables.cursor = b.cursor

namespace StoredAs

variable {b : Builder} {tables : Tables}

/-- Nothing is stored at first but the empty text. -/
theorem start : (Builder.start .empty).StoredAs .start := by
  refine ⟨rfl, rfl, fun text => ?_, rfl⟩
  by_cases htext : text = ""
  · subst htext
    simp [Builder.start, Tables.start, Forest.empty, Names.empty, Names.find?]
  · have hne : ("" == text) = false := beq_eq_false_iff_ne.2 (Ne.symm htext)
    simp [Builder.start, Tables.start, Forest.empty, Names.empty, Names.find?, htext, hne]

/-- A new builder takes over. -/
theorem restart (h : b.StoredAs tables) : (Builder.start b.forest).StoredAs tables.restart :=
  ⟨h.nodes, h.texts, h.names, rfl⟩

/-- A text gets the same handle. -/
theorem intern (h : b.StoredAs tables) (text : String)
    (hwords : (b.enter text).2.forest.names.size < wordCount) :
    (tables.intern text).1 = (b.enter text).1 ∧
      (b.enter text).2.StoredAs (tables.intern text).2 := by
  have hsize : b.forest.names.size < wordCount :=
    Nat.lt_of_le_of_lt (Names.intern_lt _ text).2 hwords
  unfold Tables.intern enter
  rw [h.names, h.texts]
  cases hfind : b.forest.names.find? text with
  | some name =>
    have hsame : b.forest.names.intern text = (name, b.forest.names) := by
      rw [Names.intern, hfind]
    rw [hsame]
    exact ⟨rfl, h⟩
  | none =>
    have hnew : b.forest.names.intern text =
        (⟨b.forest.names.size⟩, ⟨b.forest.names.texts.push text⟩) := by
      rw [Names.intern, hfind]
    have hword : word b.forest.names.texts.size = b.forest.names.size := word_eq hsize
    rw [hword]
    refine ⟨by rw [hnew], h.nodes, by rw [hnew], fun other => ?_, h.cursor⟩
    rw [Names.find?_intern hfind, List.lookup_cons, h.names]
    by_cases heq : other = text
    · simp [heq]
    · simp [heq, beq_eq_false_iff_ne.2 heq]

/-- The span of the next token is the same. -/
theorem nextSpan (h : b.StoredAs tables) {length : Nat}
    (hwords : b.cursor + length + 1 < wordCount) :
    tables.nextSpan length = b.nextSpan length := by
  rw [Tables.nextSpan, Builder.nextSpan, h.cursor, word_eq (by omega : length < wordCount),
    word_eq (by omega)]

/-- The cursor moves alike. -/
theorem past (h : b.StoredAs tables) (span : Span) (hwords : span.stop + 1 < wordCount) :
    (Builder.mk b.forest (span.stop + 1)).StoredAs (tables.past span) :=
  ⟨h.nodes, h.texts, h.names, word_eq hwords⟩

/-- A node is added under the same id, if its head is the same. -/
theorem push (h : b.StoredAs tables) (node : Node) {head : Nat → StoredNode}
    (hhead : ∀ start, head start = node.head start)
    (hwords : (Builder.mk (b.forest.push node).2 b.cursor).InWords) :
    (tables.push head node.cells).1 = (b.forest.push node).1 ∧
      (Builder.mk (b.forest.push node).2 b.cursor).StoredAs (tables.push head node.cells).2 := by
  have hpacked : (b.forest.push node).2.packed = b.forest.packed.push node.head node.cells :=
    pack_push Node.head Node.cells b.forest.nodes node
  -- the numbers before fit, since those after do
  have hnodes : b.forest.size < wordCount := by
    have hafter := hwords.nodes
    simp only [Forest.push, Forest.size, Array.size_push] at hafter
    exact Nat.lt_of_succ_lt hafter
  have hcells : b.forest.packed.cells.size < wordCount := by
    have hafter := hwords.items
    simp only [hpacked, Packed.push, Array.size_append] at hafter
    omega
  have hsize : b.forest.packed.heads.size = b.forest.size := size_pack _ _ b.forest.nodes.toList
  refine ⟨?_, ?_, h.texts, h.names, h.cursor⟩
  · rw [Tables.push, h.nodes, hsize, word_eq hnodes, Forest.push]
  · rw [hpacked, Tables.push, h.nodes]
    simp only [Packed.push, word_eq hcells, hhead]

/-- A token is added alike. -/
theorem token (h : b.StoredAs tables) {kind : TokenKind} {text : String}
    (hwords : (b.token kind text).2.InWords) :
    (tables.token kind text).1 = (b.token kind text).1 ∧
      (b.token kind text).2.StoredAs (tables.token kind text).2 := by
  have hcursor : b.cursor + text.utf8ByteSize + 1 < wordCount := hwords.cursor
  have hspan := h.nextSpan hcursor
  -- the cursor moves, then the text is entered, then the node is added under its handle
  obtain ⟨hname, hstored⟩ :=
    (h.past (b.nextSpan text.utf8ByteSize) hcursor).intern text hwords.texts
  rw [Tables.token, hspan]
  dsimp only
  rw [hname]
  exact hstored.push _ (fun _ => rfl) hwords

/-- The spans of nodes in the forest are read from their heads. -/
theorem span (h : b.StoredAs tables) {id : NodeId} (hid : b.forest.Has id) :
    tables.span id = .ok (b.forest.span id) := by
  rw [Tables.span, h.nodes]
  exact Forest.Checked.span_eq hid

/-- A list is added alike. -/
theorem pushList (h : b.StoredAs tables) {items : List NodeId} {span : Span}
    (hwords : (Builder.mk (b.forest.pushList items span).2 b.cursor).InWords) :
    (tables.push (fun start => .list start (word items.length) span) items).1 =
        (b.forest.pushList items span).1 ∧
      (Builder.mk (b.forest.pushList items span).2 b.cursor).StoredAs
        (tables.push (fun start => .list start (word items.length) span) items).2 := by
  -- the items are among the cells, so their number fits as well
  have hlength : items.length < wordCount := by
    have hafter := hwords.items
    simp only [Forest.packed_pushList, Packed.push, Array.size_append, List.size_toArray] at hafter
    omega
  exact h.push ⟨.list items, span⟩ (fun start => by rw [word_eq hlength, Node.head]) hwords

/-- A list of nodes of the forest is added alike, and all its items are found. -/
theorem list (h : b.StoredAs tables) (items : List NodeId)
    (hitems : ∀ item ∈ items, b.forest.Has item) (hwords : (b.list items).2.InWords) :
    ∃ tables', tables.list items = .ok ((b.list items).1, tables') ∧
      (b.list items).2.StoredAs tables' := by
  have hspans : items.mapM tables.span = .ok (items.map b.forest.span) :=
    mapM_eq fun item hitem => h.span (hitems item hitem)
  unfold Builder.list at hwords ⊢
  unfold Tables.list
  rw [hspans]
  simp only [bind, Except.bind]
  cases hmerged : Span.mergeAll? (items.map b.forest.span) with
  | some span =>
    rw [hmerged] at hwords
    obtain ⟨hid, hstored⟩ := h.pushList hwords
    exact ⟨_, congrArg Except.ok (Prod.ext hid rfl), hstored⟩
  | none =>
    rw [hmerged] at hwords
    have hcursor : b.cursor + 2 + 1 < wordCount := hwords.cursor
    obtain ⟨hid, hstored⟩ := (h.past (b.nextSpan 2) hcursor).pushList hwords
    dsimp only
    rw [h.nextSpan hcursor]
    exact ⟨_, congrArg Except.ok (Prod.ext hid rfl), hstored⟩

end StoredAs

/-- What is read of nodes and names in the tables is what the forest says of them. -/
structure ReadsFrom (b : Builder) (tables : Tables) : Prop where
  stored : b.StoredAs tables
  kind : ∀ id, b.forest.Has id → tables.kind id = .ok (b.forest.kind id)
  span : ∀ id, b.forest.Has id → tables.span id = .ok (b.forest.span id)
  text : ∀ name, b.forest.names.Has name →
    readAt tables.texts name.index = .ok (b.forest.names.text name)

/-- Tables that agree with a builder are read as its forest. -/
theorem StoredAs.readsFrom {b : Builder} {tables : Tables} (h : b.StoredAs tables) :
    b.ReadsFrom tables where
  stored := h
  kind id hid := by
    rw [Tables.kind, h.nodes]
    exact Forest.Checked.kind_eq hid
  span _ hid := h.span hid
  text name hname := by
    rw [readAt_ok_iff, h.texts]
    exact Names.getElem?_eq_some_iff.2 ⟨hname, rfl⟩

end Builder

end FormCompiler
