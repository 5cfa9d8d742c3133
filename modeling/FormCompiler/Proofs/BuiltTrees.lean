import FormCompiler.Proofs.Tree.Places
import FormCompiler.Proofs.Tree.Storage

/-!
# Built Trees Stay as They Were Built

Builders take over a forest one after the other. Each adds tokens and lists of nodes that are there,
its own or older ones, while others may enter texts in the table of names that it shares.

* `Forest.GrownTo`, `Forest.Keeps`: nodes and texts were added, so what was there reads as before.
* `Forest.Regular`: what every call keeps.
* `BuildCall`, `runAll`: calls of builders and sequences of them. A sequence is `Fit` if the items
  of each list are in the forest by then and no number outgrows a word.
* `BuildCall.runAllStored`: the same calls on the tables that the forest is stored in.
* `BuildCall.AnsweredBy`: what the answer of a call stands for in a forest.
* `BuildCall.Does`: what a call does.
* `BuildCall.runAll_built`: what holds after any sequence of calls.
-/

namespace FormCompiler

namespace Forest

variable {f f' f'' : Forest}

/-- Nodes and texts were added at the ends of their tables. -/
structure GrownTo (f f' : Forest) : Prop where
  nodes : Grown f.nodes f'.nodes
  texts : Grown f.names.texts f'.names.texts

/-- The nodes and names of the first forest are the same in the second one. -/
structure Keeps (f f' : Forest) : Prop where
  has : ∀ id, f.Has id → f'.Has id
  kind : ∀ id, f.Has id → f'.kind id = f.kind id
  span : ∀ id, f.Has id → f'.span id = f.span id
  text : ∀ name, f.names.Has name → f'.names.Has name ∧ f'.names.text name = f.names.text name

namespace GrownTo

/-- Nothing was added. -/
theorem refl (f : Forest) : f.GrownTo f := ⟨.refl _, .refl _⟩

/-- A forest may grow several times. -/
theorem trans (h : f.GrownTo f') (h' : f'.GrownTo f'') : f.GrownTo f'' :=
  ⟨h.nodes.trans h'.nodes, h.texts.trans h'.texts⟩

/-- One node was added. -/
theorem push (f : Forest) (node : Node) : f.GrownTo (f.push node).2 := ⟨.push _ _, .refl _⟩

/-- A text was entered. -/
theorem enter (b : Builder) (text : String) : b.forest.GrownTo (b.enter text).2.forest :=
  ⟨.refl _, Names.intern_grown _ text⟩

/-- A forest keeps what it has grown from. -/
theorem keeps (h : f.GrownTo f') : f.Keeps f' where
  has _ hid := Nat.lt_of_lt_of_le hid h.nodes.size_le
  kind _ hid := congrArg Node.kind (h.nodes.getD hid _)
  span _ hid := congrArg Node.span (h.nodes.getD hid _)
  text _ hname := Names.text_of_grown h.texts hname

end GrownTo

/-- A node that was added is in the forest. -/
theorem has_push (f : Forest) (node : Node) :
    (f.push node).2.Has ⟨f.size⟩ ∧ (f.push node).2.node ⟨f.size⟩ = node := by
  rw [node_push, if_pos rfl]
  simp [Has, push, size]

/-- Items stand before their lists, lists with items have the merged spans of the items, and no
text has two handles. -/
structure Regular (f : Forest) : Prop where
  built : f.WellBuilt
  merged : f.Merged
  distinct : Distinct f.names.texts

/-- A forest without nodes. -/
theorem regular_empty : Forest.empty.Regular where
  built := wellBuilt_empty
  merged _ _ hkind hitems := by
    obtain ⟨item, hitem⟩ := List.exists_mem_of_ne_nil _ hitems
    exact absurd (index_lt_of_mem hkind hitem) (Nat.not_lt_zero _)
  distinct i j _ hi hj := by
    have hone : ∀ {i : Nat} {text : String}, #[""][i]? = some text → i = 0 := fun h =>
      Nat.lt_one_iff.1 (Array.getElem?_eq_some_iff.1 h).1
    rw [hone hi, hone hj]

namespace Regular

/-- A text may be entered. -/
theorem enter {b : Builder} (h : b.forest.Regular) (text : String) :
    (b.enter text).2.forest.Regular :=
  ⟨h.built, h.merged, Names.distinct_intern h.distinct text⟩

/-- A node may be added, if it is a token or a list of nodes of the forest, of which a list with
items has their merged span. -/
theorem push (h : f.Regular) {node : Node}
    (hnode : ∀ items, node.kind = .list items → (∀ item ∈ items, f.Has item) ∧
      (items ≠ [] → Span.mergeAll? (items.map f.span) = some node.span)) :
    (f.push node).2.Regular where
  built := h.built.push fun items hkind => (hnode items hkind).1
  merged := h.merged.push h.built fun items hkind hitems =>
    ⟨(hnode items hkind).1, (hnode items hkind).2 hitems⟩
  distinct := h.distinct

end Regular

end Forest

/-- The first span is over before the second one starts. -/
def Span.Precedes (s t : Span) : Prop := s.start ≤ s.stop ∧ s.stop < t.start ∧ t.start ≤ t.stop

/-! ## Calls -/

/-- What is asked of builders over one forest. -/
inductive BuildCall where
  /-- A new builder takes the forest over. -/
  | restart
  /-- Someone else enters a text in the table of names. -/
  | enter (text : String)
  | token (kind : TokenKind) (text : String)
  | list (items : List NodeId)
deriving DecidableEq, Repr

/-- What a call is answered with. -/
inductive BuildAnswer where
  | ready
  | name (name : Name)
  | node (id : NodeId)
deriving DecidableEq, Repr

namespace BuildCall

/-- Makes the call. -/
def run : BuildCall → Builder → BuildAnswer × Builder
  | restart, b => (.ready, .start b.forest)
  | enter text, b => (b.enter text).map .name id
  | token kind text, b => (b.token kind text).map .node id
  | list items, b => (b.list items).map .node id

/-- Makes the call on the tables that the forest is stored in. -/
def runStored : BuildCall → Builder.Tables → Except Fault (BuildAnswer × Builder.Tables)
  | restart, tables => .ok (.ready, tables.restart)
  | enter text, tables => .ok ((tables.intern text).map .name id)
  | token kind text, tables => .ok ((tables.token kind text).map .node id)
  | list items, tables => (tables.list items).map (Prod.map .node id)

/-- The items of the list that is asked for. -/
def items : BuildCall → List NodeId
  | list items => items
  | restart | enter _ | token _ _ => []

/-- The items are nodes of the forest, and all numbers fit in words after the call. -/
def Fits (call : BuildCall) (b : Builder) : Prop :=
  (∀ item ∈ call.items, b.forest.Has item) ∧ (call.run b).2.InWords

instance (call : BuildCall) (b : Builder) : Decidable (call.Fits b) :=
  inferInstanceAs (Decidable (_ ∧ _))

/-- Makes one call after the other. -/
def runAll : List BuildCall → Builder → List BuildAnswer × Builder
  | [], b => ([], b)
  | call :: rest, b =>
    let (answer, b') := call.run b
    let (answers, b'') := runAll rest b'
    (answer :: answers, b'')

/-- Makes one call after the other on the tables. -/
def runAllStored :
    List BuildCall → Builder.Tables → Except Fault (List BuildAnswer × Builder.Tables)
  | [], tables => .ok ([], tables)
  | call :: rest, tables => do
    let (answer, tables') ← call.runStored tables
    let (answers, tables'') ← runAllStored rest tables'
    return (answer :: answers, tables'')

/-- Each call fits when it is made. -/
def Fit : List BuildCall → Builder → Prop
  | [], _ => True
  | call :: rest, b => call.Fits b ∧ Fit rest (call.run b).2

/-- The first calls of a sequence that fits fit as well. -/
theorem Fit.of_prefix {before calls : List BuildCall} {b : Builder} (h : Fit calls b)
    (hbefore : before <+: calls) : Fit before b := by
  induction before generalizing calls b with
  | nil => trivial
  | cons call before ih =>
    obtain ⟨after, rfl⟩ := hbefore
    exact ⟨h.1, ih h.2 (List.prefix_append before after)⟩

instance decidableFit : (calls : List BuildCall) → (b : Builder) → Decidable (Fit calls b)
  | [], _ => isTrue trivial
  | call :: rest, b =>
    have := decidableFit rest (call.run b).2
    inferInstanceAs (Decidable (call.Fits b ∧ Fit rest (call.run b).2))

/-- In the forest, the answer stands for what was asked for: a handle for the text, and a node for
the token of the kind and the text, or for the list of the items in their order. -/
inductive AnsweredBy (f : Forest) : BuildCall → BuildAnswer → Prop where
  | restart : AnsweredBy f .restart .ready
  | enter {text : String} {name : Name} (name_has : f.names.Has name)
    (name_text : f.names.text name = text) : AnsweredBy f (.enter text) (.name name)
  | token {kind : TokenKind} {text : String} {id : NodeId} {name : Name} (has : f.Has id)
    (token : f.kind id = .token ⟨kind, name⟩) (name_has : f.names.Has name)
    (name_text : f.names.text name = text) : AnsweredBy f (.token kind text) (.node id)
  | list {items : List NodeId} {id : NodeId} (has : f.Has id) (list : f.kind id = .list items) :
    AnsweredBy f (.list items) (.node id)

/-- The node that takes a place of its own: a token or an empty list. -/
def leaf? : BuildCall × BuildAnswer → Option NodeId
  | (token _ _, .node id) => some id
  | (list [], .node id) => some id
  | _ => none

/-! ## One call -/

/-- What a call does. Tokens and empty lists take the place at the cursor, which moves past them; a
list with items takes the place of its items. -/
inductive Does (b : Builder) : BuildCall → BuildAnswer → Builder → Prop where
  | restart : Does b .restart .ready (.start b.forest)
  | enter (text : String) : Does b (.enter text) (.name (b.enter text).1) (b.enter text).2
  | token (kind : TokenKind) (text : String) :
    Does b (.token kind text) (.node ⟨(b.enter text).2.forest.size⟩)
      ⟨((b.enter text).2.forest.push
        ⟨.token ⟨kind, (b.enter text).1⟩, b.nextSpan text.utf8ByteSize⟩).2,
        b.cursor + text.utf8ByteSize + 1⟩
  | empty :
    Does b (.list []) (.node ⟨b.forest.size⟩)
      ⟨(b.forest.push ⟨.list [], b.nextSpan 2⟩).2, b.cursor + 2 + 1⟩
  | covering {items : List NodeId} {span : Span} (nonempty : items ≠ [])
    (merged : Span.mergeAll? (items.map b.forest.span) = some span) :
    Does b (.list items) (.node ⟨b.forest.size⟩) ⟨(b.forest.push ⟨.list items, span⟩).2, b.cursor⟩

/-- Every call does one of these. -/
theorem run_does (call : BuildCall) (b : Builder) : Does b call (call.run b).1 (call.run b).2 := by
  cases call with
  | restart => exact .restart
  | enter text => exact .enter text
  | token kind text => exact .token kind text
  | list items =>
    by_cases hnonempty : items = []
    · subst hnonempty
      exact .empty
    · obtain ⟨span, hspan⟩ := Span.exists_mergeAll? (items.map b.forest.span)
        (by simpa using hnonempty)
      rw [run, Builder.list, hspan]
      exact .covering hnonempty hspan

namespace Does

variable {b b' : Builder} {call : BuildCall} {answer : BuildAnswer}

/-- Nodes and texts are only added. -/
theorem grown (h : Does b call answer b') : b.forest.GrownTo b'.forest := by
  cases h with
  | restart => exact .refl _
  | enter text => exact .enter b text
  | token kind text => exact (Forest.GrownTo.enter b text).trans (.push _ _)
  | empty => exact .push _ _
  | covering => exact .push _ _

/-- The answer stands for what was asked for. -/
theorem answered (h : Does b call answer b') : AnsweredBy b'.forest call answer := by
  cases h with
  | restart => exact .restart
  | enter text =>
    obtain ⟨hname, htext⟩ := b.forest.names.intern_stands text
    exact .enter hname htext
  | token kind text =>
    obtain ⟨hname, htext⟩ := b.forest.names.intern_stands text
    obtain ⟨hid, hnode⟩ := Forest.has_push (b.enter text).2.forest _
    exact .token hid (congrArg Node.kind hnode) hname htext
  | empty =>
    obtain ⟨hid, hnode⟩ := b.forest.has_push _
    exact .list hid (congrArg Node.kind hnode)
  | covering =>
    obtain ⟨hid, hnode⟩ := b.forest.has_push _
    exact .list hid (congrArg Node.kind hnode)

/-- The forest stays regular. -/
theorem regular (h : Does b call answer b') (hitems : ∀ item ∈ call.items, b.forest.Has item)
    (hb : b.forest.Regular) : b'.forest.Regular := by
  cases h with
  | restart => exact hb
  | enter text => exact hb.enter text
  | token kind text => exact (hb.enter text).push fun _ hkind => by cases hkind
  | empty =>
    refine hb.push fun _ hkind => ?_
    cases hkind
    exact ⟨hitems, fun hnonempty => absurd rfl hnonempty⟩
  | covering _ hmerged =>
    refine hb.push fun _ hkind => ?_
    cases hkind
    exact ⟨hitems, fun _ => hmerged⟩

/-- A leaf stands at the cursor, which is past it after the call. -/
theorem leaf (h : Does b call answer b') {id : NodeId} (hleaf : leaf? (call, answer) = some id) :
    b'.forest.Has id ∧ b.cursor = (b'.forest.span id).start ∧
      (b'.forest.span id).start ≤ (b'.forest.span id).stop ∧
      (b'.forest.span id).stop < b'.cursor := by
  cases h with
  | restart => cases hleaf
  | enter text => cases hleaf
  | token kind text =>
    cases hleaf
    obtain ⟨hid, hnode⟩ := Forest.has_push (b.enter text).2.forest _
    refine ⟨hid, ?_⟩
    rw [Forest.span, hnode]
    exact ⟨rfl, Nat.le_add_right _ _, Nat.lt_succ_self _⟩
  | empty =>
    cases hleaf
    obtain ⟨hid, hnode⟩ := b.forest.has_push _
    refine ⟨hid, ?_⟩
    rw [Forest.span, hnode]
    exact ⟨rfl, Nat.le_add_right _ _, Nat.lt_succ_self _⟩
  | @covering items _ hnonempty _ =>
    -- a list with items is no leaf
    cases items with
    | nil => exact absurd rfl hnonempty
    | cons item items => cases hleaf

/-- A builder never moves its cursor back. -/
theorem cursor_le (h : Does b call answer b') (hcall : call ≠ .restart) : b.cursor ≤ b'.cursor := by
  cases h with
  | restart => exact absurd rfl hcall
  | enter text => exact Nat.le_refl _
  | token kind text => exact Nat.le_trans (Nat.le_add_right _ _) (Nat.le_succ _)
  | empty => exact Nat.le_add_right _ 3
  | covering => exact Nat.le_refl _

end Does

/-- The tables answer as the builder does, and agree with it after the call. -/
theorem Fits.stored {call : BuildCall} {b : Builder} {tables : Builder.Tables} (hfits : call.Fits b)
    (h : b.StoredAs tables) :
    ∃ tables', call.runStored tables = .ok ((call.run b).1, tables') ∧
      (call.run b).2.StoredAs tables' := by
  obtain ⟨hitems, hwords⟩ := hfits
  cases call with
  | restart => exact ⟨_, rfl, h.restart⟩
  | enter text =>
    obtain ⟨hname, hstored⟩ := h.intern text hwords.texts
    refine ⟨_, congrArg Except.ok (Prod.ext ?_ rfl), hstored⟩
    exact congrArg BuildAnswer.name hname
  | token kind text =>
    obtain ⟨hid, hstored⟩ := h.token hwords
    refine ⟨_, congrArg Except.ok (Prod.ext ?_ rfl), hstored⟩
    exact congrArg BuildAnswer.node hid
  | list items =>
    obtain ⟨tables', hlist, hstored⟩ := h.list items hitems hwords
    refine ⟨tables', ?_, hstored⟩
    rw [runStored, hlist]
    rfl

/-- An answer stands for the same after nodes and texts were added. -/
theorem AnsweredBy.of_grown {f f' : Forest} {call : BuildCall} {answer : BuildAnswer}
    (hgrown : f.GrownTo f') (h : AnsweredBy f call answer) : AnsweredBy f' call answer := by
  have hkeeps := hgrown.keeps
  cases h with
  | restart => exact .restart
  | enter hname htext =>
    obtain ⟨hname', hsame⟩ := hkeeps.text _ hname
    exact .enter hname' (hsame.trans htext)
  | token hid htoken hname htext =>
    obtain ⟨hname', hsame⟩ := hkeeps.text _ hname
    exact .token (hkeeps.has _ hid) ((hkeeps.kind _ hid).trans htoken) hname' (hsame.trans htext)
  | list hid hlist => exact .list (hkeeps.has _ hid) ((hkeeps.kind _ hid).trans hlist)

/-! ## Sequences of calls -/

/-- Calls are made in two stretches. -/
theorem runAll_append (before after : List BuildCall) (b : Builder) :
    (runAll (before ++ after) b).2 = (runAll after (runAll before b).2).2 := by
  induction before generalizing b with
  | nil => rfl
  | cons call before ih => exact ih (call.run b).2

/-- Nodes and texts are only added. -/
theorem runAll_grown (calls : List BuildCall) (b : Builder) :
    b.forest.GrownTo (runAll calls b).2.forest := by
  induction calls generalizing b with
  | nil => exact .refl _
  | cons call rest ih => exact (run_does call b).grown.trans (ih (call.run b).2)

/-- The answers stand for what was asked for, after all calls. -/
theorem runAll_answered (calls : List BuildCall) (b : Builder) :
    calls.Forall₂ (AnsweredBy (runAll calls b).2.forest) (runAll calls b).1 := by
  induction calls generalizing b with
  | nil => exact .nil
  | cons call rest ih =>
    exact .cons ((run_does call b).answered.of_grown (runAll_grown rest _)) (ih (call.run b).2)

/-- The forest stays regular. -/
theorem runAll_regular {calls : List BuildCall} {b : Builder} (hfit : Fit calls b)
    (hb : b.forest.Regular) : (runAll calls b).2.forest.Regular := by
  induction calls generalizing b with
  | nil => exact hb
  | cons call rest ih => exact ih hfit.2 ((run_does call b).regular hfit.1.1 hb)

/-- The tables give the same answers, and agree with the builder after all calls. -/
theorem runAll_stored {calls : List BuildCall} {b : Builder} {tables : Builder.Tables}
    (hfit : Fit calls b) (h : b.StoredAs tables) :
    ∃ tables', runAllStored calls tables = .ok ((runAll calls b).1, tables') ∧
      (runAll calls b).2.StoredAs tables' := by
  induction calls generalizing b tables with
  | nil => exact ⟨tables, rfl, h⟩
  | cons call rest ih =>
    obtain ⟨tables₁, hcall, h₁⟩ := hfit.1.stored h
    obtain ⟨tables₂, hrest, h₂⟩ := ih hfit.2 h₁
    refine ⟨tables₂, ?_, h₂⟩
    simp only [runAllStored, hcall, hrest, bind, Except.bind]
    rfl

/-- The calls with their answers, of which the first was answered first. -/
theorem zip_runAll_cons (call : BuildCall) (rest : List BuildCall) (b : Builder) :
    (call :: rest).zip (runAll (call :: rest) b).1 =
      (call, (call.run b).1) :: rest.zip (runAll rest (call.run b).2).1 := rfl

/-- The leaves of one builder, up to some call, stand one after the other from its cursor on. -/
theorem runAll_spaced {calls : List BuildCall} {b : Builder} {f : Forest}
    (hgrown : (runAll calls b).2.forest.GrownTo f) {stretch : List (BuildCall × BuildAnswer)}
    (hstretch : stretch <+: calls.zip (runAll calls b).1)
    (hone : ∀ entry ∈ stretch, entry.1 ≠ .restart) :
    (stretch.filterMap leaf?).Pairwise (fun s t => (f.span s).Precedes (f.span t)) ∧
      ∀ id ∈ stretch.filterMap leaf?,
        b.cursor ≤ (f.span id).start ∧ (f.span id).start ≤ (f.span id).stop := by
  induction calls generalizing b stretch with
  | nil =>
    obtain rfl := List.prefix_nil.1 hstretch
    exact ⟨.nil, nofun⟩
  | cons call rest ih =>
    cases stretch with
    | nil => exact ⟨.nil, nofun⟩
    | cons entry stretch =>
      rw [zip_runAll_cons] at hstretch
      obtain ⟨rfl, hrest⟩ := List.cons_prefix_cons.1 hstretch
      obtain ⟨hcall, hone⟩ := List.forall_mem_cons.1 hone
      have hdoes := run_does call b
      obtain ⟨hspaced, hbehind⟩ := @ih (call.run b).2 hgrown stretch hrest hone
      have hfurther : ∀ id ∈ stretch.filterMap leaf?,
          b.cursor ≤ (f.span id).start ∧ (f.span id).start ≤ (f.span id).stop := fun id hid =>
        ⟨Nat.le_trans (hdoes.cursor_le hcall) (hbehind id hid).1, (hbehind id hid).2⟩
      rw [List.filterMap_cons]
      split
      next => exact ⟨hspaced, hfurther⟩
      next id hleaf =>
        -- what follows stands behind the cursor after this call, and so behind the leaf
        obtain ⟨hid, hstart, hupright, hstop⟩ := hdoes.leaf hleaf
        have hspan : f.span id = (call.run b).2.forest.span id :=
          ((runAll_grown rest _).trans hgrown).keeps.span id hid
        rw [← hspan] at hstart hupright hstop
        refine ⟨.cons (fun other hother => ?_) hspaced, List.forall_mem_cons.2 ⟨?_, hfurther⟩⟩
        · obtain ⟨hstart', hupright'⟩ := hbehind other hother
          exact ⟨hupright, Nat.lt_of_lt_of_le hstop hstart', hupright'⟩
        · exact ⟨Nat.le_of_eq hstart, hupright⟩

/-- So do the leaves of one builder between any two calls of it. -/
theorem runAll_spaced_between {calls : List BuildCall} {b : Builder} {f : Forest}
    (hgrown : (runAll calls b).2.forest.GrownTo f) {stretch : List (BuildCall × BuildAnswer)}
    (hstretch : stretch <:+: calls.zip (runAll calls b).1)
    (hone : ∀ entry ∈ stretch, entry.1 ≠ .restart) :
    (stretch.filterMap leaf?).Pairwise fun s t => (f.span s).Precedes (f.span t) := by
  induction calls generalizing b with
  | nil => exact (runAll_spaced hgrown (List.infix_nil.1 hstretch ▸ List.nil_prefix) hone).1
  | cons call rest ih =>
    -- the stretch starts with this call, or lies among those that follow
    rcases List.infix_cons_iff.1 hstretch with hprefix | hrest
    · exact (runAll_spaced hgrown hprefix hone).1
    · exact ih hgrown hrest

/-- What a sequence of calls leaves, in the forest and in the tables, and what its answers say. -/
structure Built (calls : List BuildCall) (answers : List BuildAnswer) (f : Forest)
    (tables : Builder.Tables) : Prop where
  /-- A list has the items that it was given, and a text is read from its handle. -/
  answered : calls.Forall₂ (AnsweredBy f) answers
  /-- Every forest on the way is kept. -/
  keeps : ∀ before, before <+: calls → (runAll before (.start .empty)).2.forest.Keeps f
  /-- A node that is read from the tables on the way, with its items, reads the same at the end. -/
  stored : ∀ before, before <+: calls → ∃ first,
    runAllStored before .start = .ok ((runAll before (.start .empty)).1, first) ∧
      ∀ id, (runAll before (.start .empty)).2.forest.Has id →
        tables.kind id = first.kind id ∧ tables.span id = first.span id
  /-- Two handles are equal exactly if their texts are. -/
  handles : ∀ m n, f.names.Has m → f.names.Has n → (f.names.text m = f.names.text n ↔ m = n)
  /-- The tokens and empty lists of one builder stand one after the other. -/
  spaced : ∀ stretch, stretch <:+: calls.zip answers → (∀ entry ∈ stretch, entry.1 ≠ .restart) →
    (stretch.filterMap leaf?).Pairwise fun s t => (f.span s).Precedes (f.span t)
  /-- A node covers the tokens and empty lists below it. -/
  covers : ∀ id leaf, f.Under leaf id → f.IsLeaf leaf → (f.span id).Covers (f.span leaf)
  /-- No smaller span covers them. -/
  smallest : ∀ id (s : Span), (∀ leaf, f.Under leaf id → f.IsLeaf leaf → s.Covers (f.span leaf)) →
    s.Covers (f.span id)

/-- After any sequence of calls on a forest that was empty, every node is still what it was made as,
with its items and its place; handles stand for one text each; the leaves of one builder stand one
after the other; and every list covers the leaves below it, and no more than that. The tables of
words give the same answers, and read as the forest. -/
theorem runAll_built {calls : List BuildCall} (hfit : Fit calls (.start .empty)) :
    ∃ tables, runAllStored calls .start = .ok ((runAll calls (.start .empty)).1, tables) ∧
      (runAll calls (.start .empty)).2.ReadsFrom tables ∧
      Built calls (runAll calls (.start .empty)).1 (runAll calls (.start .empty)).2.forest
        tables := by
  obtain ⟨tables, htables, hstored⟩ := runAll_stored hfit .start
  have hreads := hstored.readsFrom
  have hregular := runAll_regular hfit Forest.regular_empty
  have hkeeps : ∀ before, before <+: calls → (runAll before (.start .empty)).2.forest.Keeps
      (runAll calls (.start .empty)).2.forest := by
    rintro before ⟨after, rfl⟩
    rw [runAll_append]
    exact (runAll_grown after _).keeps
  refine ⟨tables, htables, hreads, ?_⟩
  exact {
    answered := runAll_answered calls _
    keeps := hkeeps
    stored := fun before hbefore => by
      obtain ⟨first, hfirst, hfirstStored⟩ := runAll_stored (hfit.of_prefix hbefore) .start
      have hfirstReads := hfirstStored.readsFrom
      refine ⟨first, hfirst, fun id hid => ?_⟩
      -- both tables read as their forests, and the later forest keeps the earlier one
      obtain ⟨hhas, hkind, hspan, -⟩ := hkeeps before hbefore
      rw [hreads.kind id (hhas id hid), hreads.span id (hhas id hid), hkind id hid, hspan id hid,
        hfirstReads.kind id hid, hfirstReads.span id hid]
      exact ⟨rfl, rfl⟩
    handles := fun m n hm hn => Names.text_inj hregular.distinct hm hn
    spaced := fun stretch hstretch hone => runAll_spaced_between (.refl _) hstretch hone
    covers := fun id =>
      (hregular.merged.covers_iff hregular.built id).1 ⟨Nat.le_refl _, Nat.le_refl _⟩
    smallest := fun id s => (hregular.merged.covers_iff hregular.built id).2 }

/-- Two builders: the second one takes items of the first one, which stand before and after its own
token, and a list takes a node twice. -/
theorem built_sharedItems :
    let calls := [token .symbol "add", list [], token .string "", list [⟨2⟩, ⟨1⟩], enter "λ",
      list [⟨3⟩, ⟨0⟩, ⟨3⟩], restart, token .integer "12", token .symbol "λ", list [⟨4⟩, ⟨5⟩],
      token .symbol "add"]
    let answers := [.node ⟨0⟩, .node ⟨1⟩, .node ⟨2⟩, .node ⟨3⟩, .name ⟨2⟩, .node ⟨4⟩, .ready,
      .node ⟨5⟩, .node ⟨6⟩, .node ⟨7⟩, .node ⟨8⟩]
    let b := (runAll calls (.start .empty)).2
    Fit calls (.start .empty) ∧ (runAll calls (.start .empty)).1 = answers ∧
      (List.range 9).map (fun index => b.forest.span ⟨index⟩) =
        [⟨1, 4⟩, ⟨5, 7⟩, ⟨8, 8⟩, ⟨5, 8⟩, ⟨1, 8⟩, ⟨1, 3⟩, ⟨4, 6⟩, ⟨1, 8⟩, ⟨7, 10⟩] ∧
      (∃ tables, runAllStored calls .start = .ok ((runAll calls (.start .empty)).1, tables) ∧
        b.ReadsFrom tables ∧ Built calls (runAll calls (.start .empty)).1 b.forest tables) :=
  ⟨by decide +kernel, by decide +kernel, by decide +kernel, runAll_built (by decide +kernel)⟩

end BuildCall

end FormCompiler
