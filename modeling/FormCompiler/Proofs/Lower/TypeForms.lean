import FormCompiler.Proofs.Lower.Declarations

/-!
# Forms of Types

What the forms in the header of a declaration stand for, without reference to how they are read: a
symbol stands for the type it is looked up as, a list of `p` or `pointer` and a form for the
pointers to what that form stands for (`Forest.Denotes`), and pairs of a name and such a form for
named types (`Forest.Lists`). Reading them gives what they stand for and enters types at most,
whether it succeeds or not (`resolveType_denotes`, `typedNames_lists`).
-/

namespace FormCompiler

namespace Ir.Module

/-- At most unnamed types were added. -/
structure OnlyTypes (m m' : Module) : Prop extends Still m m' where
  sameValues : m'.values = m.values

instance : Std.Refl OnlyTypes := ⟨fun m => ⟨.refl m, rfl⟩⟩

instance : IsTrans Module OnlyTypes where
  trans _ _ _ h h' := ⟨h.toStill.trans h'.toStill, h'.sameValues.trans h.sameValues⟩

end Ir.Module

/-- At most types were entered and errors reported: types of the source, and unnamed types of the
module. -/
structure Compilation.OnlyTypes {σ : Type} (u u' : Compilation σ) : Prop where
  same : u' = u.withContext u'.context
  within : u.context.Within Pool.Extends Ir.Module.OnlyTypes u'.context

namespace Compilation.OnlyTypes

variable {σ : Type} {u u' : Compilation σ}

instance : Std.Refl (OnlyTypes (σ := σ)) := ⟨fun _ => ⟨rfl, Std.Refl.refl _⟩⟩

instance : IsTrans (Compilation σ) OnlyTypes where
  trans _ _ _ h h' := ⟨by rw [h'.same, h.same]; rfl, IsTrans.trans _ _ _ h.within h'.within⟩

/-- A change of the context alone. -/
theorem of_context {c : Context} (h : u.context.Within Pool.Extends Ir.Module.OnlyTypes c) :
    u.OnlyTypes (u.withContext c) := ⟨rfl, h⟩

/-- The forms are the same. -/
theorem forest (h : u.OnlyTypes u') : u'.forest = u.forest := by rw [h.same]; rfl

end Compilation.OnlyTypes

/-! ## What forms stand for -/

/-- The type that a form stands for. -/
inductive Forest.Denotes (f : Forest) (c : Context) : NodeId → TypeId → Prop
  | name {node : NodeId} {name : String} {t : TypeId} (symbol : f.symbol? node = some name)
      (lookup : c.lookupType? name = some t) : Denotes f c node t
  | pointer {node head inner : NodeId} {word : String} {pointee t : TypeId}
      (items : f.items? node = some [head, inner]) (symbol : f.symbol? head = some word)
      (isPointer : word = "p" ∨ word = "pointer") (denotes : Denotes f c inner pointee)
      (type : c.pool.types[t.index]? = some (.pointer pointee)) : Denotes f c node t

/-- A pair of a name and the form of a type. -/
def Forest.Names (f : Forest) (c : Context) (node : NodeId) (named : String × TypeId) : Prop :=
  ∃ nameNode tyNode, f.items? node = some [nameNode, tyNode] ∧
    f.symbol? nameNode = some named.1 ∧ f.Denotes c tyNode named.2

/-- Pairs of a name and the form of a type, in order and with names that differ. -/
structure Forest.Lists (f : Forest) (c : Context) (nodes : List NodeId)
    (named : List (String × TypeId)) : Prop where
  each : List.Forall₂ (f.Names c) nodes named
  distinct : (named.map (·.1)).Nodup

namespace Context.Within

variable {P : Pool → Pool → Prop} {R : Ir.Module → Ir.Module → Prop} {c c' : Context}

/-- The same names stand for types. -/
theorem lookupType? (h : Within P R c c') (name : String) :
    c'.lookupType? name = c.lookupType? name := by
  rw [Context.lookupType?, h.chain, Context.lookupType?]

/-- Forms stand for the same types. -/
theorem denotes {f : Forest} {node : NodeId} {t : TypeId}
    (h : c.Within Pool.Extends R c') (ht : f.Denotes c node t) : f.Denotes c' node t := by
  induction ht with
  | name symbol lookup => exact .name symbol (by rw [h.lookupType?, lookup])
  | pointer items symbol isPointer _ type ih =>
    exact .pointer items symbol isPointer ih (h.pool.types.getElem?_some type)

/-- Pairs stand for the same named types. -/
theorem lists {f : Forest} {nodes : List NodeId} {named : List (String × TypeId)}
    (h : c.Within Pool.Extends R c') (hnamed : f.Lists c nodes named) : f.Lists c' nodes named where
  each := hnamed.each.imp fun _ _ ⟨nameNode, tyNode, hitems, hname, ht⟩ =>
    ⟨nameNode, tyNode, hitems, hname, h.denotes ht⟩
  distinct := hnamed.distinct

end Context.Within

/-- The context from before types were entered, with a later pool, is one in which nothing was
declared since. -/
theorem Compilation.OnlyTypes.before {σ : Type} {u u' : Compilation σ} (h : u.OnlyTypes u')
    {pool : Pool} (hpool : u'.context.pool.Extends pool) :
    u'.context.Within Pool.Extends (fun _ _ => True) (u.context.withPool pool) :=
  ⟨hpool, trivial, h.within.namespaces.symm, h.within.entered.symm, h.within.layouts.symm,
    h.within.onceTag.symm⟩

/-- A list that is only read as its items. -/
theorem Forest.items?_of_kind {f : Forest} {node : NodeId} {items : List NodeId}
    (h : f.kind node = .list items) : f.items? node = some items := by
  rw [items?, h]

/-- A symbol that is read as its text. -/
theorem Forest.symbol?_of_kind {f : Forest} {node : NodeId} {token : Token}
    (h : f.kind node = .token token) (hkind : token.kind = .symbol) :
    f.symbol? node = some (f.names.text token.text) := by
  obtain ⟨kind, text⟩ := token
  cases hkind
  rw [symbol?, h]

namespace Lower

variable {σ α : Type} {u : Compilation σ}

/-! ## Reading them -/

/-- Stopping with a report. -/
theorem fail_onlyTypes (d : Diagnostic) :
    Refuses Compilation.OnlyTypes (fail d : Lower σ α) :=
  fun _ => .of_context .of_queue

/-- What is expected to be a list is taken apart. -/
theorem expectList_reads (node : NodeId) (what : String) (u : Compilation σ) :
    Ends (expectList node what) u (fun items u' => u.forest.items? node = some items ∧ u = u')
      u.OnlyTypes := by
  refine .next rfl ?_
  split
  next items hitems => exact .pure ⟨hitems, rfl⟩
  next => exact (Refuses.read fun _ => .read fun _ => fail_onlyTypes _).ends u fun _ h => h

/-- What is expected to be a symbol is read. -/
theorem expectSymbol_reads (node : NodeId) (what : String) (u : Compilation σ) :
    Ends (expectSymbol node what) u (fun name u' => u.forest.symbol? node = some name ∧ u = u')
      u.OnlyTypes := by
  refine .next rfl ?_
  split
  next name hname => exact .pure ⟨hname, rfl⟩
  next => exact (Refuses.read fun _ => .read fun _ => fail_onlyTypes _).ends u fun _ h => h

/-- What is expected to be a linkage word is read. -/
theorem expectLinkage_reads (node : NodeId) (u : Compilation σ) :
    Ends (expectLinkage node) u (fun linkage u' =>
      (u.forest.symbol? node).bind Ir.Linkage.ofKeyword? = some linkage ∧ u = u')
      u.OnlyTypes := by
  refine .next rfl ?_
  split
  next linkage hlinkage => exact .pure ⟨hlinkage, rfl⟩
  next => exact (Refuses.read fun _ => .read fun _ => fail_onlyTypes _).ends u fun _ h => h

/-- The form of a type is read as what it stands for. -/
theorem resolveTypeBelow_denotes (bound : Nat) (node : NodeId) (u : Compilation σ) :
    Ends (resolveTypeBelow bound node) u
      (fun t u' => u.OnlyTypes u' ∧ u.forest.Denotes u'.context node t) u.OnlyTypes := by
  induction bound generalizing node u with
  | zero => exact .throw (Std.Refl.refl u)
  | succ bound ih =>
    refine .next rfl ?_
    split
    next token hkind =>
      split
      next hsymbol =>
        refine .next rfl (.next rfl ?_)
        split
        next t hlookup =>
          exact .pure ⟨Std.Refl.refl u, .name (Forest.symbol?_of_kind hkind hsymbol) hlookup⟩
        next => exact (Refuses.read fun _ => fail_onlyTypes _).ends u fun _ h => h
      next => exact (Refuses.read fun _ => .read fun _ => fail_onlyTypes _).ends u fun _ h => h
    next head inner hkind =>
      refine .next rfl ?_
      split
      next hword =>
        obtain ⟨word, hsymbol, hpointer⟩ : ∃ word, u.forest.symbol? head = some word ∧
            (word = "p" ∨ word = "pointer") := by
          rcases hword with h | h
          · exact ⟨_, h, .inl rfl⟩
          · exact ⟨_, h, .inr rfl⟩
        refine (ih inner u).bind ?_
        rintro pointee u₁ ⟨hentered, hdenotes⟩
        have hspec := Pool.intern_spec u₁.context.pool (.pointer pointee)
        have hwithin : u₁.context.Within Pool.Extends Ir.Module.OnlyTypes
            (u₁.context.withPool (u₁.context.pool.pointerTo pointee).2) := .of_pool hspec.1
        exact ⟨IsTrans.trans _ _ _ hentered (.of_context hwithin),
          .pointer (Forest.items?_of_kind hkind) hsymbol hpointer (hwithin.denotes hdenotes)
            (Pool.type_of_find hspec.2)⟩
      next => exact (Refuses.read fun _ => .read fun _ => fail_onlyTypes _).ends u fun _ h => h
    next => exact (Refuses.read fun _ => .read fun _ => fail_onlyTypes _).ends u fun _ h => h

/-- The form of a type is read as what it stands for. -/
theorem resolveType_denotes (node : NodeId) (u : Compilation σ) :
    Ends (resolveType node) u
      (fun t u' => u.OnlyTypes u' ∧ u.forest.Denotes u'.context node t) u.OnlyTypes :=
  resolveTypeBelow_denotes _ node u

/-- Named types are read one after the other, each with a name that none before it has. -/
theorem typedNames_lists (what : String) (done : List (String × TypeId)) (nodes : List NodeId)
    (u : Compilation σ) (hdone : (done.map (·.1)).Nodup) :
    Ends (typedNames what done nodes) u
      (fun named u' => u.OnlyTypes u' ∧ (named.map (·.1)).Nodup ∧
        ∃ new, named = done.reverse ++ new ∧
          List.Forall₂ (u.forest.Names u'.context) nodes new) u.OnlyTypes := by
  induction nodes generalizing done u with
  | nil =>
    have hdistinct : (done.reverse.map (·.1)).Nodup := by
      rw [List.map_reverse]
      exact List.pairwise_reverse.2 (hdone.imp Ne.symm)
    exact .pure ⟨Std.Refl.refl u, hdistinct, [], by simp, .nil⟩
  | cons node nodes ih =>
    refine (expectList_reads node what u).bind ?_
    rintro pair _ ⟨hpair, rfl⟩
    split
    next nameNode tyNode =>
      refine (expectSymbol_reads nameNode _ u).bind ?_
      rintro name _ ⟨hname, rfl⟩
      split
      next => exact (Refuses.read fun _ => fail_onlyTypes _).ends u fun _ h => h
      next hnew =>
        refine (resolveType_denotes tyNode u).bind ?_
        rintro t u₁ ⟨hentered, hdenotes⟩
        have hdone' : (((name, t) :: done).map (·.1)).Nodup := by
          refine List.nodup_cons.2 ⟨fun hmem => hnew ?_, hdone⟩
          obtain ⟨d, hd, rfl⟩ := List.mem_map.1 hmem
          exact List.any_eq_true.2 ⟨d, hd, beq_self_eq_true _⟩
        refine (ih ((name, t) :: done) u₁ hdone').mono ?_
          fun _ h => IsTrans.trans _ _ _ hentered h
        rintro named u₂ ⟨hentered₂, hdistinct, new, rfl, heach⟩
        rw [hentered.forest] at heach
        exact ⟨IsTrans.trans _ _ _ hentered hentered₂, hdistinct, (name, t) :: new, by simp,
          .cons ⟨nameNode, tyNode, hpair, hname, hentered₂.within.denotes hdenotes⟩ heach⟩
    next => exact (Refuses.read fun _ => fail_onlyTypes _).ends u fun _ h => h

/-- Named types are read as what they stand for. -/
theorem typedNames_reads (what : String) (nodes : List NodeId) (u : Compilation σ) :
    Ends (typedNames what [] nodes) u
      (fun named u' => u.OnlyTypes u' ∧ u.forest.Lists u'.context nodes named) u.OnlyTypes := by
  refine (typedNames_lists what [] nodes u List.nodup_nil).mono ?_ fun _ h => h
  rintro named u' ⟨hentered, hdistinct, new, rfl, heach⟩
  exact ⟨hentered, heach, hdistinct⟩

end Lower

end FormCompiler
