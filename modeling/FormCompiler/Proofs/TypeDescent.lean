import FormCompiler.Proofs.Context.Tree
import FormCompiler.Proofs.Context.Walks
import FormCompiler.Proofs.ErrorReporting

/-!
# Types Descend to Their Members

The types that a struct holds by value have smaller ids than the struct, whatever was declared or
refused before: they were looked up when its own type was not in the pool yet, and no later struct
gets that type. So no type holds itself, and the walks over types end (`Run.types_descend`).
-/

namespace FormCompiler

namespace Context

variable {c : Context}

/-- The parts were visited in a type: they are nested in it, and every level took at least one of
the ids. -/
def Visited (c : Context) (t : TypeId) (visits : List Visit) : Prop :=
  ∀ v ∈ visits, c.Nested t v ∧ v.path.length + v.ty.index ≤ t.index

/-- The types that structs hold by value descend, and so do both walks over types. -/
structure Descends (c : Context) : Prop where
  /-- The type of a registered struct stands for it, and its members have smaller ids. -/
  before : ∀ id name s, (c.namespaceOf id).struct? name = some s →
    c.structOfType? s.ty = some s ∧ ∀ member ∈ s.memberTypes, member.index < s.ty.index
  /-- A type is that of one struct at most, also where a name is used in several namespaces. -/
  apart : ∀ id name s id' name' s', (c.namespaceOf id).struct? name = some s →
    (c.namespaceOf id').struct? name' = some s' → s.ty = s'.ty → id = id' ∧ name = name'
  wellFounded : WellFounded c.IsMember
  /-- The question whether a type of the pool owns resources comes to an answer, that of the bounded
  walk, and it visits each part once at most. -/
  answers : ∀ t, c.pool.Has t → ∃ c' visits,
    (∀ answer c'' visits', Answers (.type t) c answer c'' visits' ↔
      answer = c.ownsResources t ∧ c'' = c' ∧ visits' = visits) ∧
    c.Pointed c' ∧ c.Visited t visits ∧ visits.Nodup
  /-- The cleanup of a value comes to its end, like the bounded walk, and it visits each part once
  more at most than the part is nested deep. -/
  cleans : ∀ b t value, c.pool.Has t → ∃ outcome visits,
    (∀ outcome' visits', Cleans (.value b t value) c outcome' visits' ↔
      outcome' = outcome ∧ visits' = visits) ∧
    Alike (cleanUpBelow (t.index + 1) b t value c) outcome ∧
    (∀ c', outcome ≠ .error .unfinished c') ∧
    c.Visited t visits ∧ ∀ v, visits.count v ≤ v.path.length + 1

/-- The type of a struct is that of its name and namespace only. -/
theorem Valid.struct_unique (hc : c.Valid) {id id' : NamespaceId} {name name' : String}
    {s s' : Struct} (hs : (c.namespaceOf id).struct? name = some s)
    (hs' : (c.namespaceOf id').struct? name' = some s') (hty : s.ty = s'.ty) :
    id = id' ∧ name = name' := by
  have hid := lt_of_struct? hs
  have hid' := lt_of_struct? hs'
  have htype := (hc.structs id hid (name, s) (mem_of_lookup hs)).type
  have htype' := (hc.structs id' hid' (name', s') (mem_of_lookup hs')).type
  rw [← hty, htype, Option.some_inj, SourceType.struct.injEq] at htype'
  obtain ⟨hname, hpath⟩ := htype'
  exact ⟨hc.paths id id' hid hid' (List.reverse_injective hpath), hname⟩

/-- Types descend where structs were registered after their members. -/
theorem Placed.descends (h : c.Placed) (hc : c.Valid) (hlinked : c.Linked) : c.Descends := by
  have hordered := h.ordered hc
  constructor
  case before =>
    intro id name s hs
    exact ⟨hlinked.structOfType?_ty hc hs c.entered,
      h.structs id (lt_of_struct? hs) (name, s) (mem_of_lookup hs)⟩
  case apart => exact fun id name s id' name' s' hs hs' => hc.struct_unique hs hs'
  case wellFounded => exact hordered.wellFounded
  case answers =>
    intro t ht
    have hwalkable : c.Walkable t := ⟨hc, hordered, ht⟩
    obtain ⟨c', visits, hanswers⟩ := hwalkable.exists_answers (Std.Refl.refl c)
    refine ⟨c', visits, fun answer c'' visits' => ⟨hanswers.unique, ?_⟩, hanswers.pointed,
      fun v hv => ?_, hanswers.nodup⟩
    · rintro ⟨rfl, rfl, rfl⟩
      exact hanswers
    · exact ⟨hanswers.concerns v hv, hordered.length_add_le (hanswers.concerns v hv)⟩
  case cleans =>
    intro b t value ht
    have hwalkable : c.Walkable t := ⟨hc, hordered, ht⟩
    obtain ⟨outcome, visits, hcleans, halike⟩ :=
      hwalkable.exists_cleans (Std.Refl.refl c) b value
    refine ⟨outcome, visits, fun outcome' visits' => ⟨hcleans.unique, ?_⟩, halike,
      ?_, fun v hv => ?_, hcleans.count_le⟩
    · rintro ⟨rfl, rfl⟩
      exact hcleans
    · rintro c' rfl
      cases hcleans.allowed.1
    · exact ⟨hcleans.concerns v hv, hordered.length_add_le (hcleans.concerns v hv)⟩

/-- Types descend in every context that develops from one in which nothing is declared. -/
theorem Develops.descends {options : Options} (h : (start options).Develops c) : c.Descends := by
  have hstart := valid_start options
  have hplaced := h.invariant (fun _ _ hc hchange => hchange.placed hc) hstart
    (placed_start options)
  have hlinked := h.invariant (fun _ _ hc hchange => hchange.linked hc) hstart
    (linked_start options)
  exact hplaced.descends (h.safe hstart).1 hlinked

end Context

namespace Run

/-- In every unit that top-level forms lead to, in whatever namespaces and with success or without,
and in every context that develops further: the members of structs have smaller ids than the
structs, no two structs have one type, and both walks over a type end, whatever type of the pool it
is, and visit each of the nested members a bounded number of times. -/
theorem types_descend {σ : Type} {u : Compilation σ} {options : Options} {expander : Expander σ}
    {memory : σ} (h : Run (.start options expander memory) u) :
    u.context.Descends ∧ ∀ c, u.context.Develops c → c.Descends :=
  ⟨Context.Develops.descends h.develops, fun _ hc =>
    Context.Develops.descends (IsTrans.trans _ _ _ h.develops hc)⟩

/-- The unit with the forms `(def Handle (struct extern ((fd int))))`,
`(def destroy (fn extern void ((value (p Handle)))))`, `(def Box (struct extern ((h Handle))))` and
`(namespace inner (def Box (struct extern ((a Box) (n int) (b Box)))))`, the last one processed
twice. -/
def boxesUnit : Compilation Unit :=
  [9, 19, 25, 37, 37].foldl (fun u node => final (Lower.processTopLevel ⟨node⟩) u)
    { forest := ⟨#[⟨.token ⟨.symbol, ⟨1⟩⟩, .dummy⟩, ⟨.token ⟨.symbol, ⟨2⟩⟩, .dummy⟩,
        ⟨.token ⟨.symbol, ⟨3⟩⟩, .dummy⟩, ⟨.token ⟨.symbol, ⟨4⟩⟩, .dummy⟩,
        ⟨.token ⟨.symbol, ⟨5⟩⟩, .dummy⟩, ⟨.token ⟨.symbol, ⟨6⟩⟩, .dummy⟩,
        ⟨.list [⟨4⟩, ⟨5⟩], .dummy⟩, ⟨.list [⟨6⟩], .dummy⟩, ⟨.list [⟨2⟩, ⟨3⟩, ⟨7⟩], .dummy⟩,
        ⟨.list [⟨0⟩, ⟨1⟩, ⟨8⟩], .dummy⟩, ⟨.token ⟨.symbol, ⟨7⟩⟩, .dummy⟩,
        ⟨.token ⟨.symbol, ⟨8⟩⟩, .dummy⟩, ⟨.token ⟨.symbol, ⟨9⟩⟩, .dummy⟩,
        ⟨.token ⟨.symbol, ⟨10⟩⟩, .dummy⟩, ⟨.token ⟨.symbol, ⟨11⟩⟩, .dummy⟩,
        ⟨.list [⟨14⟩, ⟨1⟩], .dummy⟩, ⟨.list [⟨13⟩, ⟨15⟩], .dummy⟩, ⟨.list [⟨16⟩], .dummy⟩,
        ⟨.list [⟨11⟩, ⟨3⟩, ⟨12⟩, ⟨17⟩], .dummy⟩, ⟨.list [⟨0⟩, ⟨10⟩, ⟨18⟩], .dummy⟩,
        ⟨.token ⟨.symbol, ⟨12⟩⟩, .dummy⟩, ⟨.token ⟨.symbol, ⟨13⟩⟩, .dummy⟩,
        ⟨.list [⟨21⟩, ⟨1⟩], .dummy⟩, ⟨.list [⟨22⟩], .dummy⟩, ⟨.list [⟨2⟩, ⟨3⟩, ⟨23⟩], .dummy⟩,
        ⟨.list [⟨0⟩, ⟨20⟩, ⟨24⟩], .dummy⟩, ⟨.token ⟨.symbol, ⟨14⟩⟩, .dummy⟩,
        ⟨.token ⟨.symbol, ⟨15⟩⟩, .dummy⟩, ⟨.token ⟨.symbol, ⟨16⟩⟩, .dummy⟩,
        ⟨.token ⟨.symbol, ⟨17⟩⟩, .dummy⟩, ⟨.token ⟨.symbol, ⟨18⟩⟩, .dummy⟩,
        ⟨.list [⟨28⟩, ⟨20⟩], .dummy⟩, ⟨.list [⟨29⟩, ⟨5⟩], .dummy⟩, ⟨.list [⟨30⟩, ⟨20⟩], .dummy⟩,
        ⟨.list [⟨31⟩, ⟨32⟩, ⟨33⟩], .dummy⟩, ⟨.list [⟨2⟩, ⟨3⟩, ⟨34⟩], .dummy⟩,
        ⟨.list [⟨0⟩, ⟨20⟩, ⟨35⟩], .dummy⟩, ⟨.list [⟨26⟩, ⟨27⟩, ⟨36⟩], .dummy⟩],
        ⟨#["", "def", "Handle", "struct", "extern", "fd", "int", "destroy", "fn", "void", "value",
          "p", "Box", "h", "namespace", "inner", "a", "n", "b"]⟩⟩
      context := .start .standard
      memory := ()
      expander := .none
      maxExpansions := 128 }

/-- The struct in the namespace holds the one of its name around it. When its form is processed
again, the members would be of the type of the struct itself, but the form is refused. -/
theorem types_descend_boxesUnit :
    Run (.start .standard .none ()) boxesUnit ∧
      ((boxesUnit.context.namespaceOf .root).struct? "Box").map (fun s => (s.ty, s.memberTypes)) =
        some (⟨23⟩, [⟨21⟩]) ∧
      ((boxesUnit.context.namespaceOf ⟨1⟩).struct? "Box").map (fun s => (s.ty, s.memberTypes)) =
        some (⟨24⟩, [⟨23⟩, .int, ⟨23⟩]) ∧
      Lower.fails (Lower.processTopLevel ⟨37⟩) boxesUnit = true ∧
      boxesUnit.context.ownsResources ⟨24⟩ = true ∧ boxesUnit.context.Descends := by
  have hrun : Run (.start .standard .none ()) boxesUnit :=
    (((((Run.refl.forest _).topLevel ⟨9⟩).topLevel ⟨19⟩).topLevel ⟨25⟩).topLevel ⟨37⟩).topLevel ⟨37⟩
  exact ⟨hrun, by decide +kernel, by decide +kernel, by decide +kernel, by decide +kernel,
    (types_descend hrun).1⟩

end Run

end FormCompiler
