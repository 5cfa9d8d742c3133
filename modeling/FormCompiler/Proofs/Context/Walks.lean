import FormCompiler.Proofs.Context.Pointed
import Mathlib.Data.List.Count
import Mathlib.Data.List.Nodup

/-!
# Walks over Types

Two walks descend from a type to the members of the struct that it stands for: the question whether
it owns resources, and the cleanup of its values. Neither of them looks for cycles, and both enter
the types of pointers that they look for destructors with. They are described here without a bound
on their depth, with the parts of values that they visit:

* `Answers`: the question, for one type or for members of a struct, followed to its answer.
* `Cleans`: the cleanup of one value or of members of an aggregate, followed to its outcome.

There is no such description of a walk that does not end. Where members stand before their structs
there is exactly one for each type (`Answers.unique`, `Cleans.unique`), and it gives what the walks
of bounded depth give (`Walkable.exists_answers`, `Walkable.exists_cleans`). The question visits a
part once at most (`Answers.nodup`), and the cleanup visits it once more at most than the part is
nested deep (`Cleans.count_le`).
-/

namespace FormCompiler

/-- A part of a value that a walk visits: the indices of the members that lead to it, from the
outermost one inwards, and its type. -/
structure Visit where
  path : List Nat
  ty : TypeId
deriving DecidableEq, Repr

namespace Visit

/-- The value itself. -/
def whole (t : TypeId) : Visit := ⟨[], t⟩

/-- A part of a member, as one of the struct. -/
def under (index : Nat) (v : Visit) : Visit := { v with path := index :: v.path }

variable {v w : Visit} {i j : Nat}

@[simp]
theorem path_under (i : Nat) (v : Visit) : (v.under i).path = i :: v.path := rfl

@[simp]
theorem ty_under (i : Nat) (v : Visit) : (v.under i).ty = v.ty := rfl

/-- A part of a member is one of that member only, and leads to the same place in it. -/
theorem under_inj : v.under i = w.under j ↔ i = j ∧ v = w := by
  obtain ⟨path, ty⟩ := v
  obtain ⟨path', ty'⟩ := w
  simp only [under, mk.injEq, List.cons.injEq, and_assoc]

theorem under_injective (i : Nat) : Function.Injective (under i) := fun _ _ h => (under_inj.1 h).2

/-- No member is the whole value. -/
theorem under_ne_whole {t : TypeId} : v.under i ≠ whole t := fun h => by
  have hpath := congrArg path h
  cases hpath

end Visit

namespace Context

variable {c c' c₁ d d' : Context} {t member : TypeId} {index : Nat} {ts : List TypeId} {v : Visit}

/-! ## Nested members -/

/-- The type stands for a struct that holds the other one by value. -/
def IsMember (c : Context) (member t : TypeId) : Prop :=
  ∃ s, c.structOfType? t = some s ∧ member ∈ s.memberTypes

/-- The parts of the values of a type: the value itself and the parts of the members of a struct. -/
inductive Nested (c : Context) : TypeId → Visit → Prop
  | whole (t : TypeId) : Nested c t (.whole t)
  | member {t member : TypeId} {s : Struct} {index : Nat} {v : Visit}
      (struct : c.structOfType? t = some s) (found : s.memberTypes[index]? = some member)
      (h : Nested c member v) : Nested c t (v.under index)

/-- The parts of members of a struct, counted from an index on. -/
def NestedFrom (c : Context) (index : Nat) (ts : List TypeId) (v : Visit) : Prop :=
  ∃ i member w, ts[i]? = some member ∧ c.Nested member w ∧ v = w.under (index + i)

namespace NestedFrom

/-- A part of the other members. -/
theorem tail (h : c.NestedFrom (index + 1) ts v) : c.NestedFrom index (member :: ts) v := by
  obtain ⟨i, found, w, hfound, hw, rfl⟩ := h
  exact ⟨i + 1, found, w, hfound, hw, by rw [Nat.add_assoc, Nat.add_comm 1]⟩

/-- A part of a member of the struct that a type stands for. -/
theorem nested {s : Struct} (hs : c.structOfType? t = some s)
    (h : c.NestedFrom 0 s.memberTypes v) : c.Nested t v := by
  obtain ⟨i, member, w, hfound, hw, rfl⟩ := h
  rw [Nat.zero_add]
  exact .member hs hfound hw

/-- The parts are those of the members that are counted. -/
theorem exists_under (h : c.NestedFrom index ts v) :
    ∃ (i : Nat) (w : Visit), index ≤ i ∧ v = w.under i := by
  obtain ⟨i, -, w, -, -, rfl⟩ := h
  exact ⟨index + i, w, Nat.le_add_right _ _, rfl⟩

/-- The whole value is no part of its members. -/
theorem ne_whole (h : c.NestedFrom index ts v) : v ≠ .whole t := by
  obtain ⟨_, _, -, rfl⟩ := h.exists_under
  exact Visit.under_ne_whole

/-- A part of the first member is none of the others. -/
theorem ne_under (h : c.NestedFrom (index + 1) ts v) (w : Visit) : v ≠ w.under index := by
  obtain ⟨i, w', hi, rfl⟩ := h.exists_under
  intro heq
  obtain ⟨rfl, -⟩ := Visit.under_inj.1 heq
  exact Nat.not_succ_le_self _ hi

/-- Parts of the first member. -/
theorem of_map {parts : List Visit} (h : ∀ w ∈ parts, c.Nested member w) :
    ∀ v ∈ parts.map (·.under index), c.NestedFrom index (member :: ts) v := by
  intro v hv
  obtain ⟨w, hw, rfl⟩ := List.mem_map.1 hv
  exact ⟨0, member, w, rfl, h w hw, rfl⟩

/-- Parts of the first member, and then parts of the others. -/
theorem of_append {parts rest : List Visit} (h : ∀ w ∈ parts, c.Nested member w)
    (hrest : ∀ v ∈ rest, c.NestedFrom (index + 1) ts v) :
    ∀ v ∈ parts.map (·.under index) ++ rest, c.NestedFrom index (member :: ts) v := by
  intro v hv
  exact (List.mem_append.1 hv).elim (of_map h v) fun hv => (hrest v hv).tail

end NestedFrom

/-- The structs decide which parts there are. -/
theorem Nested.of_sameStructs (h : c'.Nested t v) (hc : c.SameStructs c') : c.Nested t v := by
  induction h with
  | whole t => exact .whole t
  | member hs hfound _ ih => exact .member ((hc _).symm.trans hs) hfound ih

/-- The structs decide which parts members have. -/
theorem NestedFrom.of_sameStructs (h : c'.NestedFrom index ts v) (hc : c.SameStructs c') :
    c.NestedFrom index ts v := by
  obtain ⟨i, member, w, hfound, hw, rfl⟩ := h
  exact ⟨i, member, w, hfound, hw.of_sameStructs hc, rfl⟩

namespace Ordered

variable (h : c.Ordered)

include h

/-- No type holds itself, neither at once nor by way of others. -/
theorem wellFounded : WellFounded c.IsMember := by
  refine Subrelation.wf (r := fun member t => member.index < t.index) ?_
    (measure TypeId.index).wf
  rintro member t ⟨s, hs, hmember⟩
  exact h t s hs member hmember

/-- Every level of nesting takes at least one of the ids. -/
theorem length_add_le (hv : c.Nested t v) : v.path.length + v.ty.index ≤ t.index := by
  induction hv with
  | whole t => exact Nat.le_of_eq (Nat.zero_add _)
  | @member t member s index v hs hfound _ ih =>
    have hlt := h t s hs member (List.mem_of_getElem? hfound)
    rw [Visit.path_under, Visit.ty_under, List.length_cons]
    omega

end Ordered

/-! ## Whether a type owns resources -/

/-- Whether a type owns resources, or one of several members of a struct, counted from an index
on. -/
inductive Question where
  | type (t : TypeId)
  | members (index : Nat) (ts : List TypeId)

/-- The parts that a question is about. -/
def Question.Concerns (c : Context) : Question → Visit → Prop
  | .type t => c.Nested t
  | .members index ts => c.NestedFrom index ts

/-- The question was followed to its answer, with these visits one after the other. A destructor
answers it; a struct without one is asked for its members, up to the first that owns resources. -/
inductive Answers : Question → Context → Bool → Context → List Visit → Prop
  | destructor {c c' : Context} {t : TypeId} {f : Ir.FuncId}
      (found : destructorFor t c = (some f, c')) : Answers (.type t) c true c' [.whole t]
  | plain {c c' : Context} {t : TypeId} (missing : destructorFor t c = (none, c'))
      (noStruct : c'.structOfType? t = none) : Answers (.type t) c false c' [.whole t]
  | struct {c c₁ c' : Context} {t : TypeId} {s : Struct} {answer : Bool} {visits : List Visit}
      (missing : destructorFor t c = (none, c₁)) (struct : c₁.structOfType? t = some s)
      (h : Answers (.members 0 s.memberTypes) c₁ answer c' visits) :
      Answers (.type t) c answer c' (.whole t :: visits)
  | nil {c : Context} {index : Nat} : Answers (.members index []) c false c []
  | found {c c' : Context} {index : Nat} {member : TypeId} {ts : List TypeId}
      {visits : List Visit} (h : Answers (.type member) c true c' visits) :
      Answers (.members index (member :: ts)) c true c' (visits.map (·.under index))
  | next {c c₁ c' : Context} {index : Nat} {member : TypeId} {ts : List TypeId} {answer : Bool}
      {visits rest : List Visit} (h : Answers (.type member) c false c₁ visits)
      (others : Answers (.members (index + 1) ts) c₁ answer c' rest) :
      Answers (.members index (member :: ts)) c answer c' (visits.map (·.under index) ++ rest)

/-- Looking for a destructor enters types without names at most. -/
theorem pointed_of_run {f? : Option Ir.FuncId} (h : destructorFor t c = (f?, c')) :
    c.Pointed c' := by
  have hpointed := destructorFor_pointed t c
  rwa [h] at hpointed

namespace Answers

variable {question : Question} {answer : Bool} {visits : List Visit}

/-- Types without names are entered at most. -/
theorem pointed (h : Answers question c answer c' visits) : c.Pointed c' := by
  induction h with
  | destructor hrun | plain hrun _ => exact pointed_of_run hrun
  | struct hrun _ _ ih => exact IsTrans.trans _ _ _ (pointed_of_run hrun) ih
  | nil => exact Std.Refl.refl _
  | found _ ih => exact ih
  | next _ _ ih ihrest => exact IsTrans.trans _ _ _ ih ihrest

/-- Only parts that the question is about are visited. -/
theorem concerns (h : Answers question c answer c' visits) :
    ∀ v ∈ visits, question.Concerns c v := by
  induction h with
  | destructor _ | plain _ _ =>
    intro v hv
    rw [List.mem_singleton.1 hv]
    exact .whole _
  | struct hrun hs _ ih =>
    -- the types entered meanwhile have no names, so they do not change what structs there are
    have hsame := (pointed_of_run hrun).sameStructs
    intro v hv
    rcases List.mem_cons.1 hv with rfl | hv
    · exact .whole _
    · exact ((ih v hv).nested hs).of_sameStructs hsame
  | nil => exact fun _ hv => absurd hv List.not_mem_nil
  | found _ ih => exact .of_map ih
  | next h _ ih ihrest =>
    exact .of_append ih fun v hv => (ihrest v hv).of_sameStructs h.pointed.sameStructs

/-- No part is visited twice. -/
theorem nodup (h : Answers question c answer c' visits) : visits.Nodup := by
  induction h with
  | destructor _ | plain _ _ => exact List.nodup_singleton _
  | struct _ _ h ih => exact List.nodup_cons.2 ⟨fun hv => (h.concerns _ hv).ne_whole rfl, ih⟩
  | nil => exact .nil
  | @found _ _ index _ _ _ _ ih => exact ih.map (Visit.under_injective index)
  | @next _ _ _ index _ _ _ visits rest _ others ih ihrest =>
    -- the parts of one member are told from those of the others by the first index
    refine (ih.map (Visit.under_injective index)).append ihrest fun v hv hrest => ?_
    obtain ⟨w, -, rfl⟩ := List.mem_map.1 hv
    exact (others.concerns _ hrest).ne_under w rfl

/-- One visit of each part leaves room for another one. -/
theorem count_le (h : Answers question c answer c' visits) (v : Visit) :
    visits.count v ≤ v.path.length + 2 :=
  Nat.le_trans (List.nodup_iff_count_le_one.1 h.nodup v) (Nat.le_add_left 1 _)

/-- The visits of the question and others. -/
theorem count_append_le {inside : List Visit} (h : Answers question c answer c' visits)
    (hinside : ∀ v, inside.count v ≤ v.path.length + 1) (v : Visit) :
    (visits ++ inside).count v ≤ v.path.length + 2 := by
  have hone := List.nodup_iff_count_le_one.1 h.nodup v
  have hmore := hinside v
  rw [List.count_append]
  omega

/-- There is one answer and one way to it. -/
theorem unique {answer' : Bool} {visits' : List Visit} (h : Answers question c answer c' visits)
    (h' : Answers question c answer' d visits') : answer' = answer ∧ d = c' ∧ visits' = visits := by
  induction h generalizing answer' d visits' with
  | destructor hrun =>
    cases h' with
    | destructor hrun' =>
      cases hrun.symm.trans hrun'
      exact ⟨rfl, rfl, rfl⟩
    | plain hrun' _ | struct hrun' _ _ => cases hrun.symm.trans hrun'
  | plain hrun hs =>
    cases h' with
    | destructor hrun' => cases hrun.symm.trans hrun'
    | plain hrun' _ =>
      cases hrun.symm.trans hrun'
      exact ⟨rfl, rfl, rfl⟩
    | struct hrun' hs' _ =>
      cases hrun.symm.trans hrun'
      cases hs.symm.trans hs'
  | struct hrun hs _ ih =>
    cases h' with
    | destructor hrun' => cases hrun.symm.trans hrun'
    | plain hrun' hs' =>
      cases hrun.symm.trans hrun'
      cases hs.symm.trans hs'
    | struct hrun' hs' h' =>
      cases hrun.symm.trans hrun'
      cases hs.symm.trans hs'
      obtain ⟨rfl, rfl, rfl⟩ := ih h'
      exact ⟨rfl, rfl, rfl⟩
  | nil =>
    cases h'
    exact ⟨rfl, rfl, rfl⟩
  | found _ ih =>
    cases h' with
    | found h' =>
      obtain ⟨-, rfl, rfl⟩ := ih h'
      exact ⟨rfl, rfl, rfl⟩
    | next h' _ => cases (ih h').1
  | next _ _ ih ihrest =>
    cases h' with
    | found h' => cases (ih h').1
    | next h' hrest' =>
      obtain ⟨-, rfl, rfl⟩ := ih h'
      obtain ⟨rfl, rfl, rfl⟩ := ihrest hrest'
      exact ⟨rfl, rfl, rfl⟩

end Answers

/-- The type is one of the pool of a valid context, where members stand before their structs. -/
structure Walkable (c : Context) (t : TypeId) : Prop where
  valid : c.Valid
  ordered : c.Ordered
  has : c.pool.Has t

namespace Walkable

/-- So are the members of the struct that a type stands for. -/
theorem of_struct (h : c.Walkable t) {s : Struct} (hs : c.structOfType? t = some s) :
    ∀ member ∈ s.memberTypes, c.Walkable member := fun member hmember =>
  ⟨h.valid, h.ordered, Nat.lt_trans (h.ordered t s hs member hmember) h.has⟩

/-- Nothing that is emitted changes that. -/
theorem kept (h : c.Walkable t) (hc : c.Within (Pool.Kept .empty) Ir.Module.Extends c') :
    c'.Walkable t where
  valid := h.valid.of_within hc hc.pool.grown hc.ir (hc.pool.sound (.empty _) h.valid.pool)
    hc.pool.unnamed
  ordered := h.ordered.of_sameStructs
    (hc.mono (fun _ _ hp => ⟨hp.grown, hp.unnamed⟩) fun _ _ h => h).sameStructs
  has := Nat.lt_of_lt_of_le h.has hc.pool.grown.types.size_le

end Walkable

/-- Members are asked one after the other if each of them can be asked. -/
theorem answers_members (index : Nat) {owns : TypeId → Bool}
    (h : ∀ member ∈ ts, ∀ d, c.Pointed d →
      ∃ d' visits, Answers (.type member) d (owns member) d' visits) (hd : c.Pointed d) :
    ∃ d' visits, Answers (.members index ts) d (ts.any owns) d' visits := by
  induction ts generalizing index d with
  | nil => exact ⟨_, _, .nil⟩
  | cons member ts ih =>
    obtain ⟨d₁, visits, hvisits⟩ := h member List.mem_cons_self d hd
    have hd₁ : c.Pointed d₁ := IsTrans.trans _ _ _ hd hvisits.pointed
    obtain ⟨d', rest, hrest⟩ := ih (index + 1) (fun t ht => h t (List.mem_cons_of_mem _ ht)) hd₁
    rw [List.any_cons]
    cases howns : owns member with
    | true =>
      rw [howns] at hvisits
      exact ⟨_, _, .found hvisits⟩
    | false =>
      rw [howns] at hvisits
      exact ⟨_, _, .next hvisits hrest⟩

/-- A bound above the id of the type suffices to follow the question to its answer. -/
theorem Walkable.answers_below (h : c.Walkable t) {bound : Nat} (ht : t.index < bound)
    (hd : c.Pointed d) :
    ∃ d' visits, Answers (.type t) d (c.ownsResourcesBelow bound t) d' visits := by
  induction bound generalizing t d with
  | zero => exact absurd ht (Nat.not_lt_zero _)
  | succ bound ih =>
    cases hrun : destructorFor t d with | mk f? d₁ =>
    have hf := destructorFor_eq h.valid h.has hd
    have hd₁ : c.Pointed d₁ := IsTrans.trans _ _ _ hd (pointed_of_run hrun)
    rw [hrun] at hf
    unfold ownsResourcesBelow
    rw [← hf]
    cases f? with
    | some f => exact ⟨_, _, .destructor hrun⟩
    | none =>
      rw [← hd₁.sameStructs t]
      cases hs : d₁.structOfType? t with
      | none => exact ⟨_, _, .plain hrun hs⟩
      | some s =>
        have hs' : c.structOfType? t = some s := (hd₁.sameStructs t).symm.trans hs
        -- the members have smaller ids, so the smaller bound is above them
        obtain ⟨d', visits, hvisits⟩ := answers_members 0 (fun member hmember d hd =>
          ih (h.of_struct hs' member hmember)
            (Nat.lt_of_lt_of_le (h.ordered t s hs' member hmember) (Nat.le_of_lt_succ ht)) hd) hd₁
        exact ⟨_, _, .struct hrun hs hvisits⟩

/-- The question whether a type owns resources has an answer, and the bounded walk gives it. -/
theorem Walkable.exists_answers (h : c.Walkable t) (hd : c.Pointed d) :
    ∃ d' visits, Answers (.type t) d (c.ownsResources t) d' visits :=
  h.answers_below (Nat.lt_succ_self _) hd

/-! ## Cleaning up values -/

/-- What is to be cleaned up: a value, or members of an aggregate, counted from an index on. -/
inductive Cleaning where
  | value (b : Ir.BlockId) (t : TypeId) (value : Ir.ValueId)
  | members (aggregate : Ir.ValueId) (b : Ir.BlockId) (index : Nat) (ts : List TypeId)

/-- The parts of what is cleaned up. -/
def Cleaning.Concerns (c : Context) : Cleaning → Visit → Prop
  | .value _ t _ => c.Nested t
  | .members _ _ index ts => c.NestedFrom index ts

/-- The cleanup was followed to its outcome, with these visits one after the other, those of the
questions among them. Every member is asked for, and one that owns resources is taken out and
cleaned up. It stops where an operation on the module is refused. -/
inductive Cleans :
    Cleaning → Context → EStateM.Result Halt Context Ir.BlockId → List Visit → Prop
  | destroyed {c c₁ : Context} {b : Ir.BlockId} {t : TypeId} {value : Ir.ValueId}
      {f : Ir.FuncId} (found : destructorFor t c = (some f, c₁)) :
      Cleans (.value b t value) c (destroyValue b t value f c₁) [.whole t]
  | plain {c c' : Context} {b : Ir.BlockId} {t : TypeId} {value : Ir.ValueId}
      (missing : destructorFor t c = (none, c')) (noStruct : c'.structOfType? t = none) :
      Cleans (.value b t value) c (.ok b c') [.whole t]
  | struct {c c₁ : Context} {b : Ir.BlockId} {t : TypeId} {value : Ir.ValueId} {s : Struct}
      {outcome : EStateM.Result Halt Context Ir.BlockId} {visits : List Visit}
      (missing : destructorFor t c = (none, c₁)) (struct : c₁.structOfType? t = some s)
      (h : Cleans (.members value b 0 s.memberTypes) c₁ outcome visits) :
      Cleans (.value b t value) c outcome (.whole t :: visits)
  | nil {c : Context} {aggregate : Ir.ValueId} {b : Ir.BlockId} {index : Nat} :
      Cleans (.members aggregate b index []) c (.ok b c) []
  | skipped {c c₁ : Context} {aggregate : Ir.ValueId} {b : Ir.BlockId} {index : Nat}
      {member : TypeId} {ts : List TypeId} {outcome : EStateM.Result Halt Context Ir.BlockId}
      {asked rest : List Visit} (answer : Answers (.type member) c false c₁ asked)
      (others : Cleans (.members aggregate b (index + 1) ts) c₁ outcome rest) :
      Cleans (.members aggregate b index (member :: ts)) c outcome
        (asked.map (·.under index) ++ rest)
  | refused {c c₁ c₂ : Context} {aggregate : Ir.ValueId} {b : Ir.BlockId} {index : Nat}
      {member : TypeId} {ts : List TypeId} {e : Halt} {asked : List Visit}
      (answer : Answers (.type member) c true c₁ asked)
      (extract : emitOr cleanupRefused (Ir.Module.extractValue b aggregate index) c₁ =
        .error e c₂) :
      Cleans (.members aggregate b index (member :: ts)) c (.error e c₂)
        (asked.map (·.under index))
  | stopped {c c₁ c₂ c₃ : Context} {aggregate field : Ir.ValueId} {b : Ir.BlockId}
      {index : Nat} {member : TypeId} {ts : List TypeId} {e : Halt} {asked inside : List Visit}
      (answer : Answers (.type member) c true c₁ asked)
      (extract : emitOr cleanupRefused (Ir.Module.extractValue b aggregate index) c₁ =
        .ok field c₂)
      (h : Cleans (.value b member field) c₂ (.error e c₃) inside) :
      Cleans (.members aggregate b index (member :: ts)) c (.error e c₃)
        ((asked ++ inside).map (·.under index))
  | cleaned {c c₁ c₂ c₃ : Context} {aggregate field : Ir.ValueId} {b b' : Ir.BlockId}
      {index : Nat} {member : TypeId} {ts : List TypeId}
      {outcome : EStateM.Result Halt Context Ir.BlockId} {asked inside rest : List Visit}
      (answer : Answers (.type member) c true c₁ asked)
      (extract : emitOr cleanupRefused (Ir.Module.extractValue b aggregate index) c₁ =
        .ok field c₂)
      (h : Cleans (.value b member field) c₂ (.ok b' c₃) inside)
      (others : Cleans (.members aggregate b' (index + 1) ts) c₃ outcome rest) :
      Cleans (.members aggregate b index (member :: ts)) c outcome
        ((asked ++ inside).map (·.under index) ++ rest)

/-- Types stand for the same structs as before, wherever no struct is declared. -/
theorem lasting_sameStructs (c : Context) : Lasting (.ending c.SameStructs) :=
  lasting_of_sameStructs fun _ _ h h' t => (h' t).trans (h t)

/-- Asking for a member and taking it out declares no struct. -/
theorem sameStructs_of_extract {aggregate field : Ir.ValueId} {b : Ir.BlockId} {answer : Bool}
    {visits : List Visit} (hanswer : Answers (.type member) c answer c₁ visits)
    (h : emitOr cleanupRefused (Ir.Module.extractValue b aggregate index) c₁ = .ok field c') :
    c.SameStructs c' :=
  ((lasting_sameStructs c).emitOr _ _ c₁ hanswer.pointed.sameStructs).of_ok h

namespace Cleans

variable {task : Cleaning} {outcome : EStateM.Result Halt Context Ir.BlockId}
  {visits : List Visit}

/-- An outcome after a step that declares no struct is one from the state before it. -/
theorem allows_trans (hc : c.SameStructs c₁)
    (h : (Conduct.ending c₁.SameStructs).Allows outcome) :
    (Conduct.ending c.SameStructs).Allows outcome := by
  cases outcome with
  | ok b c₂ => exact fun t => (h t).trans (hc t)
  | error e c₂ => exact ⟨h.1, fun t => (h.2 t).trans (hc t)⟩

/-- Cleaning up leads to a block or stops with a report, and declares no struct. -/
theorem allowed (h : Cleans task c outcome visits) :
    (Conduct.ending c.SameStructs).Allows outcome := by
  induction h with
  | @destroyed c c₁ b t value f hrun =>
    have hK := lasting_sameStructs c
    have hgoverned : (Conduct.ending c.SameStructs).Governs (destroyValue b t value f) :=
      .bind (hK.always (backendType_proceeds t)) fun _ => .bind (hK.emitOr _ _) fun _ => .pure b
    exact hgoverned c₁ (pointed_of_run hrun).sameStructs
  | plain hrun _ => exact (pointed_of_run hrun).sameStructs
  | nil => exact fun _ => rfl
  | struct hrun _ _ ih => exact allows_trans (pointed_of_run hrun).sameStructs ih
  | skipped hanswer _ ih => exact allows_trans hanswer.pointed.sameStructs ih
  | @refused c _ _ _ _ _ _ _ _ _ hanswer hextract =>
    exact ((lasting_sameStructs c).emitOr _ _ _ hanswer.pointed.sameStructs).of_error hextract
  | stopped hanswer hextract _ ih =>
    exact allows_trans (sameStructs_of_extract hanswer hextract) ih
  | cleaned hanswer hextract _ _ ih ihrest =>
    exact allows_trans (sameStructs_of_extract hanswer hextract) (allows_trans ih ihrest)

/-- Only parts of what is cleaned up are visited. -/
theorem concerns (h : Cleans task c outcome visits) : ∀ v ∈ visits, task.Concerns c v := by
  induction h with
  | destroyed _ | plain _ _ =>
    intro v hv
    rw [List.mem_singleton.1 hv]
    exact .whole _
  | struct hrun hs _ ih =>
    have hsame := (pointed_of_run hrun).sameStructs
    intro v hv
    rcases List.mem_cons.1 hv with rfl | hv
    · exact .whole _
    · exact ((ih v hv).nested hs).of_sameStructs hsame
  | nil => exact fun _ hv => absurd hv List.not_mem_nil
  | skipped hanswer _ ih =>
    have hsame := hanswer.pointed.sameStructs
    exact .of_append hanswer.concerns fun v hv => (ih v hv).of_sameStructs hsame
  | refused hanswer _ => exact .of_map hanswer.concerns
  | stopped hanswer hextract _ ih =>
    have hsame := sameStructs_of_extract hanswer hextract
    refine .of_map fun w hw => ?_
    exact (List.mem_append.1 hw).elim (hanswer.concerns w) fun hw => (ih w hw).of_sameStructs hsame
  | cleaned hanswer hextract hinside _ ih ihrest =>
    -- what was emitted in between declares no structs, so later visits are of the same parts
    have hsame := sameStructs_of_extract hanswer hextract
    have hsame' := fun t => (hinside.allowed t).trans (hsame t)
    refine .of_append (fun w hw => ?_) fun v hv => (ihrest v hv).of_sameStructs hsame'
    exact (List.mem_append.1 hw).elim (hanswer.concerns w) fun hw => (ih w hw).of_sameStructs hsame

/-- How often parts of a member are visited. -/
theorem count_map_le {parts : List Visit} (h : ∀ w, parts.count w ≤ w.path.length + 2)
    (v : Visit) : (parts.map (·.under index)).count v ≤ v.path.length + 1 := by
  by_cases hv : v ∈ parts.map (·.under index)
  · obtain ⟨w, -, rfl⟩ := List.mem_map.1 hv
    rw [List.count_map_of_injective _ _ (Visit.under_injective index)]
    exact h w
  · rw [List.count_eq_zero.2 hv]
    exact Nat.zero_le _

/-- How often parts of a member are visited, and then parts of others. -/
theorem count_append_le {parts rest : List Visit}
    (hparts : ∀ w, parts.count w ≤ w.path.length + 2)
    (hrest : ∀ v, rest.count v ≤ v.path.length + 1)
    (hapart : ∀ v ∈ rest, c.NestedFrom (index + 1) ts v) (v : Visit) :
    (parts.map (·.under index) ++ rest).count v ≤ v.path.length + 1 := by
  rw [List.count_append]
  by_cases hv : v ∈ parts.map (·.under index)
  · have hzero : rest.count v = 0 := List.count_eq_zero.2 fun hmem => by
      obtain ⟨w, -, rfl⟩ := List.mem_map.1 hv
      exact (hapart _ hmem).ne_under w rfl
    rw [hzero]
    exact count_map_le hparts v
  · rw [List.count_eq_zero.2 hv, Nat.zero_add]
    exact hrest v

/-- A part is visited once for each member on the way to it, when the member is asked for, and once
more when it is cleaned up itself. -/
theorem count_le (h : Cleans task c outcome visits) (v : Visit) :
    visits.count v ≤ v.path.length + 1 := by
  -- a part of a member has a longer path there, which pays for the visit by the question
  induction h generalizing v with
  | destroyed _ | plain _ _ =>
    exact Nat.le_trans List.count_le_length (Nat.le_add_left _ _)
  | @struct _ _ _ t _ _ _ visits _ _ h ih =>
    -- the whole value is visited at once, and then only parts of its members are
    rw [List.count_cons]
    split
    next heq =>
      obtain rfl : Visit.whole t = v := eq_of_beq heq
      have hzero : visits.count (.whole t) = 0 :=
        List.count_eq_zero.2 fun hv => (h.concerns _ hv).ne_whole rfl
      rw [hzero]
      exact Nat.le_refl 1
    next => exact ih v
  | nil => exact Nat.zero_le _
  | skipped hanswer others ih => exact count_append_le hanswer.count_le ih others.concerns v
  | refused hanswer _ => exact count_map_le hanswer.count_le v
  | stopped hanswer _ _ ih => exact count_map_le (hanswer.count_append_le ih) v
  | cleaned hanswer _ _ others ih ihrest =>
    exact count_append_le (hanswer.count_append_le ih) ihrest others.concerns v

/-- There is one outcome and one way to it. -/
theorem unique {outcome' : EStateM.Result Halt Context Ir.BlockId} {visits' : List Visit}
    (h : Cleans task c outcome visits) (h' : Cleans task c outcome' visits') :
    outcome' = outcome ∧ visits' = visits := by
  induction h generalizing outcome' visits' with
  | destroyed hrun =>
    cases h' with
    | destroyed hrun' =>
      cases hrun.symm.trans hrun'
      exact ⟨rfl, rfl⟩
    | plain hrun' _ | struct hrun' _ _ => cases hrun.symm.trans hrun'
  | plain hrun hs =>
    cases h' with
    | destroyed hrun' => cases hrun.symm.trans hrun'
    | plain hrun' _ =>
      cases hrun.symm.trans hrun'
      exact ⟨rfl, rfl⟩
    | struct hrun' hs' _ =>
      cases hrun.symm.trans hrun'
      cases hs.symm.trans hs'
  | struct hrun hs _ ih =>
    cases h' with
    | destroyed hrun' => cases hrun.symm.trans hrun'
    | plain hrun' hs' =>
      cases hrun.symm.trans hrun'
      cases hs.symm.trans hs'
    | struct hrun' hs' h' =>
      cases hrun.symm.trans hrun'
      cases hs.symm.trans hs'
      obtain ⟨rfl, rfl⟩ := ih h'
      exact ⟨rfl, rfl⟩
  | nil =>
    cases h'
    exact ⟨rfl, rfl⟩
  | skipped hanswer _ ih =>
    cases h' with
    | skipped hanswer' h' =>
      obtain ⟨-, rfl, rfl⟩ := hanswer.unique hanswer'
      obtain ⟨rfl, rfl⟩ := ih h'
      exact ⟨rfl, rfl⟩
    | refused hanswer' _ | stopped hanswer' _ _ | cleaned hanswer' _ _ _ =>
      cases (hanswer.unique hanswer').1
  | refused hanswer hextract =>
    cases h' with
    | skipped hanswer' _ => cases (hanswer.unique hanswer').1
    | refused hanswer' hextract' =>
      obtain ⟨-, rfl, rfl⟩ := hanswer.unique hanswer'
      cases hextract.symm.trans hextract'
      exact ⟨rfl, rfl⟩
    | stopped hanswer' hextract' _ | cleaned hanswer' hextract' _ _ =>
      obtain ⟨-, rfl, -⟩ := hanswer.unique hanswer'
      cases hextract.symm.trans hextract'
  | stopped hanswer hextract _ ih =>
    cases h' with
    | skipped hanswer' _ => cases (hanswer.unique hanswer').1
    | refused hanswer' hextract' =>
      obtain ⟨-, rfl, -⟩ := hanswer.unique hanswer'
      cases hextract.symm.trans hextract'
    | stopped hanswer' hextract' h' =>
      obtain ⟨-, rfl, rfl⟩ := hanswer.unique hanswer'
      cases hextract.symm.trans hextract'
      obtain ⟨heq, rfl⟩ := ih h'
      exact ⟨heq, rfl⟩
    | cleaned hanswer' hextract' h' _ =>
      obtain ⟨-, rfl, -⟩ := hanswer.unique hanswer'
      cases hextract.symm.trans hextract'
      cases (ih h').1
  | cleaned hanswer hextract _ _ ih ihrest =>
    cases h' with
    | skipped hanswer' _ => cases (hanswer.unique hanswer').1
    | refused hanswer' hextract' =>
      obtain ⟨-, rfl, -⟩ := hanswer.unique hanswer'
      cases hextract.symm.trans hextract'
    | stopped hanswer' hextract' h' =>
      obtain ⟨-, rfl, -⟩ := hanswer.unique hanswer'
      cases hextract.symm.trans hextract'
      cases (ih h').1
    | cleaned hanswer' hextract' h' hrest' =>
      obtain ⟨-, rfl, rfl⟩ := hanswer.unique hanswer'
      cases hextract.symm.trans hextract'
      obtain ⟨heq, rfl⟩ := ih h'
      cases heq
      obtain ⟨rfl, rfl⟩ := ihrest hrest'
      exact ⟨rfl, rfl⟩

end Cleans

/-- Members are cleaned up one after the other if each of them can be cleaned up. -/
theorem cleans_members (index : Nat)
    {cleanUp : Ir.BlockId → TypeId → Ir.ValueId → Check Ir.BlockId}
    (hkeeps : ∀ b t value,
      Keeps (Within (Pool.Kept .empty) Ir.Module.Extends) (cleanUp b t value))
    (h : ∀ member ∈ ts, ∀ c d : Context, c.Walkable member → c.Pointed d → ∀ b value,
      ∃ outcome visits, Cleans (.value b member value) d outcome visits ∧
        Alike (cleanUp b member value c) outcome)
    (hts : ∀ member ∈ ts, c.Walkable member) (hd : c.Pointed d) (aggregate : Ir.ValueId)
    (b : Ir.BlockId) :
    ∃ outcome visits, Cleans (.members aggregate b index ts) d outcome visits ∧
      Alike (cleanUpMembers cleanUp aggregate b index ts c) outcome := by
  induction ts generalizing c d b index with
  | nil => exact ⟨_, _, .nil, rfl, hd⟩
  | cons member ts ih =>
    have hothers := fun t ht => h t (List.mem_cons_of_mem _ ht)
    have hmember := hts member List.mem_cons_self
    have hrest := fun t ht => hts t (List.mem_cons_of_mem _ ht)
    obtain ⟨d₁, asked, hanswer⟩ := hmember.exists_answers hd
    have hd₁ : c.Pointed d₁ := IsTrans.trans _ _ _ hd hanswer.pointed
    cases howns : c.ownsResources member with
    | false =>
      rw [howns] at hanswer
      rw [cleanUpMembers_skip howns]
      obtain ⟨outcome, rest, hcleans, halike⟩ := ih (index + 1) hothers hrest hd₁ b
      exact ⟨_, _, .skipped hanswer hcleans, halike⟩
    | true =>
      rw [howns] at hanswer
      unfold cleanUpMembers
      rw [get_run, if_pos howns]
      have hfield := emitOr_alike cleanupRefused (Ir.Module.extractValue b aggregate index) hd₁
      cases hextract : emitOr cleanupRefused (Ir.Module.extractValue b aggregate index) c with
      | error e c₁ =>
        rw [bind_error hextract]
        obtain ⟨d₂, hextract', hd₂⟩ := (hextract ▸ hfield).of_error
        exact ⟨_, _, .refused hanswer hextract', rfl, hd₂⟩
      | ok field c₁ =>
        rw [bind_run hextract]
        obtain ⟨d₂, hextract', hd₂⟩ := (hextract ▸ hfield).of_ok
        have hc₁ : c.Within (Pool.Kept .empty) Ir.Module.Extends c₁ :=
          (emitOr_keeps cleanupRefused (Ir.Module.extractValue_keeps b aggregate index) c).of_ok
            hextract
        obtain ⟨outcome, inside, hinside, hvalue⟩ :=
          h member List.mem_cons_self c₁ d₂ (hmember.kept hc₁) hd₂ b field
        cases hrun : cleanUp b member field c₁ with
        | error e c₂ =>
          rw [bind_error hrun]
          obtain ⟨d₃, rfl, hd₃⟩ := (hrun ▸ hvalue).of_error
          exact ⟨_, _, .stopped hanswer hextract' hinside, rfl, hd₃⟩
        | ok b' c₂ =>
          rw [bind_run hrun]
          obtain ⟨d₃, rfl, hd₃⟩ := (hrun ▸ hvalue).of_ok
          have hc₂ := IsTrans.trans _ _ _ hc₁ ((hkeeps b member field c₁).of_ok hrun)
          obtain ⟨outcome, rest, hcleans, halike⟩ :=
            ih (index + 1) hothers (fun t ht => (hrest t ht).kept hc₂) hd₃ b'
          exact ⟨_, _, .cleaned hanswer hextract' hinside hcleans, halike⟩

/-- A bound above the id of the type suffices to follow the cleanup to its outcome. -/
theorem Walkable.cleans_below (h : c.Walkable t) {bound : Nat} (ht : t.index < bound)
    (hd : c.Pointed d) (b : Ir.BlockId) (value : Ir.ValueId) :
    ∃ outcome visits, Cleans (.value b t value) d outcome visits ∧
      Alike (cleanUpBelow bound b t value c) outcome := by
  induction bound generalizing c d b t value with
  | zero => exact absurd ht (Nat.not_lt_zero _)
  | succ bound ih =>
    cases hrun : destructorFor t d with | mk f? d₁ =>
    have hf := destructorFor_eq h.valid h.has hd
    have hd₁ : c.Pointed d₁ := IsTrans.trans _ _ _ hd (pointed_of_run hrun)
    rw [hrun] at hf
    cases f? with
    | some f =>
      unfold cleanUpBelow
      rw [get_run, ← hf]
      exact ⟨_, _, .destroyed hrun, destroyValue_alike h.valid h.has hd₁ b value f⟩
    | none =>
      cases hs : c.structOfType? t with
      | none =>
        rw [cleanUpBelow_of_no_struct hf.symm hs]
        exact ⟨_, _, .plain hrun ((hd₁.sameStructs t).trans hs), rfl, hd₁⟩
      | some s =>
        rw [cleanUpBelow_of_struct hf.symm hs]
        -- the members have smaller ids, so the smaller bound is above them
        obtain ⟨outcome, visits, hcleans, halike⟩ :=
          cleans_members 0 (cleanUpBelow_keeps .empty bound)
            (fun member hmember _ _ hwalkable =>
              ih hwalkable (Nat.lt_of_lt_of_le (h.ordered t s hs member hmember)
                (Nat.le_of_lt_succ ht)))
            (h.of_struct hs) hd₁ value b
        exact ⟨_, _, .struct hrun ((hd₁.sameStructs t).trans hs) hcleans, halike⟩

/-- Cleaning up a value comes to an outcome, and the bounded walk comes to one alike. -/
theorem Walkable.exists_cleans (h : c.Walkable t) (hd : c.Pointed d) (b : Ir.BlockId)
    (value : Ir.ValueId) :
    ∃ outcome visits, Cleans (.value b t value) d outcome visits ∧
      Alike (cleanUpBelow (t.index + 1) b t value c) outcome :=
  h.cleans_below (Nat.lt_succ_self _) hd b value

end Context

end FormCompiler
