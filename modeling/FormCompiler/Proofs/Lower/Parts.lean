import FormCompiler.Lower.Expression
import FormCompiler.Proofs.Lower.Coupling
import FormCompiler.Proofs.Tree.Building

/-!
# Parts of Forms

A form is processed by way of its parts, whose ids are below a bound. The bound is there for the
recursion alone: what comes to an end below it does the same below a larger one (`parts_retraces`).
So a part is processed as it is on its own (`process_part`).

* `Retraces x y`: where `x` comes to an end, `y` does the same. There is one theorem for each
  handler, by which it retraces itself if the processing of its parts does.
* `process_core`: a core form is processed by its handler, from its parts.
-/

namespace FormCompiler.Lower

variable {σ α β : Type}

/-- Where the first step comes to an end, with a result or a report, the second one does the
same. -/
def Retraces (x y : Lower σ α) : Prop :=
  ∀ u, (∀ u', x u ≠ .error .unfinished u') → y u = x u

namespace Retraces

variable {x y : Lower σ α} {f g : α → Lower σ β}

/-- A step retraces itself. -/
theorem refl (x : Lower σ α) : Retraces x x := fun _ _ => rfl

/-- Nothing is asked where the first step does not come to an end. -/
theorem unfinished (y : Lower σ α) : Retraces (throw .unfinished) y := fun u h => absurd rfl (h u)

/-- A sequence is retraced part by part. -/
theorem bind (hx : Retraces x y) (hf : ∀ a, Retraces (f a) (g a)) :
    Retraces (x >>= f) (y >>= g) := by
  intro u hu
  change EStateM.bind y g u = EStateM.bind x f u
  change ∀ u', EStateM.bind x f u ≠ _ at hu
  unfold EStateM.bind at hu ⊢
  cases hxu : x u with
  | ok a u₁ =>
    rw [hxu] at hu
    rw [hx u (by rw [hxu]; nofun), hxu]
    exact hf a u₁ hu
  | error e u₁ =>
    rw [hxu] at hu
    have hend : ∀ u', x u ≠ .error .unfinished u' := fun _ h => by
      rw [hxu] at h
      cases h
      exact hu _ rfl
    rw [hx u hend, hxu]

/-- A sequence whose first part is the same. -/
theorem next (x : Lower σ α) (hf : ∀ a, Retraces (f a) (g a)) : Retraces (x >>= f) (x >>= g) :=
  .bind (.refl x) hf

/-- A step that gives a result gives it when it is retraced. -/
theorem ok (h : Retraces x y) {u u' : Compilation σ} {a : α} (hx : x u = .ok a u') :
    y u = .ok a u' := (h u (by rw [hx]; nofun)).trans hx

end Retraces

/-- From the first unit the step reports one error, with the code, and stops in the second one. -/
def FailsWith (x : Lower σ α) (u : Compilation σ) (code : Code) (u' : Compilation σ) : Prop :=
  ∃ d, d.code = code ∧ x u = .error .reported (u'.reporting d)

namespace FailsWith

variable {x : Lower σ α} {f : α → Lower σ β} {u u₁ u' : Compilation σ} {a : α} {code : Code}

/-- Reporting an error. -/
theorem fail {d : Diagnostic} (h : d.code = code) :
    FailsWith (Lower.fail d : Lower σ α) u code u := ⟨d, h, rfl⟩

/-- It only matters how the step ends. -/
theorem of_run {y : Lower σ α} (h : x u = y u₁) (hy : FailsWith y u₁ code u') :
    FailsWith x u code u' := by
  obtain ⟨d, hd, hrun⟩ := hy
  exact ⟨d, hd, h.trans hrun⟩

/-- A sequence fails where its first part does. -/
theorem bind (h : FailsWith x u code u') : FailsWith (x >>= f) u code u' := by
  obtain ⟨d, hd, hx⟩ := h
  exact ⟨d, hd, bind_error hx⟩

/-- A sequence fails where its second part does. -/
theorem next (hx : x u = .ok a u₁) (h : FailsWith (f a) u₁ code u') :
    FailsWith (x >>= f) u code u' := by
  obtain ⟨d, hd, hf⟩ := h
  exact ⟨d, hd, (bind_run hx).trans hf⟩

end FailsWith

/-- The arguments of a core form stand before it. -/
theorem arguments_lt {u : Compilation σ} {node : NodeId} {form : CoreForm}
    {arguments : List NodeId} {isMarked : Bool} (h : u.IsCore node form arguments isMarked)
    (hf : u.forest.WellBuilt) : ∀ argument ∈ arguments, argument.index < node.index := by
  cases h with
  | direct items =>
    exact fun argument hargument => hf node _ (Forest.items?_eq_some.1 items) argument
      (List.mem_cons_of_mem _ hargument)
  | marked items =>
    exact fun argument hargument => hf node _ (Forest.items?_eq_some.1 items) argument
      (List.mem_cons_of_mem _ (List.mem_cons_of_mem _ hargument))

/-! ## Handlers -/

section

variable {frame : Frame} {sub sub' again again' : Sub σ}
  (hsub : ∀ b n, Retraces (sub b n) (sub' b n)) (b : Ir.BlockId) (node : NodeId)
  (nodes : List NodeId)

include hsub

theorem dereference_retraces (addressOnly isMarked : Bool) :
    Retraces (dereference sub b node nodes addressOnly isMarked)
      (dereference sub' b node nodes addressOnly isMarked) := by
  unfold dereference
  split
  · exact .bind (hsub _ _) fun _ => .refl _
  · exact .refl _

theorem addressOf_retraces :
    Retraces (addressOf sub b node nodes) (addressOf sub' b node nodes) := by
  unfold addressOf
  split
  · refine .next _ fun inner => ?_
    cases inner with
    | some inner => exact dereference_retraces hsub _ _ _ _ _
    | none => exact .bind (hsub _ _) fun _ => .refl _
  · exact .refl _

theorem assignment_retraces :
    Retraces (assignment sub b node nodes) (assignment sub' b node nodes) := by
  unfold assignment
  split
  · exact .bind (hsub _ _) fun _ => .next _ fun _ => .bind (hsub _ _) fun _ => .refl _
  · exact .refl _

theorem forms_retraces : Retraces (forms sub b node nodes) (forms sub' b node nodes) := by
  induction nodes generalizing b node with
  | nil => exact hsub b node
  | cons _ _ ih => exact .bind (hsub _ _) fun _ => .next _ fun _ => ih _ _

theorem sequence_retraces :
    Retraces (sequence sub b node nodes) (sequence sub' b node nodes) := by
  unfold sequence
  split
  · exact .refl _
  · exact forms_retraces hsub _ _ _

theorem conditional_retraces :
    Retraces (conditional frame sub b node nodes) (conditional frame sub' b node nodes) := by
  unfold conditional
  split
  · refine .bind (hsub _ _) fun condition => ?_
    split
    · exact .refl _
    · exact .next _ fun _ => .next _ fun _ => .next _ fun _ => .next _ fun _ =>
        .bind (hsub _ _) fun _ => .bind (hsub _ _) fun _ => .refl _
  · exact .refl _

theorem coreForm_retraces (form : CoreForm) (isMarked : Bool) :
    Retraces (coreForm frame sub b node form nodes isMarked)
      (coreForm frame sub' b node form nodes isMarked) := by
  cases form with
  | deref => exact dereference_retraces hsub _ _ _ _ _
  | addressOf => exact addressOf_retraces hsub _ _ _
  | setf => exact assignment_retraces hsub _ _ _
  | sequence => exact sequence_retraces hsub _ _ _
  | conditional => exact conditional_retraces hsub _ _ _
  | core => exact .refl _

theorem marked_retraces :
    Retraces (marked frame sub b node nodes) (marked frame sub' b node nodes) := by
  unfold marked
  split
  · exact .refl _
  · refine .next _ fun name => ?_
    split
    · split
      · exact .refl _
      · exact coreForm_retraces hsub _ _ _ _ _
    · exact .refl _

theorem arguments_retraces : Retraces (arguments sub b nodes) (arguments sub' b nodes) := by
  induction nodes generalizing b with
  | nil => exact .refl _
  | cons _ _ ih => exact .bind (hsub _ _) fun r => .bind (ih r.block) fun _ => .refl _

theorem callOrExpand_retraces (left : Nat) (name : String) :
    Retraces (callOrExpand left sub again b node name nodes)
      (callOrExpand left sub' again b node name nodes) := by
  refine .next _ fun expansion => ?_
  cases expansion with
  | some result => exact .refl _
  | none => exact .bind (arguments_retraces hsub _ _) fun _ => .refl _

theorem list_retraces (left : Nat) :
    Retraces (list frame left sub again b node nodes)
      (list frame left sub' again b node nodes) := by
  unfold list
  split
  · exact .refl _
  · refine .next _ fun name => ?_
    split
    · exact .refl _
    · refine .next _ fun c => ?_
      split
      · exact marked_retraces hsub _ _ _
      · dsimp only
        split
        · exact callOrExpand_retraces hsub _ _ _ _ _
        · exact coreForm_retraces hsub _ _ _ _ _
      · exact callOrExpand_retraces hsub _ _ _ _ _

theorem form_retraces (left : Nat) :
    Retraces (form frame left sub again b node) (form frame left sub' again b node) := by
  refine .next _ fun f => ?_
  split
  · exact .refl _
  · exact list_retraces hsub _ _ _ _

end

/-! ## Expressions -/

/-- Processes the expansion of a form, with a number of expansions left before it. -/
def expansion (frame : Frame) : (left : Nat) → Sub σ
  | 0 => fun _ _ => throw .unfinished
  | left + 1 => expression frame left

/-- Processes the parts of a form, whose ids are below a bound. -/
def parts (frame : Frame) (left bound : Nat) : Sub σ :=
  expressionBelow frame left (expansion frame left) bound

variable {frame : Frame} {u u' : Compilation σ} {b : Ir.BlockId} {node : NodeId}

/-- A form is processed by way of the parts below its id. -/
theorem expression_eq (frame : Frame) (left : Nat) (b : Ir.BlockId) (node : NodeId) :
    (expression frame left b node : Lower σ Result) = parts frame left (node.index + 1) b node := by
  cases left <;> rfl

/-- An expression has as many expansions left as the unit allows. -/
theorem process_eq (frame : Frame) (b : Ir.BlockId) (node : NodeId) (u : Compilation σ) :
    process frame b node u = parts frame u.maxExpansions (node.index + 1) b node u :=
  congrFun (expression_eq frame u.maxExpansions b node) u

/-- What comes to an end below a bound does the same below a larger one. -/
theorem parts_retraces (frame : Frame) (left : Nat) {bound bound' : Nat} (h : bound ≤ bound')
    (b : Ir.BlockId) (node : NodeId) :
    Retraces (parts frame left bound b node : Lower σ Result) (parts frame left bound' b node) := by
  induction bound generalizing bound' b node with
  | zero => exact .unfinished _
  | succ bound ih =>
    obtain ⟨bound', rfl⟩ := Nat.exists_eq_succ_of_ne_zero (Nat.ne_zero_of_lt h)
    exact form_retraces (fun b node => ih (Nat.le_of_succ_le_succ h) b node) b node left

/-- What an expression gives on its own it also gives as a part of a form. -/
theorem parts_of_process {bound : Nat} (hbound : node.index < bound) {r : Result}
    (h : process frame b node u = .ok r u') :
    parts frame u.maxExpansions bound b node u = .ok r u' := by
  rw [process_eq] at h
  exact (parts_retraces frame u.maxExpansions hbound b node).ok h

/-- A symbol is a truth value or a variable. -/
theorem parts_symbol {name : String} (h : u.forest.symbol? node = some name) (left bound : Nat) :
    parts frame left (bound + 1) b node u = symbolToken frame b node name u := by
  refine (bind_run rfl).trans ?_
  unfold Forest.symbol? at h
  split at h
  next text hkind =>
    rw [hkind, ← Option.some_inj.1 h]
    rfl
  next => cases h

/-- So it is on its own. -/
theorem process_symbol {name : String} (h : u.forest.symbol? node = some name) :
    process frame b node u = symbolToken frame b node name u :=
  (process_eq frame b node u).trans (parts_symbol h u.maxExpansions node.index)

/-- A list is processed by its items. -/
theorem parts_list {items : List NodeId} (h : u.forest.items? node = some items)
    (left bound : Nat) :
    parts frame left (bound + 1) b node u =
      list frame left (parts frame left bound) (expansion frame left) b node items u := by
  have hkind := Forest.items?_eq_some.1 h
  refine (bind_run rfl).trans ?_
  rw [hkind]
  rfl

section

variable {left : Nat} {sub again : Sub σ} {head : NodeId} {name : String} {form : CoreForm}
  {arguments : List NodeId}

/-- A list whose head has the name of a core form is one unless a function shadows it. -/
theorem list_core (hname : u.forest.symbol? head = some name)
    (hword : CoreForm.ofName? name = some form) (hplain : form ≠ .core)
    (hfree : u.context.hasFunction name = false) :
    list frame left sub again b node (head :: arguments) u =
      coreForm frame sub b node form arguments false u := by
  have hread : symbol? head u = .ok (some name) u := by rw [symbol?, hname]
  refine (bind_run hread).trans ((bind_run rfl).trans ?_)
  rw [hword, hfree]
  cases form <;> first | exact absurd rfl hplain | rfl

/-- A list whose head is the word for core forms is marked. -/
theorem list_marked (hname : u.forest.symbol? head = some name)
    (hword : CoreForm.ofName? name = some .core) :
    list frame left sub again b node (head :: arguments) u =
      marked frame sub b node arguments u := by
  have hread : symbol? head u = .ok (some name) u := by rw [symbol?, hname]
  exact (bind_run hread).trans ((bind_run rfl).trans (by rw [hword]))

/-- A marked list is a core form even if a function shadows it. -/
theorem marked_core (hname : u.forest.symbol? head = some name)
    (hword : CoreForm.ofName? name = some form) (hplain : form ≠ .core) :
    marked frame sub b node (head :: arguments) u =
      coreForm frame sub b node form arguments true u := by
  have hread : symbol? head u = .ok (some name) u := by rw [symbol?, hname]
  refine (bind_run hread).trans ?_
  rw [Option.bind_some, hword]
  dsimp only
  rw [if_neg hplain]

end

/-- A core form is processed by its handler. -/
theorem parts_core {form : CoreForm} {arguments : List NodeId} {isMarked : Bool}
    (h : u.IsCore node form arguments isMarked) (left bound : Nat) :
    parts frame left (bound + 1) b node u =
      coreForm frame (parts frame left bound) b node form arguments isMarked u := by
  cases h with
  | direct items symbol word plain free =>
    exact (parts_list items left bound).trans (list_core symbol word plain free)
  | marked items mark markWord symbol word plain =>
    exact (parts_list items left bound).trans
      ((list_marked mark markWord).trans (marked_core symbol word plain))

/-- A core form is processed by its handler, from the parts below its id. -/
theorem process_core {form : CoreForm} {arguments : List NodeId} {isMarked : Bool}
    (h : u.IsCore node form arguments isMarked) :
    process frame b node u =
      coreForm frame (parts frame u.maxExpansions node.index) b node form arguments isMarked u :=
  (process_eq frame b node u).trans (parts_core h u.maxExpansions node.index)

end FormCompiler.Lower
