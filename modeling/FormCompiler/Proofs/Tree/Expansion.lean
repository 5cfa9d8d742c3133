import FormCompiler.Lower.CoreForm
import FormCompiler.Proofs.Tree.Building
import FormCompiler.Proofs.Tree.Reading

/-!
# The Full Expansion of a Form

What a form becomes when every macro call in it is replaced by what it expands to, again and again.
Only forms that are evaluated are offered: the arguments of calls and of core forms are, and lists
that are refused are not.

* `Expander.Follows`: the answers of an expander are those of a function on trees.
* `Tree.manner`: which items of a list are evaluated.
* `Macros.expand`: the full expansion of a tree with at most a number of rewrites one after the
  other.

`#` looks at its operand before that is expanded, and does not read a pointer for an operand
`(@ pointer)`. An operand that only expands to such a form is read first. So its expansion stands
for the operand inside `(core do ...)`, which hides its form (`Tree.enclose`).
-/

namespace FormCompiler

/-- What a tree stands for to an expander. -/
inductive Reply where
  /-- It stands for another tree. -/
  | expanded (t : Tree)
  /-- It is no macro call. -/
  | notApplicable
  /-- It is a macro call that has no meaning. -/
  | failed (detail : String)

/-- An answer says what a reply does. The node it names is in the forest. -/
def Reply.Is (f : Forest) : Reply → Expansion → Prop
  | expanded t, .expanded node => node.index < f.size ∧ f.tree node = t
  | notApplicable, .notApplicable => True
  | failed detail, .failed detail' => detail' = detail
  | _, _ => False

/-- The answers of the expander depend only on the tree it is offered, and it only adds to the
forest. -/
structure Expander.Follows {σ : Type} (expander : Expander σ) (reply : Tree → Reply) : Prop where
  builds : expander.Builds
  adds : ∀ memory (f : Forest) node, f.WellBuilt → f.Extends (expander memory f node).2.2
  answers : ∀ memory (f : Forest) (node : NodeId), f.WellBuilt → node.index < f.size →
    (reply (f.tree node)).Is (expander memory f node).2.2 (expander memory f node).1

/-- Which items of a list are evaluated. -/
inductive Manner where
  /-- None: the list is refused before. -/
  | refused
  /-- The items after the first ones, as arguments of a core form. -/
  | core (form : CoreForm) (leading : Nat)
  /-- The items after the head, unless the list is a macro call. -/
  | call (name : String)
deriving DecidableEq

/-- The number of items that are not evaluated in a list that is not refused. -/
def Manner.leading : Manner → Nat
  | refused => 0
  | core _ leading => leading
  | call _ => 1

namespace Tree

variable (shadowed : String → Bool)

/-- Which items of a list are evaluated, where some names are those of functions. -/
def manner : List Tree → Manner
  | [] => .refused
  | head :: rest =>
    match head.symbol? with
    | none => .refused
    | some name =>
      match CoreForm.ofName? name with
      | some .core =>
        match rest with
        | [] => .refused
        | second :: _ =>
          match second.symbol?.bind CoreForm.ofName? with
          | some form => if form = .core then .refused else .core form 2
          | none => .refused
      | some form => if shadowed name then .call name else .core form 1
      | none => .call name

/-- The form reads through a pointer, and `#` does not read it. -/
def readsThrough : Tree → Bool
  | token _ _ => false
  | list items => manner shadowed items = .core .deref 1

/-- What stands for an operand of `#` after its expansion: if only the expansion is a form that `#`
does not read, it is enclosed. -/
def enclose (operand expansion : Tree) : Tree :=
  if expansion.readsThrough shadowed && !operand.readsThrough shadowed then
    .list [.token .symbol CoreForm.core.name, .token .symbol CoreForm.sequence.name, expansion]
  else expansion

end Tree

/-- How forms are expanded: the macros, the names that are those of functions, and what stands for
an operand of `#` after its expansion. -/
structure Macros where
  reply : Tree → Reply
  shadowed : String → Bool
  operand : Tree → Tree → Tree

namespace Macros

section

variable (m : Macros) (left : Nat) (again : Tree → Option Tree)

mutual

/-- The full expansion of a tree, if it may be rewritten `left` times and `again` expands what that
gives. Without any rewrites left, no list may be offered. -/
def expandWith : Tree → Option Tree
  | .token kind text => some (.token kind text)
  | .list items =>
    match Tree.manner m.shadowed items with
    | .refused => some (.list items)
    | .core form leading => (expandFrom (form = .addressOf) leading items).map .list
    | .call _ =>
      if left = 0 then none
      else
        match m.reply (.list items) with
        | .expanded t => again t
        | .notApplicable => (expandFrom false 1 items).map .list
        | .failed _ => none

/-- The trees after a number of leading ones are expanded. -/
def expandFrom (operands : Bool) : (leading : Nat) → List Tree → Option (List Tree)
  | _, [] => some []
  | leading + 1, t :: ts => (expandFrom operands leading ts).map (t :: ·)
  | 0, t :: ts =>
    match expandWith t, expandFrom operands 0 ts with
    | some t', some ts' => some ((if operands then m.operand t t' else t') :: ts')
    | _, _ => none

end

end

variable (m : Macros)

/-- The full expansion of a tree, if it takes at most a number of rewrites one after the other and
no macro call fails. -/
def expand : (left : Nat) → Tree → Option Tree
  | 0 => m.expandWith 0 fun _ => none
  | left + 1 => m.expandWith (left + 1) (expand left)

/-! ## Items that are not evaluated -/

variable {m} {left : Nat} {again : Tree → Option Tree} {operands : Bool}

/-- The leading items stay as they are. -/
theorem take_of_expandFrom {leading : Nat} {items items' : List Tree}
    (h : m.expandFrom left again operands leading items = some items') :
    items'.take leading = items.take leading := by
  induction leading generalizing items items' with
  | zero => rfl
  | succ leading ih =>
    match items with
    | [] =>
      cases h
      rfl
    | t :: ts =>
      obtain ⟨ts', hts, rfl⟩ := Option.map_eq_some_iff.1 h
      exact congrArg (t :: ·) (ih hts)

end Macros

namespace Tree

variable {shadowed : String → Bool}

/-- The leading items tell how a list is evaluated. -/
theorem manner_take_append {items : List Tree} (h : manner shadowed items ≠ .refused)
    (rest : List Tree) :
    manner shadowed (items.take (manner shadowed items).leading ++ rest) =
      manner shadowed items := by
  match items with
  | [] => exact absurd rfl h
  | head :: others =>
    cases hsymbol : head.symbol? with
    | none => exact absurd (by simp [manner, hsymbol]) h
    | some name =>
      cases hword : CoreForm.ofName? name with
      | none => simp [manner, Manner.leading, hsymbol, hword]
      | some form =>
        by_cases hcore : form = .core
        · subst hcore
          match others with
          | [] => exact absurd (by simp [manner, hsymbol, hword]) h
          | second :: others =>
            cases hform : second.symbol?.bind CoreForm.ofName? with
            | none => exact absurd (by simp [manner, hsymbol, hword, hform]) h
            | some form =>
              by_cases hmark : form = .core
              · exact absurd (by simp [manner, hsymbol, hword, hform, hmark]) h
              · simp [manner, Manner.leading, hsymbol, hword, hform, hmark]
        · cases hname : shadowed name <;> simp [manner, Manner.leading, hsymbol, hword, hname]

/-- What stands for an operand of `#` reads through a pointer if the operand does. -/
theorem readsThrough_enclose (operand expansion : Tree) :
    (enclose shadowed operand expansion).readsThrough shadowed =
      (expansion.readsThrough shadowed && operand.readsThrough shadowed) := by
  unfold enclose
  split
  next h =>
    rw [Bool.and_eq_true, Bool.not_eq_true'] at h
    rw [h.2, Bool.and_false]
    rfl
  next h =>
    cases hexpansion : expansion.readsThrough shadowed
    · rfl
    · simpa [hexpansion] using h

end Tree

/-- The expansion of a list is evaluated in the same way. -/
theorem Macros.manner_of_expandFrom {m : Macros} {left : Nat} {again : Tree → Option Tree}
    {operands : Bool} {items items' : List Tree} {manner : Manner}
    (hmanner : Tree.manner m.shadowed items = manner) (hrefused : manner ≠ .refused)
    (h : m.expandFrom left again operands manner.leading items = some items') :
    Tree.manner m.shadowed items' = manner := by
  subst hmanner
  have hsame := Tree.manner_take_append hrefused
    (items'.drop (Tree.manner m.shadowed items).leading)
  rwa [← take_of_expandFrom h, List.take_append_drop] at hsame

end FormCompiler
