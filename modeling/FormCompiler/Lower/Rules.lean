import FormCompiler.Lower.Compilation
import FormCompiler.Tree.Template

/-!
# Expansion Rules

Macro expanders given by an ordered list of rules. A rule is about lists with a certain head, or
about all lists, and perhaps about a certain number of arguments only. The first rule that is
about an offered list decides.
-/

namespace FormCompiler

/-- What a rule does with a list it is about. -/
inductive RuleAction where
  /-- The list has no meaning. -/
  | refuse (detail : String)
  /-- The list stands for a tree made from its arguments. -/
  | replace (template : Template)
  /-- The list stands for itself. -/
  | keep
deriving Inhabited

/-- An expansion rule. -/
structure Rule where
  /-- The head of the lists the rule is about; none for all lists. -/
  head : Option String
  /-- Their number of arguments; none for any number. -/
  count : Option Nat
  action : RuleAction
deriving Inhabited

namespace Rule

/-- The rule is about lists of these items. -/
def appliesTo (rule : Rule) (forest : Forest) (items : List NodeId) : Bool :=
  let headFits :=
    match rule.head with
    | none => true
    | some name => items.head?.bind forest.symbol? == some name
  let countFits :=
    match rule.count with
    | none => true
    | some count => items.tail.length == count
  headFits && countFits

/-- The answer of a rule about a list, and the forest with the nodes it adds. -/
def apply (rule : Rule) (forest : Forest) (node : NodeId) (items : List NodeId) :
    Expansion × Forest :=
  match rule.action with
  | .refuse detail => (.failed detail, forest)
  | .keep => (.expanded node, forest)
  | .replace template =>
    match Template.add items.tail template forest with
    | .ok result forest => (.expanded result, forest)
    | .error missing forest =>
      (.failed ("missing macro argument " ++ toString missing.index), forest)

/-- The expander of a list of rules. It has no memory. -/
def expander (rules : List Rule) : Expander PUnit := fun memory forest node =>
  match forest.items? node with
  | none => (.notApplicable, memory, forest)
  | some items =>
    match rules.find? fun rule => rule.appliesTo forest items with
    | none => (.notApplicable, memory, forest)
    | some rule =>
      let (expansion, forest) := rule.apply forest node items
      (expansion, memory, forest)

end Rule

end FormCompiler
