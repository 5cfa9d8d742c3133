import FormCompiler.Proofs.Bounds.TopLevel

/-!
# No Access Is Out of Range

The tables of a unit refer to each other by ids: nodes to nodes and names; types to types;
namespaces to namespaces, types and functions; functions to blocks and values; instructions to all
kinds of code. Declarations hold names as texts, which are read once, where a form gives them. Forms
are lists whose parts are taken by position, and named types are records of cells. None of this is
checked where it is read.

`Lower.Checked.processAll` processes top-level forms as `Lower.processAll` does but looks before
each access, and checks all ids in the unit, in frames and in results around every form. It meets
no fault, whatever the forms: `Lower.processAll_inBounds`.
-/

namespace FormCompiler

variable {σ : Type}

/-- A unit over a forest, in which nothing is declared. -/
def Compilation.over (forest : Forest) (options : Options) (expander : Expander σ) (memory : σ) :
    Compilation σ := { Compilation.start options expander memory with forest }

namespace Lower

variable {options : Options} {expander : Expander σ} {f : Forest} {nodes : List NodeId}

/-- Over a forest in bounds, on a target whose integers have 1 to 128 bits and with an expander that
keeps forests in bounds, the processing of any top-level forms meets no fault. Checked or not, it
ends in the same way, in a unit in which all ids are in range. -/
theorem processAll_inBounds
    (hint : 1 ≤ options.target.intWidth ∧ options.target.intWidth ≤ 128)
    (hpointer : 1 ≤ options.target.pointerWidth ∧ options.target.pointerWidth ≤ 128)
    (hf : f.InBounds) (hexpander : expander.KeepsBounds) (hnodes : ∀ node ∈ nodes, f.Has node)
    (memory : σ) :
    (∀ fault u, Checked.processAll nodes (.over f options expander memory) ≠
        .error (.fault fault) u) ∧
      Checked.processAll nodes (.over f options expander memory) =
        FormCompiler.Checked.faultless (processAll nodes (.over f options expander memory)) ∧
      (final (processAll nodes) (.over f options expander memory)).InBounds := by
  have hu : (Compilation.over f options expander memory).InBounds :=
    ⟨hf, Context.inBounds_start hint hpointer, hexpander⟩
  have hpasses := Checked.processAll_passes (.over f options expander memory) nodes hnodes
  have hsame := (hpasses hu).1
  refine ⟨fun fault u => ?_, hsame, (hpasses.after_final hu).inBounds⟩
  rw [hsame]
  exact FormCompiler.Checked.faultless_ne_fault _ fault u

/-- The form `(def f (fn extern int ((a int)) (m a)))`. -/
def macroBody : Forest :=
  ⟨#[⟨.token ⟨.symbol, ⟨1⟩⟩, .dummy⟩, ⟨.token ⟨.symbol, ⟨2⟩⟩, .dummy⟩,
    ⟨.token ⟨.symbol, ⟨3⟩⟩, .dummy⟩, ⟨.token ⟨.symbol, ⟨4⟩⟩, .dummy⟩,
    ⟨.token ⟨.symbol, ⟨5⟩⟩, .dummy⟩, ⟨.token ⟨.symbol, ⟨6⟩⟩, .dummy⟩,
    ⟨.list [⟨5⟩, ⟨4⟩], .dummy⟩, ⟨.list [⟨6⟩], .dummy⟩, ⟨.token ⟨.symbol, ⟨7⟩⟩, .dummy⟩,
    ⟨.list [⟨8⟩, ⟨5⟩], .dummy⟩, ⟨.list [⟨2⟩, ⟨3⟩, ⟨4⟩, ⟨7⟩, ⟨9⟩], .dummy⟩,
    ⟨.list [⟨0⟩, ⟨1⟩, ⟨10⟩], .dummy⟩],
    ⟨#["", "def", "f", "fn", "extern", "int", "a", "m"]⟩⟩

/-- A function whose body a macro gives, the sequence of its argument. -/
theorem processAll_inBounds_macroBody :
    let rule : Rule := ⟨some "m", some 1, .replace (.list [.token .symbol "do" none, .rest 0] none)⟩
    let u := Compilation.over macroBody .standard (Rule.expander [rule]) ⟨⟩
    macroBody.InBounds ∧ u.expander.KeepsBounds ∧ macroBody.Has ⟨11⟩ ∧
      (∀ fault u', Checked.processAll [⟨11⟩] u ≠ .error (.fault fault) u') ∧
      Checked.processAll [⟨11⟩] u = FormCompiler.Checked.faultless (processAll [⟨11⟩] u) ∧
      (final (processAll [⟨11⟩]) u).InBounds := by
  intro rule u
  have hf : macroBody.InBounds := by decide
  have hexpander : u.expander.KeepsBounds := Rule.expander_keepsBounds [rule]
  exact ⟨hf, hexpander, by decide,
    processAll_inBounds (by decide) (by decide) hf hexpander (by decide) ⟨⟩⟩

end Lower

end FormCompiler
