import FormCompiler.Proofs.Lower.Finishing
import FormCompiler.Proofs.Lower.Landing
import FormCompiler.Proofs.Lower.Parts

/-!
# Forms About Pointers

`(@ pointer)` reads through a pointer, and `(# lvalue)` takes the address of what was read. Of
`(# (@ pointer))` nothing is read: the pointer itself is the address. All three process the pointer
in the same way, and refuse it in the same way if it leads to no value (`process_pointerForms`).

* `Forest.IsPointerForm`, `Forest.IsAddressOfMarked`: the forms about one pointer.
* `ReadsThrough`, `HandsOn`: the value a pointer leads to is loaded, or the pointer is the result as
  it is. In both cases the pointer is dropped afterwards.
-/

namespace FormCompiler

/-- The node is a list of a word and arguments. -/
def Forest.IsForm (f : Forest) (node : NodeId) (word : String) (arguments : List NodeId) : Prop :=
  ∃ head, f.items? node = some (head :: arguments) ∧ f.symbol? head = some word

/-- The node is `(@ pointer)` or, if only the address is wanted, `(# (@ pointer))`. -/
inductive Forest.IsPointerForm (f : Forest) (pointer : NodeId) :
    NodeId → (addressOnly : Bool) → Prop
  | read {node : NodeId} (form : f.IsForm node "@" [pointer]) : IsPointerForm f pointer node false
  | address {node read : NodeId} (form : f.IsForm read "@" [pointer])
      (taken : f.IsForm node "#" [read]) : IsPointerForm f pointer node true

/-- The node is `(# (core @ pointer))`. -/
def Forest.IsAddressOfMarked (f : Forest) (pointer node : NodeId) : Prop :=
  ∃ marked word, f.IsForm node "#" [marked] ∧ f.IsForm marked "core" [word, pointer] ∧
    f.symbol? word = some "@"

variable {σ : Type} {u u₁ : Compilation σ}

namespace Forest.IsForm

variable {node : NodeId} {word : String} {arguments : List NodeId}

/-- The arguments of a form stand before it. -/
theorem lt {f : Forest} (h : f.IsForm node word arguments) (hf : f.WellBuilt) :
    ∀ argument ∈ arguments, argument.index < node.index := by
  obtain ⟨head, hitems, -⟩ := h
  exact fun argument hargument =>
    hf node _ (items?_eq_some.1 hitems) argument (List.mem_cons_of_mem _ hargument)

/-- A list with the word of a core form is one unless a function shadows it. -/
theorem isCore {form : CoreForm} (h : u.forest.IsForm node word arguments)
    (hword : CoreForm.ofName? word = some form) (hplain : form ≠ .core)
    (hfree : u.context.hasFunction word = false) : u.IsCore node form arguments false := by
  obtain ⟨head, hitems, hsymbol⟩ := h
  exact .direct hitems hsymbol hword hplain hfree

/-- A form with another word than `@` does not read through a pointer by that word. -/
theorem not_isDeref (h : u.forest.IsForm node word arguments)
    (hword : CoreForm.ofName? word ≠ some .deref) (inner : List NodeId) :
    ¬ u.IsDeref node inner := by
  rintro ⟨head', name, hitems', hsymbol', hname, -⟩
  obtain ⟨head, hitems, hsymbol⟩ := h
  rw [hitems] at hitems'
  cases hitems'
  rw [hsymbol] at hsymbol'
  cases hsymbol'
  exact hword hname

end Forest.IsForm

/-- The pointer stands before the forms about it. -/
theorem Forest.IsPointerForm.lt {f : Forest} {pointer node : NodeId} {addressOnly : Bool}
    (h : f.IsPointerForm pointer node addressOnly) (hf : f.WellBuilt) :
    pointer.index < node.index := by
  cases h with
  | read form => exact form.lt hf pointer (List.mem_singleton_self _)
  | address form taken =>
    exact Nat.lt_trans (form.lt hf pointer (List.mem_singleton_self _))
      (taken.lt hf _ (List.mem_singleton_self _))

namespace Lower

/-- The value that the pointer leads to was loaded at the end of its block, and then the pointer was
dropped. The result is an lvalue at the pointer. -/
structure ReadsThrough (pointer : Result) (pointee : TypeId) (u : Compilation σ) (r : Result)
    (u' : Compilation σ) : Prop where
  result : r = ⟨pointee, r.value, pointer.block, true, some pointer.value, some pointer.ty, false,
    true⟩
  code : ∃ m c, Ir.Module.Emitted pointer.block (.load r.value pointer.value) u.context.ir m ∧
    Context.destruct pointer (u.context.withIr m) = .ok pointer c ∧ u' = u.withContext c

/-- The result is the pointer as it is, and no code was emitted but for dropping it. -/
structure HandsOn (pointer : Result) (u : Compilation σ) (r : Result) (u' : Compilation σ) :
    Prop where
  result : r = .new pointer.block pointer.ty pointer.value
  code : ∃ c, Context.destruct pointer u.context = .ok pointer c ∧ u' = u.withContext c

/-! ## Reading through a pointer -/

section

variable {sub : Sub σ} {b : Ir.BlockId} {node argument : NodeId} {pointer : Result}
  {pointee : TypeId} (addressOnly isMarked : Bool) (hsub : sub b argument u = .ok pointer u₁)

include hsub

/-- What is no pointer is refused. -/
theorem dereference_ofNone (hpointee : u₁.context.pool.pointee? pointer.ty = none) :
    FailsWith (dereference sub b node [argument] addressOnly isMarked) u .nonPointerDereference
      u₁ := by
  refine .next hsub (.bind (.next (a := u₁.context) rfl ?_))
  rw [hpointee]
  exact .next rfl (.next rfl (.fail rfl))

variable (hpointee : u₁.context.pool.pointee? pointer.ty = some pointee)

include hpointee

/-- Of a pointer the type that it points to is known. -/
theorem dereference_run {α : Type} (f : Result → TypeId → Lower σ α) :
    (do
      let pointer ← sub b argument
      let pointee ← expectPointee pointer argument
      f pointer pointee) u = f pointer pointee u₁ := by
  have hexpect : expectPointee pointer argument u₁ = .ok pointee u₁ := by
    refine (bind_run rfl).trans ?_
    rw [hpointee]
    rfl
  exact (bind_run hsub).trans (bind_run hexpect)

/-- A pointer to `void` is refused. -/
theorem dereference_ofVoid (hvoid : u₁.context.pool.isVoid pointee = true) :
    FailsWith (dereference sub b node [argument] addressOnly isMarked) u .voidPointerDereference
      u₁ := by
  have hfails : FailsWith (do fail (Report.voidPointerDereference (← span argument)) :
      Lower σ Result) u₁ .voidPointerDereference u₁ := .next rfl (.fail rfl)
  obtain ⟨d, hd, hrun⟩ := hfails
  refine ⟨d, hd, (dereference_run hsub hpointee _).trans ((bind_run rfl).trans ?_)⟩
  rw [if_pos hvoid]
  exact hrun

variable (hvoid : u₁.context.pool.isVoid pointee = false)

include hvoid

/-- The value is loaded and the pointer is dropped. -/
theorem dereference_reads {v : Ir.ValueId} {m : Ir.Module} {c : Context}
    (hload : Ir.Module.load pointer.block pointer.value u₁.context.ir = .ok v m)
    (hdrop : Context.destruct pointer (u₁.context.withIr m) = .ok pointer c) :
    dereference sub b node [argument] false isMarked u =
      .ok ⟨pointee, v, pointer.block, true, some pointer.value, some pointer.ty, isMarked, true⟩
        (u₁.withContext c) := by
  refine (dereference_run hsub hpointee _).trans ((bind_run rfl).trans ?_)
  rw [if_neg (by simp [hvoid])]
  have hemit : emit node (Ir.Module.load pointer.block pointer.value) u₁ = .ok v (u₁.withIr m) :=
    emit_ok_iff.2 ⟨m, hload, rfl⟩
  have hdropped : drop pointer (u₁.withIr m) = .ok pointer.block (u₁.withContext c) :=
    drop_ok_iff.2 ⟨pointer, c, hdrop, rfl, rfl⟩
  exact (bind_run hemit).trans ((bind_run rfl).trans (bind_run hdropped))

/-- The pointer is dropped, and is the result as it is. -/
theorem dereference_handsOn {c : Context}
    (hdrop : Context.destruct pointer u₁.context = .ok pointer c) :
    dereference sub b node [argument] true isMarked u =
      .ok { Result.new pointer.block pointer.ty pointer.value with noCopy := isMarked }
        (u₁.withContext c) := by
  refine (dereference_run hsub hpointee _).trans ((bind_run rfl).trans ?_)
  rw [if_neg (by simp [hvoid])]
  have hdropped : drop pointer u₁ = .ok pointer.block (u₁.withContext c) :=
    drop_ok_iff.2 ⟨pointer, c, hdrop, rfl, rfl⟩
  exact (bind_run rfl).trans (bind_run hdropped)

end

/-! ## Addresses -/

section

variable {sub : Sub σ} {b : Ir.BlockId} (node : NodeId) {operand : NodeId}

/-- The address of what a pointer leads to is taken without reading it. -/
theorem addressOf_deref {inner : List NodeId} (h : u.IsDeref operand inner) :
    addressOf sub b node [operand] u = dereference sub b operand inner true false u := by
  obtain ⟨found, hrun, hfound⟩ := derefArguments?_run u operand
  cases found with
  | none => exact absurd h (hfound inner)
  | some arguments =>
    obtain rfl := h.unique hfound
    exact bind_run hrun

/-- The address of another lvalue is the one that it was read from. -/
theorem addressOf_lvalue (h : ∀ inner, ¬ u.IsDeref operand inner) {r : Result}
    (hsub : sub b operand u = .ok r u₁) {address : Ir.ValueId} {addressTy : TypeId}
    (haddress : r.address = some address) (haddressTy : r.addressTy = some addressTy) :
    addressOf sub b node [operand] u =
      .ok (Result.new r.block addressTy address).ownedElsewhere u₁ := by
  obtain ⟨found, hrun, hfound⟩ := derefArguments?_run u operand
  cases found with
  | some arguments => exact absurd hfound (h arguments)
  | none =>
    refine (bind_run hrun).trans ((bind_run hsub).trans ?_)
    rw [haddress, haddressTy]
    rfl

end

/-! ## What follows a pointer -/

section

variable {scope : Scope} {b : Ir.BlockId} {ptr : Result} {pointee : TypeId}

/-- The pointer may be dropped where it is. -/
theorem Lands.drops (h : Lands scope b u ptr u₁) :
    ∃ c, Context.destruct ptr u₁.context = .ok ptr c := by
  obtain ⟨m, hdrop, -⟩ := h.typed.destruct_lands h.reachable.valid h.reachable.placed
    (.refl u₁.context.ir) h.leads.inTable h.leads.isOpen
  exact ⟨_, hdrop⟩

/-- A value that the pointer leads to may be read, and then the pointer may be dropped. -/
theorem Lands.reads (h : Lands scope b u ptr u₁)
    (hpointee : u₁.context.pool.pointee? ptr.ty = some pointee)
    (hvoid : u₁.context.pool.isVoid pointee = false) :
    ∃ v m c, Ir.Module.load ptr.block ptr.value u₁.context.ir = .ok v m ∧
      Ir.Module.Emitted ptr.block (.load v ptr.value) u₁.context.ir m ∧
      Context.destruct ptr (u₁.context.withIr m) = .ok ptr c := by
  -- what stands for a pointer to a value is a pointer in the module, so it may be loaded
  obtain ⟨inner, -, hfound⟩ := h.typed.backs.of_pointee? hpointee hvoid
  obtain ⟨v, m, hload, hemitted, -⟩ :=
    (Ir.Module.load_accepted (pointee?_of_find hfound) h.leads.isOpen).succeeds
  have hopen : m.isTerminated ptr.block = false := hemitted.isTerminated h.leads.inTable
  have hb : ptr.block.index < m.blocks.size := by
    rw [hemitted.size_blocks]
    exact h.leads.inTable
  obtain ⟨m', hdrop, -⟩ := h.typed.destruct_lands h.reachable.valid h.reachable.placed
    hemitted.toExtends hb hopen
  exact ⟨v, m, _, hload, hemitted, hdrop⟩

end

/-! ## The laws -/

section

variable {frame : Frame} {b : Ir.BlockId} {pointer node : NodeId} {addressOnly : Bool}
  {ptr : Result} (hu : Reachable u) (hforest : u.forest.WellBuilt)
  (hscope : frame.scope.Represented u.context) (hb : b.index < u.context.ir.blocks.size)
  (hopen : u.context.ir.isTerminated b = false) (hread : u.context.hasFunction "@" = false)
  (haddress : u.context.hasFunction "#" = false)

section

include hread haddress

/-- A form about a pointer is processed as one that reads through it. -/
theorem process_pointerForm (h : u.forest.IsPointerForm pointer node addressOnly) :
    ∃ place, process frame b node u =
      dereference (parts frame u.maxExpansions node.index) b place [pointer] addressOnly false
        u := by
  cases h with
  | read form =>
    have hcore : u.IsCore node .deref [pointer] false := form.isCore (by decide) nofun hread
    exact ⟨node, process_core hcore⟩
  | @address read form taken =>
    have hcore : u.IsCore node .addressOf [read] false := taken.isCore (by decide) nofun haddress
    obtain ⟨head, hitems, hsymbol⟩ := form
    exact ⟨read, (process_core hcore).trans
      (addressOf_deref node ⟨head, "@", hitems, hsymbol, by decide, hread⟩)⟩

end

include hu hforest hscope hb hopen hread haddress

/-- After a pointer, the forms about it look at its type. -/
theorem pointerForm_of_pointer (h : process frame b pointer u = .ok ptr u₁)
    (hform : u.forest.IsPointerForm pointer node addressOnly) :
    (u₁.context.pool.pointee? ptr.ty = none →
      FailsWith (process frame b node) u .nonPointerDereference u₁) ∧
    ∀ pointee, u₁.context.pool.pointee? ptr.ty = some pointee →
      (u₁.context.pool.isVoid pointee = true →
        FailsWith (process frame b node) u .voidPointerDereference u₁) ∧
      (u₁.context.pool.isVoid pointee = false → ∃ r u', process frame b node u = .ok r u' ∧
        if addressOnly then HandsOn ptr u₁ r u' else ReadsThrough ptr pointee u₁ r u') := by
  have hsub := parts_of_process (hform.lt hforest) h
  obtain ⟨place, hrun⟩ := process_pointerForm hread haddress hform
  have hlands := process_lands hu (hscope.typed hu.valid) hb hopen h
  refine ⟨fun hpointee => ?_, fun pointee hpointee => ⟨fun hvoid => ?_, fun hvoid => ?_⟩⟩
  · exact .of_run hrun (dereference_ofNone _ _ hsub hpointee)
  · exact .of_run hrun (dereference_ofVoid _ _ hsub hpointee hvoid)
  · cases addressOnly with
    | false =>
      obtain ⟨v, m, c, hload, hemitted, hdrop⟩ := hlands.reads hpointee hvoid
      exact ⟨_, _, hrun.trans (dereference_reads _ hsub hpointee hvoid hload hdrop),
        rfl, m, c, hemitted, hdrop, rfl⟩
    | true =>
      obtain ⟨c, hdrop⟩ := hlands.drops
      exact ⟨_, _, hrun.trans (dereference_handsOn _ hsub hpointee hvoid hdrop),
        rfl, c, hdrop, rfl⟩

/-- Where a form about a pointer gives a result, the pointer was processed with success, and leads
to a value. -/
theorem pointer_of_pointerForm (hexpander : u.expander.Builds)
    (hform : u.forest.IsPointerForm pointer node addressOnly) {r : Result} {u' : Compilation σ}
    (h : process frame b node u = .ok r u') :
    ∃ ptr u₁ pointee, process frame b pointer u = .ok ptr u₁ ∧
      u₁.context.pool.pointee? ptr.ty = some pointee ∧ u₁.context.pool.isVoid pointee = false := by
  obtain ⟨place, hrun⟩ := process_pointerForm hread haddress hform
  obtain ⟨ptr, u₁, hptr, -⟩ := bind_ok_iff.1 (hrun.symm.trans h)
  -- the pointer comes to an end on its own, so it does the same below the form
  have hends : ∀ u₂, process frame b pointer u ≠ .error .unfinished u₂ := fun u₂ hunfinished => by
    have hfinishes := process_finishes hexpander frame b pointer u
      ⟨rfl, rfl, hforest, hu.ordered⟩
    rw [hunfinished] at hfinishes
    cases hfinishes.1
  have hpointer : process frame b pointer u = .ok ptr u₁ := by
    rw [process_eq] at hends ⊢
    rw [← parts_retraces frame u.maxExpansions (hform.lt hforest) b pointer u hends]
    exact hptr
  obtain ⟨hnone, hsome⟩ :=
    pointerForm_of_pointer hu hforest hscope hb hopen hread haddress hpointer hform
  cases hpointee : u₁.context.pool.pointee? ptr.ty with
  | none =>
    obtain ⟨d, -, hfails⟩ := hnone hpointee
    cases h.symm.trans hfails
  | some pointee =>
    refine ⟨ptr, u₁, pointee, hpointer, hpointee, ?_⟩
    by_contra hvoid
    obtain ⟨d, -, hfails⟩ := (hsome pointee hpointee).1 (by simpa using hvoid)
    cases h.symm.trans hfails

omit hread in
/-- The address of a marked form is the pointer, too. -/
theorem markedAddress_of_pointer (h : process frame b pointer u = .ok ptr u₁) {pointee : TypeId}
    (hpointee : u₁.context.pool.pointee? ptr.ty = some pointee)
    (hvoid : u₁.context.pool.isVoid pointee = false)
    (hform : u.forest.IsAddressOfMarked pointer node) :
    ∃ q v, process frame b node u = .ok q v ∧ q.ty = ptr.ty ∧ q.value = ptr.value := by
  obtain ⟨marked, word, htaken, hmarked, hword⟩ := hform
  have hbefore : pointer.index < marked.index :=
    hmarked.lt hforest pointer (List.mem_cons_of_mem _ (List.mem_singleton_self _))
  have hbeforeNode : marked.index < node.index :=
    htaken.lt hforest marked (List.mem_singleton_self _)
  have hcore : u.IsCore marked .deref [pointer] true := by
    obtain ⟨mark, hitems, hmark⟩ := hmarked
    exact .marked hitems hmark (by decide) hword (by decide) nofun
  have hcoreNode : u.IsCore node .addressOf [marked] false :=
    htaken.isCore (by decide) nofun haddress
  -- the marked form is no fast path: the value is loaded, and its address is the pointer
  obtain ⟨w, m, c, hload, -, hdrop⟩ :=
    (process_lands hu (hscope.typed hu.valid) hb hopen h).reads hpointee hvoid
  have hrun : process frame b marked u = .ok _ _ := (process_core hcore).trans
    (dereference_reads true (parts_of_process hbefore h) hpointee hvoid hload hdrop)
  exact ⟨_, _, (process_core hcoreNode).trans (addressOf_lvalue node
    (hmarked.not_isDeref (by decide)) (parts_of_process hbeforeNode hrun) rfl rfl), rfl, rfl⟩

/-- **Reading through a pointer, and taking the address of that.** Both forms process the pointer,
and refuse it if it is none or if it points to `void`; nothing else was done then. Otherwise
`(@ pointer)` loads the value at the pointer and then drops the pointer, and `(# (@ pointer))` is
the pointer as it is, which was dropped without a load. Taken of `(core @ pointer)`, the address is
the same. -/
theorem process_pointerForms (pointer : NodeId) :
    (∀ ptr u₁, process frame b pointer u = .ok ptr u₁ →
      ∀ node addressOnly, u.forest.IsPointerForm pointer node addressOnly →
        (u₁.context.pool.pointee? ptr.ty = none →
          FailsWith (process frame b node) u .nonPointerDereference u₁) ∧
        ∀ pointee, u₁.context.pool.pointee? ptr.ty = some pointee →
          (u₁.context.pool.isVoid pointee = true →
            FailsWith (process frame b node) u .voidPointerDereference u₁) ∧
          (u₁.context.pool.isVoid pointee = false → ∃ r u', process frame b node u = .ok r u' ∧
            if addressOnly then HandsOn ptr u₁ r u' else ReadsThrough ptr pointee u₁ r u')) ∧
    (u.expander.Builds → ∀ read r u', u.forest.IsPointerForm pointer read false →
      process frame b read u = .ok r u' →
      ∀ address markedAddress, u.forest.IsPointerForm pointer address true →
        u.forest.IsAddressOfMarked pointer markedAddress →
        ∃ q v q' v', process frame b address u = .ok q v ∧
          process frame b markedAddress u = .ok q' v' ∧ q'.ty = q.ty ∧ q'.value = q.value) := by
  refine ⟨fun ptr u₁ h node addressOnly hform =>
    pointerForm_of_pointer hu hforest hscope hb hopen hread haddress h hform, ?_⟩
  intro hexpander read r u' hread' h address markedAddress haddress' hmarked
  obtain ⟨ptr, u₁, pointee, hpointer, hpointee, hvoid⟩ :=
    pointer_of_pointerForm hu hforest hscope hb hopen hread haddress hexpander hread' h
  obtain ⟨q, v, hq, hhands⟩ := ((pointerForm_of_pointer hu hforest hscope hb hopen hread haddress
    hpointer haddress').2 pointee hpointee).2 hvoid
  obtain ⟨q', v', hq', hty, hvalue⟩ :=
    markedAddress_of_pointer hu hforest hscope hb hopen haddress hpointer hpointee hvoid hmarked
  have hresult : q = .new ptr.block ptr.ty ptr.value := hhands.result
  exact ⟨q, v, q', v', hq, hq', by rw [hty, hresult]; rfl, by rw [hvalue, hresult]; rfl⟩

end

/-- A session with the forms about the pointer to the characters of the text `a`. -/
def textSession : Compilation Unit where
  forest := ⟨#[⟨.token ⟨.symbol, ⟨1⟩⟩, .dummy⟩, ⟨.token ⟨.symbol, ⟨2⟩⟩, .dummy⟩,
    ⟨.token ⟨.symbol, ⟨3⟩⟩, .dummy⟩, ⟨.token ⟨.string, ⟨4⟩⟩, .dummy⟩,
    ⟨.list [⟨0⟩, ⟨3⟩], .dummy⟩, ⟨.list [⟨1⟩, ⟨4⟩], .dummy⟩, ⟨.list [⟨2⟩, ⟨0⟩, ⟨3⟩], .dummy⟩,
    ⟨.list [⟨1⟩, ⟨6⟩], .dummy⟩], ⟨#["", "@", "#", "core", "a"]⟩⟩
  context := (Context.openSession "scratch" [] .void .internal (.start .standard)).2
  memory := ()
  expander := .none
  maxExpansions := 128

/-- The function of the session, without variables. -/
def textFrame : Frame := ⟨⟨0⟩, .empty⟩

/-- The first character is read through the pointer, and its address is the pointer. -/
theorem pointerForms_textSession :
    ∃ ptr u₁ r u' q v q' v', process textFrame ⟨0⟩ ⟨3⟩ textSession = .ok ptr u₁ ∧
      process textFrame ⟨0⟩ ⟨4⟩ textSession = .ok r u' ∧ ReadsThrough ptr .char u₁ r u' ∧
      process textFrame ⟨0⟩ ⟨5⟩ textSession = .ok q v ∧
      process textFrame ⟨0⟩ ⟨7⟩ textSession = .ok q' v' ∧ q'.ty = q.ty ∧
      q'.value = q.value := by
  have hreachable : Reachable textSession := by
    have hstart : Reachable (.start .standard .none () : Compilation Unit) := .start _ _ _
    have hparams : ∀ p ∈ ([] : List SessionParam),
        (Compilation.start .standard .none () : Compilation Unit).context.Grounded p.ty := nofun
    exact (hstart.openSession "scratch" hparams .void .internal).forest textSession.forest
  have hscope : textFrame.scope.Represented textSession.context := fun _ _ h => by cases h
  obtain ⟨hpointer, hagree⟩ := process_pointerForms (b := ⟨0⟩) hreachable (by decide +kernel)
    hscope (by decide +kernel) (by decide +kernel) (by decide +kernel) (by decide +kernel) ⟨3⟩
  have hrun : Ends (process textFrame ⟨0⟩ ⟨3⟩) textSession
      (fun ptr u₁ => u₁.context.pool.pointee? ptr.ty = some .char ∧
        u₁.context.pool.isVoid .char = false) fun _ => False := by
    unfold Ends
    decide +kernel
  obtain ⟨ptr, u₁, h, hpointee, hvoid⟩ := hrun.succeeds
  have hform : textSession.forest.IsForm ⟨4⟩ "@" [⟨3⟩] := ⟨⟨0⟩, by decide +kernel⟩
  have htaken : textSession.forest.IsForm ⟨5⟩ "#" [⟨4⟩] := ⟨⟨1⟩, by decide +kernel⟩
  have hmarked : textSession.forest.IsAddressOfMarked ⟨3⟩ ⟨7⟩ :=
    ⟨⟨6⟩, ⟨0⟩, ⟨⟨1⟩, by decide +kernel⟩, ⟨⟨2⟩, by decide +kernel⟩, by decide +kernel⟩
  obtain ⟨r, u', hread, hreads⟩ :=
    ((hpointer ptr u₁ h ⟨4⟩ false (.read hform)).2 .char hpointee).2 hvoid
  obtain ⟨q, v, q', v', haddresses⟩ :=
    hagree (fun _ _ _ h => h) ⟨4⟩ r u' (.read hform) hread ⟨5⟩ ⟨7⟩ (.address hform htaken) hmarked
  exact ⟨ptr, u₁, r, u', q, v, q', v', h, hread, hreads, haddresses⟩

end Lower

end FormCompiler
