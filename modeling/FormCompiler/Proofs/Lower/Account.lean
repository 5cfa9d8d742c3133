import FormCompiler.Lower.FunctionDeclaration
import FormCompiler.Proofs.Lower.Reports

/-!
# Accounts of Emitted Code

Code for an expression is emitted from one block on, and may go on in another one. An `Account` says
what is known on the way: when code may be emitted into a block, which values it may use there, how
the contexts before and after are related if the code goes on (`Leads`) and if emitting stopped
(`Stops`), and what is known between the two branches of a conditional (`Forks`). Its laws say that
every instruction the handlers emit keeps the account.

`Account.process_covered` is the theorem about all of them at once: the account of an expression is
kept, whatever the form and however deep, whether it succeeds or stops midway.
-/

namespace FormCompiler

/-- What is known while the code for an expression is emitted, in the frame of a function. -/
structure Account (frame : Frame) where
  /-- Code may be emitted into the block. -/
  At : Context → Ir.BlockId → Prop
  /-- Code at the end of the block may use the value as one of the type, and clean it up if it is
  owned there. -/
  Usable : Context → Ir.BlockId → (owned : Bool) → TypeId → Ir.ValueId → Prop
  /-- Code was emitted from the first block on and goes on in the second one. -/
  Leads : Context → Ir.BlockId → Context → Ir.BlockId → Prop
  /-- Code was emitted from the block on until something was refused. -/
  Stops : Context → Ir.BlockId → Context → Prop
  /-- Control branches; code was emitted in both branches, and goes on in the two blocks. -/
  Forks : Context → Ir.BlockId → Context → Ir.BlockId → Ir.BlockId → Prop
  refl {c : Context} {b : Ir.BlockId} : At c b → Leads c b c b
  trans {c c₁ c₂ : Context} {b b₁ b₂ : Ir.BlockId} :
    Leads c b c₁ b₁ → Leads c₁ b₁ c₂ b₂ → Leads c b c₂ b₂
  lands {c c' : Context} {b b' : Ir.BlockId} : Leads c b c' b' → At c' b'
  kept {c c' : Context} {b b' : Ir.BlockId} :
    Leads c b c' b' → c.Within (Pool.Kept frame.scope) Ir.Module.Extends c'
  stays {c c' : Context} {b b' : Ir.BlockId} {owned : Bool} {t : TypeId} {v : Ir.ValueId} :
    Usable c b owned t v → Leads c b c' b' → Usable c' b' owned t v
  lends {c : Context} {b : Ir.BlockId} {owned : Bool} {t : TypeId} {v : Ir.ValueId} :
    Usable c b owned t v → Usable c b false t v
  unfinished {c : Context} {b : Ir.BlockId} : At c b → Stops c b c
  rejects {c c' : Context} {b : Ir.BlockId} : At c b → c.Rejects c' → Stops c b c'
  after {c c₁ c₂ : Context} {b b₁ : Ir.BlockId} :
    Leads c b c₁ b₁ → Stops c₁ b₁ c₂ → Stops c b c₂
  /-- A literal or a truth value. -/
  constant {c c' : Context} {b : Ir.BlockId} {t : TypeId} {v : Ir.ValueId} :
    At c b → c.AddsConstant frame.scope t v c' → Leads c b c' b ∧ Usable c' b true t v
  /-- A variable that is a value. -/
  value {c : Context} {b : Ir.BlockId} {name : String} {t : TypeId} {v : Ir.ValueId} :
    At c b → frame.scope.lookup? name = some ⟨t, .value v⟩ → Usable c b false t v
  /-- Reading a variable that lives in a slot. -/
  slot {c : Context} {b : Ir.BlockId} {name : String} {t : TypeId} {a : Ir.ValueId}
      (span : Span) :
    At c b → frame.scope.lookup? name = some ⟨t, .slot a⟩ →
      Ends (Context.emit span (Ir.Module.load b a)) c
        (fun v c' => Leads c b c' b ∧ Usable c' b false t v) (Stops c b)
  /-- The address of a variable that lives in a slot. -/
  address {c : Context} {b : Ir.BlockId} {name : String} {t : TypeId} {a : Ir.ValueId} :
    At c b → frame.scope.lookup? name = some ⟨t, .slot a⟩ →
      Leads c b (c.withPool (c.pool.pointerTo t).2) b ∧
        Usable (c.withPool (c.pool.pointerTo t).2) b false (c.pool.pointerTo t).1 a
  /-- A pointer through which a value may be read is as good as an owned one. -/
  pointer {c : Context} {b : Ir.BlockId} {t pointee : TypeId} {v : Ir.ValueId} :
    At c b → Usable c b false t v → c.pool.pointee? t = some pointee →
      c.pool.isVoid pointee = false → Usable c b true t v
  /-- Reading through a pointer. -/
  load {c : Context} {b : Ir.BlockId} {t pointee : TypeId} {v : Ir.ValueId} (span : Span) :
    At c b → Usable c b false t v → c.pool.pointee? t = some pointee →
      c.pool.isVoid pointee = false →
      Ends (Context.emit span (Ir.Module.load b v)) c
        (fun w c' => Leads c b c' b ∧ Usable c' b false pointee w) (Stops c b)
  /-- Writing through a pointer. -/
  store {c : Context} {b : Ir.BlockId} {t pointee : TypeId} {v w : Ir.ValueId} (span : Span) :
    At c b → Usable c b false t v → Usable c b false pointee w →
      c.pool.pointee? t = some pointee →
      Ends (Context.emit span (Ir.Module.store b w v)) c (fun _ c' => Leads c b c' b) (Stops c b)
  /-- Calling a function for its effect. -/
  effect {c : Context} {b : Ir.BlockId} {name : String} {tys : List TypeId}
      {vs : List Ir.ValueId} {f : Function} (span : Span) :
    At c b → c.lookupFunction? name tys = some f → List.Forall₂ (Usable c b false) tys vs →
      Ends (Context.emit span (Ir.Module.call b f.backend vs)) c (fun _ c' => Leads c b c' b)
        (Stops c b)
  /-- Calling a function for its result, which is the value of type `void` if it has none. -/
  call {c : Context} {b : Ir.BlockId} {name : String} {tys : List TypeId}
      {vs : List Ir.ValueId} {f : Function} (span : Span) :
    At c b → c.lookupFunction? name tys = some f → List.Forall₂ (Usable c b false) tys vs →
      Ends (Context.emit span (Ir.Module.call b f.backend vs)) c
        (fun returned c₁ => ∀ v c', (returned = some v ∧ c' = c₁) ∨
            (returned = none ∧ Context.voidValue c₁ = (v, c')) →
          Leads c b c' b ∧ Usable c' b true f.returnType v) (Stops c b)
  /-- Copying a borrowed value. -/
  copy {c c₁ : Context} {b : Ir.BlockId} {t : TypeId} {v : Ir.ValueId} {f : Ir.FuncId}
      {ty : Ir.TyId} (span : Span) :
    At c b → Usable c b false t v → c.pointerFunction? Context.copyAssignName t 2 = some f →
      Context.backendType t c = (ty, c₁) →
      Ends (Context.emit span (Lower.copyInstrs b ty v f)) c₁
        (fun w c' => Leads c b c' b ∧ Usable c' b true t w) (Stops c b)
  /-- Calling the destructor of a value. -/
  destroy {c c₁ : Context} {b : Ir.BlockId} {t : TypeId} {v : Ir.ValueId} {f : Ir.FuncId}
      {ty : Ir.TyId} :
    At c b → Usable c b true t v → c.destructor? t = some f →
      Context.backendType t c = (ty, c₁) →
      Ends (Context.emitOr Context.cleanupRefused (Context.callDestructor b ty v f)) c₁
        (fun _ c' => Leads c b c' b) (Stops c b)
  /-- Taking a member of a struct to clean it up. -/
  extract {c : Context} {b : Ir.BlockId} {t member : TypeId} {v : Ir.ValueId} {s : Struct}
      {index : Nat} :
    At c b → Usable c b true t v → c.structOfType? t = some s →
      s.memberTypes[index]? = some member →
      Ends (Context.emitOr Context.cleanupRefused (Ir.Module.extractValue b v index)) c
        (fun w c' => Leads c b c' b ∧ Usable c' b true member w) (Stops c b)
  /-- Branching by a truth value. -/
  fork {c : Context} {b onTrue onFalse : Ir.BlockId} {v : Ir.ValueId} {m m' : Ir.Module}
      (span : Span) :
    At c b → Usable c b false .bool v →
      Ir.Module.appendBlock frame.func "then" c.ir = (onTrue, m) →
      Ir.Module.appendBlock frame.func "else" m = (onFalse, m') →
      Ends (Context.emit span (Ir.Module.condBr b v onTrue onFalse)) (c.withIr m')
        (fun _ c' => Forks c b c' onTrue onFalse) (Stops c b)
  /-- Merging the values of both branches. -/
  merge {c c₁ : Context} {b onTrue onFalse target : Ir.BlockId} {owned : Bool} {t : TypeId}
      {v w : Ir.ValueId} {m : Ir.Module} (span : Span) :
    Forks c b c₁ onTrue onFalse → Usable c₁ onTrue owned t v → Usable c₁ onFalse owned t w →
      Ir.Module.appendBlock frame.func "merge" c₁.ir = (target, m) →
      Ends (Context.emit span (Lower.join onTrue onFalse target)) (c₁.withIr m)
        (fun _ c₂ =>
          (c₂.pool.isVoid t = true → ∀ x c', Context.voidValue c₂ = (x, c') →
            Leads c b c' target ∧ Usable c' target owned t x) ∧
          (c₂.pool.isVoid t = false → ∀ span, Ends
            (Context.emit span (Ir.Module.phi target [(v, onTrue), (w, onFalse)])) c₂
            (fun x c' => Leads c b c' target ∧ Usable c' target owned t x) (Stops c b)))
        (Stops c b)
  swap {c c' : Context} {b onTrue onFalse : Ir.BlockId} :
    Forks c b c' onTrue onFalse → Forks c b c' onFalse onTrue
  branch {c c' : Context} {b onTrue onFalse : Ir.BlockId} :
    Forks c b c' onTrue onFalse → At c' onTrue
  goesOn {c c₁ c₂ : Context} {b onTrue onFalse onTrue' : Ir.BlockId} :
    Forks c b c₁ onTrue onFalse → Leads c₁ onTrue c₂ onTrue' → Forks c b c₂ onTrue' onFalse
  stopsIn {c c₁ c₂ : Context} {b onTrue onFalse : Ir.BlockId} :
    Forks c b c₁ onTrue onFalse → Stops c₁ onTrue c₂ → Stops c b c₂
  apart {c c₁ c₂ : Context} {b onTrue onFalse onTrue' : Ir.BlockId} {owned : Bool} {t : TypeId}
      {v : Ir.ValueId} :
    Forks c b c₁ onTrue onFalse → Usable c₁ onFalse owned t v → Leads c₁ onTrue c₂ onTrue' →
      Usable c₂ onFalse owned t v

/-- The struct of a type stays the same. -/
theorem Context.Within.structOfType? {s : Scope} {R : Ir.Module → Ir.Module → Prop}
    {c c' : Context} (h : c.Within (Pool.Kept s) R c') {t : TypeId} {struct : Struct}
    (hstruct : c.structOfType? t = some struct) : c'.structOfType? t = some struct := by
  unfold Context.structOfType? at hstruct ⊢
  have ht : t.index < c.pool.types.size := by
    by_contra hge
    rw [Pool.type_of_ge (Nat.le_of_not_lt hge)] at hstruct
    cases hstruct
  rw [h.pool.grown.type ht]
  simpa only [h.namespaceAt?] using hstruct

namespace Account

variable {frame : Frame} (K : Account frame)

/-- The code for an expression led to its result. -/
structure Gives (c : Context) (b : Ir.BlockId) (r : Result) (c' : Context) : Prop where
  leads : K.Leads c b c' r.block
  value : K.Usable c' r.block (!r.borrowed) r.ty r.value
  address : ∀ a, r.address = some a → ∃ t, r.addressTy = some t ∧ K.Usable c' r.block false t a

/-- A way to process parts of forms that keeps the account. -/
def Covers {σ : Type} (sub : Lower.Sub σ) : Prop :=
  ∀ b node u, K.At u.context b → Ends (sub b node) u
    (fun r u' => K.Gives u.context b r u'.context) fun u' => K.Stops u.context b u'.context

variable {K} {σ α : Type} {c c' c₁ : Context} {b b₁ : Ir.BlockId} {u u₁ : Compilation σ}

/-- The account of what comes before and of a check that leads on. -/
theorem Leads.then_check {x : Check α} {block : α → Ir.BlockId} (h : K.Leads c b c₁ b₁)
    (hx : Ends x c₁ (fun a c' => K.Leads c₁ b₁ c' (block a)) (K.Stops c₁ b₁)) :
    Ends x c₁ (fun a c' => K.Leads c b c' (block a)) (K.Stops c b) :=
  hx.mono (fun _ _ => K.trans h) fun _ => K.after h

/-- The account of what comes before and of a step that leads on. -/
theorem Leads.then_step {x : Lower σ α} {block : α → Ir.BlockId}
    (h : K.Leads c b u₁.context b₁)
    (hx : Ends x u₁ (fun a u' => K.Leads u₁.context b₁ u'.context (block a))
      fun u' => K.Stops u₁.context b₁ u'.context) :
    Ends x u₁ (fun a u' => K.Leads c b u'.context (block a)) fun u' => K.Stops c b u'.context :=
  hx.mono (fun _ _ => K.trans h) fun _ => K.after h

/-- The account of what comes before and of a step that gives a result. -/
theorem Leads.then_gives {x : Lower σ Result} (h : K.Leads c b u₁.context b₁)
    (hx : Ends x u₁ (fun r u' => K.Gives u₁.context b₁ r u'.context)
      fun u' => K.Stops u₁.context b₁ u'.context) :
    Ends x u₁ (fun r u' => K.Gives c b r u'.context) fun u' => K.Stops c b u'.context :=
  hx.mono (fun _ _ hr => ⟨K.trans h hr.leads, hr.value, hr.address⟩) fun _ => K.after h

/-- What is rejected stops. -/
theorem At.rejected {x : Lower σ α} {Q : α → Compilation σ → Prop} (h : K.At u.context b)
    (hx : Refuses Compilation.Rejects x) : Ends x u Q fun u' => K.Stops u.context b u'.context :=
  hx.ends u fun _ => K.rejects h

/-- What is rejected after code was emitted stops. -/
theorem Leads.rejected {x : Lower σ α} {Q : α → Compilation σ → Prop}
    (h : K.Leads c b u.context b₁) (hx : Refuses Compilation.Rejects x) :
    Ends x u Q fun u' => K.Stops c b u'.context :=
  hx.ends u fun _ hr => K.after h (K.rejects (K.lands h) hr)

end Account

namespace Lower

variable {frame : Frame} {K : Account frame} {σ : Type} {c : Context} {b : Ir.BlockId}
  {u : Compilation σ}

/-! ## Cleanup -/

/-- Cleaning up the members of a struct keeps the account if cleaning up values does. -/
theorem cleanUpMembers_covered {cleanUp : Ir.BlockId → TypeId → Ir.ValueId → Check Ir.BlockId}
    (h : ∀ c b t v, K.At c b → K.Usable c b true t v →
      Ends (cleanUp b t v) c (fun b' c' => K.Leads c b c' b') (K.Stops c b))
    {t : TypeId} {s : Struct} {v : Ir.ValueId} {index : Nat} {members : List TypeId}
    (hat : K.At c b) (hv : K.Usable c b true t v) (hs : c.structOfType? t = some s)
    (hmembers : s.memberTypes.drop index = members) :
    Ends (Context.cleanUpMembers cleanUp v b index members) c
      (fun b' c' => K.Leads c b c' b') (K.Stops c b) := by
  induction members generalizing index b c with
  | nil => exact .pure (K.refl hat)
  | cons member members ih =>
    have hmember : s.memberTypes[index]? = some member := by
      rw [← List.head?_drop, hmembers, List.head?_cons]
    have hrest : s.memberTypes.drop (index + 1) = members := by
      rw [← List.tail_drop, hmembers, List.tail_cons]
    unfold Context.cleanUpMembers
    refine .next rfl ?_
    split
    · refine (K.extract hat hv hs hmember).bind ?_
      rintro field c₁ ⟨hlead, hfield⟩
      refine (hlead.then_check (h _ _ _ _ (K.lands hlead) hfield)).bind fun b₂ c₂ hlead₂ => ?_
      exact hlead₂.then_check (ih (K.lands hlead₂) (K.stays hv hlead₂)
        ((K.kept hlead₂).structOfType? hs) hrest)
    · exact ih hat hv hs hrest

/-- Cleaning up a value keeps the account. -/
theorem cleanUpBelow_covered (bound : Nat) {t : TypeId} {v : Ir.ValueId} (hat : K.At c b)
    (hv : K.Usable c b true t v) :
    Ends (Context.cleanUpBelow bound b t v) c (fun b' c' => K.Leads c b c' b')
      (K.Stops c b) := by
  induction bound generalizing c b t v with
  | zero => exact .throw (K.unfinished hat)
  | succ bound ih =>
    unfold Context.cleanUpBelow
    refine .next rfl ?_
    cases hdestructor : c.destructor? t with
    | some destructor =>
      obtain ⟨ty, c₁, hty⟩ : ∃ ty c₁, Context.backendType t c = (ty, c₁) := ⟨_, _, rfl⟩
      exact .next (Context.always_of_eq hty)
        ((K.destroy hat hv hdestructor hty).bind fun _ _ h => .pure h)
    | none =>
      refine .next rfl ?_
      cases hstruct : c.structOfType? t with
      | some s =>
        exact cleanUpMembers_covered (fun _ _ _ _ => ih) hat hv hstruct List.drop_zero
      | none => exact .pure (K.refl hat)

/-- Dropping a result keeps the account. -/
theorem drop_covered {r : Result} (hat : K.At u.context r.block)
    (hv : K.Usable u.context r.block (!r.borrowed) r.ty r.value) :
    Ends (drop r) u (fun b' u' => K.Leads u.context r.block u'.context b')
      fun u' => K.Stops u.context r.block u'.context := by
  have hdestruct : Ends (Context.destruct r) u.context
      (fun r' c' => K.Leads u.context r.block c' r'.block) (K.Stops u.context r.block) := by
    unfold Context.destruct
    split
    · exact .pure (K.refl hat)
    next howned =>
      rw [Bool.not_eq_true] at howned
      rw [howned] at hv
      exact (cleanUpBelow_covered _ hat hv).bind fun _ _ h => .pure h
  exact (onContext_final hdestruct).bind fun _ _ h => .pure h

/-- Dropping several results keeps the account. -/
theorem dropAll_covered {rs : List Result} (hat : K.At u.context b)
    (hrs : ∀ r ∈ rs, K.Usable u.context b (!r.borrowed) r.ty r.value) :
    Ends (dropAll b rs) u (fun b' u' => K.Leads u.context b u'.context b')
      fun u' => K.Stops u.context b u'.context := by
  induction rs generalizing u b with
  | nil => exact .pure (K.refl hat)
  | cons r rs ih =>
    refine (drop_covered (r := r.inBlock b) hat (hrs r List.mem_cons_self)).bind
      fun b₁ u₁ hlead => hlead.then_step (ih (K.lands hlead) fun r' hr' => ?_)
    exact K.stays (hrs r' (List.mem_cons_of_mem _ hr')) hlead

/-! ## Tokens -/

/-- A constant keeps the account. -/
theorem constant_covered {x : Lower σ Result} (hat : K.At u.context b)
    (hx : Ends x u (fun r u' => r = .new b r.ty r.value ∧
      u.context.AddsConstant frame.scope r.ty r.value u'.context) u.Rejects) :
    Ends x u (fun r u' => K.Gives u.context b r u'.context)
      fun u' => K.Stops u.context b u'.context := by
  refine hx.mono ?_ fun _ => K.rejects hat
  rintro r u' ⟨hr, hadds⟩
  obtain ⟨hlead, hvalue⟩ := K.constant hat hadds
  have hblock : r.block = b := by rw [hr]; rfl
  have howned : r.borrowed = false := by rw [hr]; rfl
  have haddress : r.address = none := by rw [hr]; rfl
  refine ⟨hblock ▸ hlead, ?_, fun a ha => nomatch haddress.symm.trans ha⟩
  rw [howned]
  exact hblock ▸ hvalue

/-- A truth value keeps the account. -/
theorem truthValue_covered (value : Bool) (hat : K.At u.context b) :
    Ends (truthValue b value) u (fun r u' => K.Gives u.context b r u'.context)
      fun u' => K.Stops u.context b u'.context :=
  constant_covered hat ((truthValue_ends frame.scope b value u).mono (fun _ _ h => h)
    fun _ h => h.elim)

/-- Reading a variable keeps the account. -/
theorem variableRead_covered (node : NodeId) (name : String) (hat : K.At u.context b) :
    Ends (variableRead frame b node name) u (fun r u' => K.Gives u.context b r u'.context)
      fun u' => K.Stops u.context b u'.context := by
  unfold variableRead
  split
  next => exact hat.rejected (.read fun _ => fail_rejects (by rfl))
  next ty v hlookup => exact .pure ⟨K.refl hat, K.value hat hlookup, nofun⟩
  next ty address hlookup =>
    refine (emit_final fun span => K.slot span hat hlookup).bind ?_
    rintro v u₁ ⟨hlead, hvalue⟩
    obtain ⟨hlead', haddress⟩ := K.address (K.lands hlead) hlookup
    refine .next (onState_run _ u₁) (.pure ⟨K.trans hlead hlead', K.stays hvalue hlead', ?_⟩)
    rintro _ ⟨⟩
    exact ⟨_, rfl, haddress⟩

/-- A token keeps the account. -/
theorem token_covered (node : NodeId) (kind : TokenKind) (text : String)
    (hat : K.At u.context b) :
    Ends (token frame b node kind text) u (fun r u' => K.Gives u.context b r u'.context)
      fun u' => K.Stops u.context b u'.context := by
  cases kind with
  | integer => exact constant_covered hat (integerToken_ends frame.scope b node text u)
  | float => exact constant_covered hat (floatToken_ends frame.scope b node text u)
  | string =>
    exact constant_covered hat ((stringToken_ends frame.scope b text u).mono (fun _ _ h => h)
      fun _ h => h.elim)
  | symbol =>
    unfold token symbolToken
    dsimp only
    split
    · exact truthValue_covered true hat
    · split
      · exact truthValue_covered false hat
      · exact variableRead_covered node text hat

/-- A value with a copy function has an address, and the function takes the two addresses. -/
theorem copyAssign?_some {r : Result} {destTy : TypeId} {callee : Ir.FuncId}
    {source : Ir.ValueId} (h : copyAssign? c r destTy = some (callee, source))
    (hr : ∀ a, r.address = some a → ∃ t, r.addressTy = some t ∧ K.Usable c b false t a) :
    ∃ sourceTy f, c.lookupFunction? Context.copyAssignName [destTy, sourceTy] = some f ∧
      K.Usable c b false sourceTy source ∧ f.backend = callee := by
  unfold copyAssign? at h
  split at h
  next =>
    split at h
    next a t ha ht =>
      obtain ⟨f, hlookup, hf⟩ := Option.map_eq_some_iff.1 h
      cases hf
      obtain ⟨t', ht', husable⟩ := hr _ ha
      obtain rfl := Option.some_inj.1 (ht'.symm.trans ht)
      exact ⟨t', f, hlookup, husable, rfl⟩
    next => cases h
  next => cases h

/-- Copying a borrowed result keeps the account. -/
theorem copyBorrowed_covered (node : NodeId) {r : Result} (hat : K.At u.context r.block)
    (hr : K.Usable u.context r.block false r.ty r.value) :
    Ends (copyBorrowed node r) u
      (fun copied u' => copied = .new r.block r.ty copied.value ∧
        K.Leads u.context r.block u'.context r.block ∧
        K.Usable u'.context r.block true r.ty copied.value)
      fun u' => K.Stops u.context r.block u'.context := by
  unfold copyBorrowed
  refine .next rfl ?_
  split
  next copy hcopy =>
    obtain ⟨ty, c₁, hty⟩ : ∃ ty c₁, Context.backendType r.ty u.context = (ty, c₁) :=
      ⟨_, _, rfl⟩
    refine .next (onState_of_eq hty) ?_
    exact (emit_final (u := u.withContext c₁) fun span => K.copy span hat hr hcopy hty).bind
      fun v u₁ h => .pure ⟨rfl, h⟩
  next => exact hat.rejected (.read fun _ => .read fun _ => fail_rejects (by rfl))

section

variable {onTrue onFalse : Result}
  (hforks : K.Forks c b u.context onTrue.block onFalse.block)
  (hTrue : K.Usable u.context onTrue.block (!onTrue.borrowed) onTrue.ty onTrue.value)

include hforks hTrue

/-- Giving the results of both branches the same ownership keeps the account. -/
theorem unifyOwnership_covered
    (hFalse : K.Usable u.context onFalse.block (!onFalse.borrowed) onTrue.ty onFalse.value)
    (node : NodeId) (hty : onTrue.ty = onFalse.ty) :
    Ends (unifyOwnership node onTrue onFalse) u
      (fun rs u' => K.Forks c b u'.context rs.1.block rs.2.block ∧
        K.Usable u'.context rs.1.block (!rs.1.borrowed) rs.1.ty rs.1.value ∧
        K.Usable u'.context rs.2.block (!rs.1.borrowed) rs.1.ty rs.2.value)
      fun u' => K.Stops c b u'.context := by
  unfold unifyOwnership
  split
  next hsame => exact .pure ⟨hforks, hTrue, hsame ▸ hFalse⟩
  next hdiffer =>
    refine .next rfl ?_
    split
    · exact .pure ⟨hforks, K.lends hTrue, K.lends hFalse⟩
    · split
      next hborrowed =>
        have howned : onFalse.borrowed = false := by simpa [hborrowed] using hdiffer
        rw [howned] at hFalse
        refine (copyBorrowed_covered node (K.branch hforks) (K.lends hTrue)).andThen
          (fun _ => K.stopsIn hforks) ?_
        rintro copied u₁ ⟨hcopied, hlead, husable⟩
        refine .pure ⟨?_, ?_, ?_⟩
        · rw [hcopied]
          exact K.goesOn hforks hlead
        · rw [hcopied]
          exact husable
        · rw [hcopied]
          exact K.apart hforks hFalse hlead
      · have hswapped := K.swap hforks
        refine (copyBorrowed_covered node (K.branch hswapped) (hty ▸ K.lends hFalse)).andThen
          (fun _ => K.stopsIn hswapped) ?_
        rintro copied u₁ ⟨hcopied, hlead, husable⟩
        refine .pure ⟨?_, K.apart hswapped hTrue hlead, ?_⟩
        · rw [hcopied]
          exact K.swap (K.goesOn hswapped hlead)
        · rw [hcopied, hty]
          cases hborrowed : onTrue.borrowed with
          | true => exact K.lends husable
          | false => exact husable

/-- Merging the results of both branches keeps the account. -/
theorem merge_covered
    (hFalse : K.Usable u.context onFalse.block (!onTrue.borrowed) onTrue.ty onFalse.value)
    (node : NodeId) :
    Ends (merge frame node onTrue onFalse) u (fun r u' => K.Gives c b r u'.context)
      fun u' => K.Stops c b u'.context := by
  unfold merge
  obtain ⟨target, m, happend⟩ :
    ∃ target m, Ir.Module.appendBlock frame.func "merge" u.context.ir = (target, m) := ⟨_, _, rfl⟩
  refine .next (onModule_of_eq happend) ((emit_final (u := u.withIr m) fun span =>
    K.merge span hforks hTrue hFalse happend).bind fun _ u₁ h => .next rfl ?_)
  dsimp only
  split
  next hvoid =>
    obtain ⟨hlead, husable⟩ := h.1 hvoid _ _ rfl
    exact .next (onState_run _ u₁) (.pure ⟨hlead, husable, nofun⟩)
  next hvoid =>
    refine (emit_final (h.2 (Bool.eq_false_iff.2 hvoid))).bind ?_
    rintro v u₂ ⟨hlead, husable⟩
    exact .pure ⟨hlead, husable, nofun⟩

end

section

variable {sub again : Sub σ} (hsub : K.Covers sub) (hagain : K.Covers again)

include hsub

/-! ## Pointers and assignment -/

/-- Reading through a pointer keeps the account. -/
theorem dereference_covered (node : NodeId) (arguments : List NodeId)
    (addressOnly marked : Bool) (hat : K.At u.context b) :
    Ends (dereference sub b node arguments addressOnly marked) u
      (fun r u' => K.Gives u.context b r u'.context) fun u' => K.Stops u.context b u'.context := by
  unfold dereference
  split
  next argument =>
    refine (hsub b argument u hat).bind fun pointer u₁ hpointer => ?_
    have hat₁ := K.lands hpointer.leads
    refine (expectPointee_ends pointer argument u₁).andThen
      (fun _ h => K.after hpointer.leads (K.rejects hat₁ h)) ?_
    rintro pointee _ ⟨rfl, hpointee⟩
    refine .next rfl ?_
    split
    next => exact hpointer.leads.rejected (.read fun _ => fail_rejects (by rfl))
    next hvoid =>
      dsimp only
      split
      next =>
        refine .next rfl ((drop_covered hat₁ hpointer.value).andThen
          (fun _ => K.after hpointer.leads) fun b' u₂ hdrop => .pure ?_)
        have hvalue := K.pointer hat₁ (K.lends hpointer.value) hpointee (Bool.eq_false_iff.2 hvoid)
        exact ⟨K.trans hpointer.leads hdrop, K.stays hvalue hdrop, nofun⟩
      next =>
        refine (emit_final fun span =>
          K.load span hat₁ (K.lends hpointer.value) hpointee (Bool.eq_false_iff.2 hvoid)).andThen
            (fun _ => K.after hpointer.leads) ?_
        rintro v u₂ ⟨hload, hvalue⟩
        have hpointer₂ := K.stays hpointer.value hload
        refine .next rfl ((drop_covered (K.lands hload) hpointer₂).andThen
          (fun _ h => K.after hpointer.leads (K.after hload h)) fun b' u₃ hdrop => .pure ?_)
        refine ⟨K.trans hpointer.leads (K.trans hload hdrop), K.stays hvalue hdrop, ?_⟩
        rintro _ ⟨⟩
        exact ⟨_, rfl, K.lends (K.stays hpointer₂ hdrop)⟩
  next => exact hat.rejected (.read fun _ => fail_rejects (by rfl))

/-- Taking an address keeps the account. -/
theorem addressOf_covered (node : NodeId) (arguments : List NodeId) (hat : K.At u.context b) :
    Ends (addressOf sub b node arguments) u (fun r u' => K.Gives u.context b r u'.context)
      fun u' => K.Stops u.context b u'.context := by
  unfold addressOf
  split
  next operand =>
    refine (derefArguments?_ends operand u).andThen (fun _ h => h.elim) ?_
    rintro inner _ rfl
    split
    next => exact dereference_covered hsub _ _ _ _ hat
    next =>
      refine (hsub b operand u hat).bind fun r u₁ hr => ?_
      split
      next address addressTy haddress haddressTy =>
        obtain ⟨t, ht, husable⟩ := hr.address _ haddress
        obtain rfl := Option.some_inj.1 (ht.symm.trans haddressTy)
        exact .pure ⟨hr.leads, husable, nofun⟩
      next => exact hr.leads.rejected (.read fun _ => fail_rejects (by rfl))
  next => exact hat.rejected (.read fun _ => fail_rejects (by rfl))

/-- Assigning keeps the account. -/
theorem assignment_covered (node : NodeId) (arguments : List NodeId) (hat : K.At u.context b) :
    Ends (assignment sub b node arguments) u (fun r u' => K.Gives u.context b r u'.context)
      fun u' => K.Stops u.context b u'.context := by
  unfold assignment
  split
  next destNode valueNode =>
    refine (hsub b destNode u hat).bind fun dest u₁ hdest => ?_
    refine (expectPointee_ends dest destNode u₁).andThen
      (fun _ h => K.after hdest.leads (K.rejects (K.lands hdest.leads) h)) ?_
    rintro pointee _ ⟨rfl, hpointee⟩
    refine (hsub dest.block valueNode u₁ (K.lands hdest.leads)).andThen
      (fun _ => K.after hdest.leads) fun value u₂ hvalue => ?_
    have hlead := K.trans hdest.leads hvalue.leads
    have hat₂ := K.lands hlead
    have hdest₂ := K.stays hdest.value hvalue.leads
    split
    next => exact hlead.rejected (.read fun _ => .read fun _ => .read fun _ =>
      fail_rejects (by rfl))
    next hty =>
      rw [ne_eq, not_not] at hty
      subst hty
      refine .next rfl ?_
      -- the value is copied or moved, and then the destination is dropped
      have hdone : ∀ (u₃ : Compilation σ) (b₃ : Ir.BlockId),
          K.Leads u₂.context value.block u₃.context b₃ →
          Ends (do let b ← drop (dest.inBlock b₃); truthValue b true : Lower σ Result) u₃
            (fun r u' => K.Gives u.context b r u'.context)
            fun u' => K.Stops u.context b u'.context := by
        intro u₃ b₃ hlead₃
        have hlead₃' := K.trans hlead hlead₃
        refine (drop_covered (r := dest.inBlock b₃) (K.lands hlead₃)
          (K.stays hdest₂ hlead₃)).andThen (fun _ => K.after hlead₃') fun b₄ u₄ hdrop => ?_
        exact (K.trans hlead₃' hdrop).then_gives (truthValue_covered true (K.lands hdrop))
      dsimp only
      split
      next callee source hcopy =>
        obtain ⟨sourceTy, f, hlookup, hsource, rfl⟩ := copyAssign?_some hcopy hvalue.address
        refine (emit_final fun span => K.effect span hat₂ hlookup
          (.cons (K.lends hdest₂) (.cons hsource .nil))).andThen (fun _ => K.after hlead) ?_
        intro _ u₃ hcall
        refine (drop_covered (r := value) (K.lands hcall) (K.stays hvalue.value hcall)).andThen
          (fun _ h => K.after hlead (K.after hcall h)) fun b₃ u₄ hdrop => ?_
        exact hdone u₄ b₃ (K.trans hcall hdrop)
      next =>
        refine (emit_final fun span => K.store span hat₂ (K.lends hdest₂) (K.lends hvalue.value)
          ((K.kept hvalue.leads).pool.grown.pointee? hpointee)).andThen (fun _ => K.after hlead)
          fun _ u₃ hstore => .next rfl (hdone u₃ value.block hstore)
  next => exact hat.rejected (.read fun _ => fail_rejects (by rfl))

/-! ## Sequences, conditionals and calls -/

/-- Processing forms one after the other keeps the account. -/
theorem forms_covered (first : NodeId) (rest : List NodeId) (hat : K.At u.context b) :
    Ends (forms sub b first rest) u (fun r u' => K.Gives u.context b r u'.context)
      fun u' => K.Stops u.context b u'.context := by
  induction rest generalizing b first u with
  | nil => exact hsub b first u hat
  | cons next rest ih =>
    refine (hsub b first u hat).bind fun r u₁ hr => ?_
    refine (drop_covered (K.lands hr.leads) hr.value).andThen (fun _ => K.after hr.leads)
      fun b₁ u₂ hdrop => ?_
    exact (K.trans hr.leads hdrop).then_gives (ih next (K.lands hdrop))

/-- A conditional keeps the account. -/
theorem conditional_covered (node : NodeId) (arguments : List NodeId)
    (hat : K.At u.context b) :
    Ends (conditional frame sub b node arguments) u
      (fun r u' => K.Gives u.context b r u'.context) fun u' => K.Stops u.context b u'.context := by
  unfold conditional
  split
  next conditionNode thenNode elseNode =>
    refine (hsub b conditionNode u hat).bind fun condition u₁ hcondition => ?_
    split
    next => exact hcondition.leads.rejected (.read fun _ => .read fun _ =>
      fail_rejects (by rfl))
    next hbool =>
      rw [ne_eq, not_not] at hbool
      refine (drop_covered (K.lands hcondition.leads) hcondition.value).andThen
        (fun _ => K.after hcondition.leads) fun b₁ u₂ hdrop => ?_
      have hlead := K.trans hcondition.leads hdrop
      have hvalue := K.lends (K.stays hcondition.value hdrop)
      rw [hbool] at hvalue
      obtain ⟨onTrue, m, hTrue⟩ : ∃ onTrue m,
        Ir.Module.appendBlock frame.func "then" u₂.context.ir = (onTrue, m) := ⟨_, _, rfl⟩
      obtain ⟨onFalse, m', hFalse⟩ : ∃ onFalse m',
        Ir.Module.appendBlock frame.func "else" m = (onFalse, m') := ⟨_, _, rfl⟩
      refine .next (onModule_of_eq hTrue) (.next (onModule_of_eq (u := u₂.withIr m) hFalse) ?_)
      refine (emit_final (u := (u₂.withIr m).withIr m') fun span =>
        K.fork (c := u₂.context) span (K.lands hdrop) hvalue hTrue hFalse).andThen
        (fun _ => K.after hlead) fun _ u₃ hforks => ?_
      -- each branch goes on from its own block
      refine (hsub _ thenNode u₃ (K.branch hforks)).andThen
        (fun _ h => K.after hlead (K.stopsIn hforks h)) fun onTrue u₄ hTrue => ?_
      have hforks₄ := K.swap (K.goesOn hforks hTrue.leads)
      refine (hsub _ elseNode u₄ (K.branch hforks₄)).andThen
        (fun _ h => K.after hlead (K.stopsIn hforks₄ h)) fun onFalse u₅ hFalse => ?_
      have hforks₅ := K.swap (K.goesOn hforks₄ hFalse.leads)
      have hTrue₅ := K.apart hforks₄ hTrue.value hFalse.leads
      split
      next =>
        exact Refuses.ends (.read fun _ => .read fun _ => .read fun _ => fail_rejects (by rfl)) u₅
          fun _ h => K.after hlead (K.stopsIn hforks₅ (K.rejects (K.branch hforks₅) h))
      next hty =>
        rw [ne_eq, not_not] at hty
        refine (unifyOwnership_covered hforks₅ hTrue₅ (hty ▸ hFalse.value) node hty).andThen
          (fun _ => K.after hlead) ?_
        rintro ⟨onTrue', onFalse'⟩ u₆ ⟨hforks₆, hTrue₆, hFalse₆⟩
        refine (merge_covered hforks₆ hTrue₆ hFalse₆ node).mono (fun r u' hr => ?_)
          fun _ => K.after hlead
        exact ⟨K.trans hlead hr.leads, hr.value, hr.address⟩
  next => exact hat.rejected (.read fun _ => fail_rejects (by rfl))

/-- A core form keeps the account. -/
theorem coreForm_covered (node : NodeId) (form : CoreForm) (arguments : List NodeId)
    (marked : Bool) (hat : K.At u.context b) :
    Ends (coreForm frame sub b node form arguments marked) u
      (fun r u' => K.Gives u.context b r u'.context) fun u' => K.Stops u.context b u'.context := by
  cases form with
  | deref => exact dereference_covered hsub _ _ _ _ hat
  | addressOf => exact addressOf_covered hsub _ _ hat
  | setf => exact assignment_covered hsub _ _ hat
  | sequence =>
    unfold coreForm sequence
    dsimp only
    split
    · exact hat.rejected (.read fun _ => fail_rejects (by rfl))
    · exact forms_covered hsub _ _ hat
  | conditional => exact conditional_covered hsub _ _ hat
  | core => exact hat.rejected (.read fun _ => fail_rejects (by rfl))

/-- A marked core form keeps the account. -/
theorem marked_covered (node : NodeId) (arguments : List NodeId) (hat : K.At u.context b) :
    Ends (marked frame sub b node arguments) u (fun r u' => K.Gives u.context b r u'.context)
      fun u' => K.Stops u.context b u'.context := by
  have hrefuse : ∀ place : NodeId, Refuses Compilation.Rejects (do
      fail (Report.unexpectedElement (← span place) "core form name" "`core`"
        (← display place)) : Lower σ Result) := fun place =>
    .read fun _ => .read fun _ => fail_rejects rfl
  unfold marked
  split
  · exact hat.rejected (hrefuse node)
  · refine .next rfl ?_
    split
    · split
      · exact hat.rejected (hrefuse _)
      · exact coreForm_covered hsub _ _ _ _ hat
    · exact hat.rejected (hrefuse _)

/-- Processing arguments keeps the account. -/
theorem arguments_covered (nodes : List NodeId) (hat : K.At u.context b) :
    Ends (arguments sub b nodes) u
      (fun out u' => K.Leads u.context b u'.context out.2 ∧
        ∀ r ∈ out.1, K.Usable u'.context out.2 (!r.borrowed) r.ty r.value)
      fun u' => K.Stops u.context b u'.context := by
  induction nodes generalizing b u with
  | nil => exact .pure ⟨K.refl hat, nofun⟩
  | cons node nodes ih =>
    refine (hsub b node u hat).bind fun r u₁ hr => ?_
    refine (ih (K.lands hr.leads)).andThen (fun _ => K.after hr.leads) ?_
    rintro ⟨rs, b'⟩ u₂ ⟨hlead, hrs⟩
    refine .pure ⟨K.trans hr.leads hlead, fun r' hr' => ?_⟩
    rcases List.mem_cons.1 hr' with rfl | hr'
    · exact K.stays hr.value hlead
    · exact hrs r' hr'

/-- A call keeps the account. -/
theorem call_covered (node : NodeId) (name : String) (argumentNodes : List NodeId)
    (hat : K.At u.context b) :
    Ends (call sub b node name argumentNodes) u (fun r u' => K.Gives u.context b r u'.context)
      fun u' => K.Stops u.context b u'.context := by
  unfold call
  refine (arguments_covered hsub argumentNodes hat).bind ?_
  rintro ⟨rs, b₁⟩ u₁ ⟨hlead, hrs⟩
  dsimp only
  refine .next rfl ?_
  split
  next => exact hlead.rejected (.read fun _ => .read fun _ => fail_rejects (by rfl))
  next callee hlookup =>
    have hvalues : List.Forall₂ (K.Usable u₁.context b₁ false) (rs.map (·.ty))
        (rs.map (·.value)) := by
      rw [List.forall₂_map_left_iff, List.forall₂_map_right_iff, List.forall₂_same]
      exact fun r hr => K.lends (hrs r hr)
    refine (emit_final fun span => K.call span (K.lands hlead) hlookup hvalues).andThen
      (fun _ => K.after hlead) fun returned u₂ hreturned => ?_
    have hrest : ∀ (u₃ : Compilation σ) (v : Ir.ValueId),
        K.Leads u₁.context b₁ u₃.context b₁ ∧ K.Usable u₃.context b₁ true callee.returnType v →
        Ends (do let b ← dropAll b₁ rs; return .new b callee.returnType v : Lower σ Result) u₃
          (fun r u' => K.Gives u.context b r u'.context)
          fun u' => K.Stops u.context b u'.context := by
      rintro u₃ v ⟨hcall, hv⟩
      refine (dropAll_covered (K.lands hcall) fun r hr => K.stays (hrs r hr) hcall).andThen
        (fun _ h => K.after hlead (K.after hcall h)) fun b₂ u₄ hdrop => .pure ?_
      exact ⟨K.trans hlead (K.trans hcall hdrop), K.stays hv hdrop, nofun⟩
    split
    next v => exact .next rfl (hrest u₂ v (hreturned v _ (.inl ⟨rfl, rfl⟩)))
    next => exact .next (onState_run _ u₂) (hrest _ _ (hreturned _ _ (.inr ⟨rfl, rfl⟩)))

include hagain

/-- A call, or what a rewriter makes of it, keeps the account. -/
theorem callOrExpand_covered (left : Nat) (node : NodeId) (name : String)
    (argumentNodes : List NodeId) (hat : K.At u.context b) :
    Ends (callOrExpand left sub again b node name argumentNodes) u
      (fun r u' => K.Gives u.context b r u'.context) fun u' => K.Stops u.context b u'.context := by
  refine (tryExpand_ends left node u).andThen (fun _ => K.rejects hat)
    fun expansion u₁ hcontext => ?_
  rw [← hcontext] at hat ⊢
  cases expansion with
  | some result => exact hagain b result u₁ hat
  | none => exact call_covered hsub node name argumentNodes hat

/-- A list keeps the account. -/
theorem list_covered (left : Nat) (node : NodeId) (items : List NodeId)
    (hat : K.At u.context b) :
    Ends (list frame left sub again b node items) u
      (fun r u' => K.Gives u.context b r u'.context) fun u' => K.Stops u.context b u'.context := by
  unfold list
  split
  · exact hat.rejected (.read fun _ => fail_rejects (by rfl))
  next head argumentNodes =>
    refine .next rfl ?_
    split
    · exact hat.rejected (.read fun _ => .read fun _ => fail_rejects (by rfl))
    next name _ =>
      refine .next rfl ?_
      have hcall := callOrExpand_covered hsub hagain left node name argumentNodes hat
      split
      · exact marked_covered hsub _ _ hat
      · dsimp only
        split
        · exact hcall
        · exact coreForm_covered hsub _ _ _ _ hat
      · exact hcall

/-- A form keeps the account. -/
theorem form_covered (left : Nat) : K.Covers (form frame left sub again) := by
  intro b node u hat
  unfold form
  refine .next rfl ?_
  split
  · exact token_covered _ _ _ hat
  · exact list_covered hsub hagain _ _ _ hat

end

/-- Every expression keeps the account. -/
theorem process_covered (K : Account frame) : K.Covers (process frame : Sub σ) := by
  have hsatisfies := process_satisfies (σ := σ) frame
    (Q := fun b _ u outcome => K.At u.context b → Outcome outcome
      (fun r u' => K.Gives u.context b r u'.context) fun u' => K.Stops u.context b u'.context)
    (fun _ _ _ => K.unfinished)
    (fun left _ _ hsub hagain => form_covered hsub hagain left)
  exact hsatisfies

/-- The forms of a body keep the account. -/
theorem bodyForms_covered (first : NodeId) (rest : List NodeId) (hat : K.At u.context b) :
    Ends (bodyForms frame b first rest) u
      (fun out u' => K.Gives u.context b out.2 u'.context)
      fun u' => K.Stops u.context b u'.context := by
  induction rest generalizing b first u with
  | nil => exact (process_covered K b first u hat).bind fun _ _ h => .pure h
  | cons next rest ih =>
    refine (process_covered K b first u hat).bind fun r u₁ hr => ?_
    refine (drop_covered (K.lands hr.leads) hr.value).andThen (fun _ => K.after hr.leads)
      fun b₁ u₂ hdrop => ?_
    have hlead := K.trans hr.leads hdrop
    exact (ih next (K.lands hdrop)).mono
      (fun _ _ h => ⟨K.trans hlead h.leads, h.value, h.address⟩) fun _ => K.after hlead

end Lower

end FormCompiler
