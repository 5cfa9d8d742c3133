import FormCompiler.Proofs.Bounds.Access
import FormCompiler.Proofs.Ir.WellTyped
import Mathlib.Tactic.MkIffOfInductiveProp

/-!
# Operations on Modules Stay in Bounds

The operations on modules with their accesses checked. In a module whose ids are all in range, an
operation with ids of the module passes all checks and leaves such a module.

* `Module.InBounds`: all ids in the module are in range, and integer types have 1 to 128 bits. It
  can be decided.
* `Module.SoundlyExtends`: how modules grow. One that is well typed stays so.
* `Ir.Checked`: the operations, checked. Each one has its lemma after it.
-/

namespace FormCompiler

/-- An entry of a table in which one was changed is an old one or the changed one. -/
theorem mem_modify {α : Type} {table : Array α} {index : Nat} {change : α → α} {entry : α}
    (h : entry ∈ table.modify index change) :
    entry ∈ table ∨ ∃ hindex : index < table.size, entry = change table[index] := by
  obtain ⟨i, hi, rfl⟩ := Array.mem_iff_getElem.1 h
  rw [Array.size_modify] at hi
  rw [Array.getElem_modify]
  split
  next heq =>
    subst heq
    exact .inr ⟨hi, rfl⟩
  next => exact .inl (Array.getElem_mem hi)

namespace Ir

/-! ## Modules in bounds -/

/-- The types that a type is made of are in range, and an integer type has a width there is. -/
@[mk_iff]
structure Ty.InBounds (m : Module) (ty : Ty) : Prop where
  parts : ∀ part ∈ ty.parts, m.HasTy part
  width : ∀ bits, ty = .int bits → 1 ≤ bits ∧ bits ≤ 128

/-- The ids in a value are in range. -/
@[mk_iff]
structure Value.InBounds (m : Module) (v : Value) : Prop where
  ty : m.HasTy v.ty
  func : ∀ f index, v.kind = .param f index → m.HasFunction f

/-- The ids in a block are in range. -/
@[mk_iff]
structure Block.InBounds (m : Module) (b : Block) : Prop where
  func : m.HasFunction b.func
  instrs : ∀ i ∈ b.instrs, i.Known m
  terminator : ∀ t, b.terminator = some t → t.Known m

/-- All ids in the module are in range. -/
@[mk_iff]
structure Module.InBounds (m : Module) : Prop where
  types : ∀ ty ∈ m.types, ty.InBounds m
  values : ∀ v ∈ m.values, v.InBounds m
  functions : ∀ f ∈ m.functions, f.Sound m
  blocks : ∀ b ∈ m.blocks, b.InBounds m

section

variable (m : Module)

instance (ty : Ty) : Decidable (ty.InBounds m) :=
  have : Decidable (∀ bits, ty = .int bits → 1 ≤ bits ∧ bits ≤ 128) :=
    match ty with
    | .int bits => decidable_of_iff (1 ≤ bits ∧ bits ≤ 128) (by simp)
    | .void | .float _ | .pointer _ | .struct _ _ => isTrue (by simp)
  decidable_of_iff _ (Ty.inBounds_iff m ty).symm

instance (v : Value) : Decidable (v.InBounds m) :=
  have : Decidable (∀ f index, v.kind = .param f index → m.HasFunction f) :=
    match v with
    | ⟨_, .param f _⟩ => decidable_of_iff (m.HasFunction f) (by simp)
    | ⟨_, .constInt _⟩ | ⟨_, .constFloat _⟩ | ⟨_, .undefined⟩ | ⟨_, .result⟩ | ⟨_, .text _⟩ =>
      isTrue (by simp)
  decidable_of_iff _ (Value.inBounds_iff m v).symm

/-- The ids in an instruction that stand for no values are in range. -/
def Instr.OthersKnown : Instr → Prop
  | .alloca _ ty => m.HasTy ty
  | .call _ callee _ => m.HasFunction callee
  | .phi _ incoming => ∀ p ∈ incoming, m.HasBlock p.2
  | _ => True

instance (i : Instr) : Decidable (i.OthersKnown m) :=
  match i with
  | .alloca _ ty => inferInstanceAs (Decidable (m.HasTy ty))
  | .call _ callee _ => inferInstanceAs (Decidable (m.HasFunction callee))
  | .phi _ incoming => inferInstanceAs (Decidable (∀ p ∈ incoming, m.HasBlock p.2))
  | .load _ _ | .store _ _ | .extractValue _ _ _ | .insertValue _ _ _ _ | .icmp _ _ _ _ =>
    isTrue trivial

theorem Instr.known_iff {i : Instr} : i.Known m ↔
    (∀ v ∈ i.uses, m.HasValue v) ∧ (∀ v, i.dst? = some v → m.HasValue v) ∧ i.OthersKnown m := by
  constructor
  · intro h
    refine ⟨h.uses, h.dst, ?_⟩
    cases i <;> exact h.others
  · rintro ⟨huses, hdst, hothers⟩
    refine ⟨huses, hdst, ?_⟩
    cases i <;> exact hothers

instance (i : Instr) : Decidable (i.Known m) := decidable_of_iff _ (Instr.known_iff m).symm

instance (t : Terminator) : Decidable (t.Known m) :=
  decidable_of_iff ((∀ v ∈ t.uses, m.HasValue v) ∧ ∀ b ∈ t.successors, m.HasBlock b)
    ⟨fun h => ⟨h.1, h.2⟩, fun h => ⟨h.uses, h.successors⟩⟩

instance (f : Function) : Decidable (f.Sound m) :=
  decidable_of_iff
    ((∀ v ∈ f.params, m.HasValue v) ∧ m.HasTy f.ret ∧ ∀ b ∈ f.blocks, m.HasBlock b)
    ⟨fun h => ⟨h.1, h.2.1, h.2.2⟩, fun h => ⟨h.params, h.ret, h.blocks⟩⟩

instance (b : Block) : Decidable (b.InBounds m) :=
  decidable_of_iff _ (Block.inBounds_iff m b).symm

instance : Decidable m.InBounds := decidable_of_iff _ (Module.inBounds_iff m).symm

end

section

variable {m m' : Module} {b : BlockId}

theorem Ty.InBounds.mono {ty : Ty} (h : ty.InBounds m) (hm : m.Extends m') : ty.InBounds m' :=
  ⟨fun part hpart => hm.hasTy (h.parts part hpart), h.width⟩

theorem Value.InBounds.mono {v : Value} (h : v.InBounds m) (hm : m.Extends m') : v.InBounds m' :=
  ⟨hm.hasTy h.ty, fun f index hkind => hm.hasFunction (h.func f index hkind)⟩

theorem Block.InBounds.mono {b : Block} (h : b.InBounds m) (hm : m.Extends m') : b.InBounds m' :=
  ⟨hm.hasFunction h.func, fun i hi => (h.instrs i hi).mono hm,
    fun t ht => (h.terminator t ht).mono hm⟩

namespace Module

/-- Entries are only added, and code that is well typed goes on as such. -/
structure SoundlyExtends (m m' : Module) : Prop extends m.Extends m' where
  sound : m.Sound → m'.Sound

namespace SoundlyExtends

theorem refl (m : Module) : m.SoundlyExtends m := ⟨.refl m, id⟩

theorem trans {m m' m'' : Module} (h : m.SoundlyExtends m') (h' : m'.SoundlyExtends m'') :
    m.SoundlyExtends m'' := ⟨h.toExtends.trans h'.toExtends, h'.sound ∘ h.sound⟩

end SoundlyExtends

/-- How modules grow, and when their ids are in range. -/
instance : Bounds Module where
  InBounds := InBounds
  Grows := SoundlyExtends
  refl := .refl
  trans := .trans

theorem inBounds_empty (name : String) : (empty name).InBounds :=
  ⟨by simp [empty], by simp [empty], by simp [empty], by simp [empty]⟩

namespace InBounds

/-- A later module is in bounds if the entries are that are not those of the first one. -/
theorem after (h : m.InBounds) (hm : m.Extends m') (hsound : m.Sound → m'.Sound)
    (htypes : ∀ ty ∈ m'.types, ty ∈ m.types ∨ ty.InBounds m')
    (hvalues : ∀ v ∈ m'.values, v ∈ m.values ∨ v.InBounds m')
    (hfunctions : ∀ f ∈ m'.functions, f ∈ m.functions ∨ f.Sound m')
    (hblocks : ∀ b ∈ m'.blocks, b ∈ m.blocks ∨ b.InBounds m') : Bounds.After m m' where
  grows := ⟨hm, hsound⟩
  inBounds := {
    types := fun ty hty => (htypes ty hty).elim (fun hold => (h.types ty hold).mono hm) id
    values := fun v hv => (hvalues v hv).elim (fun hold => (h.values v hold).mono hm) id
    functions := fun f hf => (hfunctions f hf).elim (fun hold => (h.functions f hold).mono hm) id
    blocks := fun b hb => (hblocks b hb).elim (fun hold => (h.blocks b hold).mono hm) id }

/-- A type is entered. -/
theorem pushType (h : m.InBounds) {ty : Ty} (hty : ty.InBounds m) :
    Bounds.After m { m with types := m.types.push ty } := by
  have hm := extends_push_type m ty
  refine h.after hm (fun hs => hs.pushType hty.parts) (fun ty' hty' => ?_) (fun _ => .inl)
    (fun _ => .inl) fun _ => .inl
  refine (Array.mem_push.1 hty').imp_right ?_
  rintro rfl
  exact hty.mono hm

/-- A value is added. -/
theorem newValue (h : m.InBounds) {ty : TyId} {kind : ValueKind}
    (hv : Value.InBounds m ⟨ty, kind⟩) :
    Bounds.After m (newValue ty kind m).2 := by
  have hm := (newValue_spec ty kind m).1.toExtends
  refine h.after hm (fun hs => hs.newValue hv.ty kind) (fun _ => .inl) (fun v hv' => ?_)
    (fun _ => .inl) fun _ => .inl
  refine (Array.mem_push.1 hv').imp_right ?_
  rintro rfl
  exact hv.mono hm

/-- A block is changed. -/
theorem modify (h : m.InBounds) {change : Block → Block}
    (hextends : (m.block b).Extends (change (m.block b)))
    (hchange : m.HasBlock b → (change (m.block b)).InBounds m)
    (hsound : m.Sound → m.HasBlock b → (change (m.block b)).Sound m) :
    Bounds.After m { m with blocks := m.blocks.modify b.index change } := by
  have hm : m.Extends { m with blocks := m.blocks.modify b.index change } :=
    modify_extends fun _ => hextends
  refine h.after hm (fun hs => hs.modify hextends (hsound hs)) (fun _ => .inl) (fun _ => .inl)
    (fun _ => .inl) fun b' hb' => ?_
  refine (mem_modify hb').imp_right ?_
  rintro ⟨hb, rfl⟩
  -- an id of no block changes none, so the changed block is one that the module has
  have hblock : m.block b = m.blocks[b.index] := by simp [Module.block, hb]
  exact hblock ▸ (hchange hb).mono hm

end InBounds

end Module

end

/-! ## Reading -/

namespace Checked

open FormCompiler.Checked (refuse demand free)

/-- The type of an id. -/
def type (m : Module) (t : TyId) : Except Fault Ty := readAt m.types t.index

/-- The value of an id. -/
def value (m : Module) (v : ValueId) : Except Fault Value := readAt m.values v.index

/-- The block of an id. -/
def block (m : Module) (b : BlockId) : Except Fault Block := readAt m.blocks b.index

/-- The function of an id. -/
def function (m : Module) (f : FuncId) : Except Fault Function := readAt m.functions f.index

/-- The type of a value. -/
def valueType (m : Module) (v : ValueId) : Except Fault TyId := (value m v).map (·.ty)

/-- What a value is. -/
def valueKind (m : Module) (v : ValueId) : Except Fault ValueKind := (value m v).map (·.kind)

/-- The pointee of a pointer type. -/
def pointee? (m : Module) (t : TyId) : Except Fault (Option TyId) := do
  match ← type m t with
  | .pointer pointee => return some pointee
  | _ => return none

/-- The width of an integer type. -/
def intWidth? (m : Module) (t : TyId) : Except Fault (Option Nat) := do
  match ← type m t with
  | .int bits => return some bits
  | _ => return none

/-- The parameter of a function at an index. -/
def param? (m : Module) (f : FuncId) (index : Nat) : Except Fault (Option ValueId) :=
  (function m f).map (·.params[index]?)

/-- Written form of a type whose id is below `bound`. -/
def typeNameBelow (m : Module) : (bound : Nat) → TyId → Except Fault String
  | 0, _ => return ""
  | bound + 1, t => do
    match ← type m t with
    | .void => return "void"
    | .int bits => return "i" ++ toString bits
    | .float 32 => return "float"
    | .float 64 => return "double"
    | .float bits => return "f" ++ toString bits
    | .pointer pointee => return (← typeNameBelow m bound pointee) ++ "*"
    | .struct (some name) _ => return "%" ++ name
    | .struct none fields =>
      return "\x7b " ++ ", ".intercalate (← fields.mapM (typeNameBelow m bound)) ++ " \x7d"

/-- Written form of a type. -/
def typeName (m : Module) (t : TyId) : Except Fault String := typeNameBelow m (t.index + 1) t

section

variable {m : Module}

theorem type_eq {t : TyId} (ht : m.HasTy t) : type m t = .ok (m.type t) := readAt_eq ht default

theorem block_eq {b : BlockId} (hb : m.HasBlock b) : block m b = .ok (m.block b) :=
  readAt_eq hb default

theorem function_eq {f : FuncId} (hf : m.HasFunction f) : function m f = .ok (m.function f) :=
  readAt_eq hf default

theorem value_eq {v : ValueId} (hv : m.HasValue v) :
    value m v = .ok (m.values.getD v.index default) :=
  readAt_eq hv default

theorem valueType_eq {v : ValueId} (hv : m.HasValue v) :
    valueType m v = .ok (m.valueType v) := by
  rw [valueType, value_eq hv]
  rfl

theorem valueKind_eq {v : ValueId} (hv : m.HasValue v) :
    valueKind m v = .ok (m.valueKind v) := by
  rw [valueKind, value_eq hv]
  rfl

theorem pointee?_eq {t : TyId} (ht : m.HasTy t) : pointee? m t = .ok (m.pointee? t) := by
  rw [pointee?, type_eq ht, Module.pointee?]
  cases m.type t <;> rfl

theorem intWidth?_eq {t : TyId} (ht : m.HasTy t) : intWidth? m t = .ok (m.intWidth? t) := by
  rw [intWidth?, type_eq ht, Module.intWidth?]
  cases m.type t <;> rfl

theorem param?_eq {f : FuncId} (hf : m.HasFunction f) (index : Nat) :
    param? m f index = .ok (m.param? f index) := by
  rw [param?, function_eq hf]
  rfl

/-- An entry that a module has is one of its table. -/
theorem type_mem {t : TyId} (ht : m.HasTy t) : m.type t ∈ m.types := by
  rw [Module.type, Array.getD_eq_getD_getElem?, Array.getElem?_eq_getElem ht, Option.getD_some]
  exact Array.getElem_mem ht

theorem value_mem {v : ValueId} (hv : m.HasValue v) :
    m.values.getD v.index default ∈ m.values := by
  rw [Array.getD_eq_getD_getElem?, Array.getElem?_eq_getElem hv, Option.getD_some]
  exact Array.getElem_mem hv

theorem block_mem {b : BlockId} (hb : m.HasBlock b) : m.block b ∈ m.blocks := by
  rw [Module.block, Array.getD_eq_getD_getElem?, Array.getElem?_eq_getElem hb, Option.getD_some]
  exact Array.getElem_mem hb

theorem function_mem {f : FuncId} (hf : m.HasFunction f) : m.function f ∈ m.functions := by
  rw [Module.function, Array.getD_eq_getD_getElem?, Array.getElem?_eq_getElem hf, Option.getD_some]
  exact Array.getElem_mem hf

variable (hm : m.InBounds)

include hm

/-- The type of a value of the module is one of the module. -/
theorem hasTy_valueType {v : ValueId} (hv : m.HasValue v) : m.HasTy (m.valueType v) :=
  (hm.values _ (value_mem hv)).ty

/-- What a type is made of is in range. -/
theorem hasTy_part {t part : TyId} (ht : m.HasTy t) (hpart : part ∈ (m.type t).parts) :
    m.HasTy part :=
  (hm.types _ (type_mem ht)).parts part hpart

/-- An integer type has a bit. -/
theorem one_le_width {t : TyId} {bits : Nat} (ht : m.HasTy t) (hbits : m.intWidth? t = some bits) :
    1 ≤ bits := by
  unfold Module.intWidth? at hbits
  split at hbits
  next hty =>
    obtain rfl := Option.some.inj hbits
    exact ((hm.types _ (type_mem ht)).width _ hty).1
  next => cases hbits

theorem typeNameBelow_eq (bound : Nat) {t : TyId} (ht : m.HasTy t) :
    typeNameBelow m bound t = .ok (m.typeNameBelow bound t) := by
  induction bound generalizing t with
  | zero => rfl
  | succ bound ih =>
    have hparts : ∀ part ∈ (m.type t).parts, m.HasTy part := fun part => hasTy_part hm ht
    unfold typeNameBelow Module.typeNameBelow
    rw [type_eq ht]
    cases hty : m.type t with
    | void => rfl
    | int bits => rfl
    | float bits =>
      simp only [bind, Except.bind]
      split <;> simp_all [pure, Except.pure]
    | pointer pointee =>
      have hpointee := ih (hparts pointee (by simp [hty, Ty.parts]))
      simp [bind, Except.bind, hpointee, pure, Except.pure]
    | struct name fields =>
      cases name with
      | some name => rfl
      | none =>
        have hfields : fields.mapM (typeNameBelow m bound) =
            .ok (fields.map (m.typeNameBelow bound)) :=
          mapM_eq fun field hfield => ih (hparts field (by rwa [hty]))
        simp [bind, Except.bind, hfields, pure, Except.pure]

theorem typeName_eq {t : TyId} (ht : m.HasTy t) : typeName m t = .ok (m.typeName t) :=
  typeNameBelow_eq hm (t.index + 1) ht

end

/-! ## Types and values -/

section

variable {ε : Type} {m : Module}

/-- The id of an unnamed type, which is entered if it is new. -/
def internType (ty : Ty) : Checked ε Module TyId := ofState (Module.internType ty)

theorem internType_passes {ty : Ty} (hunnamed : ty.isNamed = false) (hty : ty.InBounds m) :
    Passes (internType ty : Checked ε Module TyId) (ofState (Module.internType ty)) m
      fun t m' => m'.HasTy t ∧ m'.type t = ty ∧ m.Still m' := by
  refine .step fun hm => ?_
  obtain ⟨hstill, hfind⟩ := Module.internType_spec ty hunnamed m
  have htype := Module.type_of_find hfind
  refine ⟨?_, (Array.getElem?_eq_some_iff.1 htype).1, ?_, hstill⟩
  · unfold Module.internType
    split
    · exact ⟨hm, .refl m⟩
    · exact hm.pushType hty
  · exact Module.type_of_getElem? htype

/-- Adds a value. -/
def newValue (ty : TyId) (kind : ValueKind) : Checked ε Module ValueId :=
  ofState (Module.newValue ty kind)

theorem newValue_passes {ty : TyId} {kind : ValueKind} (hty : m.HasTy ty)
    (hkind : ∀ f index, kind = .param f index → m.HasFunction f) :
    Passes (newValue ty kind : Checked ε Module ValueId) (ofState (Module.newValue ty kind)) m
      fun v m' => m'.HasValue v ∧ m'.valueType v = ty ∧ m.Still m' :=
  .step fun hm => ⟨hm.newValue ⟨hty, hkind⟩, Module.hasValue_newValue ty kind m,
    Module.valueType_newValue ty kind m, (Module.newValue_spec ty kind m).1⟩

/-- An integer constant, cut to the width of its type. -/
def constInt (ty : TyId) (v : Int) : Checked ε Module ValueId := do
  let width? ← demand (intWidth? (← get) ty)
  newValue ty (.constInt (Number.wrap (min (width?.getD 128) 128) v))

theorem constInt_passes {ty : TyId} (hty : m.HasTy ty) (v : Int) :
    Passes (constInt ty v : Checked ε Module ValueId) (ofState (Module.constInt ty v)) m
      fun v m' => m'.HasValue v :=
  .state (.look (intWidth?_eq hty) ((newValue_passes hty (by simp)).mono fun _ _ _ h => h.1))

/-- A pointer to the bytes of a constant text. -/
def globalText (text : String) : Checked ε Module ValueId := do
  let byte ← internType (.int 8)
  let ty ← internType (.pointer byte)
  newValue ty (.text text)

theorem globalText_passes (text : String) :
    Passes (globalText text : Checked ε Module ValueId) (ofState (Module.globalText text)) m
      fun v m' => m'.HasValue v := by
  simp only [globalText, Module.globalText, ofState_bind]
  refine (internType_passes rfl ⟨by simp [Ty.parts], by simp⟩).bind fun byte m₁ _ hbyte => ?_
  refine (internType_passes rfl ⟨by simpa [Ty.parts] using hbyte.1, by simp⟩).bind
    fun ty m₂ _ hty => ?_
  exact (newValue_passes hty.1 (by simp)).mono fun _ _ _ h => h.1

end

/-! ## Literals -/

/-- Whether the integer with this sign and magnitude is a value of the integer type. -/
def fits (bits : Nat) (signed negative : Bool) (magnitude : Number.Word) : Except Fault Bool := do
  if signed then
    let greatest := Number.mask (← minus bits 1)
    return if negative then magnitude.ule (greatest + 1) else magnitude.ule greatest
  else return magnitude.ule (Number.mask bits) && (!negative || magnitude == 0)

/-- The bit pattern of an integer literal at a width and signedness. -/
def parseInt (text : String) (bits : Nat) (signed : Bool) :
    Except Fault (Except Number.LiteralError Nat) := do
  let (negative, body) := Number.splitSign text.toList
  let (radix, digits) := Number.splitRadix body
  if digits.isEmpty then return .error .malformed
  else
    match Number.readDigits? radix 0 digits with
    | none => return .error .malformed
    | some n =>
      if Nat.pow 2 128 ≤ n then return .error .outOfRange
      else
        let magnitude : Number.Word := BitVec.ofNat 128 n
        if ← fits bits signed negative magnitude then
          return .ok (Number.lowBits bits negative magnitude).toNat
        else return .error .outOfRange

/-- The bit pattern of a literal at an integer type. -/
def parseIntLiteral (text : String) (bits : Nat) (signed : Bool) :
    Except Fault (Except Error Nat) := do
  match ← parseInt text bits signed with
  | .ok raw => return .ok raw
  | .error .malformed => return .error (.invalidLiteral text)
  | .error .outOfRange => return .error (.literalOutOfRange text (intTypeText bits signed))

theorem fits_eq {bits : Nat} (hbits : 1 ≤ bits) (signed negative : Bool) (magnitude : Number.Word) :
    fits bits signed negative magnitude = .ok (Number.fits bits signed negative magnitude) := by
  unfold fits Number.fits
  rw [minus_eq hbits]
  cases signed <;> rfl

theorem parseInt_eq (text : String) {bits : Nat} (hbits : 1 ≤ bits) (signed : Bool) :
    parseInt text bits signed = .ok (Number.parseInt text bits signed) := by
  unfold parseInt Number.parseInt
  simp only [fits_eq hbits]
  split
  · rfl
  · cases Number.readDigits? _ 0 _ with
    | none => rfl
    | some n =>
      dsimp only
      split
      · rfl
      · simp only [bind, Except.bind]
        split <;> rfl

theorem parseIntLiteral_eq (text : String) {bits : Nat} (hbits : 1 ≤ bits) (signed : Bool) :
    parseIntLiteral text bits signed = .ok (Ir.parseIntLiteral text bits signed) := by
  unfold parseIntLiteral Ir.parseIntLiteral
  rw [parseInt_eq text hbits]
  cases Number.parseInt text bits signed with
  | ok raw => rfl
  | error e => cases e <;> rfl

end Checked

end Ir

end FormCompiler
