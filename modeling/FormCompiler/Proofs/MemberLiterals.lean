import FormCompiler.Proofs.EnumNumbering
import FormCompiler.Proofs.Lower.Coupling
import FormCompiler.Proofs.Lower.Reports

/-!
# Literals of Enum Members

What the literal of a member is read as, at any integer type and from any text. There are two checks
of its range: one of the bit pattern at the width of the type, when the literal is read, and one of
the integer, when the member is added. They agree (`memberLiteral_exact`).

* `Reported`: a step stops with the report of an error under a code.
* `memberLiteral_of_inRange`, `memberLiteral_of_not_inRange`, `memberLiteral_of_malformed`: the
  outcomes, by what the text denotes.
-/

namespace FormCompiler

namespace Context

/-- An integer type is entered in the module with its width. -/
theorem backendType_of_intWidth {c : Context} {t : TypeId} {bits : Nat}
    (h : c.pool.intWidth? t = some bits) :
    ∃ ty m, backendType t c = (ty, c.withIr m) ∧ m.intWidth? ty = some bits := by
  unfold Pool.intWidth? at h
  split at h
  next q hq =>
    have hbackend : primitiveBackend c.pool.target q = .int bits := by rw [primitiveBackend, h]
    have htype := Ir.Module.type_of_find (Ir.Module.internType_spec (.int bits) rfl c.ir).2
    refine ⟨(Ir.Module.internType (.int bits) c.ir).1, (Ir.Module.internType (.int bits) c.ir).2,
      ?_, ?_⟩
    · unfold backendType backendTypeBelow
      rw [hq]
      dsimp only
      rw [hbackend, onModule_run]
    · rw [Ir.Module.intWidth?, Ir.Module.type_of_getElem? htype]
  next => cases h

end Context

namespace Lower

open Number (Denotes InRange)

variable {σ α : Type} {u : Compilation σ} {underlying : TypeId} {bits : Nat} {text : String}
  {v : Int}

/-- The step stops, and the error that it reports is the diagnostic, which has the code. -/
def Reported (x : Lower σ α) (u : Compilation σ) (code : String) (d : Diagnostic) : Prop :=
  d.code.text = code ∧
    ∃ u', x u = .error .reported u' ∧ u'.context.queue = u.context.queue.emitError d

/-! ## The constant of a literal -/

/-- A literal that is read is added as a constant. -/
theorem attempt_constant {ty : Ir.TyId} {signed : Bool} {raw : Nat}
    (hty : u.context.ir.intWidth? ty = some bits)
    (hparse : Ir.parseIntLiteral text bits signed = .ok raw) :
    onState (Context.attempt (Ir.Module.constIntOfText ty signed text)) u =
      .ok (.ok (Ir.Module.newValue ty (.constInt raw) u.context.ir).1)
        (u.withIr (Ir.Module.newValue ty (.constInt raw) u.context.ir).2) := by
  refine onState_of_eq ?_
  rw [Context.attempt_run, Ir.Module.constIntOfText, hty]
  dsimp only
  rw [hparse]
  rfl

/-- A literal that is not read changes nothing. -/
theorem attempt_refusal {ty : Ir.TyId} {signed : Bool} {e : Ir.Error}
    (hty : u.context.ir.intWidth? ty = some bits)
    (hparse : Ir.parseIntLiteral text bits signed = .error e) :
    onState (Context.attempt (Ir.Module.constIntOfText ty signed text)) u = .ok (.error e) u := by
  refine onState_of_eq (c := u.context) ?_
  rw [Context.attempt_run, Ir.Module.constIntOfText, hty]
  dsimp only
  rw [hparse]
  rfl

/-- The integer of a constant, at the signedness of its type. -/
def constantValue? (m : Ir.Module) (signed : Bool) (c : Ir.ValueId) : Option Int :=
  if signed then m.constIntValue? c
  else (m.constRaw? c).map Int.ofNat |>.filter (· ≤ maxMember)

/-- The constant of a literal in the range of its type has the integer of the literal, unless that
is above the largest value a member can have. -/
theorem constantValue?_newValue {m : Ir.Module} {ty : Ir.TyId} (hty : m.intWidth? ty = some bits)
    (hpos : 1 ≤ bits) (hbits : bits ≤ 128) {signed : Bool} {raw : Nat}
    (hv : InRange bits signed v) (hraw : (raw : Int) = v % 2 ^ bits) :
    constantValue? (Ir.Module.newValue ty (.constInt raw) m).2 signed
        (Ir.Module.newValue ty (.constInt raw) m).1 =
      if v ≤ maxMember then some v else none := by
  have hfresh := Ir.Module.newValue_fresh ty (.constInt raw) m
  have hkind := Ir.Module.valueKind_of_getElem? hfresh.value
  have hvalueType := Ir.Module.valueType_of_getElem? hfresh.value
  unfold constantValue?
  cases signed with
  | true =>
    -- no signed integer of any width is above the largest value
    have hle : v ≤ maxMember := by
      have hpow : (2 : Int) ^ (bits - 1) ≤ 2 ^ 127 := pow_le_pow_right₀ (by decide) (by omega)
      have hmax : maxMember = 2 ^ 127 - 1 := rfl
      simp only [InRange, if_true] at hv
      omega
    have hwidth : (Ir.Module.newValue ty (.constInt raw) m).2.constWidth ty = bits := by
      rw [Ir.Module.constWidth, hfresh.still.toExtends.intWidth? hty, Option.getD_some]
      omega
    rw [if_pos rfl, if_pos hle, Ir.Module.constIntValue?, hkind, hvalueType, hwidth]
    exact congrArg some (Number.signed_eq hpos hv hraw)
  | false =>
    rw [if_neg Bool.false_ne_true, Ir.Module.constRaw?, hkind]
    change Option.filter _ (some (raw : Int)) = _
    rw [Number.unsigned_eq hv hraw, Option.filter_some]
    simp only [decide_eq_true_eq]

/-! ## The outcomes -/

/-- A literal in the range of the type is the value of its member, unless it is above the largest
value a member can have. -/
theorem memberLiteral_of_inRange (hwidth : u.context.pool.intWidth? underlying = some bits)
    (hpos : 1 ≤ bits) (hbits : bits ≤ 128) (node : NodeId) (hv : Denotes text.toList v)
    (hrange : InRange bits (u.context.pool.isSigned underlying) v) :
    ∃ m, memberLiteral node text underlying u =
      if v ≤ maxMember then .ok v (u.withIr m)
      else failOutOfRange node text underlying (u.withIr m) := by
  obtain ⟨ty, m, hbackend, hty⟩ := Context.backendType_of_intWidth hwidth
  obtain ⟨raw, hparse, hraw⟩ := (Number.parseInt_of_denotes _ hpos hbits hv).1 hrange
  have hliteral : Ir.parseIntLiteral text bits (u.context.pool.isSigned underlying) = .ok raw := by
    rw [Ir.parseIntLiteral, hparse]
  refine ⟨(Ir.Module.newValue ty (.constInt raw) m).2, ?_⟩
  unfold memberLiteral
  refine (bind_run rfl).trans ((bind_run (onState_of_eq hbackend)).trans
    ((bind_run (attempt_constant hty hliteral)).trans ((bind_run rfl).trans ?_)))
  have hvalue := constantValue?_newValue hty hpos hbits hrange hraw
  unfold constantValue? at hvalue
  -- the module of the goal is that of `hvalue`, read out of the compilation
  erw [hvalue]
  split <;> rfl

/-- A literal that is not in the range of the type is reported. -/
theorem memberLiteral_of_not_inRange (hwidth : u.context.pool.intWidth? underlying = some bits)
    (hpos : 1 ≤ bits) (hbits : bits ≤ 128) (node : NodeId) (hv : Denotes text.toList v)
    (hrange : ¬ InRange bits (u.context.pool.isSigned underlying) v) :
    ∃ m, memberLiteral node text underlying u =
      failOutOfRange node text underlying (u.withIr m) := by
  obtain ⟨ty, m, hbackend, hty⟩ := Context.backendType_of_intWidth hwidth
  have hliteral : Ir.parseIntLiteral text bits (u.context.pool.isSigned underlying) = .error
      (.literalOutOfRange text (Ir.intTypeText bits (u.context.pool.isSigned underlying))) := by
    rw [Ir.parseIntLiteral, (Number.parseInt_of_denotes _ hpos hbits hv).2 hrange]
  refine ⟨m, ?_⟩
  unfold memberLiteral
  exact (bind_run rfl).trans ((bind_run (onState_of_eq hbackend)).trans
    ((bind_run (attempt_refusal hty hliteral)).trans rfl))

/-- A text that is no literal is reported. -/
theorem memberLiteral_of_malformed (hwidth : u.context.pool.intWidth? underlying = some bits)
    (node : NodeId) (hv : ¬ ∃ v, Denotes text.toList v) :
    ∃ m, memberLiteral node text underlying u = .error .reported ((u.withIr m).reporting
      (Report.unexpectedElement (u.forest.span node) "integer literal" "enum element" text)) := by
  obtain ⟨ty, m, hbackend, hty⟩ := Context.backendType_of_intWidth hwidth
  have hliteral : Ir.parseIntLiteral text bits (u.context.pool.isSigned underlying) =
      .error (.invalidLiteral text) := by
    rw [Ir.parseIntLiteral, Number.parseInt_of_not_denotes _ hv]
  refine ⟨m, ?_⟩
  unfold memberLiteral
  exact (bind_run rfl).trans ((bind_run (onState_of_eq hbackend)).trans
    ((bind_run (attempt_refusal hty hliteral)).trans rfl))

/-- A literal that denotes no value a member can have is reported under the code of values that are
out of range. -/
theorem reported_of_not_memberRange (hwidth : u.context.pool.intWidth? underlying = some bits)
    (hpos : 1 ≤ bits) (hbits : bits ≤ 128) (node : NodeId) (hv : Denotes text.toList v)
    (hrange : ¬ MemberRange bits (u.context.pool.isSigned underlying) v) :
    Reported (memberLiteral node text underlying) u "E2006"
      (Report.literalOutOfRange (u.forest.span node) text (u.context.typeName underlying)) := by
  have hfail : ∃ m, memberLiteral node text underlying u =
      failOutOfRange node text underlying (u.withIr m) := by
    by_cases hin : InRange bits (u.context.pool.isSigned underlying) v
    · obtain ⟨m, hrun⟩ := memberLiteral_of_inRange hwidth hpos hbits node hv hin
      rw [if_neg fun hle => hrange ⟨hin, hle⟩] at hrun
      exact ⟨m, hrun⟩
    · exact memberLiteral_of_not_inRange hwidth hpos hbits node hv hin
  obtain ⟨m, hrun⟩ := hfail
  exact ⟨rfl, _, hrun, rfl⟩

/-- A text that is no literal is reported under the code of unexpected elements. -/
theorem reported_of_malformed (hwidth : u.context.pool.intWidth? underlying = some bits)
    (node : NodeId) (hv : ¬ ∃ v, Denotes text.toList v) :
    Reported (memberLiteral node text underlying) u "E1003"
      (Report.unexpectedElement (u.forest.span node) "integer literal" "enum element" text) := by
  obtain ⟨m, hrun⟩ := memberLiteral_of_malformed hwidth node hv
  exact ⟨rfl, _, hrun, rfl⟩

/-- The literals that are read are those that denote a value a member can have, and that value is
what they are read as. -/
theorem memberLiteral_ok_iff (hwidth : u.context.pool.intWidth? underlying = some bits)
    (hpos : 1 ≤ bits) (hbits : bits ≤ 128) (node : NodeId) :
    (∃ u', memberLiteral node text underlying u = .ok v u') ↔
      Denotes text.toList v ∧ MemberRange bits (u.context.pool.isSigned underlying) v := by
  constructor
  · rintro ⟨u', hok⟩
    by_cases hliteral : ∃ w, Denotes text.toList w
    · obtain ⟨w, hw⟩ := hliteral
      by_cases hrange : MemberRange bits (u.context.pool.isSigned underlying) w
      · obtain ⟨m, hrun⟩ := memberLiteral_of_inRange hwidth hpos hbits node hw hrange.1
        rw [if_pos hrange.2, hok] at hrun
        obtain ⟨rfl, -⟩ := EStateM.Result.ok.inj hrun
        exact ⟨hw, hrange⟩
      · obtain ⟨-, _, hrun, -⟩ := reported_of_not_memberRange hwidth hpos hbits node hw hrange
        rw [hok] at hrun
        cases hrun
    · obtain ⟨-, _, hrun, -⟩ := reported_of_malformed hwidth node hliteral
      rw [hok] at hrun
      cases hrun
  · rintro ⟨hv, hrange⟩
    obtain ⟨m, hrun⟩ := memberLiteral_of_inRange hwidth hpos hbits node hv hrange.1
    rw [if_pos hrange.2] at hrun
    exact ⟨_, hrun⟩

/-- A literal that is read is accepted as the value of a member with a new name, and one that
denotes a value and is not read would be refused by the builder too. -/
theorem memberLiteral_ok_iff_add (hwidth : u.context.pool.intWidth? underlying = some bits)
    (hpos : 1 ≤ bits) (hbits : bits ≤ 128) (node : NodeId) (hv : Denotes text.toList v)
    {b : EnumBuilder} (hb : b.Kept bits (u.context.pool.isSigned underlying)) {name : String}
    (hname : name ∉ b.names) :
    (∃ u', memberLiteral node text underlying u = .ok v u') ↔ ∃ b', b.add name v = .ok b' := by
  rw [memberLiteral_ok_iff hwidth hpos hbits node]
  constructor
  · rintro ⟨-, hrange⟩
    exact ⟨_, hb.add_of_inRange hpos hbits hname hrange⟩
  · rintro ⟨b', hadd⟩
    exact ⟨hv, (hb.of_add hpos hbits hadd).2.1⟩

/-- At every integer type of up to 128 bits, the literal of a member is read exactly if it denotes
an integer of the type that is not above the largest value a member can have, and it is read as that
integer. A builder for the type, whatever calls it got, accepts the same integers under a new name.
Other literals are reported as out of range, and other texts as no literals. -/
theorem memberLiteral_exact (hwidth : u.context.pool.intWidth? underlying = some bits)
    (hpos : 1 ≤ bits) (hbits : bits ≤ 128) (node : NodeId) (text : String) :
    (∀ v, (∃ u', memberLiteral node text underlying u = .ok v u') ↔
      Denotes text.toList v ∧ MemberRange bits (u.context.pool.isSigned underlying) v) ∧
    (∀ v, Denotes text.toList v → ∀ (cs : List EnumBuilder.Call) (name : String),
      name ∉ ((EnumBuilder.start bits (u.context.pool.isSigned underlying)).calls cs).names →
        ((∃ u', memberLiteral node text underlying u = .ok v u') ↔
          ∃ b', ((EnumBuilder.start bits (u.context.pool.isSigned underlying)).calls cs).add
            name v = .ok b')) ∧
    (∀ v, Denotes text.toList v → ¬ MemberRange bits (u.context.pool.isSigned underlying) v →
      Reported (memberLiteral node text underlying) u "E2006"
        (Report.literalOutOfRange (u.forest.span node) text (u.context.typeName underlying))) ∧
    ((¬ ∃ v, Denotes text.toList v) →
      Reported (memberLiteral node text underlying) u "E1003"
        (Report.unexpectedElement (u.forest.span node) "integer literal" "enum element" text)) := by
  refine ⟨fun v => memberLiteral_ok_iff hwidth hpos hbits node, fun v hv cs name hname => ?_,
    fun v hv hrange => reported_of_not_memberRange hwidth hpos hbits node hv hrange,
    fun hv => reported_of_malformed hwidth node hv⟩
  exact memberLiteral_ok_iff_add hwidth hpos hbits node hv
    ((EnumBuilder.kept_start bits _).calls hpos hbits cs) hname

/-- The hexadecimal literal of the least signed integer of eight bits is read as that integer. -/
theorem memberLiteral_exact_least :
    (Compilation.start .standard .none () : Compilation Unit).context.pool.intWidth?
        (.ofPrimitive .int8) = some 8 ∧ 1 ≤ 8 ∧ 8 ≤ 128 ∧
      ∃ u', memberLiteral ⟨0⟩ "-0x80" (.ofPrimitive .int8)
        (Compilation.start .standard .none () : Compilation Unit) = .ok (-128) u' := by
  have hwidth : (Compilation.start .standard .none () : Compilation Unit).context.pool.intWidth?
      (.ofPrimitive .int8) = some 8 := by decide +kernel
  have hdigits : Number.Writes 16 ['8', '0'] 128 :=
    ⟨nofun, [8, 0], .cons ⟨by decide, .inl rfl⟩ (.cons ⟨by decide, .inl rfl⟩ .nil), by decide⟩
  have hdenotes : Denotes "-0x80".toList (-128) := by
    have htext : "-0x80".toList = ['-', '0', 'x', '8', '0'] := by decide +kernel
    rw [htext]
    exact .minus (.hexadecimal 'x' (.inl rfl) hdigits)
  have hrange : MemberRange 8 true (-128) :=
    (memberRange_iff (by decide) (by decide) true (-128)).1 (by decide +kernel)
  have hsigned : (Compilation.start .standard .none () : Compilation Unit).context.pool.isSigned
      (.ofPrimitive .int8) = true := by decide +kernel
  exact ⟨hwidth, by decide, by decide,
    ((memberLiteral_exact hwidth (by decide) (by decide) ⟨0⟩ "-0x80").1 (-128)).2
      ⟨hdenotes, hsigned ▸ hrange⟩⟩

end Lower

end FormCompiler
