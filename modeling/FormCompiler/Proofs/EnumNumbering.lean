import FormCompiler.Decl.Enum
import FormCompiler.Proofs.LiteralExactness

/-!
# Numbering of Enum Members

What a builder answers to members that are added to it one after the other, some with values of
their own, some without, and some refused.

* `EnumBuilder.Call`, `EnumBuilder.calls`: the calls of a builder, and the builder after them.
* `EnumBuilder.Follows`: the answer to a call is the one that the rule of numbering gives. A member
  without a value of its own is one above the member before it, the first one zero.
* `numbering_iff`: the rule is followed at every call exactly if the largest value of the type has a
  successor that a member could have. At the largest value a member can have at all, the next
  member gets that value again in place of a refusal.
-/

namespace FormCompiler

open Number (InRange)

/-- The integer is a value of the integer type that a member can have. -/
def MemberRange (bits : Nat) (signed : Bool) (v : Int) : Prop :=
  InRange bits signed v ∧ v ≤ maxMember

/-- The bounds of members are those of the type, as far as members can have its values. -/
theorem memberRange_iff {bits : Nat} (hpos : 1 ≤ bits) (hbits : bits ≤ 128) (signed : Bool)
    (v : Int) :
    (memberRange bits signed).1 ≤ v ∧ v ≤ (memberRange bits signed).2 ↔
      MemberRange bits signed v := by
  have hpow : ∀ k, Int.pow 2 k = 2 ^ k := fun _ => rfl
  have hmono : ∀ k ≤ 127, (2 : Int) ^ k ≤ 2 ^ 127 := fun k hk => pow_le_pow_right₀ (by decide) hk
  unfold memberRange MemberRange InRange minMember maxMember
  simp only [hpow]
  cases signed with
  | true =>
    simp only [if_true]
    split
    next hwide =>
      obtain rfl : bits = 128 := by omega
      omega
    next hnarrow =>
      have := hmono (bits - 1) (by omega)
      omega
  | false =>
    simp only [Bool.false_eq_true, if_false]
    split
    next hwide =>
      have : (2 : Int) ^ 127 ≤ 2 ^ bits := pow_le_pow_right₀ (by decide) hwide
      omega
    next hnarrow =>
      have := hmono bits (by omega)
      omega

namespace EnumBuilder

/-- What is asked of a builder. -/
inductive Call where
  | auto (name : String)
  | explicit (name : String) (value : Int)
deriving DecidableEq, Repr

/-- The name of the member that is asked for. -/
def Call.name : Call → String
  | auto name => name
  | explicit name _ => name

/-- Adds the member that is asked for. -/
def call (b : EnumBuilder) : Call → Except MemberError EnumBuilder
  | .auto name => b.addAuto name
  | .explicit name value => b.add name value

/-- The builder after a call: as it was if the member is refused. -/
def after (b : EnumBuilder) (c : Call) : EnumBuilder :=
  match b.call c with
  | .ok b' => b'
  | .error _ => b

/-- The builder after calls one after the other. -/
def calls (b : EnumBuilder) (cs : List Call) : EnumBuilder := cs.foldl after b

/-- The names of the members. -/
def names (b : EnumBuilder) : List String := b.members.toList.map (·.1)

/-- The value one above that of the last member, zero if there is none. -/
def successor (b : EnumBuilder) : Int :=
  match b.members.back? with
  | some (_, value) => value + 1
  | none => 0

/-- The value that the rule of numbering gives the member of a call. -/
def due (b : EnumBuilder) : Call → Int
  | .auto _ => b.successor
  | .explicit _ value => value

/-- The answer to a call is the one that the rule of numbering gives: a name that is taken is a
duplicate, and any other member is added with the value that is due, if that is in range. -/
structure Follows (bits : Nat) (signed : Bool) (b : EnumBuilder) (c : Call) : Prop where
  taken : c.name ∈ b.names → b.call c = .error .duplicate
  added : c.name ∉ b.names → MemberRange bits signed (b.due c) →
    ∃ b', b.call c = .ok b' ∧ b'.members = b.members.push (c.name, b.due c)
  refused : c.name ∉ b.names → ¬ MemberRange bits signed (b.due c) →
    b.call c = .error (.outOfRange (b.due c))

/-- The call asks for a new member after one with the largest value that a member can have. -/
def Exhausted (b : EnumBuilder) (c : Call) : Prop :=
  c = .auto c.name ∧ c.name ∉ b.names ∧ b.successor = maxMember + 1

/-- The members have names of their own and values of the type, a finished enum finds each of them
under its name, and a call that is refused changes nothing. -/
structure Sound (bits : Nat) (signed : Bool) (b : EnumBuilder) : Prop where
  distinct : b.names.Nodup
  inRange : ∀ m ∈ b.members, MemberRange bits signed m.2
  finished : ∀ linkage onceTag ty underlying,
    (b.finish linkage onceTag ty underlying).members = b.members ∧
      ∀ name value, (b.finish linkage onceTag ty underlying).memberValue? name = some value ↔
        (name, value) ∈ b.members
  unchanged : ∀ c e, b.call c = .error e → b.after c = b

/-- What holds of a builder for a type after any calls. -/
structure Kept (bits : Nat) (signed : Bool) (b : EnumBuilder) : Prop where
  least : b.least = (memberRange bits signed).1
  greatest : b.greatest = (memberRange bits signed).2
  next : b.next = min b.successor maxMember
  distinct : b.names.Nodup
  inRange : ∀ m ∈ b.members, MemberRange bits signed m.2

variable {b b' : EnumBuilder} {c : Call} {bits : Nat} {signed : Bool} {name : String} {value : Int}

/-! ## One call -/

theorem contains_iff : b.contains name = true ↔ name ∈ b.names := by
  rw [contains, names, Array.any_eq_true', List.mem_map]
  simp only [Array.mem_toList_iff, beq_iff_eq]

/-- A member with a name of its own and a value in range is added. -/
theorem Kept.add_of_inRange (h : Kept bits signed b) (hpos : 1 ≤ bits) (hbits : bits ≤ 128)
    (hname : name ∉ b.names) (hvalue : MemberRange bits signed value) :
    b.add name value = .ok { b with
      members := b.members.push (name, value), next := min (value + 1) maxMember } := by
  have hfresh : ¬ b.contains name = true := contains_iff.not.2 hname
  have hbounds := (memberRange_iff hpos hbits signed value).2 hvalue
  rw [← h.least, ← h.greatest] at hbounds
  rw [add, if_neg hfresh, if_neg (by omega)]

/-- A member with a value that is not in range is refused. -/
theorem Kept.add_of_not_inRange (h : Kept bits signed b) (hpos : 1 ≤ bits) (hbits : bits ≤ 128)
    (hname : name ∉ b.names) (hvalue : ¬ MemberRange bits signed value) :
    b.add name value = .error (.outOfRange value) := by
  have hfresh : ¬ b.contains name = true := contains_iff.not.2 hname
  have hbounds := (memberRange_iff hpos hbits signed value).not.2 hvalue
  rw [← h.least, ← h.greatest] at hbounds
  rw [add, if_neg hfresh, if_pos (by omega)]

/-- A member with a name that is taken is refused. -/
theorem add_of_taken (hname : name ∈ b.names) : b.add name value = .error .duplicate := by
  rw [add, if_pos (contains_iff.2 hname)]

/-- What is added has a name of its own and a value in range. -/
theorem Kept.of_add (h : Kept bits signed b) (hpos : 1 ≤ bits) (hbits : bits ≤ 128)
    (hadd : b.add name value = .ok b') :
    name ∉ b.names ∧ MemberRange bits signed value ∧ b' = { b with
      members := b.members.push (name, value), next := min (value + 1) maxMember } := by
  by_cases hname : name ∈ b.names
  · rw [add_of_taken hname] at hadd
    cases hadd
  by_cases hvalue : MemberRange bits signed value
  · rw [h.add_of_inRange hpos hbits hname hvalue] at hadd
    cases hadd
    exact ⟨hname, hvalue, rfl⟩
  · rw [h.add_of_not_inRange hpos hbits hname hvalue] at hadd
    cases hadd

/-- The value that a call gives its member: the one that is due, but at most the largest. -/
theorem Kept.call_eq (h : Kept bits signed b) (c : Call) :
    b.call c = b.add c.name (match c with
      | .auto _ => min b.successor maxMember
      | .explicit _ value => value) := by
  cases c with
  | auto name => rw [call, addAuto, h.next, Call.name]
  | explicit name value => rfl

/-! ## Several calls -/

/-- A builder without members. -/
theorem kept_start (bits : Nat) (signed : Bool) : Kept bits signed (start bits signed) where
  least := rfl
  greatest := rfl
  next := rfl
  distinct := .nil
  inRange m hm := absurd hm (Array.not_mem_empty m)

/-- A member that is added. -/
theorem Kept.add (h : Kept bits signed b) (hpos : 1 ≤ bits) (hbits : bits ≤ 128)
    (hadd : b.add name value = .ok b') : Kept bits signed b' := by
  obtain ⟨hname, hvalue, rfl⟩ := h.of_add hpos hbits hadd
  refine ⟨h.least, h.greatest, ?_, ?_, fun m hm => ?_⟩
  · rw [successor, Array.back?_push]
  · rw [names, Array.toList_push, List.map_append, List.nodup_append]
    refine ⟨h.distinct, List.nodup_singleton _, fun other hother x hx heq => hname ?_⟩
    rw [List.mem_singleton.1 hx] at heq
    exact heq.subst hother
  · rcases Array.mem_push.1 hm with hm | rfl
    · exact h.inRange m hm
    · exact hvalue

/-- A call, whether its member is added or refused. -/
theorem Kept.after (h : Kept bits signed b) (hpos : 1 ≤ bits) (hbits : bits ≤ 128) (c : Call) :
    Kept bits signed (b.after c) := by
  unfold EnumBuilder.after
  split
  next b' hcall =>
    rw [h.call_eq] at hcall
    exact h.add hpos hbits hcall
  next => exact h

/-- Calls one after the other. -/
theorem Kept.calls (h : Kept bits signed b) (hpos : 1 ≤ bits) (hbits : bits ≤ 128)
    (cs : List Call) : Kept bits signed (b.calls cs) := by
  induction cs generalizing b with
  | nil => exact h
  | cons c cs ih => exact ih (h.after hpos hbits c)

/-- A member that is looked up by its name is found. -/
theorem Kept.memberValue?_iff (h : Kept bits signed b) (linkage : Ir.Linkage)
    (onceTag : Option String) (ty underlying : TypeId) :
    (b.finish linkage onceTag ty underlying).memberValue? name = some value ↔
      (name, value) ∈ b.members := by
  rw [Enum.memberValue?, Option.map_eq_some_iff]
  constructor
  · rintro ⟨⟨other, value⟩, hfound, rfl⟩
    have hname := Array.find?_some hfound
    obtain rfl : other = name := eq_of_beq hname
    exact Array.mem_of_find?_eq_some hfound
  · intro hmem
    cases hfound : b.members.find? (fun m => m.1 == name) with
    | none => exact absurd (Array.find?_eq_none.1 hfound _ hmem) (by simp)
    | some m =>
      have hname := Array.find?_some hfound
      have hm := Array.mem_toList_iff.2 (Array.mem_of_find?_eq_some hfound)
      -- a name is that of one member only
      have hsame : m = (name, value) := List.inj_on_of_nodup_map h.distinct hm
        (Array.mem_toList_iff.2 hmem) (eq_of_beq hname)
      exact ⟨m, hfound, hsame ▸ rfl⟩

theorem Kept.sound (h : Kept bits signed b) : Sound bits signed b where
  distinct := h.distinct
  inRange := h.inRange
  finished linkage onceTag ty underlying :=
    ⟨rfl, fun _ _ => h.memberValue?_iff linkage onceTag ty underlying⟩
  unchanged c e he := by rw [EnumBuilder.after, he]

/-! ## The rule -/

/-- The value that is due after a member is at most one above the largest. -/
theorem Kept.successor_le (h : Kept bits signed b) : b.successor ≤ maxMember + 1 := by
  unfold successor
  split
  next hm =>
    have hle := (h.inRange _ (Array.mem_of_back? hm)).2
    exact Int.add_le_add_right hle 1
  next => decide

/-- Up to the largest value, the rule is followed. -/
theorem Kept.follows_of_eq (h : Kept bits signed b) (hpos : 1 ≤ bits) (hbits : bits ≤ 128)
    (hcall : b.call c = b.add c.name (b.due c)) : Follows bits signed b c where
  taken hname := by rw [hcall, add_of_taken hname]
  added hname hvalue := ⟨_, by rw [hcall, h.add_of_inRange hpos hbits hname hvalue], rfl⟩
  refused hname hvalue := by rw [hcall, h.add_of_not_inRange hpos hbits hname hvalue]

/-- A member with the largest value that a member can have is one with a value of the type. -/
theorem Kept.inRange_of_exhausted (h : Kept bits signed b) (hc : Exhausted b c) :
    MemberRange bits signed maxMember := by
  have hsuccessor := hc.2.2
  unfold successor at hsuccessor
  split at hsuccessor
  next value hm =>
    obtain rfl : value = maxMember := by omega
    exact h.inRange _ (Array.mem_of_back? hm)
  next => exact absurd hsuccessor (by decide)

/-- After the largest value, a new member gets it for a second time. -/
theorem Kept.call_of_exhausted (h : Kept bits signed b) (hpos : 1 ≤ bits) (hbits : bits ≤ 128)
    (hc : Exhausted b c) :
    ∃ b', b.call c = .ok b' ∧ b'.members = b.members.push (c.name, maxMember) := by
  have hlast := h.inRange_of_exhausted hc
  obtain ⟨hauto, hname, hsuccessor⟩ := hc
  have hmin : min b.successor maxMember = maxMember := by omega
  rw [h.call_eq, hauto]
  exact ⟨_, h.add_of_inRange hpos hbits hname (hmin.symm ▸ hlast), by rw [hmin]⟩

/-- The rule is followed at a call unless a new member is asked for after one with the largest
value. -/
theorem Kept.follows_iff (h : Kept bits signed b) (hpos : 1 ≤ bits) (hbits : bits ≤ 128)
    (c : Call) : Follows bits signed b c ↔ ¬ Exhausted b c := by
  constructor
  · rintro hfollows hc
    obtain ⟨b', hcall, -⟩ := h.call_of_exhausted hpos hbits hc
    obtain ⟨hauto, hname, hsuccessor⟩ := hc
    have hdue : b.due c = maxMember + 1 := by rw [hauto, due, hsuccessor]
    have habove : ¬ MemberRange bits signed (b.due c) := fun hrange => by
      have := hrange.2
      omega
    rw [hfollows.refused hname habove] at hcall
    cases hcall
  · intro hc
    by_cases hname : c.name ∈ b.names
    · exact ⟨fun _ => by rw [h.call_eq, add_of_taken hname], fun h => absurd hname h,
        fun h => absurd hname h⟩
    refine h.follows_of_eq hpos hbits ?_
    rw [h.call_eq]
    cases c with
    | explicit => rfl
    | auto name =>
      have hle := h.successor_le
      have hne : b.successor ≠ maxMember + 1 := fun heq => hc ⟨rfl, hname, heq⟩
      have hmin : min b.successor maxMember = b.successor := by omega
      dsimp only
      rw [hmin, due]

/-- The largest value of the type is below the largest that a member can have. -/
theorem maxMember_notMem_iff (hpos : 1 ≤ bits) :
    ¬ MemberRange bits signed maxMember ↔ bits < if signed then 128 else 127 := by
  have hmono : ∀ k l, k ≤ l → (2 : Int) ^ k ≤ 2 ^ l := fun k l hk =>
    pow_le_pow_right₀ (by decide) hk
  have hpow : Int.pow 2 127 = 2 ^ 127 := rfl
  have hzero : (0 : Int) < 2 ^ 127 := by decide
  unfold MemberRange InRange maxMember
  rw [hpow]
  cases signed with
  | true =>
    simp only [if_true]
    constructor
    · intro h
      by_contra hwide
      have := hmono 127 (bits - 1) (by omega)
      omega
    · intro hnarrow h
      have hlt : (2 : Int) ^ (bits - 1) < 2 ^ 127 := pow_lt_pow_right₀ (by decide) (by omega)
      omega
  | false =>
    simp only [Bool.false_eq_true, if_false]
    constructor
    · intro h
      by_contra hwide
      have := hmono 127 bits (by omega)
      omega
    · intro hnarrow h
      have hlt : (2 : Int) ^ bits < 2 ^ 127 := pow_lt_pow_right₀ (by decide) hnarrow
      omega

/-- Whatever calls a builder gets, its members have names of their own and values of the type, a
finished enum finds them, and a call that is refused changes nothing. The rule of numbering is
followed at each call but one that asks for a new member after one with the largest value that a
member can have, which gets that value again; so at all calls exactly if the type has no such
value. -/
theorem numbering_iff (hpos : 1 ≤ bits) (hbits : bits ≤ 128) (signed : Bool) :
    (∀ cs, Sound bits signed ((start bits signed).calls cs)) ∧
    (∀ cs c, Follows bits signed ((start bits signed).calls cs) c ↔
      ¬ Exhausted ((start bits signed).calls cs) c) ∧
    (∀ cs c, Exhausted ((start bits signed).calls cs) c →
      ∃ b', ((start bits signed).calls cs).call c = .ok b' ∧
        b'.members = ((start bits signed).calls cs).members.push (c.name, maxMember)) ∧
    ((∀ cs c, Follows bits signed ((start bits signed).calls cs) c) ↔
      bits < if signed then 128 else 127) := by
  have hkept := fun cs => (kept_start bits signed).calls hpos hbits cs
  refine ⟨fun cs => (hkept cs).sound, fun cs c => (hkept cs).follows_iff hpos hbits c,
    fun cs c => (hkept cs).call_of_exhausted hpos hbits, ?_⟩
  rw [← maxMember_notMem_iff hpos]
  constructor
  · -- a type with the largest value can have a member with it, and no rule is followed after that
    intro hall hmax
    obtain ⟨b, hcall⟩ : ∃ b, (start bits signed).call (.explicit "a" maxMember) = .ok b :=
      ⟨_, (kept_start bits signed).add_of_inRange hpos hbits List.not_mem_nil hmax⟩
    have hb : (start bits signed).calls [.explicit "a" maxMember] = b := by
      rw [calls, List.foldl_cons, List.foldl_nil, after, hcall]
    have hfollows := hall [.explicit "a" maxMember] (.auto "b")
    rw [(hkept _).follows_iff hpos hbits, hb] at hfollows
    obtain ⟨-, -, rfl⟩ := (kept_start bits signed).of_add hpos hbits hcall
    have hfresh : "b" ∉ ["a"] := by decide
    exact hfollows ⟨rfl, hfresh, rfl⟩
  · intro hmax cs c
    rw [(hkept cs).follows_iff hpos hbits]
    exact fun hc => hmax ((hkept cs).inRange_of_exhausted hc)

/-- After a member with the largest signed integer of 128 bits, the next one gets that value too. -/
theorem not_follows_widest :
    1 ≤ 128 ∧ 128 ≤ 128 ∧
      ¬ Follows 128 true ((start 128 true).calls [.explicit "a" maxMember]) (.auto "b") ∧
      ∃ b', ((start 128 true).calls [.explicit "a" maxMember]).call (.auto "b") = .ok b' ∧
        b'.members = #[("a", maxMember), ("b", maxMember)] := by
  obtain ⟨-, hfollows, hagain, -⟩ :=
    numbering_iff (by decide : 1 ≤ 128) (by decide : 128 ≤ 128) true
  have hexhausted : Exhausted ((start 128 true).calls [.explicit "a" maxMember]) (.auto "b") :=
    ⟨rfl, by decide +kernel, by decide +kernel⟩
  have hmembers : ((start 128 true).calls [.explicit "a" maxMember]).members.push
      ("b", maxMember) = #[("a", maxMember), ("b", maxMember)] := by decide +kernel
  obtain ⟨b', hcall, hb'⟩ := hagain _ _ hexhausted
  exact ⟨by decide, by decide, fun h => (hfollows _ _).1 h hexhausted, b', hcall,
    hb'.trans hmembers⟩

end EnumBuilder

end FormCompiler
