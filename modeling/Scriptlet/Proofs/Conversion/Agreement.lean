import Scriptlet.Conversion.Registry

/-!
# Types that convert and values that convert

`canConvert` answers from the types what `convert` answers from the value. The two tables agree,
except between integers and characters: a `byte` is read as a character although its type is not,
and a big integer of more than 64 bits is refused although its type is not.
-/
namespace Scriptlet

namespace Conversion

/-- No rule leads from the value to the type. -/
def Refused (result : Result) : Prop :=
  ∃ source target, result = .error (.unsupported source target)

@[simp] theorem not_refused_ok (w : Value) : ¬ Refused (.ok w) := by
  simp [Refused]

@[simp] theorem refused_unsupported (v : Value) (target : Ty) :
    Refused (.error (unsupported v target)) :=
  ⟨v.ty, target, rfl⟩

@[simp] theorem not_refused_invalidLiteral (text : String) (target : Ty) :
    ¬ Refused (.error (.invalidLiteral text target)) := by
  simp [Refused]

@[simp] theorem not_refused_outOfRange (v : Value) (target : Ty) :
    ¬ Refused (.error (outOfRange v target)) := by
  simp [Refused, outOfRange]

/-- What is not refused is converted, or the value is to blame. -/
theorem not_refused_iff {result : Result} : ¬ Refused result ↔
    (∃ w, result = .ok w) ∨ (∃ text target, result = .error (.invalidLiteral text target)) ∨
      ∃ text target, result = .error (.outOfRange text target) := by
  rcases result with (e | w)
  · cases e <;> simp [Refused]
  · simp

/-! ## Rules into one kind -/

variable {v : Value} {target : Ty}

theorem refused_toBoolean :
    Refused (toBoolean v target) ↔ (v.ty.isBoolean || v.ty == .string) = false := by
  cases v with
  | string s =>
    simp only [toBoolean]
    split
    · simp [Value.ty]
    · split <;> simp [Value.ty]
  | _ => simp [toBoolean, Value.ty, Ty.isBoolean, Ty.kind?]

theorem refused_toNumeric {kind : Primitive} : Refused (toNumeric v kind target) ↔
    (v.ty.isNumber || v.ty == .string || v.ty.isChar) = false := by
  cases v with
  | null | boolean b | object o =>
    simp [toNumeric, Value.ty, Ty.isNumber, Ty.isChar, Ty.kind?, Primitive.isNumeric]
  | _ =>
    simp only [toNumeric]
    split <;> simp [Value.ty, Ty.isNumber, Ty.isChar, Ty.kind?, Primitive.isNumeric]

theorem refused_toBigInteger (hv : v.isNull = false) : Refused (toBigInteger v target) ↔
    (v.ty.isNumber || v.ty == .string || v.ty.isChar) = false := by
  cases v with
  | null => contradiction
  | boolean b | object o =>
    simp [toBigInteger, Value.ty, Ty.isNumber, Ty.isChar, Ty.kind?, Primitive.isNumeric]
  | _ =>
    simp only [toBigInteger]
    split <;> simp [Value.ty, Ty.isNumber, Ty.isChar, Ty.kind?, Primitive.isNumeric]

theorem refused_toBigDecimal (hv : v.isNull = false) : Refused (toBigDecimal v target) ↔
    (v.ty.isNumber || v.ty == .string || v.ty.isChar) = false := by
  cases v with
  | null => contradiction
  | boolean b | object o =>
    simp [toBigDecimal, Value.ty, Ty.isNumber, Ty.isChar, Ty.kind?, Primitive.isNumeric]
  | _ =>
    simp only [toBigDecimal]
    split <;> simp [Value.ty, Ty.isNumber, Ty.isChar, Ty.kind?, Primitive.isNumeric]

/-- Characters are made of whatever reads as a 64-bit integer. -/
theorem refused_toChar : Refused (toChar v target) ↔
    (v.ty.isChar || v.ty == .string || v.toInt64?.isSome) = false := by
  cases v with
  | char c => simp [toChar, Value.ty, Ty.isChar, Ty.kind?]
  | string s =>
    simp only [toChar]
    split <;> simp [Value.ty]
  | _ =>
    simp only [toChar]
    split
    · rename_i hn
      simp [hn, Value.ty, Ty.isChar, Ty.kind?]
    · rename_i hn
      split <;> simp [hn]

end Conversion

namespace ConversionRegistry

open Conversion (Refused)

variable (r : ConversionRegistry) {v : Value} {target : Ty}

/-! ## What the types answer -/

theorem canConvert_null : r.canConvert target .null = !target.isPrimitive := by
  cases target <;> rfl

theorem canConvert_string (source : Ty) : r.canConvert .string source = true := by
  cases source <;> simp [canConvert]

theorem canConvert_any (source : Ty) : r.canConvert .any source = true := by
  cases source <;> simp [canConvert]

theorem canConvert_kind {p : Primitive} (hv : v.isNull = false)
    (hp : target = .primitive p ∨ target = .boxed p) :
    r.canConvert target v.ty = acceptsBuiltin (.boxed p) v.ty := by
  rcases hp with rfl | rfl <;> cases v <;> first | contradiction | (cases p <;> rfl)

theorem canConvert_bigInteger (hv : v.isNull = false) : r.canConvert .bigInteger v.ty =
    (v.ty.isNumber || v.ty == .string || v.ty.isChar) := by
  cases v <;> first | contradiction | rfl

theorem canConvert_bigDecimal (hv : v.isNull = false) : r.canConvert .bigDecimal v.ty =
    (v.ty.isNumber || v.ty == .string || v.ty.isChar) := by
  cases v <;> first | contradiction | rfl

theorem canConvert_nullTy (hv : v.isNull = false) : r.canConvert .null v.ty = false := by
  cases v <;> first | contradiction | rfl

theorem canConvert_hostClass {c : ClassType} (hv : v.isNull = false) :
    r.canConvert (.hostClass c) v.ty = (isInstance c v || r.handles c v.ty) := by
  cases v with
  | null => contradiction
  | object o =>
    have own : (Ty.hostClass c == .hostClass o.hostClass) = true →
        c.isAncestorOf o.hostClass = true := by
      rw [beq_iff_eq, Ty.hostClass.injEq]
      rintro rfl
      exact ClassType.isAncestorOf_refl _
    simp only [canConvert, Value.ty, isInstance, Ty.assignableFrom, Ty.widensFrom]
    rw [Bool.or_eq_right_iff_imp.mpr own]
  | _ => simp [canConvert, Value.ty, isInstance, Ty.assignableFrom, Ty.widensFrom]

/-! ## What the values answer -/

theorem refused_kind {p : Primitive} (hp : p ≠ .char) :
    Refused (Conversion.toPrimitive v p target) ↔ acceptsBuiltin (.boxed p) v.ty = false := by
  cases p with
  | boolean => exact Conversion.refused_toBoolean
  | char => contradiction
  | _ => exact Conversion.refused_toNumeric

/-- Of the integers, characters are made of a `byte` too, and of no more than 64 bits. -/
theorem refused_char (hv : v.isNull = false) : Refused (Conversion.toChar v target) ↔
    (acceptsBuiltin (.boxed .char) v.ty = false ∧ v.tag ≠ .byte) ∨
      ∃ n, v = .bigInteger n ∧ Value.fitInt64? n = none := by
  rw [Conversion.refused_toChar]
  cases v with
  | null => contradiction
  | bigInteger n =>
    simp [Value.toInt64?, Value.ty, acceptsBuiltin, Ty.isNumber, Ty.isBoolean, Ty.isChar, Ty.kind?,
      Ty.isIntegral, Primitive.isNumeric]
  | _ =>
    simp [Value.toInt64?, Value.ty, Value.tag, acceptsBuiltin, Ty.isNumber, Ty.isBoolean,
      Ty.isChar, Ty.kind?, Ty.isIntegral, Primitive.isNumeric]

/-- The handler of the class makes an instance of the value. -/
structure Consulted (c : ClassType) (v : Value) (handler : ConversionHandler) : Prop where
  present : v.isNull = false
  foreign : isInstance c v = false
  registered : r.handler? c.name = some handler
  accepts : handler.accepts v.ty = true

variable {r} in
theorem Consulted.convert_eq {c : ClassType} {handler : ConversionHandler}
    (h : r.Consulted c v handler) :
    r.convert v (.hostClass c) = handler.convert v (.hostClass c) := by
  simp [convert, h.present, toHostClass, h.foreign, h.registered, h.accepts]

/-- A class takes its instances, and what its handler makes of the other values. -/
theorem toHostClass_cases (c : ClassType) (hv : v.isNull = false) :
    (r.canConvert (.hostClass c) v.ty = false ∧
      r.toHostClass v c = .error (Conversion.unsupported v (.hostClass c))) ∨
    (r.canConvert (.hostClass c) v.ty = true ∧
      (r.toHostClass v c = .ok v ∧ isInstance c v = true ∨
        ∃ handler, r.Consulted c v handler)) := by
  rw [r.canConvert_hostClass hv, handles, toHostClass]
  cases hc : isInstance c v with
  | true => simp
  | false =>
    cases hh : r.handler? c.name with
    | none => simp
    | some handler =>
      cases ha : handler.accepts v.ty with
      | false => simp [ha]
      | true => exact .inr ⟨by simp [ha], .inr ⟨handler, hv, hc, hh, ha⟩⟩

/-! ## Both answers -/

/-- A `byte` to be read as a character. -/
def ByteAsChar (v : Value) (target : Ty) : Prop := target.isChar = true ∧ v.tag = .byte

/-- A big integer of more than 64 bits to be read as a character. -/
def WideAsChar (v : Value) (target : Ty) : Prop :=
  target.isChar = true ∧ ∃ n, v = .bigInteger n ∧ Value.fitInt64? n = none

/-- The handler of a class accepts the type of the value and refuses the value. -/
def HandlerRefuses (v : Value) (target : Ty) : Prop :=
  ∃ c handler, target = .hostClass c ∧ r.Consulted c v handler ∧
    Refused (handler.convert v target)

/-- The value is refused as its type is, or for one of the three reasons to refuse it otherwise. -/
def Told (v : Value) (target : Ty) : Prop :=
  Refused (r.convert v target) ↔
    (r.canConvert target v.ty = false ∧ ¬ ByteAsChar v target) ∨ WideAsChar v target ∨
      r.HandlerRefuses v target

theorem told_of_table (hchar : target.isChar = false) (hclass : ∀ c, target ≠ .hostClass c)
    (table : Refused (r.convert v target) ↔ r.canConvert target v.ty = false) :
    r.Told v target := by
  have handler : ¬ r.HandlerRefuses v target := by
    rintro ⟨c, handler, h, -, -⟩
    exact hclass c h
  simp [Told, table, handler, ByteAsChar, WideAsChar, hchar]

theorem told_null : r.Told .null target := by
  have wide : ¬ WideAsChar .null target := by simp [WideAsChar]
  have byte : ¬ ByteAsChar .null target := by simp [ByteAsChar, Value.tag]
  have handler : ¬ r.HandlerRefuses .null target := by
    rintro ⟨c, handler, -, consulted, -⟩
    exact Bool.noConfusion consulted.present
  rw [Told, Value.ty, r.canConvert_null]
  simp only [byte, wide, handler, not_false_eq_true, and_true, or_false]
  unfold convert
  cases hp : target.isPrimitive <;> simp [Value.isNull]

theorem told_kind {p : Primitive} (hv : v.isNull = false)
    (hp : target = .primitive p ∨ target = .boxed p) : r.Told v target := by
  have hchar : target.isChar = (p == .char) := by
    rcases hp with rfl | rfl <;> cases p <;> rfl
  have hclass (c : ClassType) : target ≠ .hostClass c := by
    rintro rfl
    rcases hp with hp | hp <;> contradiction
  have hconvert : r.convert v target = Conversion.toPrimitive v p target := by
    rcases hp with rfl | rfl <;> simp [convert, hv]
  by_cases hc : p = .char
  · subst hc
    have handler : ¬ r.HandlerRefuses v target := by
      rintro ⟨c, handler, h, -, -⟩
      exact hclass c h
    rw [Told, hconvert, r.canConvert_kind hv hp]
    simp only [ByteAsChar, WideAsChar, hchar, beq_self_eq_true, handler, true_and, or_false]
    exact refused_char hv
  · refine r.told_of_table (by simp [hchar, hc]) hclass ?_
    rw [hconvert, r.canConvert_kind hv hp]
    exact refused_kind hc

theorem told_hostClass (c : ClassType) (hv : v.isNull = false) : r.Told v (.hostClass c) := by
  have byte : ¬ ByteAsChar v (.hostClass c) := fun h => Bool.noConfusion h.1
  have wide : ¬ WideAsChar v (.hostClass c) := fun h => Bool.noConfusion h.1
  have hconvert : r.convert v (.hostClass c) = r.toHostClass v c := by simp [convert, hv]
  have refuses {handler : ConversionHandler} (consulted : r.Consulted c v handler) :
      r.HandlerRefuses v (.hostClass c) ↔ Refused (handler.convert v (.hostClass c)) := by
    constructor
    · rintro ⟨c', handler', hc, consulted', h⟩
      obtain rfl := Ty.hostClass.inj hc
      obtain rfl := Option.some.inj (consulted.registered.symm.trans consulted'.registered)
      exact h
    · exact fun h => ⟨c, handler, rfl, consulted, h⟩
  rw [Told]
  simp only [byte, wide, not_false_eq_true, and_true, false_or]
  obtain ⟨accepted, refused⟩ | ⟨accepted, ⟨converted, own⟩ | ⟨handler, consulted⟩⟩ :=
    r.toHostClass_cases c hv
  · simp [accepted, hconvert, refused]
  · have handler : ¬ r.HandlerRefuses v (.hostClass c) := by
      rintro ⟨c', handler', hc, consulted', -⟩
      obtain rfl := Ty.hostClass.inj hc
      exact Bool.noConfusion (own.symm.trans consulted'.foreign)
    simp [accepted, hconvert, converted, handler]
  · simp [accepted, consulted.convert_eq, refuses consulted]

theorem told (v : Value) (target : Ty) : r.Told v target := by
  by_cases hv : v.isNull = true
  · obtain rfl : v = .null := by cases v <;> first | rfl | contradiction
    exact r.told_null
  have hv : v.isNull = false := by simpa using hv
  cases target with
  | primitive p => exact r.told_kind hv (.inl rfl)
  | boxed p => exact r.told_kind hv (.inr rfl)
  | hostClass c => exact r.told_hostClass c hv
  | bigInteger =>
    have hconvert : r.convert v .bigInteger = Conversion.toBigInteger v .bigInteger := by
      simp [convert, hv]
    refine r.told_of_table rfl (by simp) ?_
    rw [hconvert, r.canConvert_bigInteger hv, Conversion.refused_toBigInteger hv]
  | bigDecimal =>
    have hconvert : r.convert v .bigDecimal = Conversion.toBigDecimal v .bigDecimal := by
      simp [convert, hv]
    refine r.told_of_table rfl (by simp) ?_
    rw [hconvert, r.canConvert_bigDecimal hv, Conversion.refused_toBigDecimal hv]
  | string => exact r.told_of_table rfl (by simp) (by simp [convert, hv, r.canConvert_string])
  | any => exact r.told_of_table rfl (by simp) (by simp [convert, hv, r.canConvert_any])
  | null => exact r.told_of_table rfl (by simp) (by simp [convert, hv, r.canConvert_nullTy hv])

theorem kind_of_isChar (h : target.isChar = true) :
    target = .primitive .char ∨ target = .boxed .char := by
  cases target <;> simp_all [Ty.isChar, Ty.kind?]

theorem canConvert_byteAsChar (h : ByteAsChar v target) : r.canConvert target v.ty = false := by
  obtain ⟨hchar, hv⟩ := h
  obtain ⟨b, rfl⟩ : ∃ b, v = .byte b := by cases v <;> first | contradiction | exact ⟨_, rfl⟩
  exact r.canConvert_kind rfl (kind_of_isChar hchar)

theorem canConvert_wideAsChar (h : WideAsChar v target) : r.canConvert target v.ty = true := by
  obtain ⟨hchar, n, rfl, -⟩ := h
  exact r.canConvert_kind rfl (kind_of_isChar hchar)

theorem canConvert_handlerRefuses (h : r.HandlerRefuses v target) :
    r.canConvert target v.ty = true := by
  obtain ⟨c, handler, rfl, consulted, -⟩ := h
  simp [r.canConvert_hostClass consulted.present, handles, consulted.registered,
    consulted.accepts]

/-- A conversion is refused exactly if the types do not convert, with three exceptions: a `byte`
becomes a character although its type does not convert, a big integer of more than 64 bits is
refused as one although its type does, and so is a value whose type the handler of a class
accepts and which it refuses itself. -/
theorem canConvert_agrees (v : Value) (target : Ty) :
    (Refused (r.convert v target) ↔
      (r.canConvert target v.ty = false ∧ ¬ ByteAsChar v target) ∨ WideAsChar v target ∨
        r.HandlerRefuses v target) ∧
    (ByteAsChar v target → r.canConvert target v.ty = false) ∧
    (WideAsChar v target ∨ r.HandlerRefuses v target → r.canConvert target v.ty = true) ∧
    (r.canConvert target v.ty = true → ¬ WideAsChar v target → ¬ r.HandlerRefuses v target →
      (∃ w, r.convert v target = .ok w) ∨
        (∃ text t, r.convert v target = .error (.invalidLiteral text t)) ∨
        ∃ text t, r.convert v target = .error (.outOfRange text t)) := by
  have told : Refused (r.convert v target) ↔ _ := r.told v target
  refine ⟨told, r.canConvert_byteAsChar, ?_, fun accepted wide handler => ?_⟩
  · rintro (wide | handler)
    · exact r.canConvert_wideAsChar wide
    · exact r.canConvert_handlerRefuses handler
  · have converts : ¬ Refused (r.convert v target) := by
      rw [told]
      simp [accepted, wide, handler]
    exact Conversion.not_refused_iff.mp converts

/-- A big integer that is a code point becomes a character. -/
theorem canConvert_agrees_code_point :
    empty.canConvert (.primitive .char) .bigInteger = true ∧
      ¬ WideAsChar (.bigInteger 65) (.primitive .char) ∧
      ¬ empty.HandlerRefuses (.bigInteger 65) (.primitive .char) ∧
      ¬ Refused (empty.convert (.bigInteger 65) (.primitive .char)) := by
  have wide : ¬ WideAsChar (.bigInteger 65) (.primitive .char) := by
    rintro ⟨-, n, h, large⟩
    obtain rfl := Value.bigInteger.inj h
    contradiction
  have handler : ¬ empty.HandlerRefuses (.bigInteger 65) (.primitive .char) := by
    rintro ⟨c, handler, h, -⟩
    contradiction
  obtain ⟨-, -, -, converts⟩ := empty.canConvert_agrees (.bigInteger 65) (.primitive .char)
  exact ⟨rfl, wide, handler, Conversion.not_refused_iff.mpr (converts rfl wide handler)⟩

/-- The types alone do not tell what is refused: 2^63 is a big integer, whose type converts to
that of characters, and no character is made of it. -/
theorem canConvert_misleads :
    ¬ ∀ (r : ConversionRegistry) (v : Value) (target : Ty), ¬ r.HandlerRefuses v target →
      (Refused (r.convert v target) ↔ r.canConvert target v.ty = false) := by
  intro agree
  have handler : ¬ empty.HandlerRefuses (.bigInteger (2 ^ 63)) (.primitive .char) := by
    rintro ⟨c, handler, h, -⟩
    contradiction
  have refused : Refused (empty.convert (.bigInteger (2 ^ 63)) (.primitive .char)) :=
    ⟨_, _, rfl⟩
  exact Bool.noConfusion ((agree _ _ _ handler).mp refused)

end ConversionRegistry

end Scriptlet
