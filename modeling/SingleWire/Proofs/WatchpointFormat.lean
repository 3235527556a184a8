import SingleWire.Watchpoint
import Mathlib.Algebra.Ring.Nat
import Mathlib.Data.List.Basic

/-! The payload format of the watchpoint unit. Each event has one form, and a payload is read as
the event whose form it is, but for bits without a meaning. What has no event is refused,
for a cause that the discriminator and the payload determine. -/

namespace SingleWire

theorem toNat_wordOfBytes_cons (byte : UInt8) (rest : List UInt8) :
    (wordOfBytes (byte :: rest)).toNat = (byte.toNat + 256 * (wordOfBytes rest).toNat) % 2 ^ 32 := by
  have bound := byte.toNat_lt
  have shifted : (wordOfBytes rest <<< 8).toNat = 2 ^ 8 * ((wordOfBytes rest).toNat % 2 ^ 24) := by
    rw [UInt32.toNat_shiftLeft, show (8 : UInt32).toNat % 32 = 8 from rfl, Nat.shiftLeft_eq]
    omega
  rw [wordOfBytes, UInt32.toNat_or, shifted, UInt8.toNat_toUInt32, ← Nat.two_pow_add_eq_or_of_lt bound]
  omega

theorem toNat_wordOfBytes_nil : (wordOfBytes []).toNat = 0 := rfl

namespace WatchpointEvent

/-- A payload without the bits that no event has: the two highest of the counter flags, and five
of the second byte of an exception trace. -/
def significant (discriminator : UInt8) : List UInt8 → List UInt8
  | [flags] => [if discriminator = 0 then flags &&& 0x3F else flags]
  | [low, high] => [low, if discriminator = 1 then high &&& 0x31 else high]
  | payload => payload

/-- The payload length that a discriminator asks for. Samples come in two forms and values of
data traces in any length. -/
def payloadLength? (discriminator : UInt8) : Option Nat :=
  if discriminator = 0 then some 1
  else if discriminator = 1 then some 2
  else if 8 ≤ discriminator ∧ discriminator < 16 then some (if discriminator % 2 = 0 then 4 else 2)
  else none

/-- Why a payload is no event. -/
inductive Refused (discriminator : UInt8) (payload : List UInt8) : Malformation → Prop where
  | unknown (none : ¬ (discriminator ≤ 2 ∨ 8 ≤ discriminator ∧ discriminator ≤ 23)) :
    Refused discriminator payload (.unknownDiscriminator discriminator payload.length)
  /-- The exception number is given all the same. -/
  | action {low high : UInt8} (trace : discriminator = 1) (bytes : payload = [low, high])
      (none : high.toNat / 16 % 4 = 0) :
    Refused discriminator payload (.exceptionAction (low.toNat + 256 * (high.toNat % 2)).toUInt16 0)
  | sample (counter : discriminator = 2) (awake : payload ≠ [0]) (sized : payload.length ≠ 4) :
    Refused discriminator payload (.sampleSize payload)
  | length {expected : Nat} (fixed : payloadLength? discriminator = some expected) (sized : payload.length ≠ expected) :
    Refused discriminator payload (.hardwarePayload discriminator payload)

private theorem wordOfBytes_lowBytes (word : UInt32) : wordOfBytes (lowBytes 4 word.toNat) = word := by
  have bound := word.toNat_lt
  apply UInt32.toNat_inj.mp
  simp only [lowBytes, toNat_wordOfBytes_cons, toNat_wordOfBytes_nil, Nat.toUInt8_eq, UInt8.toNat_ofNat']
  omega

private theorem lowBytes_wordOfBytes (first second third fourth : UInt8) :
    lowBytes 4 (wordOfBytes [first, second, third, fourth]).toNat = [first, second, third, fourth] := by
  have bounds := And.intro first.toNat_lt (And.intro second.toNat_lt (And.intro third.toNat_lt fourth.toNat_lt))
  simp only [lowBytes, toNat_wordOfBytes_cons, toNat_wordOfBytes_nil, List.cons.injEq, and_true, ← UInt8.toNat_inj,
    Nat.toUInt8_eq, UInt8.toNat_ofNat']
  omega

theorem toNat_halfword (low high : UInt8) : ((high.toUInt16 <<< 8) ||| low.toUInt16).toNat = low.toNat + 256 * high.toNat := by
  have bound := low.toNat_lt
  have above := high.toNat_lt
  have shifted : (high.toUInt16 <<< 8).toNat = 2 ^ 8 * high.toNat := by
    rw [UInt16.toNat_shiftLeft, UInt8.toNat_toUInt16, show (8 : UInt16).toNat % 16 = 8 from rfl, Nat.shiftLeft_eq]
    omega
  rw [UInt16.toNat_or, shifted, UInt8.toNat_toUInt16, ← Nat.two_pow_add_eq_or_of_lt bound]
  omega

private theorem lowBytes_halfword (low high : UInt8) : lowBytes 2 ((high.toUInt16 <<< 8) ||| low.toUInt16).toNat = [low, high] := by
  have bound := low.toNat_lt
  have above := high.toNat_lt
  simp only [lowBytes, toNat_halfword, List.cons.injEq, and_true, ← UInt8.toNat_inj, Nat.toUInt8_eq, UInt8.toNat_ofNat']
  omega

private theorem halfword_lowBytes (word : UInt16) :
    ((word.toNat / 256).toUInt8.toUInt16 <<< 8) ||| word.toNat.toUInt8.toUInt16 = word := by
  have bound := word.toNat_lt
  apply UInt16.toNat_inj.mp
  rw [toNat_halfword]
  simp only [Nat.toUInt8_eq, UInt8.toNat_ofNat']
  omega

/-- The second byte of an exception trace holds one bit of the exception number and the action. -/
private theorem exceptionBits (high : UInt8) :
    (high &&& 1).toNat = high.toNat % 2 ∧ ((high >>> 4) &&& 3).toNat = high.toNat / 16 % 4 ∧
    (high &&& 0x31).toNat = high.toNat / 16 % 4 * 16 + high.toNat % 2 := by
  revert high
  apply forall_byte
  decide +kernel

private theorem exceptionNumber (low high : UInt8) :
    ((high &&& 1).toUInt16 <<< 8) ||| low.toUInt16 = (low.toNat + 256 * (high.toNat % 2)).toUInt16 := by
  have bound := low.toNat_lt
  apply UInt16.toNat_inj.mp
  rw [toNat_halfword, (exceptionBits high).1, Nat.toUInt16_eq, UInt16.toNat_ofNat']
  omega

private theorem ofFunction?_function (action : ExceptionAction) : ExceptionAction.ofFunction? action.function = some action := by
  cases action <;> rfl

private theorem function_of_ofFunction? {function : UInt8} {action : ExceptionAction}
    (known : ExceptionAction.ofFunction? function = some action) : action.function = function := by
  unfold ExceptionAction.ofFunction? at known
  split at known
  next one => cases known; exact one.symm
  split at known
  next two => cases known; exact two.symm
  split at known
  next three => cases known; exact three.symm
  next => cases known

private theorem zero_of_ofFunction? {function : UInt8} (narrow : function.toNat < 4)
    (unknown : ExceptionAction.ofFunction? function = none) : function = 0 := by
  revert function
  apply forall_byte
  decide +kernel

private theorem traceBits (discriminator : UInt8) (least : 8 ≤ discriminator) (most : discriminator ≤ 23) :
    let comparator := (discriminator >>> 1) &&& 3
    comparator < 4 ∧
    if discriminator < 16 then
      if discriminator &&& 1 != 0 then 9 + 2 * comparator = discriminator ∧ payloadLength? discriminator = some 2
      else 8 + 2 * comparator = discriminator ∧ payloadLength? discriminator = some 4
    else if discriminator &&& 1 != 0 then 17 + 2 * comparator = discriminator else 16 + 2 * comparator = discriminator := by
  revert discriminator
  apply forall_byte
  decide +kernel

private theorem decode_above {discriminator : UInt8} (above : ¬ discriminator ≤ 2) (payload : List UInt8) :
    decode discriminator payload =
      if 8 ≤ discriminator ∧ discriminator ≤ 23 then ofDataTrace discriminator payload
      else .error (.unknownDiscriminator discriminator payload.length) := by
  have zero : discriminator ≠ 0 := by rintro rfl; exact above (by decide)
  have one : discriminator ≠ 1 := by rintro rfl; exact above (by decide)
  have two : discriminator ≠ 2 := by rintro rfl; exact above (by decide)
  unfold decode
  rw [if_neg zero, if_neg one, if_neg two]

private theorem decode_dataTrace {discriminator : UInt8} (least : 8 ≤ discriminator) (most : discriminator ≤ 23)
    (payload : List UInt8) : decode discriminator payload = ofDataTrace discriminator payload := by
  have above : ¬ discriminator ≤ 2 := UInt8.not_le.mpr (UInt8.lt_of_lt_of_le (by decide) least)
  rw [decode_above above, if_pos ⟨least, most⟩]

private theorem decode_unknown {discriminator : UInt8} (none : ¬ (discriminator ≤ 2 ∨ 8 ≤ discriminator ∧ discriminator ≤ 23))
    (payload : List UInt8) : decode discriminator payload = .error (.unknownDiscriminator discriminator payload.length) := by
  rw [decode_above (fun low => none (.inl low)), if_neg (fun trace => none (.inr trace))]

private theorem decode_sample (first second third fourth : UInt8) :
    decode 2 [first, second, third, fourth] = .ok (.counterSample (some (wordOfBytes [first, second, third, fourth]))) := by
  unfold decode
  rw [if_neg (by decide), if_neg (by decide), if_pos rfl]
  split
  next asleep => cases asleep
  next => rfl
  next other => exact absurd rfl (other _ _ _ _)

private theorem comparator_cases {comparator : UInt8} (known : comparator < 4) :
    comparator = 0 ∨ comparator = 1 ∨ comparator = 2 ∨ comparator = 3 := by
  simp only [← UInt8.toNat_inj, UInt8.lt_iff_toNat_lt, UInt8.reduceToNat] at known ⊢
  omega

private theorem ofExceptionBytes_encode (exception : UInt16) (action : ExceptionAction) (small : exception < 512) :
    ofExceptionBytes ((action.function.toNat <<< 12) + exception.toNat).toUInt8
      (((action.function.toNat <<< 12) + exception.toNat) / 256).toUInt8 = .ok (.exceptionTrace exception action) := by
  have bound : exception.toNat < 512 := UInt16.lt_iff_toNat_lt.mp small
  have narrow : action.function.toNat < 4 := by cases action <;> decide
  have function : (((((action.function.toNat <<< 12) + exception.toNat) / 256).toUInt8 >>> 4) &&& 3) = action.function := by
    apply UInt8.toNat_inj.mp
    rw [(exceptionBits _).2.1, Nat.toUInt8_eq, UInt8.toNat_ofNat', Nat.shiftLeft_eq]
    omega
  have number : (((((action.function.toNat <<< 12) + exception.toNat) / 256).toUInt8 &&& 1).toUInt16 <<< 8) |||
      (((action.function.toNat <<< 12) + exception.toNat).toUInt8).toUInt16 = exception := by
    apply UInt16.toNat_inj.mp
    rw [toNat_halfword, (exceptionBits _).1, Nat.toUInt8_eq, Nat.toUInt8_eq, UInt8.toNat_ofNat', UInt8.toNat_ofNat', Nat.shiftLeft_eq]
    omega
  rw [ofExceptionBytes, function, number, ofFunction?_function]

private theorem decode_value {discriminator comparator : UInt8} {access : MemoryAccess}
    (placed : 16 ≤ discriminator ∧ discriminator ≤ 23 ∧ (discriminator >>> 1) &&& 3 = comparator ∧
      (if discriminator &&& 1 != 0 then .write else .read) = access) (value : List UInt8) :
    decode discriminator value = .ok (.accessValue comparator access value) := by
  obtain ⟨least, most, rfl, rfl⟩ := placed
  rw [decode_dataTrace (UInt8.le_trans (by decide) least) most]
  unfold ofDataTrace
  rw [if_neg (UInt8.not_lt.mpr least)]

/-- Each event is read back from its form. -/
theorem decode_encode {event : WatchpointEvent} (encodable : event.Encodable) :
    decode event.encode.1 event.encode.2 = .ok event := by
  cases event with
  | counterWrap cycles folded loadStore sleep exception perInstruction =>
    have all : ∀ cycles folded loadStore sleep exception perInstruction : Bool,
        ofCounterFlags (32 * cycles.toNat + 16 * folded.toNat + 8 * loadStore.toNat + 4 * sleep.toNat
          + 2 * exception.toNat + perInstruction.toNat).toUInt8 =
        .counterWrap cycles folded loadStore sleep exception perInstruction := by decide
    exact congrArg Except.ok (all cycles folded loadStore sleep exception perInstruction)
  | exceptionTrace exception action => exact ofExceptionBytes_encode exception action encodable
  | counterSample counter =>
    cases counter with
    | none => rfl
    | some counter =>
      have read := decode_sample counter.toNat.toUInt8 (counter.toNat / 256).toUInt8 (counter.toNat / 256 / 256).toUInt8
        (counter.toNat / 256 / 256 / 256).toUInt8
      exact read.trans (congrArg (fun counter => Except.ok (counterSample (some counter))) (wordOfBytes_lowBytes counter))
  | accessCounter comparator counter =>
    have read : decode (8 + 2 * comparator) (lowBytes 4 counter.toNat) =
        .ok (.accessCounter comparator (wordOfBytes (lowBytes 4 counter.toNat))) := by
      rcases comparator_cases encodable with rfl | rfl | rfl | rfl
      all_goals rfl
    rwa [wordOfBytes_lowBytes] at read
  | accessAddress comparator address =>
    have read : decode (9 + 2 * comparator) (lowBytes 2 address.toNat) =
        .ok (.accessAddress comparator (((address.toNat / 256).toUInt8.toUInt16 <<< 8) ||| address.toNat.toUInt8.toUInt16)) := by
      rcases comparator_cases encodable with rfl | rfl | rfl | rfl
      all_goals rfl
    rwa [halfword_lowBytes] at read
  | accessValue comparator access value =>
    cases access with
    | read =>
      apply decode_value
      show 16 ≤ 16 + 2 * comparator ∧ 16 + 2 * comparator ≤ 23 ∧ ((16 + 2 * comparator) >>> 1) &&& 3 = comparator ∧
        (if (16 + 2 * comparator) &&& 1 != 0 then .write else .read) = MemoryAccess.read
      rcases comparator_cases encodable with rfl | rfl | rfl | rfl
      all_goals decide
    | write =>
      apply decode_value
      show 16 ≤ 17 + 2 * comparator ∧ 17 + 2 * comparator ≤ 23 ∧ ((17 + 2 * comparator) >>> 1) &&& 3 = comparator ∧
        (if (17 + 2 * comparator) &&& 1 != 0 then .write else .read) = MemoryAccess.write
      rcases comparator_cases encodable with rfl | rfl | rfl | rfl
      all_goals decide

/-- What reading makes of a payload. An event has that payload for its form, and a refusal has a cause. -/
def Settled (discriminator : UInt8) (payload : List UInt8) : Except Malformation WatchpointEvent → Prop
  | .ok event => event.Encodable ∧ event.encode = (discriminator, significant discriminator payload)
  | .error cause => Refused discriminator payload cause

private theorem significant_of_trace {discriminator : UInt8} (least : 8 ≤ discriminator) (payload : List UInt8) :
    significant discriminator payload = payload := by
  have zero : discriminator ≠ 0 := by rintro rfl; exact absurd least (by decide)
  have one : discriminator ≠ 1 := by rintro rfl; exact absurd least (by decide)
  match payload with
  | [] => rfl
  | [flags] => rw [significant, if_neg zero]
  | [low, high] => rw [significant, if_neg one]
  | _ :: _ :: _ :: _ => rfl

private theorem ofCounterFlags_settled (flags : UInt8) : Settled 0 [flags] (.ok (ofCounterFlags flags)) := by
  have all : ∀ flags, (ofCounterFlags flags).encode = (0, [flags &&& 0x3F]) := by
    apply forall_byte
    decide +kernel
  exact ⟨trivial, all flags⟩

private theorem ofExceptionBytes_settled (low high : UInt8) : Settled 1 [low, high] (ofExceptionBytes low high) := by
  obtain ⟨-, function, kept⟩ := exceptionBits high
  have bound := low.toNat_lt
  rw [ofExceptionBytes, exceptionNumber]
  split
  next action known =>
    have number := congrArg UInt8.toNat (function_of_ofFunction? known)
    rw [function] at number
    constructor
    · show (low.toNat + 256 * (high.toNat % 2)).toUInt16 < 512
      simp only [UInt16.lt_iff_toNat_lt, Nat.toUInt16_eq, UInt16.toNat_ofNat', UInt16.reduceToNat]
      omega
    · show ((1 : UInt8), lowBytes 2 _) = (1, [low, high &&& 0x31])
      simp only [lowBytes, Prod.mk.injEq, List.cons.injEq, and_true, true_and, ← UInt8.toNat_inj, kept, Nat.toUInt8_eq,
        UInt8.toNat_ofNat', Nat.toUInt16_eq, UInt16.toNat_ofNat', Nat.shiftLeft_eq]
      omega
  next unknown =>
    have zero := zero_of_ofFunction? (by omega) unknown
    rw [zero] at function ⊢
    exact .action rfl rfl function.symm

private theorem ofDataTrace_settled {discriminator : UInt8} (least : 8 ≤ discriminator) (most : discriminator ≤ 23)
    (payload : List UInt8) : Settled discriminator payload (ofDataTrace discriminator payload) := by
  obtain ⟨known, bits⟩ := traceBits discriminator least most
  have whole := significant_of_trace least payload
  unfold ofDataTrace
  split at bits
  next narrow =>
    rw [if_pos narrow]
    split at bits
    next odd =>
      rw [odd]
      split
      next clear => cases clear
      next low high _ => exact ⟨known, Prod.ext bits.1 ((lowBytes_halfword low high).trans whole.symm)⟩
      next other =>
        apply Refused.length bits.2
        intro pair
        obtain ⟨low, high, rfl⟩ := List.length_eq_two.mp pair
        exact other low high rfl rfl
    next even =>
      rw [Bool.not_eq_true] at even
      rw [even]
      split
      next first second third fourth _ =>
        exact ⟨known, Prod.ext bits.1 ((lowBytes_wordOfBytes first second third fourth).trans whole.symm)⟩
      next set => cases set
      next other _ =>
        apply Refused.length bits.2
        intro four
        obtain ⟨first, second, third, fourth, rfl⟩ := List.length_eq_four.mp four
        exact other first second third fourth rfl rfl
  next wide =>
    rw [if_neg wide]
    split at bits
    next odd =>
      rw [if_pos odd]
      exact ⟨known, Prod.ext bits whole.symm⟩
    next even =>
      rw [if_neg even]
      exact ⟨known, Prod.ext bits whole.symm⟩

theorem decode_settled (discriminator : UInt8) (payload : List UInt8) :
    Settled discriminator payload (decode discriminator payload) := by
  by_cases trace : 8 ≤ discriminator ∧ discriminator ≤ 23
  · rw [decode_dataTrace trace.1 trace.2]
    exact ofDataTrace_settled trace.1 trace.2 payload
  unfold decode
  split
  next zero =>
    subst zero
    split
    next flags => exact ofCounterFlags_settled flags
    next other =>
      apply Refused.length rfl
      intro single
      obtain ⟨flags, rfl⟩ := List.length_eq_one_iff.mp single
      exact other flags rfl
  split
  next one =>
    subst one
    split
    next low high => exact ofExceptionBytes_settled low high
    next other =>
      apply Refused.length rfl
      intro pair
      obtain ⟨low, high, rfl⟩ := List.length_eq_two.mp pair
      exact other low high rfl
  split
  next two =>
    subst two
    split
    next => exact ⟨trivial, rfl⟩
    next first second third fourth =>
      exact ⟨trivial, Prod.ext rfl (lowBytes_wordOfBytes first second third fourth)⟩
    next awake other =>
      apply Refused.sample rfl awake
      intro four
      obtain ⟨first, second, third, fourth, rfl⟩ := List.length_eq_four.mp four
      exact other first second third fourth rfl
  next zero one two =>
    apply Refused.unknown
    rintro (low | high)
    · have bound := UInt8.le_iff_toNat_le.mp low
      simp only [← UInt8.toNat_inj, UInt8.reduceToNat] at zero one two bound
      omega
    · exact trace high

theorem decode_significant (discriminator : UInt8) (payload : List UInt8) :
    decode discriminator (significant discriminator payload) = decode discriminator payload := by
  match payload with
  | [] => rfl
  | _ :: _ :: _ :: _ => rfl
  | [flags] =>
    rw [significant]
    split
    next zero =>
      subst zero
      have all : ∀ flags, ofCounterFlags (flags &&& 0x3F) = ofCounterFlags flags := by
        apply forall_byte
        decide +kernel
      exact congrArg Except.ok (all flags)
    next => rfl
  | [low, high] =>
    rw [significant]
    split
    next one =>
      subst one
      have all : ∀ high : UInt8, (high &&& 0x31) &&& 1 = high &&& 1 ∧
          ((high &&& (0x31 : UInt8)) >>> 4) &&& (3 : UInt8) = (high >>> 4) &&& 3 := by
        apply forall_byte
        decide +kernel
      show ofExceptionBytes low (high &&& 0x31) = ofExceptionBytes low high
      rw [ofExceptionBytes, ofExceptionBytes, (all high).1, (all high).2]
    next => rfl

private theorem decode_unsized {discriminator : UInt8} {payload : List UInt8} {expected : Nat}
    (fixed : payloadLength? discriminator = some expected) (sized : payload.length ≠ expected) :
    decode discriminator payload = .error (.hardwarePayload discriminator payload) := by
  have asked := fixed
  unfold payloadLength? at fixed
  split at fixed
  next zero =>
    subst zero
    cases fixed
    unfold decode
    rw [if_pos rfl]
    split
    next flags => exact absurd rfl sized
    next => rfl
  split at fixed
  next one =>
    subst one
    cases fixed
    unfold decode
    rw [if_neg (by decide), if_pos rfl]
    split
    next low high => exact absurd rfl sized
    next => rfl
  split at fixed
  next trace =>
    have most : discriminator ≤ 23 := UInt8.le_trans (UInt8.le_of_lt trace.2) (by decide)
    have bits := (traceBits discriminator trace.1 most).2
    rw [if_pos trace.2] at bits
    rw [decode_dataTrace trace.1 most]
    unfold ofDataTrace
    rw [if_pos trace.2]
    split at bits
    next odd =>
      cases asked.symm.trans bits.2
      rw [odd]
      split
      next clear => cases clear
      next => exact absurd rfl sized
      next => rfl
    next even =>
      cases asked.symm.trans bits.2
      rw [Bool.not_eq_true] at even
      rw [even]
      split
      next => exact absurd rfl sized
      next set => cases set
      next => rfl
  next => cases fixed

theorem decode_of_refused {discriminator : UInt8} {payload : List UInt8} {cause : Malformation}
    (refused : Refused discriminator payload cause) : decode discriminator payload = .error cause := by
  cases refused with
  | unknown none => exact decode_unknown none payload
  | @action low high trace bytes none =>
    subst trace bytes
    obtain ⟨-, function, -⟩ := exceptionBits high
    have zero : (high >>> 4) &&& 3 = 0 := UInt8.toNat_inj.mp (function.trans none)
    show ofExceptionBytes low high = _
    rw [ofExceptionBytes, exceptionNumber, zero]
    rfl
  | sample counter awake sized =>
    subst counter
    unfold decode
    rw [if_neg (by decide), if_neg (by decide), if_pos rfl]
    split
    next => exact absurd rfl awake
    next => exact absurd rfl sized
    next => rfl
  | length fixed sized => exact decode_unsized fixed sized

/-- Reading undoes the format. A payload is read as the one event whose form it is up to the bits
without a meaning, and what has no such event is refused for the one cause it gives. -/
theorem decode_iff_encoded_or_refused :
    (∀ event : WatchpointEvent, event.Encodable → decode event.encode.1 event.encode.2 = .ok event) ∧
    ∀ discriminator payload,
      (∀ event, decode discriminator payload = .ok event ↔
        event.Encodable ∧ event.encode = (discriminator, significant discriminator payload)) ∧
      ∀ cause, decode discriminator payload = .error cause ↔ Refused discriminator payload cause := by
  refine ⟨fun event encodable => decode_encode encodable, fun discriminator payload => ?_⟩
  have settled := decode_settled discriminator payload
  constructor
  · intro event
    constructor
    · intro read
      rwa [read] at settled
    · rintro ⟨encodable, form⟩
      have read := decode_encode encodable
      rwa [form, decode_significant] at read
  · intro cause
    constructor
    · intro read
      rwa [read] at settled
    · exact decode_of_refused

theorem decode_iff_encoded_or_refused_vacant_bits :
    decode 1 [0x0F, 0xDE] = .ok (.exceptionTrace 15 .entered) ∧
    decode 1 [0x0F, 0xCF] = .error (.exceptionAction 271 0) ∧
    decode 13 (lowBytes 2 0x8765) = .ok (.accessAddress 2 0x8765) :=
  have exact := decode_iff_encoded_or_refused
  ⟨((exact.2 1 [0x0F, 0xDE]).1 _).mpr ⟨show (15 : UInt16) < 512 by decide, by decide⟩,
    ((exact.2 1 [0x0F, 0xCF]).2 _).mpr (.action rfl rfl (by decide)),
    exact.1 (.accessAddress 2 0x8765) (show (2 : UInt8) < 4 by decide)⟩

end WatchpointEvent

end SingleWire
