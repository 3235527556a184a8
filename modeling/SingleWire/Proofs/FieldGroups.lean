import SingleWire.Continuation.Groups
import Mathlib.Tactic.Ring

/-! A field ends where its bytes say, whatever follows it, and its value fits the
number of its bytes. A number sent in any admissible number of groups is read back. -/

namespace SingleWire.Continuation

/-- The bytes that belong to a field at the start of a stretch, ended or not. -/
def taken (cap : Nat) : List UInt8 → List UInt8
  | [] => []
  | byte :: rest => byte :: if cap ≤ 1 ∨ byte.toNat < 128 then [] else taken (cap - 1) rest

theorem split?_eq_some {cap : Nat} {bytes field rest : List UInt8} (ended : split? cap bytes = some (field, rest)) :
    bytes = field ++ rest ∧ taken cap bytes = field := by
  induction bytes generalizing cap field rest with
  | nil => cases ended
  | cons byte bytes ih =>
    simp only [split?] at ended
    simp only [taken]
    split at ended
    next last =>
      cases ended
      exact ⟨rfl, by rw [if_pos last]⟩
    next more =>
      obtain ⟨⟨group, left⟩, found, same⟩ := Option.map_eq_some_iff.mp ended
      cases same
      obtain ⟨whole, front⟩ := ih found
      rw [if_neg more, front]
      exact ⟨congrArg (byte :: ·) whole, rfl⟩

theorem split?_eq_none {cap : Nat} {bytes : List UInt8} (unended : split? cap bytes = none) :
    taken cap bytes = bytes ∧ (0 < cap → bytes.length < cap) ∧ ∀ byte ∈ bytes, 128 ≤ byte.toNat := by
  induction bytes generalizing cap with
  | nil => exact ⟨rfl, id, by simp⟩
  | cons byte bytes ih =>
    simp only [split?] at unended
    split at unended
    · cases unended
    next more =>
      obtain ⟨front, short, marked⟩ := ih (Option.map_eq_none_iff.mp unended)
      refine ⟨by rw [taken, if_neg more, front], ?_, ?_⟩
      · intro _
        have bound := short (by omega)
        simp only [List.length_cons]
        omega
      · intro other member
        rcases List.mem_cons.mp member with rfl | member
        · omega
        · exact marked other member

theorem split?_of_marked {cap : Nat} {marked : List UInt8} (continued : ∀ byte ∈ marked, 128 ≤ byte.toNat)
    (short : marked.length < cap) (rest : List UInt8) :
    split? cap (marked ++ rest) =
      (split? (cap - marked.length) rest).map fun (field, left) => (marked ++ field, left) := by
  induction marked generalizing cap with
  | nil => simp
  | cons byte marked ih =>
    have first := continued byte List.mem_cons_self
    simp only [List.length_cons] at short
    have more : ¬ (cap ≤ 1 ∨ byte.toNat < 128) := by omega
    have later : split? (cap - 1) (marked ++ rest) = _ :=
      ih (fun other member => continued other (List.mem_cons_of_mem _ member)) (by omega)
    rw [List.cons_append, split?, if_neg more, later, Option.map_map, List.length_cons,
      show cap - (marked.length + 1) = cap - 1 - marked.length by omega]
    rfl

theorem split?_append {cap : Nat} {bytes field rest : List UInt8} (ended : split? cap bytes = some (field, rest))
    (more : List UInt8) : split? cap (bytes ++ more) = some (field, rest ++ more) := by
  induction bytes generalizing cap field rest with
  | nil => cases ended
  | cons byte bytes ih =>
    simp only [split?, List.cons_append] at ended ⊢
    split at ended
    next last => cases ended; rw [if_pos last]
    next more =>
      obtain ⟨⟨group, left⟩, found, same⟩ := Option.map_eq_some_iff.mp ended
      cases same
      rw [if_neg more, ih found]
      rfl

theorem split?_field {cap : Nat} {bytes field rest : List UInt8} (ended : split? cap bytes = some (field, rest)) :
    split? cap field = some (field, []) := by
  induction bytes generalizing cap field rest with
  | nil => cases ended
  | cons byte bytes ih =>
    simp only [split?] at ended
    split at ended
    next last =>
      cases ended
      rw [split?, if_pos last]
    next more =>
      obtain ⟨⟨group, left⟩, found, same⟩ := Option.map_eq_some_iff.mp ended
      cases same
      rw [split?, if_neg more, ih found]
      rfl

theorem length_split? {cap : Nat} {bytes field rest : List UInt8} (positive : 0 < cap)
    (ended : split? cap bytes = some (field, rest)) : 0 < field.length ∧ field.length ≤ cap := by
  induction bytes generalizing cap field rest with
  | nil => cases ended
  | cons byte bytes ih =>
    simp only [split?] at ended
    split at ended
    next => cases ended; exact ⟨Nat.zero_lt_one, positive⟩
    next more =>
      obtain ⟨⟨group, left⟩, found, same⟩ := Option.map_eq_some_iff.mp ended
      cases same
      have bound := ih (by omega) found
      simp only [List.length_cons]
      omega

theorem sum_concat (cap : Nat) (front : List UInt8) (last : UInt8) :
    sum cap (front ++ [last]) = sum cap front +
      2 ^ (7 * front.length) * (if cap ≤ front.length + 1 then last.toNat else last.toNat % 128) := by
  induction front generalizing cap with
  | nil => simp [sum]
  | cons byte front ih =>
    have grown : 2 ^ (7 * (front.length + 1)) = 128 * 2 ^ (7 * front.length) := by
      rw [Nat.mul_succ, Nat.pow_add, Nat.mul_comm]
    have same : cap - 1 ≤ front.length + 1 ↔ cap ≤ front.length + 1 + 1 := by omega
    rw [List.cons_append, sum, sum, ih, List.length_cons, grown]
    simp only [same]
    ring

theorem sum_lt (cap : Nat) (bytes : List UInt8) :
    (bytes.length < cap → sum cap bytes < 2 ^ (7 * bytes.length)) ∧
    (bytes.length ≤ cap → sum cap bytes < 2 ^ (7 * bytes.length + 1)) := by
  induction bytes generalizing cap with
  | nil => simp [sum]
  | cons byte bytes ih =>
    obtain ⟨below, within⟩ := ih (cap - 1)
    have byteBound := byte.toNat_lt
    simp only [List.length_cons, sum]
    constructor
    · intro short
      have bound := below (by omega)
      rw [if_neg (by omega), Nat.mul_add, Nat.pow_add]
      omega
    · intro short
      by_cases last : cap ≤ 1
      · have none : bytes = [] := List.eq_nil_of_length_eq_zero (by omega)
        subst none
        simp only [sum, last, if_true, List.length_nil]
        omega
      · have bound := within (by omega)
        rw [if_neg last, show 7 * (bytes.length + 1) + 1 = 7 * bytes.length + 1 + 7 by omega, Nat.pow_add]
        omega

instance (cap count value : Nat) : Decidable (Fits cap count value) :=
  inferInstanceAs (Decidable (0 < count ∧ (count < cap ∧ value < 1 <<< (7 * count) ∨ count = cap ∧ value < 1 <<< (7 * count + 1))))

theorem fits_iff {cap count value : Nat} : Fits cap count value ↔
    0 < count ∧ (count < cap ∧ value < 2 ^ (7 * count) ∨ count = cap ∧ value < 2 ^ (7 * count + 1)) := by
  simp only [Fits, Nat.shiftLeft_eq, Nat.one_mul]

theorem lt_of_fits {cap count value : Nat} (fits : Fits cap count value) : value < 2 ^ (7 * cap + 1) := by
  obtain ⟨_, ⟨below, bound⟩ | ⟨rfl, bound⟩⟩ := fits_iff.mp fits
  · exact Nat.lt_of_lt_of_le bound (Nat.pow_le_pow_right Nat.two_pos (by omega))
  · exact bound

theorem fits_cap {cap value : Nat} (positive : 0 < cap) (small : value < 2 ^ (7 * cap + 1)) : Fits cap cap value :=
  fits_iff.mpr ⟨positive, .inr ⟨rfl, small⟩⟩

@[simp] theorem length_groups (count value : Nat) : (groups count value).length = count := by
  induction count, value using groups.induct with
  | case1 => rfl
  | case2 => rfl
  | case3 count value ih => rw [groups, List.length_cons, ih]

/-- A number is read back from its groups, and the field ends with the last of them. -/
theorem split?_groups {cap count value : Nat} (fits : Fits cap count value) (rest : List UInt8) :
    split? cap (groups count value ++ rest) = some (groups count value, rest) ∧ sum cap (groups count value) = value := by
  induction count, value using groups.induct generalizing cap with
  | case1 => exact absurd fits.1 (by decide)
  | case2 value =>
    rcases fits.2 with ⟨below, bound⟩ | ⟨rfl, bound⟩
    · have small : value < 128 := bound
      have same : value.toUInt8.toNat = value := Nat.mod_eq_of_lt (by omega)
      simp only [groups, List.cons_append, List.nil_append, split?, sum, same]
      rw [if_pos (.inr small), if_neg (by omega)]
      exact ⟨rfl, by omega⟩
    · have small : value < 256 := bound
      have same : value.toUInt8.toNat = value := Nat.mod_eq_of_lt small
      simp [groups, split?, sum, same]
  | case3 count value ih =>
    have marked : (128 + value % 128).toUInt8.toNat = 128 + value % 128 := Nat.mod_eq_of_lt (by omega)
    have smaller : Fits (cap - 1) (count + 1) (value / 128) := by
      rw [fits_iff] at fits ⊢
      refine ⟨by omega, ?_⟩
      rcases fits.2 with ⟨below, bound⟩ | ⟨rfl, bound⟩
      · refine .inl ⟨by omega, Nat.div_lt_of_lt_mul ?_⟩
        rwa [show 7 * (count + 2) = 7 + 7 * (count + 1) by omega, Nat.pow_add] at bound
      · refine .inr ⟨rfl, Nat.div_lt_of_lt_mul ?_⟩
        rwa [show 7 * (count + 2) + 1 = 7 + (7 * (count + 1) + 1) by omega, Nat.pow_add] at bound
    have more : ¬ (cap ≤ 1 ∨ 128 + value % 128 < 128) := by
      rcases fits.2 with below | full <;> omega
    obtain ⟨ended, total⟩ := ih smaller
    simp only [groups, List.cons_append, split?, sum, marked]
    rw [if_neg more, if_neg (by omega), ended, total]
    exact ⟨rfl, by omega⟩

end SingleWire.Continuation
