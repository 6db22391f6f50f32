import Mathlib.Data.List.Forall2
import StatusRegistry.Proofs.Text.Digits
import StatusRegistry.Proofs.Text.Utf8
import StatusRegistry.Text.Form

/-!
# Reading back form-encoded pairs

An octet of an encoded text stands for itself, is a plus sign that stands for a space, or is given
by an escape. However its texts are written, a sequence of pairs is read back in order: the octets
that divide keys, values and pairs occur in them only as escapes.
-/

namespace StatusRegistry

section

variable {α : Type} [DecidableEq α] {separator : α}

/-- A part without the separator is passed over as a whole. -/
theorem splitOnto_append {part : List α} (whole : separator ∉ part) (parts : List (List α))
    (front rest : List α) : splitOnto separator parts front (part ++ rest) =
      splitOnto separator parts (part.reverse ++ front) rest := by
  induction part generalizing front with
  | nil => rfl
  | cons a part ih =>
    rw [List.cons_append, splitOnto, if_neg (List.ne_of_not_mem_cons whole).symm,
      ih (List.not_mem_of_not_mem_cons whole), List.reverse_cons, List.append_assoc]
    rfl

/-- Parts without the separator are found between its occurrences. -/
theorem splitOnto_intercalate (part : List α) (later found : List (List α))
    (whole : ∀ p ∈ part :: later, separator ∉ p) :
    splitOnto separator found [] (List.intercalate [separator] (part :: later)) =
      found.reverse ++ part :: later := by
  induction later generalizing part found with
  | nil =>
    have last := splitOnto_append (whole part (by simp)) found [] []
    rw [List.append_nil, List.append_nil] at last
    rw [List.intercalate_singleton, last, splitOnto, List.reverse_reverse, List.reverse_cons]
  | cons next later ih =>
    rw [List.intercalate_cons_cons, List.append_assoc, List.singleton_append,
      splitOnto_append (whole part (by simp)), splitOnto, if_pos rfl, List.append_nil,
      List.reverse_reverse, ih next _ fun p member => whole p (List.mem_cons_of_mem part member),
      List.reverse_cons, List.append_assoc]
    rfl

/-- Dividing a sequence undoes joining its parts. -/
theorem splitAt_intercalate (part : List α) (later : List (List α))
    (whole : ∀ p ∈ part :: later, separator ∉ p) :
    splitAt separator (List.intercalate [separator] (part :: later)) = part :: later :=
  splitOnto_intercalate part later [] whole

end

namespace Form

open Percent (hexDigits hexValue?_eq_some_iff)

/-- The octets that have to be escaped in a value: percent sign, ampersand and plus sign. -/
def reservedInValues : List UInt8 := [0x25, 0x26, 0x2B]

/-- The octets that have to be escaped in a key: those of values, and the equals sign. -/
def reservedInKeys : List UInt8 := 0x3D :: reservedInValues

/-- The ways to write octets where some are reserved. -/
inductive Writes (reserved : List UInt8) : List UInt8 → List UInt8 → Prop
  | nil : Writes reserved [] []
  | plain {b octets written} (free : b ∉ reserved) (rest : Writes reserved octets written) :
    Writes reserved (b :: octets) (b :: written)
  | space {octets written} (rest : Writes reserved octets written) :
    Writes reserved (0x20 :: octets) (0x2B :: written)
  | escape {b high low octets written} (first : high ∈ hexDigits (b.toNat / 16))
    (second : low ∈ hexDigits (b.toNat % 16)) (rest : Writes reserved octets written) :
    Writes reserved (b :: octets) (0x25 :: high :: low :: written)

/-- Octets that are not reserved may stand as they are. -/
theorem Writes.free {reserved octets : List UInt8}
    (free : (octets.all fun b => b ∉ reserved) = true) : Writes reserved octets octets := by
  induction octets with
  | nil => exact .nil
  | cons b octets ih =>
    rw [List.all_cons, Bool.and_eq_true, decide_eq_true_eq] at free
    exact .plain free.1 (ih free.2)

/-- None of the signs of a form is a hexadecimal digit. -/
theorem not_reserved_of_mem {n : Nat} (small : n < 16) {digit : UInt8}
    (member : digit ∈ hexDigits n) : digit ∉ reservedInKeys := by
  have all : ∀ n < 16, ((hexDigits n).all fun digit => digit ∉ reservedInKeys) = true := by decide
  exact of_decide_eq_true (List.all_eq_true.mp (all n small) digit member)

/-- An escape stands for the octet with the value of its digits. -/
theorem octet?_of_mem {b high low : UInt8} (first : high ∈ hexDigits (b.toNat / 16))
    (second : low ∈ hexDigits (b.toNat % 16)) : Percent.octet? high low = some b := by
  have bound := b.toNat_lt
  have upper := hexValue?_eq_some_iff.mpr ⟨by omega, first⟩
  have lower := hexValue?_eq_some_iff.mpr ⟨by omega, second⟩
  have value : b.toNat / 16 * 16 + b.toNat % 16 = b.toNat := by omega
  rw [Percent.octet?, upper, lower]
  show some (b.toNat / 16 * 16 + b.toNat % 16).toUInt8 = some b
  rw [value, Nat.toUInt8_eq, UInt8.ofNat_toNat]

/-- An octet other than a percent sign stands for itself. -/
theorem decodeOnto_cons {b : UInt8} (plain : b ≠ 0x25) (found rest : List UInt8) :
    Percent.decodeOnto found (b :: rest) = Percent.decodeOnto (b :: found) rest := by
  rcases rest with _ | ⟨c, _ | ⟨d, rest⟩⟩
  · rfl
  · rfl
  · rw [Percent.decodeOnto, if_neg plain]

variable {reserved octets written : List UInt8}

/-- Decoding undoes every way to write octets. -/
theorem Writes.decodeOnto (writes : Writes reserved octets written)
    (signs : 0x25 ∈ reserved ∧ 0x2B ∈ reserved) (found : List UInt8) :
    Percent.decodeOnto found (written.map fun b => if b = 0x2B then 0x20 else b) =
      found.reverse ++ octets := by
  induction writes generalizing found with
  | nil => rw [List.map_nil, Percent.decodeOnto, List.append_nil]
  | @plain b octets written free rest ih =>
    have noPercent : b ≠ 0x25 := fun same => free (same ▸ signs.1)
    have noPlus : b ≠ 0x2B := fun same => free (same ▸ signs.2)
    rw [List.map_cons, if_neg noPlus, decodeOnto_cons noPercent, ih, List.reverse_cons,
      List.append_assoc]
    rfl
  | space rest ih =>
    rw [List.map_cons, if_pos rfl, decodeOnto_cons (by decide), ih, List.reverse_cons,
      List.append_assoc]
    rfl
  | @escape b high low octets written first second rest ih =>
    have bound := b.toNat_lt
    have digit : ∀ {n digit}, n < 16 → digit ∈ hexDigits n → digit ≠ 0x2B := by
      rintro n digit small member rfl
      exact not_reserved_of_mem small member (by decide)
    rw [List.map_cons, List.map_cons, List.map_cons, if_neg (by decide),
      if_neg (digit (by omega) first), if_neg (digit (by omega) second), Percent.decodeOnto,
      if_pos rfl, octet?_of_mem first second]
    show Percent.decodeOnto (b :: found) _ = _
    rw [ih, List.reverse_cons, List.append_assoc]
    rfl

/-- The signs that divide keys, values and pairs are escaped where they are reserved. -/
theorem Writes.not_mem (writes : Writes reserved octets written) {sign : UInt8}
    (divides : sign ∈ reserved) (named : sign = 0x26 ∨ sign = 0x3D) : sign ∉ written := by
  have known : sign ∈ reservedInKeys ∧ sign ≠ 0x25 ∧ sign ≠ 0x2B := by
    rcases named with rfl | rfl <;> decide
  induction writes with
  | nil => exact List.not_mem_nil
  | plain free rest ih =>
    refine List.not_mem_cons_of_ne_of_not_mem ?_ ih
    rintro rfl
    exact free divides
  | space rest ih => exact List.not_mem_cons_of_ne_of_not_mem known.2.2 ih
  | @escape b high low octets written first second rest ih =>
    have bound := b.toNat_lt
    have digit : ∀ {n digit}, n < 16 → digit ∈ hexDigits n → sign ≠ digit := by
      rintro n digit small member rfl
      exact not_reserved_of_mem small member known.1
    refine List.not_mem_cons_of_ne_of_not_mem known.2.1 ?_
    refine List.not_mem_cons_of_ne_of_not_mem (digit (by omega) first) ?_
    exact List.not_mem_cons_of_ne_of_not_mem (digit (by omega) second) ih

/-- A text is read back, however it is written. -/
theorem Writes.decodeText {text : String} (writes : Writes reserved (Utf8.octets text) written)
    (signs : 0x25 ∈ reserved ∧ 0x2B ∈ reserved) : decodeText written = text := by
  have octets := writes.decodeOnto signs []
  rw [Form.decodeText, Percent.decode, octets, List.reverse_nil, List.nil_append, Utf8.stringLossy,
    Utf8.decodeLossy, Utf8.octets, Utf8.scan_encode, List.map_map]
  have same : ((·.getD '\uFFFD') ∘ some : Char → Char) = id := rfl
  rw [same, List.map_id, String.ofList_toList]

/-- The ways to write a pair: a key, an equals sign and a value. -/
def WritesPair (pair : String × String) (part : List UInt8) : Prop :=
  ∃ key value, Writes reservedInKeys (Utf8.octets pair.1) key ∧
    Writes reservedInValues (Utf8.octets pair.2) value ∧ part = key ++ 0x3D :: value

/-- The ways to write pairs, joined by ampersands. -/
def WritesPairs (pairs : List (String × String)) (query : List UInt8) : Prop :=
  ∃ parts, List.Forall₂ WritesPair pairs parts ∧ query = List.intercalate [0x26] parts

variable {pair : String × String} {part : List UInt8}

/-- A pair is read back. -/
theorem WritesPair.decodePair (writes : WritesPair pair part) : decodePair part = pair := by
  obtain ⟨key, value, keyWrites, valueWrites, rfl⟩ := writes
  have noSign : 0x3D ∉ key := keyWrites.not_mem (by decide) (.inr rfl)
  have front : (key ++ 0x3D :: value).takeWhile (· ≠ 0x3D) = key := by
    rw [List.takeWhile_append_of_pos, List.takeWhile_cons_of_neg (by simp), List.append_nil]
    exact fun b member => decide_eq_true fun same => noSign (same ▸ member)
  have back : (key ++ 0x3D :: value).drop (key.length + 1) = value := by
    rw [← List.drop_drop, List.drop_left]
    rfl
  rw [Form.decodePair, front, back, keyWrites.decodeText (by decide),
    valueWrites.decodeText (by decide)]

/-- A pair takes up some octets, and no ampersand is among them. -/
theorem WritesPair.whole (writes : WritesPair pair part) : part ≠ [] ∧ 0x26 ∉ part := by
  obtain ⟨key, value, keyWrites, valueWrites, rfl⟩ := writes
  refine ⟨by simp, ?_⟩
  rw [List.mem_append, List.mem_cons]
  rintro (inKey | sign | inValue)
  · exact keyWrites.not_mem (by decide) (.inl rfl) inKey
  · exact absurd sign (by decide)
  · exact valueWrites.not_mem (by decide) (.inl rfl) inValue

/-- Pairs are read back in their order. -/
theorem WritesPairs.pairs_eq {pairs : List (String × String)} {query : List UInt8}
    (writes : WritesPairs pairs query) : Form.pairs query = pairs := by
  obtain ⟨parts, each, rfl⟩ := writes
  have parts_read : parts.map decodePair = pairs ∧ ∀ part ∈ parts, part ≠ [] ∧ 0x26 ∉ part := by
    induction each with
    | nil => exact ⟨rfl, nofun⟩
    | cons first _ ih =>
      obtain ⟨decoded, whole⟩ := ih
      refine ⟨?_, List.forall_mem_cons.mpr ⟨first.whole, whole⟩⟩
      rw [List.map_cons, first.decodePair, decoded]
  obtain ⟨decoded, whole⟩ := parts_read
  rw [Form.pairs]
  cases parts with
  | nil => exact decoded
  | cons part later =>
    rw [splitAt_intercalate part later fun p member => (whole p member).2, List.filter_eq_self.mpr,
      decoded]
    exact fun p member => decide_eq_true (whole p member).1

end Form

end StatusRegistry
