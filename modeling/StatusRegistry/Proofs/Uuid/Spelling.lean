import Mathlib.Data.List.Forall2
import StatusRegistry.Http.Handler
import StatusRegistry.Proofs.Text.Form
import StatusRegistry.Proofs.Uuid

/-!
# Spellings of identifiers

An identifier has four forms: its digits, its digits in hyphenated groups, the groups in braces and
the groups behind the name of their kind. Letters may be in either case, and in the segment of a
path any octet may be given by an escape. The segments that are read as an identifier are exactly
those that spell it so, and an identifier is all that is read of them.
-/

namespace StatusRegistry

namespace Uuid

/-- A character stands for a digit; letters do so in either case. -/
def Stands (d : Fin 16) (c : Char) : Prop :=
  c ∈ if d.val < 10 then [Char.ofNat (0x30 + d.val)]
    else [Char.ofNat (0x37 + d.val), Char.ofNat (0x57 + d.val)]

/-- The digits of an identifier in five groups divided by hyphens. -/
inductive IsGrouped (u : Uuid) : List Char → Prop where
  | groups {a b c d e : List Char} (lengths : [a, b, c, d, e].map List.length = [8, 4, 4, 4, 12])
      (digits : List.Forall₂ Stands u.digits (a ++ b ++ c ++ d ++ e)) :
      IsGrouped u (a ++ '-' :: b ++ '-' :: c ++ '-' :: d ++ '-' :: e)

/-- The forms of an identifier. -/
inductive IsForm (u : Uuid) : List Char → Prop where
  | simple {cs : List Char} (digits : List.Forall₂ Stands u.digits cs) : IsForm u cs
  | hyphenated {cs : List Char} (grouped : IsGrouped u cs) : IsForm u cs
  | braced {cs : List Char} (grouped : IsGrouped u cs) : IsForm u ('\x7b' :: cs ++ ['\x7d'])
  | urn {kind cs : List Char} (named : kind.map Char.toLower = urnStart)
      (grouped : IsGrouped u cs) : IsForm u (kind ++ cs)

variable {u : Uuid} {cs : List Char}

/-- A character has the value of the digit that it stands for, and no other. -/
theorem digit?_eq_some_iff {c : Char} {d : Fin 16} : digit? c = some d ↔ Stands d c := by
  have given : ∀ {n : Nat}, n = c.toNat → c = Char.ofNat n := by
    rintro n rfl
    exact c.ofNat_toNat.symm
  constructor
  · intro value
    unfold Stands
    rw [digit?] at value
    split at value
    · obtain rfl := Option.some.inj value
      rw [if_pos (by dsimp only; omega)]
      exact List.mem_singleton.mpr (given (by dsimp only; omega))
    split at value
    · obtain rfl := Option.some.inj value
      rw [if_neg (by dsimp only; omega)]
      exact List.mem_cons.mpr (.inl (given (by dsimp only; omega)))
    split at value
    · obtain rfl := Option.some.inj value
      rw [if_neg (by dsimp only; omega)]
      exact List.mem_cons_of_mem _ (List.mem_singleton.mpr (given (by dsimp only; omega)))
    · cases value
  · have all : ∀ d : Fin 16, ((if d.val < 10 then [Char.ofNat (0x30 + d.val)]
        else [Char.ofNat (0x37 + d.val), Char.ofNat (0x57 + d.val)]).all
          fun c => digit? c = some d) = true := by decide
    intro stands
    exact of_decide_eq_true (List.all_eq_true.mp (all d) c stands)

/-- Characters are read as the digits that they stand for. -/
theorem mapM_digit?_eq_some_iff {digits : List (Fin 16)} :
    cs.mapM digit? = some digits ↔ List.Forall₂ Stands digits cs := by
  induction cs generalizing digits with
  | nil => cases digits <;> simp
  | cons c cs ih =>
    simp only [List.mapM_cons, Option.bind_eq_bind, Option.bind_eq_some_iff, digit?_eq_some_iff, ih]
    constructor
    · rintro ⟨d, stands, later, others, ⟨⟩⟩
      exact .cons stands others
    · rintro (_ | ⟨stands, others⟩)
      exact ⟨_, stands, _, others, rfl⟩

/-- The digits alone are read as the identifier that has them. -/
theorem ofSimple?_eq_some_iff : ofSimple? cs = some u ↔ List.Forall₂ Stands u.digits cs := by
  simp only [ofSimple?, Option.bind_eq_bind, Option.bind_eq_some_iff, mapM_digit?_eq_some_iff,
    ofDigits?]
  constructor
  · rintro ⟨digits, stand, made⟩
    split at made
    · cases made
      exact stand
    · cases made
  · intro stand
    exact ⟨u.digits, stand, dif_pos u.length_digits⟩

/-- As many characters as digits stand for an identifier. -/
theorem length_of_digits (digits : List.Forall₂ Stands u.digits cs) : cs.length = 32 :=
  digits.length_eq.symm.trans u.length_digits

/-- The grouped form has thirty-six characters. -/
theorem IsGrouped.length_eq (grouped : u.IsGrouped cs) : cs.length = 36 := by
  obtain ⟨lengths, -⟩ := grouped
  simp only [List.map_cons, List.cons.injEq, List.map_nil, and_true] at lengths
  simp only [List.length_append, List.length_cons]
  omega

/-- What is read as groups is the grouped form, and nothing else is. -/
theorem ofHyphenated?_eq_some_iff : ofHyphenated? cs = some u ↔ u.IsGrouped cs := by
  constructor
  · intro read
    unfold ofHyphenated? at read
    split at read
    · rename_i shape
      obtain ⟨length, hyphens⟩ := shape
      have part : ∀ i ∈ hyphenPositions, cs.drop i = '-' :: cs.drop (i + 1) := by
        intro i member
        have hyphen := of_decide_eq_true (List.all_eq_true.mp hyphens i member)
        obtain ⟨within, found⟩ := List.getElem?_eq_some_iff.mp hyphen
        rw [List.drop_eq_getElem_cons within, found]
      have group : ∀ i n, (cs.drop i).take n ++ cs.drop (i + n) = cs.drop i := by
        intro i n
        rw [← List.drop_drop, List.take_append_drop]
      have whole : cs = cs.take 8 ++ '-' :: (cs.drop 9).take 4 ++ '-' :: (cs.drop 14).take 4 ++
          '-' :: (cs.drop 19).take 4 ++ '-' :: cs.drop 24 := by
        simp only [List.append_assoc, List.cons_append]
        rw [← part 23 (by decide), group 19 4, ← part 18 (by decide), group 14 4,
          ← part 13 (by decide), group 9 4, ← part 8 (by decide), List.take_append_drop]
      rw [whole]
      refine .groups ?_ ?_
      · simp [length]
      · exact ofSimple?_eq_some_iff.mp read
    · cases read
  · rintro ⟨lengths, digits⟩
    rename_i a b c d e
    simp only [List.map_cons, List.cons.injEq, List.map_nil, and_true] at lengths
    obtain ⟨first, second, third, fourth, fifth⟩ := lengths
    have read := ofHyphenated?_groups (length_of_digits digits)
    rw [ofSimple?_eq_some_iff.mpr digits] at read
    simpa [List.drop_append, List.take_append, List.drop_of_length_le, List.take_of_length_le,
      first, second, third, fourth, fifth] using read

/-- Thirty-eight characters that begin and end with a brace are thirty-six in braces. -/
theorem eq_braced (length : cs.length = 38) (opening : cs.head? = some '\x7b')
    (closing : cs.getLast? = some '\x7d') : cs = '\x7b' :: (cs.drop 1).take 36 ++ ['\x7d'] := by
  obtain ⟨cs, rfl⟩ := List.head?_eq_some_iff.mp opening
  rw [List.getLast?_cons] at closing
  obtain rfl | ⟨inner, last, rfl⟩ := List.eq_nil_or_concat cs
  · cases length
  rw [List.concat_eq_append] at *
  simp only [List.getLast?_append, List.getLast?_singleton, Option.some_or, Option.getD_some,
    Option.some.injEq] at closing
  have within : inner.length = 36 := by simpa using length
  rw [List.drop_one, List.tail_cons, ← within, List.take_left, closing]
  rfl

/-- What is read as an identifier is one of its forms. -/
theorem isForm_of_parse? (read : parse? cs = some u) : u.IsForm cs := by
  unfold parse? at read
  split at read
  · exact .simple (ofSimple?_eq_some_iff.mp read)
  · exact .hyphenated (ofHyphenated?_eq_some_iff.mp read)
  · rename_i length
    split at read
    · rename_i braces
      rw [eq_braced length braces.1 braces.2]
      exact .braced (ofHyphenated?_eq_some_iff.mp read)
    · cases read
  · split at read
    · rename_i named
      have form := IsForm.urn named (ofHyphenated?_eq_some_iff.mp read)
      rwa [List.take_append_drop] at form
    · cases read
  · cases read

/-- Every form of an identifier is read as it. -/
theorem IsForm.parse?_eq (form : u.IsForm cs) : parse? cs = some u := by
  cases form with
  | simple digits =>
    rw [parse?, length_of_digits digits]
    exact ofSimple?_eq_some_iff.mpr digits
  | hyphenated grouped =>
    rw [parse?, grouped.length_eq]
    exact ofHyphenated?_eq_some_iff.mpr grouped
  | @braced cs grouped =>
    have length : ('\x7b' :: cs ++ ['\x7d']).length = 38 := by simp [grouped.length_eq]
    have inner : (('\x7b' :: cs ++ ['\x7d']).drop 1).take 36 = cs := by
      rw [List.cons_append, List.drop_one, List.tail_cons, ← grouped.length_eq, List.take_left]
    have braces : ('\x7b' :: cs ++ ['\x7d']).head? = some '\x7b' ∧
        ('\x7b' :: cs ++ ['\x7d']).getLast? = some '\x7d' := ⟨rfl, List.getLast?_concat⟩
    rw [parse?, length]
    simp only [if_pos braces, inner]
    exact ofHyphenated?_eq_some_iff.mpr grouped
  | @urn kind cs named grouped =>
    have short : kind.length = 9 := by
      have same := congrArg List.length named
      rw [List.length_map] at same
      exact same
    have length : (kind ++ cs).length = 45 := by
      rw [List.length_append, grouped.length_eq, short]
    have front : ((kind ++ cs).take 9).map Char.toLower = urnStart := by
      rw [← short, List.take_left, named]
    have back : (kind ++ cs).drop 9 = cs := by rw [← short, List.drop_left]
    rw [parse?, length]
    simp only [if_pos front, back]
    exact ofHyphenated?_eq_some_iff.mpr grouped

/-- The texts that are read as an identifier are its forms. -/
theorem parse?_eq_some_iff : parse? cs = some u ↔ u.IsForm cs :=
  ⟨isForm_of_parse?, IsForm.parse?_eq⟩

/-- Whether a character is an ASCII letter or digit, or one of the signs that stand in forms. -/
def isFormChar (c : Char) : Bool := c.isAlphanum || c ∈ ['-', ':', '\x7b', '\x7d']

/-- A character of a form is a capital or small letter, a digit or a sign. -/
theorem isFormChar_eq (c : Char) : isFormChar c =
    (c.isUpper || c.isLower || c.isDigit || c ∈ ['-', ':', '\x7b', '\x7d']) := rfl

/-- A character that stands for a digit is a letter or a digit. -/
theorem Stands.isAlphanum {d : Fin 16} {c : Char} (stands : Stands d c) :
    c.isAlphanum = true := by
  have all : ∀ d : Fin 16, ((if d.val < 10 then [Char.ofNat (0x30 + d.val)]
      else [Char.ofNat (0x37 + d.val), Char.ofNat (0x57 + d.val)]).all Char.isAlphanum) = true := by
    decide
  exact List.all_eq_true.mp (all d) c stands

/-- The characters of digits are characters of forms. -/
theorem isFormChar_of_digits {digits : List (Fin 16)} (stand : List.Forall₂ Stands digits cs) :
    ∀ c ∈ cs, isFormChar c = true := by
  induction stand with
  | nil => exact fun _ member => absurd member List.not_mem_nil
  | cons stands _ ih =>
    exact List.forall_mem_cons.mpr ⟨Bool.or_eq_true_iff.mpr (.inl stands.isAlphanum), ih⟩

/-- The characters of groups are characters of forms. -/
theorem IsGrouped.isFormChar (grouped : u.IsGrouped cs) : ∀ c ∈ cs, isFormChar c = true := by
  obtain ⟨-, digits⟩ := grouped
  have all := isFormChar_of_digits digits
  simp only [List.forall_mem_append, List.forall_mem_cons] at all ⊢
  have hyphen : Uuid.isFormChar '-' = true := by decide
  exact ⟨⟨⟨⟨all.1.1.1.1, hyphen, all.1.1.1.2⟩, hyphen, all.1.1.2⟩, hyphen, all.1.2⟩, hyphen, all.2⟩

/-- The characters of the name of a kind of identifier are characters of forms. -/
theorem isFormChar_of_named {kind : List Char} (named : kind.map Char.toLower = urnStart) :
    ∀ c ∈ kind, isFormChar c = true := by
  intro c member
  have lower : c.toLower ∈ urnStart := named ▸ List.mem_map_of_mem member
  have all : (urnStart.all isFormChar) = true := by decide
  have plain := List.all_eq_true.mp all _ lower
  unfold Char.toLower at plain
  split at plain
  · rename_i upper
    have letter : c.isUpper = true := decide_eq_true upper
    simp [isFormChar_eq, letter]
  · exact plain

/-- The characters of a form. -/
theorem IsForm.isFormChar (form : u.IsForm cs) : ∀ c ∈ cs, isFormChar c = true := by
  cases form with
  | simple digits => exact isFormChar_of_digits digits
  | hyphenated grouped => exact grouped.isFormChar
  | braced grouped =>
    simp only [List.cons_append, List.forall_mem_cons, List.forall_mem_append]
    exact ⟨by decide, grouped.isFormChar, by decide, fun _ member => absurd member List.not_mem_nil⟩
  | urn named grouped =>
    exact List.forall_mem_append.mpr ⟨isFormChar_of_named named, grouped.isFormChar⟩

/-- A form has no fewer characters than digits. -/
theorem IsForm.length_le (form : u.IsForm cs) : 32 ≤ cs.length := by
  cases form with
  | simple digits => exact Nat.le_of_eq (length_of_digits digits).symm
  | hyphenated grouped => rw [grouped.length_eq]; decide
  | braced grouped =>
    simp only [List.cons_append, List.length_cons, List.length_append, grouped.length_eq]
    decide
  | urn _ grouped =>
    rw [List.length_append, grouped.length_eq]
    omega

end Uuid

namespace Percent

/-- The ways to write octets other than percent signs: any of them may be given by an escape. -/
inductive Writes : List UInt8 → List UInt8 → Prop where
  | nil : Writes [] []
  | plain {b : UInt8} {octets written : List UInt8} (sign : b ≠ 0x25)
      (rest : Writes octets written) : Writes (b :: octets) (b :: written)
  | escape {b high low : UInt8} {octets written : List UInt8}
      (first : high ∈ hexDigits (b.toNat / 16)) (second : low ∈ hexDigits (b.toNat % 16))
      (rest : Writes octets written) : Writes (b :: octets) (0x25 :: high :: low :: written)

variable {octets written : List UInt8}

/-- Decoding undoes every way to write octets. -/
theorem Writes.decodeOnto (writes : Writes octets written) (found : List UInt8) :
    decodeOnto found written = found.reverse ++ octets := by
  induction writes generalizing found with
  | nil => rw [Percent.decodeOnto, List.append_nil]
  | plain sign _ ih =>
    rw [Form.decodeOnto_cons sign, ih, List.reverse_cons, List.append_assoc]
    rfl
  | escape first second _ ih =>
    rw [Percent.decodeOnto, if_pos rfl, Form.octet?_of_mem first second]
    dsimp only
    rw [ih, List.reverse_cons, List.append_assoc]
    rfl

/-- The digits of an escape are those of the octet that it stands for. -/
theorem mem_of_octet? {b high low : UInt8} (read : octet? high low = some b) :
    high ∈ hexDigits (b.toNat / 16) ∧ low ∈ hexDigits (b.toNat % 16) := by
  simp only [octet?, Option.bind_eq_bind, Option.bind_eq_some_iff] at read
  obtain ⟨h, upper, l, lower, made⟩ := read
  obtain ⟨small, high⟩ := hexValue?_eq_some_iff.mp upper
  obtain ⟨little, low⟩ := hexValue?_eq_some_iff.mp lower
  obtain rfl := Option.some.inj made
  have number : (h * 16 + l).toUInt8.toNat = h * 16 + l := Utf8.toNat_octet (by omega)
  have first : (h * 16 + l) / 16 = h := by omega
  have second : (h * 16 + l) % 16 = l := by omega
  rw [number, first, second]
  exact ⟨high, low⟩

/-- What is decoded to octets other than percent signs is one of the ways to write them. -/
theorem writes_of_decodeOnto (found written : List UInt8) :
    ∃ octets, decodeOnto found written = found.reverse ++ octets ∧
      (0x25 ∉ octets → Writes octets written) := by
  have apart {a : UInt8} {octets : List UInt8} (absent : 0x25 ∉ a :: octets) :
      a ≠ 0x25 ∧ 0x25 ∉ octets :=
    ⟨fun same => absent (same ▸ List.mem_cons_self), fun later => absent (.tail a later)⟩
  have grown (a : UInt8) (found octets : List UInt8) :
      (a :: found).reverse ++ octets = found.reverse ++ a :: octets := by simp
  fun_induction decodeOnto found written with
  | case1 found => exact ⟨[], (List.append_nil _).symm, fun _ => .nil⟩
  | case2 found a => exact ⟨[a], List.reverse_cons, fun absent => .plain (apart absent).1 .nil⟩
  | case3 found a b =>
    refine ⟨[a, b], by simp, fun absent => ?_⟩
    obtain ⟨first, rest⟩ := apart absent
    exact .plain first (.plain (apart rest).1 .nil)
  | case4 found b c rest octet read ih =>
    obtain ⟨octets, decoded, writes⟩ := ih
    obtain ⟨high, low⟩ := mem_of_octet? read
    rw [grown] at decoded
    exact ⟨octet :: octets, decoded, fun absent => .escape high low (writes (apart absent).2)⟩
  | case5 found b c rest _ ih =>
    obtain ⟨octets, decoded, -⟩ := ih
    rw [grown] at decoded
    exact ⟨0x25 :: octets, decoded, fun absent => absurd List.mem_cons_self absent⟩
  | case6 found a b c rest _ ih =>
    obtain ⟨octets, decoded, writes⟩ := ih
    rw [grown] at decoded
    refine ⟨a :: octets, decoded, fun absent => ?_⟩
    exact .plain (apart absent).1 (writes (apart absent).2)

/-- A sequence that stands for no percent sign is written in one of the ways. -/
theorem decode_eq_iff (absent : 0x25 ∉ octets) : decode written = octets ↔ Writes octets written := by
  constructor
  · intro decoded
    obtain ⟨found, same, writes⟩ := writes_of_decodeOnto [] written
    obtain rfl : octets = found := decoded.symm.trans same
    exact writes absent
  · exact fun writes => writes.decodeOnto []

/-- No sequence is shorter than what it stands for. -/
theorem Writes.length_le (writes : Writes octets written) : octets.length ≤ written.length := by
  induction writes with
  | nil => exact Nat.le_refl _
  | plain _ _ ih => exact Nat.succ_le_succ ih
  | escape _ _ _ ih =>
    simp only [List.length_cons]
    omega

end Percent

namespace Http

/-- A segment of a path spells an identifier: it writes one of its forms. -/
def Spells (id : Uuid) (name : List UInt8) : Prop :=
  ∃ text, id.IsForm text ∧ Percent.Writes (Utf8.encode text) name

/-- Whether an octet may stand in a spelling. -/
def isSpellingOctet (b : UInt8) : Bool :=
  Target.isAlphanumeric b || b ∈ [0x25, 0x2D, 0x3A, 0x7B, 0x7D]

/-- A character of a form is one octet, and not the percent sign. -/
theorem octet_of_isFormChar {c : Char} (plain : Uuid.isFormChar c = true) :
    Utf8.encodeChar c = [c.toNat.toUInt8] ∧ isSpellingOctet c.toNat.toUInt8 = true ∧
      c.toNat.toUInt8 ≠ 0x25 := by
  have ascii : c.toNat < 0x80 := by
    have below : ∀ last : Char, last.toNat < 0x80 → c.val ≤ last.val → c.toNat < 0x80 :=
      fun _ ascii le => Nat.lt_of_le_of_lt (UInt32.le_iff_toNat_le.mp le) ascii
    rw [Uuid.isFormChar_eq, Bool.or_eq_true, Bool.or_eq_true, Bool.or_eq_true,
      decide_eq_true_eq] at plain
    rcases plain with ((upper | lower) | digit) | sign
    · exact below 'Z' (by decide) (of_decide_eq_true upper).2
    · exact below 'z' (by decide) (of_decide_eq_true (Bool.and_eq_true_iff.mp lower).2)
    · exact below '9' (by decide) (of_decide_eq_true (Bool.and_eq_true_iff.mp digit).2)
    · simp only [List.mem_cons, List.not_mem_nil, or_false] at sign
      rcases sign with rfl | rfl | rfl | rfl <;> decide
  have all : ∀ n < 0x80, Uuid.isFormChar (Char.ofNat n) = true →
      isSpellingOctet n.toUInt8 = true ∧ n.toUInt8 ≠ 0x25 := by decide
  refine ⟨?_, all c.toNat ascii ?_⟩
  · exact if_pos ascii
  · rw [Char.ofNat_toNat]
    exact plain

variable {id : Uuid} {name : List UInt8} {text : List Char}

/-- The octets of a form. -/
theorem octets_of_isForm (plain : ∀ c ∈ text, Uuid.isFormChar c = true) :
    (Utf8.encode text).length = text.length ∧
      ∀ b ∈ Utf8.encode text, isSpellingOctet b = true ∧ b ≠ 0x25 := by
  induction text with
  | nil => exact ⟨rfl, fun _ member => absurd member List.not_mem_nil⟩
  | cons c text ih =>
    obtain ⟨first, later⟩ := List.forall_mem_cons.mp plain
    obtain ⟨single, octet⟩ := octet_of_isFormChar first
    obtain ⟨length, octets⟩ := ih later
    rw [Utf8.encode_cons, single, List.singleton_append]
    exact ⟨congrArg Nat.succ length, List.forall_mem_cons.mpr ⟨octet, octets⟩⟩

/-- The segments that are read as an identifier are its spellings. -/
theorem readId_eq_ok_iff : readId name = .ok id ↔ Spells id name := by
  have whole : ∀ {text}, id.IsForm text → 0x25 ∉ Utf8.encode text := fun form member =>
    ((octets_of_isForm form.isFormChar).2 _ member).2 rfl
  constructor
  · intro read
    unfold readId at read
    split at read
    · cases read
    · rename_i text decoded
      split at read
      · rename_i parsed
        cases read
        have form := Uuid.parse?_eq_some_iff.mp parsed
        refine ⟨text, form, ?_⟩
        exact (Percent.decode_eq_iff (whole form)).mp (Utf8.decode?_eq_some_iff.mp decoded)
      · cases read
  · rintro ⟨text, form, writes⟩
    have decoded := (Percent.decode_eq_iff (whole form)).mpr writes
    rw [readId, decoded, Utf8.decode?_encode]
    simp only [Uuid.parse?_eq_some_iff.mpr form]

/-- An escape is written with octets of spellings. -/
theorem isSpellingOctet_of_hexDigits {n : Nat} {digit : UInt8} (small : n < 16)
    (member : digit ∈ Percent.hexDigits n) : isSpellingOctet digit = true := by
  have all : ∀ n < 16, ((Percent.hexDigits n).all isSpellingOctet) = true := by decide
  exact List.all_eq_true.mp (all n small) digit member

/-- The octets of a spelling. -/
theorem Spells.isSpellingOctet (spells : Spells id name) :
    ∀ b ∈ name, Http.isSpellingOctet b = true := by
  obtain ⟨text, form, writes⟩ := spells
  have octets := (octets_of_isForm form.isFormChar).2
  generalize Utf8.encode text = formed at octets writes
  induction writes with
  | nil => exact fun _ member => absurd member List.not_mem_nil
  | plain _ _ ih =>
    obtain ⟨first, later⟩ := List.forall_mem_cons.mp octets
    exact List.forall_mem_cons.mpr ⟨first.1, ih later⟩
  | @escape b _ _ _ _ high low _ ih =>
    have bound := b.toNat_lt
    have upper := isSpellingOctet_of_hexDigits (by omega) high
    have lower := isSpellingOctet_of_hexDigits (by omega) low
    simp only [List.forall_mem_cons]
    exact ⟨by decide, upper, lower, ih (List.forall_mem_cons.mp octets).2⟩

/-- A spelling is no shorter than the digits of an identifier. -/
theorem Spells.length_le (spells : Spells id name) : 32 ≤ name.length := by
  obtain ⟨text, form, writes⟩ := spells
  have length := (octets_of_isForm form.isFormChar).1
  have longer := writes.length_le
  have least := form.length_le
  omega

end Http

end StatusRegistry
