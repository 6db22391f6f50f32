import Mathlib.Tactic.SplitIfs
import StatusRegistry.Text.Utf8

/-!
# Reading back encoded text

Encoding a text and scanning the octets gives its characters in order and no ill-formed part, so
strict decoding inverts encoding. The scanner is followed through the octets of one character at a
time: the bounds in a pending state are exactly the ones that a valid character meets. Nothing but
the encoding of a text is decoded strictly.
-/

namespace StatusRegistry.Utf8

/-- The number of an octet that was made from a number below 256. -/
theorem toNat_octet {n : Nat} (small : n < 0x100) : n.toUInt8.toNat = n := by
  simp only [Nat.toUInt8_eq, UInt8.toNat_ofNat']
  omega

/-- The numbers of characters leave out the surrogates and end at the last code point. -/
theorem toNat_valid (c : Char) : c.toNat < 0xD800 ∨ 0xDFFF < c.toNat ∧ c.toNat < 0x110000 :=
  c.valid

/-- An octet below 128 is a character of its own. -/
theorem first_ascii {n : Nat} (ascii : n < 0x80) :
    first n.toUInt8 = .complete (Char.ofNat n) := by
  simp only [first, toNat_octet (show n < 0x100 by omega), if_pos ascii]

/-- A continuation octet within the bounds of a pending state contributes its low six bits. -/
theorem next_continuation (p : Pending) {n : Nat} (low : p.low.toNat ≤ 0x80 + n)
    (high : 0x80 + n ≤ p.high.toNat) :
    p.next (0x80 + n).toUInt8 =
      if p.owed ≤ 1 then .complete (Char.ofNat (p.value * 0x40 + n))
      else .more ⟨p.owed - 1, 0x80, 0xBF, p.value * 0x40 + n⟩ := by
  have bound : p.high.toNat < 0x100 := p.high.toNat_lt
  have number : (0x80 + n).toUInt8.toNat = 0x80 + n := toNat_octet (by omega)
  have within : p.low ≤ (0x80 + n).toUInt8 ∧ (0x80 + n).toUInt8 ≤ p.high := by
    simp only [UInt8.le_iff_toNat_le, number]
    exact ⟨low, high⟩
  simp only [Pending.next, if_pos within, number, Nat.add_sub_cancel_left]

/-- The first octet of a character of two octets. -/
theorem first_two {n : Nat} (low : 0xC2 ≤ n) (high : n < 0xE0) :
    first n.toUInt8 = .more ⟨1, 0x80, 0xBF, n - 0xC0⟩ := by
  simp only [first, toNat_octet (show n < 0x100 by omega)]
  rw [if_neg (by omega), if_neg (by omega), if_pos high]

/-- The first octet of a character of three octets. The bounds on the second octet keep out what
fits in two octets, and the surrogates. -/
theorem first_three {n : Nat} (low : 0xE0 ≤ n) (high : n < 0xF0) :
    first n.toUInt8 = .more
      ⟨2, if n = 0xE0 then 0xA0 else 0x80, if n = 0xED then 0x9F else 0xBF, n - 0xE0⟩ := by
  simp only [first, toNat_octet (show n < 0x100 by omega)]
  rw [if_neg (by omega), if_neg (by omega), if_neg (by omega)]
  by_cases least : n = 0xE0
  · simp [least]
  · by_cases surrogates : n = 0xED
    · simp [surrogates]
    · simp [least, surrogates, high]

/-- The first octet of a character of four octets. The bounds on the second octet keep out what
fits in three octets, and what lies above the last code point. -/
theorem first_four {n : Nat} (low : 0xF0 ≤ n) (high : n ≤ 0xF4) :
    first n.toUInt8 = .more
      ⟨3, if n = 0xF0 then 0x90 else 0x80, if n = 0xF4 then 0x8F else 0xBF, n - 0xF0⟩ := by
  simp only [first, toNat_octet (show n < 0x100 by omega)]
  rw [if_neg (by omega), if_neg (by omega), if_neg (by omega), if_neg (by omega),
    if_neg (by omega), if_neg (by omega)]
  by_cases least : n = 0xF0
  · simp [least]
  · by_cases greatest : n = 0xF4
    · simp [greatest]
    · rw [if_neg least, if_pos (by omega), if_neg least, if_neg greatest]

/-- The octets of one character are read as that character. -/
theorem scanFrom_encodeChar (c : Char) (rest : List UInt8) (found : List (Option Char)) :
    scanFrom none (encodeChar c ++ rest) found = scanFrom none rest (some c :: found) := by
  have valid := toNat_valid c
  have whole : Char.ofNat c.toNat = c := Char.ofNat_toNat c
  unfold encodeChar
  generalize c.toNat = v at valid whole
  -- One case for each number of octets.
  by_cases one : v < 0x80
  · simp only [if_pos one, List.cons_append, List.nil_append, scanFrom, first_ascii one, whole]
  by_cases two : v < 0x800
  · have second := next_continuation ⟨1, 0x80, 0xBF, v / 0x40⟩ (n := v % 0x40)
      (by simp) (by simp; omega)
    have value : v / 0x40 * 0x40 + v % 0x40 = v := by omega
    simp only [if_neg one, if_pos two, List.cons_append, List.nil_append, scanFrom,
      first_two (n := 0xC0 + v / 0x40) (by omega) (by omega), Nat.add_sub_cancel_left, second,
      Nat.le_refl, if_true, value, whole]
  by_cases three : v < 0x10000
  · have lead := first_three (n := 0xE0 + v / 0x1000) (by omega) (by omega)
    have second := next_continuation ⟨2,
      if 0xE0 + v / 0x1000 = 0xE0 then 0xA0 else 0x80,
      if 0xE0 + v / 0x1000 = 0xED then 0x9F else 0xBF, v / 0x1000⟩ (n := v / 0x40 % 0x40)
      (by dsimp only; split <;> simp; omega) (by dsimp only; split <;> simp <;> omega)
    have third := next_continuation ⟨1, 0x80, 0xBF, v / 0x1000 * 0x40 + v / 0x40 % 0x40⟩
      (n := v % 0x40) (by simp) (by simp; omega)
    have value : (v / 0x1000 * 0x40 + v / 0x40 % 0x40) * 0x40 + v % 0x40 = v := by omega
    simp only [if_neg one, if_neg two, if_pos three, List.cons_append, List.nil_append, scanFrom,
      lead, Nat.add_sub_cancel_left, second, third, Nat.reduceLeDiff, Nat.reduceSub, if_true,
      if_false, Nat.le_refl, value, whole]
  · have lead := first_four (n := 0xF0 + v / 0x40000) (by omega) (by omega)
    have second := next_continuation ⟨3,
      if 0xF0 + v / 0x40000 = 0xF0 then 0x90 else 0x80,
      if 0xF0 + v / 0x40000 = 0xF4 then 0x8F else 0xBF, v / 0x40000⟩ (n := v / 0x1000 % 0x40)
      (by dsimp only; split <;> simp; omega) (by dsimp only; split <;> simp <;> omega)
    have third := next_continuation ⟨2, 0x80, 0xBF, v / 0x40000 * 0x40 + v / 0x1000 % 0x40⟩
      (n := v / 0x40 % 0x40) (by simp) (by simp; omega)
    have fourth := next_continuation
      ⟨1, 0x80, 0xBF, (v / 0x40000 * 0x40 + v / 0x1000 % 0x40) * 0x40 + v / 0x40 % 0x40⟩
      (n := v % 0x40) (by simp) (by simp; omega)
    have value : ((v / 0x40000 * 0x40 + v / 0x1000 % 0x40) * 0x40 + v / 0x40 % 0x40) * 0x40 +
        v % 0x40 = v := by omega
    simp only [if_neg one, if_neg two, if_neg three, List.cons_append, List.nil_append, scanFrom,
      lead, Nat.add_sub_cancel_left, second, third, fourth, Nat.reduceLeDiff, Nat.reduceSub,
      if_true, if_false, Nat.le_refl, value, whole]

/-- The octets of a text are read as its characters, in order. -/
theorem scanFrom_encode (cs : List Char) (found : List (Option Char)) :
    scanFrom none (encode cs) found = found.reverse ++ cs.map some := by
  induction cs generalizing found with
  | nil => simp [encode, scanFrom]
  | cons c later ih =>
    have split : encode (c :: later) = encodeChar c ++ encode later := by simp [encode]
    rw [split, scanFrom_encodeChar, ih]
    simp

/-- Scanning an encoded text finds its characters and nothing ill-formed. -/
theorem scan_encode (cs : List Char) : scan (encode cs) = cs.map some := by
  simp [scan, scanFrom_encode]

/-- Strict decoding inverts encoding. -/
theorem decode?_encode (cs : List Char) : decode? (encode cs) = some cs := by
  rw [decode?, scan_encode]
  induction cs with
  | nil => rfl
  | cons c later ih => simp [List.mapM_cons, ih]

/-- A string is read back from its octets. -/
theorem string?_octets (s : String) : string? (octets s) = some s := by
  simp [string?, octets, decode?_encode]

@[simp]
theorem encode_nil : encode [] = [] := rfl

@[simp]
theorem encode_cons (c : Char) (cs : List Char) : encode (c :: cs) = encodeChar c ++ encode cs := by
  simp [encode]

@[simp]
theorem encode_append (cs ds : List Char) : encode (cs ++ ds) = encode cs ++ encode ds := by
  simp [encode]

/-- Only an ASCII character has an octet below 128, and then no other. -/
theorem encodeChar_octets (c : Char) :
    c.toNat < 0x80 ∧ encodeChar c = [c.toNat.toUInt8] ∨
      0x80 ≤ c.toNat ∧ ∀ b ∈ encodeChar c, 0x80 ≤ b.toNat := by
  have valid := toNat_valid c
  unfold encodeChar
  generalize c.toNat = v at valid
  by_cases one : v < 0x80
  · exact .inl ⟨one, if_pos one⟩
  · refine .inr ⟨by omega, ?_⟩
    simp only [if_neg one]
    split_ifs <;> intro b member <;> simp only [List.mem_cons, List.not_mem_nil, or_false] at member
    · rcases member with rfl | rfl <;> rw [toNat_octet (by omega)] <;> omega
    · rcases member with rfl | rfl | rfl <;> rw [toNat_octet (by omega)] <;> omega
    · rcases member with rfl | rfl | rfl | rfl <;> rw [toNat_octet (by omega)] <;> omega

/-- A pending character is completed by some octets. -/
inductive Completes : Pending → List UInt8 → Char → Prop
  | last {p b c} (next : p.next b = .complete c) : Completes p [b] c
  | more {p q : Pending} {b c tail} (next : p.next b = .more q) (later : Completes q tail c) :
    Completes p (b :: tail) c

/-- The characters found before do not matter for those that follow. -/
theorem scanFrom_found (state : Option Pending) (octets : List UInt8) (found : List (Option Char)) :
    scanFrom state octets found = found.reverse ++ scanFrom state octets [] := by
  induction octets generalizing state found with
  | nil => cases state <;> simp [scanFrom]
  | cons b rest ih =>
    cases state with
    | none =>
      rw [scanFrom, scanFrom]
      cases first b with
      | complete c => dsimp only; rw [ih, ih _ [some c]]; simp
      | more p => dsimp only; rw [ih]
      | illFormed => dsimp only; rw [ih, ih _ [none]]; simp
    | some p =>
      rw [scanFrom, scanFrom]
      cases p.next b with
      | complete c => dsimp only; rw [ih, ih _ [some c]]; simp
      | more q => dsimp only; rw [ih]
      | illFormed =>
        cases first b with
        | complete c => dsimp only; rw [ih, ih _ [some c, none]]; simp
        | more q => dsimp only; rw [ih, ih _ [none]]; simp
        | illFormed => dsimp only; rw [ih, ih _ [none, none]]; simp

/-- A character that was begun before octets without ill-formed parts is completed by the first of
them. -/
theorem completes_of_scanFrom {p : Pending} {octets : List UInt8} {cs : List Char}
    (scanned : scanFrom (some p) octets [] = cs.map some) :
    ∃ tail rest c later, octets = tail ++ rest ∧ cs = c :: later ∧ Completes p tail c ∧
      scanFrom none rest [] = later.map some := by
  induction octets generalizing p with
  | nil =>
    cases cs <;> cases scanned
  | cons b rest ih =>
    rw [scanFrom] at scanned
    split at scanned
    case h_1 c next =>
      rw [scanFrom_found, List.reverse_singleton, List.singleton_append] at scanned
      cases cs with
      | nil => cases scanned
      | cons d later =>
        obtain ⟨same, others⟩ := List.cons.inj scanned
        obtain rfl := Option.some.inj same
        exact ⟨[b], rest, c, later, rfl, rfl, .last next, others⟩
    case h_2 q next =>
      obtain ⟨tail, after, c, later, rfl, rfl, completes, scanned⟩ := ih scanned
      exact ⟨b :: tail, after, c, later, rfl, rfl, .more next completes, scanned⟩
    case h_3 =>
      -- An ill-formed part would be among the characters.
      have absent : none ∉ cs.map some := by simp
      refine absurd ?_ absent
      rw [← scanned]
      split <;> rw [scanFrom_found] <;> simp

/-- A number that is no surrogate and small enough is that of a character. -/
theorem toNat_ofNat {n : Nat} (valid : n < 0xD800 ∨ 0xDFFF < n ∧ n < 0x110000) :
    (Char.ofNat n).toNat = n := by
  rw [Char.ofNat, dif_pos valid]
  rfl

/-- An octet that continues a pending character has the bounds of the state, and the state after it
is one octet further. -/
theorem Completes.cases {p : Pending} {tail : List UInt8} {c : Char}
    (completes : Completes p tail c) :
    ∃ b later, tail = b :: later ∧ p.low.toNat ≤ b.toNat ∧ b.toNat ≤ p.high.toNat ∧
      if p.owed ≤ 1 then later = [] ∧ c = Char.ofNat (p.value * 0x40 + (b.toNat - 0x80))
      else Completes ⟨p.owed - 1, 0x80, 0xBF, p.value * 0x40 + (b.toNat - 0x80)⟩ later c := by
  have bounds : ∀ {b outcome}, p.next b = outcome → outcome ≠ .illFormed →
      (p.low.toNat ≤ b.toNat ∧ b.toNat ≤ p.high.toNat) ∧
      outcome = if p.owed ≤ 1 then .complete (Char.ofNat (p.value * 0x40 + (b.toNat - 0x80)))
        else .more ⟨p.owed - 1, 0x80, 0xBF, p.value * 0x40 + (b.toNat - 0x80)⟩ := by
    rintro b _ rfl formed
    rw [Pending.next] at formed ⊢
    split at formed
    case isTrue within =>
      exact ⟨within.imp UInt8.le_iff_toNat_le.mp UInt8.le_iff_toNat_le.mp, if_pos within⟩
    case isFalse => exact absurd rfl formed
  cases completes with
  | last next =>
    obtain ⟨within, outcome⟩ := bounds next nofun
    refine ⟨_, [], rfl, within.1, within.2, ?_⟩
    by_cases short : p.owed ≤ 1
    · rw [if_pos short] at outcome ⊢
      exact ⟨rfl, Outcome.complete.inj outcome⟩
    · rw [if_neg short] at outcome
      exact Outcome.noConfusion outcome
  | more next later =>
    obtain ⟨within, outcome⟩ := bounds next nofun
    refine ⟨_, _, rfl, within.1, within.2, ?_⟩
    by_cases short : p.owed ≤ 1
    · rw [if_pos short] at outcome
      exact Outcome.noConfusion outcome
    · rw [if_neg short] at outcome ⊢
      exact Outcome.more.inj outcome ▸ later

/-- An octet is given by its number. -/
theorem toUInt8_eq {n : Nat} {b : UInt8} (same : n = b.toNat) : n.toUInt8 = b := by
  rw [same, Nat.toUInt8_eq, UInt8.ofNat_toNat]

/-- An octet that is a character of its own is its encoding. -/
theorem encodeChar_of_whole {b : UInt8} {c : Char} (whole : first b = .complete c) :
    encodeChar c = [b] := by
  rw [first] at whole
  by_cases ascii : b.toNat < 0x80
  · rw [if_pos ascii] at whole
    rw [← Outcome.complete.inj whole, encodeChar, toNat_ofNat (.inl (by omega)), if_pos ascii,
      toUInt8_eq rfl]
  · rw [if_neg ascii] at whole
    split_ifs at whole

section

variable {low high : UInt8} {value : Nat} {tail : List UInt8} {c : Char}

/-- One octet completes a character that lacks one. -/
theorem Completes.one (completes : Completes ⟨1, low, high, value⟩ tail c) :
    ∃ b, tail = [b] ∧ low.toNat ≤ b.toNat ∧ b.toNat ≤ high.toNat ∧
      c = Char.ofNat (value * 0x40 + (b.toNat - 0x80)) := by
  obtain ⟨b, later, rfl, least, most, rfl, found⟩ := completes.cases
  exact ⟨b, rfl, least, most, found⟩

/-- Two octets complete a character that lacks two. -/
theorem Completes.two (completes : Completes ⟨2, low, high, value⟩ tail c) :
    ∃ b d, tail = [b, d] ∧ low.toNat ≤ b.toNat ∧ b.toNat ≤ high.toNat ∧
      0x80 ≤ d.toNat ∧ d.toNat ≤ 0xBF ∧
      c = Char.ofNat ((value * 0x40 + (b.toNat - 0x80)) * 0x40 + (d.toNat - 0x80)) := by
  obtain ⟨b, later, rfl, least, most, rest⟩ := completes.cases
  obtain ⟨d, rfl, lower, upper, found⟩ := Completes.one rest
  exact ⟨b, d, rfl, least, most, lower, upper, found⟩

/-- Three octets complete a character that lacks three. -/
theorem Completes.three (completes : Completes ⟨3, low, high, value⟩ tail c) :
    ∃ b d e, tail = [b, d, e] ∧ low.toNat ≤ b.toNat ∧ b.toNat ≤ high.toNat ∧
      0x80 ≤ d.toNat ∧ d.toNat ≤ 0xBF ∧ 0x80 ≤ e.toNat ∧ e.toNat ≤ 0xBF ∧
      c = Char.ofNat (((value * 0x40 + (b.toNat - 0x80)) * 0x40 + (d.toNat - 0x80)) * 0x40 +
        (e.toNat - 0x80)) := by
  obtain ⟨b, later, rfl, least, most, rest⟩ := completes.cases
  obtain ⟨d, e, rfl, lower, upper, final⟩ := Completes.two rest
  exact ⟨b, d, e, rfl, least, most, lower, upper, final⟩

/-- The octets of a character of two octets. -/
theorem encodeChar_two {a b : UInt8} (first : 0xC2 ≤ a.toNat ∧ a.toNat < 0xE0)
    (second : 0x80 ≤ b.toNat ∧ b.toNat ≤ 0xBF) :
    encodeChar (Char.ofNat ((a.toNat - 0xC0) * 0x40 + (b.toNat - 0x80))) = [a, b] := by
  rw [encodeChar, toNat_ofNat (.inl (by omega)), if_neg (by omega), if_pos (by omega),
    toUInt8_eq (b := a) (by omega), toUInt8_eq (b := b) (by omega)]

/-- The octets of a character of three octets. -/
theorem encodeChar_three {a b d : UInt8} {value : Nat} (first : a.toNat = 0xE0 + value)
    (small : value < 0x10) (second : 0x80 ≤ b.toNat ∧ b.toNat ≤ 0xBF)
    (third : 0x80 ≤ d.toNat ∧ d.toNat ≤ 0xBF)
    (longer : value = 0 → 0xA0 ≤ b.toNat) (single : value = 0xD → b.toNat ≤ 0x9F) :
    encodeChar (Char.ofNat ((value * 0x40 + (b.toNat - 0x80)) * 0x40 + (d.toNat - 0x80))) =
      [a, b, d] := by
  rw [encodeChar, toNat_ofNat (by omega), if_neg (by omega), if_neg (by omega),
    if_pos (by omega), toUInt8_eq (b := a) (by omega), toUInt8_eq (b := b) (by omega),
    toUInt8_eq (b := d) (by omega)]

/-- The octets of a character of four octets. -/
theorem encodeChar_four {a b d e : UInt8} {value : Nat} (first : a.toNat = 0xF0 + value)
    (small : value ≤ 4) (second : 0x80 ≤ b.toNat ∧ b.toNat ≤ 0xBF)
    (third : 0x80 ≤ d.toNat ∧ d.toNat ≤ 0xBF) (fourth : 0x80 ≤ e.toNat ∧ e.toNat ≤ 0xBF)
    (longer : value = 0 → 0x90 ≤ b.toNat) (within : value = 4 → b.toNat ≤ 0x8F) :
    encodeChar (Char.ofNat (((value * 0x40 + (b.toNat - 0x80)) * 0x40 + (d.toNat - 0x80)) * 0x40 +
      (e.toNat - 0x80))) = [a, b, d, e] := by
  rw [encodeChar, toNat_ofNat (by omega), if_neg (by omega), if_neg (by omega),
    if_neg (by omega), toUInt8_eq (b := a) (by omega), toUInt8_eq (b := b) (by omega),
    toUInt8_eq (b := d) (by omega), toUInt8_eq (b := e) (by omega)]

/-- What completes the character that an octet begins makes up its encoding with that octet. -/
theorem encodeChar_of_first {a : UInt8} {p : Pending} (begins : first a = .more p)
    (completes : Completes p tail c) : encodeChar c = a :: tail := by
  have whole : a.toNat.toUInt8 = a := toUInt8_eq rfl
  have bound := a.toNat_lt
  by_cases ascii : a.toNat < 0x80
  · rw [← whole, first_ascii ascii] at begins
    exact Outcome.noConfusion begins
  by_cases stray : a.toNat < 0xC2 ∨ 0xF4 < a.toNat
  · have illFormed : first a = .illFormed := by
      simp only [first]
      split_ifs <;> first | rfl | omega
    rw [illFormed] at begins
    exact Outcome.noConfusion begins
  by_cases two : a.toNat < 0xE0
  · rw [← whole, first_two (by omega) two] at begins
    obtain rfl := Outcome.more.inj begins
    obtain ⟨b, rfl, least, most, found⟩ := completes.one
    rw [found]
    exact encodeChar_two ⟨by omega, two⟩ ⟨least, most⟩
  by_cases three : a.toNat < 0xF0
  · rw [← whole, first_three (by omega) three] at begins
    obtain rfl := Outcome.more.inj begins
    obtain ⟨b, d, rfl, least, most, lower, upper, found⟩ := completes.two
    have longer : (if a.toNat = 0xE0 then 0xA0 else 0x80) ≤ b.toNat := by
      split at least <;> simpa [*] using least
    have single : b.toNat ≤ (if a.toNat = 0xED then 0x9F else 0xBF) := by
      split at most <;> simpa [*] using most
    rw [found]
    refine encodeChar_three (by omega) (by omega) ⟨?_, ?_⟩ ⟨lower, upper⟩ ?_ ?_ <;>
      split at longer <;> split at single <;> omega
  · rw [← whole, first_four (by omega) (by omega)] at begins
    obtain rfl := Outcome.more.inj begins
    obtain ⟨b, d, e, rfl, least, most, lower, upper, lowest, highest, found⟩ := completes.three
    have longer : (if a.toNat = 0xF0 then 0x90 else 0x80) ≤ b.toNat := by
      split at least <;> simpa [*] using least
    have within : b.toNat ≤ (if a.toNat = 0xF4 then 0x8F else 0xBF) := by
      split at most <;> simpa [*] using most
    rw [found]
    refine encodeChar_four (by omega) (by omega) ⟨?_, ?_⟩ ⟨lower, upper⟩ ⟨lowest, highest⟩ ?_ ?_ <;>
      split at longer <;> split at within <;> omega

end

/-- A sequence whose parts are characters is their encoding. -/
theorem eq_encode_of_scan {octets : List UInt8} {cs : List Char}
    (scanned : scan octets = cs.map some) : octets = encode cs := by
  rw [scan] at scanned
  induction length : octets.length using Nat.strongRecOn generalizing octets cs with
  | ind n ih =>
    cases octets with
    | nil => cases cs with
      | nil => rfl
      | cons c later => cases scanned
    | cons b rest =>
      rw [scanFrom] at scanned
      split at scanned
      case h_1 c whole =>
        rw [scanFrom_found, List.reverse_singleton, List.singleton_append] at scanned
        cases cs with
        | nil => cases scanned
        | cons d later =>
          obtain ⟨same, others⟩ := List.cons.inj scanned
          obtain rfl := Option.some.inj same
          have shorter : rest.length < n := by rw [← length]; exact Nat.lt_succ_self _
          rw [encode_cons, encodeChar_of_whole whole, ← ih _ shorter others rfl]
          rfl
      case h_2 p begins =>
        obtain ⟨tail, after, c, later, rfl, rfl, completes, scanned⟩ :=
          completes_of_scanFrom scanned
        have shorter : after.length < n := by
          rw [← length, List.length_cons, List.length_append]
          omega
        rw [encode_cons, encodeChar_of_first begins completes, ← ih _ shorter scanned rfl]
        rfl
      case h_3 =>
        have absent : none ∉ cs.map some := by simp
        refine absurd ?_ absent
        rw [← scanned, scanFrom_found]
        simp

/-- Strict decoding finds the characters of an encoding, and nothing else is decoded. -/
theorem decode?_eq_some_iff {octets : List UInt8} {cs : List Char} :
    decode? octets = some cs ↔ octets = encode cs := by
  constructor
  · intro decoded
    refine eq_encode_of_scan ?_
    rw [decode?] at decoded
    generalize scan octets = parts at decoded
    induction parts generalizing cs with
    | nil => cases decoded; rfl
    | cons part parts ih =>
      rw [List.mapM_cons] at decoded
      cases part with
      | none => cases decoded
      | some c =>
        cases rest : parts.mapM id with
        | none => rw [rest] at decoded; cases decoded
        | some later =>
          rw [rest] at decoded
          cases decoded
          rw [ih rest]
          rfl
  · rintro rfl
    exact decode?_encode cs

/-- Strict decoding finds the string of its octets, and nothing else is decoded. -/
theorem string?_eq_some_iff {octets : List UInt8} {s : String} :
    string? octets = some s ↔ octets = Utf8.octets s := by
  constructor
  · intro decoded
    rw [string?] at decoded
    obtain ⟨cs, found, rfl⟩ := Option.map_eq_some_iff.mp decoded
    rw [Utf8.octets, String.toList_ofList]
    exact decode?_eq_some_iff.mp found
  · rintro rfl
    exact string?_octets s

end StatusRegistry.Utf8
