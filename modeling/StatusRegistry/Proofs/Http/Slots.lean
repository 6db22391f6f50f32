import StatusRegistry.Http.Server
import StatusRegistry.Proofs.Uuid.Spelling

/-!
# Targets with an open segment

A spelling of an identifier has none of the octets that divide a target. So wherever in a path it
stands, the target around it is read the same way, whatever the identifier and however it is
spelled: it can be read or it cannot, it has the same query, and the spelling is one segment of its
path, between the same others.
-/

namespace StatusRegistry

section

variable {α : Type} [DecidableEq α] {separator : α}

/-- The parts found before do not matter for those that follow. -/
theorem splitOnto_parts (parts : List (List α)) (part sequence : List α) :
    splitOnto separator parts part sequence =
      parts.reverse ++ splitOnto separator [] part sequence := by
  induction sequence generalizing parts part with
  | nil => simp [splitOnto]
  | cons a sequence ih =>
    rw [splitOnto, splitOnto]
    split
    · rw [ih, ih [part.reverse], List.reverse_cons, List.append_assoc]
      rfl
    · rw [ih]

/-- A sequence is divided wherever the separator stands. -/
theorem splitAt_append (front back : List α) :
    splitAt separator (front ++ separator :: back) =
      splitAt separator front ++ splitAt separator back := by
  have general : ∀ part, splitOnto separator [] part (front ++ separator :: back) =
      splitOnto separator [] part front ++ splitAt separator back := by
    induction front with
    | nil =>
      intro part
      simp only [List.nil_append, splitOnto, if_true]
      rw [splitOnto_parts]
      rfl
    | cons a front ih =>
      intro part
      rw [List.cons_append, splitOnto, splitOnto]
      split
      · rw [splitOnto_parts, ih, splitOnto_parts [part.reverse], List.append_assoc]
      · exact ih _
  exact general []

/-- A part without the separator that stands between separators is one of the parts. -/
theorem splitAt_part {front back : List α} (before : front = [] ∨ ∃ f, front = f ++ [separator])
    (behind : back = [] ∨ ∃ b, back = separator :: b) :
    ∃ earlier later, ∀ part, separator ∉ part →
      splitAt separator (front ++ part ++ back) = earlier ++ part :: later := by
  have single : ∀ part, separator ∉ part → splitAt separator part = [part] := by
    intro part whole
    have parts := splitAt_intercalate part [] (List.forall_mem_singleton.mpr whole)
    rwa [List.intercalate_singleton] at parts
  have followed : ∃ later, ∀ part, separator ∉ part →
      splitAt separator (part ++ back) = part :: later := by
    obtain rfl | ⟨b, rfl⟩ := behind
    · refine ⟨[], fun part whole => ?_⟩
      rw [List.append_nil, single part whole]
    · refine ⟨splitAt separator b, fun part whole => ?_⟩
      rw [splitAt_append, single part whole]
      rfl
  obtain ⟨later, followed⟩ := followed
  obtain rfl | ⟨f, rfl⟩ := before
  · exact ⟨[], later, fun part whole => followed part whole⟩
  · refine ⟨splitAt separator f, later, fun part whole => ?_⟩
    rw [List.append_assoc, List.append_assoc, List.singleton_append, splitAt_append,
      followed part whole]

end

namespace Utf8

/-- Text may be cut at an ASCII character. -/
theorem encode_split {cs : List Char} {front back : List UInt8} {b : UInt8}
    (ascii : b.toNat < 0x80) (whole : encode cs = front ++ b :: back) :
    ∃ ds es, front = encode ds ∧ back = encode es := by
  induction cs generalizing front with
  | nil => exact absurd whole.symm (by simp)
  | cons c cs ih =>
    rw [encode_cons] at whole
    rcases List.append_eq_append_iff.mp whole with ⟨gap, rfl, rest⟩ | ⟨gap, first, rest⟩
    · obtain ⟨ds, es, rfl, rfl⟩ := ih rest
      exact ⟨c :: ds, es, (encode_cons c ds).symm, rfl⟩
    · cases gap with
      | nil =>
        have tail : encode cs = [] ++ b :: back := rest.symm
        obtain ⟨ds, es, -, rfl⟩ := ih tail
        refine ⟨[c], es, ?_, rfl⟩
        rw [encode_cons, encode_nil, List.append_nil, first, List.append_nil]
      | cons a gap =>
        obtain ⟨rfl, rfl⟩ := List.cons.inj rest
        obtain ⟨-, single⟩ | ⟨-, wide⟩ := encodeChar_octets c
        · rw [single] at first
          obtain ⟨rfl, last⟩ | ⟨f, -, last⟩ := List.append_eq_cons_iff.mp first.symm
          · obtain ⟨-, rfl⟩ := List.cons.inj last
            exact ⟨[], cs, rfl, rfl⟩
          · exact absurd last.symm (by simp)
        · have member : b ∈ encodeChar c := first ▸ List.mem_append_right _ List.mem_cons_self
          exact absurd (wide b member) (Nat.not_le_of_lt ascii)

end Utf8

namespace Http

namespace Target

/-- Octets are text if they encode one. -/
theorem isText_iff {octets : List UInt8} :
    isText octets = true ↔ ∃ cs, octets = Utf8.encode cs := by
  have single : ∀ b : UInt8, b < 0x80 → Utf8.encodeChar (Char.ofNat b.toNat) = [b] := by
    intro b ascii
    exact Utf8.encodeChar_of_whole (if_pos ascii)
  rw [isText, Bool.or_eq_true]
  constructor
  · rintro (ascii | decoded)
    · induction octets with
      | nil => exact ⟨[], rfl⟩
      | cons b octets ih =>
        rw [List.all_cons, Bool.and_eq_true, decide_eq_true_eq] at ascii
        obtain ⟨cs, rfl⟩ := ih ascii.2
        exact ⟨Char.ofNat b.toNat :: cs, by rw [Utf8.encode_cons, single b ascii.1]; rfl⟩
    · obtain ⟨cs, found⟩ := Option.isSome_iff_exists.mp decoded
      exact ⟨cs, Utf8.decode?_eq_some_iff.mp found⟩
  · rintro ⟨cs, rfl⟩
    rw [Utf8.decode?_encode]
    exact .inr rfl

/-- Around an ASCII octet there is text exactly if there is text on both its sides. -/
theorem isText_around {front back : List UInt8} {b : UInt8} (ascii : b < 0x80) :
    isText (front ++ b :: back) = (isText front && isText back) := by
  rw [Bool.eq_iff_iff, Bool.and_eq_true, isText_iff, isText_iff, isText_iff]
  constructor
  · rintro ⟨cs, whole⟩
    obtain ⟨ds, es, front, back⟩ := Utf8.encode_split ascii whole.symm
    exact ⟨⟨ds, front⟩, es, back⟩
  · rintro ⟨⟨ds, rfl⟩, es, rfl⟩
    have single : Utf8.encodeChar (Char.ofNat b.toNat) = [b] :=
      Utf8.encodeChar_of_whole (if_pos ascii)
    refine ⟨ds ++ Char.ofNat b.toNat :: es, ?_⟩
    rw [Utf8.encode_append, Utf8.encode_cons, single]
    rfl

/-- Around ASCII octets there is text exactly if there is text on both their sides. -/
theorem isText_around_all (front back : List UInt8) {name : List UInt8} (nonempty : name ≠ [])
    (ascii : ∀ b ∈ name, b < 0x80) :
    isText (front ++ name ++ back) = (isText front && isText back) := by
  have skipped : ∀ name : List UInt8, (∀ b ∈ name, b < 0x80) →
      isText (name ++ back) = isText back := by
    intro name ascii
    induction name with
    | nil => rfl
    | cons b name ih =>
      obtain ⟨first, later⟩ := List.forall_mem_cons.mp ascii
      have around : isText ([] ++ b :: (name ++ back)) = (isText [] && isText (name ++ back)) :=
        isText_around first
      rw [List.nil_append] at around
      rw [List.cons_append, around, ih later]
      rfl
  obtain ⟨b, later, rfl⟩ := List.exists_cons_of_ne_nil nonempty
  obtain ⟨first, rest⟩ := List.forall_mem_cons.mp ascii
  rw [List.append_assoc, List.cons_append, isText_around first, skipped later rest]

end Target

open Target (slash)

/-- Whether an octet belongs to a path that it stands in. -/
def isInPath (b : UInt8) : Bool := b ≠ 0x3F && b ≠ 0x23

/-- What may stand before a path: nothing, or a scheme and an authority. -/
inductive IsOrigin : List UInt8 → Prop where
  | none : IsOrigin []
  | address {scheme authority : List UInt8} (named : scheme.all Target.isSchemeOctet = true)
      (closed : ∀ b ∈ authority, b ≠ slash ∧ isInPath b = true) :
      IsOrigin (scheme ++ 0x3A :: slash :: slash :: authority)

/-- A target with one segment of its path left open. -/
structure Slot where
  origin : List UInt8
  front : List UInt8
  back : List UInt8
  isOrigin : IsOrigin origin
  /-- The path begins with a slash, and there is one before the open segment. -/
  starts : front.head? = some slash
  ends : front.getLast? = some slash
  inPath : ∀ b ∈ front, isInPath b = true
  /-- The open segment ends where the next one begins, or with the path. -/
  closes : ∀ b, back.head? = some b → b = slash ∨ isInPath b = false

/-- The target with a segment filled in. -/
def Slot.fill (slot : Slot) (name : List UInt8) : List UInt8 :=
  slot.origin ++ slot.front ++ name ++ slot.back

/-- What is read of a target: its query and the parts of its path, brought into form. -/
def Target.parts (t : Target) : List UInt8 × Option (List (List UInt8)) :=
  (t.normalized.query, t.normalized.segments?)

/-- What an octet of a spelling is not, and where it may stand. -/
theorem isSpellingOctet_spec {b : UInt8} (octet : isSpellingOctet b = true) :
    b ≠ slash ∧ isInPath b = true ∧ Target.isPathOctet b = true ∧ b < 0x80 := by
  have all : ∀ n < 256, isSpellingOctet n.toUInt8 = true →
      n.toUInt8 ≠ slash ∧ isInPath n.toUInt8 = true ∧ Target.isPathOctet n.toUInt8 = true ∧
        n.toUInt8 < 0x80 := by decide +kernel
  have same : b.toNat.toUInt8 = b := Utf8.toUInt8_eq rfl
  have spec := all b.toNat b.toNat_lt
  rw [same] at spec
  exact spec octet

variable {id : Uuid} {name : List UInt8}

/-- A spelling is not empty. -/
theorem Spells.ne_nil (spells : Spells id name) : name ≠ [] := by
  rintro rfl
  exact absurd spells.length_le (by decide)

namespace Slot

variable (slot : Slot)

/-- The rest of the path behind the open segment. -/
def behind : List UInt8 := slot.back.takeWhile isInPath

/-- The query, whether or not it can be read. -/
def rawQuery : List UInt8 :=
  match slot.back.drop slot.behind.length with
  | 0x3F :: after => after.takeWhile (· ≠ 0x23)
  | _ => []

/-- The query of the target, if its path and its query can be read. -/
def query? : Option (List UInt8) :=
  if slot.front.all Target.isPathOctet && slot.behind.all Target.isPathOctet &&
      slot.rawQuery.all Target.isQueryOctet && Target.isText slot.front &&
      Target.isText slot.behind && Target.isText slot.rawQuery then
    some slot.rawQuery
  else none

/-- Whether a path can be read does not depend on the identifier in it. -/
theorem pathAndQuery?_fill (spells : Spells id name) :
    Target.pathAndQuery? (slot.front ++ name ++ slot.back) =
      slot.query?.map fun query => ⟨slot.front ++ name ++ slot.behind, query⟩ := by
  have octets := fun b member => isSpellingOctet_spec (spells.isSpellingOctet b member)
  have inside : ∀ b ∈ slot.front ++ name, isInPath b = true :=
    List.forall_mem_append.mpr ⟨slot.inPath, fun b member => (octets b member).2.1⟩
  have path : (slot.front ++ name ++ slot.back).takeWhile isInPath =
      slot.front ++ name ++ slot.behind := List.takeWhile_append_of_pos inside
  have rest : (slot.front ++ name ++ slot.back).drop (slot.front ++ name ++ slot.behind).length =
      slot.back.drop slot.behind.length := by
    rw [List.length_append, List.drop_append]
    simp
  have allowed : name.all Target.isPathOctet = true :=
    List.all_eq_true.mpr fun b member => (octets b member).2.2.1
  have text := Target.isText_around_all slot.front slot.behind spells.ne_nil
    fun b member => (octets b member).2.2.2
  show (if _ then _ else _) = _
  rw [show (fun b : UInt8 => decide (b ≠ 0x3F) && decide (b ≠ 0x23)) = isInPath from rfl, path, rest]
  change (if _ && slot.rawQuery.all _ && _ && Target.isText slot.rawQuery then
    some (Target.mk _ slot.rawQuery) else none) = _
  rw [text, List.all_append, List.all_append, allowed, Bool.and_true]
  unfold query?
  simp only [Bool.and_assoc]
  split <;> rfl

end Slot

/-- A target that begins with a slash is a path with a query. -/
theorem Target.parse?_path {path : List UInt8} (starts : path.head? = some slash)
    (short : path.length ≤ maxLength) : parse? path = pathAndQuery? path := by
  obtain ⟨rest, rfl⟩ := List.head?_eq_some_iff.mp starts
  rw [parse?, if_neg (Nat.not_lt_of_le short)]
  split
  · rfl
  · rename_i other
    exact absurd rfl other
  · intro star
    exact absurd star (by decide)

/-- Whether a scheme and an authority can be read. -/
def isAddress (scheme authority : List UInt8) : Bool :=
  scheme.length ≤ Target.maxSchemeLength && !authority.isEmpty && Target.isAuthority authority

/-- What follows a scheme. -/
theorem Target.afterScheme?_address {scheme : List UInt8}
    (named : scheme.all isSchemeOctet = true) (rest : List UInt8) :
    afterScheme? (scheme ++ 0x3A :: slash :: slash :: rest) =
      if scheme.length > maxSchemeLength then none else some (some rest) := by
  have name : (scheme ++ 0x3A :: slash :: slash :: rest).takeWhile isSchemeOctet = scheme := by
    rw [List.takeWhile_append_of_pos (List.all_eq_true.mp named),
      List.takeWhile_cons_of_neg (by decide), List.append_nil]
  unfold afterScheme?
  dsimp only
  rw [name, List.drop_left]
  rfl

/-- An address is read for the path behind its authority. -/
theorem Target.absolute?_append {authority path : List UInt8}
    (closed : ∀ b ∈ authority, b ≠ slash ∧ isInPath b = true) (starts : path.head? = some slash) :
    absolute? (authority ++ path) =
      if !authority.isEmpty && isAuthority authority then
        (pathAndQuery? path).map fun t => if t.path.isEmpty then { t with path := [slash] } else t
      else none := by
  have host : (authority ++ path).takeWhile (fun b => b ≠ slash && b ≠ 0x3F && b ≠ 0x23) =
      authority := by
    obtain ⟨rest, rfl⟩ := List.head?_eq_some_iff.mp starts
    rw [List.takeWhile_append_of_pos, List.takeWhile_cons_of_neg (by decide), List.append_nil]
    intro b member
    obtain ⟨apart, inside⟩ := closed b member
    rw [isInPath] at inside
    rw [decide_eq_true apart, Bool.true_and, inside]
  unfold absolute?
  rw [host]
  dsimp only
  rw [List.drop_left]
  cases authority.isEmpty <;> cases isAuthority authority <;> rfl

/-- A target that begins with a scheme and an authority is read for the path behind them. -/
theorem Target.parse?_address {scheme authority path : List UInt8}
    (named : scheme.all isSchemeOctet = true)
    (closed : ∀ b ∈ authority, b ≠ slash ∧ isInPath b = true) (starts : path.head? = some slash)
    (short : (scheme ++ 0x3A :: slash :: slash :: (authority ++ path)).length ≤ maxLength) :
    parse? (scheme ++ 0x3A :: slash :: slash :: (authority ++ path)) =
      if isAddress scheme authority then
        (pathAndQuery? path).map fun t => if t.path.isEmpty then { t with path := [slash] } else t
      else none := by
  have after := afterScheme?_address named (authority ++ path)
  have long : 3 ≤ (scheme ++ 0x3A :: slash :: slash :: (authority ++ path)).length := by
    simp only [List.length_append, List.length_cons]
    omega
  have first : ∀ b, (scheme ++ 0x3A :: slash :: slash :: (authority ++ path)).head? = some b →
      b ≠ slash := by
    intro b head
    cases scheme with
    | nil =>
      cases head
      decide
    | cons c scheme =>
      cases head
      rintro rfl
      rw [List.all_cons] at named
      cases named
  generalize scheme ++ 0x3A :: slash :: slash :: (authority ++ path) = octets at *
  unfold parse?
  rw [if_neg (Nat.not_lt_of_le short)]
  split
  · cases long
  · exact absurd long (by decide)
  · rename_i b _ _
    rw [if_neg (first b rfl), after]
    by_cases tooLong : scheme.length > maxSchemeLength
    · have unread : isAddress scheme authority = false := by
        simp [isAddress, Nat.not_le_of_lt tooLong]
      rw [if_pos tooLong, unread]
      rfl
    · have fits : isAddress scheme authority = (!authority.isEmpty && isAuthority authority) := by
        simp [isAddress, Nat.le_of_not_lt tooLong]
      rw [if_neg tooLong, fits]
      exact absolute?_append closed starts

namespace Slot

variable (slot : Slot)

/-- Whether a target can be read does not depend on the identifier in its path. -/
theorem parse?_fill : ∃ isRead : Bool, ∀ {id name}, Spells id name →
    (slot.fill name).length ≤ Target.maxLength →
    Target.parse? (slot.fill name) =
      if isRead then
        slot.query?.map fun query => ⟨slot.front ++ name ++ slot.behind, query⟩
      else none := by
  have opens : ∀ rest, (slot.front ++ rest).head? = some slash := fun rest => by
    rw [List.head?_append, slot.starts]
    rfl
  have same : ∀ name, slot.fill name = slot.origin ++ (slot.front ++ name ++ slot.back) := by
    intro name
    simp only [fill, List.append_assoc]
  generalize origins : slot.origin = origin at same
  obtain _ | @⟨scheme, authority, named, closed⟩ := origins ▸ slot.isOrigin
  · refine ⟨true, fun {id name} spells short => ?_⟩
    rw [same, List.nil_append] at short ⊢
    rw [Target.parse?_path (by rw [List.append_assoc]; exact opens _) short,
      slot.pathAndQuery?_fill spells]
    rfl
  · refine ⟨isAddress scheme authority, fun {id name} spells short => ?_⟩
    rw [same, List.append_assoc scheme, List.cons_append, List.cons_append, List.cons_append]
      at short ⊢
    rw [Target.parse?_address named closed (by rw [List.append_assoc]; exact opens _) short,
      slot.pathAndQuery?_fill spells, Option.map_map]
    have full : (slot.front ++ name ++ slot.behind).isEmpty = false := by
      simp [spells.ne_nil]
    congr 2
    funext query
    exact if_neg (Bool.eq_false_iff.mp full)

/-- Slashes in front of a spelling are dropped up to it. -/
theorem dropWhile_slash (front back : List UInt8) (nonempty : name ≠ []) (whole : slash ∉ name) :
    (front ++ name ++ back).dropWhile (· = slash) =
      front.dropWhile (· = slash) ++ name ++ back := by
  obtain ⟨b, later, rfl⟩ := List.exists_cons_of_ne_nil nonempty
  have stays : (b :: later ++ back).dropWhile (· = slash) = b :: later ++ back :=
    List.dropWhile_cons_of_neg (by simpa using (List.ne_of_not_mem_cons whole).symm)
  rw [List.append_assoc, List.dropWhile_append, stays]
  split
  · rename_i nothing
    rw [List.isEmpty_iff.mp nothing]
    rfl
  · rw [List.append_assoc]

/-- Slashes at the ends of a path are trimmed up to a spelling. -/
theorem trimSlashes_around (front back : List UInt8) (nonempty : name ≠ []) (whole : slash ∉ name) :
    Target.trimSlashes (front ++ name ++ back) =
      front.dropWhile (· = slash) ++ name ++ (back.reverse.dropWhile (· = slash)).reverse := by
  have turned : slash ∉ name.reverse := fun member => whole (List.mem_reverse.mp member)
  have ends := dropWhile_slash back.reverse (front.dropWhile (· = slash)).reverse
    (List.reverse_ne_nil_iff.mpr nonempty) turned
  rw [Target.trimSlashes, dropWhile_slash front back nonempty whole, List.reverse_append,
    List.reverse_append, ← List.append_assoc, ends]
  simp only [List.reverse_append, List.reverse_reverse, List.append_assoc]

/-- What is left of a sequence at whose end a slash stands still ends in one. -/
theorem dropWhile_ends (front : List UInt8) :
    ((front ++ [slash]).dropWhile (· = slash)) = [] ∨
      ∃ f, (front ++ [slash]).dropWhile (· = slash) = f ++ [slash] := by
  rw [List.dropWhile_append]
  split
  · exact .inl rfl
  · exact .inr ⟨_, rfl⟩

/-- The open segment is the last of the path, or the next one begins behind it. -/
theorem behind_cases : slot.behind = [] ∨ ∃ b, slot.behind = slash :: b := by
  rw [behind]
  cases back : slot.back with
  | nil => exact .inl rfl
  | cons b later =>
    obtain rfl | outside := slot.closes b (by rw [back]; rfl)
    · exact .inr ⟨_, List.takeWhile_cons_of_pos (by decide)⟩
    · exact .inl (List.takeWhile_cons_of_neg (by rw [outside]; decide))

/-- Whether the path has slashes to be trimmed. -/
def isTrimmed : Bool :=
  slot.behind.getLast? = some slash || slot.front.take 2 = [slash, slash]

/-- Whether a path has slashes to be trimmed does not depend on the identifier in it. -/
theorem isTrimmed_eq (nonempty : name ≠ []) (whole : slash ∉ name) :
    (decide ((slot.front ++ name ++ slot.behind).getLast? = some slash) ||
      decide ((slot.front ++ name ++ slot.behind).take 2 = [slash, slash])) = slot.isTrimmed := by
  have last : (slot.front ++ name ++ slot.behind).getLast? = some slash ↔
      slot.behind.getLast? = some slash := by
    cases slot.behind with
    | nil =>
      obtain ⟨later, b, rfl⟩ := List.eq_nil_or_concat name |>.resolve_left nonempty
      rw [List.concat_eq_append] at whole ⊢
      have other : b ≠ slash := fun same => whole (by simp [same])
      simp [other]
    | cons b later => rw [List.getLast?_append, List.getLast?_cons, Option.some_or]
  have first : (slot.front ++ name ++ slot.behind).take 2 = [slash, slash] ↔
      slot.front.take 2 = [slash, slash] := by
    obtain ⟨inner, front⟩ := List.head?_eq_some_iff.mp slot.starts
    obtain ⟨b, later, rfl⟩ := List.exists_cons_of_ne_nil nonempty
    have other : b ≠ slash := (List.ne_of_not_mem_cons whole).symm
    rw [front]
    cases inner with
    | nil => simp [other]
    | cons a inner => simp
  rw [isTrimmed, decide_eq_decide.mpr last, decide_eq_decide.mpr first]

/-- The path between its first slash and the open segment. -/
theorem front_cases : ∃ inner, slot.front = slash :: inner ∧
    (inner = [] ∨ ∃ f, inner = f ++ [slash]) := by
  obtain ⟨inner, front⟩ := List.head?_eq_some_iff.mp slot.starts
  obtain ⟨f, closed⟩ := List.getLast?_eq_some_iff.mp slot.ends
  refine ⟨inner, front, ?_⟩
  rw [front] at closed
  cases f with
  | nil =>
    obtain ⟨-, rfl⟩ := List.cons.inj closed
    exact .inl rfl
  | cons a f =>
    obtain ⟨-, rfl⟩ := List.cons.inj closed
    exact .inr ⟨f, rfl⟩

/-- A spelling is one segment of the path, between the same others. -/
theorem parts_fill : ∃ earlier later, ∀ {id name}, Spells id name → ∀ query,
    Target.parts ⟨slot.front ++ name ++ slot.behind, query⟩ =
      (query, some (earlier ++ name :: later)) := by
  have whole : ∀ {id name}, Spells id name → slash ∉ name := fun spells member =>
    (isSpellingOctet_spec (spells.isSpellingOctet _ member)).1 rfl
  cases trimmed : slot.isTrimmed with
  | true =>
    have front : slot.front.dropWhile (· = slash) = [] ∨
        ∃ f, slot.front.dropWhile (· = slash) = f ++ [slash] := by
      obtain ⟨f, closed⟩ := List.getLast?_eq_some_iff.mp slot.ends
      rw [closed]
      exact dropWhile_ends f
    have behind : (slot.behind.reverse.dropWhile (· = slash)).reverse = [] ∨
        ∃ b, (slot.behind.reverse.dropWhile (· = slash)).reverse = slash :: b := by
      obtain none | ⟨b, some⟩ := slot.behind_cases
      · rw [none]
        exact .inl rfl
      · rw [some, List.reverse_cons]
        obtain nothing | ⟨f, rest⟩ := dropWhile_ends b.reverse
        · rw [nothing]
          exact .inl rfl
        · rw [rest, List.reverse_append]
          exact .inr ⟨_, rfl⟩
    obtain ⟨earlier, later, apart⟩ := splitAt_part front behind
    refine ⟨earlier, later, fun {id name} spells query => ?_⟩
    have condition := slot.isTrimmed_eq spells.ne_nil (whole spells)
    rw [trimmed] at condition
    rw [Target.parts, Target.normalized, if_pos condition,
      trimSlashes_around _ _ spells.ne_nil (whole spells), ← apart name (whole spells)]
    rfl
  | false =>
    obtain ⟨inner, front, before⟩ := slot.front_cases
    obtain ⟨earlier, later, apart⟩ := splitAt_part before slot.behind_cases
    refine ⟨earlier, later, fun {id name} spells query => ?_⟩
    have condition := slot.isTrimmed_eq spells.ne_nil (whole spells)
    rw [trimmed] at condition
    rw [Target.parts, Target.normalized, if_neg (Bool.eq_false_iff.mp condition), front,
      ← apart name (whole spells)]
    rfl

/-- What is read of a target around an identifier does not depend on the identifier: the target
cannot be read, or it has the same query and the same other segments. -/
theorem read_fill : ∃ query? earlier later, ∀ {id name}, Spells id name →
    (slot.fill name).length ≤ Target.maxLength →
    (Target.parse? (slot.fill name)).map Target.parts =
      (query? : Option (List UInt8)).map fun query => (query, some (earlier ++ name :: later)) := by
  obtain ⟨isRead, reads⟩ := slot.parse?_fill
  obtain ⟨earlier, later, parts⟩ := slot.parts_fill
  refine ⟨if isRead then slot.query? else none, earlier, later, fun {id name} spells short => ?_⟩
  rw [reads spells short]
  cases isRead with
  | false => rfl
  | true =>
    simp only [if_true, Option.map_map]
    congr 1
    funext query
    exact parts spells query

end Slot

end Http

end StatusRegistry
