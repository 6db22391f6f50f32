import StatusRegistry.Proofs.Listing

/-!
# Searches

A search looks for its text as it is: no character of the text means anything in the pattern that
the store is given. So it finds the live rows that contain the text in their name or their
description, in any letter case that the collation of the store takes for the same. Only a null
character, which no text of the store can hold, makes the store refuse the search.
-/

namespace StatusRegistry

/-- The live rows of a store that contain a text. -/
def Store.mentioning (text : String) (store : Store) : List Status :=
  store.statuses.filter fun s => s.Mentions store.collation.fold text

variable {text : String}

/-- The rows whose columns match the pattern for a text are those that contain it. -/
theorem Store.filter_condition (text : String) (store : Store) :
    store.statuses.filter ((Inquiry.matching text).condition store.collation) =
      store.mentioning text := by
  refine List.filter_congr fun s _ => Bool.eq_iff_iff.mpr ?_
  rw [Inquiry.condition_iff, Inquiry.Admits, decide_eq_true_eq]

/-- The store refuses a search for a null character, and no other. -/
theorem Inquiry.isRefused_matching_iff :
    (Inquiry.matching text).isRefused = true ↔ '\x00' ∈ text.toList := by
  rw [isRefused_iff, texts]
  exact ⟨fun ⟨_, same, present⟩ => List.mem_singleton.mp same ▸ present,
    fun present => ⟨text, List.mem_singleton.mpr rfl, present⟩⟩

/-- A search takes its text literally. The pattern for a text reads as any sequence, the characters
of the text and any sequence; under every folding of case it matches the texts that contain the
folded text. A working store, whatever its collation, counts and returns the live rows that contain
the text up to its own folding, page by page, unless the text has a null character: then it refuses
every page. -/
theorem search_is_literal (text : String) :
    Like.pieces ('%' :: Like.escape text.toList ++ ['%']) =
      .many :: (text.toList.map .exactly ++ [.many]) ∧
    (∀ (fold : Char → Char) (whole : List Char),
      (Like.Matches fold (Like.pieces ('%' :: Like.escape text.toList ++ ['%'])) whole ↔
        text.toList.map fold <:+: whole.map fold) ∧
      (Like.isMatch fold ('%' :: Like.escape text.toList ++ ['%']) whole = true ↔
        text.toList.map fold <:+: whole.map fold)) ∧
    ∀ w : World, w.storeFaults = [] → w.connection = .free →
      (∀ s, s ∈ w.store.mentioning text ↔ s ∈ w.store.statuses ∧ s.deletedAt = none ∧
        (text.toList.map w.store.collation.fold <:+: s.name.toList.map w.store.collation.fold ∨
          text.toList.map w.store.collation.fold <:+:
            s.description.toList.map w.store.collation.fold)) ∧
      ('\x00' ∉ text.toList →
        (∀ request, w.Gives (StatusRows.search text request).run
          (.ok (pageOf w.store.collation (w.store.mentioning text) request))) ∧
        ∀ (size : Option UInt32) (hint : Option String),
          pageCount (w.store.mentioning text).length
            (PageRequest.make none size hint).size.toNat < 4294967296 →
          Paginates (Store.sorted w.store.collation (PageRequest.make none size hint).order
              (w.store.mentioning text))
            (PageRequest.make none size hint).size.toNat
            fun page => pageOf w.store.collation (w.store.mentioning text)
              (PageRequest.make (some page) size hint)) ∧
      ('\x00' ∈ text.toList → ∀ request,
        w.Gives (StatusRows.search text request).run
          (.error (Inquiry.matching text).refusal)) := by
  refine ⟨Like.pieces_search _, ?literal, fun w works connected =>
    ⟨?member, fun plain => ⟨?page, ?pages⟩, ?refused⟩⟩
  case literal =>
    intro fold whole
    rw [Like.isMatch_iff, Like.pieces_search, Like.matches_between_iff]
    exact ⟨Iff.rfl, Iff.rfl⟩
  case member =>
    intro s
    rw [Store.mentioning, List.mem_filter, decide_eq_true_eq, Status.Mentions]
  case page =>
    intro request
    have accepted : (Inquiry.matching text).isRefused = false :=
      Bool.eq_false_iff.mpr (mt Inquiry.isRefused_matching_iff.mp plain)
    have given := Inquiry.gives_page works connected accepted request
    rw [Store.filter_condition] at given
    exact given
  case pages => exact fun size hint fits => paginates _ _ size hint fits
  case refused =>
    intro null request
    exact Inquiry.gives_refusal works connected (Inquiry.isRefused_matching_iff.mpr null) request

namespace Sample

/-- A status whose name has every character with a meaning in patterns. -/
def discount : Status := { row with id := Uuid.ofOrdinal 2, name := "100%_\\ off" }

/-- A status whose name `%_\` matches between percent signs without an escape. -/
def half : Status := { row with name := "50%" }

/-- A status with an accented letter in its name. -/
def coffee : Status := { row with id := Uuid.ofOrdinal 3, name := "CAFÉ" }

/-- A collation that also knows the case of an accented letter. -/
def accented : Collation :=
  { Collation.codePoints with fold := fun c => if c = 'É' then 'é' else c.toLower }

/-- A world with all of them. -/
def market : World :=
  World.make { store with statuses := [half, discount, coffee], collation := accented } .none

end Sample

open Sample in
/-- A search for a percent sign, an underscore and a backslash finds only the row that has them, and
one for an accented letter finds its capital where the collation of the store takes them for the
same. -/
theorem wildcards_are_found : market.storeFaults = [] ∧ market.connection = .free ∧
    '\x00' ∉ "%_\\".toList ∧ '\x00' ∉ "é".toList ∧
    market.Gives (StatusRows.search "%_\\" (PageRequest.make none none none)).run
      (.ok (pageOf accented [discount] (PageRequest.make none none none))) ∧
    (Paginates [discount] 10 fun page => pageOf accented [discount] (.make (some page) none none)) ∧
    market.Gives (StatusRows.search "é" (PageRequest.make none none none)).run
      (.ok (pageOf accented [coffee] (PageRequest.make none none none))) := by
  have plain : '\x00' ∉ "%_\\".toList := by decide
  have letter : '\x00' ∉ "é".toList := by decide
  have found : market.store.mentioning "%_\\" = [discount] := by decide
  have folded : market.store.mentioning "é" = [coffee] := by decide
  obtain ⟨-, accepted, -⟩ := (search_is_literal "%_\\").2.2 market rfl rfl
  obtain ⟨given, pages⟩ := accepted plain
  obtain ⟨-, acceptedLetter, -⟩ := (search_is_literal "é").2.2 market rfl rfl
  have paginates := pages none none (by rw [found]; decide)
  have givenLetter := (acceptedLetter letter).1
  rw [found] at given paginates
  rw [folded] at givenLetter
  have sorted : Store.sorted market.store.collation (PageRequest.make none none none).order
      [discount] = [discount] := List.mergeSort_singleton _
  rw [sorted] at paginates
  exact ⟨rfl, rfl, plain, letter, given _, paginates, givenLetter _⟩

open Sample in
/-- Not every search ends in a listing: the store refuses a text with a null character. -/
theorem null_character_is_refused : ¬∀ (text : String) (request : PageRequest),
    world.Gives (StatusRows.search text request).run
      (.ok (pageOf world.store.collation (world.store.mentioning text) request)) := by
  intro listed
  have refused := Inquiry.gives_refusal (w := world) rfl rfl
    (Inquiry.isRefused_matching_iff.mpr (by decide : '\x00' ∈ "\x00".toList))
    (PageRequest.make none none none)
  have answered := listed "\x00" (PageRequest.make none none none)
  cases Option.some.inj (refused.1.symm.trans answered.1)

end StatusRegistry
