import StatusRegistry.Registry

/-!
# Reading back printed identifiers

An identifier is read back from its canonical text, so different identifiers have different texts
and are kept under different keys in the cache.
-/

namespace StatusRegistry

namespace Uuid

/-- A printed digit has the value it stands for. -/
theorem digit?_digitChar (d : Fin 16) : digit? (digitChar d) = some d := by
  revert d
  decide

/-- Printed digits are read back, and nothing else is needed for an identifier. -/
theorem ofSimple?_digits (u : Uuid) : ofSimple? (u.digits.map digitChar) = some u := by
  have read : ∀ digits : List (Fin 16), (digits.map digitChar).mapM digit? = some digits := by
    intro digits
    induction digits with
    | nil => rfl
    | cons d later ih => simp [List.mapM_cons, digit?_digitChar, ih]
  simp [ofSimple?, read, ofDigits?, u.length_digits]

/-- The grouped form of thirty-two characters stands for those characters. -/
theorem ofHyphenated?_groups {cs : List Char} (length : cs.length = 32) :
    ofHyphenated? (cs.take 8 ++ '-' :: (cs.drop 8).take 4 ++ '-' :: (cs.drop 12).take 4 ++
      '-' :: (cs.drop 16).take 4 ++ '-' :: cs.drop 20) = ofSimple? cs := by
  have groups : cs = cs.take 8 ++ ((cs.drop 8).take 4 ++ ((cs.drop 12).take 4 ++
      ((cs.drop 16).take 4 ++ cs.drop 20))) := by
    have step : ∀ n, cs.drop n = (cs.drop n).take 4 ++ cs.drop (n + 4) := fun n => by
      rw [← List.drop_drop, List.take_append_drop]
    rw [← step, ← step, ← step, List.take_append_drop]
  have first : (cs.take 8).length = 8 := by simp [length]
  have second : ((cs.drop 8).take 4).length = 4 := by simp [length]
  have third : ((cs.drop 12).take 4).length = 4 := by simp [length]
  have fourth : ((cs.drop 16).take 4).length = 4 := by simp [length]
  have fifth : (cs.drop 20).length = 12 := by simp [length]
  rw [groups]
  generalize cs.take 8 = a at *
  generalize (cs.drop 8).take 4 = b at *
  generalize (cs.drop 12).take 4 = c at *
  generalize (cs.drop 16).take 4 = d at *
  generalize cs.drop 20 = e at *
  simp [ofHyphenated?, hyphenPositions, List.drop_append, List.getElem?_append,
    List.drop_of_length_le, first, second, third, fourth, fifth]

/-- An identifier is read back from its canonical characters. -/
theorem parse?_toChars (u : Uuid) : parse? u.toChars = some u := by
  have length : (u.digits.map digitChar).length = 32 := by simp [u.length_digits]
  have grouped : u.toChars.length = 36 := by simp [toChars, u.length_digits]
  rw [parse?, grouped]
  exact (ofHyphenated?_groups length).trans (ofSimple?_digits u)

/-- Different identifiers have different texts. -/
theorem text_injective {u v : Uuid} (same : u.text = v.text) : u = v := by
  have chars : u.toChars = v.toChars := String.ofList_injective same
  have read := parse?_toChars u
  rw [chars, parse?_toChars v] at read
  exact (Option.some.inj read).symm

end Uuid

/-- Different identifiers are kept under different keys. -/
theorem cacheKey_injective {u v : Uuid} (same : cacheKey u = cacheKey v) : u = v := by
  have texts : u.text.toList = v.text.toList := by
    have chars := congrArg String.toList same
    simpa [cacheKey] using chars
  exact Uuid.text_injective (String.toList_inj.mp texts)

end StatusRegistry
