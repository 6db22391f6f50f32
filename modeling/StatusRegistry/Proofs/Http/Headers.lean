import StatusRegistry.Http.Handler
import StatusRegistry.Http.Limit

/-!
# What headers tell

A request is known by two things: the token in its header for authorization, and the client that it
comes from. Both are said here of the headers and of the connection alone. The first header of a name
counts, and a value counts only if it is text. A proxy may tell the client in three headers; the
first of them that does is believed, and the connection is asked only if none does.
-/

namespace StatusRegistry.Http

variable {r : Request} {name text raw : String} {client : Ip}

/-- A header has a name; letter case does not matter. -/
def IsNamed (name : String) (header : String × List UInt8) : Prop :=
  header.1.toList.map Char.toLower = name.toList

instance (name : String) (header : String × List UInt8) : Decidable (IsNamed name header) :=
  inferInstanceAs (Decidable (_ = _))

namespace Request

/-- The first header with a name has a text. -/
def Carries (r : Request) (name text : String) : Prop :=
  ∃ front header back, r.headers = front ++ header :: back ∧ IsNamed name header ∧
    (∀ other ∈ front, ¬IsNamed name other) ∧ Http.headerText? header.2 = some text

/-- The header for authorization is the word Bearer, a space and a token, or it is the word alone and
the token is empty. -/
def Bears (r : Request) (raw : String) : Prop :=
  ∃ text, r.Carries "authorization" text ∧ (text = "Bearer " ++ raw ∨ text = "Bearer" ∧ raw = "")

/-- The first of the standard headers that tells a client tells this one. -/
def StandardTells (r : Request) (client : Ip) : Prop :=
  ∃ front header back, r.headers = front ++ header :: back ∧ IsNamed "forwarded" header ∧
    (Http.headerText? header.2).bind forwardedAddress = some client ∧
    ∀ other ∈ front, IsNamed "forwarded" other →
      (Http.headerText? other.2).bind forwardedAddress = none

/-- A proxy tells the client of a request. -/
inductive ProxyTells (r : Request) (client : Ip) : Prop where
  | steps {list : String} (carried : r.Carries "x-forwarded-for" list)
      (told : firstAddress list = some client)
  | realAddress {text : String}
      (noSteps : ∀ list, r.Carries "x-forwarded-for" list → firstAddress list = none)
      (carried : r.Carries "x-real-ip" text) (told : Ip.parse? text = some client)
  | standard (noSteps : ∀ list, r.Carries "x-forwarded-for" list → firstAddress list = none)
      (noAddress : ∀ text, r.Carries "x-real-ip" text → Ip.parse? text = none)
      (told : r.StandardTells client)

/-- A request comes from a client: a proxy tells it, or else it is at the other end of the
connection. -/
def ComesFrom (r : Request) (behindProxy : Bool) (client : Ip) : Prop :=
  behindProxy = true ∧ r.ProxyTells client ∨
    (behindProxy = true → ∀ other, ¬r.ProxyTells other) ∧
      ∃ peer, r.peer = some peer ∧ peer.ip = client

/-- The values of a header are those of all with its name. -/
theorem headerValues_eq (r : Request) (name : String) : r.headerValues name =
    r.headers.filterMap fun header => if IsNamed name header then some header.2 else none :=
  rfl

/-- The text of a header is that of the first with its name. -/
theorem headerText?_eq_some_iff : r.headerText? name = some text ↔ r.Carries name text := by
  rw [headerText?, headerValues_eq, List.head?_filterMap, Option.bind_eq_some_iff]
  constructor
  · rintro ⟨value, found, read⟩
    obtain ⟨front, header, back, split, hit, before⟩ := List.findSome?_eq_some_iff.mp found
    by_cases named : IsNamed name header
    · obtain rfl := Option.some.inj ((if_pos named).symm.trans hit)
      refine ⟨front, header, back, split, named, fun other member same => ?_, read⟩
      cases (if_pos same).symm.trans (before other member)
    · cases (if_neg named).symm.trans hit
  · rintro ⟨front, header, back, split, named, before, read⟩
    refine ⟨header.2, List.findSome?_eq_some_iff.mpr ⟨front, header, back, split, if_pos named, ?_⟩,
      read⟩
    exact fun other member => if_neg (before other member)

/-- A header that tells nothing does so whatever its text. -/
theorem headerText?_bind_eq_none_iff {α : Type} {read : String → Option α} :
    (r.headerText? name).bind read = none ↔ ∀ text, r.Carries name text → read text = none := by
  simp only [Option.bind_eq_none_iff, headerText?_eq_some_iff]

/-- What is read from a header is read from its text. -/
theorem headerText?_bind_eq_some_iff {α : Type} {read : String → Option α} {a : α} :
    (r.headerText? name).bind read = some a ↔ ∃ text, r.Carries name text ∧ read text = some a := by
  simp only [Option.bind_eq_some_iff, headerText?_eq_some_iff]

/-- What is read from the first header with a name that tells anything. -/
theorem findSome?_headerValues_eq_some_iff {α : Type} {read : List UInt8 → Option α} {a : α} :
    (r.headerValues name).findSome? read = some a ↔
      ∃ front header back, r.headers = front ++ header :: back ∧ IsNamed name header ∧
        read header.2 = some a ∧ ∀ other ∈ front, IsNamed name other → read other.2 = none := by
  rw [headerValues_eq, ← List.head?_filterMap, List.filterMap_filterMap, List.head?_filterMap,
    List.findSome?_eq_some_iff]
  refine exists_congr fun front => exists_congr fun header => exists_congr fun back => ?_
  refine and_congr_right fun _ => ?_
  by_cases named : IsNamed name header
  · simp only [named, if_true, Option.bind_some, true_and]
    refine and_congr_right fun _ => forall₂_congr fun other _ => ?_
    by_cases same : IsNamed name other
    · simp only [same, if_true, Option.bind_some, true_implies]
    · simp only [same, if_false, Option.bind_none, false_implies]
  · simp only [named, if_false, Option.bind_none, reduceCtorEq, false_and]

/-- The client read from the headers of a proxy is the one that they tell. -/
theorem proxiedClient?_eq_some_iff : r.proxiedClient? = some client ↔ r.ProxyTells client := by
  rw [proxiedClient?, Option.or_eq_some_iff, Option.or_eq_some_iff,
    findSome?_headerValues_eq_some_iff,
    headerText?_bind_eq_some_iff, headerText?_bind_eq_none_iff, headerText?_bind_eq_some_iff,
    headerText?_bind_eq_none_iff]
  constructor
  · rintro (⟨_, carried, told⟩ | ⟨noSteps, ⟨_, carried, told⟩ | ⟨noAddress, told⟩⟩)
    · exact .steps carried told
    · exact .realAddress noSteps carried told
    · exact .standard noSteps noAddress told
  · rintro (⟨carried, told⟩ | ⟨noSteps, carried, told⟩ | ⟨noSteps, noAddress, told⟩)
    · exact .inl ⟨_, carried, told⟩
    · exact .inr ⟨noSteps, .inl ⟨_, carried, told⟩⟩
    · exact .inr ⟨noSteps, .inr ⟨noAddress, told⟩⟩

/-- The client of a request is the one that it comes from. -/
theorem client?_eq_some_iff {behindProxy : Bool} :
    r.client? behindProxy = some client ↔ r.ComesFrom behindProxy client := by
  have silent : r.proxiedClient? = none ↔ ∀ other, ¬r.ProxyTells other := by
    simp only [Option.eq_none_iff_forall_ne_some, ne_eq, proxiedClient?_eq_some_iff]
  cases behindProxy with
  | false => simp [client?, ComesFrom, Option.map_eq_some_iff]
  | true => simp [client?, ComesFrom, Option.or_eq_some_iff, proxiedClient?_eq_some_iff, silent,
      Option.map_eq_some_iff]

end Request

/-- The raw token of a request is the one that it bears. -/
theorem bearer?_eq_some_iff : bearer? r = some raw ↔ r.Bears raw := by
  rw [bearer?, Request.headerText?_bind_eq_some_iff]
  refine exists_congr fun text => and_congr_right fun _ => ?_
  dsimp only
  have spaced : "Bearer ".toList = "Bearer".toList ++ [' '] := by decide
  by_cases alone : text = "Bearer"
  · have unspaced : "Bearer" ≠ "Bearer " ++ raw := by
      intro same
      have shape := congrArg String.toList same
      rw [String.toList_append, spaced] at shape
      simp at shape
    subst alone
    simp [unspaced, eq_comm]
  · have bare : text.toList ≠ "Bearer".toList := fun same => alone (String.toList_injective same)
    rw [if_neg bare, ← spaced]
    simp only [alone, false_and, or_false]
    by_cases starts : "Bearer ".toList.isPrefixOf text.toList
    · obtain ⟨rest, whole⟩ := List.isPrefixOf_iff_prefix.mp starts
      obtain rfl : text = "Bearer " ++ String.ofList rest :=
        String.toList_injective (by simp [← whole])
      have tail : ("Bearer " ++ String.ofList rest).toList.drop ("Bearer".toList.length + 1) =
          rest := by
        rw [← whole]
        rfl
      rw [if_pos starts, tail, Option.some.injEq, String.append_right_inj]
    · rw [if_neg starts]
      refine iff_of_false nofun ?_
      rintro rfl
      exact starts (List.isPrefixOf_iff_prefix.mpr ⟨raw.toList, (String.toList_append ..).symm⟩)

end StatusRegistry.Http
