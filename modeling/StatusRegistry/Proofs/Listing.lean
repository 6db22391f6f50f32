import StatusRegistry.Proofs.Like
import StatusRegistry.Proofs.Order
import StatusRegistry.Proofs.Page.Overflow
import StatusRegistry.Proofs.Surroundings
import StatusRegistry.Status.Query

/-!
# Listings page by page

A listing counts the rows that it is about and then reads one page of them. As long as the table
stays as it is, the pages from the first to the last are the rows themselves, in the order that was
asked for, and every page tells the same totals. How the rows are arranged in the table makes no
difference.
-/

namespace StatusRegistry

/-- A row is live and contains a text in its name or its description, up to a folding of letter
case. -/
def Status.Mentions (fold : Char → Char) (text : String) (s : Status) : Prop :=
  s.deletedAt = none ∧ (text.toList.map fold <:+: s.name.toList.map fold ∨
    text.toList.map fold <:+: s.description.toList.map fold)

instance (fold : Char → Char) (text : String) : DecidablePred (Status.Mentions fold text) :=
  fun _ => inferInstanceAs (Decidable (_ ∧ _))

/-- What a listing is asked for: the rows that pass a filter, or those that contain a text. -/
inductive Inquiry where
  | filtered (filter : Filter)
  | matching (text : String)

namespace Inquiry

/-- Asks for one page. -/
def ask : Inquiry → PageRequest → Action Listing
  | .filtered filter, request => StatusRows.list request filter
  | .matching text, request => StatusRows.search text request

/-- The rows that an inquiry is about: live ones that have every value of the filter, or live ones
with a name or description that contains the text. -/
def Admits (c : Collation) : Inquiry → Status → Prop
  | .filtered filter, s => s.deletedAt = none ∧ (∀ name, filter.name = some name → s.name = name) ∧
    (∀ description, filter.description = some description → s.description = description) ∧
    (∀ active, filter.active = some active → s.active = active) ∧
    ∀ number, filter.orderNumber = some number → s.orderNumber = number
  | .matching text, s => s.Mentions c.fold text

/-- The texts that an inquiry gives to the store. -/
def texts : Inquiry → List String
  | .filtered filter => filter.name.toList ++ filter.description.toList
  | .matching text => [text]

/-- The condition of an inquiry as a store decides it. -/
def condition (c : Collation) : Inquiry → Status → Bool
  | .filtered filter => Store.passes filter
  | .matching text => Store.matchesPattern c (String.ofList (Like.escape text.toList))

/-- An absent value is wanted of every row. -/
theorem wanted_iff {α : Type} [DecidableEq α] {value : Option α} {a : α} :
    Store.wanted value a = true ↔ ∀ b, value = some b → a = b := by
  cases value with
  | none => simp [Store.wanted]
  | some b => simp [Store.wanted, eq_comm]

/-- A store decides which rows an inquiry is about, whatever its collation. -/
theorem condition_iff {c : Collation} {inquiry : Inquiry} {s : Status} :
    inquiry.condition c s = true ↔ inquiry.Admits c s := by
  cases inquiry with
  | filtered filter =>
    simp only [condition, Admits, Store.passes, Bool.and_eq_true, wanted_iff, Status.isLive,
      Option.isNone_iff_eq_none, and_assoc]
  | matching text =>
    simp only [condition, Admits, Status.Mentions, Store.matchesPattern, Bool.and_eq_true,
      Bool.or_eq_true, Status.isLive, Option.isNone_iff_eq_none, Like.contains_escape_iff]

end Inquiry

/-- Parts of one length, put together, are the front of a list. -/
theorem flatMap_range_eq_take {α : Type} {xs : List α} {size : Nat} {part : Nat → List α} {n : Nat}
    (parts : ∀ k < n, part k = (xs.drop (k * size)).take size) :
    (List.range n).flatMap part = xs.take (n * size) := by
  induction n with
  | zero => simp
  | succ n ih =>
    rw [List.range_succ, List.flatMap_append, ih fun k lt => parts k (Nat.lt_succ_of_lt lt),
      Nat.succ_mul, List.take_add, List.flatMap_singleton, parts n (Nat.lt_succ_self n)]

/-- The pages of a list reach its end. -/
theorem le_pageCount_mul {size : Nat} (positive : 0 < size) (rows : Nat) :
    rows ≤ pageCount rows size * size := by
  refine Nat.le_of_not_lt fun lt => ?_
  exact Nat.lt_irrefl _ ((lt_pageCount_iff positive _).mpr lt)

/-- A program gives a value and leaves the world as it is. -/
def World.Gives {α : Type} (w : World) (p : Program α) (a : α) : Prop :=
  (w.run p).value = some a ∧ (w.run p).world = w

/-- A program goes on with the answer to a call that leaves the world as it is. -/
theorem World.gives_call {α : Type} {w : World} {c : Call} {next : c.Answer → Program α}
    {answer : c.Answer} {a : α} (given : w.Answers c answer w) (rest : w.Gives (next answer) a) :
    w.Gives (.call c next) a := by
  obtain ⟨events, given⟩ := given
  simp only [Gives, run, given]
  exact rest

/-- A program goes on with the result of a statement that only reads. -/
theorem World.gives_statement {α : Type} {w : World} (works : w.storeFaults = [])
    (connected : w.connection = .free) {q : Statement} {result : Except StoreError q.Result}
    {next : (Call.query q).Answer → Program α} {a : α}
    (executed : w.store.execute q = (result, w.store)) (rest : w.Gives (next result) a) :
    w.Gives (.call (.query q) next) a := by
  have given := World.answer_query works connected q
  rw [executed] at given
  exact World.gives_call given rest

variable {w : World} {inquiry : Inquiry} {request : PageRequest}

/-- The page of some rows that a request asks for. -/
def pageOf (c : Collation) (rows : List Status) (request : PageRequest) : Listing :=
  if Store.count rows = 0 then Listing.empty request
  else Listing.make (Store.page c rows request.order request.offset request.limit)
    (Store.count rows) request

namespace Inquiry

/-- The statement that counts. -/
def count : Inquiry → Statement
  | .filtered filter => .countFiltered filter
  | .matching text => .countMatching (String.ofList (Like.escape text.toList))

/-- The statement that reads a page. -/
def page (request : PageRequest) : Inquiry → Statement
  | .filtered filter => .pageFiltered filter request.order request.offset request.limit
  | .matching text => .pageMatching (String.ofList (Like.escape text.toList)) request.order
    request.offset request.limit

/-- Whether the store refuses the texts of an inquiry. -/
def isRefused (inquiry : Inquiry) : Bool := inquiry.texts.any (·.contains '\x00')

/-- The failure of an inquiry that the store refuses. -/
def refusal (inquiry : Inquiry) : Failure :=
  Store.nullCharacter.toFailure.withOperation inquiry.count.name

/-- The texts of a filter are those of its values. -/
theorem texts_filterArguments (filter : Filter) :
    Store.texts (Statement.filterArguments filter) = (filtered filter).texts := by
  obtain ⟨name, description, active, number⟩ := filter
  cases name <;> cases description <;> rfl

/-- The pattern for a text has a null character only if the text has one. -/
theorem contains_escape (text : String) :
    (String.ofList (Like.escape text.toList)).contains '\x00' = text.contains '\x00' := by
  rw [String.contains_char_eq, String.contains_char_eq, String.toList_ofList, Like.escape]
  apply decide_eq_decide.mpr
  rw [List.mem_flatMap]
  constructor
  · rintro ⟨c, member, present⟩
    split at present
    · rcases List.mem_cons.mp present with backslash | same
      · cases backslash
      · exact List.mem_singleton.mp same ▸ member
    · exact List.mem_singleton.mp present ▸ member
  · exact fun member => ⟨_, member, by decide⟩

/-- The store refuses the count of an inquiry exactly for its texts. -/
theorem valueProblem_count (inquiry : Inquiry) : Store.valueProblem inquiry.count =
    if inquiry.isRefused then some Store.nullCharacter else none := by
  have texts : (Store.texts inquiry.count.arguments).any (·.contains '\x00') =
      inquiry.isRefused := by
    cases inquiry with
    | filtered filter =>
      rw [count, Statement.arguments, texts_filterArguments]
      rfl
    | matching text => exact congrArg (· || false) (contains_escape text)
  rw [Store.valueProblem, texts]
  cases inquiry <;> rfl

/-- The store refuses a page of an inquiry exactly for its texts. -/
theorem valueProblem_page (inquiry : Inquiry) (request : PageRequest) :
    Store.valueProblem (inquiry.page request) =
      if inquiry.isRefused then some Store.nullCharacter else none := by
  have texts : (Store.texts (inquiry.page request).arguments).any (·.contains '\x00') =
      inquiry.isRefused := by
    cases inquiry with
    | filtered filter =>
      have numbers : Store.texts ((filtered filter).page request).arguments =
          (filtered filter).texts := by
        rw [← texts_filterArguments]
        simp [Store.texts, page, Statement.arguments]
      rw [numbers]
      rfl
    | matching text => exact congrArg (· || false) (contains_escape text)
  rw [Store.valueProblem, texts]
  cases inquiry <;> rfl

/-- A world that works gives the page of the rows that an inquiry is about. -/
theorem gives_page (works : w.storeFaults = []) (connected : w.connection = .free)
    (plain : inquiry.isRefused = false) (request : PageRequest) :
    w.Gives (inquiry.ask request).run
      (.ok (pageOf w.store.collation
        (w.store.statuses.filter (inquiry.condition w.store.collation)) request)) := by
  have counts : w.store.execute inquiry.count = w.store.perform inquiry.count := by
    rw [Store.execute, valueProblem_count, plain]
    rfl
  have reads : w.store.execute (inquiry.page request) = w.store.perform (inquiry.page request) := by
    rw [Store.execute, valueProblem_page, plain]
    rfl
  unfold pageOf
  cases inquiry with
  | filtered filter =>
    show w.Gives (Registry.serve ⟨0, false⟩ (.list request filter)) _
    rw [Registry.serve_list]
    refine World.gives_statement works connected counts ?_
    show w.Gives (if Store.count (w.store.statuses.filter
      (condition w.store.collation (.filtered filter))) = 0 then _ else _) _
    split
    · exact ⟨rfl, rfl⟩
    · exact World.gives_statement works connected reads ⟨rfl, rfl⟩
  | matching text =>
    show w.Gives (Registry.serve ⟨0, false⟩ (.search text request)) _
    rw [Registry.serve_search]
    refine World.gives_statement works connected counts ?_
    show w.Gives (if Store.count (w.store.statuses.filter
      (condition w.store.collation (.matching text))) = 0 then _ else _) _
    split
    · exact ⟨rfl, rfl⟩
    · exact World.gives_statement works connected reads ⟨rfl, rfl⟩

/-- A world that works refuses every page of an inquiry with a null character. -/
theorem gives_refusal (works : w.storeFaults = []) (connected : w.connection = .free)
    (refused : inquiry.isRefused = true) (request : PageRequest) :
    w.Gives (inquiry.ask request).run (.error inquiry.refusal) := by
  have counts : w.store.execute inquiry.count = (.error Store.nullCharacter, w.store) := by
    rw [Store.execute, valueProblem_count, refused]
    rfl
  cases inquiry with
  | filtered filter =>
    show w.Gives (Registry.serve ⟨0, false⟩ (.list request filter)) _
    rw [Registry.serve_list]
    exact World.gives_statement works connected counts ⟨rfl, rfl⟩
  | matching text =>
    show w.Gives (Registry.serve ⟨0, false⟩ (.search text request)) _
    rw [Registry.serve_search]
    exact World.gives_statement works connected counts ⟨rfl, rfl⟩

end Inquiry

variable {c : Collation} {rows : List Status}

/-- A page holds its part of the sorted rows, with the totals of all of them. -/
theorem pageOf_eq (bounded : request.IsBounded) (small : rows.length + 100 < 9223372036854775808) :
    pageOf c rows request = Listing.make (((Store.sorted c request.order rows).drop
      ((request.page.toNat - 1) * request.size.toNat)).take request.size.toNat)
      (Store.count rows) request := by
  have offset : request.offset.toNatClampNeg = (request.page.toNat - 1) * request.size.toNat :=
    congrArg Int.toNat (PageRequest.offset_toInt bounded)
  have limit : request.limit.toNatClampNeg = request.size.toNat :=
    congrArg Int.toNat (PageRequest.toInt_widen request.size)
  rw [← offset, ← limit, ← Store.page_eq]
  by_cases nothing : Store.count rows = 0
  · have length : rows.length = 0 := by
      have value := congrArg Int64.toInt nothing
      rw [Store.count, PageRequest.toInt_rows small] at value
      exact Int.ofNat.inj value
    obtain rfl := List.eq_nil_of_length_eq_zero length
    rw [pageOf, if_pos nothing, Store.page, List.mergeSort_nil, List.drop_nil, List.take_nil]
    rfl
  · exact if_neg nothing

/-- What the pages of a result are, from the first page on. -/
structure Paginates (found : List Status) (size : Nat) (listing : UInt32 → Listing) : Prop where
  /-- Every page tells its number and the size of pages. -/
  echoes : ∀ page : UInt32, 0 < page.toNat →
    (listing page).page = page ∧ (listing page).size.toNat = size
  /-- Every page tells the same totals. -/
  totals : ∀ page : UInt32, 0 < page.toNat → (listing page).totalCount.toInt = found.length ∧
    (listing page).totalPages.toInt = pageCount found.length size
  /-- The pages, put together, are the result. -/
  whole : (List.range (pageCount found.length size)).flatMap
    (fun k => (listing (UInt32.ofNat (k + 1))).items) = found
  /-- A page before the last is full. -/
  full : ∀ page : UInt32, 0 < page.toNat → page.toNat < pageCount found.length size →
    (listing page).items.length = size
  /-- The last page is not empty. -/
  last : ∀ page : UInt32, 0 < page.toNat → page.toNat = pageCount found.length size →
    1 ≤ (listing page).items.length ∧ (listing page).items.length ≤ size
  /-- Rows follow exactly the pages before the last. -/
  more : ∀ page : UInt32, 0 < page.toNat →
    ((listing page).hasMore = true ↔ page.toNat < pageCount found.length size)
  /-- A page behind the last is empty. -/
  beyond : ∀ page : UInt32, pageCount found.length size < page.toNat → (listing page).items = []

/-- Rows that fill few enough pages are few enough for a machine word. -/
theorem length_lt {length size : Nat} (positive : 0 < size) (atMost : size ≤ 100)
    (fits : pageCount length size < 4294967296) : length + 100 < 9223372036854775808 := by
  have reach := le_pageCount_mul positive length
  have most := Nat.mul_le_mul (Nat.le_of_lt fits) atMost
  omega

/-- Listings that hold the parts of a result one after the other are its pages. -/
theorem paginates_of_parts {found : List Status} {size : Nat} {request : UInt32 → PageRequest}
    {listing : UInt32 → Listing} (bounded : ∀ page, (request page).IsBounded)
    (number : ∀ page : UInt32, 0 < page.toNat → (request page).page = page)
    (sizes : ∀ page, (request page).size.toNat = size)
    (fits : pageCount found.length size < 4294967296)
    (parts : ∀ page : UInt32, 0 < page.toNat → listing page =
      Listing.make ((found.drop ((page.toNat - 1) * size)).take size) (Store.count found)
        (request page)) :
    Paginates found size listing := by
  have positive : 0 < size := sizes 0 ▸ (bounded 0).size_pos
  have small := length_lt positive (sizes 0 ▸ (bounded 0).size_le) fits
  have items : ∀ page : UInt32, 0 < page.toNat →
      (listing page).items.length = min size (found.length - (page.toNat - 1) * size) := by
    intro page first
    rw [parts page first, Listing.make, List.length_take, List.length_drop]
  constructor
  case echoes =>
    intro page first
    rw [parts page first]
    exact ⟨number page first, sizes page⟩
  case totals =>
    intro page first
    rw [parts page first]
    refine ⟨PageRequest.toInt_rows small, ?_⟩
    exact (PageRequest.totalPages_toInt (bounded page) small).trans (by rw [sizes])
  case whole =>
    have pages : ∀ k < pageCount found.length size, (listing (UInt32.ofNat (k + 1))).items =
        (found.drop (k * size)).take size := by
      intro k lt
      have value : (UInt32.ofNat (k + 1)).toNat = k + 1 :=
        UInt32.toNat_ofNat_of_lt' (Nat.lt_of_le_of_lt lt fits)
      rw [parts _ (by omega), value]
      rfl
    rw [flatMap_range_eq_take pages]
    exact List.take_of_length_le (le_pageCount_mul positive found.length)
  case full =>
    intro page first before
    have within := (lt_pageCount_iff positive _).mp before
    have next : (page.toNat - 1) * size + size = page.toNat * size := by
      rw [← Nat.succ_mul, Nat.succ_eq_add_one, Nat.sub_add_cancel first]
    rw [items page first]
    omega
  case last =>
    intro page first final
    have within : (page.toNat - 1) * size < found.length :=
      (lt_pageCount_iff positive _).mp (by omega)
    rw [items page first]
    omega
  case more =>
    intro page first
    rw [parts page first]
    refine (PageRequest.hasMore_iff (bounded page) small).trans ?_
    rw [number page first, sizes]
  case beyond =>
    intro page behind
    have outside : ¬(page.toNat - 1) * size < found.length :=
      mt (lt_pageCount_iff positive _).mpr (by omega)
    refine List.eq_nil_of_length_eq_zero ?_
    rw [items page (by omega)]
    omega

/-- The pages of some rows are the parts of the sorted rows. -/
theorem paginates (c : Collation) (rows : List Status) (size : Option UInt32) (hint : Option String)
    (fits : pageCount rows.length (PageRequest.make none size hint).size.toNat < 4294967296) :
    Paginates (Store.sorted c (PageRequest.make none size hint).order rows)
      (PageRequest.make none size hint).size.toNat
      fun page => pageOf c rows (PageRequest.make (some page) size hint) := by
  have bounded := fun page => PageRequest.make_isBounded (some page) size hint
  have length := Store.length_sorted c (PageRequest.make none size hint).order rows
  refine paginates_of_parts bounded (fun page first => PageRequest.make_page first size hint)
    (fun _ => rfl) (by rw [length]; exact fits) fun page first => ?_
  have small := length_lt (bounded page).size_pos (bounded page).size_le fits
  rw [pageOf_eq (bounded page) small, PageRequest.make_page first, Store.count, Store.count, length]
  rfl

/-- The pages of a result do not depend on how the rows stand in the table. -/
theorem pageOf_eq_of_perm {others : List Status} (perm : rows.Perm others)
    (distinct : (rows.map Status.id).Nodup) (request : PageRequest) :
    pageOf c rows request = pageOf c others request := by
  unfold pageOf Store.count
  rw [Store.page_eq, Store.page_eq, Store.sorted_eq_of_perm c _ perm distinct, perm.length_eq]

/-- A build with overflow checks makes the same page, if the rows fill few enough pages. -/
theorem make?_pageOf (bounded : request.IsBounded)
    (fits : pageCount rows.length request.size.toNat < 4294967296) :
    Listing.make? (pageOf c rows request).items (pageOf c rows request).totalCount request =
      some (pageOf c rows request) := by
  have small := length_lt bounded.size_pos bounded.size_le fits
  have atMost := bounded.size_le
  rw [pageOf_eq bounded small]
  refine (PageRequest.make?_eq bounded _ _).trans (if_pos ?_)
  show (Store.count rows).toInt + request.size.toNat < 9223372036854775808
  rw [Store.count, PageRequest.toInt_rows small]
  omega

/-- Whether the store refuses an inquiry is a matter of its texts. -/
theorem Inquiry.isRefused_iff {inquiry : Inquiry} :
    inquiry.isRefused = true ↔ ∃ value ∈ inquiry.texts, '\x00' ∈ value.toList := by
  simp only [isRefused, List.any_eq_true, String.contains_char_eq, decide_eq_true_eq]

/-- Under every collation, the pages of a listing from the first to the last are the live rows that
it is about, each once and in the order that was asked for. All pages tell the same totals, builds
with and without overflow checks make the same pages, and none of it depends on how the rows stand
in the table. An inquiry with a null character is refused page by page. -/
theorem pages_partition (c : Collation) (inquiry : Inquiry) (size : Option UInt32)
    (hint : Option String) {table : List Status} (distinct : (table.map Status.id).Nodup) :
    ∃ found : List Status,
      (∀ s, s ∈ found ↔ s ∈ table ∧ inquiry.Admits c s) ∧ (found.map Status.id).Nodup ∧
      found.Pairwise ((PageRequest.make none size hint).order.Precedes c) ∧
      (pageCount found.length (PageRequest.make none size hint).size.toNat < 4294967296 →
        ∃ answer : UInt32 → Except Failure Listing,
          (∀ w : World, w.storeFaults = [] → w.connection = .free → w.store.collation = c →
            w.store.statuses.Perm table → ∀ page : UInt32,
              w.Gives (inquiry.ask (PageRequest.make (some page) size hint)).run (answer page)) ∧
          ((∀ value ∈ inquiry.texts, '\x00' ∉ value.toList) →
            ∃ listing, (∀ page, answer page = .ok (listing page)) ∧
              Paginates found (PageRequest.make none size hint).size.toNat listing ∧
              ∀ page, Listing.make? (listing page).items (listing page).totalCount
                (PageRequest.make (some page) size hint) = some (listing page)) ∧
          ((∃ value ∈ inquiry.texts, '\x00' ∈ value.toList) →
            ∀ page, answer page = .error inquiry.refusal)) := by
  have passing : ((table.filter (inquiry.condition c)).map Status.id).Nodup :=
    distinct.sublist (List.filter_sublist.map Status.id)
  have perm := Store.sorted_perm c (PageRequest.make none size hint).order
    (table.filter (inquiry.condition c))
  refine ⟨Store.sorted c _ (table.filter (inquiry.condition c)), ?member,
    (perm.map Status.id).nodup_iff.mpr passing, Store.sorted_precedes c _ passing,
    fun fits => ?pages⟩
  case member =>
    intro s
    rw [perm.mem_iff, List.mem_filter, Inquiry.condition_iff]
  case pages =>
    rw [perm.length_eq] at fits
    refine ⟨fun page => if inquiry.isRefused then .error inquiry.refusal
      else .ok (pageOf c (table.filter (inquiry.condition c))
        (PageRequest.make (some page) size hint)), ?given, ?accepted, ?refused⟩
    case given =>
      intro w works connected same arranged page
      subst same
      cases refused : inquiry.isRefused with
      | true => exact Inquiry.gives_refusal works connected refused _
      | false =>
        dsimp only
        rw [if_neg Bool.false_ne_true, pageOf_eq_of_perm
          (arranged.symm.filter (inquiry.condition w.store.collation)) passing]
        exact Inquiry.gives_page works connected refused _
    case accepted =>
      intro plain
      have accepted : ¬inquiry.isRefused = true := by
        rw [Inquiry.isRefused_iff]
        exact fun ⟨value, member, present⟩ => plain value member present
      exact ⟨_, fun page => if_neg accepted, paginates c _ size hint fits,
        fun page => make?_pageOf (PageRequest.make_isBounded _ _ _) fits⟩
    case refused => exact fun present _ => if_pos (Inquiry.isRefused_iff.mpr present)

namespace Sample

/-- A status that ties with the first in everything but its identifier. -/
def namesake : Status := { row with id := Uuid.ofOrdinal 2 }

/-- A status with another name. -/
def closed : Status := { row with id := Uuid.ofOrdinal 3, name := "Closed" }

/-- A deleted status. -/
def discarded : Status := { row with id := Uuid.ofOrdinal 4, deletedAt := some ⟨1704067201, 0⟩ }

/-- A status that is out of use. -/
def inactive : Status := { row with id := Uuid.ofOrdinal 5, active := false }

/-- All of them, in no order. -/
def table : List Status := [namesake, discarded, row, inactive, closed]

/-- A world with a table of statuses. -/
def arranged (statuses : List Status) : World := World.make { store with statuses } .none

/-- Asks for the active statuses. -/
def activeOnly : Inquiry := .filtered { Filter.all with active := some true }

/-- Asks for a page of two by name. -/
def twoByName (page : UInt32) : PageRequest := .make (some page) (some 2) (some "name")

/-- The active statuses by name; the identifiers break the tie. -/
theorem found_eq {found : List Status}
    (member : ∀ s, s ∈ found ↔ s ∈ table ∧ activeOnly.Admits .codePoints s)
    (once : (found.map Status.id).Nodup) (ordered : found.Pairwise (Order.name.Precedes .codePoints)) :
    found = [closed, row, namesake] := by
  have strictly : [closed, row, namesake].Pairwise fun a b =>
      Store.compareStatuses .codePoints .name a b = .lt := by decide
  have kept : table.filter (activeOnly.condition .codePoints) = [namesake, row, closed] := by decide
  have different : found.Nodup :=
    (List.pairwise_map.mp once).imp fun apart same => apart (congrArg Status.id same)
  have perm : found.Perm (table.filter (activeOnly.condition .codePoints)) := by
    refine (List.perm_ext_iff_of_nodup different (by decide)).mpr fun s => ?_
    rw [member, List.mem_filter, Inquiry.condition_iff]
  exact Order.eq_of_precedes (perm.trans (kept ▸ by decide)) ordered
    (strictly.imp Order.precedes_iff.mpr)

end Sample

open Sample in
/-- Of five statuses three are active, and they fill two pages. Two of them tie by name and times.
However the five stand in the table, the pages are the same. -/
theorem pages_break_ties : (table.map Status.id).Nodup ∧ ∃ listing : UInt32 → Listing,
    (∀ statuses, statuses.Perm table → ∀ page,
      (arranged statuses).Gives (activeOnly.ask (twoByName page)).run (.ok (listing page))) ∧
    Paginates [closed, row, namesake] 2 listing ∧ (listing 1).items = [closed, row] ∧
    (listing 2).items = [namesake] := by
  have distinct : (table.map Status.id).Nodup := by decide
  refine ⟨distinct, ?_⟩
  obtain ⟨found, member, once, ordered, pages⟩ :=
    pages_partition .codePoints activeOnly (some 2) (some "name") distinct
  obtain rfl := found_eq member once ordered
  obtain ⟨answer, given, accepted, -⟩ := pages (by decide)
  obtain ⟨listing, answers, paginates, -⟩ := accepted nofun
  have full : (listing 1).items.length = 2 := paginates.full 1 (by decide) (by decide)
  have whole : (listing 1).items ++ (listing 2).items = [closed, row] ++ [namesake] :=
    (List.append_nil _).symm.trans ((List.append_assoc _ _ _).trans paginates.whole)
  refine ⟨listing, fun statuses perm page => ?_, paginates, List.append_inj whole full⟩
  rw [← answers]
  exact given (arranged statuses) rfl rfl rfl perm page

open Sample in
/-- Not every filter has pages: the store refuses one with a null character, so there is no listing
of the rows that pass it. -/
theorem null_filter_has_no_pages : ¬∀ (filter : Filter) (size : Option UInt32)
    (hint : Option String), ∃ listing : UInt32 → Listing, ∀ page,
      world.Gives (StatusRows.list (PageRequest.make (some page) size hint) filter).run
        (.ok (listing page)) := by
  intro listed
  obtain ⟨listing, given⟩ := listed { Filter.all with name := some "\x00" } none none
  have refused := Inquiry.gives_refusal (w := world) rfl rfl
    (Inquiry.isRefused_iff.mpr ⟨"\x00", by decide, by decide⟩ :
      (Inquiry.filtered { Filter.all with name := some "\x00" }).isRefused = true)
    (PageRequest.make (some 1) none none)
  cases Option.some.inj (refused.1.symm.trans (given 1).1)

end StatusRegistry
