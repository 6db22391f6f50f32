import Mathlib.Data.List.TakeWhile
import StatusRegistry.Proofs.Store.Placeholders
import StatusRegistry.Proofs.Surroundings
import StatusRegistry.Store.StatusRows
import StatusRegistry.Store.TokenRows

/-!
# Texts of statements

What is asked of the tables decides which statements a program issues, one after the other, until it
ends. It leaves one out only if another has failed or has found nothing to list. Their texts are
those of the kind of what is asked: the name of the operation and, for a listing or a search, the
order that its hint selects. Every other part of a request is among the values that accompany a text.
-/

namespace StatusRegistry

open Program (Leads)

/-- A program issues some statements, one after the other. It ends when one fails, and it ends before
any of them only with a result that tells so. -/
inductive Program.Issues {α : Type} (isShort : α → Prop) :
    Program α → List Statement → Prop where
  | done {a : α} {later : List Statement} (left : later ≠ [] → isShort a) :
      Issues isShort (.done a) later
  | ask {q : Statement} {next : (Call.query q).Answer → Program α} {later : List Statement}
      (fails : ∀ e, ∃ a, next (Except.error e : Except StoreError q.Result) = .done a ∧ isShort a)
      (onward : ∀ answer, Issues isShort (next answer) later) :
      Issues isShort (.call (.query q) next) (q :: later)

/-- The statement that an event asks for. -/
def Event.statement? : Event → Option Statement
  | .executed q => some q
  | _ => none

/-- The statements that reach the store while a program runs. -/
def World.asked {α : Type} (w : World) (p : Program α) : List Statement :=
  (w.run p).events.filterMap Event.statement?

namespace World

variable {α : Type} {w after : World} {c : Call} {next : c.Answer → Program α} {events : List Event}

/-- The statements of a program whose first call is answered go on with the answer. -/
theorem asked_call {answer : c.Answer} (answered : w.answer c = ⟨some answer, after, events⟩) :
    w.asked (.call c next) =
      events.filterMap Event.statement? ++ after.asked (next answer) := by
  simp only [asked, run, answered, List.filterMap_append]

/-- The statements of a program whose first call is never answered end there. -/
theorem asked_unanswered (answered : w.answer c = ⟨none, after, events⟩) :
    w.asked (.call c next) = events.filterMap Event.statement? := by
  simp only [asked, run, answered]

/-- A statement reaches the store once, or it does not and fails or is never answered. -/
theorem answerQuery_once (w : World) (q : Statement) :
    (∃ value after, w.answerQuery q = ⟨value, after, [.executed q]⟩) ∨
      ∃ value after, w.answerQuery q = ⟨value, after, []⟩ ∧
        ∀ answer ∈ value, ∃ e, answer = .error e := by
  unfold answerQuery
  split
  · refine .inr ⟨_, _, rfl, ?_⟩
    rintro answer ⟨⟩
    exact ⟨_, rfl⟩
  · exact .inr ⟨_, _, rfl, nofun⟩
  · split <;> exact .inl ⟨_, _, rfl⟩

end World

namespace Program.Issues

variable {α : Type} {isShort : α → Prop} {p : Program α} {statements : List Statement}

/-- A program that has had some answers comes to the statement that is next. -/
theorem at_leads (issues : p.Issues isShort statements) {past : List Exchange} {c : Call}
    {next : c.Answer → Program α} (leads : Leads p past (.call c next)) :
    ∃ q, c = .query q ∧ statements[past.length]? = some q := by
  generalize same : Program.call c next = point at leads
  induction leads generalizing statements with
  | here =>
    subst same
    cases issues
    exact ⟨_, rfl, rfl⟩
  | ask _ inductionHypothesis =>
    cases issues with
    | ask _ onward =>
      obtain ⟨q, asks, found⟩ := inductionHypothesis (onward _) same
      exact ⟨q, asks, found⟩

/-- The statements that reach the store while a program runs are the first of those that it issues,
and they are all of them unless its result tells otherwise. -/
theorem exists_asked_append (issues : p.Issues isShort statements) (w : World) :
    ∃ rest, w.asked p ++ rest = statements ∧
      ∀ a, (w.run p).value = some a → rest ≠ [] → isShort a := by
  induction issues generalizing w with
  | @done a later left =>
    refine ⟨later, rfl, ?_⟩
    rintro _ ⟨⟩
    exact left
  | @ask q next later fails onward inductionHypothesis =>
    rcases w.answerQuery_once q with ⟨value, after, once⟩ | ⟨value, after, never, failed⟩
    · have answered : w.answer (.query q) = ⟨value, after, [.executed q]⟩ := once
      cases value with
      | none =>
        rw [World.asked_unanswered answered]
        refine ⟨later, rfl, fun a ended => ?_⟩
        rw [World.run, answered] at ended
        cases ended
      | some answer =>
        obtain ⟨rest, rfl, complete⟩ := inductionHypothesis answer after
        rw [World.asked_call answered]
        refine ⟨rest, rfl, fun a ended => complete a ?_⟩
        rw [World.run, answered] at ended
        exact ended
    · have answered : w.answer (.query q) = ⟨value, after, []⟩ := never
      cases value with
      | none =>
        rw [World.asked_unanswered answered]
        refine ⟨q :: later, rfl, fun a ended => ?_⟩
        rw [World.run, answered] at ended
        cases ended
      | some answer =>
        obtain ⟨e, rfl⟩ := failed answer rfl
        obtain ⟨a, ends, short⟩ := fails e
        rw [World.asked_call answered, ends]
        refine ⟨q :: later, rfl, fun given ended _ => ?_⟩
        rw [World.run, answered] at ended
        simp only [ends] at ended
        cases ended
        exact short

/-- The statements that reach the store while a program runs are the first of those that it
issues. -/
theorem asked_prefix (issues : p.Issues isShort statements) (w : World) :
    w.asked p <+: statements := by
  obtain ⟨rest, whole, -⟩ := issues.exists_asked_append w
  exact ⟨rest, whole⟩

/-- All statements that a program issues have reached the store if its result does not tell
otherwise. -/
theorem asked_eq (issues : p.Issues isShort statements) {w : World} {a : α}
    (ended : (w.run p).value = some a) (whole : ¬isShort a) : w.asked p = statements := by
  obtain ⟨rest, same, complete⟩ := issues.exists_asked_append w
  have nothing : rest = [] := Decidable.not_not.mp fun left => whole (complete a ended left)
  rw [← same, nothing, List.append_nil]

section

variable {β : Type} {isShort : Except Failure β → Prop} {q : Statement}
  (refused : ∀ failure, isShort (.error failure))
include refused

/-- A statement comes before those of what its result chooses. -/
theorem query_bind {next : q.Result → Action β} {later : List Statement}
    (onward : ∀ result, (next result).run.Issues isShort later) :
    (Action.query q >>= next).run.Issues isShort (q :: later) := by
  refine .ask (fun e => ⟨_, rfl, refused _⟩) fun answer => ?_
  cases answer with
  | error e => exact .done fun _ => refused _
  | ok result => exact onward result

/-- A page is read only if there is something on it. -/
theorem page {total : Int64} {empty : β} {next : q.Result → Action β}
    (nothing : isShort (.ok empty)) (onward : ∀ result, (next result).run.Issues isShort []) :
    (if total = 0 then pure empty else Action.query q >>= next : Action β).run.Issues isShort
      [q] := by
  split
  · exact .done fun _ => nothing
  · exact .query_bind refused onward

end

/-- A single statement is all that it issues. -/
theorem query (q : Statement) {isShort : Except Failure q.Result → Prop}
    (refused : ∀ failure, isShort (.error failure)) :
    (Action.query q).run.Issues isShort [q] :=
  .ask (fun _ => ⟨_, rfl, refused _⟩) fun _ => .done fun left => absurd rfl left

end Program.Issues

/-- What may be asked of the tables of statuses and tokens. A page is asked for as in a request. -/
inductive Access where
  | list (page size : Option UInt32) (hint : Option String) (filter : Filter)
  | search (text : String) (page size : Option UInt32) (hint : Option String)
  | create (owner : Uuid) (draft : Draft)
  | update (id updater : Uuid) (revision : Revision)
  | find (id : Uuid)
  | delete (id : Uuid)
  | isReachable
  | findUser (digest : String)
  | touch (digest : String)
  | createToken (name digest : String) (user : Uuid)
  | listTokens
  | findTokenById (id : Int64)
  | findTokenByName (name : String)
  | revokeToken (id : Int64)

namespace Access

/-- The kinds of what may be asked. -/
inductive Kind where
  | list (order : Order)
  | search (order : Order)
  | create
  | update
  | find
  | delete
  | isReachable
  | findUser
  | touch
  | createToken
  | listTokens
  | findTokenById
  | findTokenByName
  | revokeToken
  deriving DecidableEq

/-- The kind of what is asked. -/
def kind : Access → Kind
  | .list _ _ hint _ => .list (Order.ofHint hint)
  | .search _ _ _ hint => .search (Order.ofHint hint)
  | .create .. => .create
  | .update .. => .update
  | .find _ => .find
  | .delete _ => .delete
  | .isReachable => .isReachable
  | .findUser _ => .findUser
  | .touch _ => .touch
  | .createToken .. => .createToken
  | .listTokens => .listTokens
  | .findTokenById _ => .findTokenById
  | .findTokenByName _ => .findTokenByName
  | .revokeToken _ => .revokeToken

/-- The order that a kind has. -/
def Kind.order? : Kind → Option Order
  | .list order => some order
  | .search order => some order
  | _ => none

/-- What is got if nothing fails; whether the store answers is never a failure. -/
def Result : Access → Type
  | .list .. => Except Failure Listing
  | .search .. => Except Failure Listing
  | .create .. => Except Failure Status
  | .update .. => Except Failure Status
  | .find _ => Except Failure Status
  | .delete _ => Except Failure Unit
  | .isReachable => Bool
  | .findUser _ => Except Failure (Option Uuid)
  | .touch _ => Except Failure Unit
  | .createToken .. => Except Failure Token
  | .listTokens => Except Failure (List Token)
  | .findTokenById _ => Except Failure (Option Token)
  | .findTokenByName _ => Except Failure (Option Token)
  | .revokeToken _ => Except Failure Unit

/-- A result tells that something has failed or that there was nothing to list. -/
def IsShort : (a : Access) → a.Result → Prop
  | .list .., outcome => ∀ found, outcome = .ok found → found.totalCount = 0
  | .search .., outcome => ∀ found, outcome = .ok found → found.totalCount = 0
  | .create .., outcome => ∃ failure, outcome = .error failure
  | .update .., outcome => ∃ failure, outcome = .error failure
  | .find _, outcome => ∃ failure, outcome = .error failure
  | .delete _, outcome => ∃ failure, outcome = .error failure
  | .isReachable, reached => reached = false
  | .findUser _, outcome => ∃ failure, outcome = .error failure
  | .touch _, outcome => ∃ failure, outcome = .error failure
  | .createToken .., outcome => ∃ failure, outcome = .error failure
  | .listTokens, outcome => ∃ failure, outcome = .error failure
  | .findTokenById _, outcome => ∃ failure, outcome = .error failure
  | .findTokenByName _, outcome => ∃ failure, outcome = .error failure
  | .revokeToken _, outcome => ∃ failure, outcome = .error failure

/-- The program for what is asked. -/
def program : (a : Access) → Program a.Result
  | .list page size hint filter => (StatusRows.list (PageRequest.make page size hint) filter).run
  | .search text page size hint => (StatusRows.search text (PageRequest.make page size hint)).run
  | .create owner draft => (StatusRows.create owner draft).run
  | .update id updater revision => (StatusRows.update id updater revision).run
  | .find id => (StatusRows.find id).run
  | .delete id => (StatusRows.delete id).run
  | .isReachable => StatusRows.isReachable
  | .findUser digest => (TokenRows.findUser digest).run
  | .touch digest => (TokenRows.touch digest).run
  | .createToken name digest user => (TokenRows.create name digest user).run
  | .listTokens => TokenRows.list.run
  | .findTokenById id => (TokenRows.findById id).run
  | .findTokenByName name => (TokenRows.findByName name).run
  | .revokeToken id => (TokenRows.revoke id).run

/-- The statements for what is asked. -/
def statements : Access → List Statement
  | .list page size hint filter =>
    let request := PageRequest.make page size hint
    [.countFiltered filter, .pageFiltered filter request.order request.offset request.limit]
  | .search text page size hint =>
    let pattern := String.ofList (Like.escape text.toList)
    let request := PageRequest.make page size hint
    [.countMatching pattern, .pageMatching pattern request.order request.offset request.limit]
  | .create owner draft => [.createStatus draft owner]
  | .update id updater revision => [.updateStatus id updater revision]
  | .find id => [.findStatus id]
  | .delete id => [.deleteStatus id]
  | .isReachable => [.health]
  | .findUser digest => [.findTokenUser digest]
  | .touch digest => [.touchToken digest]
  | .createToken name digest user => [.createToken name digest user]
  | .listTokens => [.listTokens]
  | .findTokenById id => [.findTokenById id]
  | .findTokenByName name => [.findTokenByName name]
  | .revokeToken id => [.revokeToken id]

end Access

/-- A blank hint is dropped from a request, and asks for the default order all the same. -/
theorem PageRequest.order_make (page size : Option UInt32) (hint : Option String) :
    (make page size hint).order = Order.ofHint hint := by
  cases hint with
  | none => rfl
  | some text =>
    cases blank : isBlankText text with
    | false =>
      have kept : (make page size (some text)).orderBy = some text := by
        simp only [make, Option.filter_some, blank, Bool.not_false, if_true]
      rw [order, kept]
    | true =>
      have dropped : (make page size (some text)).orderBy = none := by
        simp [make, Option.filter_some, blank]
      have empty : text.toList.dropWhile isBlank = [] :=
        List.dropWhile_eq_nil_iff.mpr (List.all_eq_true.mp blank)
      have default : Order.ofHint (some text) = .orderNumber := by
        rw [Order.ofHint, Option.map_some, trimBlank, trimBoth, empty]
        rfl
      rw [order, dropped, default]
      rfl

/-- What is asked of the tables issues its statements. -/
theorem Access.issues (a : Access) : a.program.Issues a.IsShort a.statements := by
  have last {α : Type} {isShort : α → Prop} {result : α} :
      (Program.done result).Issues isShort [] := .done fun left => absurd rfl left
  cases a with
  | list page size hint filter =>
    have refused : ∀ failure, IsShort (.list page size hint filter) (.error failure) := nofun
    refine .query_bind refused fun _ => .page refused ?_ fun _ => last
    rintro _ ⟨⟩
    rfl
  | search text page size hint =>
    have refused : ∀ failure, IsShort (.search text page size hint) (.error failure) := nofun
    refine .query_bind refused fun _ => .page refused ?_ fun _ => last
    rintro _ ⟨⟩
    rfl
  | update id updater revision => exact .query_bind (fun _ => ⟨_, rfl⟩) fun _ => last
  | find id => exact .query_bind (fun _ => ⟨_, rfl⟩) fun _ => last
  | delete id => exact .query_bind (fun _ => ⟨_, rfl⟩) fun _ => last
  | isReachable => exact .ask (fun _ => ⟨_, rfl, rfl⟩) fun _ => last
  | touch digest => exact .query_bind (fun _ => ⟨_, rfl⟩) fun _ => last
  | revokeToken id => exact .query_bind (fun _ => ⟨_, rfl⟩) fun _ => last
  | create owner draft => exact .query (.createStatus draft owner) fun _ => ⟨_, rfl⟩
  | findUser digest => exact .query (.findTokenUser digest) fun _ => ⟨_, rfl⟩
  | createToken name digest user =>
    exact .query (.createToken name digest user) fun _ => ⟨_, rfl⟩
  | listTokens => exact .query .listTokens fun _ => ⟨_, rfl⟩
  | findTokenById id => exact .query (.findTokenById id) fun _ => ⟨_, rfl⟩
  | findTokenByName name => exact .query (.findTokenByName name) fun _ => ⟨_, rfl⟩

/-- The texts of two things of one kind are equal. -/
theorem Access.texts_eq {a b : Access} (same : a.kind = b.kind) :
    a.statements.map Statement.sql = b.statements.map Statement.sql := by
  cases a with
  | list page size hint filter =>
    cases b with
    | list otherPage otherSize otherHint otherFilter =>
      have order : Order.ofHint hint = Order.ofHint otherHint := Kind.list.inj same
      simp only [statements, List.map_cons, List.map_nil, PageRequest.order_make, order]
      rfl
    | _ => cases same
  | search text page size hint =>
    cases b with
    | search otherText otherPage otherSize otherHint =>
      have order : Order.ofHint hint = Order.ofHint otherHint := Kind.search.inj same
      simp only [statements, List.map_cons, List.map_nil, PageRequest.order_make, order]
      rfl
    | _ => cases same
  | _ => cases b <;> first | (cases same; done) | rfl

/-- What stands behind the first occurrence of a mark in a text. -/
def behind? (mark : List Char) : List Char → Option (List Char)
  | [] => none
  | c :: rest =>
    if mark.isPrefixOf (c :: rest) then some ((c :: rest).drop mark.length) else behind? mark rest

/-- What stands before the first occurrence of a mark in a text. -/
def before (mark : List Char) : List Char → List Char
  | [] => []
  | c :: rest => if mark.isPrefixOf (c :: rest) then [] else c :: before mark rest

/-- What the text of a page is ordered by. -/
def orderBody? (text : List Char) : Option (List Char) :=
  (behind? " ORDER BY ".toList text).map (before " OFFSET ".toList)

/-- The order of the page that a statement reads. -/
def Statement.order? : Statement → Option Order
  | .pageFiltered _ order _ _ => some order
  | .pageMatching _ order _ _ => some order
  | _ => none

/-- The text of a page is ordered by the columns of its order. The list of tokens has an order of
its own, and no other text has one. -/
theorem Statement.orderBody?_sql {q : Statement} (other : q ≠ .listTokens) :
    orderBody? q.sql.toList = q.order?.map fun order => order.sql.toList := by
  unfold sql statusColumns tokenColumns filterCondition searchCondition orderBody?
  cases q with
  | pageFiltered filter order offset limit =>
    cases order <;>
    · simp only [Order.sql, String.toList_append, order?, Option.map_some]
      repeat rw [String.toList_ofList]
      decide +kernel
  | pageMatching pattern order offset limit =>
    cases order <;>
    · simp only [Order.sql, String.toList_append, order?, Option.map_some]
      repeat rw [String.toList_ofList]
      decide +kernel
  | listTokens => exact absurd rfl other
  | _ =>
    simp only [String.toList_append, order?, Option.map_none]
    repeat rw [String.toList_ofList]
    decide +kernel

namespace Access

variable {a b : Access}

/-- A listing or a search issues a count, which has no order, and a page in the order of its
kind. -/
theorem orderBodies_eq {order : Order} (ordered : a.kind.order? = some order) :
    a.statements.map (fun q => orderBody? q.sql.toList) = [none, some order.sql.toList] := by
  have bodies : a.statements.map (fun q => orderBody? q.sql.toList) =
      a.statements.map fun q => q.order?.map fun order => order.sql.toList := by
    refine List.map_congr_left fun q member => Statement.orderBody?_sql ?_
    rintro rfl
    cases a with
    | listTokens => cases ordered
    | _ => simp [statements] at member
  rw [bodies]
  cases a with
  | list page size hint filter =>
    cases ordered
    rw [← PageRequest.order_make page size hint]
    rfl
  | search text page size hint =>
    cases ordered
    rw [← PageRequest.order_make page size hint]
    rfl
  | _ => cases ordered

/-- A statement that reaches the store has the text that stands in its place. -/
theorem getElem?_texts {w : World} {k : Nat} {q : Statement}
    (reached : (w.asked a.program)[k]? = some q) :
    (a.statements.map Statement.sql)[k]? = some q.sql := by
  obtain ⟨rest, whole⟩ := a.issues.asked_prefix w
  have inside : k < (w.asked a.program).length := (List.getElem?_eq_some_iff.mp reached).1
  rw [← whole, List.getElem?_map, List.getElem?_append_left inside, reached, Option.map_some]

/-- The four things that a page may be ordered by. -/
def orderBodies : List String :=
  ["order_number, created_at, updated_at, id", "name, created_at, updated_at, id",
    "created_at, order_number, id", "updated_at DESC, order_number, id"]

/-- The texts of the statements that reach the store are those of the kind of what is asked, in two
runs in any worlds and whatever answers come between. They are all of them if nothing fails and there
is something to list. The order of a page is one of four, what asks
for no page has one text, and the values that accompany a text are those of its placeholders. -/
theorem texts_are_of_kind (same : a.kind = b.kind) (w v : World) :
    w.asked a.program <+: a.statements ∧
    (∀ result, (w.run a.program).value = some result → ¬a.IsShort result →
      w.asked a.program = a.statements) ∧
    (∀ {past c next}, Leads a.program past (.call c next) →
      ∃ q, c = .query q ∧ a.statements[past.length]? = some q) ∧
    a.statements.map Statement.sql = b.statements.map Statement.sql ∧
    (∀ {k : Nat} {q r : Statement}, (w.asked a.program)[k]? = some q →
      (v.asked b.program)[k]? = some r → q.sql = r.sql) ∧
    (∀ {order : Order}, a.kind.order? = some order → order.sql ∈ orderBodies ∧
      a.statements.map (fun q => orderBody? q.sql.toList) = [none, some order.sql.toList]) ∧
    (a.kind.order? = none → a.statements.length = 1) ∧
    ∀ q : Statement, q.IsAligned := by
  refine ⟨a.issues.asked_prefix w, fun _ => a.issues.asked_eq, a.issues.at_leads, texts_eq same,
    ?paired, ?ordered, ?unordered, Statement.isAligned⟩
  case paired =>
    intro k q r first second
    have found := getElem?_texts first
    rw [texts_eq same, getElem?_texts second] at found
    exact (Option.some.inj found).symm
  case ordered =>
    intro order ordered
    refine ⟨?_, orderBodies_eq ordered⟩
    cases order <;> decide
  case unordered =>
    intro unordered
    cases a <;> first | rfl | cases unordered

end Access

namespace Sample

/-- A listing whose filter and hint read like parts of a statement. -/
def crafted : Access :=
  .list (some 7) none (some "name; DROP TABLE status") ⟨some "x' OR '1'='1", none, none, none⟩

/-- A listing that wants nothing in particular. -/
def plain : Access := .list none none none ⟨none, none, none, none⟩

end Sample

open Sample in
/-- What reads like a part of a statement stays a value, and a listing that finds something has asked
for its page. -/
theorem crafted_values_stay_values : crafted.kind = plain.kind ∧
    crafted.statements ≠ plain.statements ∧
    crafted.statements.map Statement.sql = plain.statements.map Statement.sql ∧
    world.asked plain.program = plain.statements := by
  have same : crafted.kind = plain.kind := by decide
  have texts := (Access.texts_are_of_kind same world world).2.2.2.1
  have complete := (Access.texts_are_of_kind (rfl : plain.kind = plain.kind) world world).2.1
  obtain ⟨listing, given, counted⟩ : ∃ listing,
      (world.run plain.program).value = some (.ok listing) ∧ listing.totalCount ≠ 0 :=
    ⟨_, rfl, by decide⟩
  exact ⟨same, by decide, texts, complete _ given fun short => counted (short listing rfl)⟩

end StatusRegistry
