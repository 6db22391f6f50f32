import StatusRegistry.Text.Blank

/-!
# Pages and orders

A listing is asked for by a page number, a page size and a hint for the order. The number and size
are brought within bounds when the request is made, so every later computation sees a page of at
least one row. A hint selects one of four fixed orders and is never part of a statement.

How many pages a result has is computed in signed words, and what becomes of a result that does not
fit depends on the build. The released build wraps around. The builds for development and for tests
check every operation and panic, which is `none` here.
-/

namespace StatusRegistry

/-- The orders a listing may have. -/
inductive Order where
  | orderNumber
  | name
  | createdAt
  | updatedAt
  deriving DecidableEq, Repr

namespace Order

/-- The order a hint asks for: blank ends and letter case do not matter, and any unknown hint asks
for the default. -/
def ofHint (hint : Option String) : Order :=
  match hint.map fun h => String.ofList ((trimBlank h.toList).map Char.toLower) with
  | some "name" => .name
  | some "created_at" => .createdAt
  | some "updated_at" => .updatedAt
  | _ => .orderNumber

/-- The columns of an order; the identifier comes last and breaks every tie. -/
def sql : Order → String
  | .orderNumber => "order_number, created_at, updated_at, id"
  | .name => "name, created_at, updated_at, id"
  | .createdAt => "created_at, order_number, id"
  | .updatedAt => "updated_at DESC, order_number, id"

end Order

/-- A request for one page. -/
structure PageRequest where
  page : UInt32
  size : UInt32
  orderBy : Option String
  deriving DecidableEq, Repr

namespace PageRequest

/-- The page taken when none is asked for. -/
def defaultPage : UInt32 := 1

/-- The page size taken when none is asked for. -/
def defaultSize : UInt32 := 10

/-- The largest page size. -/
def maxSize : UInt32 := 100

/-- A request within bounds: the first page is 1, a page has 1 to 100 rows, and a blank hint is no
hint. -/
def make (page size : Option UInt32) (orderBy : Option String) : PageRequest where
  page := max (page.getD defaultPage) 1
  size := min (max (size.getD defaultSize) 1) maxSize
  orderBy := orderBy.filter fun hint => !isBlankText hint

/-- The order a request asks for. -/
def order (q : PageRequest) : Order := Order.ofHint q.orderBy

/-- An unsigned word as a signed one of twice the width. -/
def widen (n : UInt32) : Int64 := Int64.ofNat n.toNat

/-- The number of rows before the page. -/
def offset (q : PageRequest) : Int64 := (widen q.page - 1) * widen q.size

/-- The greatest number of rows on the page. -/
def limit (q : PageRequest) : Int64 := widen q.size

/-- The number of pages that `total` rows fill, in a released build: words wrap around. -/
def totalPages (q : PageRequest) (total : Int64) : Int64 :=
  if total ≤ 0 then 0 else (total + widen q.size - 1) / widen q.size

/-- Whether rows follow the page. -/
def hasMore (q : PageRequest) (total : Int64) : Bool :=
  widen q.page * widen q.size < total

/-- The result of an operation on words, if it is the result among the integers. A build with
overflow checks panics where it is not. -/
def checked (onIntegers : Int → Int → Int) (onWords : Int64 → Int64 → Int64) (a b : Int64) :
    Option Int64 :=
  if (onWords a b).toInt = onIntegers a.toInt b.toInt then some (onWords a b) else none

/-- The number of rows before the page, in a build with overflow checks. -/
def offset? (q : PageRequest) : Option Int64 := do
  let before ← checked (· - ·) (· - ·) (widen q.page) 1
  checked (· * ·) (· * ·) before (widen q.size)

/-- The number of pages that `total` rows fill, in a build with overflow checks. -/
def totalPages? (q : PageRequest) (total : Int64) : Option Int64 :=
  if total ≤ 0 then some 0 else do
    let sum ← checked (· + ·) (· + ·) total (widen q.size)
    let rounded ← checked (· - ·) (· - ·) sum 1
    checked Int.tdiv (· / ·) rounded (widen q.size)

/-- Whether rows follow the page, in a build with overflow checks. -/
def hasMore? (q : PageRequest) (total : Int64) : Option Bool := do
  let reached ← checked (· * ·) (· * ·) (widen q.page) (widen q.size)
  return decide (reached < total)

end PageRequest

end StatusRegistry
