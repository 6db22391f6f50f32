import StatusRegistry.Store

/-!
# Orders of rows

An order names its columns from the first to the last, and the identifier is always the last. Rows
compare by the first column in which they differ, so rows with different identifiers never tie, and
one arrangement of a table is as good as another for sorting it. This holds under every collation.
-/

namespace StatusRegistry

open Std

/-- A column that rows are ordered by, the latest first where the name says so. -/
inductive Column where
  | orderNumber
  | name
  | createdAt
  | updatedAt
  | latestUpdate
  | id
  deriving DecidableEq, Repr

namespace Column

/-- How a column is named in a statement. -/
def sql : Column → String
  | .orderNumber => "order_number"
  | .name => "name"
  | .createdAt => "created_at"
  | .updatedAt => "updated_at"
  | .latestUpdate => "updated_at DESC"
  | .id => "id"

/-- How two rows compare in a column, under a collation. -/
def compareRows (c : Collation) : Column → Status → Status → Ordering
  | .orderNumber, a, b => compare a.orderNumber.toInt b.orderNumber.toInt
  | .name, a, b => c.compareTexts a.name b.name
  | .createdAt, a, b => Store.compareInstants a.createdAt b.createdAt
  | .updatedAt, a, b => Store.compareInstants a.updatedAt b.updatedAt
  | .latestUpdate, a, b => Store.compareInstants b.updatedAt a.updatedAt
  | .id, a, b => Store.compareDigits a.id.digits b.id.digits

end Column

/-- The columns of an order. -/
def Order.columns : Order → List Column
  | .orderNumber => [.orderNumber, .createdAt, .updatedAt, .id]
  | .name => [.name, .createdAt, .updatedAt, .id]
  | .createdAt => [.createdAt, .orderNumber, .id]
  | .updatedAt => [.latestUpdate, .orderNumber, .id]

/-- The text of an order lists its columns. -/
theorem Order.sql_eq (order : Order) : order.sql = ", ".intercalate (order.columns.map Column.sql) := by
  cases order <;> rfl

/-- The last column of an order is the identifier. -/
theorem Order.id_mem_columns (order : Order) : .id ∈ order.columns := by
  cases order <;> decide

/-- How two rows compare by some columns, of which the first counts most. -/
def compareBy (c : Collation) : List Column → Status → Status → Ordering
  | [], _, _ => .eq
  | column :: rest, a, b => (column.compareRows c a b).then (compareBy c rest a b)

/-- A row comes before another by the first column in which they differ. -/
def Order.Precedes (c : Collation) (order : Order) (a b : Status) : Prop :=
  ∃ front column back, order.columns = front ++ column :: back ∧
    (∀ equal ∈ front, equal.compareRows c a b = .eq) ∧ column.compareRows c a b = .lt

namespace Store

/-- Digits compare as lists of their values. -/
theorem compareDigits_eq : compareDigits = List.compareLex (compareOn Fin.val) := by
  funext as bs
  induction as generalizing bs with
  | nil => cases bs <;> rfl
  | cons a as ih =>
    cases bs with
    | nil => rfl
    | cons b bs => rw [compareDigits, ih, List.compareLex_cons_cons, compareOn]

instance : TransCmp compareInstants :=
  inferInstanceAs (TransCmp (compareLex (compareOn Instant.seconds) (compareOn Instant.nanos)))

instance : TransCmp compareDigits := compareDigits_eq ▸ inferInstance

/-- Digits that compare as equal are equal. -/
theorem eq_of_compareDigits {as bs : List (Fin 16)} (same : compareDigits as bs = .eq) : as = bs := by
  induction as generalizing bs with
  | nil =>
    cases bs with
    | nil => rfl
    | cons b bs => cases same
  | cons a as ih =>
    cases bs with
    | nil => cases same
    | cons b bs =>
      rw [compareDigits, Ordering.then_eq_eq, Nat.compare_eq_eq] at same
      rw [Fin.ext same.1, ih same.2]

end Store

/-- An order of values orders whatever has such a value. -/
theorem transCmp_on {α β : Type} (cmp : β → β → Ordering) [TransCmp cmp] (f : α → β) :
    TransCmp fun a b => cmp (f a) (f b) where
  eq_swap := @fun a b => (OrientedCmp.eq_swap : cmp (f a) (f b) = _)
  isLE_trans := @fun a b _ (first : (cmp (f a) (f b)).isLE) second =>
    TransCmp.isLE_trans first second

variable (c : Collation)

instance (column : Column) : TransCmp (column.compareRows c) := by
  cases column with
  | orderNumber => exact transCmp_on compare fun s : Status => s.orderNumber.toInt
  | name => exact transCmp_on c.compareTexts Status.name
  | createdAt => exact transCmp_on Store.compareInstants Status.createdAt
  | updatedAt => exact transCmp_on Store.compareInstants Status.updatedAt
  | latestUpdate => exact transCmp_on (fun s t => Store.compareInstants t s) Status.updatedAt
  | id => exact transCmp_on Store.compareDigits fun s : Status => s.id.digits

instance (columns : List Column) : TransCmp (compareBy c columns) := by
  induction columns with
  | nil => exact { eq_swap := rfl, isLE_trans := fun _ _ => rfl }
  | cons column rest ih =>
    exact inferInstanceAs (TransCmp (compareLex (column.compareRows c) (compareBy c rest)))

variable {c}

/-- Rows that are equal in some columns are equal in each. -/
theorem compareBy_eq_eq {columns : List Column} {a b : Status} :
    compareBy c columns a b = .eq ↔ ∀ column ∈ columns, column.compareRows c a b = .eq := by
  induction columns with
  | nil => simp [compareBy]
  | cons column rest ih => rw [compareBy, Ordering.then_eq_eq, ih, List.forall_mem_cons]

/-- A row that comes before another by some columns does so by the first in which they differ. -/
theorem exists_of_compareBy_eq_lt {columns : List Column} {a b : Status}
    (lt : compareBy c columns a b = .lt) :
    ∃ front column back, columns = front ++ column :: back ∧
      (∀ equal ∈ front, equal.compareRows c a b = .eq) ∧ column.compareRows c a b = .lt := by
  induction columns with
  | nil => cases lt
  | cons column rest ih =>
    rw [compareBy, Ordering.then_eq_lt] at lt
    rcases lt with here | ⟨equal, later⟩
    · exact ⟨[], column, rest, rfl, nofun, here⟩
    · obtain ⟨front, other, back, rfl, before, there⟩ := ih later
      exact ⟨column :: front, other, back, rfl, List.forall_mem_cons.mpr ⟨equal, before⟩, there⟩

/-- Rows compare in an order as they do by its columns. -/
theorem compareStatuses_eq (c : Collation) (order : Order) :
    Store.compareStatuses c order = compareBy c order.columns := by
  funext a b
  have latest : (Store.compareInstants a.updatedAt b.updatedAt).swap =
      Store.compareInstants b.updatedAt a.updatedAt := OrientedCmp.eq_swap.symm
  cases order <;>
    simp only [Store.compareStatuses, Order.columns, compareBy, Column.compareRows, latest,
      Ordering.then_assoc, Ordering.then_eq]

namespace Store

/-- The rows in an order. -/
def sorted (c : Collation) (order : Order) (rows : List Status) : List Status :=
  rows.mergeSort fun a b => (compareStatuses c order a b).isLE

/-- A page is a part of the sorted rows. -/
theorem page_eq (c : Collation) (rows : List Status) (order : Order) (offset limit : Int64) :
    page c rows order offset limit =
      ((sorted c order rows).drop offset.toNatClampNeg).take limit.toNatClampNeg := rfl

/-- Sorting keeps every row. -/
theorem sorted_perm (c : Collation) (order : Order) (rows : List Status) :
    (sorted c order rows).Perm rows :=
  List.mergeSort_perm rows _

/-- Sorting keeps the number of rows. -/
theorem length_sorted (c : Collation) (order : Order) (rows : List Status) :
    (sorted c order rows).length = rows.length :=
  (sorted_perm c order rows).length_eq

instance (c : Collation) (order : Order) : TransCmp (compareStatuses c order) :=
  compareStatuses_eq c order ▸ inferInstance

/-- Different identifiers tell rows apart in every order. -/
theorem id_eq_of_compareStatuses {order : Order} {a b : Status}
    (same : compareStatuses c order a b = .eq) : a.id = b.id := by
  rw [compareStatuses_eq, compareBy_eq_eq] at same
  have digits : a.id.digits = b.id.digits := eq_of_compareDigits (same .id order.id_mem_columns)
  have ext : ∀ u v : Uuid, u.digits = v.digits → u = v := by
    rintro ⟨_, _⟩ ⟨_, _⟩ ⟨⟩
    rfl
  exact ext _ _ digits

/-- Sorted rows with different identifiers come strictly one after the other. -/
theorem sorted_pairwise (c : Collation) (order : Order) {rows : List Status}
    (distinct : (rows.map Status.id).Nodup) :
    (sorted c order rows).Pairwise fun a b => compareStatuses c order a b = .lt := by
  have weakly : (sorted c order rows).Pairwise fun a b => (compareStatuses c order a b).isLE :=
    List.pairwise_mergeSort (fun _ _ _ => TransCmp.isLE_trans) (fun a b => by
      have swap : compareStatuses c order b a = (compareStatuses c order a b).swap :=
        OrientedCmp.eq_swap
      rw [swap]
      cases compareStatuses c order a b <;> rfl) rows
  have apart : (sorted c order rows).Pairwise fun a b => a.id ≠ b.id :=
    List.pairwise_map.mp (((sorted_perm c order rows).map Status.id).nodup_iff.mpr distinct)
  refine weakly.imp₂ (fun a b le ne => ?_) apart
  cases same : compareStatuses c order a b with
  | lt => rfl
  | eq => exact absurd (id_eq_of_compareStatuses same) ne
  | gt =>
    rw [same] at le
    cases le

end Store

/-- A row comes before another by some columns if it does so by the first in which they differ. -/
theorem compareBy_eq_lt {columns front back : List Column} {column : Column} {a b : Status}
    (split : columns = front ++ column :: back)
    (before : ∀ equal ∈ front, equal.compareRows c a b = .eq)
    (lt : column.compareRows c a b = .lt) : compareBy c columns a b = .lt := by
  subst split
  induction front with
  | nil => exact Ordering.then_eq_lt.mpr (.inl lt)
  | cons first front ih =>
    obtain ⟨equal, before⟩ := List.forall_mem_cons.mp before
    exact Ordering.then_eq_lt.mpr (.inr ⟨equal, ih before⟩)

/-- A row comes before another exactly if it compares as less. -/
theorem Order.precedes_iff {order : Order} {a b : Status} :
    order.Precedes c a b ↔ Store.compareStatuses c order a b = .lt := by
  rw [compareStatuses_eq]
  constructor
  · exact fun ⟨_, _, _, split, before, lt⟩ => compareBy_eq_lt split before lt
  · exact exists_of_compareBy_eq_lt

/-- Rows that come strictly one after the other can be arranged so in one way only. -/
theorem Order.eq_of_precedes {order : Order} {rows others : List Status}
    (perm : rows.Perm others) (ordered : rows.Pairwise (order.Precedes c))
    (othersOrdered : others.Pairwise (order.Precedes c)) : rows = others := by
  refine List.Perm.eq_of_pairwise (fun a b _ _ first second => ?_) ordered othersOrdered perm
  rw [precedes_iff] at first second
  exact absurd second (OrientedCmp.not_lt_of_lt first)

namespace Store

/-- Sorted rows with different identifiers stand as the columns of the order tell. -/
theorem sorted_precedes (c : Collation) (order : Order) {rows : List Status}
    (distinct : (rows.map Status.id).Nodup) :
    (sorted c order rows).Pairwise (order.Precedes c) :=
  (sorted_pairwise c order distinct).imp Order.precedes_iff.mpr

/-- Sorting does not depend on how rows with different identifiers are arranged. -/
theorem sorted_eq_of_perm (c : Collation) (order : Order) {rows others : List Status}
    (perm : rows.Perm others) (distinct : (rows.map Status.id).Nodup) :
    sorted c order rows = sorted c order others := by
  have same : (sorted c order rows).Perm (sorted c order others) :=
    (sorted_perm c order rows).trans (perm.trans (sorted_perm c order others).symm)
  exact Order.eq_of_precedes same (sorted_precedes c order distinct)
    (sorted_precedes c order ((perm.map Status.id).nodup_iff.mp distinct))

end Store

end StatusRegistry
