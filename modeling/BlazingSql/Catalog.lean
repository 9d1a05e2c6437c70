import Mathlib

/-!
# `CatalogTableImpl`

calcite の catalog の table。列は名前を key にした `HashMap` に入れ、`getColumns` で
自然な順に並べ直して返す。

* `HashMap<String, CatalogColumnImpl>` は key の重複のない組の列 `ColumnMap` で表す。
  `put` は同じ key があれば値を置き換える。
* `values()` を反復する順は `HashMap` の中で決まり、ここでは決めない。`getColumns` はその順を
  引数に取り、定理はどの順についても述べる。
* `CatalogTableImpl(name, db, columns)` は、列を順にその名前で `put` する。`orderValue` は
  呼ぶ側が列に入れておいたもので、重なることもある。
* `name` のほかの field（`database`、`rowcount`、`id`）と `setTable` は `getColumns` が読まないので
  書かない。
-/

namespace BlazingSql

/-- `CatalogColumnImpl` のうち、ここで読むもの。 -/
structure CatalogColumnImpl where
  columnName : String
  columnDataType : String
  orderValue : Nat
  deriving DecidableEq, Repr

/-- `CatalogColumnImpl.compareTo`。このクラスは src/ に無く、spec も列の順を述べないので、
これは仮定である。列の自然な順は field `orderValue`（Java の `int`。src/ の constructor は列の
位置 `i` を入れる）の順とし、`orderValue` を `Nat` で書く。負の値と、引き算の overflow は扱わない。 -/
def CatalogColumnImpl.compareTo (a b : CatalogColumnImpl) : Int := a.orderValue - b.orderValue

/-- `HashMap<String, CatalogColumnImpl>`。key は重複しない。 -/
structure ColumnMap where
  entries : List (String × CatalogColumnImpl)
  nodup : (entries.map Prod.fst).Nodup

namespace ColumnMap

/-- `new HashMap<String, CatalogColumnImpl>()` -/
def empty : ColumnMap := ⟨[], List.nodup_nil⟩

/-- key `key` の値を `value` に置き換えても、key の列は変わらない。 -/
theorem map_fst_replace (entries : List (String × CatalogColumnImpl)) (key : String)
    (value : CatalogColumnImpl) :
    (entries.map fun e => if e.1 = key then (key, value) else e).map Prod.fst =
      entries.map Prod.fst := by
  rw [List.map_map]
  exact List.map_congr_left fun e _ => by by_cases h : e.1 = key <;> simp [h]

/-- `put(key, value)`。同じ key があれば値を置き換え、なければ後ろに加える。 -/
def put (m : ColumnMap) (key : String) (value : CatalogColumnImpl) : ColumnMap :=
  if h : key ∈ m.entries.map Prod.fst then
    ⟨m.entries.map fun e => if e.1 = key then (key, value) else e,
      (map_fst_replace m.entries key value).symm ▸ m.nodup⟩
  else
    ⟨m.entries ++ [(key, value)], by
      rw [List.map_append, List.nodup_append]
      exact ⟨m.nodup, List.nodup_singleton _, List.disjoint_singleton.mpr h⟩⟩

/-- `values()`。 -/
def values (m : ColumnMap) : List CatalogColumnImpl := m.entries.map Prod.snd

end ColumnMap

/-- `CatalogTableImpl` のうち、`getColumns` が読むもの。 -/
structure CatalogTableImpl where
  name : String
  tableColumns : ColumnMap

/-- `CatalogTableImpl(name, db, columnNames, columnTypes)` の loop。列 `i` を作って `put` する。
`columnTypes.get(i)` は `i` が範囲の外なら例外を投げ、`none` になる。 -/
def putColumns (columnTypes : List String) : Nat → List String → ColumnMap → Option ColumnMap
  | _, [], tableColumns => some tableColumns
  | i, columnName :: columnNames, tableColumns => do
    let columnDataType ← columnTypes[i]?
    putColumns columnTypes (i + 1) columnNames
      (tableColumns.put columnName ⟨columnName, columnDataType, i⟩)

/-- `CatalogTableImpl(name, db, columnNames, columnTypes)` -/
def CatalogTableImpl.ofNames (name : String) (columnNames columnTypes : List String) :
    Option CatalogTableImpl :=
  (fun tableColumns => ⟨name, tableColumns⟩) <$> putColumns columnTypes 0 columnNames .empty

/-- `CatalogTableImpl(name, db, columns)` と `CatalogTableImpl(name, db, columns, rowcount)` の loop。
列を順に、その名前を key にして `put` する。`column.setTable(this)` は `getColumns` が読まないので
書かない。 -/
def putAll (tableColumns : ColumnMap) : List CatalogColumnImpl → ColumnMap
  | [] => tableColumns
  | column :: columns => putAll (tableColumns.put column.columnName column) columns

/-- `CatalogTableImpl(name, db, columns)`。`rowcount` を取る constructor も、列については同じ。
列の `orderValue` は呼ぶ側が決める。 -/
def CatalogTableImpl.ofColumns (name : String) (columns : List CatalogColumnImpl) :
    CatalogTableImpl :=
  ⟨name, putAll .empty columns⟩

/-- `getColumns()`。`tableColumns.values()` を `iteration` の順に取り出し、`Collections.sort`
（安定な merge sort）で並べる。`LinkedHashSet` は別の object を一つずつ入れるので、並びを変えない。 -/
def CatalogTableImpl.getColumns (iteration : List CatalogColumnImpl) : List CatalogColumnImpl :=
  iteration.mergeSort fun a b => decide (a.compareTo b ≤ 0)

end BlazingSql
