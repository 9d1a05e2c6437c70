import Mathlib.Data.List.Dedup

/-!
# batch（`ral::frame::BlazingTable`）

aggregation pipeline を流れる batch のモデル。cudf の table は列ごとに値を持つが、
ここでは行の列として書く。列名の並びと行の並びを持ち、どの行も列名と同じ数の値を持つ。
この条件は structure の field なので、幅の揃わない batch は作れない。

## 値

値は `Option Int` で、`none` が SQL の null である。列の型（cudf の dtype）は持たず、
どの列の値も正確な整数として扱う。

これは算術が正確だという仮定である。正確な整数の SUM・MIN・MAX・COUNT は結合的で可換なので、
batch をどう分け、部分結果をどの順に Merge に渡しても、結果は同じになる。分散 aggregation の
法則はこれに拠る。浮動小数点の列の SUM は一回ごとに丸めるので結合的でなく、分け方と順で結果が
変わりうる。整数の列でも、cudf の SUM は 64 bit で桁あふれしうる。この二つの場合について、
このモデルの定理は何も言わない。

## 失敗

kernel が呼ぶ primitive は、table の外の列を指すと失敗する（cudf は例外を投げる）。
null の table を参照するのは C++ では未定義動作だが、ここでは失敗の一つとして値にする。
-/

namespace BlazingSql

/-- 一つの値。`none` が null。 -/
abbrev Value := Option Int

/-- 一つの行。列の位置で値を引く。 -/
abbrev Row := List Value

/-- 列 `cols` の値を並べた tuple。group key と hash の入力はこれである。 -/
def rowKey (cols : List Nat) (r : Row) : Row := cols.map (fun i => r.getD i none)

@[simp] theorem length_rowKey (cols : List Nat) (r : Row) : (rowKey cols r).length = cols.length :=
  List.length_map _ _

/-- 先頭 `k` 列の key は、長さ `k` の key をそのまま返す。 -/
theorem rowKey_range_append {key : Row} (rest : Row) :
    rowKey (List.range key.length) (key ++ rest) = key := by
  apply List.ext_getElem (by simp)
  intro i h1 h2
  simp only [rowKey, List.getElem_map, List.getElem_range]
  simp only [length_rowKey, List.length_range] at h1
  rw [List.getD_eq_getElem?_getD, List.getElem?_append_left h1, List.getElem?_eq_getElem h1]
  rfl

/-- kernel が起こしうる失敗。spec §7 の分類のうち、このモデルで起きるもの。 -/
inductive Failure where
  /-- null の table を参照した。 -/
  | nullTable
  /-- 幅 `width` の table の、位置 `index` の列を指した。 -/
  | columnOutOfRange (index width : Nat)
  /-- 列の数の違う table をつなごうとした。 -/
  | schemaMismatch
  deriving DecidableEq, Repr

/-- `ral::frame::BlazingTable`。どの行も列名と同じ数の値を持つ。 -/
@[ext]
structure BlazingTable where
  names : List String
  rows : List Row
  width : ∀ r ∈ rows, r.length = names.length

namespace BlazingTable

/-- `num_rows()` -/
def numRows (t : BlazingTable) : Nat := t.rows.length

/-- 行の一部を残した table。列名は変わらない。 -/
def withRows (t : BlazingTable) (rows : List Row) (h : ∀ r ∈ rows, r ∈ t.rows) : BlazingTable :=
  ⟨t.names, rows, fun r hr => t.width r (h r hr)⟩

/-- 先頭の `n` 行を落とす。 -/
def drop (t : BlazingTable) (n : Nat) : BlazingTable :=
  t.withRows (t.rows.drop n) (fun _ => List.mem_of_mem_drop)

/-- 先頭の `n` 行だけを残す。 -/
def take (t : BlazingTable) (n : Nat) : BlazingTable :=
  t.withRows (t.rows.take n) (fun _ => List.mem_of_mem_take)

/-- 条件を満たす行だけを残す。 -/
def filter (t : BlazingTable) (p : Row → Bool) : BlazingTable :=
  t.withRows (t.rows.filter p) (fun _ h => List.mem_of_mem_filter h)

/-- 同じ幅の列名に付け替える（`BlazingTableView(view, names)`）。 -/
def rename (t : BlazingTable) (names : List String) (h : names.length = t.names.length) :
    BlazingTable :=
  ⟨names, t.rows, fun r hr => h ▸ t.width r hr⟩

@[simp] theorem withRows_names (t : BlazingTable) (rows : List Row) (h) :
    (t.withRows rows h).names = t.names := rfl
@[simp] theorem withRows_rows (t : BlazingTable) (rows : List Row) (h) :
    (t.withRows rows h).rows = rows := rfl
@[simp] theorem drop_names (t : BlazingTable) (n : Nat) : (t.drop n).names = t.names := rfl
@[simp] theorem drop_rows (t : BlazingTable) (n : Nat) : (t.drop n).rows = t.rows.drop n := rfl
@[simp] theorem take_names (t : BlazingTable) (n : Nat) : (t.take n).names = t.names := rfl
@[simp] theorem take_rows (t : BlazingTable) (n : Nat) : (t.take n).rows = t.rows.take n := rfl
@[simp] theorem filter_names (t : BlazingTable) (p : Row → Bool) : (t.filter p).names = t.names :=
  rfl
@[simp] theorem filter_rows (t : BlazingTable) (p : Row → Bool) :
    (t.filter p).rows = t.rows.filter p := rfl
@[simp] theorem rename_names (t : BlazingTable) (names : List String) (h) :
    (t.rename names h).names = names := rfl
@[simp] theorem rename_rows (t : BlazingTable) (names : List String) (h) :
    (t.rename names h).rows = t.rows := rfl

end BlazingTable

/-- `ral::utilities::create_empty_table(view)`。同じ列名で行のない table。 -/
def createEmptyTable (t : BlazingTable) : BlazingTable := ⟨t.names, [], by simp⟩

@[simp] theorem createEmptyTable_names (t : BlazingTable) : (createEmptyTable t).names = t.names :=
  rfl
@[simp] theorem createEmptyTable_rows (t : BlazingTable) : (createEmptyTable t).rows = [] := rfl

/-- 列が `t` の中にあるかを確かめる。外なら最初に外れた列で失敗する。 -/
def checkColumns (t : BlazingTable) (cols : List Nat) : Except Failure Unit :=
  match cols.find? (fun i => t.names.length ≤ i) with
  | some i => .error (.columnOutOfRange i t.names.length)
  | none => .ok ()

theorem checkColumns_eq_ok {t : BlazingTable} {cols : List Nat} :
    checkColumns t cols = .ok () ↔ ∀ i ∈ cols, i < t.names.length := by
  unfold checkColumns
  split
  · rename_i i hi
    simp only [reduceCtorEq, false_iff, not_forall, not_lt]
    have := List.find?_some hi
    exact ⟨i, List.mem_of_find?_eq_some hi, by simpa using this⟩
  · rename_i hn
    simp only [List.find?_eq_none, decide_eq_true_eq, not_le] at hn
    simpa using hn

/--
Modelled from the spec: `concatTables(views) → batch`。行を順につなぐ。
列名は先頭の table のもの。列の数が違えば `schemaMismatch`（spec §7 の SchemaMismatch）。
table が一つもなければ列名の出どころがなく、null を返す。
呼ぶ側の `concatenated ? concatenated->num_rows() : 0` はこの null を見越している。
-/
def concatTables : List BlazingTable → Except Failure (Option BlazingTable)
  | [] => .ok none
  | t :: ts =>
    if h : ∀ u ∈ ts, u.names.length = t.names.length then
      .ok (some ⟨t.names, t.rows ++ (ts.map BlazingTable.rows).flatten, by
        intro r hr
        simp only [List.mem_append, List.mem_flatten, List.mem_map] at hr
        rcases hr with hr | ⟨_, ⟨u, hu, rfl⟩, hr⟩
        · exact t.width r hr
        · rw [u.width r hr, h u hu]⟩)
    else .error .schemaMismatch

/-- 空でない列をつなぐと、行は全部の table の行を順につないだものになる。 -/
theorem concatTables_rows {t : BlazingTable} {ts : List BlazingTable}
    (h : ∀ u ∈ ts, u.names.length = t.names.length) :
    ∃ c, concatTables (t :: ts) = .ok (some c) ∧ c.names = t.names ∧
      c.rows = ((t :: ts).map BlazingTable.rows).flatten := by
  simp only [concatTables, dif_pos h]
  exact ⟨_, rfl, rfl, rfl⟩

end BlazingSql
