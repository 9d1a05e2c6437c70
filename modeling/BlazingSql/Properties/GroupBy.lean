import BlazingSql.Operators
import Mathlib.Data.List.Perm.Lattice

/-!
# 部分結果の group-by を merge する

batch ごとの部分結果の行は `key ++ aggregateRow aggs (その key の行)` の形をしている。
それを全部集め、key で group し直して書き換えた演算をかけると、
全部の行に一度 group-by をかけたものと同じ行になる。

* `filter_partialRows` — 部分結果の中で key が `κ` の行は、その batch に `κ` があれば一つだけ
* `aggregateRow_merge` — key `κ` の部分結果に書き換えた演算をかけると、全部の行の
  key `κ` の group に元の演算をかけたものになる
* `groupRow_merge` — 部分結果の一部 `X` が key `κ` の部分結果を全部含むなら、
  `X` で作った `κ` の行は、全部の行で作った `κ` の行に等しい
* `aggregateRow_perm`・`groupKeys_perm` — group-by は行の順序によらない
-/

namespace BlazingSql

/-! ## 行の順序によらない -/

theorem aggregateRow_perm (aggs : List (AggregateKind × Nat)) {X Y : List Row} (h : X.Perm Y) :
    aggregateRow aggs X = aggregateRow aggs Y :=
  List.map_congr_left fun a _ => aggregate_perm a.1 (h.map _)

theorem groupKeys_perm (g : List Nat) {X Y : List Row} (h : X.Perm Y) :
    (groupKeys g X).Perm (groupKeys g Y) :=
  (h.map _).dedup

theorem nodup_groupKeys (g : List Nat) (rows : List Row) : (groupKeys g rows).Nodup :=
  List.nodup_dedup _

theorem mem_groupKeys {g : List Nat} {rows : List Row} {key : Row} :
    key ∈ groupKeys g rows ↔ ∃ r ∈ rows, rowKey g r = key := by
  simp [groupKeys]

/-- 重複のない列から一つの値を選ぶ。 -/
theorem filter_eq_of_nodup {α : Type} [DecidableEq α] {a : α} :
    ∀ {l : List α}, l.Nodup → l.filter (fun x => decide (x = a)) = if a ∈ l then [a] else []
  | [], _ => by simp
  | x :: l, hnd => by
    have ⟨hx, hnd'⟩ := List.nodup_cons.mp hnd
    rw [List.filter_cons, filter_eq_of_nodup hnd']
    by_cases hxa : x = a
    · subst hxa; simp [hx]
    · simp [hxa, Ne.symm hxa]

/-! ## 部分結果の行 -/

section Partial

variable (g : List Nat) (aggs : List (AggregateKind × Nat))

/-- 一つの batch の部分結果の行。`computeAggregationsWithGroupby` の出力の行である。 -/
def partialRows (rows : List Row) : List Row := (groupKeys g rows).map (groupRow g aggs rows)

variable {g aggs}

/-- 部分結果の行の先頭 `k` 列は、その行の key である。 -/
theorem rowKey_groupRow {rows : List Row} {key : Row} (h : key ∈ groupKeys g rows) :
    rowKey (List.range g.length) (groupRow g aggs rows key) = key := by
  rw [groupRow, ← length_of_mem_groupKeys h, rowKey_range_append]

/-- 部分結果の行は、入力の行の順序によらない（並べ替えを除いて）。 -/
theorem partialRows_perm {X Y : List Row} (h : X.Perm Y) :
    (partialRows g aggs X).Perm (partialRows g aggs Y) := by
  have hrow : groupRow g aggs X = groupRow g aggs Y :=
    funext fun key => by rw [groupRow, groupRow, aggregateRow_perm aggs (h.filter _)]
  rw [partialRows, partialRows, hrow]
  exact (groupKeys_perm g h).map _

theorem mem_partialRows {rows : List Row} {pr : Row} :
    pr ∈ partialRows g aggs rows ↔ ∃ key ∈ groupKeys g rows, groupRow g aggs rows key = pr := by
  simp [partialRows]

/-- **部分結果の中で key が `κ` の行は、その batch に `κ` があれば一つだけある。** -/
theorem filter_partialRows (rows : List Row) (key : Row) :
    (partialRows g aggs rows).filter
        (fun pr => decide (rowKey (List.range g.length) pr = key)) =
      if key ∈ groupKeys g rows then [groupRow g aggs rows key] else [] := by
  have hcongr : (groupKeys g rows).filter
      (fun k' => decide (rowKey (List.range g.length) (groupRow g aggs rows k') = key)) =
      (groupKeys g rows).filter (fun k' => decide (k' = key)) :=
    List.filter_congr fun k' hk' => by rw [rowKey_groupRow hk']
  rw [partialRows, List.filter_map, Function.comp_def, hcongr,
    filter_eq_of_nodup (nodup_groupKeys g rows)]
  split <;> rfl

end Partial

/-! ## key ごとの merge -/

/-- 条件を満たすものだけを一つずつ写してつなぐ。 -/
theorem flatten_map_ite_singleton {α β : Type} (p : α → Prop) [DecidablePred p] (f : α → β)
    (L : List α) :
    (L.map fun x => if p x then [f x] else []).flatten = (L.filter fun x => decide (p x)).map f := by
  induction L with
  | nil => rfl
  | cons x L ih => by_cases h : p x <;> simp [List.filter_cons, h, ih]

/-- key が `κ` の行を batch ごとに集めてつなぐ。`κ` のない batch は何も足さない。 -/
theorem filter_flatten_key (g : List Nat) (Bs : List (List Row)) (key : Row) :
    Bs.flatten.filter (fun r => decide (rowKey g r = key)) =
      ((Bs.filter fun rows => decide (key ∈ groupKeys g rows)).map
        (·.filter fun r => decide (rowKey g r = key))).flatten := by
  induction Bs with
  | nil => rfl
  | cons rows Bs ih =>
    rw [List.flatten_cons, List.filter_append, ih, List.filter_cons]
    by_cases h : key ∈ groupKeys g rows
    · simp [h]
    · have hnil : rows.filter (fun r => decide (rowKey g r = key)) = [] :=
        List.filter_eq_nil_iff.mpr fun r hr hk => h (mem_groupKeys.mpr ⟨r, hr, by simpa using hk⟩)
      simp [h, hnil]

/-- 部分結果の行の、aggregation `i` の値。 -/
theorem getD_groupRow {g : List Nat} {aggs : List (AggregateKind × Nat)} {rows : List Row}
    {key : Row} (hk : key.length = g.length) {i : Nat} (hi : i < aggs.length) :
    (groupRow g aggs rows key).getD (i + g.length) none =
      aggregate aggs[i].1 ((rows.filter fun r => decide (rowKey g r = key)).map
        (·.getD aggs[i].2 none)) := by
  rw [groupRow, List.getD_eq_getElem?_getD, List.getElem?_append_right (by omega),
    show i + g.length - key.length = i by omega]
  simp [aggregateRow, hi]

/--
**key `κ` の部分結果に書き換えた演算をかけると、全部の行の `κ` の group に元の演算を
かけたものになる。**

`Bs` は batch ごとの行。書き換えた aggregation `i` は演算が `mergeKind` で、
入力の列が部分結果の `i + k` 列目である（`modGroupByParametersForMerge` の出力）。
`κ` はどこかの batch に現れる key。
-/
theorem aggregateRow_merge {types : List AggregateKind} {inputs : List Nat}
    (hlen : inputs.length = types.length) (g : List Nat) (Bs : List (List Row)) {key : Row}
    (hkey : ∃ rows ∈ Bs, key ∈ groupKeys g rows) :
    aggregateRow ((types.map mergeKind).zip ((List.range types.length).map (· + g.length)))
        ((Bs.map (partialRows g (types.zip inputs))).flatten.filter
          (fun pr => decide (rowKey (List.range g.length) pr = key))) =
      aggregateRow (types.zip inputs) (Bs.flatten.filter fun r => decide (rowKey g r = key)) := by
  have hk : key.length = g.length := by
    obtain ⟨rows, -, hk⟩ := hkey
    exact length_of_mem_groupKeys hk
  rw [List.filter_flatten, List.map_map, Function.comp_def]
  simp only [filter_partialRows]
  rw [flatten_map_ite_singleton (fun rows => key ∈ groupKeys g rows), filter_flatten_key]
  apply List.ext_getElem (by simp [hlen])
  intro i h1 h2
  have hi : i < types.length := by simpa [hlen] using h2
  have hiz : i < (types.zip inputs).length := by simp [hlen, hi]
  simp only [aggregateRow, List.getElem_map, List.getElem_zip, List.getElem_range, List.map_map,
    Function.comp_def]
  rw [List.map_congr_left fun rows _ => getD_groupRow hk hiz]
  simp only [List.getElem_zip]
  rw [List.map_flatten, List.map_map, ← aggregate_mergeKind_flatten _ (by simpa using hkey),
    List.map_map]
  rfl

/-! ## node ごとの merge を合わせる

部分結果の行は key の行き先 `dest` で node に分かれ、node `n` の Merge は
行き先が `n` の部分結果の行を（何かの順序で）受け取る。
-/

section Nodes

variable {types : List AggregateKind} {inputs : List Nat} {g : List Nat} {Bs : List (List Row)}
  {dest : Row → Nat} {N : Nat}

/-- 部分結果の key は、どこかの batch の key である。 -/
theorem exists_partialRow_key_iff {key : Row} :
    (∃ pr ∈ (Bs.map (partialRows g (types.zip inputs))).flatten,
        rowKey (List.range g.length) pr = key) ↔ key ∈ groupKeys g Bs.flatten := by
  simp only [List.mem_flatten, List.mem_map, mem_groupKeys]
  constructor
  · rintro ⟨pr, ⟨_, ⟨rows, hrows, rfl⟩, hpr⟩, rfl⟩
    obtain ⟨key, hk, rfl⟩ := mem_partialRows.mp hpr
    obtain ⟨r, hr, rfl⟩ := mem_groupKeys.mp hk
    exact ⟨r, ⟨rows, hrows, hr⟩, (rowKey_groupRow hk).symm⟩
  · rintro ⟨r, ⟨rows, hrows, hr⟩, rfl⟩
    have hk : rowKey g r ∈ groupKeys g rows := mem_groupKeys.mpr ⟨r, hr, rfl⟩
    exact ⟨_, ⟨_, ⟨rows, hrows, rfl⟩, mem_partialRows.mpr ⟨_, hk, rfl⟩⟩, rowKey_groupRow hk⟩

/-- node `n` が受け取る部分結果の行の key は、行き先が `n` である。 -/
theorem dest_of_mem_groupKeys {X : List Row} {n : Nat} {key : Row}
    (hX : X.Perm ((Bs.map (partialRows g (types.zip inputs))).flatten.filter
      fun pr => decide (dest (rowKey (List.range g.length) pr) = n)))
    (hk : key ∈ groupKeys (List.range g.length) X) :
    dest key = n ∧ key ∈ groupKeys g Bs.flatten := by
  obtain ⟨pr, hpr, rfl⟩ := mem_groupKeys.mp hk
  obtain ⟨hpr, hd⟩ := List.mem_filter.mp (hX.subset hpr)
  exact ⟨by simpa using hd, exists_partialRow_key_iff.mp ⟨pr, hpr, rfl⟩⟩

/--
**node `n` の Merge が作る key `κ` の行は、全部の行で作った `κ` の行に等しい。**

`κ` の部分結果はどれも行き先が `κ` の行き先なので、`κ` を持つ node は `κ` の
部分結果を全部受け取っている。
-/
theorem groupRow_merge (hlen : inputs.length = types.length) {X : List Row} {n : Nat} {key : Row}
    (hX : X.Perm ((Bs.map (partialRows g (types.zip inputs))).flatten.filter
      fun pr => decide (dest (rowKey (List.range g.length) pr) = n)))
    (hk : key ∈ groupKeys (List.range g.length) X) :
    groupRow (List.range g.length)
        ((types.map mergeKind).zip ((List.range types.length).map (· + g.length))) X key =
      groupRow g (types.zip inputs) Bs.flatten key := by
  obtain ⟨hd, hkey⟩ := dest_of_mem_groupKeys hX hk
  have hfilter : (X.filter fun pr => decide (rowKey (List.range g.length) pr = key)).Perm
      ((Bs.map (partialRows g (types.zip inputs))).flatten.filter
        fun pr => decide (rowKey (List.range g.length) pr = key)) := by
    refine (hX.filter _).trans ?_
    rw [List.filter_filter]
    refine List.Perm.of_eq (List.filter_congr fun pr _ => ?_)
    by_cases h : rowKey (List.range g.length) pr = key <;> simp [h, hd]
  have hBs : ∃ rows ∈ Bs, key ∈ groupKeys g rows := by
    obtain ⟨r, hr, rfl⟩ := mem_groupKeys.mp hkey
    obtain ⟨rows, hrows, hr⟩ := List.mem_flatten.mp hr
    exact ⟨rows, hrows, mem_groupKeys.mpr ⟨r, hr, rfl⟩⟩
  rw [groupRow, groupRow, aggregateRow_perm _ hfilter, aggregateRow_merge hlen g Bs hBs]

/-- 各 node の key を合わせると、全部の行の key の並べ替えになる。 -/
theorem flatten_groupKeys_perm (hdest : ∀ key, dest key < N) {X : Nat → List Row}
    (hX : ∀ n < N, (X n).Perm ((Bs.map (partialRows g (types.zip inputs))).flatten.filter
      fun pr => decide (dest (rowKey (List.range g.length) pr) = n))) :
    ((List.range N).map fun n => groupKeys (List.range g.length) (X n)).flatten.Perm
      (groupKeys g Bs.flatten) := by
  refine (List.perm_ext_iff_of_nodup ?_ (nodup_groupKeys _ _)).mpr fun key => ?_
  · refine List.nodup_flatten.mpr ⟨?_, ?_⟩
    · simp only [List.mem_map]
      rintro _ ⟨n, -, rfl⟩
      exact nodup_groupKeys _ _
    · refine List.pairwise_map.mpr ((List.nodup_range N).imp_of_mem fun ha hb hab => ?_)
      intro key h1 h2
      exact hab ((dest_of_mem_groupKeys (hX _ (List.mem_range.mp ha)) h1).1.symm.trans
        (dest_of_mem_groupKeys (hX _ (List.mem_range.mp hb)) h2).1)
  · simp only [List.mem_flatten, List.mem_map, List.mem_range]
    constructor
    · rintro ⟨_, ⟨n, hn, rfl⟩, hk⟩
      exact (dest_of_mem_groupKeys (hX n hn) hk).2
    · intro hkey
      obtain ⟨pr, hpr, rfl⟩ := (@exists_partialRow_key_iff types inputs g Bs _).mpr hkey
      refine ⟨_, ⟨dest (rowKey (List.range g.length) pr), hdest _, rfl⟩,
        mem_groupKeys.mpr ⟨pr, ?_, rfl⟩⟩
      exact (hX _ (hdest _)).symm.subset (List.mem_filter.mpr ⟨hpr, by simp⟩)

/--
**node ごとの Merge の出力を合わせると、全部の行に一度 group-by をかけた行の並べ替えになる。**

`X n` は node `n` の Merge が受け取る部分結果の行で、行き先が `n` のものを何かの順序で並べたもの。
-/
theorem flatten_merged_perm (hlen : inputs.length = types.length) (hdest : ∀ key, dest key < N)
    {X : Nat → List Row}
    (hX : ∀ n < N, (X n).Perm ((Bs.map (partialRows g (types.zip inputs))).flatten.filter
      fun pr => decide (dest (rowKey (List.range g.length) pr) = n))) :
    ((List.range N).map fun n => (groupKeys (List.range g.length) (X n)).map
        (groupRow (List.range g.length)
          ((types.map mergeKind).zip ((List.range types.length).map (· + g.length))) (X n))).flatten.Perm
      ((groupKeys g Bs.flatten).map (groupRow g (types.zip inputs) Bs.flatten)) := by
  have hrow : ((List.range N).map fun n => (groupKeys (List.range g.length) (X n)).map
        (groupRow (List.range g.length)
          ((types.map mergeKind).zip ((List.range types.length).map (· + g.length))) (X n))) =
      ((List.range N).map fun n => groupKeys (List.range g.length) (X n)).map
        (List.map (groupRow g (types.zip inputs) Bs.flatten)) := by
    rw [List.map_map]
    exact List.map_congr_left fun n hn => List.map_congr_left fun key hk =>
      groupRow_merge hlen (hX n (List.mem_range.mp hn)) hk
  rw [hrow, ← List.map_flatten]
  exact (flatten_groupKeys_perm hdest hX).map _

end Nodes

end BlazingSql
