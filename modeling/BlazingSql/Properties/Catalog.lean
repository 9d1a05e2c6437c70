import BlazingSql.Catalog

/-!
# `getColumns` が返す列

`CatalogTableImpl(name, db, columnNames, columnTypes)` は位置 `i` の列を名前で `put` するので、
同じ名前が後ろにあれば、前の列は置き換えられて消える。`getColumns` は残った列を
`orderValue` の順に並べる。

* `mem_values_put` — `put` の後の値は、入れた列と、key の違う前の値
* `putColumns_inv` — constructor の loop の後、値は名前が後ろに現れない位置の列
* `getColumns_eq_of_perm` — どの反復の順でも、sort の結果は一つに決まる
* `getColumns_ofNames` — `getColumns` は名前が後ろに現れない位置の列を位置の順に返す
* `getColumns_duplicate_name` — 名前が重なると、列は `columnNames.size()` 個より少ない
* `getColumns_ofColumns` — `CatalogTableImpl(name, db, columns)` でも同じ名前の後の列が残る。
  残る列の `orderValue` が重ならなければ、`getColumns` は反復の順によらない
* `getColumns_ofColumns_tie` — 残る二つの列の `orderValue` が重なれば、`getColumns` の並びは
  反復の順で変わる。`Collections.sort` は安定なので、反復した順が残る
-/

namespace BlazingSql

/-! ## `put` -/

namespace ColumnMap

/-- 値の列名が key に等しいこと。 -/
def KeyIsName (m : ColumnMap) : Prop := ∀ e ∈ m.entries, e.2.columnName = e.1

theorem keyIsName_empty : empty.KeyIsName := fun _ h => absurd h (List.not_mem_nil _)

variable {m : ColumnMap} {key : String} {value : CatalogColumnImpl}

theorem keyIsName_put (hm : m.KeyIsName) (hv : value.columnName = key) :
    (m.put key value).KeyIsName := by
  intro e he
  unfold put at he
  split at he
  · obtain ⟨e', he', rfl⟩ := List.mem_map.mp he
    by_cases h : e'.1 = key
    · simp [h, hv]
    · simp [h, hm e' he']
  · rcases List.mem_append.mp he with he | he
    · exact hm e he
    · rw [List.mem_singleton.mp he]; exact hv

/-- **`put` の後の値は、入れた列と、列名が key でない前の値。** -/
theorem mem_values_put (hm : m.KeyIsName) (hv : value.columnName = key) {c : CatalogColumnImpl} :
    c ∈ (m.put key value).values ↔ c = value ∨ c ∈ m.values ∧ c.columnName ≠ key := by
  unfold put values
  split
  · rename_i hkey
    obtain ⟨e₀, he₀, hk₀⟩ := List.mem_map.mp hkey
    simp only [List.map_map, List.mem_map, Function.comp_def]
    constructor
    · rintro ⟨e, he, rfl⟩
      by_cases h : e.1 = key
      · exact .inl (by simp [h])
      · exact .inr ⟨⟨e, he, by simp [h]⟩, by simp [h, hm e he]⟩
    · rintro (rfl | ⟨⟨e, he, rfl⟩, hne⟩)
      · exact ⟨e₀, he₀, by simp [hk₀]⟩
      · exact ⟨e, he, by simp [show e.1 ≠ key from hm e he ▸ hne]⟩
  · rename_i hkey
    simp only [List.map_append, List.map_cons, List.map_nil, List.mem_append, List.mem_singleton]
    constructor
    · rintro (hc | rfl)
      · refine .inr ⟨hc, fun hck => hkey ?_⟩
        obtain ⟨e, he, rfl⟩ := List.mem_map.mp hc
        exact List.mem_map.mpr ⟨e, he, (hm e he).symm.trans hck⟩
      · exact .inl rfl
    · rintro (rfl | ⟨hc, -⟩)
      · exact .inr rfl
      · exact .inl hc

/-- key が重複せず、値の列名が key なら、値も重複しない。 -/
theorem nodup_values (hm : m.KeyIsName) : m.values.Nodup := by
  have hnames : m.values.map CatalogColumnImpl.columnName = m.entries.map Prod.fst := by
    rw [values, List.map_map]
    exact List.map_congr_left fun e he => hm e he
  exact List.Nodup.of_map _ (hnames ▸ m.nodup)

end ColumnMap

/-! ## constructor の loop -/

/-- 位置 `i` から作る列。 -/
def columnAt (columnNames columnTypes : List String) (i : Nat) : CatalogColumnImpl :=
  ⟨columnNames.getD i "", columnTypes.getD i "", i⟩

/-- 位置 `i` の名前が、`i` より後ろ `j` より前に現れない。 -/
def LastBefore (columnNames : List String) (j i : Nat) : Prop :=
  ∀ i' < j, i < i' → columnNames.getD i' "" ≠ columnNames.getD i ""

instance (columnNames : List String) (j : Nat) : DecidablePred (LastBefore columnNames j) :=
  fun _ => inferInstanceAs (Decidable (∀ _ < j, _))

/-- 名前が後ろに現れない位置の列を、位置の順に並べたもの。 -/
def lastColumns (columnNames columnTypes : List String) : List CatalogColumnImpl :=
  ((List.range columnNames.length).filter fun i => decide (LastBefore columnNames columnNames.length i)).map
    (columnAt columnNames columnTypes)

/-- loop の不変条件：位置 `i` の前まで `put` した後の値。 -/
structure LoopInv (columnNames columnTypes : List String) (i : Nat) (m : ColumnMap) : Prop where
  keyIsName : m.KeyIsName
  mem_values : ∀ c, c ∈ m.values ↔
    ∃ j < i, c = columnAt columnNames columnTypes j ∧ LastBefore columnNames i j

section Loop

variable {columnNames columnTypes : List String}

theorem loopInv_zero : LoopInv columnNames columnTypes 0 .empty :=
  ⟨ColumnMap.keyIsName_empty, fun c => by simp [ColumnMap.values, ColumnMap.empty]⟩

/-- 後ろの位置 `i` に同じ名前がなければ、`i + 1` の前でも最後の位置のまま。 -/
theorem lastBefore_succ {i j : Nat} (hj : j < i) :
    LastBefore columnNames (i + 1) j ↔
      LastBefore columnNames i j ∧ columnNames.getD j "" ≠ columnNames.getD i "" := by
  constructor
  · intro h
    exact ⟨fun i' hi' hji' => h i' (by omega) hji', fun he => h i (by omega) hj he.symm⟩
  · rintro ⟨h, hne⟩ i' hi' hji'
    rcases Nat.lt_succ_iff_lt_or_eq.mp hi' with hi' | rfl
    · exact h i' hi' hji'
    · exact Ne.symm hne

/-- **一つの列を `put` すると、不変条件は次の位置で成り立つ。** -/
theorem LoopInv.put {i : Nat} {m : ColumnMap} (hinv : LoopInv columnNames columnTypes i m) :
    LoopInv columnNames columnTypes (i + 1)
      (m.put (columnNames.getD i "") (columnAt columnNames columnTypes i)) := by
  refine ⟨ColumnMap.keyIsName_put hinv.keyIsName rfl, fun c => ?_⟩
  rw [@ColumnMap.mem_values_put _ (columnNames.getD i "") (columnAt columnNames columnTypes i)
    hinv.keyIsName rfl, hinv.mem_values]
  constructor
  · rintro (rfl | ⟨⟨j, hj, rfl, hlast⟩, hne⟩)
    · exact ⟨i, by omega, rfl, fun i' hi' hii' => absurd hi' (by omega)⟩
    · exact ⟨j, by omega, rfl, (lastBefore_succ hj).mpr ⟨hlast, hne⟩⟩
  · rintro ⟨j, hj, rfl, hlast⟩
    rcases Nat.lt_succ_iff_lt_or_eq.mp hj with hj | rfl
    · exact .inr ⟨⟨j, hj, rfl, ((lastBefore_succ hj).mp hlast).1⟩, ((lastBefore_succ hj).mp hlast).2⟩
    · exact .inl rfl

/-- **constructor の loop は失敗せず、終わった後の値は不変条件を満たす。** -/
theorem putColumns_inv (hlen : columnNames.length = columnTypes.length) :
    ∀ (rest : List String) (i : Nat) (m : ColumnMap), columnNames.drop i = rest →
      i ≤ columnNames.length → LoopInv columnNames columnTypes i m →
      ∃ m', putColumns columnTypes i rest m = some m' ∧
        LoopInv columnNames columnTypes columnNames.length m'
  | [], i, m, hrest, hi, hinv => by
    obtain rfl : i = columnNames.length := by
      have := congrArg List.length hrest; simp at this; omega
    exact ⟨m, rfl, hinv⟩
  | name :: rest, i, m, hrest, _, hinv => by
    have hi : i < columnNames.length := by
      have := congrArg List.length hrest; simp at this; omega
    have hname : columnNames.getD i "" = name := by
      rw [List.getD_eq_getElem?_getD, ← List.head?_drop, hrest]; rfl
    have htype : columnTypes[i]? = some (columnTypes.getD i "") := by
      rw [List.getD_eq_getElem?_getD, List.getElem?_eq_getElem (by omega)]; rfl
    have hnext : columnNames.drop (i + 1) = rest := by
      rw [← List.drop_drop, hrest]; rfl
    have hcol : (⟨name, columnTypes.getD i "", i⟩ : CatalogColumnImpl) =
        columnAt columnNames columnTypes i := by
      rw [columnAt, hname]
    have hinv' := hinv.put
    rw [hname] at hinv'
    obtain ⟨m', hm', hend⟩ := putColumns_inv hlen rest (i + 1) _ hnext hi hinv'
    refine ⟨m', ?_, hend⟩
    rw [putColumns, htype]
    show putColumns columnTypes (i + 1) rest (m.put name ⟨name, columnTypes.getD i "", i⟩) = some m'
    rw [hcol]
    exact hm'

end Loop

/-! ## 並べ替え -/

/-- 名前が後ろに現れない位置の列は、`orderValue` が狭義に増える。 -/
theorem lastColumns_pairwise (columnNames columnTypes : List String) :
    (lastColumns columnNames columnTypes).Pairwise fun a b => a.orderValue < b.orderValue :=
  List.pairwise_map.mpr ((List.pairwise_lt_range _).filter _)

/-- **loop の後の値は、名前が後ろに現れない位置の列の並べ替え。** -/
theorem perm_lastColumns {columnNames columnTypes : List String} {m : ColumnMap}
    (hinv : LoopInv columnNames columnTypes columnNames.length m) :
    m.values.Perm (lastColumns columnNames columnTypes) := by
  have hnd : (lastColumns columnNames columnTypes).Nodup :=
    (lastColumns_pairwise columnNames columnTypes).imp fun h hab => by subst hab; exact Nat.lt_irrefl _ h
  refine (List.perm_ext_iff_of_nodup (ColumnMap.nodup_values hinv.keyIsName) hnd).mpr fun c => ?_
  rw [hinv.mem_values]
  simp only [lastColumns, List.mem_map, List.mem_filter, List.mem_range, decide_eq_true_eq]
  constructor
  · rintro ⟨j, hj, rfl, hlast⟩
    exact ⟨j, ⟨hj, hlast⟩, rfl⟩
  · rintro ⟨j, ⟨hj, hlast⟩, rfl⟩
    exact ⟨j, hj, rfl, hlast⟩

/-- `Collections.sort` の比較 `compareTo(a, b) <= 0` は推移的で全順序。 -/
theorem compareTo_trans (a b c : CatalogColumnImpl)
    (hab : decide (a.compareTo b ≤ 0) = true) (hbc : decide (b.compareTo c ≤ 0) = true) :
    decide (a.compareTo c ≤ 0) = true := by
  simp_all [CatalogColumnImpl.compareTo]
  omega

theorem compareTo_total (a b : CatalogColumnImpl) :
    (decide (a.compareTo b ≤ 0) || decide (b.compareTo a ≤ 0)) = true := by
  simp [CatalogColumnImpl.compareTo]
  omega

/-- `orderValue` が重ならなければ、sort の結果は `orderValue` が狭義に増える。 -/
theorem getColumns_pairwise_lt {iteration : List CatalogColumnImpl}
    (hnd : (iteration.map CatalogColumnImpl.orderValue).Nodup) :
    (CatalogTableImpl.getColumns iteration).Pairwise fun a b => a.orderValue < b.orderValue := by
  have hle : (CatalogTableImpl.getColumns iteration).Pairwise
      fun a b => a.orderValue ≤ b.orderValue :=
    (List.sorted_mergeSort compareTo_trans compareTo_total iteration).imp fun h => by
      simpa [CatalogColumnImpl.compareTo] using h
  have hne : (CatalogTableImpl.getColumns iteration).Pairwise
      fun a b => a.orderValue ≠ b.orderValue :=
    List.pairwise_map.mp (((List.mergeSort_perm _ _).map _).nodup_iff.mpr hnd)
  exact (hle.and hne).imp fun h => Nat.lt_of_le_of_ne h.1 h.2

/--
**sort の結果は反復の順によらない。** `orderValue` の重ならない列 `sorted` の並べ替えなら、
どの順から `Collections.sort` しても `sorted` になる。
-/
theorem getColumns_eq_of_perm {iteration sorted : List CatalogColumnImpl}
    (hp : iteration.Perm sorted) (hs : sorted.Pairwise fun a b => a.orderValue < b.orderValue) :
    CatalogTableImpl.getColumns iteration = sorted := by
  have hnd : (iteration.map CatalogColumnImpl.orderValue).Nodup :=
    (hp.map _).nodup_iff.mpr (List.pairwise_map.mpr (hs.imp Nat.ne_of_lt))
  exact @List.eq_of_perm_of_sorted CatalogColumnImpl
    (fun a b : CatalogColumnImpl => a.orderValue < b.orderValue)
    ⟨fun a b h₁ h₂ => absurd (h₁.trans h₂) (Nat.lt_irrefl _)⟩ _ _
    ((List.mergeSort_perm _ _).trans hp) (getColumns_pairwise_lt hnd) hs

/-! ## `getColumns` -/

/--
**`getColumns` は、名前が後ろに現れない位置の列を、位置の順に返す。**

`HashMap` を反復する順によらない。位置 `i` の列は名前 `columnNames[i]`、型 `columnTypes[i]`、
`orderValue` `i` を持つ。
-/
theorem getColumns_ofNames (name : String) {columnNames columnTypes : List String}
    (hlen : columnNames.length = columnTypes.length) :
    ∃ t, CatalogTableImpl.ofNames name columnNames columnTypes = some t ∧
      ∀ iteration, iteration.Perm t.tableColumns.values →
        CatalogTableImpl.getColumns iteration = lastColumns columnNames columnTypes := by
  obtain ⟨m, hm, hinv⟩ := putColumns_inv hlen columnNames 0 .empty rfl (Nat.zero_le _) loopInv_zero
  refine ⟨⟨name, m⟩, by rw [CatalogTableImpl.ofNames, hm]; rfl, fun iteration hit => ?_⟩
  exact getColumns_eq_of_perm (hit.trans (perm_lastColumns hinv)) (lastColumns_pairwise _ _)

theorem getColumns_ofNames_abc :
    ["a", "b", "a"].length = ["INT32", "STRING", "FLOAT64"].length ∧
    ∃ t, CatalogTableImpl.ofNames "t" ["a", "b", "a"] ["INT32", "STRING", "FLOAT64"] = some t ∧
      ∀ iteration, iteration.Perm t.tableColumns.values →
        CatalogTableImpl.getColumns iteration = lastColumns ["a", "b", "a"] ["INT32", "STRING", "FLOAT64"] :=
  ⟨rfl, getColumns_ofNames "t" rfl⟩

example : lastColumns ["a", "b", "a"] ["INT32", "STRING", "FLOAT64"] =
    [⟨"b", "STRING", 1⟩, ⟨"a", "FLOAT64", 2⟩] := by decide

/-- **名前が重なると、前の列は消える。** 二つの列 `a` から、列は一つしか返らない。 -/
theorem getColumns_duplicate_name :
    ∃ t, CatalogTableImpl.ofNames "t" ["a", "a"] ["INT32", "STRING"] = some t ∧
      ∀ iteration, iteration.Perm t.tableColumns.values →
        CatalogTableImpl.getColumns iteration = [⟨"a", "STRING", 1⟩] := by
  refine ⟨⟨"t", ⟨[("a", ⟨"a", "STRING", 1⟩)], by decide⟩⟩, rfl, fun iteration hit => ?_⟩
  rw [List.perm_singleton.mp hit]
  exact List.mergeSort_singleton _

/-- 名前が重ならなければ、どの位置の名前も後ろに現れない。 -/
theorem lastColumns_of_nodup {columnNames : List String} (columnTypes : List String)
    (hnd : columnNames.Nodup) :
    lastColumns columnNames columnTypes =
      (List.range columnNames.length).map (columnAt columnNames columnTypes) := by
  rw [lastColumns, List.filter_eq_self.mpr]
  intro i hi
  refine decide_eq_true fun i' hi' hii' heq => ?_
  have hi : i < columnNames.length := List.mem_range.mp hi
  rw [List.getD_eq_getElem?_getD, List.getD_eq_getElem?_getD, List.getElem?_eq_getElem hi',
    List.getElem?_eq_getElem hi] at heq
  exact absurd ((hnd.getElem_inj_iff).mp (by simpa using heq)) (by omega)

/--
**名前が重ならなければ、`getColumns` は `columnNames.size()` 個の列を返し、`i` 番目の列は
名前 `columnNames[i]`、型 `columnTypes[i]`、`orderValue` `i` を持つ。**
-/
theorem getColumns_ofNames_of_nodup (name : String) {columnNames columnTypes : List String}
    (hlen : columnNames.length = columnTypes.length) (hnd : columnNames.Nodup) :
    ∃ t, CatalogTableImpl.ofNames name columnNames columnTypes = some t ∧
      ∀ iteration, iteration.Perm t.tableColumns.values →
        CatalogTableImpl.getColumns iteration =
          (List.range columnNames.length).map (columnAt columnNames columnTypes) := by
  obtain ⟨m, hm, hinv⟩ := putColumns_inv hlen columnNames 0 .empty rfl (Nat.zero_le _) loopInv_zero
  refine ⟨⟨name, m⟩, by rw [CatalogTableImpl.ofNames, hm]; rfl, fun iteration hit => ?_⟩
  rw [← lastColumns_of_nodup columnTypes hnd]
  exact getColumns_eq_of_perm (hit.trans (perm_lastColumns hinv)) (lastColumns_pairwise _ _)

theorem getColumns_ofNames_of_nodup_ab :
    ["a", "b"].length = ["INT32", "STRING"].length ∧ ["a", "b"].Nodup ∧
    ∃ t, CatalogTableImpl.ofNames "t" ["a", "b"] ["INT32", "STRING"] = some t ∧
      ∀ iteration, iteration.Perm t.tableColumns.values →
        CatalogTableImpl.getColumns iteration =
          (List.range 2).map (columnAt ["a", "b"] ["INT32", "STRING"]) :=
  ⟨rfl, by decide, getColumns_ofNames_of_nodup "t" rfl (by decide)⟩

/-! ## `CatalogTableImpl(name, db, columns)` -/

/-- 後ろに同じ名前の列がない列。`put` で置き換えられずに残る。 -/
def lastOfEach : List CatalogColumnImpl → List CatalogColumnImpl
  | [] => []
  | c :: cs =>
    if c.columnName ∈ cs.map CatalogColumnImpl.columnName then lastOfEach cs
    else c :: lastOfEach cs

theorem lastOfEach_sublist : ∀ cs : List CatalogColumnImpl, (lastOfEach cs).Sublist cs
  | [] => .slnil
  | c :: cs => by
    unfold lastOfEach
    split
    · exact (lastOfEach_sublist cs).cons c
    · exact (lastOfEach_sublist cs).cons₂ c

/-- 残る列の名前は重ならない。 -/
theorem nodup_names_lastOfEach :
    ∀ cs : List CatalogColumnImpl, ((lastOfEach cs).map CatalogColumnImpl.columnName).Nodup
  | [] => List.nodup_nil
  | c :: cs => by
    unfold lastOfEach
    split
    · exact nodup_names_lastOfEach cs
    · rename_i hc
      exact List.nodup_cons.mpr
        ⟨fun hm => hc (((lastOfEach_sublist cs).map _).subset hm), nodup_names_lastOfEach cs⟩

namespace ColumnMap

theorem keyIsName_putAll : ∀ {m : ColumnMap} (cs : List CatalogColumnImpl), m.KeyIsName →
    (putAll m cs).KeyIsName
  | _, [], hm => hm
  | _, _ :: cs, hm => keyIsName_putAll cs (keyIsName_put hm rfl)

/-- **loop の後の値は、残る列と、名前が後ろに現れない前の値。** -/
theorem mem_values_putAll {c : CatalogColumnImpl} :
    ∀ {m : ColumnMap} (cs : List CatalogColumnImpl), m.KeyIsName →
      (c ∈ (putAll m cs).values ↔
        c ∈ lastOfEach cs ∨ c ∈ m.values ∧ c.columnName ∉ cs.map CatalogColumnImpl.columnName)
  | _, [], _ => by simp [putAll, lastOfEach]
  | m, d :: cs, hm => by
    rw [putAll, mem_values_putAll cs (keyIsName_put hm rfl), mem_values_put hm rfl, lastOfEach]
    simp only [List.map_cons, List.mem_cons, not_or]
    split <;> rename_i hd
    · constructor
      · rintro (h | ⟨rfl | ⟨hv, hne⟩, hcs⟩)
        · exact .inl h
        · exact absurd hd hcs
        · exact .inr ⟨hv, hne, hcs⟩
      · rintro (h | ⟨hv, hne, hcs⟩)
        · exact .inl h
        · exact .inr ⟨.inr ⟨hv, hne⟩, hcs⟩
    · constructor
      · rintro (h | ⟨rfl | ⟨hv, hne⟩, hcs⟩)
        · exact .inl (List.mem_cons_of_mem _ h)
        · exact .inl (List.mem_cons_self _ _)
        · exact .inr ⟨hv, hne, hcs⟩
      · rintro (h | ⟨hv, hne, hcs⟩)
        · rcases List.mem_cons.mp h with rfl | h
          · exact .inr ⟨.inl rfl, hd⟩
          · exact .inl h
        · exact .inr ⟨.inr ⟨hv, hne⟩, hcs⟩

end ColumnMap

/-- **constructor の後の値は、残る列の並べ替え。** -/
theorem perm_lastOfEach (name : String) (columns : List CatalogColumnImpl) :
    (CatalogTableImpl.ofColumns name columns).tableColumns.values.Perm (lastOfEach columns) := by
  have hm := ColumnMap.keyIsName_putAll columns ColumnMap.keyIsName_empty
  refine (List.perm_ext_iff_of_nodup (ColumnMap.nodup_values hm)
    ((nodup_names_lastOfEach columns).of_map _)).mpr fun c => ?_
  simpa [ColumnMap.values, ColumnMap.empty] using
    ColumnMap.mem_values_putAll (c := c) columns ColumnMap.keyIsName_empty

/--
**残る列の `orderValue` が重ならなければ、`getColumns` は `HashMap` を反復する順によらず、
残る列を `orderValue` の順に並べたものを返す。**

残るのは、後ろに同じ名前の列がない列。
-/
theorem getColumns_ofColumns (name : String) {columns : List CatalogColumnImpl}
    (hord : ((lastOfEach columns).map CatalogColumnImpl.orderValue).Nodup) :
    ∀ iteration, iteration.Perm (CatalogTableImpl.ofColumns name columns).tableColumns.values →
      CatalogTableImpl.getColumns iteration = CatalogTableImpl.getColumns (lastOfEach columns) :=
  fun _ hit => getColumns_eq_of_perm
    ((hit.trans (perm_lastOfEach name columns)).trans (List.mergeSort_perm _ _).symm)
    (getColumns_pairwise_lt hord)

theorem getColumns_ofColumns_abc :
    ((lastOfEach [⟨"a", "INT32", 1⟩, ⟨"b", "STRING", 0⟩, ⟨"a", "FLOAT64", 2⟩]).map
      CatalogColumnImpl.orderValue).Nodup ∧
    ∀ iteration, iteration.Perm (CatalogTableImpl.ofColumns "t"
        [⟨"a", "INT32", 1⟩, ⟨"b", "STRING", 0⟩, ⟨"a", "FLOAT64", 2⟩]).tableColumns.values →
      CatalogTableImpl.getColumns iteration = CatalogTableImpl.getColumns
        (lastOfEach [⟨"a", "INT32", 1⟩, ⟨"b", "STRING", 0⟩, ⟨"a", "FLOAT64", 2⟩]) :=
  ⟨by decide, getColumns_ofColumns "t" (by decide)⟩

example : lastOfEach [⟨"a", "INT32", 1⟩, ⟨"b", "STRING", 0⟩, ⟨"a", "FLOAT64", 2⟩] =
    [⟨"b", "STRING", 0⟩, ⟨"a", "FLOAT64", 2⟩] := by decide

/-- 重なりのない列が `[a, b]` と `[b, a]` を両方とも部分列に持つことはない。 -/
theorem not_pair_sublist {α : Type} {a b : α} (hab : a ≠ b) :
    ∀ {r : List α}, r.Nodup → [a, b].Sublist r → [b, a].Sublist r → False
  | [], _, h, _ => by simp at h
  | x :: r, hr, h₁, h₂ => by
    obtain ⟨hx, hr⟩ := List.nodup_cons.mp hr
    rw [List.sublist_cons_iff] at h₁ h₂
    rcases h₁ with h₁ | ⟨_, h, -⟩ <;> rcases h₂ with h₂ | ⟨_, h', -⟩
    · exact not_pair_sublist hab hr h₁ h₂
    · obtain ⟨rfl, -⟩ := List.cons.inj h'
      exact hx (h₁.subset (by simp))
    · obtain ⟨rfl, -⟩ := List.cons.inj h
      exact hx (h₂.subset (by simp))
    · exact hab ((List.cons.inj h).1.trans (List.cons.inj h').1.symm)

/--
**残る二つの列の `orderValue` が重なれば、`getColumns` の並びは `HashMap` を反復する順で変わる。**

`Collections.sort` は安定なので、`orderValue` の等しい列は反復した順のまま並ぶ。
`a` を先に反復する順と `b` を先に反復する順とで、結果が違う。
-/
theorem getColumns_ofColumns_tie (name : String) {columns : List CatalogColumnImpl}
    {a b : CatalogColumnImpl} (ha : a ∈ lastOfEach columns) (hb : b ∈ lastOfEach columns)
    (hab : a ≠ b) (hord : a.orderValue = b.orderValue) :
    ∃ it₁ it₂, it₁.Perm (CatalogTableImpl.ofColumns name columns).tableColumns.values ∧
      it₂.Perm (CatalogTableImpl.ofColumns name columns).tableColumns.values ∧
      CatalogTableImpl.getColumns it₁ ≠ CatalogTableImpl.getColumns it₂ := by
  have hp := perm_lastOfEach name columns
  have haV := hp.symm.subset ha
  have hbV := (List.mem_erase_of_ne (Ne.symm hab)).mpr (hp.symm.subset hb)
  have h₁ := ((List.perm_cons_erase hbV).cons a).symm.trans (List.perm_cons_erase haV).symm
  have h₂ := (List.Perm.swap a b _).trans h₁
  refine ⟨_, _, h₁, h₂, fun heq => ?_⟩
  have hnd : (CatalogTableImpl.getColumns _).Nodup :=
    ((List.mergeSort_perm _ _).trans h₁).nodup_iff.mpr
      (ColumnMap.nodup_values (ColumnMap.keyIsName_putAll columns ColumnMap.keyIsName_empty))
  have hsub : ∀ x y rest, x.orderValue = y.orderValue →
      [x, y].Sublist (CatalogTableImpl.getColumns (x :: y :: rest)) := fun x y rest hxy =>
    List.sublist_mergeSort compareTo_trans compareTo_total
      (by simp [CatalogColumnImpl.compareTo, hxy]) (by simp)
  exact not_pair_sublist hab hnd (hsub a b _ hord) (heq ▸ hsub b a _ hord.symm)

theorem getColumns_ofColumns_tie_ab :
    ∃ it₁ it₂, it₁.Perm (CatalogTableImpl.ofColumns "t"
        [⟨"a", "INT32", 0⟩, ⟨"b", "INT32", 0⟩]).tableColumns.values ∧
      it₂.Perm (CatalogTableImpl.ofColumns "t"
        [⟨"a", "INT32", 0⟩, ⟨"b", "INT32", 0⟩]).tableColumns.values ∧
      CatalogTableImpl.getColumns it₁ ≠ CatalogTableImpl.getColumns it₂ :=
  getColumns_ofColumns_tie "t" (a := ⟨"a", "INT32", 0⟩) (b := ⟨"b", "INT32", 0⟩) (by decide)
    (by decide) (by decide) rfl

end BlazingSql
