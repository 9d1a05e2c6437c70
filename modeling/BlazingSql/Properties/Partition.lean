import BlazingSql.Kernels

/-!
# grouped の枝の partition

`DistributeAggregateKernel::do_process` の grouped の枝が scatter に渡す partition の性質。

* `flatten_rows_split` — 先頭が `0` で単調な切れ目の列なら、どの列でも、
  切れ目の数だけの partition ができ、どれも元の列名を持ち、つなぐと元の行に戻る
* `split_bucketOffsets` — `hashPartition` の返す切れ目で切ると、partition は bucket そのもの
* `partitions_rows` — scatter に渡る partition `i` の行は、`columns_to_hash` の値が
  bucket `i` に入る行である（行のない batch では空の view を node の数だけ並べるが、
  bucket も空なので同じ式になる）
* `perm_flatten_bucketRows` — bucket をつなぐと元の行の並べ替えになる
-/

namespace BlazingSql

variable {hash : Row → Nat}

/-! ## 切れ目 -/

@[simp] theorem length_bucketOffsets (acc : Nat) (ls : List Nat) :
    (bucketOffsets acc ls).length = ls.length := by
  induction ls generalizing acc with
  | nil => rfl
  | cons l ls ih => simp [bucketOffsets, ih]

@[simp] theorem length_splitFrom (t : BlazingTable) (prev : Nat) (ss : List Nat) :
    (splitFrom t prev ss).length = ss.length + 1 := by
  induction ss generalizing prev with
  | nil => rfl
  | cons s ss ih => simp [splitFrom, ih]

theorem names_of_mem_splitFrom {t p : BlazingTable} {prev : Nat} {ss : List Nat}
    (h : p ∈ splitFrom t prev ss) : p.names = t.names := by
  induction ss generalizing prev with
  | nil => simp only [splitFrom, List.mem_singleton] at h; subst h; rfl
  | cons s ss ih =>
    simp only [splitFrom, List.mem_cons] at h
    rcases h with rfl | h
    · rfl
    · exact ih h

/-- 直前の切れ目以上の単調な切れ目で切ると、区間をつなげば残りの行に戻る。 -/
theorem flatten_splitFrom (t : BlazingTable) :
    ∀ (prev : Nat) (ss : List Nat), (∀ s ∈ ss, prev ≤ s) → ss.Pairwise (· ≤ ·) →
      ((splitFrom t prev ss).map BlazingTable.rows).flatten = t.rows.drop prev
  | prev, [], _, _ => by simp [splitFrom]
  | prev, s :: ss, hle, hs => by
    have hps : prev ≤ s := hle s (List.mem_cons_self s ss)
    have hsorted := List.pairwise_cons.mp hs
    simp only [splitFrom, List.map_cons, List.flatten_cons, BlazingTable.take_rows,
      BlazingTable.drop_rows]
    have hdrop : t.rows.drop s = (t.rows.drop prev).drop (s - prev) := by
      rw [List.drop_drop]; congr 1; omega
    rw [flatten_splitFrom t s ss hsorted.1 hsorted.2, hdrop, List.take_append_drop]

/--
**単調な切れ目ならどれでも、split は行を失わず重ねもしない。**

`offsets` は `hash_partition` が返しうる切れ目の列：先頭が `0` で単調。
先頭の `0` を落として切ると、`offsets` の個数だけの partition ができ、
どれも元の列名を持ち、つなぐと元の行に戻る。
-/
theorem flatten_rows_split (t : BlazingTable) {offsets : List Nat}
    (h0 : offsets.head? = some 0) (hmono : offsets.Pairwise (· ≤ ·)) :
    (split t (offsets.drop 1)).length = offsets.length ∧
      (∀ p ∈ split t (offsets.drop 1), p.names = t.names) ∧
      ((split t (offsets.drop 1)).map BlazingTable.rows).flatten = t.rows := by
  obtain ⟨_, ss, rfl⟩ : ∃ o ss, offsets = o :: ss := ⟨_, _, (List.cons_head?_tail h0).symm⟩
  refine ⟨by simp [split], fun p hp => names_of_mem_splitFrom hp, ?_⟩
  simpa [split] using flatten_splitFrom t 0 ss (fun _ _ => Nat.zero_le _)
    (List.pairwise_cons.mp hmono).2

/-- bucket の開始位置で切ると、区間はちょうど bucket になる。 -/
theorem splitFrom_bucketOffsets (t : BlazingTable) :
    ∀ (bs : List (List Row)) (b : List Row) (acc : Nat), t.rows.drop acc = (b :: bs).flatten →
      (splitFrom t acc (bucketOffsets (acc + b.length) (bs.map List.length))).map
        BlazingTable.rows = b :: bs
  | [], b, acc, h => by simpa [splitFrom, bucketOffsets] using h
  | b' :: bs, b, acc, h => by
    simp only [List.map_cons, bucketOffsets, splitFrom, BlazingTable.take_rows,
      BlazingTable.drop_rows, h, List.flatten_cons, Nat.add_sub_cancel_left,
      List.take_left' rfl, List.cons.injEq, true_and]
    apply splitFrom_bucketOffsets t bs b' (acc + b.length)
    rw [← List.drop_drop, h, List.flatten_cons, List.drop_left' rfl]

theorem split_bucketOffsets (t : BlazingTable) {bs : List (List Row)} (hne : bs ≠ [])
    (h : t.rows = bs.flatten) :
    (split t ((bucketOffsets 0 (bs.map List.length)).drop 1)).map BlazingTable.rows = bs := by
  obtain ⟨b, bs, rfl⟩ := List.exists_cons_of_ne_nil hne
  simpa [split, bucketOffsets] using splitFrom_bucketOffsets t bs b 0 (by simpa using h)

/-! ## hash partition -/

theorem hashPartition_eq (hash : Row → Nat) {t : BlazingTable} {cols : List Nat} (n : Nat)
    (hcols : ∀ i ∈ cols, i < t.names.length) :
    ∃ hashed, hashPartition hash t cols n =
        .ok (hashed, bucketOffsets 0 (((List.range n).map (bucketRows hash cols n t.rows)).map
          List.length)) ∧
      hashed.names = t.names ∧ hashed.rows = ((List.range n).map (bucketRows hash cols n t.rows)).flatten := by
  simp only [hashPartition, checkColumns_eq_ok.mpr hcols]
  exact ⟨_, rfl, rfl, rfl⟩

/--
**scatter に渡る partition `i` は、bucket `i` の行を持つ。**

partition は node の数だけあり、どれも入力の列名を持つ。
bucket は `columns_to_hash` の列の値の hash で決まる。
-/
theorem partitions_rows {ctx : Context} {cols : List Nat} {input : BlazingTable}
    (hN : 0 < ctx.totalNodes) (hcols : ∀ i ∈ cols, i < input.names.length) :
    ∃ ps, DistributeAggregateKernel.partitions hash ctx cols input = .ok ps ∧
      ps.map BlazingTable.rows =
        (List.range ctx.totalNodes).map (bucketRows hash cols ctx.totalNodes input.rows) ∧
      ∀ p ∈ ps, p.names = input.names := by
  unfold DistributeAggregateKernel.partitions
  split
  · obtain ⟨hashed, heq, hnames, hrows⟩ := hashPartition_eq hash ctx.totalNodes hcols
    refine ⟨_, by simp only [heq]; rfl, split_bucketOffsets hashed (by simp; omega) hrows,
      fun p hp => ?_⟩
    rw [names_of_mem_splitFrom hp, hnames]
  · rename_i hrows
    have hnil : input.rows = [] := List.eq_nil_of_length_eq_zero (by
      simpa [BlazingTable.numRows] using hrows)
    refine ⟨_, rfl, ?_, fun p hp => by rw [List.eq_of_mem_replicate hp]⟩
    have hempty : bucketRows hash cols ctx.totalNodes [] = fun _ => [] := rfl
    rw [hnil, hempty, List.map_const', List.length_range, List.map_replicate, hnil]

/-- 一つの添字 `j` の区画にだけ `xs` を前に足すと、つないだものは `xs` を全体の前に
足したものの並べ替えになる。 -/
theorem perm_flatten_map_ite {α : Type} (xs : List α) (f : Nat → List α) {j : Nat} :
    ∀ {is : List Nat}, is.Nodup → j ∈ is →
      (is.map (fun i => if j = i then xs ++ f i else f i)).flatten.Perm (xs ++ (is.map f).flatten)
  | [], _, hj => absurd hj (List.not_mem_nil j)
  | i :: is, hnd, hj => by
    have ⟨hi, hnd'⟩ := List.nodup_cons.mp hnd
    simp only [List.map_cons, List.flatten_cons]
    by_cases hji : j = i
    · subst hji
      have hrest : is.map (fun i => if j = i then xs ++ f i else f i) = is.map f :=
        List.map_congr_left fun i hi' => if_neg (by rintro rfl; exact hi hi')
      simp [hrest]
    · rw [if_neg hji]
      have ih := perm_flatten_map_ite xs f hnd' ((List.mem_cons.mp hj).resolve_left hji)
      exact (ih.append_left (f i)).trans (List.perm_append_comm_assoc _ _ _)

/-- **bucket をつなぐと、元の行の並べ替えになる。** -/
theorem perm_flatten_bucketRows (cols : List Nat) {n : Nat} (hn : 0 < n) :
    ∀ rows : List Row, ((List.range n).map (bucketRows hash cols n rows)).flatten.Perm rows
  | [] => by simp [bucketRows]
  | r :: rows => by
    have hsplit : (List.range n).map (bucketRows hash cols n (r :: rows)) =
        (List.range n).map (fun i => if bucketOf hash cols n r = i then
          r :: bucketRows hash cols n rows i else bucketRows hash cols n rows i) := by
      refine List.map_congr_left fun i _ => ?_
      by_cases h : bucketOf hash cols n r = i <;> simp [bucketRows, List.filter_cons, h]
    rw [hsplit]
    exact (perm_flatten_map_ite [r] _ (List.nodup_range n)
      (List.mem_range.mpr (Nat.mod_lt _ hn))).trans
      ((perm_flatten_bucketRows cols hn rows).cons r)

/--
**grouped の枝で scatter に渡る partition は node の数だけあり、どれも入力の列名を持ち、
つなぐと入力の行の並べ替えになる。** 行のない batch でも同じ。
-/
theorem partitions_perm_rows {ctx : Context} {cols : List Nat} {input : BlazingTable}
    (hN : 0 < ctx.totalNodes) (hcols : ∀ i ∈ cols, i < input.names.length) :
    ∃ ps, DistributeAggregateKernel.partitions hash ctx cols input = .ok ps ∧
      ps.length = ctx.totalNodes ∧ (∀ p ∈ ps, p.names = input.names) ∧
      (ps.map BlazingTable.rows).flatten.Perm input.rows := by
  obtain ⟨ps, hps, hrows, hnames⟩ := partitions_rows hN hcols
  refine ⟨ps, hps, by simpa using congrArg List.length hrows, hnames, ?_⟩
  rw [hrows]
  exact perm_flatten_bucketRows cols hN input.rows

/-- 一列 `k` の batch。 -/
def keyColumn (vs : List Int) : BlazingTable := ⟨["k"], vs.map fun v => [some v], by simp⟩

theorem partitions_perm_rows_keyColumn :
    0 < (⟨3, 0, 0⟩ : Context).totalNodes ∧ (∀ i ∈ [0], i < (keyColumn [1, 2, 1]).names.length) ∧
    ∃ ps, DistributeAggregateKernel.partitions (fun key => key.length) ⟨3, 0, 0⟩ [0]
        (keyColumn [1, 2, 1]) = .ok ps ∧
      ps.length = 3 ∧ (∀ p ∈ ps, p.names = (keyColumn [1, 2, 1]).names) ∧
      (ps.map BlazingTable.rows).flatten.Perm (keyColumn [1, 2, 1]).rows :=
  ⟨by decide, by decide, @partitions_perm_rows (fun key => key.length) _ _ _ (by decide) (by decide)⟩

end BlazingSql
