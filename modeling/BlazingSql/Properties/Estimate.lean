import BlazingSql.Estimate
import BlazingSql.Properties.Barrier
import BlazingSql.Properties.ScalarAggregation

/-!
# Compute の見積もりの性質

query graph は `get_estimated_output_num_rows` を Compute の `run()` と同時に、どの時点でも呼ぶ。
そこで見積もりを、到達できるどの状態についても調べる。二つの `total_rows_added()` は
executor のモデルの状態から読むので、不変条件 `BarrierInv` から性質を引き出せる。

* `outputRowsAdded_le_inputRowsAdded` — group のある形と group だけの形では、出力の cache に
  入った行は入力の cache に入った行より多くない。`do_process` は group key ごとに一行を出す
* `floor_estimateQuotient` — 上流の見積もりと出した行の数の積が `2^53` より小さければ、
  `double` の計算は自然数の計算 `total * out / in` と同じ値を返す
* `estimate_between` — 上流の見積もりが今までの入力の行の数以上で、`double` の計算が正確な
  範囲なら、見積もりは分かっていて、今までに出した行の数と上流の見積もりの間にある
* `estimate_exact_of_returned` — `run()` が返った後は、上流の見積もりが正確なら見積もりも正確
  （同じ範囲で）
* `estimate_scalar_exact_iff` — group のない aggregation の見積もり 1 は、Compute が実際に出す
  行の数（batch ごとに一行）と、batch が一つのときにだけ一致する

積が `2^53` 以上では、`double` の丸めで見積もりは一つずれうる。入力と出力と上流の見積もりが
どれも 94906267 行なら、積 94906267² は `2^53` を越え、見積もりは 94906266 になる。
-/

namespace BlazingSql

open ComputeAggregateKernel KernelState

/-! ## 一つの batch -/

theorem totalRows_eq_of_perm {ts us : List BlazingTable} (h : ts.Perm us) :
    totalRows ts = totalRows us :=
  (h.map _).sum_eq

theorem totalRows_flatten (L : List (List BlazingTable)) :
    totalRows L.flatten = (L.map totalRows).sum := by
  induction L <;> simp [*]

theorem length_groupKeys_le (g : List Nat) (rows : List Row) :
    (groupKeys g rows).length ≤ rows.length :=
  (List.dedup_sublist _).length_le.trans_eq (List.length_map _ _)

@[simp] theorem numRows_groupedTable (t : BlazingTable) (g : List Nat)
    (aggs : List (AggregateKind × Nat)) (aliases : List String) (h) :
    (groupedTable t g aggs aliases h).numRows = (groupKeys g t.rows).length := by
  simp [groupedTable, BlazingTable.numRows]

/-- group のある形と group だけの形では、`do_process` の出力は group key ごとに一行なので、
入力より多くの行を持たない。 -/
theorem numRows_doProcess_le {e : GroupByExpression} {b t : BlazingTable}
    (hshape : e.aggregationTypes.length = 0 ∨ e.groupColumnIndices.length ≠ 0)
    (h : doProcess e b = .ok t) : t.numRows ≤ b.numRows := by
  unfold doProcess computeGroupbyWithoutAggregations computeAggregationsWithoutGroupby
    computeAggregationsWithGroupby at h
  split_ifs at h with hA hG
  · obtain ⟨_, -, h⟩ := bind_eq_ok.mp h
    cases h
    exact (numRows_groupedTable ..).trans_le (length_groupKeys_le _ _)
  · omega
  · obtain ⟨_, -, h⟩ := bind_eq_ok.mp h
    cases h
    exact (numRows_groupedTable ..).trans_le (length_groupKeys_le _ _)

/-- 一つの task が output cache に入れる行は、入力の batch の行より多くない。 -/
theorem totalRows_task_le (dropEmpty : Bool) {e : GroupByExpression}
    (hshape : e.aggregationTypes.length = 0 ∨ e.groupColumnIndices.length ≠ 0) :
    ∀ inputs, totalRows (task dropEmpty e inputs) ≤ totalRows inputs
  | [] => le_rfl
  | input :: rest => by
    cases h : doProcess e input with
    | error => simp [task, h]
    | ok columns =>
      have := numRows_doProcess_le hshape h
      simp only [task, h]
      split <;> simp
      omega

/-- group のない aggregation の task は、整った batch から一行の部分結果を作って入れる。 -/
theorem task_scalar (dropEmpty : Bool) {e : GroupByExpression} {b : BlazingTable}
    (hG : e.groupColumnIndices.length = 0) (hA : e.aggregationTypes.length ≠ 0)
    (hcols : ∀ i ∈ e.aggregationInputExpressions, i < b.names.length) :
    task dropEmpty e [b] = [scalarPartial e b] := by
  simp [task, compute_scalar hG hA hcols, accepts, BlazingTable.numRows]

/-- key の同じ二行の batch。 -/
def sameKeyBatch : BlazingTable := ⟨["k", "v"], [[some 1, some 10], [some 1, some 5]], by simp⟩

/-! ## 二つの `total_rows_added()` -/

section Counters

variable {kind : KernelKind} {process : List BlazingTable → List BlazingTable}
  {s s' : KernelState BlazingTable BlazingTable}

/-- `do_process` を終えた task の出力の行は、task に渡った batch の行より多くない。 -/
theorem totalRows_doneOutputs_le (hle : ∀ inputs, totalRows (process inputs) ≤ totalRows inputs) :
    ∀ tasks : List (TaskRec BlazingTable),
      totalRows (doneOutputs process tasks) ≤ totalRows (tasks.map TaskRec.inputs).flatten
  | [] => le_rfl
  | t :: ts => by
    have := totalRows_doneOutputs_le hle ts
    have := hle t.inputs
    simp only [doneOutputs, List.map_cons, List.flatten_cons, totalRows_append] at *
    split <;> simp <;> omega

/-- `run()` の loop を抜けた後、入力の cache に入った行は上流の全部の行。 -/
theorem inputRowsAdded_of_afterLoop {stream : List BlazingTable}
    (hinv : BarrierInv kind process stream s) (hl : s.pc.IsAfterLoop) :
    s.inputRowsAdded = totalRows stream := by
  have hcol : s.pc.collected = [] := by
    rcases hpc : s.pc <;> simp_all [RunPc.IsAfterLoop, RunPc.collected]
  simp [inputRowsAdded, hinv.handed_all hl, hcol, (hinv.afterLoop hl).2]

end Counters

/-! ## 見積もり -/

section Estimate

variable {dropEmpty : Bool} {e : GroupByExpression} {stream : List BlazingTable}
  {s : KernelState BlazingTable BlazingTable}

/-- **group のある形と group だけの形では、到達できるどの状態でも、出力の cache に入った行は
入力の cache に入った行より多くない。** -/
theorem outputRowsAdded_le_inputRowsAdded {kind : KernelKind}
    (hshape : e.aggregationTypes.length = 0 ∨ e.groupColumnIndices.length ≠ 0)
    (hs : Reachable kind (task dropEmpty e) stream s) :
    s.outputRowsAdded ≤ s.inputRowsAdded := by
  have hinv := hs.barrierInv
  calc s.outputRowsAdded = totalRows (doneOutputs (task dropEmpty e) s.tasks) :=
        totalRows_eq_of_perm hinv.output
    _ ≤ totalRows (s.tasks.map TaskRec.inputs).flatten :=
        totalRows_doneOutputs_le (totalRows_task_le dropEmpty hshape) _
    _ ≤ s.inputRowsAdded := by simp [inputRowsAdded]

/-- `(uint64_t)(((double)total) * out / in)` は、積 `total * out` が `2^53` より小さく、`in` が
`total` 以下なら、自然数の計算 `total * out / in` に等しい。三つの数も積も `double` で正確に
表せ、商の丸めは次の整数を越えない。 -/
theorem floor_estimateQuotient {total out inRows : Nat} (hin : 0 < inRows) (hle : inRows ≤ total)
    (hexact : total * out < 2 ^ 53) :
    ⌊roundDouble (roundDouble (roundDouble total * roundDouble out) / roundDouble inRows)⌋₊ =
      total * out / inRows := by
  rcases Nat.eq_zero_or_pos out with rfl | hout
  · simp
  have htotal : total < 2 ^ 53 := (Nat.le_mul_of_pos_right total hout).trans_lt hexact
  have hout' : out < 2 ^ 53 :=
    (Nat.le_mul_of_pos_left out (hin.trans_le hle)).trans_lt hexact
  rw [roundDouble_natCast htotal, roundDouble_natCast hout',
    roundDouble_natCast (hle.trans_lt htotal), ← Nat.cast_mul, roundDouble_natCast hexact]
  exact floor_roundDouble_div hin hexact

/- 積が `2^53` 以上では、丸めで一つずれる。入力と出力と上流の見積もりがどれも 94906267 行のとき、
見積もりは 94906266。 -/
example : ⌊roundDouble (roundDouble (roundDouble (94906267 : ℕ) * roundDouble (94906267 : ℕ)) /
    roundDouble (94906267 : ℕ))⌋₊ = 94906266 := by
  -- 積 94906267² は `2^53` と `2^54` の間の奇数で、偶数の方に丸まる
  have hprod : roundDouble ((94906267 * 94906267 : ℕ) : ℚ) = 9007199515875288 := by
    have hlog : Int.log 2 |((94906267 * 94906267 : ℕ) : ℚ)| = 53 := by
      rw [abs_of_nonneg (Nat.cast_nonneg _), Int.log_natCast]
      exact_mod_cast Nat.log_eq_of_pow_le_of_lt_pow (by norm_num) (by norm_num)
    rw [roundDouble, doubleExponent, hlog, if_neg (by norm_num)]
    norm_num [roundHalfEven]
  -- 商は 94906267 より `1 / 94906267` だけ小さく、単位 `2^-26` の半分より離れている
  have hlog : Int.log 2 |(9007199515875288 : ℚ) / 94906267| = 26 := by
    have hfloor : ⌊(9007199515875288 : ℚ) / 94906267⌋₊ = 94906266 := by
      rw [Nat.floor_eq_iff (by norm_num)]; norm_num
    rw [abs_of_nonneg (by norm_num), Int.log_of_one_le_right _ (by norm_num), hfloor]
    exact_mod_cast Nat.log_eq_of_pow_le_of_lt_pow (by norm_num) (by norm_num)
  have hm : ⌊(9007199515875288 : ℚ) / 94906267 / 2 ^ (26 - 52 : ℤ)⌋ = 6369051764850687 := by
    rw [Int.floor_eq_iff]; norm_num
  rw [roundDouble_natCast (by norm_num), ← Nat.cast_mul, hprod, Nat.cast_ofNat, roundDouble,
    doubleExponent, hlog, if_neg (by norm_num)]
  norm_num [roundHalfEven, hm]
  rw [Nat.floor_eq_iff (by norm_num)]; norm_num

/-- group のない aggregation でなければ、`double` の計算が正確な範囲で、見積もりは上流の
見積もりを縮めたもの。 -/
theorem getEstimatedOutputNumRows_of_shape
    (hshape : e.aggregationTypes.length = 0 ∨ e.groupColumnIndices.length ≠ 0) (total : Nat)
    (hin : 0 < s.inputRowsAdded) (hle : s.inputRowsAdded ≤ total)
    (hexact : total * s.outputRowsAdded < 2 ^ 53) :
    getEstimatedOutputNumRows e (true, total) s =
      (true, total * s.outputRowsAdded / s.inputRowsAdded) := by
  have hnot : ¬ (0 < e.aggregationTypes.length ∧ e.groupColumnIndices.length = 0) := by omega
  rw [getEstimatedOutputNumRows, if_neg hnot]
  simp only [if_true, roundDouble_eq_zero, Nat.cast_eq_zero, hin.ne', if_false]
  rw [floor_estimateQuotient hin hle hexact]

/-- `sameKeyBatch` 一つを、Compute が最後まで処理する実行。 -/
theorem sameKey_run :
    ∃ s, Reachable .compute (task false (sumBy 0 1)) [sameKeyBatch] s ∧ s.pc = .returned ∧
      s.inputRowsAdded = 2 ∧ s.outputRowsAdded = 1 :=
  have h₀ : Reachable .compute (task false (sumBy 0 1)) [sameKeyBatch] (.init .compute _) := .init
  have hreach := ((((((((h₀.step (Step.produce rfl)).step (Step.finish rfl)).step
    (Step.pull rfl rfl)).step (Step.pullNull rfl rfl rfl)).step (Step.start (i := 0) rfl rfl)).step
    (Step.process (i := 0) rfl rfl)).step (Step.remove (i := 0) rfl rfl)).step
    (Step.passBarrier rfl (by decide)))
  ⟨_, hreach, rfl, rfl, rfl⟩

/--
**見積もりは、今までに出した行の数と上流の見積もりの間にある。**

group のある形と group だけの形の Compute の実行で、到達できるどの状態でも、入力の cache に
行が入っていて、上流の見積もり `total` がそれ以上で、`total` と出力の行の数の積が `2^53` より
小さければ、見積もりは分かっていて、その値は出力の cache に入った行の数以上、`total` 以下。
積が `2^53` 以上なら、`double` の丸めで出力の行の数より小さくなりうる。
-/
theorem estimate_between {total : Nat}
    (hshape : e.aggregationTypes.length = 0 ∨ e.groupColumnIndices.length ≠ 0)
    (hs : Reachable .compute (task dropEmpty e) stream s) (hin : 0 < s.inputRowsAdded)
    (htotal : s.inputRowsAdded ≤ total) (hexact : total * s.outputRowsAdded < 2 ^ 53) :
    ∃ n, getEstimatedOutputNumRows e (true, total) s = (true, n) ∧
      s.outputRowsAdded ≤ n ∧ n ≤ total := by
  have hle := outputRowsAdded_le_inputRowsAdded hshape hs
  refine ⟨_, getEstimatedOutputNumRows_of_shape hshape total hin htotal hexact, ?_, ?_⟩
  · rw [Nat.le_div_iff_mul_le hin]
    calc s.outputRowsAdded * s.inputRowsAdded ≤ s.outputRowsAdded * total :=
          Nat.mul_le_mul_left _ htotal
      _ = total * s.outputRowsAdded := Nat.mul_comm _ _
  · apply Nat.div_le_of_le_mul
    calc total * s.outputRowsAdded ≤ total * s.inputRowsAdded := Nat.mul_le_mul_left _ hle
      _ = s.inputRowsAdded * total := Nat.mul_comm _ _

theorem estimate_between_sameKey :
    ∃ s, Reachable .compute (task false (sumBy 0 1)) [sameKeyBatch] s ∧
      ∃ n, getEstimatedOutputNumRows (sumBy 0 1) (true, 3) s = (true, n) ∧
        s.outputRowsAdded ≤ n ∧ n ≤ 3 := by
  obtain ⟨s, hs, -, hin, hout⟩ := sameKey_run
  exact ⟨s, hs, estimate_between (Or.inr (by decide)) hs (by omega) (by omega) (by omega)⟩

/-- **`run()` が返った後は、上流の見積もりが正確なら、見積もりも出力の行の数に等しい。**
入力の行の数と出力の行の数の積が `2^53` より小さいとき。積が `2^53` 以上なら、`double` の
丸めで一つずれうる。 -/
theorem estimate_exact_of_returned
    (hshape : e.aggregationTypes.length = 0 ∨ e.groupColumnIndices.length ≠ 0)
    (hs : Reachable .compute (task dropEmpty e) stream s) (hpc : s.pc = .returned)
    (hrows : 0 < totalRows stream) (hexact : totalRows stream * s.outputRowsAdded < 2 ^ 53) :
    getEstimatedOutputNumRows e (true, totalRows stream) s = (true, s.outputRowsAdded) := by
  have hin := inputRowsAdded_of_afterLoop hs.barrierInv (by rw [hpc]; trivial)
  rw [getEstimatedOutputNumRows_of_shape hshape _ (hin ▸ hrows) hin.le hexact, hin,
    Nat.mul_div_cancel_left _ hrows]

theorem estimate_exact_of_returned_sameKey :
    ∃ s, Reachable .compute (task false (sumBy 0 1)) [sameKeyBatch] s ∧ s.pc = .returned ∧
      getEstimatedOutputNumRows (sumBy 0 1) (true, 2) s = (true, 1) := by
  obtain ⟨s, hs, hpc, -, hout⟩ := sameKey_run
  have hrows : totalRows [sameKeyBatch] = 2 := rfl
  have h := estimate_exact_of_returned (Or.inr (by decide)) hs hpc (by rw [hrows]; decide)
    (by rw [hrows, hout]; decide)
  rw [hrows, hout] at h
  exact ⟨s, hs, hpc, h⟩

/-- group のない aggregation では、`run()` が返った後、出力の cache には batch ごとに一行が
入っている。 -/
theorem outputRowsAdded_scalar_of_returned (hG : e.groupColumnIndices.length = 0)
    (hA : e.aggregationTypes.length ≠ 0)
    (hcols : ∀ b ∈ stream, ∀ i ∈ e.aggregationInputExpressions, i < b.names.length)
    (hs : Reachable .compute (task dropEmpty e) stream s) (hpc : s.pc = .returned) :
    s.outputRowsAdded = stream.length := by
  have hinv := hs.barrierInv
  have hstream := hinv.handed_all (by rw [hpc]; trivial)
  have hone : ∀ t ∈ s.tasks, totalRows (task dropEmpty e t.inputs) = t.inputs.length := by
    intro t ht
    obtain ⟨b, hb⟩ := List.length_eq_one.mp (hinv.oneBatch nofun t ht)
    have hbs : b ∈ stream :=
      hstream ▸ List.mem_flatten.mpr ⟨_, List.mem_map_of_mem _ ht, hb ▸ List.mem_singleton_self b⟩
    simp [hb, task_scalar dropEmpty hG hA (hcols b hbs), BlazingTable.numRows]
  have hall := hinv.afterBarrier (by rw [hpc]; trivial)
  calc s.outputRowsAdded
      = totalRows (s.tasks.map fun t => task dropEmpty e t.inputs).flatten :=
        totalRows_eq_of_perm (doneOutputs_of_removed _ hall ▸ hinv.output)
    _ = (s.tasks.map fun t => t.inputs.length).sum := by
        rw [totalRows_flatten, List.map_map]
        exact congrArg List.sum (List.map_congr_left hone)
    _ = stream.length := by rw [← hstream, List.length_flatten, List.map_map]; rfl

/--
**group のない aggregation の見積もり 1 は、batch が一つのときにだけ正しい。**

Compute は batch ごとに一行の部分結果を出すので、`run()` が返った後の出力の行の数は
batch の数に等しい。見積もりは上流によらず 1 なので、両者が一致するのは batch が一つのとき。
-/
theorem estimate_scalar_exact_iff (hG : e.groupColumnIndices.length = 0)
    (hA : e.aggregationTypes.length ≠ 0)
    (hcols : ∀ b ∈ stream, ∀ i ∈ e.aggregationInputExpressions, i < b.names.length)
    (hs : Reachable .compute (task dropEmpty e) stream s) (hpc : s.pc = .returned)
    (totalIn : Bool × Nat) :
    (getEstimatedOutputNumRows e totalIn s).2 = s.outputRowsAdded ↔ stream.length = 1 := by
  rw [outputRowsAdded_scalar_of_returned hG hA hcols hs hpc, getEstimatedOutputNumRows,
    if_pos ⟨Nat.pos_of_ne_zero hA, hG⟩]
  exact eq_comm

/-- group のない SUM を二つの batch に掛けると、見積もりは出力の行の数に届かない。 -/
theorem estimate_scalar_twoBatches :
    ∃ s, Reachable .compute (task false (sumAll 1))
        [pairBatch "k" "v" 1 10, pairBatch "k" "v" 2 5] s ∧ s.pc = .returned ∧
      (getEstimatedOutputNumRows (sumAll 1) (true, 2) s).2 ≠ s.outputRowsAdded := by
  have h₀ : Reachable .compute (task false (sumAll 1))
      [pairBatch "k" "v" 1 10, pairBatch "k" "v" 2 5] (.init .compute _) := .init
  have hreach := ((((((((((((h₀.step (Step.produce rfl)).step (Step.produce rfl)).step
    (Step.finish rfl)).step (Step.pull rfl rfl)).step (Step.pull rfl rfl)).step
    (Step.pullNull rfl rfl rfl)).step (Step.start (i := 0) rfl rfl)).step
    (Step.process (i := 0) rfl rfl)).step (Step.remove (i := 0) rfl rfl)).step
    (Step.start (i := 1) rfl rfl)).step (Step.process (i := 1) rfl rfl)).step
    (Step.remove (i := 1) rfl rfl)).step (Step.passBarrier rfl (by decide))
  exact ⟨_, hreach, rfl, (estimate_scalar_exact_iff (by decide) (by decide) (by decide) hreach rfl
    (true, 2)).not.mpr (by decide)⟩

end Estimate

end BlazingSql
