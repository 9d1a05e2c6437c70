import BlazingSql.Executor

/-!
# kernel の completion barrier

`run()` は `kernel_cv` の wait を、自分が作った task が全部 `do_process` を終えて task の集合から
除かれたときにだけ抜ける。不変条件 `BarrierInv` を初期状態と一歩ごとに示し、
到達できるどの状態でも成り立たせる。

* `BarrierInv` — 入力の batch はどれもちょうど一つの task に渡るか、まだ cache か上流にある。
  output cache は `do_process` を終えた task の出力の並べ替え。loop を抜けた後は入力が尽きていて、
  barrier を抜けた後はどの task も除かれている
* `step_output_of_returned` — `run()` が返った後、どの遷移も output cache を変えない
* `kernel_barrier` — 到達できるどの状態でも、barrier・一つの batch に一つの task・
  return の後に出力がないこと・partition の数を送る時点で全部の出力が済んでいること
-/

namespace BlazingSql

variable {α β : Type}

/-! ## `run()` の位置 -/

namespace RunPc

@[simp] theorem collected_pulling : (pulling : RunPc α).collected = [] := rfl
@[simp] theorem collected_waitFinished : (waitFinished : RunPc α).collected = [] := rfl
@[simp] theorem collected_draining (inputs : List α) : (draining inputs).collected = inputs := rfl
@[simp] theorem collected_barrier : (barrier : RunPc α).collected = [] := rfl

@[simp] theorem collected_afterBarrier (kind : KernelKind) :
    (afterBarrier kind : RunPc α).collected = [] := by
  cases kind <;> rfl

theorem isAfterLoop_afterBarrier (kind : KernelKind) : (afterBarrier kind : RunPc α).IsAfterLoop := by
  cases kind <;> trivial

theorem isAfterBarrier_afterBarrier (kind : KernelKind) :
    (afterBarrier kind : RunPc α).IsAfterBarrier := by
  cases kind <;> trivial

end RunPc

/-- `run()` の位置が kernel の形に合うこと。 -/
def PcFits : KernelKind → RunPc α → Prop
  | .compute, .pulling | .compute, .barrier | .compute, .returned => True
  | .distribute, .pulling | .distribute, .barrier | .distribute, .sendCounts
  | .distribute, .waitCount | .distribute, .returned => True
  | .merge, .waitFinished | .merge, .draining _ | .merge, .barrier | .merge, .returned => True
  | _, _ => False

theorem pcFits_start (kind : KernelKind) : PcFits kind (RunPc.start kind : RunPc α) := by
  cases kind <;> trivial

theorem pcFits_afterBarrier (kind : KernelKind) :
    PcFits kind (RunPc.afterBarrier kind : RunPc α) := by
  cases kind <;> trivial

theorem pcFits_barrier (kind : KernelKind) : PcFits kind (.barrier : RunPc α) := by
  cases kind <;> trivial

section Fits

variable {kind : KernelKind}

theorem ne_merge_of_pcFits_pulling (h : PcFits kind (.pulling : RunPc α)) : kind ≠ .merge := by
  rintro rfl; exact h

theorem eq_merge_of_pcFits_draining {inputs : List α} (h : PcFits kind (.draining inputs)) :
    kind = .merge := by
  cases kind <;> first | rfl | exact h.elim

theorem eq_merge_of_pcFits_waitFinished (h : PcFits kind (.waitFinished : RunPc α)) :
    kind = .merge := by
  cases kind <;> first | rfl | exact h.elim

theorem eq_distribute_of_pcFits_sendCounts (h : PcFits kind (.sendCounts : RunPc α)) :
    kind = .distribute := by
  cases kind <;> first | rfl | exact h.elim

theorem eq_distribute_of_pcFits_waitCount (h : PcFits kind (.waitCount : RunPc α)) :
    kind = .distribute := by
  cases kind <;> first | rfl | exact h.elim

end Fits

/-! ## task の段階を変える -/

section SetStage

variable {l : List (TaskRec α)} {i : Nat} {t : TaskRec α}

theorem lt_length_of_getElem? (ht : l[i]? = some t) : i < l.length := by
  by_contra h
  rw [List.getElem?_eq_none (by omega)] at ht
  cases ht

/-- `do_process` を終えた task の出力を、作った順につないだもの。 -/
def doneOutputs (process : List α → List β) (tasks : List (TaskRec α)) : List β :=
  (tasks.map fun t => if t.stage.isDone then process t.inputs else []).flatten

@[simp] theorem doneOutputs_nil (process : List α → List β) : doneOutputs process [] = [] := rfl

@[simp] theorem doneOutputs_append_queued (process : List α → List β) (inputs : List α) :
    doneOutputs process (l ++ [⟨inputs, .queued⟩]) = doneOutputs process l := by
  simp [doneOutputs, TaskStage.isDone]

theorem map_inputs_set (ht : l[i]? = some t) (stage : TaskStage) :
    (l.set i { t with stage := stage }).map TaskRec.inputs = l.map TaskRec.inputs := by
  apply List.ext_getElem?
  intro j
  simp only [List.getElem?_map, List.getElem?_set]
  split
  · rename_i h; subst h; simp [ht, lt_length_of_getElem? ht]
  · rfl

theorem length_set_stage (stage : TaskStage) : (l.set i { t with stage := stage }).length = l.length :=
  List.length_set ..

theorem mem_set_stage {stage : TaskStage} {u : TaskRec α} (hu : u ∈ l.set i { t with stage := stage }) :
    u ∈ l ∨ u = { t with stage := stage } :=
  List.mem_or_eq_of_mem_set hu

/-- 終えたかどうかの変わらない段階の変化は、出力を変えない。 -/
theorem doneOutputs_set_same (process : List α → List β) (ht : l[i]? = some t) (stage : TaskStage)
    (hdone : stage.isDone = t.stage.isDone) :
    doneOutputs process (l.set i { t with stage := stage }) = doneOutputs process l := by
  unfold doneOutputs
  congr 1
  apply List.ext_getElem?
  intro j
  simp only [List.getElem?_map, List.getElem?_set]
  split
  · rename_i h; subst h; simp [ht, hdone, lt_length_of_getElem? ht]
  · rfl

/-- 列の `i` 番目の空の列を `ys` に置き換えてつなぐと、つないだものの後に `ys` を足した
ものの並べ替えになる。 -/
theorem flatten_set_perm {γ : Type} (ys : List γ) :
    ∀ {L : List (List γ)} {i : Nat}, L[i]? = some [] → (L.set i ys).flatten.Perm (L.flatten ++ ys)
  | [], _, h => by simp at h
  | l :: L, 0, h => by
    obtain rfl : l = [] := by simpa using h
    simpa using List.perm_append_comm
  | l :: L, i + 1, h => by
    simp only [List.set_cons_succ, List.flatten_cons, List.append_assoc]
    exact (flatten_set_perm ys (by simpa using h)).append_left l

/-- **`do_process` を終えると、出力はその task の出力だけ増える。** -/
theorem doneOutputs_set_processed (process : List α → List β) (ht : l[i]? = some t)
    (hst : t.stage = .running) :
    (doneOutputs process (l.set i { t with stage := .processed })).Perm
      (doneOutputs process l ++ process t.inputs) := by
  unfold doneOutputs
  rw [List.map_set]
  refine flatten_set_perm _ ?_
  simp [ht, hst, TaskStage.isDone]

end SetStage

/-! ## 不変条件 -/

/-- 到達できる状態が満たすこと。 -/
structure BarrierInv (kind : KernelKind) (process : List α → List β) (stream : List α)
    (s : KernelState α β) : Prop where
  /-- どの batch も、ちょうど一つの task か、Merge が集めた中か、入力の cache か上流にある -/
  conserve : (s.tasks.map TaskRec.inputs).flatten ++ s.pc.collected ++ s.inputCache ++ s.upstream =
    stream
  upstream_of_finished : s.finished = true → s.upstream = []
  /-- output cache は、`do_process` を終えた task の出力の並べ替え -/
  output : s.output.Perm (doneOutputs process s.tasks)
  pcFits : PcFits kind s.pc
  /-- Compute と Distribute の task は batch を一つずつ持つ -/
  oneBatch : kind ≠ .merge → ∀ t ∈ s.tasks, t.inputs.length = 1
  /-- Merge は loop を抜けるときに task を一つだけ作る -/
  mergeTasks : kind = .merge →
    (s.pc.IsAfterLoop → s.tasks.length = 1) ∧ (¬ s.pc.IsAfterLoop → s.tasks = [])
  /-- loop を抜けた後、入力の cache は終わって空 -/
  afterLoop : s.pc.IsAfterLoop → s.finished = true ∧ s.inputCache = []
  /-- barrier を抜けた後、どの task も除かれている -/
  afterBarrier : s.pc.IsAfterBarrier → ∀ t ∈ s.tasks, t.stage = .removed

theorem barrierInv_init (kind : KernelKind) (process : List α → List β) (stream : List α) :
    BarrierInv kind process stream (KernelState.init kind stream) where
  conserve := by cases kind <;> rfl
  upstream_of_finished := nofun
  output := by simp [KernelState.init]
  pcFits := pcFits_start kind
  oneBatch := fun _ t ht => absurd ht (List.not_mem_nil t)
  mergeTasks := fun h => by subst h; exact ⟨nofun, fun _ => rfl⟩
  afterLoop := by cases kind <;> nofun
  afterBarrier := by cases kind <;> nofun

section Preserve

variable {kind : KernelKind} {process : List α → List β} {stream : List α} {s : KernelState α β}

/-- **worker の一歩。** 除かれていない task の段階を変えても、出力が合えば不変条件は保たれる。 -/
theorem BarrierInv.setStage (hinv : BarrierInv kind process stream s) {i : Nat} {t : TaskRec α}
    (ht : s.tasks[i]? = some t) (hne : t.stage ≠ .removed) (stage : TaskStage) {output : List β}
    (hout : output.Perm (doneOutputs process (s.tasks.set i { t with stage := stage }))) :
    BarrierInv kind process stream { s.setStage i t stage with output := output } where
  conserve := by
    simpa [KernelState.setStage, map_inputs_set ht] using hinv.conserve
  upstream_of_finished := hinv.upstream_of_finished
  output := hout
  pcFits := hinv.pcFits
  oneBatch := fun hk u hu => by
    rcases mem_set_stage hu with hu | rfl
    · exact hinv.oneBatch hk u hu
    · exact hinv.oneBatch hk t (List.getElem?_mem ht)
  mergeTasks := fun hk => by
    refine ⟨fun hl => ?_, fun hl => ?_⟩
    · simpa [KernelState.setStage] using (hinv.mergeTasks hk).1 hl
    · rw [(hinv.mergeTasks hk).2 hl] at ht; cases ht
  afterLoop := hinv.afterLoop
  afterBarrier := fun hb => absurd (hinv.afterBarrier hb t (List.getElem?_mem ht)) hne

/-- **一歩ごとに不変条件は保たれる。** -/
theorem BarrierInv.step (hinv : BarrierInv kind process stream s) {s' : KernelState α β}
    (hstep : Step kind process s s') : BarrierInv kind process stream s' := by
  cases hstep with
  | produce h =>
    have hne : ¬ s.finished = true := fun hf => by simp [hinv.upstream_of_finished hf] at h
    exact ⟨by simpa [h] using hinv.conserve, fun hf => absurd hf hne, hinv.output, hinv.pcFits,
      hinv.oneBatch, hinv.mergeTasks, fun hl => absurd (hinv.afterLoop hl).1 hne, hinv.afterBarrier⟩
  | finish h =>
    exact ⟨hinv.conserve, fun _ => h, hinv.output, hinv.pcFits, hinv.oneBatch, hinv.mergeTasks,
      fun hl => ⟨rfl, (hinv.afterLoop hl).2⟩, hinv.afterBarrier⟩
  | pull hpc h =>
    have hk := ne_merge_of_pcFits_pulling (hpc ▸ hinv.pcFits)
    refine ⟨?_, hinv.upstream_of_finished, by simpa [KernelState.addTask] using hinv.output,
      hinv.pcFits, fun _ u hu => ?_, fun hm => absurd hm hk, fun hl => ?_, fun hb => ?_⟩
    · simpa [KernelState.addTask, hpc, h] using hinv.conserve
    · rcases List.mem_append.mp hu with hu | hu
      · exact hinv.oneBatch hk u hu
      · rw [List.mem_singleton.mp hu]; rfl
    · simp [KernelState.addTask, hpc, RunPc.IsAfterLoop] at hl
    · simp [KernelState.addTask, hpc, RunPc.IsAfterBarrier] at hb
  | pullNull hpc h hfin =>
    have hk := ne_merge_of_pcFits_pulling (hpc ▸ hinv.pcFits)
    exact ⟨by simpa [hpc] using hinv.conserve, hinv.upstream_of_finished, hinv.output,
      pcFits_barrier kind, hinv.oneBatch, fun hm => absurd hm hk, fun _ => ⟨hfin, h⟩, nofun⟩
  | waitFinished hpc hfin =>
    have hk := eq_merge_of_pcFits_waitFinished (hpc ▸ hinv.pcFits)
    subst hk
    refine ⟨by simpa [hpc] using hinv.conserve, hinv.upstream_of_finished, hinv.output, trivial,
      fun h => absurd rfl h, fun _ => ⟨nofun, fun _ => ?_⟩, nofun, nofun⟩
    exact (hinv.mergeTasks rfl).2 (by rw [hpc]; exact id)
  | drain hpc h =>
    have hk := eq_merge_of_pcFits_draining (hpc ▸ hinv.pcFits)
    subst hk
    refine ⟨by simpa [hpc, h] using hinv.conserve, hinv.upstream_of_finished, hinv.output, trivial,
      fun h => absurd rfl h, fun _ => ⟨nofun, fun _ => ?_⟩, nofun, nofun⟩
    exact (hinv.mergeTasks rfl).2 (by rw [hpc]; exact id)
  | submitAll hpc h hfin =>
    have hk := eq_merge_of_pcFits_draining (hpc ▸ hinv.pcFits)
    subst hk
    have hnil : s.tasks = [] := (hinv.mergeTasks rfl).2 (by rw [hpc]; exact id)
    refine ⟨?_, hinv.upstream_of_finished, by simpa [KernelState.addTask] using hinv.output,
      trivial, fun h => absurd rfl h, fun _ => ⟨fun _ => by simp [KernelState.addTask, hnil], fun h => (h trivial).elim⟩,
      fun _ => ⟨hfin, h⟩, nofun⟩
    simpa [KernelState.addTask, hpc, h] using hinv.conserve
  | passBarrier hpc hempty =>
    have hl : s.pc.IsAfterLoop := by rw [hpc]; trivial
    refine ⟨by simpa [hpc] using hinv.conserve, hinv.upstream_of_finished, hinv.output,
      pcFits_afterBarrier kind, hinv.oneBatch, fun hm => ⟨fun _ => (hinv.mergeTasks hm).1 hl,
        fun h => absurd (RunPc.isAfterLoop_afterBarrier kind) h⟩,
      fun _ => hinv.afterLoop hl, fun _ => hempty⟩
  | sendCounts hpc =>
    have hk := eq_distribute_of_pcFits_sendCounts (hpc ▸ hinv.pcFits)
    subst hk
    have hb : s.pc.IsAfterBarrier := by rw [hpc]; trivial
    exact ⟨by simpa [hpc] using hinv.conserve, hinv.upstream_of_finished, hinv.output, trivial,
      hinv.oneBatch, nofun, fun _ => hinv.afterLoop (by rw [hpc]; trivial),
      fun _ => hinv.afterBarrier hb⟩
  | waitCount hpc =>
    have hk := eq_distribute_of_pcFits_waitCount (hpc ▸ hinv.pcFits)
    subst hk
    have hb : s.pc.IsAfterBarrier := by rw [hpc]; trivial
    exact ⟨by simpa [hpc] using hinv.conserve, hinv.upstream_of_finished, hinv.output, trivial,
      hinv.oneBatch, nofun, fun _ => hinv.afterLoop (by rw [hpc]; trivial),
      fun _ => hinv.afterBarrier hb⟩
  | start ht hst =>
    exact hinv.setStage ht (by simp [hst]) .running
      ((doneOutputs_set_same process ht .running (by simp [hst, TaskStage.isDone])).symm ▸ hinv.output)
  | process ht hst =>
    exact hinv.setStage ht (by simp [hst]) .processed
      ((hinv.output.append_right _).trans (doneOutputs_set_processed process ht hst).symm)
  | remove ht hst =>
    exact hinv.setStage ht (by simp [hst]) .removed
      ((doneOutputs_set_same process ht .removed (by simp [hst, TaskStage.isDone])).symm ▸ hinv.output)

theorem Reachable.barrierInv (h : Reachable kind process stream s) :
    BarrierInv kind process stream s := by
  induction h with
  | init => exact barrierInv_init kind process stream
  | step _ hstep ih => exact ih.step hstep

/-! ## return の後 -/

/-- **`run()` が返り、どの task も除かれていれば、どの遷移も output cache を変えず、
その形のまま。** worker が動かせる task はもうなく、`run()` は新しい task を作らない。 -/
theorem step_output_of_returned (hpc : s.pc = .returned) (hall : ∀ t ∈ s.tasks, t.stage = .removed)
    {s' : KernelState α β} (hstep : Step kind process s s') :
    s'.output = s.output ∧ s'.pc = .returned ∧ ∀ t ∈ s'.tasks, t.stage = .removed := by
  cases hstep with
  | produce => exact ⟨rfl, hpc, hall⟩
  | finish => exact ⟨rfl, hpc, hall⟩
  | pull h => simp [hpc] at h
  | pullNull h => simp [hpc] at h
  | waitFinished h => simp [hpc] at h
  | drain h => simp [hpc] at h
  | submitAll h => simp [hpc] at h
  | passBarrier h => simp [hpc] at h
  | sendCounts h => simp [hpc] at h
  | waitCount h => simp [hpc] at h
  | start ht hst => simp [hall _ (List.getElem?_mem ht)] at hst
  | process ht hst => simp [hall _ (List.getElem?_mem ht)] at hst
  | remove ht hst => simp [hall _ (List.getElem?_mem ht)] at hst

/-- `run()` が返った後は、何歩進んでも output cache は変わらない。 -/
theorem output_eq_of_returned (hpc : s.pc = .returned) (hall : ∀ t ∈ s.tasks, t.stage = .removed)
    {s' : KernelState α β} (hrun : Relation.ReflTransGen (Step kind process) s s') :
    s'.output = s.output ∧ s'.pc = .returned ∧ ∀ t ∈ s'.tasks, t.stage = .removed := by
  induction hrun with
  | refl => exact ⟨rfl, hpc, hall⟩
  | tail _ hstep ih =>
    obtain ⟨hout, hpc', hall'⟩ := ih
    obtain ⟨hout', hpc'', hall''⟩ := step_output_of_returned hpc' hall' hstep
    exact ⟨hout'.trans hout, hpc'', hall''⟩

/-- barrier から出る遷移は `passBarrier` だけ。 -/
theorem tasks_removed_of_leave_barrier {s' : KernelState α β} (hstep : Step kind process s s')
    (hpc : s.pc = .barrier) (hpc' : s'.pc ≠ .barrier) : ∀ t ∈ s.tasks, t.stage = .removed := by
  cases hstep with
  | passBarrier _ hempty => exact hempty
  | pull h => simp [hpc] at h
  | pullNull h => simp [hpc] at h
  | waitFinished h => simp [hpc] at h
  | drain h => simp [hpc] at h
  | submitAll h => simp [hpc] at h
  | sendCounts h => simp [hpc] at h
  | waitCount h => simp [hpc] at h
  | _ => exact absurd hpc hpc'

end Preserve

/-! ## barrier の性質 -/

/-- loop を抜けた後、入力の batch は全部 task に渡っている。 -/
theorem BarrierInv.handed_all {kind : KernelKind} {process : List α → List β} {stream : List α}
    {s : KernelState α β} (hinv : BarrierInv kind process stream s) (hl : s.pc.IsAfterLoop) :
    (s.tasks.map TaskRec.inputs).flatten = stream := by
  have ⟨hfin, hcache⟩ := hinv.afterLoop hl
  have hcol : s.pc.collected = [] := by
    rcases hpc : s.pc <;> simp_all [RunPc.IsAfterLoop, RunPc.collected]
  simpa [hcol, hcache, hinv.upstream_of_finished hfin] using hinv.conserve

/-- どの task も `do_process` を終えていれば、出力は全部の task の出力。 -/
theorem doneOutputs_of_removed (process : List α → List β) {tasks : List (TaskRec α)}
    (hall : ∀ t ∈ tasks, t.stage = .removed) :
    doneOutputs process tasks = (tasks.map fun t => process t.inputs).flatten := by
  unfold doneOutputs
  congr 1
  exact List.map_congr_left fun t ht => by simp [hall t ht, TaskStage.isDone]

/-- 一つの kernel の `run()` について、到達できる状態で成り立つこと。 -/
structure BarrierProperties (kind : KernelKind) (process : List α → List β) (stream : List α)
    (s : KernelState α β) : Prop where
  /-- `kernel_cv` の wait を抜けるのは、作った task が全部 `do_process` を終えて除かれたとき
  だけで、そのとき入力の batch は全部 task に渡っている -/
  passBarrier : ∀ s', Step kind process s s' → s.pc = .barrier → s'.pc ≠ .barrier →
    (∀ t ∈ s.tasks, t.stage = .removed) ∧ (s.tasks.map TaskRec.inputs).flatten = stream
  /-- 取り出した batch はどれも、ちょうど一つの task に渡る -/
  handedOnce : (s.tasks.map TaskRec.inputs).flatten ++ s.pc.collected ++ s.inputCache ++ s.upstream =
    stream
  /-- Compute と Distribute では batch 一つに task 一つ -/
  oneBatch : kind ≠ .merge → ∀ t ∈ s.tasks, t.inputs.length = 1
  /-- Merge では task は一つだけ -/
  oneTask : kind = .merge → s.tasks.length ≤ 1
  /-- `run()` が返った後は、どの task も output cache に何も入れない -/
  frozen : s.pc = .returned →
    ∀ s', Relation.ReflTransGen (Step kind process) s s' → s'.output = s.output
  /-- Distribute が `send_total_partition_counts` を呼ぶ時点で、どの batch の出力
  （cache への `addToCache` と送信）も済んでいる -/
  sendCounts : s.pc = .sendCounts →
    kind = .distribute ∧ (∀ t ∈ s.tasks, t.stage = .removed) ∧
      (s.tasks.map TaskRec.inputs).flatten = stream ∧
      s.output.Perm (s.tasks.map fun t => process t.inputs).flatten

/--
**kernel の completion barrier。** どの入力の列についても、`run()` の thread と上流と
executor の worker のどの順の実行でも、到達できる状態は `BarrierProperties` を満たす。
-/
theorem kernel_barrier {kind : KernelKind} {process : List α → List β} {stream : List α}
    {s : KernelState α β} (hreach : Reachable kind process stream s) :
    BarrierProperties kind process stream s := by
  have hinv := hreach.barrierInv
  refine ⟨fun s' hstep hpc hpc' => ?_, hinv.conserve, hinv.oneBatch, fun hm => ?_,
    fun hpc s' hrun => (output_eq_of_returned hpc (hinv.afterBarrier (by rw [hpc]; trivial))
      hrun).1, fun hpc => ?_⟩
  · exact ⟨tasks_removed_of_leave_barrier hstep hpc hpc', hinv.handed_all (by rw [hpc]; trivial)⟩
  · by_cases hl : s.pc.IsAfterLoop
    · exact ((hinv.mergeTasks hm).1 hl).le
    · simp [(hinv.mergeTasks hm).2 hl]
  · have hall := hinv.afterBarrier (by rw [hpc]; trivial)
    exact ⟨eq_distribute_of_pcFits_sendCounts (hpc ▸ hinv.pcFits), hall,
      hinv.handed_all (by rw [hpc]; trivial), doneOutputs_of_removed process hall ▸ hinv.output⟩

/-- Compute は `[7]` の batch 一つに task を一つ作って返る。Merge は `[7, 8]` を全部集めて
task を一つだけ作り、和を出して返る。Distribute は `[7, 8]` に task を一つずつ作り、二つの
task は逆の順に `do_process` を終えて、`send_total_partition_counts` の前まで進む。 -/
theorem kernel_barrier_run :
    (∃ s, Reachable .compute (fun bs : List Nat => bs) [7] s ∧ s.pc = .returned ∧
      s.output = [7] ∧ BarrierProperties .compute (fun bs : List Nat => bs) [7] s) ∧
    (∃ s, Reachable .merge (fun bs : List Nat => [bs.sum]) [7, 8] s ∧ s.pc = .returned ∧
      s.tasks.length = 1 ∧ s.output = [15] ∧
      BarrierProperties .merge (fun bs : List Nat => [bs.sum]) [7, 8] s) ∧
    (∃ s, Reachable .distribute (fun bs : List Nat => bs) [7, 8] s ∧ s.pc = .sendCounts ∧
      s.output = [8, 7] ∧ BarrierProperties .distribute (fun bs : List Nat => bs) [7, 8] s) := by
  have hc := (Reachable.init : Reachable .compute (fun bs : List Nat => bs) [7] (.init _ _))
    |>.step (Step.produce rfl) |>.step (Step.finish rfl) |>.step (Step.pull rfl rfl)
    |>.step (Step.pullNull rfl rfl rfl) |>.step (Step.start (i := 0) rfl rfl)
    |>.step (Step.process (i := 0) rfl rfl) |>.step (Step.remove (i := 0) rfl rfl)
    |>.step (Step.passBarrier rfl (by decide))
  have hm := (Reachable.init : Reachable .merge (fun bs : List Nat => [bs.sum]) [7, 8] (.init _ _))
    |>.step (Step.produce rfl) |>.step (Step.produce rfl) |>.step (Step.finish rfl)
    |>.step (Step.waitFinished rfl rfl) |>.step (Step.drain rfl rfl) |>.step (Step.drain rfl rfl)
    |>.step (Step.submitAll rfl rfl rfl) |>.step (Step.start (i := 0) rfl rfl)
    |>.step (Step.process (i := 0) rfl rfl) |>.step (Step.remove (i := 0) rfl rfl)
    |>.step (Step.passBarrier rfl (by decide))
  have hd := (Reachable.init : Reachable .distribute (fun bs : List Nat => bs) [7, 8] (.init _ _))
    |>.step (Step.produce rfl) |>.step (Step.produce rfl) |>.step (Step.finish rfl)
    |>.step (Step.pull rfl rfl) |>.step (Step.pull rfl rfl) |>.step (Step.pullNull rfl rfl rfl)
    |>.step (Step.start (i := 0) rfl rfl) |>.step (Step.start (i := 1) rfl rfl)
    |>.step (Step.process (i := 1) rfl rfl) |>.step (Step.process (i := 0) rfl rfl)
    |>.step (Step.remove (i := 0) rfl rfl) |>.step (Step.remove (i := 1) rfl rfl)
    |>.step (Step.passBarrier rfl (by decide))
  exact ⟨⟨_, hc, rfl, rfl, kernel_barrier hc⟩, ⟨_, hm, rfl, rfl, rfl, kernel_barrier hm⟩,
    ⟨_, hd, rfl, rfl, kernel_barrier hd⟩⟩

end BlazingSql
