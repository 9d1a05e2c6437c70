import BlazingSql.Properties.Barrier

/-!
# kernel の `run()` が返るとき

`BlazingSql/Properties/Barrier.lean` は、到達できるどの状態でも barrier が守られることを示した。
ここでは `run()` が返ったときに output cache にあるものを、入力の batch の列で書く。
また、どの入力の列でも、worker と上流が順に進めば `run()` が返ることを示す。

* `KernelReturned` — `run()` が入力の列を受け取って返り、output cache に出力を残した
* `returnedOutput` — そのときの output cache にあるはずのもの。Compute と Distribute は
  batch ごとの `do_process` の出力をつないだもの、Merge は全部の batch をまとめた出力
* `output_perm_of_returned` — `run()` が返った状態の output cache は `returnedOutput` の並べ替え
* `kernelReturned_returnedOutput` — 上流が batch を全部入れて `finish()` を呼び、worker が
  task を作られた順に一つずつ終えれば、`run()` は返る
* `kernelReturned_perm_iff` — 二つを合わせると、`run()` が返って残しうる出力は、並べ替えを
  除いて `returnedOutput` だけ
* `exists_returned_of_reachable` — kernel は行き詰まらない。到達できるどの状態からも、worker が
  task を全部終え、上流が `finish()` を呼べば、`run()` は返る
-/

namespace BlazingSql

variable {α β : Type} {kind : KernelKind} {process : List α → List β} {stream : List α}

/-- kernel の `run()` が `stream` を入力にして返り、output cache に `out` を残した。 -/
def KernelReturned (kind : KernelKind) (process : List α → List β) (stream : List α)
    (out : List β) : Prop :=
  ∃ s, Reachable kind process stream s ∧ s.pc = .returned ∧ s.output = out

/-- `run()` が返ったときに output cache にあるはずのもの。Merge は全部の batch で一つの task を、
ほかの kernel は batch ごとに一つの task を作る。 -/
def returnedOutput : KernelKind → (List α → List β) → List α → List β
  | .merge, process, stream => process stream
  | _, process, stream => (stream.map fun b => process [b]).flatten

/-! ## 返った後の output cache -/

/-- **`run()` が返った状態の output cache は、`returnedOutput` の並べ替え。** barrier を抜けた
ときにはどの task も終わっていて、入力の batch は全部 task に渡っている。 -/
theorem output_perm_of_returned {s : KernelState α β} (hs : Reachable kind process stream s)
    (hpc : s.pc = .returned) : s.output.Perm (returnedOutput kind process stream) := by
  have hinv := hs.barrierInv
  have hstream := hinv.handed_all (by rw [hpc]; trivial)
  refine (doneOutputs_of_removed process (hinv.afterBarrier (by rw [hpc]; trivial)) ▸
    hinv.output).trans (List.Perm.of_eq ?_)
  -- Compute と Distribute の task は batch を一つずつ持つ
  have hone : kind ≠ .merge → (s.tasks.map fun t => process t.inputs).flatten =
      (stream.map fun b => process [b]).flatten := fun hk => by
    rw [← hstream, List.map_flatten, List.flatten_flatten, List.map_map, List.map_map]
    congr 1
    refine List.map_congr_left fun t ht => ?_
    obtain ⟨b, hb⟩ := List.length_eq_one.mp (hinv.oneBatch hk t ht)
    simp [hb]
  cases kind with
  | compute => exact hone nofun
  | distribute => exact hone nofun
  | merge =>
    obtain ⟨t, ht⟩ := List.length_eq_one.mp ((hinv.mergeTasks rfl).1 (by rw [hpc]; trivial))
    rw [ht] at hstream ⊢
    simp only [List.map_cons, List.map_nil, List.flatten_cons, List.flatten_nil,
      List.append_nil] at hstream ⊢
    rw [hstream, returnedOutput]

/-! ## 順に進める実行 -/

theorem Reachable.of_steps {s s' : KernelState α β} (hs : Reachable kind process stream s)
    (h : Relation.ReflTransGen (Step kind process) s s') : Reachable kind process stream s' := by
  induction h with
  | refl => exact hs
  | tail _ hstep ih => exact ih.step hstep

section Schedule

variable {s₀ : KernelState α β} {up cache : List α} {fin : Bool} {pc : RunPc α}
  {T : List (TaskRec α)} {O : List β}

/-- 最後に作った task を worker が始め、`do_process` を終え、task の集合から除く。 -/
theorem steps_runLastTask {bs : List α}
    (hs : Relation.ReflTransGen (Step kind process) s₀
      ⟨up, cache, fin, pc, T ++ [⟨bs, .queued⟩], O⟩) :
    Relation.ReflTransGen (Step kind process) s₀
      ⟨up, cache, fin, pc, T ++ [⟨bs, .removed⟩], O ++ process bs⟩ := by
  have hi : ∀ st, (T ++ [⟨bs, st⟩] : List (TaskRec α))[T.length]? = some ⟨bs, st⟩ := by simp
  have h₁ : Relation.ReflTransGen (Step kind process) s₀
      ⟨up, cache, fin, pc, T ++ [⟨bs, .running⟩], O⟩ := by
    simpa [KernelState.setStage] using hs.tail (Step.start (hi _) rfl)
  have h₂ : Relation.ReflTransGen (Step kind process) s₀
      ⟨up, cache, fin, pc, T ++ [⟨bs, .processed⟩], O ++ process bs⟩ := by
    simpa [KernelState.setStage] using h₁.tail (Step.process (hi _) rfl)
  simpa [KernelState.setStage] using h₂.tail (Step.remove (hi _) rfl)

/-- 上流が残りの batch を全部、順に入力の cache に入れる。 -/
theorem steps_produceAll :
    ∀ {up cache : List α}, Relation.ReflTransGen (Step kind process) s₀
      ⟨up, cache, false, pc, T, O⟩ →
      Relation.ReflTransGen (Step kind process) s₀ ⟨[], cache ++ up, false, pc, T, O⟩
  | [], _, hs => by simpa using hs
  | _ :: _, _, hs => by simpa using steps_produceAll (hs.tail (Step.produce rfl))

/-- Compute と Distribute の loop が、入力の cache の batch を一つずつ task にし、worker が
その task を終える。 -/
theorem steps_pullEach :
    ∀ {cache : List α} {T : List (TaskRec α)} {O : List β},
      Relation.ReflTransGen (Step kind process) s₀ ⟨[], cache, true, .pulling, T, O⟩ →
      Relation.ReflTransGen (Step kind process) s₀ ⟨[], [], true, .pulling,
        T ++ cache.map (fun b => ⟨[b], .removed⟩), O ++ (cache.map fun b => process [b]).flatten⟩
  | [], _, _, hs => by simpa using hs
  | b :: _, T, O, hs => by
    have h₁ : Relation.ReflTransGen (Step kind process) s₀
        ⟨[], _, true, .pulling, T ++ [⟨[b], .queued⟩], O⟩ := hs.tail (Step.pull rfl rfl)
    simpa using steps_pullEach (steps_runLastTask h₁)

/-- Merge の `wait_for_next()` の loop が、入力の cache の batch を全部集める。 -/
theorem steps_drainAll :
    ∀ {cache inputs : List α},
      Relation.ReflTransGen (Step kind process) s₀ ⟨[], cache, true, .draining inputs, T, O⟩ →
      Relation.ReflTransGen (Step kind process) s₀
        ⟨[], [], true, .draining (inputs ++ cache), T, O⟩
  | [], _, hs => by simpa using hs
  | _ :: _, _, hs => by simpa using steps_drainAll (hs.tail (Step.drain rfl rfl))

/-- barrier を抜けた後、Distribute は partition の数を送って `wait_for_count` を抜け、返る。 -/
theorem steps_afterBarrier
    (hs : Relation.ReflTransGen (Step kind process) s₀
      ⟨up, cache, fin, RunPc.afterBarrier kind, T, O⟩) :
    Relation.ReflTransGen (Step kind process) s₀ ⟨up, cache, fin, .returned, T, O⟩ := by
  cases kind with
  | distribute => exact (hs.tail (Step.sendCounts rfl)).tail (Step.waitCount rfl)
  | compute | merge => exact hs

end Schedule

/-- 上流が batch を全部入れて `finish()` を呼ぶまでの実行。 -/
theorem reachable_finished (kind : KernelKind) (process : List α → List β) (stream : List α) :
    Reachable kind process stream ⟨[], stream, true, RunPc.start kind, [], []⟩ := by
  have h := steps_produceAll (.refl : Relation.ReflTransGen (Step kind process)
    (.init kind stream) (.init kind stream))
  exact Reachable.init.of_steps (by simpa using h.tail (Step.finish rfl))

/-- **どの入力の列でも、`run()` は返ることができ、そのとき output cache には
`returnedOutput` がそのままの順で入っている。** 上流が batch を全部入れて `finish()` を呼び、
worker は task を作られた順に一つずつ終える。 -/
theorem kernelReturned_returnedOutput (kind : KernelKind) (process : List α → List β)
    (stream : List α) :
    KernelReturned kind process stream (returnedOutput kind process stream) := by
  have hfin := reachable_finished kind process stream
  have hpass : ∀ {T : List (TaskRec α)} {O : List β}, (∀ t ∈ T, t.stage = .removed) →
      Relation.ReflTransGen (Step kind process) ⟨[], stream, true, RunPc.start kind, [], []⟩
        ⟨[], [], true, .barrier, T, O⟩ →
      Reachable kind process stream ⟨[], [], true, .returned, T, O⟩ := fun hall h =>
    hfin.of_steps (steps_afterBarrier (h.tail (Step.passBarrier rfl hall)))
  -- Compute と Distribute：batch ごとに task を作って終え、barrier を抜ける
  have hbatch : RunPc.start kind = (.pulling : RunPc α) →
      Reachable kind process stream ⟨[], [], true, .returned,
      stream.map (fun b => ⟨[b], .removed⟩), (stream.map fun b => process [b]).flatten⟩ := by
    intro hpull
    have h₀ : Relation.ReflTransGen (Step kind process)
        ⟨[], stream, true, RunPc.start kind, [], []⟩ ⟨[], stream, true, .pulling, [], []⟩ :=
      hpull ▸ .refl
    have h := (steps_pullEach h₀).tail (Step.pullNull rfl rfl rfl)
    simp only [List.nil_append] at h
    exact hpass (by simp) h
  cases kind with
  | compute => exact ⟨_, hbatch rfl, rfl, rfl⟩
  | distribute => exact ⟨_, hbatch rfl, rfl, rfl⟩
  | merge =>
    -- Merge：全部の batch を集めて一つの task にし、それを終えて barrier を抜ける
    have h₀ : Relation.ReflTransGen (Step .merge process)
        ⟨[], stream, true, RunPc.start .merge, [], []⟩ ⟨[], stream, true, .draining [], [], []⟩ :=
      .single (Step.waitFinished rfl rfl)
    have h := steps_drainAll h₀
    have h' : Relation.ReflTransGen (Step .merge process) _
        ⟨[], [], true, .barrier, [] ++ [⟨stream, .queued⟩], []⟩ :=
      h.tail (Step.submitAll rfl rfl rfl)
    exact ⟨_, hpass (by simp) (steps_runLastTask h'), rfl, by simp [returnedOutput]⟩

/-! ## どの状態からも返れる -/

section Progress

variable (kind : KernelKind) (process : List α → List β)

/-- 一つの要素を、`f` で見て同じものに置き換えても、`f` で写した列は変わらない。 -/
theorem map_set_of_getElem? {γ : Type} {l : List α} {k : Nat} {a b : α} (f : α → γ)
    (h : l[k]? = some a) (hf : f b = f a) : (l.set k b).map f = l.map f := by
  refine List.ext_getElem? fun j => ?_
  rw [List.getElem?_map, List.getElem?_map, List.getElem?_set']
  split
  · subst j
    simp [h, hf]
  · rfl

/-- task `i` を worker が終えて、task の集合から除く。ほかの task と `run()` と上流は動かない。 -/
theorem exists_removed_at {s : KernelState α β} {i : Nat} {t : TaskRec α}
    (ht : s.tasks[i]? = some t) :
    ∃ s', Relation.ReflTransGen (Step kind process) s s' ∧ s'.upstream = s.upstream ∧
      s'.inputCache = s.inputCache ∧ s'.finished = s.finished ∧ s'.pc = s.pc ∧
      s'.tasks = s.tasks.set i { t with stage := .removed } := by
  have hget : ∀ st, (s.tasks.set i { t with stage := st })[i]? = some { t with stage := st } :=
    fun _ => by simp [List.getElem?_set', ht]
  cases hst : t.stage with
  | removed =>
    have hself : { t with stage := .removed } = t := by cases t; simp_all
    refine ⟨s, .refl, rfl, rfl, rfl, rfl, List.ext_getElem? fun j => ?_⟩
    rw [hself, List.getElem?_set']
    split <;> simp_all
  | processed => exact ⟨_, .single (Step.remove ht hst), rfl, rfl, rfl, rfl, rfl⟩
  | running =>
    exact ⟨_, (Relation.ReflTransGen.single (Step.process ht hst)).tail
      (Step.remove (t := { t with stage := .processed }) (hget _) rfl), rfl, rfl, rfl, rfl,
      List.set_set _ _ _ _⟩
  | queued =>
    exact ⟨_, ((Relation.ReflTransGen.single (Step.start ht hst)).tail
      (Step.process (i := i) (t := { t with stage := .running }) (hget _) rfl)).tail
      (Step.remove (i := i) (t := { t with stage := .processed })
        (by simp [KernelState.setStage, List.getElem?_set', ht]) rfl), rfl, rfl, rfl, rfl,
      by simp [KernelState.setStage, List.set_set]⟩

/-- index が `k` より小さい task を、worker が小さい順に終えて task の集合から除く。task の入力の
batch は変わらない。 -/
theorem exists_removed_below (s : KernelState α β) (k : Nat) :
    ∃ s', Relation.ReflTransGen (Step kind process) s s' ∧ s'.upstream = s.upstream ∧
      s'.inputCache = s.inputCache ∧ s'.finished = s.finished ∧ s'.pc = s.pc ∧
      s'.tasks.map TaskRec.inputs = s.tasks.map TaskRec.inputs ∧
      ∀ i < k, ∀ t : TaskRec α, s'.tasks[i]? = some t → t.stage = .removed := by
  induction k with
  | zero => exact ⟨s, .refl, rfl, rfl, rfl, rfl, rfl, fun _ h => absurd h (Nat.not_lt_zero _)⟩
  | succ k ih =>
    obtain ⟨s₁, h₁, hu, hc, hf, hpc, hin, hk⟩ := ih
    cases ht : s₁.tasks[k]? with
    | none =>
      refine ⟨s₁, h₁, hu, hc, hf, hpc, hin, fun i hi t hti => ?_⟩
      rcases Nat.lt_succ_iff_lt_or_eq.mp hi with hi | rfl
      · exact hk i hi t hti
      · simp [ht] at hti
    | some t =>
      obtain ⟨s₂, h₂, hu₂, hc₂, hf₂, hpc₂, hts⟩ := exists_removed_at kind process ht
      have hin₂ : s₂.tasks.map TaskRec.inputs = s₁.tasks.map TaskRec.inputs :=
        hts ▸ map_set_of_getElem? _ ht (b := { t with stage := .removed }) rfl
      refine ⟨s₂, h₁.trans h₂, hu₂.trans hu, hc₂.trans hc, hf₂.trans hf, hpc₂.trans hpc,
        hin₂.trans hin, fun i hi t' ht' => ?_⟩
      rw [hts, List.getElem?_set'] at ht'
      by_cases hki : k = i
      · subst hki
        rw [if_pos rfl, ht] at ht'
        obtain rfl := Option.some.inj ht'
        rfl
      · rw [if_neg hki] at ht'
        exact hk i (by omega) t' ht'

/-- 作った task を全部、worker が index の小さい順に終えて task の集合から除く。 -/
theorem exists_all_removed (s : KernelState α β) :
    ∃ s', Relation.ReflTransGen (Step kind process) s s' ∧ s'.upstream = s.upstream ∧
      s'.inputCache = s.inputCache ∧ s'.finished = s.finished ∧ s'.pc = s.pc ∧
      ∀ t ∈ s'.tasks, t.stage = .removed := by
  obtain ⟨s', h, hu, hc, hf, hpc, hin, hk⟩ := exists_removed_below kind process s s.tasks.length
  refine ⟨s', h, hu, hc, hf, hpc, fun t ht => ?_⟩
  obtain ⟨i, hi⟩ := List.mem_iff_getElem?.mp ht
  have hlen : s'.tasks.length = s.tasks.length := by simpa using congrArg List.length hin
  exact hk i (hlen ▸ (List.getElem?_eq_some_iff.mp hi).1) t hi

/-- 上流が残りの batch を全部入れて `finish()` を呼ぶ。 -/
theorem steps_finished (s : KernelState α β) (hfin : s.finished = true → s.upstream = []) :
    Relation.ReflTransGen (Step kind process) s
      ⟨[], s.inputCache ++ s.upstream, true, s.pc, s.tasks, s.output⟩ := by
  obtain ⟨up, cache, fin, pc, T, O⟩ := s
  cases fin with
  | true =>
    obtain rfl : up = [] := hfin rfl
    simp only [List.append_nil]
    exact .refl
  | false => exact (steps_produceAll .refl).tail (Step.finish rfl)

/-- 上流が `finish()` の後に batch を残していなければ、どの状態からも、上流が batch を全部入れて
`finish()` を呼び、worker が作られた task を全部終え、`run()` が loop と barrier を進めれば、
`run()` は返る。 -/
theorem exists_returned (s : KernelState α β) (hfin : s.finished = true → s.upstream = []) :
    ∃ s', Relation.ReflTransGen (Step kind process) s s' ∧ s'.pc = .returned := by
  obtain ⟨s₁, h₁, hu, hc, hf, hpc, hall⟩ := exists_all_removed kind process s
  have h₂ := h₁.trans (steps_finished kind process s₁ (hu ▸ hf ▸ hfin))
  obtain ⟨up, cache, fin, pc, T, O⟩ := s₁
  simp only at hall h₂
  -- barrier を抜けた後は、`run()` は Distribute の数を送って返る
  have hpass : ∀ {cache : List α} {T : List (TaskRec α)} {O : List β},
      (∀ t ∈ T, t.stage = .removed) →
      Relation.ReflTransGen (Step kind process) s ⟨[], cache, true, .barrier, T, O⟩ →
      ∃ s', Relation.ReflTransGen (Step kind process) s s' ∧ s'.pc = .returned :=
    fun hall h => ⟨_, steps_afterBarrier (h.tail (Step.passBarrier rfl hall)), rfl⟩
  -- Merge が集めた batch を一つの task にして終える
  have hsubmit : ∀ {inputs : List α},
      Relation.ReflTransGen (Step kind process) s ⟨[], [], true, .draining inputs, T, O⟩ →
      ∃ s', Relation.ReflTransGen (Step kind process) s s' ∧ s'.pc = .returned :=
    fun h => hpass (fun t ht => (List.mem_append.mp ht).elim (hall t) fun ht => by
        rw [List.mem_singleton.mp ht])
      (steps_runLastTask (h.tail (Step.submitAll rfl rfl rfl)))
  cases pc with
  | pulling =>
    exact hpass (fun t ht => (List.mem_append.mp ht).elim (hall t) fun ht => by
        obtain ⟨b, -, rfl⟩ := List.mem_map.mp ht; rfl)
      ((steps_pullEach h₂).tail (Step.pullNull rfl rfl rfl))
  | waitFinished => exact hsubmit (steps_drainAll (h₂.tail (Step.waitFinished rfl rfl)))
  | draining inputs => exact hsubmit (steps_drainAll h₂)
  | barrier => exact hpass hall h₂
  | sendCounts => exact ⟨_, (h₂.tail (Step.sendCounts rfl)).tail (Step.waitCount rfl), rfl⟩
  | waitCount => exact ⟨_, h₂.tail (Step.waitCount rfl), rfl⟩
  | returned => exact ⟨_, h₂, rfl⟩

end Progress

/--
**kernel は行き詰まらない。** どの入力の列でも、到達できるどの状態からも `run()` は返ることが
でき、返ったときの output cache は `returnedOutput` の並べ替え。

`kernel_cv` の wait は、作った task が全部除かれるまで待つ。worker はどの task もいつでも
進められるので、この wait はいつか抜けられる。
-/
theorem exists_returned_of_reachable {s : KernelState α β}
    (hs : Reachable kind process stream s) :
    ∃ s', Relation.ReflTransGen (Step kind process) s s' ∧ s'.pc = .returned ∧
      s'.output.Perm (returnedOutput kind process stream) := by
  obtain ⟨s', h, hpc⟩ := exists_returned kind process s hs.barrierInv.upstream_of_finished
  exact ⟨s', h, hpc, output_perm_of_returned (hs.of_steps h) hpc⟩

/-- 上流が batch `7` を入れ、`run()` がそれを task にした直後の Compute。 -/
theorem exists_returned_of_reachable_pulled :
    Reachable .compute (fun bs : List Nat => bs) [7, 8]
        ⟨[8], [], false, .pulling, [⟨[7], .queued⟩], []⟩ ∧
      ∃ s', Relation.ReflTransGen (Step .compute (fun bs : List Nat => bs))
          ⟨[8], [], false, .pulling, [⟨[7], .queued⟩], []⟩ s' ∧ s'.pc = .returned ∧
        s'.output.Perm (returnedOutput .compute (fun bs : List Nat => bs) [7, 8]) := by
  have hs : Reachable .compute (fun bs : List Nat => bs) [7, 8]
      ⟨[8], [], false, .pulling, [⟨[7], .queued⟩], []⟩ :=
    (Reachable.init.step (Step.produce rfl)).step (Step.pull rfl rfl)
  exact ⟨hs, exists_returned_of_reachable hs⟩

/-- **`run()` が返って残しうる出力は、並べ替えを除いて `returnedOutput` だけ。**
どの入力の列でも `run()` は返ることができ、上流と `run()` と worker がどの順に進んでも、
返ったときの output cache は `returnedOutput` の並べ替え。 -/
theorem kernelReturned_perm_iff (kind : KernelKind) (process : List α → List β) (stream : List α)
    (out : List β) :
    (∃ out', KernelReturned kind process stream out' ∧ out'.Perm out) ↔
      out.Perm (returnedOutput kind process stream) := by
  constructor
  · rintro ⟨_, ⟨s, hs, hpc, rfl⟩, hperm⟩
    exact hperm.symm.trans (output_perm_of_returned hs hpc)
  · exact fun h => ⟨_, kernelReturned_returnedOutput kind process stream, h.symm⟩

end BlazingSql
