import Mathlib

/-!
# kernel の `run()` と executor

三つの kernel の `run()` は、入力の cache から batch を取り出して `add_task` で executor に渡し、
`kernel_cv` で task の集合が空になるのを待つ。一つの kernel について、その loop と上流と
executor の worker を遷移系として書く。

* `KernelState` — 上流がまだ入れていない batch、入力の cache、`run()` の位置、
  作った task とその段階、task が output cache に入れたもの
* `Step` — 上流の `addToCache`・`finish()`、`run()` の一歩、worker の一歩。どの順にも起こる
* kernel の task の集合 `this->tasks` は、段階が `removed` でない task の集合で表す

`do_process` は引数 `process` にする。task の入力の batch から、output cache に入れるもの
（Distribute では cache への `addToCache` と peer への送信）を作る。
-/

namespace BlazingSql

/-- `run()` の形。Compute と Distribute は batch ごとに task を作り、Merge は全部で一つ作る。 -/
inductive KernelKind where
  | compute
  | distribute
  | merge
  deriving DecidableEq, Repr

/-- `run()` の実行位置。 -/
inductive RunPc (α : Type) where
  /-- `while (cache_data != nullptr)`：`pullCacheData` と `add_task` の loop -/
  | pulling
  /-- Merge の `input_cache()->wait_until_finished()` -/
  | waitFinished
  /-- Merge の `wait_for_next()` の loop。`inputs` は取り出した batch -/
  | draining (inputs : List α)
  /-- `kernel_cv.wait(lock, [this]{ return this->tasks.empty(); })` -/
  | barrier
  /-- Distribute の `send_total_partition_counts` -/
  | sendCounts
  /-- Distribute の `get_total_partition_counts` と `wait_for_count` -/
  | waitCount
  /-- `return kstatus::proceed` -/
  | returned
  deriving DecidableEq, Repr

namespace RunPc

variable {α : Type}

/-- `run()` の最初の位置。 -/
def start : KernelKind → RunPc α
  | .merge => .waitFinished
  | _ => .pulling

/-- barrier を抜けた後の位置。Distribute だけが partition の数を送る。 -/
def afterBarrier : KernelKind → RunPc α
  | .distribute => .sendCounts
  | _ => .returned

/-- Merge が取り出して、まだ task に渡していない batch。 -/
def collected : RunPc α → List α
  | .draining inputs => inputs
  | _ => []

/-- 入力を全部 task に渡した後の位置。 -/
def IsAfterLoop : RunPc α → Prop
  | .barrier | .sendCounts | .waitCount | .returned => True
  | _ => False

/-- barrier を抜けた後の位置。 -/
def IsAfterBarrier : RunPc α → Prop
  | .sendCounts | .waitCount | .returned => True
  | _ => False

end RunPc

/-- task の段階。 -/
inductive TaskStage where
  /-- `add_task` が kernel の task の集合に入れ、executor の queue に置いた -/
  | queued
  /-- worker が `do_process` を始めた -/
  | running
  /-- `do_process` が終わった -/
  | processed
  /-- kernel の task の集合から除き、`kernel_cv` に notify した -/
  | removed
  deriving DecidableEq, Repr

/-- `do_process` を終えた段階か。 -/
def TaskStage.isDone : TaskStage → Bool
  | .processed | .removed => true
  | _ => false

/-- executor に渡した task。`(inputs, output_cache, kernel)` のうち入力の batch と段階。 -/
structure TaskRec (α : Type) where
  inputs : List α
  stage : TaskStage

/-- 一つの kernel と、その入力の cache の上流と、executor の worker の状態。 -/
structure KernelState (α β : Type) where
  /-- 上流がまだ入力の cache に入れていない batch -/
  upstream : List α
  /-- 入力の cache -/
  inputCache : List α
  /-- 上流が `finish()` を呼んだか -/
  finished : Bool
  pc : RunPc α
  /-- `add_task` が作った task。番号は作った順 -/
  tasks : List (TaskRec α)
  /-- task が output cache に入れたもの -/
  output : List β

namespace KernelState

variable {α β : Type}

/-- 上流が `stream` を入れる前の状態。 -/
def init (kind : KernelKind) (stream : List α) : KernelState α β :=
  ⟨stream, [], false, RunPc.start kind, [], []⟩

/-- Modelled from the spec: `add_task(inputs, output_cache, kernel)`。task を kernel の task の
集合に登録し、executor の queue に置く。 -/
def addTask (s : KernelState α β) (inputs : List α) : KernelState α β :=
  { s with tasks := s.tasks ++ [⟨inputs, .queued⟩] }

/-- task `i` の段階を変える。 -/
def setStage (s : KernelState α β) (i : Nat) (t : TaskRec α) (stage : TaskStage) :
    KernelState α β :=
  { s with tasks := s.tasks.set i { t with stage := stage } }

end KernelState

open KernelState

/-- 一つの kernel の遷移。`process` は kernel の `do_process`。 -/
inductive Step {α β : Type} (kind : KernelKind) (process : List α → List β) :
    KernelState α β → KernelState α β → Prop
  /-- 上流が batch を入力の cache に入れる。 -/
  | produce {s : KernelState α β} {b : α} {rest : List α} (h : s.upstream = b :: rest) :
      Step kind process s { s with upstream := rest, inputCache := s.inputCache ++ [b] }
  /-- 上流が `finish()` を呼ぶ。 -/
  | finish {s : KernelState α β} (h : s.upstream = []) :
      Step kind process s { s with finished := true }
  /-- `pullCacheData` が batch を返し、それ一つを入力にした task を `add_task` に渡す。 -/
  | pull {s : KernelState α β} {b : α} {rest : List α} (hpc : s.pc = .pulling)
      (h : s.inputCache = b :: rest) :
      Step kind process s ({ s with inputCache := rest }.addTask [b])
  /-- cache が終わって空なので `pullCacheData` が null を返し、loop を抜ける。 -/
  | pullNull {s : KernelState α β} (hpc : s.pc = .pulling) (h : s.inputCache = [])
      (hfin : s.finished = true) :
      Step kind process s { s with pc := .barrier }
  /-- Merge の `wait_until_finished` が返る。 -/
  | waitFinished {s : KernelState α β} (hpc : s.pc = .waitFinished) (hfin : s.finished = true) :
      Step kind process s { s with pc := .draining [] }
  /-- Merge の `wait_for_next` が true を返し、batch を取り出して集める。 -/
  | drain {s : KernelState α β} {inputs : List α} {b : α} {rest : List α}
      (hpc : s.pc = .draining inputs) (h : s.inputCache = b :: rest) :
      Step kind process s { s with pc := .draining (inputs ++ [b]), inputCache := rest }
  /-- Merge の `wait_for_next` が false を返し、集めた batch を全部一つの task に渡す。 -/
  | submitAll {s : KernelState α β} {inputs : List α} (hpc : s.pc = .draining inputs)
      (h : s.inputCache = []) (hfin : s.finished = true) :
      Step kind process s ({ s with pc := .barrier }.addTask inputs)
  /-- task の集合が空なので `kernel_cv.wait` を抜ける。 -/
  | passBarrier {s : KernelState α β} (hpc : s.pc = .barrier)
      (hempty : ∀ t ∈ s.tasks, t.stage = .removed) :
      Step kind process s { s with pc := RunPc.afterBarrier kind }
  /-- Distribute が `send_total_partition_counts` を呼ぶ。 -/
  | sendCounts {s : KernelState α β} (hpc : s.pc = .sendCounts) :
      Step kind process s { s with pc := .waitCount }
  /-- Distribute の `wait_for_count(total_count)` が返る。 -/
  | waitCount {s : KernelState α β} (hpc : s.pc = .waitCount) :
      Step kind process s { s with pc := .returned }
  /-- Modelled from the spec: worker が queue から task を取り出す。順は決まっていない。 -/
  | start {s : KernelState α β} {i : Nat} {t : TaskRec α} (ht : s.tasks[i]? = some t)
      (hst : t.stage = .queued) :
      Step kind process s (s.setStage i t .running)
  /-- Modelled from the spec: worker の `do_process` が終わる。出力は output cache に入る。 -/
  | process {s : KernelState α β} {i : Nat} {t : TaskRec α} (ht : s.tasks[i]? = some t)
      (hst : t.stage = .running) :
      Step kind process s { s.setStage i t .processed with output := s.output ++ process t.inputs }
  /-- Modelled from the spec: worker が task を kernel の task の集合から除き、`kernel_cv` に
  notify する。 -/
  | remove {s : KernelState α β} {i : Nat} {t : TaskRec α} (ht : s.tasks[i]? = some t)
      (hst : t.stage = .processed) :
      Step kind process s (s.setStage i t .removed)

/-- `stream` を入力にして、何歩か進んで着く状態。 -/
inductive Reachable {α β : Type} (kind : KernelKind) (process : List α → List β) (stream : List α) :
    KernelState α β → Prop
  | init : Reachable kind process stream (.init kind stream)
  | step {s s' : KernelState α β} :
      Reachable kind process stream s → Step kind process s s' → Reachable kind process stream s'

end BlazingSql
