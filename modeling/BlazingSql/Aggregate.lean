import BlazingSql.Table
import Mathlib

/-!
# aggregate の演算とその merge

`AggregateKind` のうち、部分結果を集め直して全体の結果を作れるものを扱う。
SQL の約束どおり null は数えず、null しかない列の SUM・MIN・MAX は null になる。

## merge の書き換え

MergeAggregate は、batch ごとの部分結果をつないだものに、書き換えた演算をもう一度かける。
COUNT_VALID と COUNT_ALL は SUM に、それ以外はそのままになる（`mergeKind`）。

* `aggregate_mergeKind_flatten` — 部分結果に書き換えた演算をかけると、
  全部の値に元の演算をかけたものに等しい（部分が一つ以上あるとき）
* `aggregate_perm` — どの演算も値の順序によらない

SUM・MIN・MAX は `Option.merge` の畳み込みで書くので、この二つは
結合的で可換な演算についての補題一組から出る。
-/

namespace BlazingSql

/-- `AggregateKind`。MEAN、NTH_ELEMENT、COUNT_DISTINCT は入れていない。 -/
inductive AggregateKind where
  | sum
  | sum0
  | countValid
  | countAll
  | min
  | max
  deriving DecidableEq, Repr

/-- 一つの演算を値の列にかける。 -/
def aggregate : AggregateKind → List Value → Value
  | .sum, vs => vs.foldr (Option.merge (· + ·)) none
  | .sum0, vs => some ((vs.foldr (Option.merge (· + ·)) none).getD 0)
  | .countValid, vs => some (vs.countP Option.isSome)
  | .countAll, vs => some vs.length
  | .min, vs => vs.foldr (Option.merge min) none
  | .max, vs => vs.foldr (Option.merge max) none

/-- merge で使う演算。数えた結果は足し合わせる。 -/
def mergeKind : AggregateKind → AggregateKind
  | .countValid | .countAll => .sum
  | k => k

/-! ## null を無視する畳み込み -/

section NullFold

variable {f : Int → Int → Int} (assoc : ∀ a b c, f (f a b) c = f a (f b c))
include assoc

theorem merge_assoc (a b c : Value) :
    Option.merge f (Option.merge f a b) c = Option.merge f a (Option.merge f b c) := by
  cases a <;> cases b <;> cases c <;> simp [Option.merge, assoc]

/-- 畳み込みの初期値は外に出せる。 -/
theorem foldr_merge (l : List Value) (b : Value) :
    l.foldr (Option.merge f) b = Option.merge f (l.foldr (Option.merge f) none) b := by
  induction l with
  | nil => cases b <;> rfl
  | cons x xs ih => rw [List.foldr_cons, List.foldr_cons, ih, merge_assoc assoc]

/-- 部分ごとに畳み込んでから畳み込んでも、全部を一度に畳み込んでも同じ。 -/
theorem foldr_merge_flatten (L : List (List Value)) :
    L.flatten.foldr (Option.merge f) none =
      (L.map (·.foldr (Option.merge f) none)).foldr (Option.merge f) none := by
  induction L with
  | nil => rfl
  | cons l L ih =>
    rw [List.flatten_cons, List.foldr_append, foldr_merge assoc, ih]
    rfl

theorem foldr_merge_perm (comm : ∀ a b, f a b = f b a) {l₁ l₂ : List Value} (h : l₁.Perm l₂) :
    l₁.foldr (Option.merge f) none = l₂.foldr (Option.merge f) none := by
  have hcomm (a b : Value) : Option.merge f a b = Option.merge f b a := by
    cases a <;> cases b <;> simp [Option.merge, comm]
  exact h.foldr_eq' (fun x _ y _ z => by
    rw [← merge_assoc assoc, hcomm y x, merge_assoc assoc]) none

end NullFold

/-- 和の畳み込みを `0` で読むと、値を `0` で読んだものの和になる。 -/
theorem getD_foldr_add (vs : List Value) :
    (vs.foldr (Option.merge (· + ·)) none).getD 0 = (vs.map (·.getD 0)).sum := by
  induction vs with
  | nil => rfl
  | cons v vs ih =>
    rw [List.foldr_cons, foldr_merge Int.add_assoc, List.map_cons, List.sum_cons, ← ih]
    cases v <;> cases vs.foldr (Option.merge (· + ·)) none <;> simp [Option.merge]

/-- 数えた値（null でない）の和は、数の和になる。 -/
theorem foldr_add_natCast {α : Type} {L : List α} (n : α → Nat) (hL : L ≠ []) :
    (L.map (fun l => some (n l : Int))).foldr (Option.merge (· + ·)) none =
      some (((L.map n).sum : Nat) : Int) := by
  induction L with
  | nil => exact absurd rfl hL
  | cons x xs ih =>
    rcases xs with _ | ⟨y, ys⟩
    · simp [Option.merge]
    · rw [List.map_cons, List.foldr_cons, ih (List.cons_ne_nil y ys)]
      simp [Option.merge]

/-! ## merge の正しさ -/

/--
**部分結果の merge は全体の aggregate に等しい。**

`L` は batch ごとの値の列で、一つ以上ある。
COUNT を SUM で merge するので、部分が一つもないと null になり `0` と食い違う。
-/
theorem aggregate_mergeKind_flatten (k : AggregateKind) {L : List (List Value)} (hL : L ≠ []) :
    aggregate (mergeKind k) (L.map (aggregate k)) = aggregate k L.flatten := by
  cases k with
  | sum => exact (foldr_merge_flatten Int.add_assoc L).symm
  | min => exact (foldr_merge_flatten min_assoc L).symm
  | max => exact (foldr_merge_flatten max_assoc L).symm
  | sum0 =>
    simp only [mergeKind, aggregate, getD_foldr_add, List.map_map, Function.comp_def,
      Option.getD_some, List.map_flatten, List.sum_flatten]
  | countValid =>
    rw [show aggregate .countValid = fun l => some (l.countP Option.isSome : Int) from rfl]
    simp only [mergeKind, aggregate, foldr_add_natCast _ hL, List.countP_flatten]
  | countAll =>
    rw [show aggregate .countAll = fun l => some (l.length : Int) from rfl]
    simp only [mergeKind, aggregate, foldr_add_natCast _ hL, List.length_flatten]

/-- どの演算も、値の並ぶ順序によらない。 -/
theorem aggregate_perm (k : AggregateKind) {l₁ l₂ : List Value} (h : l₁.Perm l₂) :
    aggregate k l₁ = aggregate k l₂ := by
  cases k with
  | sum => exact foldr_merge_perm Int.add_assoc Int.add_comm h
  | sum0 => simp only [aggregate, foldr_merge_perm Int.add_assoc Int.add_comm h]
  | min => exact foldr_merge_perm min_assoc min_comm h
  | max => exact foldr_merge_perm max_assoc max_comm h
  | countValid => simp only [aggregate, h.countP_eq]
  | countAll => simp only [aggregate, h.length_eq]

end BlazingSql
