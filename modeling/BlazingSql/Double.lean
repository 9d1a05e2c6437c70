import Mathlib

/-!
# C++ の `double`

`ComputeAggregateKernel::get_estimated_output_num_rows` は行の数を `double` に直し、`double` で
掛けて割り、`uint64_t` に戻す。`double` の値は正確な有理数で書き、演算の結果を IEEE 754
binary64 の既定の丸め（最近接、同点は偶数）で丸める。

* `roundHalfEven` — 有理数を最も近い整数に丸める。同点は偶数
* `roundDouble` — 有理数を、仮数 53 bit の最も近い値に丸める。`(double)n` と、`double` の
  `*` と `/` の結果はこれ
* `abs_roundDouble_sub_le` — 丸めの誤差は `|x| / 2^53` 以下
* `roundDouble_natCast` — `2^53` より小さい自然数は正確に表せる
* `floor_roundDouble_div` — 分子が `2^53` より小さい商は、丸めてから切り捨てても自然数の商と同じ

指数の範囲は書かない。見積もりに現れる値は 0 か、`2^-64` 以上 `2^128` 以下で、binary64 の
正規化数の範囲（`2^-1022` 以上 `2^1024` 未満）に入るので、overflow も非正規化数も起きない。
-/

namespace BlazingSql

/-! ## 整数への丸め -/

/-- 有理数 `m` に最も近い整数。二つが同じだけ近ければ偶数の方。 -/
def roundHalfEven (m : ℚ) : ℤ :=
  if 2 * (m - ⌊m⌋) < 1 then ⌊m⌋
  else if 1 < 2 * (m - ⌊m⌋) then ⌊m⌋ + 1
  else if ⌊m⌋ % 2 = 0 then ⌊m⌋ else ⌊m⌋ + 1

theorem abs_roundHalfEven_sub_le (m : ℚ) : |(roundHalfEven m : ℚ) - m| ≤ 1 / 2 := by
  have h₁ := Int.floor_le m
  have h₂ := Int.lt_floor_add_one m
  unfold roundHalfEven
  split_ifs <;> push_cast <;> rw [abs_le] <;> constructor <;> linarith

@[simp] theorem roundHalfEven_intCast (n : ℤ) : roundHalfEven n = n := by
  simp [roundHalfEven]

/-! ## 仮数 53 bit への丸め -/

/-- `x` の二進の桁の位置から 52 を引いたもの。`|x| / 2^e` は `[2^52, 2^53)` に入る。 -/
def doubleExponent (x : ℚ) : ℤ := Int.log 2 |x| - 52

/-- `x` に最も近い binary64 の値（同点は仮数が偶数の方）。`x / 2^e` を整数に丸め、`2^e` を掛ける。 -/
def roundDouble (x : ℚ) : ℚ :=
  if x = 0 then 0 else roundHalfEven (x / 2 ^ doubleExponent x) * 2 ^ doubleExponent x

@[simp] theorem roundDouble_zero : roundDouble 0 = 0 := by simp [roundDouble]

/-- 丸めの誤差は、単位の半分、つまり `|x| / 2^53` 以下。 -/
theorem abs_roundDouble_sub_le (x : ℚ) : |roundDouble x - x| ≤ |x| / 2 ^ 53 := by
  unfold roundDouble
  split_ifs with hx
  · simp [hx]
  set e := doubleExponent x
  have hpos : (0 : ℚ) < 2 ^ e := zpow_pos two_pos e
  -- `|x|` は `2^(e + 52)` 以上
  have hlog : (2 : ℚ) ^ (e + 52) ≤ |x| := by
    have h := Int.zpow_log_le_self (b := 2) one_lt_two (abs_pos.mpr hx)
    simpa [e, doubleExponent] using h
  calc |(roundHalfEven (x / 2 ^ e) : ℚ) * 2 ^ e - x|
      = |((roundHalfEven (x / 2 ^ e) : ℚ) - x / 2 ^ e) * 2 ^ e| := by
        rw [sub_mul, div_mul_cancel₀ _ hpos.ne']
    _ = |(roundHalfEven (x / 2 ^ e) : ℚ) - x / 2 ^ e| * 2 ^ e := by rw [abs_mul, abs_of_pos hpos]
    _ ≤ 1 / 2 * 2 ^ e := mul_le_mul_of_nonneg_right (abs_roundHalfEven_sub_le _) hpos.le
    _ = 2 ^ (e + 52) / 2 ^ 53 := by
        rw [zpow_add₀ two_ne_zero, zpow_ofNat]
        ring
    _ ≤ |x| / 2 ^ 53 := by gcongr

/-- 丸めた値が 0 になるのは 0 だけ。 -/
@[simp] theorem roundDouble_eq_zero {x : ℚ} : roundDouble x = 0 ↔ x = 0 := by
  refine ⟨fun h => ?_, fun h => h ▸ roundDouble_zero⟩
  by_contra hx
  have herr := abs_roundDouble_sub_le x
  rw [h, zero_sub, abs_neg] at herr
  have hpos := abs_pos.mpr hx
  linarith

/-- `2^53` より小さい自然数は、そのまま表せる。 -/
theorem roundDouble_natCast {n : ℕ} (h : n < 2 ^ 53) : roundDouble n = n := by
  rcases Nat.eq_zero_or_pos n with rfl | hn
  · simp
  have hlog : Nat.log 2 n ≤ 52 := Nat.le_of_lt_succ (Nat.log_lt_of_lt_pow hn.ne' h)
  -- 指数は `-k`。`n / 2^(-k) = n * 2^k` は整数
  obtain ⟨k, hk⟩ : ∃ k : ℕ, doubleExponent n = -k :=
    ⟨52 - Nat.log 2 n, by
      rw [doubleExponent, abs_of_nonneg (Nat.cast_nonneg _), Int.log_natCast]
      omega⟩
  have hint : (n : ℚ) / 2 ^ doubleExponent n = ((n * 2 ^ k : ℕ) : ℤ) := by
    rw [hk, zpow_neg, zpow_natCast, div_inv_eq_mul]
    push_cast
    rfl
  rw [roundDouble, if_neg (Nat.cast_ne_zero.mpr hn.ne'), hint, roundHalfEven_intCast, hk,
    zpow_neg, zpow_natCast]
  push_cast
  field_simp

/-- 分子が `2^53` より小さい商を丸めて切り捨てると、自然数の商になる。商が整数でなければ、
次の整数まで `1 / b` 以上離れていて、丸めの誤差はそれより小さい。 -/
theorem floor_roundDouble_div {a b : ℕ} (hb : 0 < b) (ha : a < 2 ^ 53) :
    ⌊roundDouble ((a : ℚ) / b)⌋₊ = a / b := by
  have hb' : (0 : ℚ) < b := Nat.cast_pos.mpr hb
  have hx : (0 : ℚ) ≤ a / b := by positivity
  have herr := abs_roundDouble_sub_le ((a : ℚ) / b)
  rw [abs_of_nonneg hx] at herr
  obtain ⟨herr₁, herr₂⟩ := abs_le.mp herr
  -- `a / b` の整数の部分と余り
  have hsplit : (a : ℚ) / b = (a / b : ℕ) + (a % b : ℕ) / b := by
    field_simp
    exact_mod_cast (Nat.div_add_mod' a b).symm
  rcases Nat.eq_zero_or_pos (a % b) with hr | hr
  · have hq : (a : ℚ) / b = (a / b : ℕ) := by rw [hsplit, hr]; simp
    rw [hq, roundDouble_natCast ((Nat.div_le_self a b).trans_lt ha), Nat.floor_natCast]
  -- 誤差は `1 / b` より小さい
  have hsmall : (a : ℚ) / b / 2 ^ 53 < 1 / b := by
    rw [div_div, div_lt_div_iff₀ (by positivity) hb', one_mul, mul_comm]
    exact mul_lt_mul_of_pos_left (by exact_mod_cast ha) hb'
  have hlow : (1 : ℚ) / b ≤ (a % b : ℕ) / b := by gcongr; exact_mod_cast hr
  have hhigh : ((a % b : ℕ) : ℚ) / b + 1 / b ≤ 1 := by
    rw [div_add_div_same, div_le_one hb']
    exact_mod_cast Nat.mod_lt a hb
  have hq : ((a / b : ℕ) : ℚ) ≤ roundDouble ((a : ℚ) / b) := by linarith
  rw [Nat.floor_eq_iff ((Nat.cast_nonneg _).trans hq)]
  exact ⟨hq, by linarith⟩

end BlazingSql
