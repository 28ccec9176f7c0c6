import SqlText.Proofs.Finiteness

/-!
# Integers among the floating-point numbers

The magnitudes increase with their ranks, and a number that is not farther from one of them
than the midpoints to its neighbours has its rank. From there on a rounded integer is an integer
again, and so is its shortest decimal, which reads back as the same number. Below `2 ^ 53` an
integer is rounded to itself.
-/

namespace SqlText.Number

variable {m n r s den : ℕ}

/-- The rank nearest to a number of units. -/
def rankOf (n : ℕ) : ℕ := divToEven n (2 ^ (n.log2 - 52)) + (n.log2 - 52) * 2 ^ 52

/-- An integer is a number of units. -/
theorem nearestRank_one (n : ℕ) : nearestRank n 1 = rankOf (n * 2 ^ 1074) := by
  unfold nearestRank rankOf
  -- The unit is a variable from here on, so that its power is not computed.
  generalize 1074 = unit
  simp only [Nat.div_one, Nat.one_mul]
  rfl

/-- A significand of 53 bits is scaled by a power of two. The next power of two belongs to the
next scale and has the same magnitude there. -/
theorem units_eq (hlow : 2 ^ 52 ≤ m) (hhigh : m ≤ 2 ^ 53) (s : ℕ) :
    units (m + s * 2 ^ 52) = m * 2 ^ s := by
  have hword : Nat.pow 2 52 = 2 ^ 52 := rfl
  rcases Nat.lt_or_eq_of_le hhigh with hlt | rfl
  · have hscale : scale (m + s * 2 ^ 52) = s := by
      rw [scale, hword]
      omega
    rw [units, hscale, hword, Nat.add_sub_cancel]
    rfl
  · have hscale : scale (2 ^ 53 + s * 2 ^ 52) = s + 1 := by
      rw [scale, hword]
      omega
    have hsignificand : 2 ^ 53 + s * 2 ^ 52 - (s + 1) * 2 ^ 52 = 2 ^ 52 := by omega
    rw [units, hscale, hword, hsignificand]
    change 2 ^ 52 * 2 ^ (s + 1) = _
    ring

/-- The lowest magnitudes are their ranks. -/
theorem units_of_le (h : m ≤ 2 ^ 53) : units m = m := by
  have hword : Nat.pow 2 52 = 2 ^ 52 := rfl
  rcases Nat.lt_or_ge m (2 ^ 53) with hlt | hge
  · have hscale : scale m = 0 := by
      rw [scale, hword]
      omega
    rw [units, hscale, Nat.zero_mul, Nat.sub_zero]
    exact Nat.mul_one m
  · obtain rfl : m = 2 ^ 53 := Nat.le_antisymm h hge
    exact units_eq (by decide) le_rfl 0

/-- A rank is one of the lowest, or a significand and a scale. -/
theorem rank_cases (r : ℕ) :
    r < 2 ^ 52 ∨ ∃ m s, r = m + s * 2 ^ 52 ∧ 2 ^ 52 ≤ m ∧ m < 2 ^ 53 := by
  rcases Nat.lt_or_ge r (2 ^ 52) with hlow | hhigh
  · exact .inl hlow
  · exact .inr ⟨r % 2 ^ 52 + 2 ^ 52, r / 2 ^ 52 - 1, by omega, by omega, by omega⟩

/-- The magnitudes increase with their ranks. -/
theorem strictMono_units : StrictMono units := by
  refine strictMono_nat_of_lt_succ fun r => ?_
  rcases rank_cases r with hlow | ⟨m, s, rfl, hm, hm'⟩
  · rw [units_of_le (by omega), units_of_le (by omega)]
    exact Nat.lt_succ_self r
  · have hsucc : m + s * 2 ^ 52 + 1 = m + 1 + s * 2 ^ 52 := by omega
    rw [hsucc, units_eq hm hm'.le, units_eq (by omega) hm']
    exact Nat.mul_lt_mul_of_pos_right (Nat.lt_succ_self m) (Nat.pow_pos (by decide))

/-- A quotient is rounded to a number that is not farther from it than a half; only an even
one may be as far. -/
theorem divToEven_eq (hden : 0 < den) (hlow : 2 * m * den ≤ 2 * n + den)
    (hhigh : 2 * n ≤ (2 * m + 1) * den)
    (htie : m % 2 = 1 → 2 * m * den < 2 * n + den ∧ 2 * n < (2 * m + 1) * den) :
    divToEven n den = m := by
  have hn : n = den * (n / den) + n % den := (Nat.div_add_mod n den).symm
  have hrest := Nat.mod_lt n hden
  unfold divToEven
  generalize n / den = q at hn ⊢
  generalize n % den = r at hn hrest ⊢
  subst hn
  dsimp only
  have hq : q = m ∨ q + 1 = m := by
    have hle : q ≤ m := by
      by_contra hlt
      have hmul := Nat.mul_le_mul_left den (Nat.lt_of_not_le hlt)
      rw [Nat.mul_succ] at hmul
      rw [Nat.add_mul, Nat.mul_assoc, Nat.mul_comm m] at hhigh
      omega
    have hge : m ≤ q + 1 := by
      by_contra hlt
      have hmul := Nat.mul_le_mul_left den (Nat.lt_of_not_le hlt)
      rw [Nat.mul_succ, Nat.mul_succ] at hmul
      rw [Nat.mul_assoc, Nat.mul_comm m] at hlow
      omega
    omega
  rcases hq with rfl | rfl
  · have hhalf : 2 * q * den = 2 * (den * q) := by ring
    rw [Nat.add_mul, hhalf] at hhigh htie
    split
    · rfl
    · split <;> omega
  · have hhalf : 2 * (q + 1) * den = 2 * (den * q) + 2 * den := by ring
    rw [hhalf] at hlow htie
    split
    · omega
    · split <;> omega

/-- A quotient is not rounded below an integer that it reaches. -/
theorem le_divToEven (hden : 0 < den) (h : m * den ≤ n) : m ≤ divToEven n den := by
  have hle : m ≤ n / den := (Nat.le_div_iff_mul_le hden).mpr h
  unfold divToEven
  dsimp only
  split
  · exact hle
  · split <;> omega

/-- A quotient is not rounded above an integer that it does not exceed. -/
theorem divToEven_le (hden : 0 < den) (h : n ≤ m * den) : divToEven n den ≤ m := by
  have hn : n = den * (n / den) + n % den := (Nat.div_add_mod n den).symm
  have hle : n / den ≤ m := Nat.div_le_of_le_mul (by rwa [Nat.mul_comm])
  unfold divToEven
  generalize n / den = q at hn hle ⊢
  generalize n % den = r at hn ⊢
  subst hn
  dsimp only
  rcases Nat.lt_or_eq_of_le hle with hlt | rfl
  · split
    · exact hle
    · split <;> omega
  · -- Nothing is left to be rounded.
    have hrest : r = 0 := by
      rw [Nat.mul_comm q] at h
      omega
    rw [hrest, Nat.mul_zero, if_pos hden]

/-- The logarithm of a number between two powers of two. -/
theorem log2_eq {k : ℕ} (hlow : 2 ^ k ≤ n) (hhigh : n < 2 ^ (k + 1)) : n.log2 = k := by
  have hne : n ≠ 0 := by
    rintro rfl
    exact Nat.not_succ_le_zero _ (Nat.le_trans (Nat.pow_pos (by decide)) hlow)
  exact (Nat.log2_eq_iff hne).mpr ⟨hlow, hhigh⟩

/-- Within a binade the rank is the rounded significand in the scale of the binade. -/
theorem rankOf_of_binade (hlow : 2 ^ 52 * 2 ^ s ≤ n) (hhigh : n < 2 ^ 53 * 2 ^ s) :
    rankOf n = divToEven n (2 ^ s) + s * 2 ^ 52 := by
  have hlog : n.log2 = 52 + s := by
    refine log2_eq (by rwa [Nat.pow_add]) ?_
    have hsplit : 2 ^ (52 + s + 1) = 2 ^ 53 * 2 ^ s := by ring
    rwa [hsplit]
  rw [rankOf, hlog, Nat.add_sub_cancel_left]

/-- Between the midpoints around a significand of 53 bits. The midpoint below a power of two is
nearer, so a number there may be in the binade below. -/
theorem rankOf_eq_of_significand (hm : 2 ^ 52 ≤ m) (hm' : m < 2 ^ 53) (hs : 0 < s)
    (hlow : units (m + s * 2 ^ 52 - 1) + m * 2 ^ s ≤ 2 * n)
    (hhigh : 2 * n ≤ (2 * m + 1) * 2 ^ s)
    (htie : m % 2 = 1 →
      units (m + s * 2 ^ 52 - 1) + m * 2 ^ s < 2 * n ∧ 2 * n < (2 * m + 1) * 2 ^ s) :
    rankOf n = m + s * 2 ^ 52 := by
  have hpow : 0 < 2 ^ s := Nat.pow_pos (by decide)
  have hbound : n < 2 ^ 53 * 2 ^ s := by
    have hmul : (2 * m + 1) * 2 ^ s < 2 ^ 54 * 2 ^ s :=
      Nat.mul_lt_mul_of_pos_right (by omega) hpow
    omega
  rcases Nat.lt_or_eq_of_le hm with hlt | rfl
  · have hpred : units (m + s * 2 ^ 52 - 1) + m * 2 ^ s + 2 ^ s = 2 * m * 2 ^ s := by
      have hrank : m + s * 2 ^ 52 - 1 = m - 1 + s * 2 ^ 52 := by omega
      have hdouble : 2 * m = m - 1 + m + 1 := by omega
      rw [hrank, units_eq (by omega) (by omega), hdouble, Nat.add_mul, Nat.add_mul, Nat.one_mul]
    have hbinade : 2 ^ 52 * 2 ^ s ≤ n := by
      have hmul : (2 ^ 53 + 2) * 2 ^ s ≤ 2 * m * 2 ^ s :=
        Nat.mul_le_mul_right _ (by omega)
      omega
    rw [rankOf_of_binade hbinade hbound, divToEven_eq hpow (by omega) hhigh fun hodd => ?_]
    obtain ⟨hbelow, habove⟩ := htie hodd
    exact ⟨by omega, habove⟩
  · by_cases hbinade : 2 ^ 52 * 2 ^ s ≤ n
    · rw [rankOf_of_binade hbinade hbound,
        divToEven_eq hpow (by omega) hhigh fun hodd => absurd hodd (by decide)]
    · obtain ⟨t, rfl⟩ := Nat.exists_eq_add_of_lt hs
      have hrank : 2 ^ 52 + (0 + t + 1) * 2 ^ 52 - 1 = 2 ^ 53 - 1 + t * 2 ^ 52 := by omega
      rw [hrank, units_eq (by decide) (by decide)] at hlow
      rw [Nat.zero_add, Nat.pow_succ] at hlow hbinade
      have hround : divToEven n (2 ^ t) = 2 ^ 53 :=
        divToEven_eq (Nat.pow_pos (by decide)) (by omega) (by omega)
          fun hodd => absurd hodd (by decide)
      rw [rankOf_of_binade (s := t) (by omega) (by omega), hround]
      omega

/-- A number between the midpoints around a magnitude has its rank; a midpoint itself has the
even one. -/
theorem rankOf_eq (hr : r ≠ 0) (hlow : units (r - 1) + units r ≤ 2 * n)
    (hhigh : 2 * n ≤ units r + units (r + 1))
    (htie : r % 2 = 1 → units (r - 1) + units r < 2 * n ∧ 2 * n < units r + units (r + 1)) :
    rankOf n = r := by
  rcases Nat.lt_or_ge r (2 ^ 53) with hsmall | hlarge
  · -- The magnitude is the rank, and the neighbours are the next integers.
    rw [units_of_le hsmall.le, units_of_le (m := r - 1) (by omega)] at hlow
    rw [units_of_le hsmall.le, units_of_le (m := r + 1) hsmall] at hhigh
    obtain rfl : n = r := by omega
    have hlog : n.log2 - 52 = 0 := by
      have := (Nat.log2_lt hr).mpr hsmall
      omega
    rw [rankOf, hlog, Nat.zero_mul, Nat.add_zero, Nat.pow_zero]
    exact Nat.le_antisymm (divToEven_le one_pos (by omega)) (le_divToEven one_pos (by omega))
  · obtain ⟨m, s, rfl, hm, hm'⟩ := (rank_cases r).resolve_left (by omega)
    have hsucc : m + s * 2 ^ 52 + 1 = m + 1 + s * 2 ^ 52 := by omega
    have hsum : m * 2 ^ s + (m + 1) * 2 ^ s = (2 * m + 1) * 2 ^ s := by ring
    rw [units_eq hm hm'.le] at hlow hhigh htie
    rw [hsucc, units_eq (by omega) hm', hsum] at hhigh htie
    exact rankOf_eq_of_significand hm hm' (by omega) hlow hhigh fun hodd => htie (by omega)

/-- A power of five is positive. -/
theorem five_pow_pos (k : ℕ) : 0 < Nat.pow 5 k := Nat.pow_pos (by decide)

/-- What reads back as a magnitude has its rank. -/
theorem rankOf_of_contains (hr : r ≠ 0)
    (h : (ReadBack.ofRank r).contains (2 * n * Nat.pow 5 1075) = true) : rankOf n = r := by
  unfold ReadBack.contains ReadBack.ofRank at h
  generalize 1075 = k at h
  obtain ⟨unit, hunit⟩ : ∃ unit, unit = Nat.pow 5 k := ⟨_, rfl⟩
  have hpos : 0 < unit := hunit ▸ five_pow_pos k
  simp only [← hunit] at h
  have hle {a b : ℕ} (hab : a * unit ≤ b * unit) : a ≤ b := Nat.le_of_mul_le_mul_right hab hpos
  have hlt {a b : ℕ} (hab : a * unit < b * unit) : a < b := Nat.lt_of_mul_lt_mul_right hab
  split at h
  · rename_i heven
    rw [Bool.and_eq_true, decide_eq_true_iff, decide_eq_true_iff] at h
    have heven : r % 2 = 0 := beq_iff_eq.mp heven
    exact rankOf_eq hr (hle h.1) (hle h.2) fun hodd => by omega
  · rw [Bool.and_eq_true, decide_eq_true_iff, decide_eq_true_iff] at h
    exact rankOf_eq hr (hlt h.1).le (hlt h.2).le fun _ => ⟨hlt h.1, hlt h.2⟩

/-- A magnitude reads back as itself. -/
theorem contains_value (hr : r ≠ 0) :
    (ReadBack.ofRank r).contains (ReadBack.ofRank r).value = true := by
  have hbelow : units (r - 1) < units r := strictMono_units (by omega)
  have habove : units r < units (r + 1) := strictMono_units (by omega)
  unfold ReadBack.contains ReadBack.ofRank
  generalize 1075 = k
  obtain ⟨unit, hunit⟩ : ∃ unit, unit = Nat.pow 5 k := ⟨_, rfl⟩
  have hpos : 0 < unit := hunit ▸ five_pow_pos k
  have hlow : (units (r - 1) + units r) * unit < 2 * units r * unit :=
    Nat.mul_lt_mul_of_pos_right (by omega) hpos
  have hhigh : 2 * units r * unit < (units r + units (r + 1)) * unit :=
    Nat.mul_lt_mul_of_pos_right (by omega) hpos
  simp only [← hunit]
  split <;> simp [hlow, hhigh, hlow.le, hhigh.le]

/-- A rounded significand has 53 bits, or is the next power of two. -/
theorem significand_mem_Icc (h : 2 ^ 52 ≤ n) :
    divToEven n (2 ^ (n.log2 - 52)) ∈ Set.Icc (2 ^ 52) (2 ^ 53) := by
  have hpow : 0 < 2 ^ (n.log2 - 52) := Nat.pow_pos (by decide)
  have hne : n ≠ 0 := by omega
  have hlog : 52 ≤ n.log2 := (Nat.le_log2 hne).mpr h
  constructor
  · refine le_divToEven hpow ?_
    rw [← Nat.pow_add, Nat.add_sub_cancel' hlog]
    exact Nat.log2_self_le hne
  · refine divToEven_le hpow ?_
    rw [← Nat.pow_add, show 53 + (n.log2 - 52) = n.log2 + 1 by omega]
    exact Nat.lt_log2_self.le

/-- The magnitude of a rounded number is a multiple of the last place. -/
theorem units_rankOf (h : 2 ^ 52 ≤ n) :
    units (rankOf n) = divToEven n (2 ^ (n.log2 - 52)) * 2 ^ (n.log2 - 52) :=
  units_eq (significand_mem_Icc h).1 (significand_mem_Icc h).2 _

/-- An integer other than zero has as many units as the least number with 53 bits. -/
theorem le_mul_units (hn : n ≠ 0) : 2 ^ 52 ≤ n * 2 ^ 1074 := by
  have hunit : 52 ≤ 1074 := by decide
  generalize 1074 = unit at hunit
  exact Nat.le_trans (Nat.pow_le_pow_right (by decide) hunit)
    (Nat.le_mul_of_pos_left _ (Nat.pos_of_ne_zero hn))

/-- An integer other than zero is not rounded to zero. -/
theorem nearestRank_ne_zero (hn : n ≠ 0) : nearestRank n 1 ≠ 0 := by
  have hlow := (significand_mem_Icc (le_mul_units hn)).1
  rw [nearestRank_one, rankOf]
  omega

/-- The ranks of integers below the half before a power of two are those below its rank. -/
theorem nearestRank_one_lt_iff (k : ℕ) :
    nearestRank n 1 < (1076 + k) * 2 ^ 52 ↔ 2 * n < (2 ^ 54 - 1) * 2 ^ k := by
  have hunit : 1076 = 1074 + 2 := rfl
  rw [nearestRank_one, hunit]
  generalize 1074 = unit
  have hrank := rank_lt_iff (n := n * 2 ^ unit) one_pos (unit + k)
  rw [Nat.one_mul, Nat.one_mul, Nat.div_one, Nat.pow_add, Nat.add_right_comm] at hrank
  have hscaled : 2 * (n * 2 ^ unit) < (2 ^ 54 - 1) * (2 ^ unit * 2 ^ k) ↔
      2 * n < (2 ^ 54 - 1) * 2 ^ k := by
    rw [← Nat.mul_assoc, Nat.mul_comm (2 ^ unit), ← Nat.mul_assoc]
    exact Nat.mul_lt_mul_right (Nat.pow_pos (by decide))
  exact hrank.trans hscaled

/-- An integer is rounded to an integer: where the last place is less than one, to itself. -/
theorem exists_units_nearestRank (hn : n ≠ 0) :
    ∃ m, units (nearestRank n 1) = m * 2 ^ 1074 ∧ (n < 2 ^ 53 → m = n) := by
  have hlarge := le_mul_units hn
  have hunit : 52 ≤ 1074 := by decide
  rw [nearestRank_one]
  generalize 1074 = unit at hlarge hunit ⊢
  have hlog : (n * 2 ^ unit).log2 = n.log2 + unit := by
    refine log2_eq ?_ ?_
    · rw [Nat.pow_add]
      exact Nat.mul_le_mul_right _ (Nat.log2_self_le hn)
    · rw [Nat.add_right_comm, Nat.pow_add]
      exact Nat.mul_lt_mul_of_pos_right Nat.lt_log2_self (Nat.pow_pos (by decide))
  rw [units_rankOf hlarge, hlog]
  rcases Nat.lt_or_ge n (2 ^ 53) with hsmall | hbig
  · -- The last place divides the integer, so nothing is rounded.
    have hlog' : n.log2 ≤ 52 := Nat.le_of_lt_succ ((Nat.log2_lt hn).mpr hsmall)
    have hsplit : n * 2 ^ unit = n * 2 ^ (52 - n.log2) * 2 ^ (n.log2 + unit - 52) := by
      rw [Nat.mul_assoc, ← Nat.pow_add]
      congr 2
      omega
    have hpow : 0 < 2 ^ (n.log2 + unit - 52) := Nat.pow_pos (by decide)
    refine ⟨n, ?_, fun _ => rfl⟩
    rw [hsplit]
    congr 1
    exact Nat.le_antisymm (divToEven_le hpow le_rfl) (le_divToEven hpow le_rfl)
  · have hlog' : 53 ≤ n.log2 := (Nat.le_log2 hn).mpr hbig
    have hsplit : n.log2 + unit - 52 = n.log2 - 52 + unit := by omega
    refine ⟨divToEven (n * 2 ^ unit) (2 ^ (n.log2 - 52 + unit)) * 2 ^ (n.log2 - 52), ?_,
      fun hsmall => absurd hsmall (Nat.not_lt.mpr hbig)⟩
    rw [hsplit, Nat.mul_assoc, ← Nat.pow_add]

/-- Integers below `2 ^ 53` are rounded to different numbers, and no greater one is rounded to
one of theirs. -/
theorem eq_of_nearestRank_eq (hm : m ≠ 0) (hn : n ≠ 0) (hlt : n < 2 ^ 53)
    (h : nearestRank m 1 = nearestRank n 1) : m = n := by
  have hmlt : m < 2 ^ 53 := by
    have hrank := (nearestRank_one_lt_iff (n := n) 0).mpr (by omega)
    rw [← h, nearestRank_one_lt_iff] at hrank
    omega
  obtain ⟨m', hm', hexact⟩ := exists_units_nearestRank hm
  obtain ⟨n', hn', hexact'⟩ := exists_units_nearestRank hn
  rw [hexact hmlt, h, hn', hexact' hlt] at hm'
  generalize 1074 = unit at hm'
  exact (Nat.eq_of_mul_eq_mul_right (Nat.pow_pos (by decide)) hm').symm

namespace ReadBack

variable {i : ReadBack} {tie : Tie} {grid k bound : ℕ}

/-- A number on the grid is its own nearest multiple. -/
theorem onGrid?_eq_some (hself : i.contains i.value = true) (hgrid : 0 < grid)
    (hdvd : grid ∣ i.value) : i.onGrid? tie grid = some (i.value / grid) := by
  unfold onGrid?
  simp only [Nat.div_mul_cancel hdvd, hself, Nat.sub_self, Nat.mul_zero, if_pos hgrid]
  split <;> first | rfl | contradiction

/-- The search stops at the latest at a grid that has the number on it. The decimal it finds is
a multiple of that grid and reads back. -/
theorem exists_coarsest (tie : Tie) (hlow : 0 < i.low) (hself : i.contains i.value = true)
    (hvalue : i.value = m * Nat.pow 10 k) (hk : k ≠ 0) (hbound : k ≤ bound) :
    ∃ c e, i.coarsest tie bound = (c, k + e) ∧ c ≠ 0 ∧
      i.contains (c * 10 ^ e * Nat.pow 10 k) = true := by
  induction bound with
  | zero => omega
  | succ bound ih =>
    unfold coarsest
    split
    · rename_i multiple hmultiple
      have hcontains := contains_of_onGrid? hmultiple
      obtain ⟨e, he⟩ := Nat.exists_eq_add_of_le hbound
      have hsplit : multiple * 10 ^ e * Nat.pow 10 k = multiple * Nat.pow 10 (bound + 1) := by
        change multiple * 10 ^ e * 10 ^ k = multiple * 10 ^ (bound + 1)
        rw [he]
        ring
      refine ⟨multiple, e, by rw [he], ?_, by rwa [hsplit]⟩
      rintro rfl
      rw [Nat.zero_mul, contains_zero hlow] at hcontains
      cases hcontains
    · rename_i hnone
      refine ih (Nat.le_of_lt_succ (Nat.lt_of_le_of_ne hbound ?_))
      rintro rfl
      have hten : 0 < Nat.pow 10 (bound + 1) := Nat.pow_pos (by decide)
      rw [onGrid?_eq_some hself hten (Dvd.intro_left m hvalue.symm)] at hnone
      cases hnone

end ReadBack

/-- The search begins with a power of ten that is no smaller than the unit of the integers. -/
theorem le_decimalBound (h : Nat.pow 10 1075 ≤ n) : 1075 ≤ decimalBound n := by
  have hpow : 2 ^ 3571 ≤ Nat.pow 10 1075 := by decide +kernel
  have hlog {k : ℕ} (hk : 2 ^ k ≤ n) : k ≤ n.log2 := by
    refine (Nat.le_log2 ?_).mpr hk
    rintro rfl
    exact absurd hk (Nat.not_le.mpr (Nat.pow_pos (by decide)))
  have := hlog (hpow.trans h)
  unfold decimalBound
  omega

/-- An integer in the units of the numbers that read back. -/
theorem mul_ten_pow_eq (m : ℕ) {j k : ℕ} (h : j = k + 1) :
    m * Nat.pow 10 j = 2 * (m * 2 ^ k) * Nat.pow 5 j := by
  subst h
  have hten : (10 : ℕ) ^ (k + 1) = 2 ^ (k + 1) * 5 ^ (k + 1) := by
    rw [← Nat.mul_pow]
  change m * 10 ^ (k + 1) = 2 * (m * 2 ^ k) * 5 ^ (k + 1)
  rw [hten]
  ring

/-- The magnitude of an integer is a multiple of the grid of the integers. -/
theorem value_ofRank (h : units r = m * 2 ^ 1074) :
    (ReadBack.ofRank r).value = m * Nat.pow 10 1075 := by
  have hstep : 1075 = 1074 + 1 := rfl
  unfold ReadBack.ofRank
  dsimp only
  rw [h]
  -- The powers are variables from here on, so that they are not computed.
  generalize 1075 = j at hstep ⊢
  generalize 1074 = k at hstep ⊢
  exact (mul_ten_pow_eq m hstep).symm

/-- An integer that reads back as a magnitude is rounded to it. -/
theorem nearestRank_of_contains (hr : r ≠ 0)
    (h : (ReadBack.ofRank r).contains (m * Nat.pow 10 1075) = true) : nearestRank m 1 = r := by
  have hstep : 1075 = 1074 + 1 := rfl
  rw [nearestRank_one]
  refine rankOf_of_contains hr ?_
  generalize 1075 = j at hstep h ⊢
  generalize 1074 = k at hstep ⊢
  rwa [← mul_ten_pow_eq m hstep]

/-- The shortest decimal of a rounded integer is an integer, and it is rounded to the same
number. -/
theorem exists_shortest (tie : Tie) (hn : n ≠ 0) :
    ∃ c e : ℕ, shortest tie (nearestRank n 1) = ⟨c, e⟩ ∧ c ≠ 0 ∧
      nearestRank (c * 10 ^ e) 1 = nearestRank n 1 := by
  have hr := nearestRank_ne_zero hn
  obtain ⟨m, hunits, -⟩ := exists_units_nearestRank hn
  generalize nearestRank n 1 = r at hr hunits ⊢
  have hvalue := value_ofRank hunits
  have hm : m ≠ 0 := by
    rintro rfl
    rw [Nat.zero_mul] at hunits
    exact (units_pos hr).ne' hunits
  have hbound : 1075 ≤ decimalBound (ReadBack.ofRank r).value := by
    refine le_decimalBound ?_
    rw [hvalue]
    exact Nat.le_mul_of_pos_left _ (Nat.pos_of_ne_zero hm)
  obtain ⟨c, e, hfound, hc, hcontains⟩ :=
    ReadBack.exists_coarsest tie (low_pos hr) (contains_value hr) hvalue (by decide) hbound
  refine ⟨c, e, ?_, hc, nearestRank_of_contains hr hcontains⟩
  have hexponent : ((1075 + e : ℕ) : ℤ) - 1075 = e := by omega
  rw [shortest, if_neg hr]
  extract_lets i
  have hfound : i.coarsest tie (decimalBound i.value) = (c, 1075 + e) := hfound
  -- What the search finds is taken apart without running it.
  generalize i.coarsest tie (decimalBound i.value) = found at hfound ⊢
  subst hfound
  dsimp only
  rw [hexponent]

end SqlText.Number
