import FormulaSheet.Decimal.Shortest
import FormulaSheet.Proofs.Decimal.Digits
import FormulaSheet.Proofs.Decimal.Numeral
/-!
The form of the shortest text of a finite number: a sign if there is one, digits without leading
zeros, and a fraction or an exponent. That the digits are the right ones is not claimed here.
-/

namespace FormulaSheet.Decimal

open Text

/-- A numeral in western digits with no needless zero in front, and with a fraction or an
exponent. -/
structure Numeral.Written (n : Numeral) : Prop where
  lead : n.whole = ['0'] ∨ n.whole ≠ [] ∧ n.whole.head? ≠ some '0'
  whole : ∀ c ∈ n.whole, isAsciiDigit c = true
  fraction : ∀ ds ∈ n.fraction, ds ≠ [] ∧ ∀ c ∈ ds, isAsciiDigit c = true
  exponent : ∀ e ∈ n.exponent, e.mark = 'e' ∧ (e.sign = some '+' ∨ e.sign = some '-') ∧
    e.digits ≠ [] ∧ ∀ c ∈ e.digits, isAsciiDigit c = true
  pointed : n.fraction ≠ none ∨ n.exponent ≠ none

theorem Numeral.Written.formed {n : Numeral} (h : n.Written) : n.Formed := by
  refine ⟨fun c hc => isDigit_of_isAsciiDigit (h.whole c hc), ?_, ?_, ?_⟩
  · intro ds hds c hc
    exact isDigit_of_isAsciiDigit ((h.fraction ds hds).2 c hc)
  · rcases h.lead with zero | ⟨nonempty, _⟩
    · simp [zero]
    · simp [nonempty]
  · intro e he
    obtain ⟨mark, sign, nonempty, digits⟩ := h.exponent e he
    refine ⟨.inl mark, ?_, fun c hc => isDigit_of_isAsciiDigit (digits c hc), nonempty⟩
    rcases sign with sign | sign
    · simp [sign]
    · simp [sign]

theorem Numeral.Written.exists_digit {n : Numeral} (h : n.Written) :
    ∃ c tail, n.chars = c :: tail ∧ isAsciiDigit c = true := by
  obtain ⟨whole, fraction, exponent⟩ := n
  cases whole with
  | nil => exact absurd h.lead (by simp)
  | cons c tail => exact ⟨c, _, rfl, h.whole c List.mem_cons_self⟩

/-! Laying out. -/

theorem Significand.normalize_ne_zero {s : Significand} (h : s.coefficient ≠ 0) :
    s.normalize.coefficient ≠ 0 := by
  induction s using normalize.induct with
  | case1 s trailing ih =>
    rw [normalize, dif_pos trailing]
    exact ih (by dsimp only; omega)
  | case2 s trimmed =>
    rw [normalize, dif_neg trimmed]
    exact h

theorem isAsciiDigit_zeros (n : Nat) : ∀ c ∈ List.replicate n '0', isAsciiDigit c = true := by
  intro c hc
  rw [List.eq_of_mem_replicate hc]
  decide

theorem exponentText_written (e : Int) : ∃ p : Exponent, exponentText e = p.chars ∧ p.mark = 'e' ∧
    (p.sign = some '+' ∨ p.sign = some '-') ∧ p.digits ≠ [] ∧
    ∀ c ∈ p.digits, isAsciiDigit c = true := by
  have nonempty := digits_ne_nil e.natAbs
  have digits := isAsciiDigit_digits e.natAbs
  refine ⟨⟨'e', some (if e < 0 then '-' else '+'),
    if (Decimal.digits e.natAbs).length < 2 then '0' :: Decimal.digits e.natAbs
    else Decimal.digits e.natAbs⟩, rfl, rfl, ?_, ?_, ?_⟩
  · by_cases negative : e < 0
    · simp [negative]
    · simp [negative]
  · dsimp only
    split
    · simp
    · exact nonempty
  · intro c hc
    dsimp only at hc
    split at hc
    · rcases List.mem_cons.mp hc with rfl | hc
      · decide
      · exact digits c hc
    · exact digits c hc

/-! Numerals of digits, by where their point stands. -/

section

variable {ds : List Char}

theorem written_whole (ascii : ∀ c ∈ ds, isAsciiDigit c = true) (nonempty : ds ≠ [])
    (lead : ds.head? ≠ some '0') (n : Nat) :
    Numeral.Written ⟨ds ++ List.replicate n '0', some ['0'], none⟩ := by
  refine ⟨.inr ⟨by simp [nonempty], ?_⟩, ?_, ?_, by simp, .inl (by simp)⟩
  · rwa [List.head?_append_of_ne_nil _ nonempty]
  · intro c hc
    rcases List.mem_append.mp hc with hc | hc
    · exact ascii c hc
    · exact isAsciiDigit_zeros _ c hc
  · rintro fraction ⟨⟩
    exact ⟨by simp, isAsciiDigit_zeros 1⟩

theorem written_among (ascii : ∀ c ∈ ds, isAsciiDigit c = true) (lead : ds.head? ≠ some '0')
    {n : Nat} (inside : 0 < n ∧ n < ds.length) :
    Numeral.Written ⟨ds.take n, some (ds.drop n), none⟩ := by
  refine ⟨.inr ⟨?_, ?_⟩, fun c hc => ascii c (List.mem_of_mem_take hc), ?_, by simp,
    .inl (by simp)⟩
  · rw [← List.length_pos_iff, List.length_take]
    omega
  · rwa [List.head?_take, if_neg (by omega)]
  · rintro fraction ⟨⟩
    refine ⟨?_, fun c hc => ascii c (List.mem_of_mem_drop hc)⟩
    rw [← List.length_pos_iff, List.length_drop]
    omega

theorem written_below (ascii : ∀ c ∈ ds, isAsciiDigit c = true) (nonempty : ds ≠ []) (n : Nat) :
    Numeral.Written ⟨['0'], some (List.replicate n '0' ++ ds), none⟩ := by
  refine ⟨.inl rfl, isAsciiDigit_zeros 1, ?_, by simp, .inl (by simp)⟩
  rintro fraction ⟨⟩
  refine ⟨by simp [nonempty], ?_⟩
  intro c hc
  rcases List.mem_append.mp hc with hc | hc
  · exact isAsciiDigit_zeros _ c hc
  · exact ascii c hc

theorem written_scientific {d : Char} {more : List Char}
    (ascii : ∀ c ∈ d :: more, isAsciiDigit c = true) (lead : d ≠ '0') {p : Exponent}
    (form : p.mark = 'e' ∧ (p.sign = some '+' ∨ p.sign = some '-') ∧ p.digits ≠ [] ∧
      ∀ c ∈ p.digits, isAsciiDigit c = true) :
    Numeral.Written ⟨[d], if more.isEmpty then none else some more, some p⟩ := by
  obtain ⟨first, others⟩ := List.forall_mem_cons.mp ascii
  refine ⟨.inr ⟨by simp, by simpa using lead⟩, by simpa using first, ?_, ?_, .inr (by simp)⟩
  · intro fraction hf
    dsimp only at hf
    split at hf
    · cases hf
    · rename_i nonempty
      cases hf
      exact ⟨by simpa using nonempty, others⟩
  · rintro e ⟨⟩
    exact form

end

theorem render_written {s : Significand} (h : s.coefficient ≠ 0) :
    ∃ n : Numeral, n.Written ∧ shortestLayout.render s = n.chars := by
  have nonzero := Significand.normalize_ne_zero h
  unfold Layout.render
  generalize s.normalize = s at nonzero ⊢
  have nonempty := digits_ne_nil s.coefficient
  have ascii := isAsciiDigit_digits s.coefficient
  have lead := head?_digits nonzero
  dsimp only
  split
  · split
    · exact ⟨_, written_whole ascii nonempty lead s.exponent.toNat, by
        simp [Numeral.chars, shortestLayout]⟩
    · split
      · generalize hw : (s.exponent + (digits s.coefficient).length - 1).toNat + 1 = whole
        exact ⟨_, written_among ascii lead (n := whole) (by omega), by simp [Numeral.chars]⟩
      · generalize (-(s.exponent + (digits s.coefficient).length - 1) - 1).toNat = zeros
        exact ⟨_, written_below ascii nonempty zeros, by simp [Numeral.chars]⟩
  · obtain ⟨p, text, form⟩ :=
      exponentText_written (s.exponent + (digits s.coefficient).length - 1)
    split
    · rename_i none
      exact absurd none nonempty
    · rename_i d more some
      rw [some] at ascii lead
      refine ⟨_, written_scientific ascii (by simpa using lead) form, ?_⟩
      rw [text]
      cases more <;> simp [Numeral.chars]

/-! The shortest digits. -/

theorem gridPoint?_ne_zero {a : Magnitude} (h : a.m ≠ 0) {e : Int} {d : Nat}
    (found : gridPoint? a e = some d) : d ≠ 0 := by
  rintro rfl
  have power : ∀ b k : Nat, 0 < b → 0 < Nat.pow b k := fun b k hb => Nat.pow_pos hb
  have unit : 0 < (scaled (powerOfTwo (a.q - 2)).1 (powerOfTwo (a.q - 2)).2 e).1 :=
    Nat.mul_pos (power _ _ (by decide)) (power _ _ (by decide))
  have low : 0 < if a.narrowBelow then 4 * a.m - 1 else 4 * a.m - 2 := by
    split <;> omega
  have above := Nat.mul_pos low unit
  unfold gridPoint? at found
  dsimp only at found
  generalize (scaled (powerOfTwo (a.q - 2)).1 (powerOfTwo (a.q - 2)).2 e).1 = u at found above
  generalize (scaled (powerOfTwo (a.q - 2)).1 (powerOfTwo (a.q - 2)).2 e).2 = v at found
  generalize (if a.narrowBelow then 4 * a.m - 1 else 4 * a.m - 2) = low at found above
  generalize 4 * a.m * u / v = d at found
  cases d with
  | succ d =>
    split at found
    · split at found <;> cases found
    · cases found
    · cases found
    · cases found
  | zero =>
    -- zero lies below the interval
    simp only [Nat.zero_mul, Nat.not_le.mpr above, Nat.not_lt_zero, decide_false, Bool.false_and,
      ite_self] at found
    split at found
    · contradiction
    · contradiction
    · cases found
    · cases found

theorem magnitude_of_zero {x : Float} (h : (magnitude x).m = 0) :
    magnitude x = ⟨0, -1074, false⟩ := by
  unfold magnitude at h ⊢
  dsimp only at h ⊢
  split
  · rename_i zero
    rw [if_pos zero] at h
    rw [show x.toBits.toNat % Nat.pow 2 52 = 0 from h]
  · rename_i some
    rw [if_neg some] at h
    have := Nat.pow_pos (n := 52) (show 0 < 2 by decide)
    simp at h

theorem shortestSignificand_ne_zero {a : Magnitude} (h : a.m ≠ 0) :
    (shortestSignificand a).coefficient ≠ 0 := by
  unfold shortestSignificand
  dsimp only
  cases hf : (List.range 17).findSome? _ with
  | some s =>
    obtain ⟨n, _, hn⟩ := List.exists_of_findSome?_eq_some hf
    obtain ⟨d, found, rfl⟩ := Option.map_eq_some_iff.mp hn
    exact gridPoint?_ne_zero h found
  | none =>
    have power : 0 < Nat.pow 2 a.q.toNat := Nat.pow_pos (by decide)
    exact Nat.mul_ne_zero h (Nat.ne_of_gt power)

theorem render_zero :
    shortestLayout.render (shortestSignificand ⟨0, -1074, false⟩) = ['0', '.', '0'] := by
  decide +kernel

/-- A number whose significand is zero is written like zero, be it equal to zero or not. -/
theorem shortest_written {x : Float} (defined : x.isNaN = false) (finite : x.isInf = false) :
    ∃ n : Numeral, n.Written ∧
      (shortest x).toList = (if isNegative x then ['-'] else []) ++ n.chars := by
  have zero : (Numeral.mk ['0'] (some ['0']) none).Written :=
    ⟨.inl rfl, isAsciiDigit_zeros 1, by rintro ds ⟨⟩; exact ⟨by simp, isAsciiDigit_zeros 1⟩,
      by simp, .inl (by simp)⟩
  unfold shortest
  simp only [defined, finite, Bool.false_eq_true, if_false, String.toList_ofList,
    List.append_cancel_left_eq]
  split
  · exact ⟨_, zero, rfl⟩
  · by_cases none : (magnitude x).m = 0
    · rw [magnitude_of_zero none, render_zero]
      exact ⟨_, zero, rfl⟩
    · exact render_written (shortestSignificand_ne_zero none)

end FormulaSheet.Decimal
